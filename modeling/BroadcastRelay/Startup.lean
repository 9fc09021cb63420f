import BroadcastRelay.Credential.Store
import BroadcastRelay.Gateway.Relay
import BroadcastRelay.Gateway.Router
import BroadcastRelay.Net.Listen
import BroadcastRelay.Net.Pem
import BroadcastRelay.SelfTest
import BroadcastRelay.Settings.Check
import BroadcastRelay.Settings.Load
/-!
# Starting a relay

`Startup.start` brings a relay up on a host: it checks the settings, makes the store and the engine,
runs the self-test if there is one, and opens the listeners, the redirecting one first. The first
step that fails ends it with a `StartError`, which has a text for what was under way
(`StartError.context`) and one for the reason (`StartError.cause?`).
-/

namespace BroadcastRelay

/-- What a relay meets where it is started. -/
structure Host where
  /-- The files. -/
  files : Settings.Files
  /-- The folders that may hold an env file. -/
  envFolders : List String
  /-- The addresses on which somebody listens. -/
  network : Net.Network
  /-- The other side of a credential database. -/
  database : Database
  /-- How long a connection takes to come about, if it does. -/
  connects : Option Duration
  /-- The seconds since the epoch. -/
  now : UInt64

/-- The listeners of a relay. -/
inductive ListenerKind where
  /-- The gateway without encryption. -/
  | plain
  /-- The gateway with encryption. -/
  | secure
  /-- The redirect to the secure gateway. -/
  | redirect
deriving DecidableEq, Repr

/-- What a listener is called. -/
def ListenerKind.name : ListenerKind → String
  | plain => "HTTP server"
  | secure => "HTTPS server"
  | redirect => "redirect server"

/-- Why a relay does not start. -/
inductive StartError where
  /-- The settings are refused. -/
  | settings (cause : SettingsError)
  /-- The store cannot be made. -/
  | store (cause : StoreError)
  /-- The engine cannot be made. -/
  | engine (cause : TransportError)
  /-- The self-test did not pass. -/
  | selfTest (outcome : SelfTest.Outcome)
  /-- A file of the certificate cannot be read. -/
  | certificateFile (cert key : String) (cause : FileError)
  /-- The files of the certificate cannot secure a listener. -/
  | certificate (cert key : String) (cause : Net.KeyPair.Fault)
  /-- A listener cannot be opened. -/
  | listener (kind : ListenerKind) (address : Net.SocketAddress) (cause : Net.BindError)
deriving DecidableEq, Repr

namespace StartError

/-- The text for what was under way. -/
def context : StartError → String
  | settings _ => "invalid configuration"
  | store _ => "invalid Postgres configuration"
  | engine _ => "failed to start WebRTC engine"
  | selfTest outcome => "startup self-test " ++ outcome.message
  | certificateFile cert key _ | certificate cert key _ =>
    "failed to load TLS certificate " ++ cert ++ " / key " ++ key
  | listener kind address _ => kind.name ++ " on " ++ address.render ++ " failed"

/-- The text for the reason, if it is not said already. -/
def cause? : StartError → Option String
  | settings cause => some cause.message
  | store cause => some cause.message
  | engine cause => some cause.message
  | selfTest _ => none
  | certificateFile _ _ cause => some cause.message
  | certificate _ _ cause => some cause.message
  | listener _ _ cause => some cause.message

end StartError

namespace Startup

/-! ## Store and engine -/

/-- How the store of a deployment answers. -/
def storeAnswers : StoreAnswers Store := ⟨Store.find, Store.streamKeys⟩

/-- Makes the store that the settings ask for. -/
def openStore (s : Settings) (server : Database) : Except StartError Store :=
  (Store.make s.database.url? s.streamers server).mapError .store

/-- Makes the store and the engine of checked settings. -/
def prepare (host : Host) (s : Settings) : Except StartError (Relay Store) := do
  s.check.mapError StartError.settings
  let store ← openStore s host.database
  let engine ← (Engine.make s.media).mapError StartError.engine
  return ⟨store, engine⟩

/-! ## The self-test -/

/-- The gateway of a relay, for a client in the same process. -/
def gateway (host : Host) (s : Settings) : SelfTest.Server (Relay Store) := fun request r =>
  let backend := Relay.backend storeAnswers host.now "self-test"
  let o := (Gateway.respond (!s.api.disableStatus) request).run backend r
  (some (.ofResponse o.result), o.backend)

/-- Runs the self-test if there is one; only a pass lets the start go on. -/
def gate {σ : Type} (server : SelfTest.Server σ) (connects : Option Duration) (s : Settings)
    (state : σ) : Except StartError Unit × σ :=
  if !s.selfTest.enabled then (.ok (), state)
  else
    match SelfTest.run server connects s.media s.selfTest state with
    | (.passed _, state) => (.ok (), state)
    | (outcome, state) => (.error (.selfTest outcome), state)

/-! ## Listeners -/

/-- Opens a listener. -/
def bind (n : Net.Network) (kind : ListenerKind) (a : Net.SocketAddress) :
    Except StartError Net.Network :=
  (n.bind a).mapError (.listener kind a)

/-- Opens the redirecting listener, if there is one. -/
def openRedirect (n : Net.Network) (s : Settings) : Except StartError Net.Network :=
  if s.redirect.enabled then bind n .redirect s.redirect.address else .ok n

/-- Reads the certificate and the key. -/
def loadCertificate (files : Settings.Files) (cert key : String) : Except StartError Unit := do
  let certBytes ← (files cert).mapError (StartError.certificateFile cert key)
  let keyBytes ← (files key).mapError (StartError.certificateFile cert key)
  (Net.KeyPair.check certBytes keyBytes).mapError (.certificate cert key)

/-- Opens the listener of the gateway. -/
def openMain (files : Settings.Files) (n : Net.Network) (s : Settings) :
    Except StartError Net.Network := do
  let a ← s.server.address.mapError StartError.settings
  match s.listener with
  | .plain => bind n .plain a
  | .secure cert key =>
    loadCertificate files cert key
    bind n .secure a

/-! ## The whole -/

/-- A relay that has been started: its store and engine, and the addresses now taken. -/
structure Started where
  /-- The store and the engine. -/
  relay : Relay Store
  /-- The addresses on which somebody listens. -/
  network : Net.Network

/-- Starts a relay. -/
def start (host : Host) (s : Settings) : Except StartError Started := do
  let relay ← prepare host s
  let (passed, relay) := gate (gateway host s) host.connects s relay
  passed
  let n ← openRedirect host.network s
  return ⟨relay, ← openMain host.files n s⟩

end Startup

end BroadcastRelay
