import BroadcastRelay.Credential.Basic
import BroadcastRelay.Media.Settings
import BroadcastRelay.Net.Address
/-!
# Settings of the relay

`Settings` holds what a deployment decides: where the gateway listens, its certificate, the
redirecting listener, where credentials are kept, the media engine, the self-test at the start, and
which routes there are. Each section has a value for every setting, so a text may leave out whatever
it likes.
-/

namespace BroadcastRelay

/-! ## Sections -/

/-- Where the gateway listens. -/
structure ServerSettings where
  /-- An address with a port, or a colon and a port for every interface. -/
  httpAddress : String
deriving DecidableEq, Repr

/-- The certificate of the main listener. -/
structure TlsSettings where
  /-- The file of the certificate chain. -/
  cert : Option String
  /-- The file of the private key. -/
  key : Option String
deriving DecidableEq, Repr

/-- The listener that redirects to the secure one. -/
structure RedirectSettings where
  /-- Whether there is such a listener. -/
  enabled : Bool
  /-- Its port, on every interface. -/
  port : UInt16
deriving DecidableEq, Repr

/-- The database that keeps credentials. -/
structure DatabaseSettings where
  /-- The URL of the database. -/
  url : Option String
  /-- The most connections at one time. -/
  maxConnections : UInt32
  /-- How many seconds a request waits for a connection. -/
  acquireTimeoutSeconds : UInt64
deriving DecidableEq, Repr

/-- The self-test before the listeners open. -/
structure SelfTestSettings where
  /-- Whether there is one. -/
  enabled : Bool
  /-- How many seconds it may take. -/
  timeoutSeconds : UInt64
  /-- The stream that the test asks for. -/
  streamKey : String
deriving DecidableEq, Repr

/-- Which routes there are. -/
structure ApiSettings where
  /-- Whether the status routes are left out. -/
  disableStatus : Bool
deriving DecidableEq, Repr

/-- The settings of the relay. -/
structure Settings where
  /-- Where the gateway listens. -/
  server : ServerSettings
  /-- The certificate of the main listener. -/
  tls : TlsSettings
  /-- The listener that redirects. -/
  redirect : RedirectSettings
  /-- The database that keeps credentials. -/
  database : DatabaseSettings
  /-- The media engine. -/
  media : EngineSettings
  /-- The self-test. -/
  selfTest : SelfTestSettings
  /-- Which routes there are. -/
  api : ApiSettings
  /-- The credentials that hold where no database is named. -/
  streamers : List Credential
deriving DecidableEq, Repr

/-! ## What holds where nothing is said -/

/-- Port 8080 of every interface. -/
def ServerSettings.default : ServerSettings := ⟨":8080"⟩

/-- No certificate. -/
def TlsSettings.default : TlsSettings := ⟨none, none⟩

/-- No redirect, and port 80 for when there is one. -/
def RedirectSettings.default : RedirectSettings := ⟨false, 80⟩

/-- No database. -/
def DatabaseSettings.default : DatabaseSettings := ⟨none, 10, 5⟩

/-- No self-test, and ten seconds for when there is one. -/
def SelfTestSettings.default : SelfTestSettings := ⟨false, 10, "relaybox-self-test"⟩

/-- Every route. -/
def ApiSettings.default : ApiSettings := ⟨false⟩

/-- The settings that hold where nothing is said. -/
def Settings.default : Settings :=
  ⟨.default, .default, .default, .default, .default, .default, .default, []⟩

/-! ## What sections mean -/

/-- The address of the main listener. -/
def ServerSettings.address? (s : ServerSettings) : Option Net.SocketAddress :=
  Net.SocketAddress.parse?
    (if s.httpAddress.toList.head? = some ':' then "0.0.0.0" ++ s.httpAddress else s.httpAddress)

/-- The files of the certificate and the key, if both are named. -/
def TlsSettings.paths? (s : TlsSettings) : Option (String × String) :=
  match s.cert, s.key with
  | some cert, some key => if cert = "" ∨ key = "" then none else some (cert, key)
  | _, _ => none

/-- The address of the redirecting listener. -/
def RedirectSettings.address (s : RedirectSettings) : Net.SocketAddress :=
  ⟨.v4 0 0 0 0, 0, s.port⟩

/-- The URL of the database, if there is one. -/
def DatabaseSettings.url? (s : DatabaseSettings) : Option String := s.url.filter (· ≠ "")

end BroadcastRelay
