import BroadcastRelay.Settings.Basic
import BroadcastRelay.Settings.Error
/-!
# Which settings a relay can start with

`Settings.check` refuses an address that is none, half a certificate, a redirect to a listener that
is not secure, and what the media engine refuses, in this order. `Settings.listener` says how the
main listener is served.
-/

namespace BroadcastRelay

/-- The address of the main listener. -/
def ServerSettings.address (s : ServerSettings) : Except SettingsError Net.SocketAddress :=
  match s.address? with
  | some a => .ok a
  | none => .error (.invalidValue "HTTP_ADDRESS" s.httpAddress)

namespace Settings

/-- Refuses settings that a relay cannot start with. -/
def check (s : Settings) : Except SettingsError Unit := do
  let _ ← s.server.address
  if s.tls.cert.isSome != s.tls.key.isSome then throw .unpairedCertificate
  if s.redirect.enabled && s.tls.paths?.isNone then throw .redirectWithoutTls
  s.media.check.mapError .media

/-- How the main listener is served. -/
inductive Listener where
  /-- Without encryption. -/
  | plain
  /-- With the certificate and the key in these files. -/
  | secure (cert key : String)
deriving DecidableEq, Repr

/-- How the main listener is served. -/
def listener (s : Settings) : Listener :=
  match s.tls.paths? with
  | some (cert, key) => .secure cert key
  | none => .plain

end Settings

end BroadcastRelay
