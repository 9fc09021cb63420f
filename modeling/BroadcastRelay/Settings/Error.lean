import BroadcastRelay.Document.Decode
import BroadcastRelay.EnvFile.Line
import BroadcastRelay.Media.Error
import BroadcastRelay.Text.Quoted
/-!
# What can be wrong with settings

`SettingsError` tells the causes apart: a file that cannot be read, a text that is no settings, an
env file that is none, a value that cannot be used, a certificate that is not complete, and what the
media engine refuses.
-/

namespace BroadcastRelay

/-- Why a file cannot be read. -/
inductive FileError where
  /-- There is nothing of that name. -/
  | notFound
  /-- A part of the path that is not the last is no directory. -/
  | notDirectory
  /-- It is a directory. -/
  | isDirectory
  /-- It is not text. -/
  | notText
  /-- Another reason of the operating system. -/
  | system (text : String)
deriving DecidableEq, Repr

/-- The text of the failure. -/
def FileError.message : FileError → String
  | notFound => "No such file or directory (os error 2)"
  | notDirectory => "Not a directory (os error 20)"
  | isDirectory => "Is a directory (os error 21)"
  | notText => "stream did not contain valid UTF-8"
  | system text => text

/-- What is wrong with settings. -/
inductive SettingsError where
  /-- A file cannot be read. -/
  | file (path : String) (cause : FileError)
  /-- A text is no settings. -/
  | document (cause : DecodeError)
  /-- A file is no env file. -/
  | envFile (path : String) (fault : EnvFile.Fault)
  /-- The value of a variable cannot be used. -/
  | invalidValue (name value : String)
  /-- A certificate without a key, or a key without a certificate. -/
  | unpairedCertificate
  /-- A redirect to a listener that is not secure. -/
  | redirectWithoutTls
  /-- The media engine refuses its settings. -/
  | media (cause : TransportError)
deriving DecidableEq, Repr

/-- The text of the error. -/
def SettingsError.message : SettingsError → String
  | file path cause => "IO error: " ++ path ++ ": " ++ cause.message
  | document cause => "Parse error: " ++ cause.message
  | envFile path fault => "Parse error: " ++ path ++ ": " ++ fault.message
  | invalidValue name value => "Invalid value for " ++ name ++ ": " ++ Quoted.encode value
  | unpairedCertificate => "TLS configuration error: SSL_CERT and SSL_KEY must be set together"
  | redirectWithoutTls =>
    "TLS configuration error: the HTTPS redirect listener requires TLS to be configured"
  | media cause => "WebRTC configuration error: " ++ cause.message

end BroadcastRelay
