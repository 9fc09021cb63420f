import BroadcastRelay.Text.Blank
import BroadcastRelay.Text.Utf8
import BroadcastRelay.Text.Split
/-!
# Certificates and keys in files

Certificates and private keys are kept as sections of text between two marked lines that name what
stands there. `Pem.sections` finds the sections, and `KeyPair.check` says whether two files can
secure a listener: a file with a certificate at least, and one with a single private key.
-/

namespace BroadcastRelay.Net

namespace Pem

/-- The name in a marked line that starts with the word. -/
def label? (word : String) (line : List Char) : Option String :=
  ((dropStart? ("-----" ++ word ++ " ").toList (trim line)).bind (dropEnd? "-----".toList)).map
    String.ofList

/-- The names of the sections; a section that does not end is none. -/
def sectionsFrom : Option String → List (List Char) → List String
  | _, [] => []
  | none, line :: lines => sectionsFrom (label? "BEGIN" line) lines
  | some name, line :: lines =>
    if label? "END" line = some name then name :: sectionsFrom none lines
    else sectionsFrom (some name) lines

/-- The names of the sections of a file. -/
def sections (content : Bytes) : List String :=
  sectionsFrom none (split (· == '\n') (Utf8.decodeLossy content).toList)

/-- Whether a section of this name holds a certificate. -/
def isCertificate (name : String) : Bool := name == "CERTIFICATE"

/-- Whether a section of this name holds a private key. -/
def isPrivateKey (name : String) : Bool :=
  ["PRIVATE KEY", "RSA PRIVATE KEY", "EC PRIVATE KEY"].contains name

end Pem

namespace KeyPair

/-- Why two files cannot secure a listener. -/
inductive Fault where
  /-- There is not exactly one private key. -/
  | noSingleKey
  /-- There is no certificate. -/
  | noCertificate
deriving DecidableEq, Repr

/-- The text of the fault. -/
def Fault.message : Fault → String
  | noSingleKey => "private key format not supported"
  | noCertificate => "peer sent no certificates"

/-- Refuses files that cannot secure a listener. -/
def check (cert key : Bytes) : Except Fault Unit :=
  if (Pem.sections key).countP Pem.isPrivateKey ≠ 1 then .error .noSingleKey
  else if (Pem.sections cert).countP Pem.isCertificate = 0 then .error .noCertificate
  else .ok ()

end KeyPair

end BroadcastRelay.Net
