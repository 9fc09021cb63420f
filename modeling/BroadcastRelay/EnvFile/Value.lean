import BroadcastRelay.EnvFile.Line
import BroadcastRelay.Text.Alphanumeric
/-!
# Values of an env file

`readValue` reads the text behind an equals sign. Quotes may stand anywhere in it; between double
quotes and outside quotes a backslash takes the meaning from the next character, and a dollar sign
puts in the value of a variable, whose name may stand between braces. Outside quotes a space ends
the value, and only a comment may follow.
-/

namespace BroadcastRelay.EnvFile

/-- What the next character of a value means. -/
inductive Mode where
  /-- It stands for itself, between double quotes or outside quotes. -/
  | plain (quoted : Bool)
  /-- It stands between single quotes. -/
  | strong
  /-- It follows a backslash. -/
  | escaped (quoted : Bool)
  /-- It may go on with the name of a variable, last character first. -/
  | name (quoted : Bool) (rev : List Char)
  /-- It may go on with the name of a variable between braces, last character first. -/
  | braced (quoted : Bool) (rev : List Char)
  /-- It follows the value. -/
  | ended
deriving DecidableEq, Repr

/-- What a character does. -/
inductive Effect where
  /-- It adds text, and the next character has a meaning. -/
  | goOn (added : List Char) (mode : Mode)
  /-- It starts a comment. -/
  | stop
  /-- It must not stand there. -/
  | refused
deriving DecidableEq, Repr

/-- The character that an escaped character stands for. -/
def unescape? (c : Char) : Option Char :=
  if c = 'n' then some '\n'
  else if c = '\\' ∨ c = '\'' ∨ c = '"' ∨ c = '$' ∨ c = ' ' then some c
  else none

/-- What a character does where it stands for itself. -/
def plainEffect (quoted : Bool) (c : Char) : Effect :=
  if c = '$' then .goOn [] (.name quoted [])
  else if c = '\\' then .goOn [] (.escaped quoted)
  else if c = '"' then .goOn [] (.plain !quoted)
  else if quoted then .goOn [c] (.plain true)
  else if c = '\'' then .goOn [] .strong
  else if c = ' ' ∨ c = '\t' then .goOn [] .ended
  else .goOn [c] (.plain false)

/-- What a character does that ends the name of a variable with the given value. It stands for
itself even where it is a quote. -/
def afterName (value : List Char) (quoted : Bool) (c : Char) : Effect :=
  if c = '$' then .goOn value (.name quoted []) else .goOn (value ++ [c]) (.plain quoted)

/-- What a character does, where `look` gives the values of variables. -/
def effect (look : String → List Char) : Mode → Char → Effect
  | .plain quoted, c => plainEffect quoted c
  | .strong, c => if c = '\'' then .goOn [] (.plain false) else .goOn [c] .strong
  | .escaped quoted, c =>
    match unescape? c with
    | some e => .goOn [e] (.plain quoted)
    | none => .refused
  | .name quoted rev, c =>
    if isAlphanumeric c then .goOn [] (.name quoted (c :: rev))
    else if c = Char.ofNat 0x7B ∧ rev = [] then .goOn [] (.braced quoted [])
    else afterName (look (String.ofList rev.reverse)) quoted c
  | .braced quoted rev, c =>
    if c = Char.ofNat 0x7D then .goOn (look (String.ofList rev.reverse)) (.plain quoted)
    else .goOn [] (.braced quoted (c :: rev))
  | .ended, c =>
    if c = ' ' ∨ c = '\t' then .goOn [] .ended else if c = commentMark then .stop else .refused

/-- What the end of the value adds, unless a quote or a brace is open. -/
def ending (look : String → List Char) : Mode → Option (List Char)
  | .plain false | .escaped false | .ended => some []
  | .name false rev => some (look (String.ofList rev.reverse))
  | _ => none

/-- Reads a value from the character at `position` on. The error is the position of a character that
must not stand there, or none where the value must not end. -/
def readFrom (look : String → List Char) (mode : Mode) (position : Nat) :
    List Char → Except (Option Nat) (List Char)
  | [] =>
    match ending look mode with
    | some added => .ok added
    | none => .error none
  | c :: cs =>
    match effect look mode c with
    | .goOn added mode => (readFrom look mode (position + 1) cs).map (added ++ ·)
    | .stop => .ok []
    | .refused => .error (some position)

/-- Reads a value. A fault is told by the value and a position in it. -/
def readValue (look : String → List Char) (text : List Char) : Except Fault (List Char) :=
  match readFrom look (.plain false) 0 text with
  | .ok value => .ok value
  | .error position =>
    .error (.line text (position.getD ((String.ofList text).utf8ByteSize - 1)))

end BroadcastRelay.EnvFile
