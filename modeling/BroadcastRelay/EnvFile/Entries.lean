import BroadcastRelay.EnvFile.Value
import BroadcastRelay.KeyMap
/-!
# Entries of an env file

A line names a variable and gives its value; the word `export` may stand in front. `entries` reads
the lines in order, so that a value can use the variables of earlier lines, and the variables of the
process come before those. The last line of a variable counts.
-/

namespace BroadcastRelay.EnvFile

/-- The variables of a process. -/
abbrev Environment := String → Option String

/-- A part of a line that is still to be read, and the number of bytes in front of it. -/
structure Rest where
  /-- What is still to be read. -/
  text : List Char
  /-- The number of bytes in front of it. -/
  position : Nat

namespace Rest

/-- The count of bytes of a text. -/
def bytes (cs : List Char) : Nat := (String.ofList cs).utf8ByteSize

/-- Passes over the characters of a kind. -/
def skip (p : Char → Bool) (r : Rest) : Rest :=
  ⟨r.text.dropWhile p, r.position + bytes (r.text.takeWhile p)⟩

end Rest

/-- Whether the name of a variable may start with the character. -/
def startsName (c : Char) : Bool := c.isAlpha || c = '_'

/-- Whether the name of a variable may go on with the character. -/
def isNameChar (c : Char) : Bool := c.isAlphanum || c = '_' || c = '.'

/-- The name at the front and what follows it and white space; else the position of the fault. -/
def readName (r : Rest) : Except Nat (String × Rest) :=
  if r.text.head?.any startsName then
    .ok (String.ofList (r.text.takeWhile isNameChar), (r.skip isNameChar).skip isBlank)
  else .error r.position

/-- What follows the equals sign at the front; else the position of the fault. -/
def readEquals (r : Rest) : Except Nat Rest :=
  match r.text with
  | '=' :: cs => .ok ⟨cs, r.position + 1⟩
  | _ => .error r.position

/-- The name of a line and what follows its equals sign; else the position of the fault. -/
def readHead (r : Rest) : Except Nat (String × Rest) := do
  let (name, r) ← readName r
  match readEquals r with
  | .ok r => return (name, r)
  | .error position =>
    if name = "export" then
      let (name, r) ← readName r
      return (name, ← readEquals r)
    else throw position

/-- Whether nothing follows, or a comment does. -/
def isOver (cs : List Char) : Bool := cs.isEmpty || cs.head? = some commentMark

/-- The variable of a logical line with its value, if the line has one. -/
def readLine (look : String → List Char) (line : List Char) :
    Except Fault (Option (String × List Char)) :=
  let start := Rest.skip isBlank ⟨trimEnd line, 0⟩
  if isOver start.text then .ok none
  else
    match readHead start with
    | .error position => .error (.line line position)
    | .ok (name, r) =>
      let value := trimStart r.text
      if isOver value then .ok (some (name, []))
      else (readValue look value).map fun v => some (name, v)

/-- The value that a dollar sign puts in for a name. -/
def lookUp (process : Environment) (earlier : KeyMap String) (name : String) : List Char :=
  (((process name).or (earlier.get? name)).getD "").toList

/-- Adds the variable of a logical line to those of earlier lines. -/
def addLine (process : Environment) (earlier : KeyMap String) (line : List Char) :
    Except Fault (KeyMap String) :=
  (readLine (lookUp process earlier) line).map fun
    | none => earlier
    | some (name, value) => earlier.insert name (String.ofList value)

/-- The variables of an env file. -/
def entries (process : Environment) (bs : Bytes) : Except Fault (KeyMap String) := do
  let (ls, fault) := lines bs
  let defined ← ls.foldlM (addLine process) .empty
  match fault with
  | some f => throw f
  | none => return defined

end BroadcastRelay.EnvFile
