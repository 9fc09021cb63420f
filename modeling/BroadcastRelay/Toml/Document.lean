import BroadcastRelay.Document.Decode
import BroadcastRelay.Toml.Number
import BroadcastRelay.Toml.Table
/-!
# Documents from TOML

`value` reads a value, with lists and inline tables inside one another up to `depthLimit`. A text is
a body of members and then sections, each a header with the body below it; `document?` puts them
together. `decode` reads a value from the document. A fault anywhere in the text comes before every
complaint about a value.
-/

namespace BroadcastRelay.Toml

/-! ## Values -/

/-- A list of values. -/
def listOf (value : Scan Document) : Scan Document := do
  Scan.char '['
  let items ← optional (Scan.separated (do gap; let d ← value; gap; return d) (Scan.char ','))
  if items.isSome then
    let _ ← optional (Scan.char ',')
  gap
  Scan.char ']'
  return .list (items.getD []) .lenient

/-- A key and the value behind it. -/
def member (value : Scan Document) : Scan (List String × Document) := do
  let name ← key
  Scan.char '='
  space
  return (name, ← value)

/-- A table between braces. -/
def inlineTable (value : Scan Document) : Scan Document := do
  Scan.char (Char.ofNat 0x7B)
  let ms ← optional (Scan.separated (do let m ← member value; space; return m) (Scan.char ','))
  space
  Scan.char (Char.ofNat 0x7D)
  let t ← ((ms.getD []).foldlM Table.put (.empty .header) : Option Table)
  return t.document

/-- A value without parts. -/
def scalar : Scan Document :=
  (do return .str (← string)) <|> (do Scan.word "true".toList; return .bool true) <|>
    (do Scan.word "false".toList; return .bool false) <|> number

/-- A value, with lists and inline tables inside one another up to `depth` times. -/
def value : Nat → Scan Document
  | 0 => scalar
  | depth + 1 => listOf (value depth) <|> inlineTable (value depth) <|> scalar

/-! ## Sections -/

/-- The members below a header, or at the start of the text. -/
abbrev Body := List (List String × Document)

/-- A header. -/
inductive Header where
  /-- The header of a table. -/
  | table (path : List String)
  /-- The header of an element of a list of tables. -/
  | element (path : List String)

/-- A line with nothing on it but space and a comment. -/
def blankLine : Scan (Option (List String × Document)) := do
  lineEnd
  return none

/-- A line with a member. -/
def memberLine : Scan (Option (List String × Document)) := do
  space
  let m ← member (value (depthLimit - 1))
  lineEnd
  return some m

/-- The lines up to the next header. -/
def body : Scan Body := do
  let lines ← Scan.many (blankLine <|> memberLine)
  return lines.filterMap id

/-- The path between the marks of a header. -/
def headerPath (opening closing : List Char) : Scan (List String) := do
  Scan.word opening
  let path ← key
  Scan.word closing
  return path

/-- A line with a header. -/
def header : Scan Header := do
  space
  let h ← (do return .element (← headerPath ['[', '['] [']', ']'])) <|>
    (do return .table (← headerPath ['['] [']']))
  lineEnd
  return h

/-- The body before the first header, and the sections. -/
def sections : Scan (Body × List (Header × Body)) := do
  let _ ← optional (Scan.char (Char.ofNat 0xFEFF))
  let start ← body
  let rest ← Scan.many do
    let h ← header
    return (h, ← body)
  return (start, rest)

/-- Adds a section to the tables so far. -/
def addSection (t : Table) : Header × Body → Option Table
  | (.table path, ms) => t.define path ms
  | (.element path, ms) => t.element path ms

/-- The document of a text, if the text is well formed. -/
def document? (text : String) : Option Document := do
  let (start, rest) ← Scan.whole sections text.toList
  let root ← start.foldlM Table.put (.empty .header)
  let root ← rest.foldlM addSection root
  return root.document

/-- Reads a value from a text. -/
def decode {α : Type} (read : Document.Reader α) (text : String) : Except DecodeError α :=
  match document? text with
  | none => .error .malformed
  | some d => read d

end BroadcastRelay.Toml
