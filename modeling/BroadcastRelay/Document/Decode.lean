import BroadcastRelay.Document.Basic
import BroadcastRelay.Text.Quoted
/-!
# Reading records from documents

`Record.read` reads a record from a map, or from a list of its fields in order. Fields are read in
the order of the text, so the first fault of the text is the one reported; a field that is missing
is reported after the map has ended, in the order of declaration. Unknown names are passed over.
-/

namespace BroadcastRelay

/-- Why a document is not a value of the wanted type. -/
inductive DecodeError where
  /-- The text breaks the rules of its format. -/
  | malformed
  /-- A field that has no default does not occur. -/
  | missingField (name : String)
  /-- A field occurs twice. -/
  | duplicateField (name : String)
  /-- A value of another kind stands there. -/
  | invalidType (found expected : String)
  /-- A whole number out of range stands there. -/
  | invalidValue (found expected : String)
  /-- A list ends before the fields do. -/
  | invalidLength (length : Nat) (expected : String)
deriving DecidableEq, Repr

/-- The text of the error. -/
def DecodeError.message : DecodeError → String
  | .malformed => "malformed document"
  | .missingField name => "missing field `" ++ name ++ "`"
  | .duplicateField name => "duplicate field `" ++ name ++ "`"
  | .invalidType found expected => "invalid type: " ++ found ++ ", expected " ++ expected
  | .invalidValue found expected => "invalid value: " ++ found ++ ", expected " ++ expected
  | .invalidLength n expected => "invalid length " ++ toString n ++ ", expected " ++ expected

namespace Document

/-- The error for a document of the wrong kind. -/
def mismatch (expected : String) : Document → DecodeError
  | null => .invalidType "null" expected
  | bool b => .invalidType ("boolean `" ++ toString b ++ "`") expected
  | unsigned n => .invalidType ("integer `" ++ toString n ++ "`") expected
  | negative n => .invalidType ("integer `-" ++ toString n ++ "`") expected
  | float text => .invalidType ("floating point `" ++ text ++ "`") expected
  | str s => .invalidType ("string " ++ Quoted.encode s) expected
  | list _ _ => .invalidType "sequence" expected
  | map _ _ => .invalidType "map" expected
  | unusable => .malformed
  | broken => .malformed

/-- A type whose values can be read from documents. -/
abbrev Reader (α : Type) := Document → Except DecodeError α

/-- Reads a text. -/
def readString : Reader String
  | str s => .ok s
  | d => .error (d.mismatch "a string")

/-- Reads a truth value. -/
def readBool : Reader Bool
  | bool b => .ok b
  | d => .error (d.mismatch "a boolean")

/-- Reads a whole number below `2^width`. -/
def readUnsigned (width : Nat) : Reader Nat
  | unsigned n =>
    if n < Nat.pow 2 width then .ok n
    else .error (.invalidValue ("integer `" ++ toString n ++ "`") ("u" ++ toString width))
  | negative n =>
    .error (.invalidValue ("integer `-" ++ toString n ++ "`") ("u" ++ toString width))
  | d => .error (d.mismatch ("u" ++ toString width))

/-- Reads a whole number of sixteen bits. -/
def readUInt16 : Reader UInt16 := fun d => (readUnsigned 16 d).map UInt16.ofNat

/-- Reads a whole number of thirty-two bits. -/
def readUInt32 : Reader UInt32 := fun d => (readUnsigned 32 d).map UInt32.ofNat

/-- Reads a whole number of sixty-four bits. -/
def readUInt64 : Reader UInt64 := fun d => (readUnsigned 64 d).map UInt64.ofNat

/-- Reads the absent value as `none`. -/
def readOption {α : Type} (read : Reader α) : Reader (Option α)
  | null => .ok none
  | d => (read d).map some

/-- Reads a list item by item. -/
def readList {α : Type} (read : Reader α) : Reader (List α)
  | list items ending => do
    let values ← items.mapM read
    if ending = .broken then throw .malformed
    return values
  | d => .error (d.mismatch "a sequence")

end Document

/-- One field of a record: its name, whether it must occur, and how its value is put in place. -/
structure Field (α : Type) where
  /-- The name in the text. -/
  name : String
  /-- Whether the field has no default. -/
  required : Bool
  /-- Reads the value and gives the update it makes. -/
  read : Document → Except DecodeError (α → α)

/-- A field whose value is read by `read` and stored by `store`. -/
def Field.of {α β : Type} (name : String) (required : Bool) (read : Document.Reader β)
    (store : β → α → α) : Field α :=
  ⟨name, required, fun d => (read d).map store⟩

/-- How a record is read: its name, its fields in order of declaration, and the record that holds
every default. -/
structure Record (α : Type) where
  /-- The name that error texts use. -/
  name : String
  /-- The fields in order of declaration. -/
  fields : List (Field α)
  /-- The record before any field is read. -/
  blank : α

namespace Record

variable {α : Type}

/-- A record in the making, with the names of the fields read so far. -/
abbrev Progress (α : Type) := α × List String

/-- Reads one member of a map. -/
def member (r : Record α) (p : Progress α) (m : Option String × Document) :
    Except DecodeError (Progress α) :=
  match m with
  | (none, _) => .error .malformed
  | (some name, d) =>
    match r.fields.find? (·.name == name) with
    | none => if d.isWhole then .ok p else .error .malformed
    | some f =>
      if name ∈ p.2 then .error (.duplicateField name)
      else (f.read d).map fun update => (update p.1, name :: p.2)

/-- The first field without a default that has not been read. -/
def missing? (r : Record α) (seen : List String) : Option String :=
  (r.fields.find? fun f => f.required && !(f.name ∈ seen : Bool)).map (·.name)

/-- What error texts call a list of all fields. -/
def lengthText (r : Record α) : String :=
  "struct " ++ r.name ++ " with " ++ toString r.fields.length ++
    (if r.fields.length = 1 then " element" else " elements")

/-- Reads the fields in order from the items of a list. -/
def items (r : Record α) (ending : Ending) :
    Nat → List (Field α) → List Document → α → Except DecodeError α
  | _, [], ds, a =>
    match ending, ds with
    | .closed, [] => .ok a
    | .lenient, _ => .ok a
    | _, _ => .error .malformed
  | n, f :: fs, [], a =>
    if ending = .broken then .error .malformed
    else if f.required then .error (.invalidLength n r.lengthText)
    else items r ending (n + 1) fs [] a
  | n, f :: fs, d :: ds, a =>
    match f.read d with
    | .error e => .error e
    | .ok update => items r ending (n + 1) fs ds (update a)

/-- Reads a record from a map of its fields or from a list of them. -/
def read (r : Record α) : Document.Reader α
  | .map members ending => do
    let p ← members.foldlM r.member (r.blank, [])
    if ending = .broken then throw .malformed
    match r.missing? p.2 with
    | some name => throw (.missingField name)
    | none => return p.1
  | .list ds ending => r.items ending 0 r.fields ds r.blank
  | d => .error (d.mismatch ("struct " ++ r.name))

end Record

end BroadcastRelay
