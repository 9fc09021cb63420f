/-!
# Documents

`Document` is what a data format (JSON, TOML) hands to the readers of records. A text that goes
wrong half-way still gives a document: everything before the fault, with `broken` at the place
where it goes wrong and `Ending.broken` on each list and map around it. A reader that walks the
document in order then meets its own complaints and the fault in the order of the text.
-/

namespace BroadcastRelay

/-- How a list or a map ends. -/
inductive Ending where
  /-- With its closing mark. -/
  | closed
  /-- With its closing mark, in a format where a record may leave items of a list unread. -/
  | lenient
  /-- The text goes wrong before the closing mark. -/
  | broken
deriving DecidableEq, Repr

/-- A structured value as a data format gives it. -/
inductive Document where
  /-- The absent value. -/
  | null
  /-- A truth value. -/
  | bool (b : Bool)
  /-- A natural number. -/
  | unsigned (n : Nat)
  /-- The negative whole number `-n`. -/
  | negative (n : Nat)
  /-- A number with a fraction, or too large for a whole number, by its text. -/
  | float (text : String)
  /-- A text. -/
  | str (s : String)
  /-- A scalar that is well formed and stands for no value. -/
  | unusable
  /-- The place where the text goes wrong. -/
  | broken
  /-- A list of items. -/
  | list (items : List Document) (ending : Ending)
  /-- A map from names to values, in the order of the text. A name may stand for no text. -/
  | map (members : List (Option String × Document)) (ending : Ending)
deriving Repr, Inhabited

namespace Document

/-- Whether the text of the document is complete. A fault inside a list or a map breaks the ending
of everything around it, so the outermost ending tells. -/
def isWhole : Document → Bool
  | broken => false
  | list _ ending => ending != .broken
  | map _ ending => ending != .broken
  | _ => true

end Document

end BroadcastRelay
