import BroadcastRelay.Document.Decode
import BroadcastRelay.Json.Token
/-!
# Documents from JSON

`Assembly.step` takes one token at a time and keeps the lists and maps that are still open, the
innermost first. `assemble` folds it over the tokens of a text. `decode` reads a value from the
document and then refuses a text that goes on after it.
-/

namespace BroadcastRelay.Json

/-- A list or a map that is still open, with its content so far, last first. -/
inductive Frame where
  /-- An open list. -/
  | list (items : List Document)
  /-- An open map and the name whose value is to come. -/
  | map (members : List (Option String × Document)) (name : Option String)

/-- What may come next inside the open lists and maps. -/
inductive Place where
  /-- A value. -/
  | value
  /-- The first item of a list, or its end. -/
  | firstItem
  /-- The first name of a map, or its end. -/
  | firstName
  /-- A name. -/
  | nextName
  /-- The colon after a name. -/
  | colon
  /-- A comma, or the end of the list or map. -/
  | separator

/-- How far the tokens have been put together. -/
inductive Assembly where
  /-- More is to come. -/
  | pending (place : Place) (frames : List Frame)
  /-- The document is complete. -/
  | complete (document : Document)
  /-- The document is complete and more follows it. -/
  | trailing (document : Document)
  /-- The text goes wrong inside the document. -/
  | abandoned (document : Document)

namespace Frame

/-- Takes the next value. -/
def push (d : Document) : Frame → Frame
  | list items => list (d :: items)
  | map members name => map ((name, d) :: members) none

/-- The list or map with its content in order. -/
def close (ending : Ending) : Frame → Document
  | list items => .list items.reverse ending
  | map members _ => .map members.reverse ending

end Frame

namespace Assembly

/-- Puts a finished value into the innermost frame. -/
def settle (d : Document) : List Frame → Assembly
  | [] => complete d
  | f :: fs => pending .separator (f.push d :: fs)

/-- The document with every open list and map broken off after the value `d`. -/
def brokenAt (d : Document) (fs : List Frame) : Document :=
  fs.foldl (fun d f => (f.push d).close .broken) d

/-- The document with every open list and map broken off. -/
def brokenOff : List Frame → Document
  | [] => .broken
  | f :: fs => brokenAt (f.close .broken) fs

/-- Starts a value with the token. -/
def start (fs : List Frame) : Token → Assembly
  | .listOpen => pending .firstItem (.list [] :: fs)
  | .mapOpen => pending .firstName (.map [] none :: fs)
  | .null => settle .null fs
  | .bool b => settle (.bool b) fs
  | .number n => settle n.document fs
  | .string raw =>
    match StringText.decode? raw with
    | some s => settle (.str s) fs
    | none => settle .unusable fs
  | _ => abandoned (brokenAt .broken fs)

/-- Takes a name, or breaks off. -/
def startName (fs : List Frame) : Token → Assembly
  | .string raw =>
    match fs with
    | .map members _ :: fs => pending .colon (.map members (StringText.decode? raw) :: fs)
    | fs => abandoned (brokenOff fs)
  | _ => abandoned (brokenOff fs)

/-- Takes the token after a value: a comma, or the mark that closes the innermost frame. -/
def separate (fs : List Frame) (t : Token) : Assembly :=
  match fs, t with
  | .list items :: fs, .comma => pending .value (.list items :: fs)
  | .list items :: fs, .listClose => settle (.list items.reverse .closed) fs
  | .map members name :: fs, .comma => pending .nextName (.map members name :: fs)
  | .map members _ :: fs, .mapClose => settle (.map members.reverse .closed) fs
  | fs, _ => abandoned (brokenOff fs)

/-- Takes one token. -/
def step (a : Assembly) (t : Token) : Assembly :=
  match a with
  | pending .value fs => start fs t
  | pending .firstItem fs =>
    match t with
    | .listClose => separate fs t
    | t => start fs t
  | pending .firstName fs =>
    match t with
    | .mapClose => separate fs t
    | t => startName fs t
  | pending .nextName fs => startName fs t
  | pending .colon fs =>
    match t with
    | .colon => pending .value fs
    | _ => abandoned (brokenAt .broken fs)
  | pending .separator fs => separate fs t
  | complete d => trailing d
  | trailing d => trailing d
  | abandoned d => abandoned d

/-- The document at the end of the text, and whether the text goes on after it. -/
def finish : Assembly → Document × Bool
  | pending place fs =>
    match place with
    | .value | .firstItem | .colon => (brokenAt .broken fs, false)
    | .firstName | .nextName | .separator => (brokenOff fs, false)
  | complete d => (d, false)
  | trailing d => (d, true)
  | abandoned d => (d, false)

end Assembly

/-- The document that the bytes hold, and whether they go on after it. -/
def assemble (bytes : Bytes) : Document × Bool :=
  ((tokens bytes).foldl Assembly.step (.pending .value [])).finish

/-- Reads a value from JSON. -/
def decode {α : Type} (read : Document.Reader α) (bytes : Bytes) : Except DecodeError α := do
  let (document, trailing) := assemble bytes
  let a ← read document
  if trailing then throw .malformed
  return a

end BroadcastRelay.Json
