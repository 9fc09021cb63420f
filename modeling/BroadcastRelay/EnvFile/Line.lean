import BroadcastRelay.Text.Blank
import BroadcastRelay.Text.Utf8
/-!
# Lines of an env file

A logical line goes on over the ends of lines while a quote is open (`LineState`). A comment starts
with a number sign at the front of a line or behind white space, and cuts the line off. `lines`
gives the logical lines up to the first thing that cannot be one.
-/

namespace BroadcastRelay.EnvFile

/-- What is wrong with an env file. -/
inductive Fault where
  /-- The text goes wrong at a position. -/
  | line (text : List Char) (position : Nat)
  /-- A line is not text. -/
  | notText
deriving DecidableEq, Repr

/-- The text of the fault. -/
def Fault.message : Fault → String
  | line text position =>
    "Error parsing line: '" ++ String.ofList text ++ "', error at line index: " ++ toString position
  | notText => "stream did not contain valid UTF-8"

/-- The character that starts a comment. -/
def commentMark : Char := Char.ofNat 0x23

/-- Where a logical line stands between two of its characters. -/
inductive LineState where
  /-- Outside quotes. -/
  | complete
  /-- Behind white space outside quotes. -/
  | space
  /-- Behind a backslash outside quotes. -/
  | escaped
  /-- Inside the quotes of the given kind. -/
  | quoted (quote : Char)
  /-- Behind a backslash inside quotes. -/
  | quotedEscaped (quote : Char)
  /-- In a comment. -/
  | comment
deriving DecidableEq, Repr

namespace LineState

/-- The state behind a character that stands outside quotes and is no white space. -/
def outside (c : Char) : LineState :=
  if c = '\\' then escaped else if c = '"' ∨ c = '\'' then quoted c else complete

/-- The state behind the next character. -/
def next : LineState → Char → LineState
  | complete, c => if isBlank c ∧ c ≠ '\n' ∧ c ≠ '\r' then space else outside c
  | space, c => if c = commentMark then comment else outside c
  | escaped, _ => complete
  | quoted q, c => if c = '\\' then quotedEscaped q else if c = q then complete else quoted q
  | quotedEscaped q, _ => quoted q
  | comment, _ => comment

/-- The characters up to a comment, and the state behind them. -/
def scan : LineState → List Char → List Char × LineState
  | s, [] => ([], s)
  | s, c :: cs =>
    if s.next c = comment then ([], comment)
    else
      let (kept, last) := (s.next c).scan cs
      (c :: kept, last)

end LineState

/-- The line without the mark at its end. -/
def dropLineEnd (cs : List Char) : List Char :=
  match cs.reverse with
  | '\n' :: '\r' :: r => r.reverse
  | '\n' :: r => r.reverse
  | _ => cs

/-- Whether a line holds a comment and nothing in front of it. -/
def isComment (cs : List Char) : Bool := (trimStart cs).head? = some commentMark

/-- Puts physical lines together, after the part `front` of a logical line that stands in state `s`.
A line that is no text is missing. -/
def gather (s : LineState) (front : List Char) :
    List (Option (List Char)) → List (List Char) × Option Fault
  | [] =>
    if s = .complete then ([], none) else ([], some (.line front (String.ofList front).utf8ByteSize))
  | none :: _ => ([], some .notText)
  | some cs :: rest =>
    let text := front ++ cs
    let emit (line : List Char) : List (List Char) × Option Fault :=
      let (ls, fault) := gather .complete [] rest
      (line :: ls, fault)
    if isComment text then emit []
    else
      match s.scan cs with
      | (_, .complete) => emit (dropLineEnd text)
      | (kept, .comment) => emit (front ++ kept)
      | (_, s) => gather s text rest

/-- The physical lines, each with the mark at its end. -/
def physical (bs : Bytes) : List Bytes :=
  bs.foldr (fun b ls =>
    match ls with
    | [] => [[b]]
    | l :: ls => if b = 10 then [b] :: l :: ls else (b :: l) :: ls) []

/-- The logical lines up to the first fault, and the fault. -/
def lines (bs : Bytes) : List (List Char) × Option Fault :=
  gather .complete [] ((physical bs).map fun l => (Utf8.decode? l).map String.toList)

end BroadcastRelay.EnvFile
