/-!
# Scans

A `Scan` takes a value off the front of a text, or fails. Scans are composed with `do`, and `<|>`
tries the second where the first fails. `many` repeats a scan as long as it succeeds and text is left.
-/

namespace BroadcastRelay

/-- Something that takes a value off the front of a text. -/
abbrev Scan (α : Type) := StateT (List Char) Option α

namespace Scan

variable {α : Type}

/-- Takes a character of a kind. -/
def one (p : Char → Bool) : Scan Char
  | [] => none
  | c :: cs => if p c then some (c, cs) else none

/-- Takes a given character. -/
def char (c : Char) : Scan Unit
  | [] => none
  | x :: xs => if x = c then some ((), xs) else none

/-- Takes a given word. -/
def word : List Char → Scan Unit
  | [], cs => some ((), cs)
  | w :: ws, cs => (char w cs).bind fun (_, cs) => word ws cs

/-- Takes the longest run of characters of a kind, which may be empty. -/
def run (p : Char → Bool) : Scan (List Char) := fun cs => some (cs.takeWhile p, cs.dropWhile p)

/-- Takes the longest run of characters of a kind, of one character at least. -/
def run1 (p : Char → Bool) : Scan (List Char) := fun cs =>
  if (cs.takeWhile p).isEmpty then none else run p cs

/-- Takes a given number of characters of a kind. -/
def exactly (n : Nat) (p : Char → Bool) : Scan (List Char) := fun cs =>
  let taken := cs.take n
  if taken.length = n && taken.all p then some (taken, cs.drop n) else none

/-- Succeeds at the end of the text. -/
def atEnd : Scan Unit := fun cs => if cs.isEmpty then some ((), cs) else none

/-- Repeats a scan as long as it succeeds and text is left, as often as the bound has characters. -/
def repeated (s : Scan α) : (bound text : List Char) → List α × List Char
  | [], cs => ([], cs)
  | _, [] => ([], [])
  | _ :: bound, cs =>
    match s cs with
    | none => ([], cs)
    | some (a, r) =>
      let (as, rest) := repeated s bound r
      (a :: as, rest)

/-- Repeats a scan, which takes one character at least where there is one, as long as it succeeds and
text is left. -/
def many (s : Scan α) : Scan (List α) := fun cs => some (repeated s cs cs)

/-- Repeats a scan once at least, with a separator in between. -/
def separated (s : Scan α) (separator : Scan Unit) : Scan (List α) := do
  let first ← s
  let others ← many do
    separator
    s
  return first :: others

/-- The value of a text that a scan takes up to its end. -/
def whole (s : Scan α) (text : List Char) : Option α :=
  match s text with
  | some (a, []) => some a
  | _ => none

@[simp] theorem char_cons_self (c : Char) (cs : List Char) : char c (c :: cs) = some ((), cs) := by
  simp [char]

theorem char_eq_some_iff {c : Char} {cs rest : List Char} :
    char c cs = some ((), rest) ↔ cs = c :: rest := by
  cases cs with
  | nil => simp [char]
  | cons x xs =>
    by_cases h : x = c
    · simp [char, h]
    · simp [char, h]

end Scan

end BroadcastRelay
