/-!
# Whole numbers

`WholeNumber.read` reads a decimal number below a bound, with or without a plus sign in front. It
goes from left to right, so of two faults the one that is met first counts.
-/

namespace BroadcastRelay.WholeNumber

/-- Why a text is no whole number below a bound. -/
inductive Fault where
  /-- The text is empty. -/
  | empty
  /-- A character is no digit. -/
  | badDigit
  /-- The number reaches the bound. -/
  | tooLarge
deriving DecidableEq, Repr

/-- The text of the fault. -/
def Fault.message : Fault → String
  | empty => "cannot parse integer from empty string"
  | badDigit => "invalid digit found in string"
  | tooLarge => "number too large to fit in target type"

/-- Takes one more digit. -/
def step (bound n : Nat) (c : Char) : Except Fault Nat :=
  if !c.isDigit then .error .badDigit
  else
    let m := n * 10 + (c.toNat - 48)
    if bound ≤ m then .error .tooLarge else .ok m

/-- Reads a number below `bound`. -/
def read (bound : Nat) (text : String) : Except Fault Nat :=
  match text.toList with
  | [] => .error .empty
  | ['+'] => .error .badDigit
  | '+' :: digits => digits.foldlM (step bound) 0
  | digits => digits.foldlM (step bound) 0

end BroadcastRelay.WholeNumber
