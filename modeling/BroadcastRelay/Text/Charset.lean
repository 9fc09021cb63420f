/-!
# Sets of characters given by their boundaries

A `Charset` lists, in increasing order, the code points at which membership changes: the first is
the first member, the second the first code point after that run of members, and so on. A
character belongs to the set when an odd number of boundaries lie at or below it (`contains`).
-/

namespace BroadcastRelay

/-- A set of characters, as the increasing list of code points at which membership changes. -/
structure Charset where
  /-- The code points at which membership changes. -/
  boundaries : List Nat

namespace Charset

/-- Whether an odd number of boundaries lies at or below the code point `n`. -/
def crossed (n : Nat) : List Nat → Bool
  | [] => false
  | b :: bs => if b ≤ n then !crossed n bs else false

/-- Whether the character belongs to the set. -/
def contains (s : Charset) (c : Char) : Bool := crossed c.toNat s.boundaries

theorem crossed_of_lt_head {n b : Nat} {bs : List Nat} (h : n < b) : crossed n (b :: bs) = false := by
  have : ¬ b ≤ n := by omega
  simp [crossed, this]

/-- A character inside the first run belongs to the set. -/
theorem crossed_of_first_run {n lo hi : Nat} {bs : List Nat} (h₁ : lo ≤ n) (h₂ : n < hi) :
    crossed n (lo :: hi :: bs) = true := by
  have := @crossed_of_lt_head n hi bs h₂
  rw [crossed, if_pos h₁, this]
  rfl

end Charset

end BroadcastRelay
