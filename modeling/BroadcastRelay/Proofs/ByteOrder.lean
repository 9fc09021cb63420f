import BroadcastRelay.Proofs.Utf8
import Mathlib.Data.String.Basic
import Mathlib.Tactic.SplitIfs
/-!
# Texts in the order of their bytes

Texts are compared character by character, and where they are sorted by their bytes that has to come
to the same. It does, because of how a character is put into bytes. The first byte tells how many
follow it and what is above the bits in these, and does not fall from one character to a greater one
(`Utf8.firstByte_lt_or`). Those that follow are digits, the high ones first (`Utf8.digits`), so the
first place where two characters differ is the one that decides, and so it is for texts
(`Utf8.encode_lt_encode`).
-/

namespace BroadcastRelay.Utf8

/-! ## Digits -/

theorem ofNat_lt_ofNat {a b : Nat} (hb : b < 256) (h : a < b) : UInt8.ofNat a < UInt8.ofNat b := by
  rw [UInt8.lt_iff_toNat_lt, UInt8.toNat_ofNat', UInt8.toNat_ofNat']
  omega

/-- The last `k` digits of a number in base 64, the high ones first, each in a byte above a mark. -/
def digits : Nat → Nat → Bytes
  | 0, _ => []
  | k + 1, n => UInt8.ofNat (n / 64 ^ k % 64 + 128) :: digits k n

/-- Of two numbers that agree above their last digits, the digits of the lesser come first. -/
theorem digits_append_lt {m n : Nat} (h : m < n) (x y : Bytes) :
    ∀ {k : Nat}, m / 64 ^ k = n / 64 ^ k → digits k m ++ x < digits k n ++ y
  | 0, hsame => by
    rw [pow_zero, Nat.div_one, Nat.div_one] at hsame
    exact absurd hsame h.ne
  | k + 1, hsame => by
    have hle : m / 64 ^ k ≤ n / 64 ^ k := Nat.div_le_div_right h.le
    rw [pow_succ, ← Nat.div_div_eq_div_mul, ← Nat.div_div_eq_div_mul] at hsame
    rw [digits, digits, List.cons_append, List.cons_append, List.cons_lt_cons_iff]
    -- Either the highest digit decides, or the numbers agree above one digit less.
    by_cases heq : m / 64 ^ k = n / 64 ^ k
    · exact Or.inr ⟨by rw [heq], digits_append_lt h x y heq⟩
    · exact Or.inl (ofNat_lt_ofNat (by omega) (by omega))

/-! ## Characters -/

/-- How many bytes follow the first one of a code point. -/
def followers (n : Nat) : Nat :=
  if n ≤ 127 then 0 else if n ≤ 2047 then 1 else if n ≤ 65535 then 2 else 3

/-- The first byte of a code point: what is above the digits that follow, and a mark for how many
these are. -/
def firstByte (n : Nat) : Nat :=
  n / 64 ^ followers n +
    if n ≤ 127 then 0 else if n ≤ 2047 then 192 else if n ≤ 65535 then 224 else 240

theorem toNat_lt (c : Char) : c.toNat < 0x110000 := by
  rcases c.valid with h | h
  · exact Nat.lt_trans h (by decide)
  · exact h.2

theorem firstByte_lt_256 (c : Char) : firstByte c.toNat < 256 := by
  have hbound := toNat_lt c
  simp only [firstByte, followers]
  split_ifs <;> omega

theorem utf8EncodeChar_eq (c : Char) : String.utf8EncodeChar c =
    UInt8.ofNat (firstByte c.toNat) :: digits (followers c.toNat) c.toNat := by
  have hbound := toNat_lt c
  simp only [String.utf8EncodeChar, Char.toNat_val, firstByte, followers]
  -- The first byte is cut to the bits it has room for, and needs no more.
  split_ifs
  · simp [digits]
  · have hroom : c.toNat / 64 % 32 = c.toNat / 64 := Nat.mod_eq_of_lt (by omega)
    simp [digits, hroom]
  · have hroom : c.toNat / 4096 % 16 = c.toNat / 4096 := Nat.mod_eq_of_lt (by omega)
    simp [digits, hroom]
  · have hroom : c.toNat / 262144 % 8 = c.toNat / 262144 := Nat.mod_eq_of_lt (by omega)
    simp [digits, hroom]

/-- From one code point to a greater one the first byte rises, or they are put into bytes alike and
differ in the digits. -/
theorem firstByte_lt_or {m n : Nat} (h : m < n) : firstByte m < firstByte n ∨
    firstByte m = firstByte n ∧ followers m = followers n ∧
      m / 64 ^ followers m = n / 64 ^ followers m := by
  simp only [firstByte, followers]
  split_ifs <;> omega

/-- The lesser of two characters has the lesser bytes, whatever follows. -/
theorem utf8EncodeChar_append_lt {c d : Char} (h : c < d) (x y : Bytes) :
    String.utf8EncodeChar c ++ x < String.utf8EncodeChar d ++ y := by
  rw [utf8EncodeChar_eq, utf8EncodeChar_eq, List.cons_append, List.cons_append,
    List.cons_lt_cons_iff]
  rcases firstByte_lt_or (m := c.toNat) (n := d.toNat) h with hlt | ⟨hfirst, hfollowers, hsame⟩
  · exact Or.inl (ofNat_lt_ofNat (firstByte_lt_256 d) hlt)
  · exact Or.inr ⟨by rw [hfirst], hfollowers ▸ digits_append_lt h x y hsame⟩

/-! ## Texts -/

theorem flatMap_utf8EncodeChar_lt {cs ds : List Char} (h : cs < ds) :
    cs.flatMap String.utf8EncodeChar < ds.flatMap String.utf8EncodeChar := by
  induction h with
  | nil =>
    rw [List.flatMap_cons, utf8EncodeChar_eq]
    exact List.nil_lt_cons _ _
  | rel hlt => exact utf8EncodeChar_append_lt hlt _ _
  | cons _ ih => exact List.append_left_lt ih

/-- Texts are in the order of their bytes. -/
theorem encode_lt_encode {s t : String} (h : s < t) : encode s < encode t := by
  rw [encode_eq_flatMap, encode_eq_flatMap]
  exact flatMap_utf8EncodeChar_lt (String.lt_iff_toList_lt.mp h)

end BroadcastRelay.Utf8
