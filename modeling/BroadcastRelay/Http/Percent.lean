import BroadcastRelay.Text.Utf8
/-!
# Percent-encoded bytes

`percentDecode` replaces a percent sign and two hexadecimal digits by the byte they name. A percent
sign that is followed by anything else stands for itself.
-/

namespace BroadcastRelay.Http

/-- The value of a hexadecimal digit. -/
def hexValue? (b : UInt8) : Option UInt8 :=
  if 48 ≤ b ∧ b ≤ 57 then some (b - 48)
  else if 65 ≤ b ∧ b ≤ 70 then some (b - 55)
  else if 97 ≤ b ∧ b ≤ 102 then some (b - 87)
  else none

/-- The bytes with every escape replaced by the byte it names. -/
def percentDecode : Bytes → Bytes
  | [] => []
  | b :: h :: l :: r =>
    if b = 37 then
      match hexValue? h, hexValue? l with
      | some high, some low => (high * 16 + low) :: percentDecode r
      | _, _ => b :: percentDecode (h :: l :: r)
    else b :: percentDecode (h :: l :: r)
  | b :: r => b :: percentDecode r

/-- Bytes without a percent sign stand for themselves. -/
theorem percentDecode_of_not_mem {bs : Bytes} (h : (37 : UInt8) ∉ bs) : percentDecode bs = bs := by
  fun_induction percentDecode bs with
  | case1 => rfl
  | case2 => simp at h
  | case3 => simp at h
  | case4 b x y r hb ih => simp_all
  | case5 b r _ ih => simp_all

end BroadcastRelay.Http
