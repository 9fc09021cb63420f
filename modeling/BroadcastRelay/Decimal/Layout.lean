import BroadcastRelay.Decimal.Shortest
/-!
# Writing a floating-point number

`Layout.render` writes a number with the fewest digits that read back. A `Layout` holds what the
formats differ in: which magnitudes are written with a plain point, and the words for the values
that are no numbers. Every plain form keeps a digit after the point.
-/

namespace BroadcastRelay.Decimal

/-- What a format decides about floating-point text. -/
structure Layout where
  /-- Numbers whose count of digits before the point is at least this are written plainly. -/
  plainFrom : Option Int
  /-- Numbers whose count of digits before the point is at most this are written plainly. -/
  plainTo : Option Int

/-- Plain notation below `10^16` and down to `10^(-5)`, an exponent beyond. -/
def Layout.compact : Layout := ⟨some (-4), some 16⟩

/-- Plain notation at every magnitude. -/
def Layout.plain : Layout := ⟨none, none⟩

namespace Layout

/-- Whether a number with `k` digits before the point is written plainly. -/
def isPlain (l : Layout) (k : Int) : Bool :=
  (match l.plainFrom with
    | some lo => decide (lo ≤ k)
    | none => true) &&
  (match l.plainTo with
    | some hi => decide (k ≤ hi)
    | none => true)

/-- The digits with a point after the first `k` of them, filled with zeros where needed. -/
def point (ds : List Char) (k : Int) : List Char :=
  if 0 < k then
    let whole := ds.take k.toNat ++ List.replicate (k.toNat - ds.length) '0'
    let rest := ds.drop k.toNat
    whole ++ '.' :: (if rest.isEmpty then ['0'] else rest)
  else '0' :: '.' :: (List.replicate (-k).toNat '0' ++ ds)

/-- The digits with a point after the first, and the exponent of the first digit. -/
def scientific (ds : List Char) (e : Int) : List Char :=
  let mantissa :=
    match ds with
    | d :: r => if r.isEmpty then [d] else d :: '.' :: r
    | [] => []
  mantissa ++ 'e' :: (toString e).toList

/-- The text of a positive decimal number. -/
def digits (l : Layout) (d : Decimal) : List Char :=
  let ds := Nat.toDigits 10 d.digits
  let k : Int := ds.length + d.exponent
  if l.isPlain k then point ds k else scientific ds (k - 1)

/-- The text of a floating-point number. -/
def render (l : Layout) (x : Float) : String :=
  let bits := x.toBits.toNat
  let fraction : Nat := bits % Nat.pow 2 52
  let power : Nat := bits / Nat.pow 2 52 % Nat.pow 2 11
  let sign := if bits / Nat.pow 2 63 = 1 then ['-'] else []
  if power = 2047 then
    if fraction = 0 then String.ofList (sign ++ "inf".toList) else "NaN"
  else if power = 0 ∧ fraction = 0 then String.ofList (sign ++ "0.0".toList)
  else
    let basin :=
      if power = 0 then Basin.of fraction (-1074) false
      else Basin.of (Nat.pow 2 52 + fraction) (Int.ofNat power - 1075) (fraction == 0 && 1 < power)
    String.ofList (sign ++ l.digits (shortest basin))

end Layout

end BroadcastRelay.Decimal
