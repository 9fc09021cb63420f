/-!
# The fewest digits that read back

A finite binary fraction `m · 2^q` is told apart from its neighbours by any decimal number between
the two midpoints around it, the midpoints themselves belonging to it when `m` is even.
`Decimal.shortest` tries one digit, then two, and so on; on each grid only the two points next to
the value can win, and the nearer of them does.
-/

namespace BroadcastRelay

/-- A positive decimal number: `digits · 10^exponent`. -/
structure Decimal where
  /-- The digits, as one natural number. -/
  digits : Nat
  /-- The power of ten they count. -/
  exponent : Int
deriving DecidableEq, Repr

/-- A non-negative fraction of natural numbers. -/
structure Fraction where
  /-- The numerator. -/
  num : Nat
  /-- The denominator. -/
  den : Nat
deriving DecidableEq, Repr

namespace Fraction

/-- The fraction `n · 2^q`. -/
def ofBinary (n : Nat) (q : Int) : Fraction :=
  if 0 ≤ q then ⟨n * Nat.pow 2 q.toNat, 1⟩ else ⟨n, Nat.pow 2 (-q).toNat⟩

/-- The fraction `n · 10^e`. -/
def ofDecimal (n : Nat) (e : Int) : Fraction :=
  if 0 ≤ e then ⟨n * Nat.pow 10 e.toNat, 1⟩ else ⟨n, Nat.pow 10 (-e).toNat⟩

/-- Whether `a < b`. -/
def less (a b : Fraction) : Bool := a.num * b.den < b.num * a.den

/-- The distance between two fractions. -/
def dist (a b : Fraction) : Fraction :=
  let x := a.num * b.den
  let y := b.num * a.den
  ⟨(x - y) + (y - x), a.den * b.den⟩

/-- The whole part of `a · 10^(-e)`. -/
def scaledFloor (a : Fraction) (e : Int) : Nat :=
  if 0 ≤ e then a.num / (a.den * Nat.pow 10 e.toNat)
  else a.num * Nat.pow 10 (-e).toNat / a.den

/-- The number of digits before the point; zero or less when the fraction is below one tenth. A
binary fraction of the range used here is above `10^(-400)`. -/
def magnitude (a : Fraction) : Int :=
  if a.den ≤ a.num then (Nat.toDigits 10 (a.num / a.den)).length
  else
    match (List.range 400).find? fun j => a.den ≤ a.num * Nat.pow 10 j with
    | some j => 1 - j
    | none => -400

end Fraction

namespace Decimal

/-- The value of the number. -/
def value (d : Decimal) : Fraction := .ofDecimal d.digits d.exponent

/-- The decimal numbers that read back as one binary fraction. -/
structure Basin where
  /-- The binary fraction itself. -/
  centre : Fraction
  /-- The lower midpoint. -/
  lower : Fraction
  /-- The upper midpoint. -/
  upper : Fraction
  /-- Whether the midpoints belong to it. -/
  closed : Bool

/-- The basin of `m · 2^q`; `narrow` says that the neighbour below is half a step away. -/
def Basin.of (m : Nat) (q : Int) (narrow : Bool) : Basin where
  centre := .ofBinary m q
  lower := if narrow then .ofBinary (4 * m - 1) (q - 2) else .ofBinary (2 * m - 1) (q - 1)
  upper := .ofBinary (2 * m + 1) (q - 1)
  closed := m % 2 == 0

/-- Whether a fraction reads back as the centre of the basin. -/
def Basin.holds (b : Basin) (x : Fraction) : Bool :=
  if b.closed then !(x.less b.lower) && !(b.upper.less x) else b.lower.less x && x.less b.upper

/-- The point of the grid `10^e` that reads back and lies nearest to the centre, an even one of
two that are equally near. -/
def onGrid (b : Basin) (e : Int) : Option Decimal :=
  let low : Decimal := ⟨b.centre.scaledFloor e, e⟩
  let high : Decimal := ⟨low.digits + 1, e⟩
  match b.holds low.value, b.holds high.value with
  | false, false => none
  | true, false => some low
  | false, true => some high
  | true, true =>
    let dl := low.value.dist b.centre
    let dh := high.value.dist b.centre
    if dl.less dh then some low
    else if dh.less dl then some high
    else if low.digits % 2 == 0 then some low else some high

/-- The number without zeros at its end. -/
def strip : Nat → Decimal → Decimal
  | 0, d => d
  | n + 1, d =>
    if d.digits ≠ 0 ∧ d.digits % 10 = 0 then strip n ⟨d.digits / 10, d.exponent + 1⟩ else d

/-- The shortest decimal number in the basin; seventeen digits always suffice. -/
def shortest (b : Basin) : Decimal :=
  let k := b.centre.magnitude
  let found := (List.range 17).findSome? fun (n : Nat) => onGrid b (k - (n + 1))
  strip 20 (found.getD ⟨b.centre.scaledFloor (k - 17), k - 17⟩)

end Decimal

end BroadcastRelay
