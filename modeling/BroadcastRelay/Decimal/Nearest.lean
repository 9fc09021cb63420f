/-!
# The floating-point number nearest to a decimal one

`nearest digits exponent` is the number `digits · 10^exponent`, rounded. A magnitude beyond the range
of floating point is settled by the count of digits before the point, without computing the power.
-/

namespace BroadcastRelay.Decimal

/-- The floating-point number nearest to `digits · 10^exponent`. -/
def nearest (digits : Nat) (exponent : Int) : Float :=
  let magnitude : Int := (Nat.toDigits 10 digits).length + exponent
  if digits = 0 ∨ magnitude < -330 then 0
  else if 310 < magnitude then Float.ofScientific 1 false 310
  else Float.ofScientific digits (exponent < 0) exponent.natAbs

end BroadcastRelay.Decimal
