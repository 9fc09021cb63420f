/-!
# Durations

`Duration.render` writes a duration in the largest unit that makes it at least one, with the digits
after the point that it needs.
-/

namespace BroadcastRelay

/-- A duration in milliseconds. -/
structure Duration where
  /-- The milliseconds. -/
  milliseconds : Nat
deriving DecidableEq, Repr

namespace Duration

/-- A duration of whole seconds. -/
def ofSeconds (n : Nat) : Duration := ⟨n * 1000⟩

/-- The three digits of a number below a thousand, without zeros at their end. -/
def fraction (n : Nat) : List Char :=
  let ds := [n / 100, n / 10 % 10, n % 10].map fun d => Char.ofNat (48 + d)
  (ds.reverse.dropWhile (· == '0')).reverse

/-- The text of a duration. -/
def render (d : Duration) : String :=
  let seconds := d.milliseconds / 1000
  let rest := d.milliseconds % 1000
  if d.milliseconds = 0 then "0ns"
  else if seconds = 0 then toString rest ++ "ms"
  else
    let digits := fraction rest
    toString seconds ++ (if digits.isEmpty then "" else "." ++ String.ofList digits) ++ "s"

end Duration

end BroadcastRelay
