import BroadcastRelay.Decimal.Layout
import BroadcastRelay.Decimal.Nearest
import BroadcastRelay.Document.Basic
import BroadcastRelay.Toml.Text
/-!
# Numbers and moments of TOML

Digits may be set apart by single underscores. A whole number has sixty-four bits with a sign; in
the bases two, eight and sixteen it is written without a sign. A number too large for floating point
is refused, one too small for it is not. A moment is a date, a time of day, or both with or without
the distance from universal time; as a document it is a map without members.
-/

namespace BroadcastRelay.Toml

/-! ## Digits -/

/-- Digits of a kind, of which there is one at least, with single underscores between them. -/
def digits (p : Char → Bool) : Scan (List Char) := do
  let first ← Scan.one p
  let others ← Scan.many (Scan.one p <|> (do Scan.char '_'; Scan.one p))
  return first :: others

/-- A sign: whether it is a minus. -/
def sign : Scan Bool :=
  (do Scan.char '-'; return true) <|> (do Scan.char '+'; return false) <|> return false

/-- Decimal digits of which only a lone one may be zero at the front. -/
def wholeDigits : Scan (List Char) :=
  (do Scan.char '0'; return ['0']) <|> digits Char.isDigit

/-! ## Whole numbers -/

/-- A whole number as a document, if it has sixty-four bits with its sign. -/
def whole? (negative : Bool) (n : Nat) : Option Document :=
  if negative then
    if n = 0 then some (.unsigned 0) else if n ≤ Nat.pow 2 63 then some (.negative n) else none
  else if n < Nat.pow 2 63 then some (.unsigned n) else none

/-- A whole number in another base than ten, after its mark. -/
def based (mark : Char) (base : Nat) (p : Char → Bool) : Scan Document := do
  Scan.word ['0', mark]
  whole? false (numberOf base (← digits p))

/-- A whole number. -/
def wholeNumber : Scan Document :=
  based 'x' 16 isHexDigit <|> based 'o' 8 (fun c => '0' ≤ c && c ≤ '7') <|>
    based 'b' 2 (fun c => c = '0' || c = '1') <|> do
      let negative ← sign
      whole? negative (numberOf 10 (← wholeDigits))

/-! ## Numbers with a point -/

/-- The digits after the point. -/
def fraction : Scan (List Char) := do
  Scan.char '.'
  digits Char.isDigit

/-- The power of ten. -/
def exponent : Scan Int := do
  let _ ← Scan.one fun c => c = 'e' || c = 'E'
  let negative ← sign
  let n := numberOf 10 (← digits Char.isDigit)
  return if negative then -Int.ofNat n else n

/-- The digits after the point and the power of ten, of which one is there at least. -/
def tail : Scan (List Char × Int) :=
  (do return ([], ← exponent)) <|> do
    let ds ← fraction
    return (ds, (← optional exponent).getD 0)

/-- A floating-point number as a document. -/
def pointed (x : Float) : Document := .float (Decimal.Layout.plain.render x)

/-- A number with a point or a power of ten. -/
def pointNumber : Scan Document := do
  let negative ← sign
  let whole ← wholeDigits
  let (after, power) ← tail
  let x := Decimal.nearest (numberOf 10 (whole ++ after)) (power - after.length)
  if negative then return pointed (-x)
  if x.isInf then failure
  return pointed x

/-- One of the words for infinity and for what is no number. -/
def wordNumber : Scan Document := do
  let negative ← sign
  let x : Float ←
    (do Scan.word "inf".toList; return 1 / 0) <|> (do Scan.word "nan".toList; return 0 / 0)
  return pointed (if negative then -x else x)

/-! ## Moments -/

/-- A number of exactly `count` digits between two bounds. -/
def inRange (count lo hi : Nat) : Scan Nat := do
  let n := numberOf 10 (← Scan.exactly count Char.isDigit)
  if lo ≤ n && n ≤ hi then return n else failure

/-- Whether the year has a leap day. -/
def isLeap (year : Nat) : Bool := year % 4 = 0 && (year % 100 != 0 || year % 400 = 0)

/-- The count of days of a month. -/
def daysIn (year month : Nat) : Nat :=
  if month = 2 then if isLeap year then 29 else 28
  else if month = 4 || month = 6 || month = 9 || month = 11 then 30
  else 31

/-- A date. -/
def date : Scan Unit := do
  let year ← inRange 4 0 9999
  Scan.char '-'
  let month ← inRange 2 1 12
  Scan.char '-'
  let _ ← inRange 2 1 (daysIn year month)

/-- A time of day. The second sixty is a leap second. -/
def time : Scan Unit := do
  let _ ← inRange 2 0 23
  Scan.char ':'
  let _ ← inRange 2 0 59
  Scan.char ':'
  let _ ← inRange 2 0 60
  let _ ← optional (do Scan.char '.'; Scan.run1 Char.isDigit)

/-- The distance from universal time. -/
def offset : Scan Unit :=
  (do let _ ← Scan.one fun c => c = 'Z' || c = 'z') <|> do
    let _ ← Scan.one fun c => c = '+' || c = '-'
    let _ ← inRange 2 0 23
    Scan.char ':'
    let _ ← inRange 2 0 59

/-- A date, a time of day, or both. -/
def moment : Scan Document := do
  (do
    date
    let _ ← optional do
      let _ ← Scan.one fun c => c = 'T' || c = 't' || c = ' '
      time
      let _ ← optional offset) <|> time
  return .map [] .closed

/-- A number or a moment. -/
def number : Scan Document := moment <|> pointNumber <|> wordNumber <|> wholeNumber

end BroadcastRelay.Toml
