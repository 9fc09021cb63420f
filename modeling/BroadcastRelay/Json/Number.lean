import BroadcastRelay.Decimal.Layout
import BroadcastRelay.Document.Basic
import BroadcastRelay.Text.Utf8
/-!
# JSON numbers

`Number.read` takes the longest number from the front of the bytes. `Number.document` gives its
value: a whole number of up to sixty-four bits where the text has neither fraction nor exponent,
and otherwise a floating-point number. The latter is the product of the leading digits, as many as
sixty-four bits hold, and a power of ten, so its last bit may differ from that of the nearest
number; a number too large for floating point stands for no value.
-/

namespace BroadcastRelay.Json

/-- A number as it is written. -/
structure Number where
  /-- Whether a minus sign stands in front. -/
  negative : Bool
  /-- The digits before the point. -/
  whole : List Nat
  /-- The digits after the point, if there is one. -/
  fraction : Option (List Nat)
  /-- The exponent, if there is one: whether it is negative, and its digits. -/
  exponent : Option (Bool × List Nat)
deriving DecidableEq, Repr

namespace Number

/-- Whether the byte is a decimal digit. -/
def isDigit (b : UInt8) : Bool := 48 ≤ b && b ≤ 57

/-- The value of a decimal digit. -/
def digit (b : UInt8) : Nat := b.toNat - 48

/-- The digits at the front of the bytes, and what follows them. -/
def digits (bs : Bytes) : List Nat × Bytes :=
  ((bs.takeWhile isDigit).map digit, bs.dropWhile isDigit)

/-- The digits at the front of the bytes if there is one at least. -/
def digits? (bs : Bytes) : Option (List Nat × Bytes) :=
  match digits bs with
  | ([], _) => none
  | r => some r

/-- Reads the point and the digits after it, if there is a point. -/
def readFraction (bs : Bytes) : Option (Option (List Nat) × Bytes) :=
  match bs with
  | 46 :: r => (digits? r).map fun (ds, r) => (some ds, r)
  | _ => some (none, bs)

/-- Reads the sign of an exponent: whether it is negative, and what follows. -/
def readSign (bs : Bytes) : Bool × Bytes :=
  match bs with
  | 43 :: r => (false, r)
  | 45 :: r => (true, r)
  | _ => (false, bs)

/-- Reads an exponent, if there is one. -/
def readExponent (bs : Bytes) : Option (Option (Bool × List Nat) × Bytes) :=
  match bs with
  | b :: r =>
    if b = 101 ∨ b = 69 then
      (digits? (readSign r).2).map fun (ds, rest) => (some ((readSign r).1, ds), rest)
    else some (none, bs)
  | [] => some (none, [])

/-- Reads the part of a number after its sign and whole digits. -/
def readTail (negative : Bool) (whole : List Nat) (bs : Bytes) : Option (Number × Bytes) :=
  (readFraction bs).bind fun (fraction, bs) =>
    (readExponent bs).map fun (exponent, bs) => (⟨negative, whole, fraction, exponent⟩, bs)

/-- Reads a number without its sign. A zero stands alone before the point. -/
def readUnsigned (negative : Bool) (bs : Bytes) : Option (Number × Bytes) :=
  match bs with
  | 48 :: b :: r => if isDigit b then none else readTail negative [0] (b :: r)
  | _ => (digits? bs).bind fun (ds, r) => readTail negative ds r

/-- Reads the number at the front of the bytes. -/
def read : Bytes → Option (Number × Bytes)
  | 45 :: r => readUnsigned true r
  | bs => readUnsigned false bs

/-! ## Every reader goes forward -/

theorem length_dropWhile_le (p : UInt8 → Bool) (bs : Bytes) :
    (bs.dropWhile p).length ≤ bs.length := by
  induction bs with
  | nil => simp
  | cons b bs ih =>
    rw [List.dropWhile_cons]
    split
    · simp only [List.length_cons]; omega
    · exact Nat.le_refl _

theorem length_of_digits? {bs rest : Bytes} {ds : List Nat} (h : digits? bs = some (ds, rest)) :
    rest.length < bs.length := by
  cases bs with
  | nil => simp [digits?, digits] at h
  | cons b bs =>
    cases hb : isDigit b with
    | false => simp [digits?, digits, hb] at h
    | true =>
      simp only [digits?, digits, List.takeWhile_cons, List.dropWhile_cons, hb, if_true,
        List.map_cons, Option.some.injEq, Prod.mk.injEq] at h
      rw [← h.2]
      have := length_dropWhile_le isDigit bs
      simp only [List.length_cons]
      omega

theorem length_of_readFraction {bs rest : Bytes} {fraction : Option (List Nat)}
    (h : readFraction bs = some (fraction, rest)) : rest.length ≤ bs.length := by
  unfold readFraction at h
  split at h
  · obtain ⟨⟨ds, r⟩, hd, h⟩ := Option.map_eq_some_iff.mp h
    have := length_of_digits? hd
    simp only [Prod.mk.injEq] at h
    simp only [List.length_cons, ← h.2]
    omega
  · simp only [Option.some.injEq, Prod.mk.injEq] at h
    simp [← h.2]

theorem length_readSign_le (bs : Bytes) : (readSign bs).2.length ≤ bs.length := by
  unfold readSign
  split <;> simp

theorem length_of_readExponent {bs rest : Bytes} {exponent : Option (Bool × List Nat)}
    (h : readExponent bs = some (exponent, rest)) : rest.length ≤ bs.length := by
  cases bs with
  | nil =>
    simp only [readExponent, Option.some.injEq, Prod.mk.injEq] at h
    simp [← h.2]
  | cons b r =>
    unfold readExponent at h
    simp only at h
    split at h
    · obtain ⟨⟨ds, r'⟩, hd, h⟩ := Option.map_eq_some_iff.mp h
      have := length_of_digits? hd
      have := length_readSign_le r
      simp only [Prod.mk.injEq] at h
      simp only [List.length_cons, ← h.2]
      omega
    · simp only [Option.some.injEq, Prod.mk.injEq] at h
      simp [← h.2]

theorem length_of_readTail {negative : Bool} {whole : List Nat} {bs rest : Bytes} {n : Number}
    (h : readTail negative whole bs = some (n, rest)) : rest.length ≤ bs.length := by
  obtain ⟨⟨fraction, mid⟩, hf, h⟩ := Option.bind_eq_some_iff.mp h
  obtain ⟨⟨exponent, last⟩, he, h⟩ := Option.map_eq_some_iff.mp h
  have := length_of_readFraction hf
  have := length_of_readExponent he
  simp only [Prod.mk.injEq] at h
  rw [← h.2]
  omega

theorem length_of_readUnsigned {negative : Bool} {bs rest : Bytes} {n : Number}
    (h : readUnsigned negative bs = some (n, rest)) : rest.length < bs.length := by
  unfold readUnsigned at h
  split at h
  · split at h
    · simp at h
    · have := length_of_readTail h
      simp only [List.length_cons] at *
      omega
  · obtain ⟨⟨ds, r⟩, hd, h⟩ := Option.bind_eq_some_iff.mp h
    have := length_of_digits? hd
    have := length_of_readTail h
    omega

/-- A number takes at least one byte. -/
theorem length_of_read {bs rest : Bytes} {n : Number} (h : read bs = some (n, rest)) :
    rest.length < bs.length := by
  unfold read at h
  split at h
  · have := length_of_readUnsigned h
    simp only [List.length_cons]
    omega
  · exact length_of_readUnsigned h

/-! ## Values -/

/-- Appends digits to a number as long as it stays below `2^64`, and gives the digits left over. -/
def absorb (n : Nat) : List Nat → Nat × List Nat
  | [] => (n, [])
  | d :: ds => if n * 10 + d < UInt64.size then absorb (n * 10 + d) ds else (n, d :: ds)

/-- The whole number that a list of digits writes. -/
def ofDigits (ds : List Nat) : Nat := ds.foldl (fun n d => n * 10 + d) 0

/-- The product `x · 10^e`, or `none` if it is too large. Powers beyond `10^308` are applied in
pieces of that size. -/
def scale (x : Float) (e : Int) : Option Float :=
  if 0 ≤ e then
    if 308 < e then if x == 0 then some x else none
    else
      let y := x * Float.ofScientific 1 false e.toNat
      if y.isInf then none else some y
  else if -308 ≤ e then some (x / Float.ofScientific 1 false (-e).toNat)
  else if x == 0 then some x
  else scale (x / Float.ofScientific 1 false 308) (e + 308)
termination_by (-e).toNat
decreasing_by omega

/-- The floating-point value of a number, or `none` if it is too large. -/
def float? (n : Number) : Option Float :=
  let (lead, excess) := absorb 0 n.whole
  let fraction := n.fraction.getD []
  let (lead, left) := absorb lead fraction
  let shift : Int := excess.length - (fraction.length - left.length : Nat)
  let value? :=
    match n.exponent with
    | none => scale (UInt64.ofNat lead).toFloat shift
    | some (negativeExponent, ds) =>
      let e := ofDigits ds
      if Nat.pow 2 31 ≤ e then if lead = 0 ∨ negativeExponent then some 0 else none
      else scale (UInt64.ofNat lead).toFloat (if negativeExponent then shift - e else shift + e)
  value?.map fun x => if n.negative then -x else x

/-- The value of a number. Twenty-one digits, of which the first is not zero, are beyond sixty-four
bits already. -/
def document (n : Number) : Document :=
  let asFloat :=
    match n.float? with
    | some x => Document.float (Decimal.Layout.compact.render x)
    | none => .unusable
  if n.fraction.isSome || n.exponent.isSome then asFloat
  else
    let v := ofDigits (n.whole.take 21)
    if n.negative then
      if 0 < v ∧ v ≤ Nat.pow 2 63 then .negative v else asFloat
    else if v < UInt64.size then .unsigned v else asFloat

end Number

end BroadcastRelay.Json
