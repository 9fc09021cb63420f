/-!
# UTF-8

Bytes are lists of `UInt8`. `Utf8.encode` gives the bytes of a text, `Utf8.decode?` reads them back
and refuses anything else (`decode?_eq_some_iff`), `Utf8.decodeLossy` reads every byte list, putting
U+FFFD where a character is cut short or cannot start, and `Utf8.fault?` says where the first such
place is.
-/

namespace BroadcastRelay

/-- A sequence of bytes. -/
abbrev Bytes := List UInt8

namespace Utf8

/-- The UTF-8 bytes of a text. -/
def encode (s : String) : Bytes := s.toByteArray.data.toList

/-- The text whose UTF-8 bytes are given, if there is one. -/
def decode? (bytes : Bytes) : Option String := String.fromUTF8? ⟨bytes.toArray⟩

/-- Reading accepts exactly the encoding of each text. -/
theorem decode?_eq_some_iff {bytes : Bytes} {s : String} :
    decode? bytes = some s ↔ bytes = encode s := by
  constructor
  · intro h
    unfold decode? String.fromUTF8? at h
    split at h
    · simp only [Option.some.injEq] at h
      rw [← h]
      simp [encode, String.fromUTF8]
    · simp at h
  · rintro rfl
    have hv : (ByteArray.mk (encode s).toArray).IsValidUTF8 := by
      have : (ByteArray.mk (encode s).toArray) = s.toByteArray := by simp [encode]
      rw [this]
      exact s.isValidUTF8
    unfold decode? String.fromUTF8?
    rw [dif_pos (by simpa using hv)]
    simp only [Option.some.injEq]
    apply String.toByteArray_inj.mp
    simp [String.fromUTF8, encode]

theorem decode?_encode (s : String) : decode? (encode s) = some s :=
  decode?_eq_some_iff.mpr rfl

/-! ## Reading damaged bytes -/

/-- A character in the making: how many more bytes it needs, the bits read so far, and the range
its next byte must lie in. -/
structure Partial where
  /-- The number of bytes still to come. -/
  missing : Nat
  /-- The bits of the bytes read so far. -/
  bits : Nat
  /-- The least value allowed for the next byte. -/
  low : Nat := 0x80
  /-- The greatest value allowed for the next byte. -/
  high : Nat := 0xBF

/-- What the first byte of a character says: the whole character, the start of a longer one, or
nothing that can start a character. -/
inductive Lead where
  /-- A character of one byte. -/
  | whole (c : Char)
  /-- The start of a longer character. -/
  | start (p : Partial)
  /-- No character starts with this byte. -/
  | none

/-- Reads the first byte of a character. -/
def lead (b : UInt8) : Lead :=
  let n := b.toNat
  if n < 0x80 then .whole (Char.ofNat n)
  else if n < 0xC2 then .none
  else if n < 0xE0 then .start { missing := 1, bits := n - 0xC0 }
  else if n = 0xE0 then .start { missing := 2, bits := 0, low := 0xA0 }
  else if n = 0xED then .start { missing := 2, bits := 0xD, high := 0x9F }
  else if n < 0xF0 then .start { missing := 2, bits := n - 0xE0 }
  else if n = 0xF0 then .start { missing := 3, bits := 0, low := 0x90 }
  else if n < 0xF4 then .start { missing := 3, bits := n - 0xF0 }
  else if n = 0xF4 then .start { missing := 3, bits := 4, high := 0x8F }
  else .none

/-- The replacement character. -/
def replacement : Char := Char.ofNat 0xFFFD

/-- The state of the damaged-text reader: the characters so far, last first, and the character in
the making. -/
abbrev LossyState := List Char × Option Partial

/-- Takes a byte that is to start a character. -/
def startAt (done : List Char) (b : UInt8) : LossyState :=
  match lead b with
  | .whole c => (c :: done, none)
  | .start p => (done, some p)
  | .none => (replacement :: done, none)

/-- Takes one byte. A byte that does not continue the character in the making ends it as U+FFFD
and is read again as a first byte. -/
def lossyStep (st : LossyState) (b : UInt8) : LossyState :=
  match st with
  | (done, none) => startAt done b
  | (done, some p) =>
    let n := b.toNat
    if p.low ≤ n ∧ n ≤ p.high then
      let bits := p.bits * 64 + (n - 0x80)
      if p.missing ≤ 1 then (Char.ofNat bits :: done, none)
      else (done, some { missing := p.missing - 1, bits })
    else startAt (replacement :: done) b

/-- The text of the bytes, with U+FFFD for each maximal piece that is no character. -/
def decodeLossy (bytes : Bytes) : String :=
  match bytes.foldl lossyStep ([], none) with
  | (done, none) => String.ofList done.reverse
  | (done, some _) => String.ofList (replacement :: done).reverse

/-! ## The first damage -/

/-- Where bytes stop being characters: at the start of a piece of some bytes that no character
begins with, or of one that the end of the bytes cuts short. -/
structure Fault where
  /-- The index of the first byte of the piece. -/
  index : Nat
  /-- The length of the piece, unless the end cuts it short. -/
  length : Option Nat
deriving DecidableEq, Repr

/-- The text of the fault. -/
def Fault.message (f : Fault) : String :=
  match f.length with
  | some n =>
    "invalid utf-8 sequence of " ++ toString n ++ " bytes from index " ++ toString f.index
  | none => "incomplete utf-8 byte sequence from index " ++ toString f.index

/-- The first fault of the bytes from `index` on, given where the character in the making starts. -/
def faultFrom (index start : Nat) : Option Partial → Bytes → Option Fault
  | none, [] => none
  | some _, [] => some ⟨start, none⟩
  | none, b :: r =>
    match lead b with
    | .whole _ => faultFrom (index + 1) (index + 1) none r
    | .start p => faultFrom (index + 1) index (some p) r
    | .none => some ⟨index, some 1⟩
  | some p, b :: r =>
    if p.low ≤ b.toNat ∧ b.toNat ≤ p.high then
      if p.missing ≤ 1 then faultFrom (index + 1) (index + 1) none r
      else faultFrom (index + 1) start (some { missing := p.missing - 1, bits := p.bits }) r
    else some ⟨start, some (index - start)⟩

/-- The first fault of the bytes. -/
def fault? (bytes : Bytes) : Option Fault := faultFrom 0 0 none bytes

end Utf8

end BroadcastRelay
