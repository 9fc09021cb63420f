import BroadcastRelay.Json.Number
import BroadcastRelay.Text.Split
/-!
# JSON tokens

`tokens` cuts bytes into tokens. The list ends with `Token.fault` where no token can be read. The
bytes of a string are kept as written; `StringText.decode?` gives the text they stand for, and
there is none when an escape names half of a surrogate pair or the bytes are not UTF-8.
-/

namespace BroadcastRelay.Json

/-- A token of JSON. -/
inductive Token where
  /-- An opening square bracket. -/
  | listOpen
  /-- A closing square bracket. -/
  | listClose
  /-- An opening brace. -/
  | mapOpen
  /-- A closing brace. -/
  | mapClose
  /-- A comma. -/
  | comma
  /-- A colon. -/
  | colon
  /-- The word for the absent value. -/
  | null
  /-- One of the words for truth values. -/
  | bool (b : Bool)
  /-- A number. -/
  | number (n : Number)
  /-- The bytes between the quotes of a string. -/
  | string (raw : Bytes)
  /-- The place where no token can be read. -/
  | fault
deriving DecidableEq, Repr

/-! ## Strings -/

namespace StringText

/-- The value of a hexadecimal digit. -/
def hexDigit? (b : UInt8) : Option Nat :=
  if 48 ≤ b ∧ b ≤ 57 then some (b.toNat - 48)
  else if 65 ≤ b ∧ b ≤ 70 then some (b.toNat - 55)
  else if 97 ≤ b ∧ b ≤ 102 then some (b.toNat - 87)
  else none

/-- The value of four hexadecimal digits. -/
def hex4? (a b c d : UInt8) : Option Nat := do
  let a ← hexDigit? a
  let b ← hexDigit? b
  let c ← hexDigit? c
  let d ← hexDigit? d
  return ((a * 16 + b) * 16 + c) * 16 + d

/-- The byte that a one-letter escape stands for. -/
def escape? (b : UInt8) : Option UInt8 :=
  if b = 34 then some 34
  else if b = 92 then some 92
  else if b = 47 then some 47
  else if b = 98 then some 8
  else if b = 102 then some 12
  else if b = 110 then some 10
  else if b = 114 then some 13
  else if b = 116 then some 9
  else none

/-- The bytes up to the closing quote, and what follows it. `seen` holds the bytes already passed,
last first. Control characters and unknown escapes are refused. -/
def scan (seen : Bytes) : Bytes → Option (Bytes × Bytes)
  | [] => none
  | 34 :: r => some (seen.reverse, r)
  | 92 :: 117 :: a :: b :: c :: d :: r =>
    if (hex4? a b c d).isSome then scan (d :: c :: b :: a :: 117 :: 92 :: seen) r else none
  | 92 :: b :: r => if (escape? b).isSome then scan (b :: 92 :: seen) r else none
  | b :: r => if b < 32 ∨ b = 92 then none else scan (b :: seen) r

/-- The UTF-8 bytes of a code point. -/
def codePoint (n : Nat) : Bytes := Utf8.encode (String.singleton (Char.ofNat n))

/-- The bytes that the escapes stand for, in front of `done`, which holds the bytes already decoded,
last first. -/
def unescape (done : Bytes) : Bytes → Option Bytes
  | [] => some done.reverse
  | 92 :: 117 :: a :: b :: c :: d :: 92 :: 117 :: a' :: b' :: c' :: d' :: r =>
    match hex4? a b c d, hex4? a' b' c' d' with
    | some n, some n' =>
      if 0xD800 ≤ n ∧ n < 0xDC00 then
        if 0xDC00 ≤ n' ∧ n' < 0xE000 then
          let scalar := (n - 0xD800) * 0x400 + (n' - 0xDC00) + 0x10000
          unescape ((codePoint scalar).reverse ++ done) r
        else none
      else if 0xDC00 ≤ n ∧ n < 0xE000 then none
      else unescape ((codePoint n).reverse ++ done) (92 :: 117 :: a' :: b' :: c' :: d' :: r)
    | _, _ => none
  | 92 :: 117 :: a :: b :: c :: d :: r =>
    match hex4? a b c d with
    | some n =>
      if 0xD800 ≤ n ∧ n < 0xE000 then none
      else unescape ((codePoint n).reverse ++ done) r
    | none => none
  | 92 :: b :: r =>
    match escape? b with
    | some e => unescape (e :: done) r
    | none => none
  | b :: r => unescape (b :: done) r

/-- The text that the bytes between quotes stand for. -/
def decode? (raw : Bytes) : Option String := (unescape [] raw).bind Utf8.decode?

theorem scan_length_le {seen bs raw rest : Bytes} (h : scan seen bs = some (raw, rest)) :
    rest.length ≤ bs.length := by
  fun_induction scan seen bs with
  | case1 => simp at h
  | case2 seen r =>
    simp only [Option.some.injEq, Prod.mk.injEq] at h
    simp [← h.2]
  | case3 seen a b c d r _ ih =>
    have := ih h
    simp only [List.length_cons]
    omega
  | case4 => simp at h
  | case5 seen b r _ _ ih =>
    have := ih h
    simp only [List.length_cons]
    omega
  | case6 => simp at h
  | case7 => simp at h
  | case8 seen b r _ _ _ _ ih =>
    have := ih h
    simp only [List.length_cons]
    omega

end StringText

/-! ## Cutting bytes into tokens -/

/-- Whether the byte may stand between tokens. -/
def isSpace (b : UInt8) : Bool := b = 32 || b = 10 || b = 13 || b = 9

/-- The token that the byte is by itself. -/
def mark? (b : UInt8) : Option Token :=
  if b = 91 then some .listOpen
  else if b = 93 then some .listClose
  else if b = 123 then some .mapOpen
  else if b = 125 then some .mapClose
  else if b = 44 then some .comma
  else if b = 58 then some .colon
  else none

/-- The word that starts with the byte: the bytes still to come, and the token it is. -/
def word? (b : UInt8) : Option (Bytes × Token) :=
  if b = 110 then some ([117, 108, 108], .null)
  else if b = 116 then some ([114, 117, 101], .bool true)
  else if b = 102 then some ([97, 108, 115, 101], .bool false)
  else none

/-- Reads a token that starts with the byte `b`, of which `r` follows. -/
def token? (b : UInt8) (r : Bytes) : Option (Token × Bytes) :=
  match mark? b, word? b with
  | some t, _ => some (t, r)
  | none, some (w, t) => (dropStart? w r).map (t, ·)
  | none, none =>
    if b = 34 then (StringText.scan [] r).map fun (raw, r) => (.string raw, r)
    else (Number.read (b :: r)).map fun (n, r) => (.number n, r)

/-- A token takes at least its first byte. -/
theorem length_of_token? {b : UInt8} {r rest : Bytes} {t : Token}
    (h : token? b r = some (t, rest)) : rest.length ≤ r.length := by
  unfold token? at h
  split at h
  · simp only [Option.some.injEq, Prod.mk.injEq] at h
    simp [← h.2]
  · obtain ⟨r', hw, h⟩ := Option.map_eq_some_iff.mp h
    simp only [Prod.mk.injEq] at h
    exact h.2 ▸ length_le_of_dropStart? hw
  · split at h
    · obtain ⟨⟨raw, r'⟩, hs, h⟩ := Option.map_eq_some_iff.mp h
      simp only [Prod.mk.injEq] at h
      exact h.2 ▸ StringText.scan_length_le hs
    · obtain ⟨⟨n, r'⟩, hn, h⟩ := Option.map_eq_some_iff.mp h
      have := Number.length_of_read hn
      simp only [Prod.mk.injEq] at h
      simp only [List.length_cons, h.2] at this
      omega

/-- Cuts the bytes into tokens, after those in `done`, last first. -/
def tokensFrom (done : List Token) (bs : Bytes) : List Token :=
  match bs with
  | [] => done.reverse
  | b :: r =>
    if isSpace b then tokensFrom done r
    else
      match h : token? b r with
      | none => (Token.fault :: done).reverse
      | some (t, rest) =>
        have : rest.length ≤ r.length := length_of_token? h
        tokensFrom (t :: done) rest
termination_by bs.length

/-- The tokens of the bytes. -/
def tokens (bs : Bytes) : List Token := tokensFrom [] bs

end BroadcastRelay.Json
