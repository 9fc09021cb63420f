import BroadcastRelay.Json.Document
import BroadcastRelay.Json.Value
import BroadcastRelay.Proofs.Utf8
/-!
# Written JSON reads back

A value is written by `Value.render` and read in three steps: the bytes are cut into tokens, the
tokens are put together to a document, and the document is read as a record or a list. Writer and
reader meet in the middle: `Value.tokens` are the tokens of a value and `Value.document` is its
document, both by recursion on the value. The text of a value is cut into its tokens
(`tokensFrom_chars`), and its tokens are put together to its document (`foldl_tokens`), whatever
surrounds it. A text that is decoded is thus decoded from the document of the value it was written
from (`decode_render`).
-/

namespace BroadcastRelay.Json

/-! ## Strings -/

/-- The bytes of a character as it is written inside a text. -/
def escapedChar (c : Char) : Bytes := (escape c).flatMap String.utf8EncodeChar

/-- The bytes of a text between its quotes. -/
def escaped (cs : List Char) : Bytes := cs.flatMap escapedChar

@[simp] theorem escaped_nil : escaped [] = [] := rfl

@[simp] theorem escaped_cons (c : Char) (cs : List Char) :
    escaped (c :: cs) = escapedChar c ++ escaped cs := rfl

namespace StringText

/-- Whether the byte stands for itself inside a text. -/
def IsPlain (b : UInt8) : Prop := 32 ≤ b ∧ b ≠ 34 ∧ b ≠ 92

theorem isPlain_of_ascii {c : Char} (hlow : 32 ≤ c.toNat) (hhigh : c.toNat < 128) (hquote : c ≠ '"')
    (hslash : c ≠ '\\') : IsPlain (UInt8.ofNat c.toNat) := by
  have hvalue : (UInt8.ofNat c.toNat).toNat = c.toNat := by
    rw [UInt8.toNat_ofNat']
    omega
  refine ⟨?_, fun heq => ?_, fun heq => ?_⟩
  · rw [UInt8.le_iff_toNat_le, hvalue]
    exact hlow
  · exact hquote (Utf8.ofNat_toNat_inj hhigh (by decide) heq)
  · exact hslash (Utf8.ofNat_toNat_inj hhigh (by decide) heq)

theorem isPlain_of_le {b : UInt8} (h : 128 ≤ b.toNat) : IsPlain b := by
  refine ⟨?_, ?_, ?_⟩
  · rw [UInt8.le_iff_toNat_le]
    exact Nat.le_trans (by decide) h
  · rintro rfl
    exact absurd h (by decide)
  · rintro rfl
    exact absurd h (by decide)

/-- A character is written with a letter after a backslash, with its number in two hexadecimal
digits, or as it is. -/
inductive Form (c : Char) : Bytes → Prop
  | letter {b e : UInt8} (hletter : b ≠ 117) (hescape : escape? b = some e)
    (hchar : String.utf8EncodeChar c = [e]) : Form c [92, b]
  | number {a b : UInt8} (hhex : hex4? 48 48 a b = some c.toNat) (hcontrol : c.toNat < 32) :
    Form c [92, 117, 48, 48, a, b]
  | plain (hplain : ∀ b ∈ String.utf8EncodeChar c, IsPlain b) : Form c (String.utf8EncodeChar c)

/-- Two hexadecimal digits give back a number below thirty-two. -/
theorem hex4?_hexDigit {n : Nat} (h : n < 32) :
    hex4? 48 48 (UInt8.ofNat (hexDigit (n / 16)).toNat) (UInt8.ofNat (hexDigit (n % 16)).toNat) =
      some n := by
  have hall : ∀ n : Nat, n < 32 → hex4? 48 48 (UInt8.ofNat (hexDigit (n / 16)).toNat)
      (UInt8.ofNat (hexDigit (n % 16)).toNat) = some n := by decide
  exact hall n h

theorem utf8EncodeChar_hexDigit {n : Nat} (h : n < 16) :
    String.utf8EncodeChar (hexDigit n) = [UInt8.ofNat (hexDigit n).toNat] := by
  have hall : ∀ n : Nat, n < 16 → (hexDigit n).toNat < 128 := by decide
  exact Utf8.utf8EncodeChar_of_lt (hall n h)

theorem form_escapedChar (c : Char) : Form c (escapedChar c) := by
  unfold escapedChar escape
  split
  · rename_i heq
    subst heq
    exact .letter (b := 34) (e := 34) (by decide) rfl rfl
  split
  · rename_i heq
    subst heq
    exact .letter (b := 92) (e := 92) (by decide) rfl rfl
  split
  · rename_i heq
    subst heq
    exact .letter (b := 98) (e := 8) (by decide) rfl rfl
  split
  · rename_i heq
    subst heq
    exact .letter (b := 102) (e := 12) (by decide) rfl rfl
  split
  · rename_i heq
    subst heq
    exact .letter (b := 110) (e := 10) (by decide) rfl rfl
  split
  · rename_i heq
    subst heq
    exact .letter (b := 114) (e := 13) (by decide) rfl rfl
  split
  · rename_i heq
    subst heq
    exact .letter (b := 116) (e := 9) (by decide) rfl rfl
  rename_i hquote hslash _ _ _ _ _
  split
  · rename_i hcontrol
    have hbytes : ['\\', 'u', '0', '0', hexDigit (c.toNat / 16), hexDigit (c.toNat % 16)].flatMap
        String.utf8EncodeChar = [92, 117, 48, 48, UInt8.ofNat (hexDigit (c.toNat / 16)).toNat,
          UInt8.ofNat (hexDigit (c.toNat % 16)).toNat] := by
      simp only [List.flatMap_cons, List.flatMap_nil, List.append_nil,
        utf8EncodeChar_hexDigit (show c.toNat / 16 < 16 by omega),
        utf8EncodeChar_hexDigit (show c.toNat % 16 < 16 by omega)]
      rfl
    rw [hbytes]
    exact .number (hex4?_hexDigit hcontrol) hcontrol
  · rename_i hcontrol
    rw [List.flatMap_cons, List.flatMap_nil, List.append_nil]
    refine .plain fun b hb => ?_
    by_cases hascii : c.toNat < 128
    · rw [Utf8.utf8EncodeChar_of_lt hascii, List.mem_singleton] at hb
      exact hb ▸ isPlain_of_ascii (Nat.not_lt.mp hcontrol) hascii hquote hslash
    · exact isPlain_of_le (Utf8.le_of_mem_utf8EncodeChar (Nat.not_lt.mp hascii) hb)

/-! ### Finding the end of a text -/

theorem scan_plain {b : UInt8} (h : IsPlain b) (seen r : Bytes) :
    scan seen (b :: r) = scan (b :: seen) r := by
  obtain ⟨hlow, hquote, hslash⟩ := h
  have hno : ¬ (b < 32 ∨ b = 92) := by
    rintro (hlt | heq)
    · exact absurd hlow (UInt8.not_le.mpr hlt)
    · exact hslash heq
  rw [scan.eq_5 _ _ _ hquote (fun _ _ _ _ _ heq => absurd heq hslash)
    (fun _ _ heq => absurd heq hslash), if_neg hno]

theorem scan_append_plain {bs : Bytes} (h : ∀ b ∈ bs, IsPlain b) (seen r : Bytes) :
    scan seen (bs ++ r) = scan (bs.reverse ++ seen) r := by
  induction bs generalizing seen with
  | nil => rfl
  | cons b bs ih =>
    have hb : IsPlain b := h b List.mem_cons_self
    rw [List.cons_append, scan_plain hb, ih fun b' hb' => h b' (List.mem_cons_of_mem b hb'),
      List.reverse_cons, List.append_assoc, List.singleton_append]

/-- The bytes of a written character hold no closing quote. -/
theorem scan_escapedChar (c : Char) (seen r : Bytes) :
    scan seen (escapedChar c ++ r) = scan ((escapedChar c).reverse ++ seen) r := by
  have hform := form_escapedChar c
  generalize escapedChar c = bs at hform
  cases hform with
  | letter hletter hescape hchar =>
    have hsome : (escape? _).isSome = true := Option.isSome_of_eq_some hescape
    rw [List.cons_append, List.singleton_append,
      scan.eq_4 _ _ _ (fun _ _ _ _ _ heq => absurd heq hletter), if_pos hsome]
    rfl
  | number hhex hcontrol =>
    have hsome : (hex4? 48 48 _ _).isSome = true := Option.isSome_of_eq_some hhex
    simp only [List.cons_append, List.nil_append]
    rw [scan.eq_3, if_pos hsome]
    rfl
  | plain hplain => exact scan_append_plain hplain seen r

/-- A written text ends at the quote that closes it. -/
theorem scan_escaped (cs : List Char) (seen r : Bytes) :
    scan seen (escaped cs ++ 34 :: r) = some (seen.reverse ++ escaped cs, r) := by
  induction cs generalizing seen with
  | nil => simp [scan]
  | cons c cs ih =>
    rw [escaped_cons, List.append_assoc, scan_escapedChar, ih]
    simp

/-! ### What a text stands for -/

theorem unescape_plain {b : UInt8} (h : IsPlain b) (done r : Bytes) :
    unescape done (b :: r) = unescape (b :: done) r := by
  have hslash : b ≠ 92 := h.2.2
  rw [unescape.eq_5 _ _ _ (fun _ _ _ _ _ _ _ _ _ heq => absurd heq hslash)
    (fun _ _ _ _ _ heq => absurd heq hslash) (fun _ _ heq => absurd heq hslash)]

theorem unescape_append_plain {bs : Bytes} (h : ∀ b ∈ bs, IsPlain b) (done r : Bytes) :
    unescape done (bs ++ r) = unescape (bs.reverse ++ done) r := by
  induction bs generalizing done with
  | nil => rfl
  | cons b bs ih =>
    have hb : IsPlain b := h b List.mem_cons_self
    rw [List.cons_append, unescape_plain hb, ih fun b' hb' => h b' (List.mem_cons_of_mem b hb'),
      List.reverse_cons, List.append_assoc, List.singleton_append]

/-- A number that is no half of a surrogate pair stands for its character. What follows matters only
if it is written as a number too, since the first half of a pair needs its second half. -/
theorem unescape_number {a b c d : UInt8} {n : Nat} (hhex : hex4? a b c d = some n)
    (hlow : n < 0xD800) (done : Bytes) {r : Bytes}
    (hr : ∀ a' b' c' d' r', r = 92 :: 117 :: a' :: b' :: c' :: d' :: r' →
      (hex4? a' b' c' d').isSome = true) :
    unescape done (92 :: 117 :: a :: b :: c :: d :: r) =
      unescape ((codePoint n).reverse ++ done) r := by
  by_cases hnext : ∃ a' b' c' d' r', r = 92 :: 117 :: a' :: b' :: c' :: d' :: r'
  · obtain ⟨a', b', c', d', r', rfl⟩ := hnext
    obtain ⟨n', hn'⟩ := Option.isSome_iff_exists.mp (hr a' b' c' d' r' rfl)
    rw [unescape.eq_2, hhex, hn']
    dsimp only
    rw [if_neg (by omega), if_neg (by omega)]
  · rw [unescape.eq_3 _ _ _ _ _ _ fun a' b' c' d' r' heq => hnext ⟨a', b', c', d', r', heq⟩, hhex]
    dsimp only
    rw [if_neg (by omega)]

/-- Where a written text goes on with a number, it is one. -/
theorem isSome_hex4?_of_escaped {cs : List Char} {a b c d : UInt8} {r : Bytes}
    (h : escaped cs = 92 :: 117 :: a :: b :: c :: d :: r) : (hex4? a b c d).isSome = true := by
  cases cs with
  | nil => exact absurd h (by simp)
  | cons x cs =>
    rw [escaped_cons] at h
    have hform := form_escapedChar x
    generalize escapedChar x = bs at hform h
    cases hform with
    | letter hletter hescape hchar =>
      simp only [List.cons_append, List.cons.injEq] at h
      exact absurd h.2.1 hletter
    | number hhex hcontrol =>
      simp only [List.cons_append, List.nil_append, List.cons.injEq, true_and] at h
      obtain ⟨rfl, rfl, rfl, rfl, -⟩ := h
      exact Option.isSome_of_eq_some hhex
    | plain hplain =>
      obtain ⟨y, ys, hys⟩ := List.exists_cons_of_ne_nil (String.utf8EncodeChar_ne_nil (c := x))
      rw [hys, List.cons_append] at h
      have hslash := (hplain y (hys ▸ List.mem_cons_self)).2.2
      exact absurd (List.cons.inj h).1 hslash

/-- A written text stands for the text that was written. -/
theorem unescape_escaped (cs : List Char) (done : Bytes) :
    unescape done (escaped cs) = some (done.reverse ++ cs.flatMap String.utf8EncodeChar) := by
  induction cs generalizing done with
  | nil => simp [unescape]
  | cons c cs ih =>
    have htail : ∀ a' b' c' d' r', escaped cs = 92 :: 117 :: a' :: b' :: c' :: d' :: r' →
        (hex4? a' b' c' d').isSome = true := fun _ _ _ _ _ => isSome_hex4?_of_escaped
    have hstep : unescape done (escaped (c :: cs)) =
        unescape ((String.utf8EncodeChar c).reverse ++ done) (escaped cs) := by
      rw [escaped_cons]
      have hform := form_escapedChar c
      generalize escapedChar c = bs at hform
      cases hform with
      | letter hletter hescape hchar =>
        rw [List.cons_append, List.singleton_append,
          unescape.eq_4 _ _ _ (fun _ _ _ _ _ _ _ _ _ heq => absurd heq hletter)
            (fun _ _ _ _ _ heq => absurd heq hletter), hescape, hchar]
        rfl
      | number hhex hcontrol =>
        have hpoint : codePoint c.toNat = String.utf8EncodeChar c := by
          rw [codePoint, Char.ofNat_toNat, Utf8.encode_eq_flatMap]
          simp
        simp only [List.cons_append, List.nil_append]
        rw [unescape_number hhex (by omega) done htail, hpoint]
      | plain hplain => exact unescape_append_plain hplain done _
    rw [hstep, ih, List.flatMap_cons]
    simp

theorem decode?_escaped (s : String) : decode? (escaped s.toList) = some s := by
  rw [decode?, unescape_escaped, Option.bind_some, List.reverse_nil, List.nil_append,
    ← Utf8.encode_eq_flatMap, Utf8.decode?_encode]

end StringText

/-! ## Numbers -/

/-- Whether what follows ends a number: nothing, a comma or a closing mark. -/
def Ends (r : Bytes) : Prop := ∀ b ∈ r.head?, b = 44 ∨ b = 93 ∨ b = 125

theorem ends_nil : Ends [] := by
  intro b hb
  exact absurd hb (by simp)

theorem ends_cons {b : UInt8} (h : b = 44 ∨ b = 93 ∨ b = 125) (r : Bytes) : Ends (b :: r) := by
  intro b' hb'
  obtain rfl := Option.some.inj hb'
  exact h

namespace Number

/-- A natural number as it is written. -/
def ofNat (n : Nat) : Number := ⟨false, (Nat.toDigits 10 n).map (·.toNat - 48), none, none⟩

theorem head?_toDigits {n : Nat} (h : 0 < n) : (Nat.toDigits 10 n).head? ≠ some '0' := by
  induction n using Nat.strongRecOn with
  | _ n ih =>
    by_cases hsmall : n < 10
    · rw [Nat.toDigits_of_lt_base hsmall]
      intro heq
      have hzero : n = 0 := Nat.digitChar_eq_zero.mp (Option.some.inj heq)
      omega
    · have hbefore := ih (n / 10) (by omega) (by omega)
      rw [Nat.toDigits_of_base_le (by omega) (by omega), List.head?_append]
      cases hds : Nat.toDigits 10 (n / 10) with
      | nil => exact absurd hds (by simp)
      | cons d ds =>
        rw [hds] at hbefore
        exact hbefore

theorem toNat_of_isDigit {c : Char} (h : c.isDigit = true) : 48 ≤ c.toNat ∧ c.toNat ≤ 57 := by
  simpa [Char.isDigit, UInt32.le_iff_toNat_le] using h

/-- A decimal digit is one byte. -/
theorem digit_bytes {c : Char} (h : c.isDigit = true) :
    String.utf8EncodeChar c = [UInt8.ofNat c.toNat] ∧ isDigit (UInt8.ofNat c.toNat) = true ∧
      digit (UInt8.ofNat c.toNat) = c.toNat - 48 := by
  have hrange := toNat_of_isDigit h
  have hvalue : (UInt8.ofNat c.toNat).toNat = c.toNat := by
    rw [UInt8.toNat_ofNat']
    omega
  refine ⟨Utf8.utf8EncodeChar_of_lt (by omega), ?_, ?_⟩
  · simpa [isDigit, UInt8.le_iff_toNat_le, hvalue] using hrange
  · rw [digit, hvalue]

theorem not_isDigit_of_ends {b : UInt8} {r : Bytes} (h : Ends (b :: r)) : isDigit b = false := by
  rcases h b rfl with rfl | rfl | rfl <;> rfl

theorem digits_append {ds r : Bytes} (hds : ∀ b ∈ ds, isDigit b = true) (hr : Ends r) :
    digits (ds ++ r) = (ds.map digit, r) := by
  have hend : r.takeWhile isDigit = [] ∧ r.dropWhile isDigit = r := by
    cases r with
    | nil => exact ⟨rfl, rfl⟩
    | cons b r =>
      have hb := not_isDigit_of_ends hr
      exact ⟨List.takeWhile_cons_of_neg (by simp [hb]), List.dropWhile_cons_of_neg (by simp [hb])⟩
  rw [digits, List.takeWhile_append_of_pos hds, List.dropWhile_append_of_pos hds, hend.1, hend.2,
    List.append_nil]

/-- A number that ends after its digits has neither a fraction nor an exponent. -/
theorem readTail_of_ends {r : Bytes} (hr : Ends r) (whole : List Nat) :
    readTail false whole r = some (⟨false, whole, none, none⟩, r) := by
  cases r with
  | nil => rfl
  | cons b r => rcases hr b rfl with rfl | rfl | rfl <;> rfl

theorem readUnsigned_of_ne_zero {b : UInt8} {ds r : Bytes} (hb : b ≠ 48)
    (hds : ∀ d ∈ b :: ds, isDigit d = true) (hr : Ends r) :
    readUnsigned false (b :: ds ++ r) = some (⟨false, (b :: ds).map digit, none, none⟩, r) := by
  have hdigits : digits? (b :: ds ++ r) = some ((b :: ds).map digit, r) := by
    rw [digits?, digits_append hds hr]
    rfl
  unfold readUnsigned
  split
  · rename_i heq
    exact absurd (List.cons.inj heq).1 hb
  · rw [hdigits, Option.bind_some]
    exact readTail_of_ends hr _

theorem read_of_isDigit {b : UInt8} (h : isDigit b = true) (bs : Bytes) :
    read (b :: bs) = readUnsigned false (b :: bs) := by
  unfold read
  split
  · rename_i heq
    rw [(List.cons.inj heq).1] at h
    exact absurd h (by decide)
  · rfl

/-- The bytes of a written number are its digits. -/
theorem bytes_toDigits (n : Nat) : (Nat.toDigits 10 n).flatMap String.utf8EncodeChar =
    (Nat.toDigits 10 n).map fun c => UInt8.ofNat c.toNat := by
  rw [List.map_eq_flatMap, List.flatMap_def, List.flatMap_def]
  exact congrArg _ (List.map_congr_left fun c hc =>
    (digit_bytes (Nat.isDigit_of_mem_toDigits (by omega) (by omega) hc)).1)

/-- A written number is read up to its end. -/
theorem read_toDigits (n : Nat) {r : Bytes} (hr : Ends r) :
    read ((Nat.toDigits 10 n).flatMap String.utf8EncodeChar ++ r) = some (ofNat n, r) := by
  rw [bytes_toDigits]
  by_cases hzero : n = 0
  · subst hzero
    cases r with
    | nil => rfl
    | cons b r => rcases hr b rfl with rfl | rfl | rfl <;> rfl
  · have hdigit : ∀ c ∈ Nat.toDigits 10 n, c.isDigit = true :=
      fun c hc => Nat.isDigit_of_mem_toDigits (by omega) (by omega) hc
    have hhead := head?_toDigits (Nat.pos_of_ne_zero hzero)
    unfold ofNat
    cases hds : Nat.toDigits 10 n with
    | nil => exact absurd hds (by simp)
    | cons c cs =>
      rw [hds] at hdigit hhead
      obtain ⟨-, hc, -⟩ := digit_bytes (hdigit c List.mem_cons_self)
      have hne : UInt8.ofNat c.toNat ≠ 48 := by
        intro heq
        have hrange := toNat_of_isDigit (hdigit c List.mem_cons_self)
        have hchar : c = '0' := Utf8.ofNat_toNat_inj (by omega) (by decide) heq
        exact hhead (congrArg some hchar)
      have hall : ∀ d ∈ UInt8.ofNat c.toNat :: cs.map (fun c => UInt8.ofNat c.toNat),
          isDigit d = true := by
        intro d hd
        rw [← List.map_cons (f := fun c : Char => UInt8.ofNat c.toNat)] at hd
        obtain ⟨c', hc', rfl⟩ := List.mem_map.mp hd
        exact (digit_bytes (hdigit c' hc')).2.1
      have hvalues : (UInt8.ofNat c.toNat :: cs.map fun c => UInt8.ofNat c.toNat).map digit =
          (c :: cs).map (·.toNat - 48) := by
        rw [← List.map_cons (f := fun c : Char => UInt8.ofNat c.toNat), List.map_map]
        exact List.map_congr_left fun c' hc' => (digit_bytes (hdigit c' hc')).2.2
      have hread := readUnsigned_of_ne_zero hne hall hr
      rw [hvalues] at hread
      exact (read_of_isDigit hc _).trans hread

end Number

/-! ## Tokens -/

namespace Value

mutual

/-- The tokens of a value. -/
def tokens : Value → List Token
  | null => [.null]
  | bool b => [.bool b]
  | number n => [.number (.ofNat n)]
  | str s => [.string (escaped s.toList)]
  | list [] => [.listOpen, .listClose]
  | list (v :: vs) => .listOpen :: v.tokens ++ itemTokens vs
  | object [] => [.mapOpen, .mapClose]
  | object ((name, v) :: ms) =>
    .mapOpen :: .string (escaped name.toList) :: .colon :: v.tokens ++ memberTokens ms

/-- The tokens of the rest of a list after an item. -/
def itemTokens : List Value → List Token
  | [] => [.listClose]
  | v :: vs => .comma :: v.tokens ++ itemTokens vs

/-- The tokens of the rest of an object after a member. -/
def memberTokens : List (String × Value) → List Token
  | [] => [.mapClose]
  | (name, v) :: ms =>
    .comma :: .string (escaped name.toList) :: .colon :: v.tokens ++ memberTokens ms

end

mutual

/-- The document that a value is read as. -/
def document : Value → Document
  | null => .null
  | bool b => .bool b
  | number n => (Number.ofNat n).document
  | str s => .str s
  | list vs => .list (itemDocuments vs) .closed
  | object ms => .map (memberDocuments ms) .closed

/-- The documents of the items of a list. -/
def itemDocuments : List Value → List Document
  | [] => []
  | v :: vs => v.document :: itemDocuments vs

/-- The documents of the members of an object. -/
def memberDocuments : List (String × Value) → List (Option String × Document)
  | [] => []
  | (name, v) :: ms => (some name, v.document) :: memberDocuments ms

end

end Value

/-- The bytes of characters. -/
def bytesOf (cs : List Char) : Bytes := cs.flatMap String.utf8EncodeChar

theorem bytesOf_append (cs ds : List Char) : bytesOf (cs ++ ds) = bytesOf cs ++ bytesOf ds :=
  List.flatMap_append

/-- A mark is one byte. -/
theorem bytesOf_cons {c : Char} (h : c.toNat < 128) (cs : List Char) :
    bytesOf (c :: cs) = UInt8.ofNat c.toNat :: bytesOf cs := by
  rw [bytesOf, List.flatMap_cons, Utf8.utf8EncodeChar_of_lt h]
  rfl

theorem tokensFrom_of_token {b : UInt8} {r rest : Bytes} {t : Token} (hspace : isSpace b = false)
    (h : token? b r = some (t, rest)) (done : List Token) :
    tokensFrom done (b :: r) = tokensFrom (t :: done) rest := by
  rw [tokensFrom, if_neg (by simp [hspace])]
  split
  · rename_i hnone
    exact absurd (h.symm.trans hnone) (by simp)
  · rename_i t' rest' hsome
    obtain ⟨rfl, rfl⟩ := Prod.mk.inj (Option.some.inj (h.symm.trans hsome))
    rfl

theorem bytesOf_quote (s : String) : bytesOf (quote s) = 34 :: (escaped s.toList ++ [34]) := by
  have hescaped : bytesOf (s.toList.flatMap escape) = escaped s.toList := List.flatMap_assoc
  rw [quote, List.cons_append, bytesOf_cons (by decide), bytesOf_append, hescaped]
  rfl

theorem tokensFrom_quote (s : String) (done : List Token) (r : Bytes) :
    tokensFrom done (bytesOf (quote s) ++ r) =
      tokensFrom (.string (escaped s.toList) :: done) r := by
  have hscan : token? 34 (escaped s.toList ++ 34 :: r) = some (.string (escaped s.toList), r) := by
    have hraw := StringText.scan_escaped s.toList [] r
    rw [List.reverse_nil, List.nil_append] at hraw
    rw [token?]
    simp only [mark?, word?, hraw]
    rfl
  rw [bytesOf_quote, List.cons_append, List.append_assoc, List.singleton_append]
  exact tokensFrom_of_token rfl hscan done

theorem tokensFrom_toDigits (n : Nat) (done : List Token) {r : Bytes} (hr : Ends r) :
    tokensFrom done (bytesOf (Nat.toDigits 10 n) ++ r) =
      tokensFrom (.number (.ofNat n) :: done) r := by
  have hread := Number.read_toDigits n hr
  have hdigit : ∀ c ∈ Nat.toDigits 10 n, c.isDigit = true :=
    fun c hc => Nat.isDigit_of_mem_toDigits (by omega) (by omega) hc
  unfold bytesOf
  rw [Number.bytes_toDigits] at hread ⊢
  cases hds : Nat.toDigits 10 n with
  | nil => exact absurd hds (by simp)
  | cons c cs =>
    rw [hds] at hdigit hread
    obtain ⟨hlow, hhigh⟩ := Number.toNat_of_isDigit (hdigit c List.mem_cons_self)
    have hfirst : ∀ n : Nat, n < 58 → 48 ≤ n → isSpace (UInt8.ofNat n) = false ∧
        mark? (UInt8.ofNat n) = none ∧ word? (UInt8.ofNat n) = none ∧ UInt8.ofNat n ≠ 34 := by
      decide
    obtain ⟨hspace, hmark, hword, hquote⟩ := hfirst c.toNat (by omega) hlow
    have htoken : token? (UInt8.ofNat c.toNat) (cs.map (fun c => UInt8.ofNat c.toNat) ++ r) =
        some (.number (.ofNat n), r) := by
      rw [token?, hmark, hword]
      dsimp only
      rw [if_neg hquote, ← List.cons_append]
      exact congrArg (Option.map _) hread
    exact tokensFrom_of_token hspace htoken done

theorem ends_itemChars (vs : List Value) (r : Bytes) :
    Ends (bytesOf (Value.itemChars vs) ++ r) := by
  cases vs with
  | nil => exact ends_cons (by decide) r
  | cons v vs =>
    rw [Value.itemChars, List.cons_append, bytesOf_cons (by decide), List.cons_append]
    exact ends_cons (by decide) _

theorem ends_memberChars (ms : List (String × Value)) (r : Bytes) :
    Ends (bytesOf (Value.memberChars ms) ++ r) := by
  cases ms with
  | nil => exact ends_cons (by decide) r
  | cons m ms =>
    simp only [Value.memberChars, List.cons_append]
    rw [bytesOf_cons (by decide), List.cons_append]
    exact ends_cons (by decide) _

/-- A mark is a token by itself. -/
theorem tokensFrom_mark {c : Char} {t : Token} (hascii : c.toNat < 128)
    (hspace : isSpace (UInt8.ofNat c.toNat) = false) (hmark : mark? (UInt8.ofNat c.toNat) = some t)
    (done : List Token) (cs : List Char) (r : Bytes) :
    tokensFrom done (bytesOf (c :: cs) ++ r) = tokensFrom (t :: done) (bytesOf cs ++ r) := by
  rw [bytesOf_cons hascii, List.cons_append]
  refine tokensFrom_of_token hspace ?_ done
  rw [token?, hmark]

/-- A member is its name, a colon and its value. -/
theorem tokensFrom_member {v : Value} {r : Bytes} (hv : ∀ done,
    tokensFrom done (bytesOf v.chars ++ r) = tokensFrom (v.tokens.reverse ++ done) r)
    (name : String) (done : List Token) :
    tokensFrom done (bytesOf (quote name ++ ':' :: v.chars) ++ r) =
      tokensFrom (v.tokens.reverse ++ .colon :: .string (escaped name.toList) :: done) r := by
  rw [bytesOf_append, List.append_assoc, tokensFrom_quote,
    tokensFrom_mark (by decide) (by decide) rfl, hv]

mutual

/-- The text of a value is cut into its tokens, if what follows can follow a value. -/
theorem tokensFrom_chars (v : Value) (done : List Token) {r : Bytes} (hr : Ends r) :
    tokensFrom done (bytesOf v.chars ++ r) = tokensFrom (v.tokens.reverse ++ done) r := by
  match v with
  | .null => exact tokensFrom_of_token rfl rfl done
  | .bool true => exact tokensFrom_of_token rfl rfl done
  | .bool false => exact tokensFrom_of_token rfl rfl done
  | .number n => exact tokensFrom_toDigits n done hr
  | .str s => exact tokensFrom_quote s done r
  | .list [] => exact (tokensFrom_of_token rfl rfl done).trans (tokensFrom_of_token rfl rfl _)
  | .list (v :: vs) =>
    rw [Value.chars, List.cons_append, tokensFrom_mark (by decide) (by decide) rfl, bytesOf_append,
      List.append_assoc, tokensFrom_chars v _ (ends_itemChars vs r), tokensFrom_itemChars]
    simp [Value.tokens]
  | .object [] => exact (tokensFrom_of_token rfl rfl done).trans (tokensFrom_of_token rfl rfl _)
  | .object ((name, v) :: ms) =>
    have hv := fun done => tokensFrom_chars v done (ends_memberChars ms r)
    rw [Value.chars, List.cons_append, List.cons_append,
      tokensFrom_mark (by decide) (by decide) rfl, bytesOf_append, List.append_assoc,
      tokensFrom_member hv, tokensFrom_memberChars]
    simp [Value.tokens]

theorem tokensFrom_itemChars (vs : List Value) (done : List Token) (r : Bytes) :
    tokensFrom done (bytesOf (Value.itemChars vs) ++ r) =
      tokensFrom ((Value.itemTokens vs).reverse ++ done) r := by
  match vs with
  | [] => exact tokensFrom_of_token rfl rfl done
  | v :: vs =>
    rw [Value.itemChars, List.cons_append, tokensFrom_mark (by decide) (by decide) rfl,
      bytesOf_append, List.append_assoc, tokensFrom_chars v _ (ends_itemChars vs r),
      tokensFrom_itemChars]
    simp [Value.itemTokens]

theorem tokensFrom_memberChars (ms : List (String × Value)) (done : List Token) (r : Bytes) :
    tokensFrom done (bytesOf (Value.memberChars ms) ++ r) =
      tokensFrom ((Value.memberTokens ms).reverse ++ done) r := by
  match ms with
  | [] => exact tokensFrom_of_token rfl rfl done
  | (name, v) :: ms =>
    have hv := fun done => tokensFrom_chars v done (ends_memberChars ms r)
    rw [Value.memberChars, List.cons_append, List.cons_append,
      tokensFrom_mark (by decide) (by decide) rfl, bytesOf_append, List.append_assoc,
      tokensFrom_member hv, tokensFrom_memberChars]
    simp [Value.memberTokens]

end

theorem tokens_render (v : Value) : tokens (Utf8.encode v.render) = v.tokens := by
  have hbytes : Utf8.encode v.render = bytesOf v.chars ++ [] := by
    rw [Value.render, Utf8.encode_eq_flatMap, String.toList_ofList, List.append_nil, bytesOf]
  rw [tokens, hbytes, tokensFrom_chars v [] ends_nil, tokensFrom, List.append_nil,
    List.reverse_reverse]

/-! ## Documents -/

open Assembly

/-- The first token of a value closes nothing. -/
theorem exists_tokens (v : Value) : ∃ t ts, v.tokens = t :: ts ∧ t ≠ .listClose := by
  match v with
  | .null => exact ⟨_, _, rfl, by simp⟩
  | .bool b => exact ⟨_, _, rfl, by simp⟩
  | .number n => exact ⟨_, _, rfl, by simp⟩
  | .str s => exact ⟨_, _, rfl, by simp⟩
  | .list [] => exact ⟨_, _, rfl, by simp⟩
  | .list (v :: vs) => exact ⟨.listOpen, v.tokens ++ Value.itemTokens vs, by simp [Value.tokens], by simp⟩
  | .object [] => exact ⟨_, _, rfl, by simp⟩
  | .object ((name, v) :: ms) =>
    exact ⟨.mapOpen, _, by simp only [Value.tokens, List.cons_append]; rfl, by simp⟩

/-- The first item of a list starts like any value. -/
theorem foldl_firstItem (v : Value) (fs : List Frame) :
    v.tokens.foldl step (.pending .firstItem fs) = v.tokens.foldl step (.pending .value fs) := by
  obtain ⟨t, ts, htokens, hopen⟩ := exists_tokens v
  have hstep : step (.pending .firstItem fs) t = step (.pending .value fs) t := by
    cases t <;> first | rfl | exact absurd rfl hopen
  rw [htokens, List.foldl_cons, List.foldl_cons, hstep]

/-- A member is put in front of those before it, once its name, its colon and its value are read. -/
theorem foldl_member {v : Value} (hv : ∀ fs,
    v.tokens.foldl step (.pending .value fs) = settle v.document fs) {place : Place}
    (hplace : place = .firstName ∨ place = .nextName) (name : String)
    (members : List (Option String × Document)) (open? : Option String) (fs : List Frame) :
    (.string (escaped name.toList) :: .colon :: v.tokens).foldl step
        (.pending place (.map members open? :: fs)) =
      .pending .separator (.map ((some name, v.document) :: members) none :: fs) := by
  have hname : step (.pending place (.map members open? :: fs)) (.string (escaped name.toList)) =
      .pending .colon (.map members (some name) :: fs) := by
    rcases hplace with rfl | rfl <;> simp only [step, startName, StringText.decode?_escaped]
  rw [List.foldl_cons, hname, List.foldl_cons]
  exact hv _

mutual

/-- The tokens of a value are put together to its document. -/
theorem foldl_tokens (v : Value) (fs : List Frame) :
    v.tokens.foldl step (.pending .value fs) = settle v.document fs := by
  match v with
  | .null => rfl
  | .bool b => rfl
  | .number n => rfl
  | .str s =>
    simp only [Value.tokens, List.foldl_cons, List.foldl_nil, step, start,
      StringText.decode?_escaped, Value.document]
  | .list [] => rfl
  | .list (v :: vs) =>
    have hopen : step (.pending .value fs) .listOpen = .pending .firstItem (.list [] :: fs) := rfl
    rw [Value.tokens, List.cons_append, List.foldl_cons, hopen, List.foldl_append, foldl_firstItem,
      foldl_tokens v]
    exact foldl_itemTokens vs [v.document] fs
  | .object [] => rfl
  | .object ((name, v) :: ms) =>
    have hopen : step (.pending .value fs) .mapOpen = .pending .firstName (.map [] none :: fs) := rfl
    rw [Value.tokens, List.cons_append, List.foldl_cons, hopen, List.foldl_append,
      foldl_member (foldl_tokens v) (Or.inl rfl)]
    exact foldl_memberTokens ms [(some name, v.document)] fs

/-- The rest of a list is put behind the items before it. -/
theorem foldl_itemTokens (vs : List Value) (items : List Document) (fs : List Frame) :
    (Value.itemTokens vs).foldl step (.pending .separator (.list items :: fs)) =
      settle (.list (items.reverse ++ Value.itemDocuments vs) .closed) fs := by
  match vs with
  | [] =>
    rw [Value.itemDocuments, List.append_nil]
    rfl
  | v :: vs =>
    have hcomma : step (.pending .separator (.list items :: fs)) .comma =
        .pending .value (.list items :: fs) := rfl
    rw [Value.itemTokens, List.cons_append, List.foldl_cons, hcomma, List.foldl_append,
      foldl_tokens v]
    refine (foldl_itemTokens vs (v.document :: items) fs).trans ?_
    rw [Value.itemDocuments, List.reverse_cons, List.append_assoc, List.singleton_append]

/-- The rest of an object is put behind the members before it. -/
theorem foldl_memberTokens (ms : List (String × Value))
    (members : List (Option String × Document)) (fs : List Frame) :
    (Value.memberTokens ms).foldl step (.pending .separator (.map members none :: fs)) =
      settle (.map (members.reverse ++ Value.memberDocuments ms) .closed) fs := by
  match ms with
  | [] =>
    rw [Value.memberDocuments, List.append_nil]
    rfl
  | (name, v) :: ms =>
    have hcomma : step (.pending .separator (.map members none :: fs)) .comma =
        .pending .nextName (.map members none :: fs) := rfl
    rw [Value.memberTokens, List.cons_append, List.foldl_cons, hcomma, List.foldl_append,
      foldl_member (foldl_tokens v) (Or.inr rfl), foldl_memberTokens ms]
    rw [Value.memberDocuments, List.reverse_cons, List.append_assoc, List.singleton_append]

end

/-- A written value is read as its document, and nothing follows it. -/
theorem assemble_render (v : Value) : assemble (Utf8.encode v.render) = (v.document, false) := by
  rw [assemble, tokens_render, foldl_tokens]
  rfl

/-- What is decoded from a written value is read from its document. -/
theorem decode_render {α : Type} (read : Document.Reader α) (v : Value) :
    decode read (Utf8.encode v.render) = read v.document := by
  rw [decode, assemble_render]
  cases hread : read v.document <;> simp [hread, bind, Except.bind, pure, Except.pure]

theorem itemDocuments_eq_map (vs : List Value) :
    Value.itemDocuments vs = vs.map Value.document := by
  induction vs with
  | nil => rfl
  | cons v vs ih => rw [Value.itemDocuments, ih, List.map_cons]

/-! ## Lists -/

theorem itemChars_eq (vs : List Value) :
    Value.itemChars vs = (vs.map Value.chars).flatMap (fun cs => ',' :: cs) ++ [']'] := by
  induction vs with
  | nil => rfl
  | cons v vs ih =>
    rw [Value.itemChars, ih, List.map_cons, List.flatMap_cons, List.append_assoc]

theorem intercalate_cons (s : Char) (cs : List Char) (css : List (List Char)) :
    [s].intercalate (cs :: css) = cs ++ css.flatMap fun ds => s :: ds := by
  induction css generalizing cs with
  | nil => simp
  | cons ds css ih =>
    rw [List.intercalate_cons_cons, ih, List.flatMap_cons, List.cons_append, List.append_assoc,
      List.singleton_append]

/-- The text of a list is that of its items, with commas in between. -/
theorem chars_list (vs : List Value) :
    (Value.list vs).chars = '[' :: [','].intercalate (vs.map Value.chars) ++ [']'] := by
  cases vs with
  | nil => rfl
  | cons v vs =>
    rw [Value.chars, itemChars_eq, List.map_cons, intercalate_cons]
    simp

/-! ## Control characters -/

/-- Whether none of the characters is a control character of ASCII, a line end among them. -/
def Uncontrolled (cs : List Char) : Prop := ∀ c ∈ cs, 32 ≤ c.toNat

instance (cs : List Char) : Decidable (Uncontrolled cs) :=
  List.decidableBAll (fun c : Char => 32 ≤ c.toNat) cs

theorem uncontrolled_append {cs ds : List Char} :
    Uncontrolled (cs ++ ds) ↔ Uncontrolled cs ∧ Uncontrolled ds := List.forall_mem_append

theorem uncontrolled_cons {c : Char} {cs : List Char} :
    Uncontrolled (c :: cs) ↔ 32 ≤ c.toNat ∧ Uncontrolled cs := List.forall_mem_cons

theorem uncontrolled_escape (c : Char) : Uncontrolled (escape c) := by
  unfold escape
  split
  · decide
  split
  · decide
  split
  · decide
  split
  · decide
  split
  · decide
  split
  · decide
  split
  · decide
  have hhex : ∀ n : Nat, n < 16 → 32 ≤ (hexDigit n).toNat := by decide
  split
  · rename_i hcontrol
    intro d hd
    simp only [List.mem_cons, List.not_mem_nil, or_false] at hd
    rcases hd with rfl | rfl | rfl | rfl | rfl | rfl
    · decide
    · decide
    · decide
    · decide
    · exact hhex _ (by omega)
    · exact hhex _ (by omega)
  · rename_i hcontrol
    intro d hd
    exact List.mem_singleton.mp hd ▸ Nat.not_lt.mp hcontrol

theorem uncontrolled_quote (s : String) : Uncontrolled (quote s) := by
  rw [quote, List.cons_append, uncontrolled_cons, uncontrolled_append]
  refine ⟨by decide, fun d hd => ?_, by decide⟩
  obtain ⟨c, -, hd⟩ := List.mem_flatMap.mp hd
  exact uncontrolled_escape c d hd

mutual

/-- A written value stands on one line. -/
theorem uncontrolled_chars (v : Value) : Uncontrolled v.chars := by
  match v with
  | .null => decide
  | .bool true => decide
  | .bool false => decide
  | .number n =>
    intro c hc
    have hdigit : c.isDigit = true := Nat.isDigit_of_mem_toDigits (by omega) (by omega) hc
    exact Nat.le_trans (by decide) (Number.toNat_of_isDigit hdigit).1
  | .str s => exact uncontrolled_quote s
  | .list [] => decide
  | .list (v :: vs) =>
    rw [Value.chars, List.cons_append, uncontrolled_cons, uncontrolled_append]
    exact ⟨by decide, uncontrolled_chars v, uncontrolled_itemChars vs⟩
  | .object [] => decide
  | .object ((name, v) :: ms) =>
    simp only [Value.chars, List.cons_append, uncontrolled_cons, uncontrolled_append]
    exact ⟨by decide, ⟨uncontrolled_quote name, by decide, uncontrolled_chars v⟩,
      uncontrolled_memberChars ms⟩

theorem uncontrolled_itemChars (vs : List Value) : Uncontrolled (Value.itemChars vs) := by
  match vs with
  | [] => decide
  | v :: vs =>
    rw [Value.itemChars, List.cons_append, uncontrolled_cons, uncontrolled_append]
    exact ⟨by decide, uncontrolled_chars v, uncontrolled_itemChars vs⟩

theorem uncontrolled_memberChars (ms : List (String × Value)) :
    Uncontrolled (Value.memberChars ms) := by
  match ms with
  | [] => decide
  | (name, v) :: ms =>
    simp only [Value.memberChars, List.cons_append, uncontrolled_cons, uncontrolled_append]
    exact ⟨by decide, ⟨uncontrolled_quote name, by decide, uncontrolled_chars v⟩,
      uncontrolled_memberChars ms⟩

end

end BroadcastRelay.Json
