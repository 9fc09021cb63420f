import BroadcastRelay.Http.Header
/-!
# The bytes of a text

The bytes of a text are those of its characters, one after the other (`encode_eq_flatMap`). A
character of ASCII is one byte, its code point; all bytes of any other character are 128 or more. So
what is ASCII in the bytes of a text is ASCII in the text (`mem_encode_iff`), and a text of printable
ASCII is the value of a header field and is read back from it (`text?_encode`).
-/

namespace BroadcastRelay

namespace Utf8

/-! ## Character by character -/

theorem encode_eq_flatMap (s : String) : encode s = s.toList.flatMap String.utf8EncodeChar := by
  have htext : s.toByteArray = (s.toList.flatMap String.utf8EncodeChar).toByteArray :=
    s.utf8Encode_toList.symm
  rw [encode, htext, List.toList_data_toByteArray]

theorem encode_append (s t : String) : encode (s ++ t) = encode s ++ encode t := by
  simp only [encode_eq_flatMap, String.toList_append, List.flatMap_append]

/-! ## ASCII -/

theorem utf8EncodeChar_of_lt {c : Char} (h : c.toNat < 128) :
    String.utf8EncodeChar c = [UInt8.ofNat c.toNat] := by
  have hle : c.val.toNat ≤ 127 := Nat.le_of_lt_succ h
  rw [String.utf8EncodeChar, if_pos hle]
  rfl

/-- A byte that carries the last bits of a number above a mark. -/
theorem le_toNat_ofNat {k m : Nat} (hm : 128 ≤ m) (hk : 0 < k) (hkm : k + m ≤ 256) (n : Nat) :
    128 ≤ (UInt8.ofNat (n % k + m)).toNat := by
  have hmod : n % k < k := Nat.mod_lt n hk
  rw [UInt8.toNat_ofNat']
  omega

/-- No byte of a character beyond ASCII is one of ASCII. -/
theorem le_of_mem_utf8EncodeChar {c : Char} (h : 128 ≤ c.toNat) {b : UInt8}
    (hb : b ∈ String.utf8EncodeChar c) : 128 ≤ b.toNat := by
  have hbig : ¬ c.val.toNat ≤ 127 := Nat.not_le.mpr h
  have hfollow := @le_toNat_ofNat 64 128 (by omega) (by omega) (by omega)
  rw [String.utf8EncodeChar, if_neg hbig] at hb
  split at hb
  · rcases List.mem_cons.mp hb with rfl | hb
    · exact le_toNat_ofNat (by omega) (by omega) (by omega) _
    · exact List.mem_singleton.mp hb ▸ hfollow _
  · split at hb
    · simp only [List.mem_cons, List.not_mem_nil, or_false] at hb
      rcases hb with rfl | rfl | rfl
      · exact le_toNat_ofNat (by omega) (by omega) (by omega) _
      · exact hfollow _
      · exact hfollow _
    · simp only [List.mem_cons, List.not_mem_nil, or_false] at hb
      rcases hb with rfl | rfl | rfl | rfl
      · exact le_toNat_ofNat (by omega) (by omega) (by omega) _
      · exact hfollow _
      · exact hfollow _
      · exact hfollow _

theorem ofNat_toNat_inj {c d : Char} (hc : c.toNat < 128) (hd : d.toNat < 128)
    (h : UInt8.ofNat c.toNat = UInt8.ofNat d.toNat) : c = d := by
  have hvalue := congrArg UInt8.toNat h
  rw [UInt8.toNat_ofNat', UInt8.toNat_ofNat', Nat.mod_eq_of_lt (by omega),
    Nat.mod_eq_of_lt (by omega)] at hvalue
  exact Char.toNat_inj.mp hvalue

/-- What is ASCII in the bytes of a text is ASCII in the text. -/
theorem mem_encode_iff {s : String} {c : Char} (hc : c.toNat < 128) :
    UInt8.ofNat c.toNat ∈ encode s ↔ c ∈ s.toList := by
  rw [encode_eq_flatMap, List.mem_flatMap]
  constructor
  · rintro ⟨d, hd, hmem⟩
    by_cases hascii : d.toNat < 128
    · rw [utf8EncodeChar_of_lt hascii, List.mem_singleton] at hmem
      exact ofNat_toNat_inj hc hascii hmem ▸ hd
    · have hle := le_of_mem_utf8EncodeChar (Nat.not_lt.mp hascii) hmem
      rw [UInt8.toNat_ofNat'] at hle
      omega
  · intro h
    exact ⟨c, h, by rw [utf8EncodeChar_of_lt hc, List.mem_singleton]⟩

theorem encode_of_ascii {s : String} (h : ∀ c ∈ s.toList, c.toNat < 128) :
    encode s = s.toList.map fun c => UInt8.ofNat c.toNat := by
  have hchars : s.toList.map String.utf8EncodeChar = s.toList.map fun c => [UInt8.ofNat c.toNat] :=
    List.map_congr_left fun c hc => utf8EncodeChar_of_lt (h c hc)
  rw [encode_eq_flatMap, List.flatMap_def, hchars, ← List.flatMap_def, List.map_eq_flatMap]

end Utf8

namespace Http

/-- Whether the character is printable ASCII. -/
def isPrintable (c : Char) : Bool := 32 ≤ c.toNat && c.toNat < 127

variable {s : String}

theorem encode_of_printable (h : ∀ c ∈ s.toList, isPrintable c = true) :
    Utf8.encode s = s.toList.map fun c => UInt8.ofNat c.toNat := by
  refine Utf8.encode_of_ascii fun c hc => ?_
  have hprintable := h c hc
  simp only [isPrintable, Bool.and_eq_true, decide_eq_true_eq] at hprintable
  omega

theorem isTextByte_of_printable {c : Char} (h : isPrintable c = true) :
    isTextByte (UInt8.ofNat c.toNat) = true := by
  simp only [isPrintable, Bool.and_eq_true, decide_eq_true_eq] at h
  have hvalue : (UInt8.ofNat c.toNat).toNat = c.toNat := by
    rw [UInt8.toNat_ofNat']
    omega
  simp only [isTextByte, Bool.or_eq_true, Bool.and_eq_true, decide_eq_true_eq,
    UInt8.le_iff_toNat_le, UInt8.lt_iff_toNat_lt, hvalue]
  exact Or.inr h

/-- Printable ASCII may be the value of a header field, -/
theorem isValue_encode (h : ∀ c ∈ s.toList, isPrintable c = true) :
    isValue (Utf8.encode s) = true := by
  rw [encode_of_printable h, isValue, List.all_map, List.all_eq_true]
  intro c hc
  have htext := isTextByte_of_printable (h c hc)
  simp only [isTextByte, isValueByte, Function.comp, Bool.or_eq_true, Bool.and_eq_true,
    decide_eq_true_eq] at htext ⊢
  refine htext.imp_right fun hbyte => ⟨hbyte.1, ?_⟩
  rw [bne_iff_ne]
  rintro heq
  exact absurd (heq ▸ hbyte.2) (by decide)

/-- and it is read back from there. -/
theorem text?_encode (h : ∀ c ∈ s.toList, isPrintable c = true) :
    text? (Utf8.encode s) = some s := by
  have hall : (Utf8.encode s).all isTextByte = true := by
    rw [encode_of_printable h, List.all_map, List.all_eq_true]
    exact fun c hc => isTextByte_of_printable (h c hc)
  have hback : (Utf8.encode s).map (fun b => Char.ofNat b.toNat) = s.toList := by
    rw [encode_of_printable h, List.map_map]
    refine (List.map_congr_left fun c hc => ?_).trans (List.map_id _)
    have hprintable := h c hc
    simp only [isPrintable, Bool.and_eq_true, decide_eq_true_eq] at hprintable
    rw [Function.comp, UInt8.toNat_ofNat', Nat.mod_eq_of_lt (by omega), Char.ofNat_toNat, id]
  rw [text?, if_pos hall, hback, String.ofList_toList]

end Http

end BroadcastRelay
