import BroadcastRelay.Proofs.Publishing
import BroadcastRelay.Proofs.Utf8
/-!
# The grammar of bearer tokens

What a publisher and a viewer present is given by a grammar on the bytes of the first
`Authorization` field: `Bearer`, a space, a stream key, and for a publisher a semicolon and a token.
All bytes are visible ASCII, spaces or tabs (`Legible`).

The readers cut the text of the field at its semicolons. There are two pieces exactly if there is
one semicolon (`split_eq_pair_iff`), and the first piece is what stands before the first semicolon
(`head?_split_eq_some_iff`); text and bytes of a legible value determine each other
(`text?_eq_some_iff`). So the readers accept exactly the grammar, and they refuse everything else in
one of two ways, depending on whether there is something to read (`readsBearer`).
-/

namespace BroadcastRelay

/-! ## Pieces -/

section Pieces

variable {α : Type} [DecidableEq α] {s : α} {xs a b : List α}

theorem not_mem_of_mem_split {piece : List α} (h : piece ∈ split (· == s) xs) : s ∉ piece := by
  intro hs
  have hne : (s == s) = false := (mem_of_mem_split h hs).2
  exact absurd hne (by simp)

theorem split_of_not_mem (h : s ∉ xs) : split (· == s) xs = [xs] :=
  split_of_forall_not fun _ hx => beq_eq_false_iff_ne.mpr fun heq => h (heq ▸ hx)

theorem split_append_sep (xs ys : List α) :
    split (· == s) (xs ++ s :: ys) = split (· == s) xs ++ split (· == s) ys := by
  refine split_append_cons ?_ xs ys
  exact beq_self_eq_true s

/-- There are two pieces if there is one separator. -/
theorem split_eq_pair_iff : split (· == s) xs = [a, b] ↔ xs = a ++ s :: b ∧ s ∉ a ∧ s ∉ b := by
  constructor
  · intro h
    have hxs := Gateway.intercalate_split s xs
    have hpieces : ∀ piece ∈ split (· == s) xs, s ∉ piece := fun _ => not_mem_of_mem_split
    rw [h] at hxs hpieces
    exact ⟨by simpa using hxs.symm, hpieces a (by simp), hpieces b (by simp)⟩
  · rintro ⟨rfl, ha, hb⟩
    rw [split_append_sep, split_of_not_mem ha, split_of_not_mem hb]
    rfl

/-- The first piece is what stands before the first separator. -/
theorem head?_split_eq_some_iff : (split (· == s) xs).head? = some a ↔
    s ∉ a ∧ (xs = a ∨ ∃ more, xs = a ++ s :: more) := by
  constructor
  · intro h
    obtain ⟨ps, hps⟩ := List.head?_eq_some_iff.mp h
    refine ⟨not_mem_of_mem_split (hps ▸ List.mem_cons_self), ?_⟩
    have hxs := Gateway.intercalate_split s xs
    rw [hps] at hxs
    cases ps with
    | nil => exact Or.inl (by simpa using hxs.symm)
    | cons q qs =>
      rw [List.intercalate_cons_cons] at hxs
      exact Or.inr ⟨_, by simpa using hxs.symm⟩
  · rintro ⟨ha, rfl | ⟨more, rfl⟩⟩
    · rw [split_of_not_mem ha]
      rfl
    · rw [split_append_sep, split_of_not_mem ha]
      rfl

end Pieces

/-! ## Text and bytes -/

theorem Utf8.encode_injective : Function.Injective Utf8.encode := by
  intro s t h
  have hdecode := Utf8.decode?_encode s
  rw [h, Utf8.decode?_encode] at hdecode
  exact (Option.some.inj hdecode).symm

namespace Http

variable {value : Bytes}

/-- All bytes are visible ASCII, spaces or tabs. -/
def Legible (value : Bytes) : Prop := ∀ b ∈ value, b.toNat = 9 ∨ 32 ≤ b.toNat ∧ b.toNat ≤ 126

theorem all_isTextByte_iff : value.all isTextByte = true ↔ Legible value := by
  rw [List.all_eq_true]
  refine forall₂_congr fun b _ => ?_
  simp only [isTextByte, Bool.or_eq_true, Bool.and_eq_true, decide_eq_true_eq, beq_iff_eq,
    UInt8.le_iff_toNat_le, UInt8.lt_iff_toNat_lt, ← UInt8.toNat_inj]
  exact or_congr_right (and_congr_right fun _ => Nat.lt_succ_iff)

theorem toNat_ofNat_of_lt {n : Nat} (h : n < 128) : (Char.ofNat n).toNat = n := by
  have hvalid : n.isValidChar := Or.inl (by omega)
  rw [Char.ofNat, dif_pos hvalid]
  rfl

/-- A legible value is the bytes of its text. -/
theorem Legible.encode_text (h : Legible value) :
    Utf8.encode (String.ofList (value.map fun b => Char.ofNat b.toNat)) = value := by
  have hascii : ∀ b ∈ value, (Char.ofNat b.toNat).toNat = b.toNat := by
    intro b hb
    refine toNat_ofNat_of_lt ?_
    have := h b hb
    omega
  rw [Utf8.encode_of_ascii, String.toList_ofList, List.map_map]
  · refine (List.map_congr_left fun b hb => ?_).trans (List.map_id value)
    rw [Function.comp, hascii b hb, UInt8.ofNat_toNat, id]
  · intro c hc
    rw [String.toList_ofList] at hc
    obtain ⟨b, hb, rfl⟩ := List.mem_map.mp hc
    have := h b hb
    rw [hascii b hb]
    omega

theorem text?_eq_some_iff {s : String} :
    text? value = some s ↔ Legible value ∧ value = Utf8.encode s := by
  unfold text?
  split
  · rename_i hall
    have hlegible := all_isTextByte_iff.mp hall
    rw [Option.some_inj, and_iff_right hlegible]
    constructor
    · rintro rfl
      exact hlegible.encode_text.symm
    · intro h
      exact Utf8.encode_injective (hlegible.encode_text.trans h)
  · rename_i hall
    exact iff_of_false (Option.some_ne_none s).symm fun h => hall (all_isTextByte_iff.mpr h.1)

end Http

open Http

variable {values : List Bytes}

/-! ## The first field -/

/-- There is no field, or the first one is empty. -/
def Missing (values : List Bytes) : Prop := values = [] ∨ values.head? = some []

/-- The text of the first field, or one of two ways to refuse it. -/
theorem authorization_cases (values : List Bytes) :
    (Missing values ∧ authorization values = .error .authMissing) ∨
      ¬ Missing values ∧
        ((∃ reason, authorization values = .error (.authMalformed reason)) ∧
            (∀ text rest, values = Utf8.encode text :: rest → ¬ Legible (Utf8.encode text)) ∨
          ∃ text rest, authorization values = .ok text ∧ values = Utf8.encode text :: rest ∧
            Legible (Utf8.encode text)) := by
  cases values with
  | nil => exact Or.inl ⟨Or.inl rfl, rfl⟩
  | cons value rest =>
    have hempty : value = [] ↔ text? value = some "" := by
      rw [text?_eq_some_iff]
      exact ⟨fun h => h ▸ ⟨fun b hb => absurd hb List.not_mem_nil, rfl⟩, fun h => h.2⟩
    have hmissing : Missing (value :: rest) ↔ text? value = some "" := by
      simp [Missing, hempty]
    rw [hmissing, authorization]
    cases htext : text? value with
    | none =>
      refine Or.inr ⟨(Option.some_ne_none _).symm, Or.inl ⟨⟨_, rfl⟩, ?_⟩⟩
      intro text rest' hvalues hlegible
      obtain ⟨rfl, rfl⟩ := List.cons.inj hvalues
      have hsome := text?_eq_some_iff.mpr ⟨hlegible, rfl⟩
      exact Option.some_ne_none _ (hsome.symm.trans htext)
    | some text =>
      by_cases hne : text = ""
      · exact Or.inl ⟨congrArg some hne, if_pos hne⟩
      · obtain ⟨hlegible, rfl⟩ := text?_eq_some_iff.mp htext
        exact Or.inr ⟨fun h => hne (Option.some.inj h),
          Or.inr ⟨text, rest, if_neg hne, rfl, hlegible⟩⟩

/-- The first field is legible: it is `Bearer`, a space and the token. -/
def Bears (values : List Bytes) (token : String) : Prop :=
  ∃ rest, values = Utf8.encode ("Bearer " ++ token) :: rest ∧
    Legible (Utf8.encode ("Bearer " ++ token))

theorem Bears.not_missing {token : String} (h : Bears values token) : ¬ Missing values := by
  obtain ⟨rest, rfl, -⟩ := h
  simp [Missing, Utf8.encode_append, show Utf8.encode "Bearer " ≠ [] by decide]

theorem Bears.unique {token token' : String} (h : Bears values token) (h' : Bears values token') :
    token = token' := by
  obtain ⟨rest, rfl, -⟩ := h
  obtain ⟨rest', heq, -⟩ := h'
  have htext := Utf8.encode_injective (List.cons.inj heq).1
  simpa [← String.toList_inj] using htext

/-- The pieces of a token between its semicolons. -/
def tokenParts (token : String) : List String :=
  (split (· == ';') token.toList).map String.ofList

theorem bearerParts?_eq_some_iff {text : String} {parts : List String} :
    bearerParts? text = some parts ↔
      ∃ token, text = "Bearer " ++ token ∧ parts = tokenParts token := by
  unfold bearerParts?
  rw [Option.map_eq_some_iff]
  constructor
  · rintro ⟨token, htoken, rfl⟩
    have htext := dropStart?_eq_some_iff.mp htoken
    refine ⟨String.ofList token, String.toList_inj.mp ?_, by simp [tokenParts]⟩
    simp [htext]
  · rintro ⟨token, rfl, rfl⟩
    exact ⟨token.toList, dropStart?_eq_some_iff.mpr String.toList_append, rfl⟩

/-- The token of the first field in its pieces, or one of two ways to refuse the field. -/
theorem bearerToken_cases (values : List Bytes) :
    (Missing values ∧ bearerToken values = .error .authMissing) ∨
      (¬ Missing values ∧ (∀ token, ¬ Bears values token) ∧
        ∃ reason, bearerToken values = .error (.authMalformed reason)) ∨
      ∃ token, Bears values token ∧ bearerToken values = .ok (tokenParts token) := by
  unfold bearerToken
  rcases authorization_cases values with
    ⟨hmissing, h⟩ | ⟨hmissing, ⟨⟨reason, h⟩, hillegible⟩ | ⟨text, rest, h, hvalues, hlegible⟩⟩
  · exact Or.inl ⟨hmissing, by rw [h]; rfl⟩
  · refine Or.inr (Or.inl ⟨hmissing, ?_, reason, by rw [h]; rfl⟩)
    rintro token ⟨rest, hvalues, hlegible⟩
    exact hillegible _ rest hvalues hlegible
  · rw [h]
    simp only [bind, Except.bind]
    cases hparts : bearerParts? text with
    | none =>
      refine Or.inr (Or.inl ⟨hmissing, ?_, _, rfl⟩)
      rintro token ⟨rest', hvalues', -⟩
      have htext := Utf8.encode_injective (List.cons.inj (hvalues.symm.trans hvalues')).1
      have hsome := bearerParts?_eq_some_iff.mpr ⟨token, htext, rfl⟩
      exact Option.some_ne_none _ (hsome.symm.trans hparts)
    | some parts =>
      obtain ⟨token, rfl, rfl⟩ := bearerParts?_eq_some_iff.mp hparts
      exact Or.inr (Or.inr ⟨token, ⟨rest, hvalues, hlegible⟩, rfl⟩)

/-- A reader of the pieces reads those of the token. -/
theorem bearerToken_bind_eq_ok_iff {β : Type} {read : List String → Except ApiError β} {b : β} :
    (bearerToken values >>= read) = .ok b ↔
      ∃ token, Bears values token ∧ read (tokenParts token) = .ok b := by
  rcases bearerToken_cases values with
    ⟨hmissing, h⟩ | ⟨-, hnot, reason, h⟩ | ⟨token, hbears, h⟩ <;> rw [h]
  · exact iff_of_false (by rintro ⟨⟩) fun ⟨_, hbears, _⟩ => hbears.not_missing hmissing
  · exact iff_of_false (by rintro ⟨⟩) fun ⟨token, hbears, _⟩ => hnot token hbears
  · refine ⟨fun h => ⟨token, hbears, h⟩, fun ⟨token', hbears', h⟩ => ?_⟩
    rw [hbears.unique hbears']
    exact h

/-- A reader of the pieces refuses what is missing as missing, and everything else as malformed. -/
theorem bearerToken_bind_eq_error {β : Type} {read : List String → Except ApiError β}
    (hread : ∀ parts e, read parts = .error e → ∃ reason, e = .authMalformed reason)
    (values : List Bytes) :
    ((bearerToken values >>= read) = .error .authMissing ↔ Missing values) ∧
      ∀ e, (bearerToken values >>= read) = .error e → ¬ Missing values →
        ∃ reason, e = .authMalformed reason := by
  rcases bearerToken_cases values with
    ⟨hmissing, h⟩ | ⟨hmissing, -, reason, h⟩ | ⟨token, hbears, h⟩ <;> rw [h]
  · exact ⟨iff_of_true rfl hmissing, fun e _ hnot => absurd hmissing hnot⟩
  · refine ⟨iff_of_false (fun heq => ?_) hmissing, fun e heq _ => ?_⟩
    · exact ApiError.noConfusion (Except.error.inj heq)
    · exact ⟨reason, (Except.error.inj heq).symm⟩
  · refine ⟨iff_of_false (fun heq => ?_) hbears.not_missing, fun e heq _ => hread _ e heq⟩
    obtain ⟨reason, hreason⟩ := hread _ _ heq
    exact ApiError.noConfusion hreason

/-! ## The two readers -/

theorem semicolon_not_mem {key : String} (h : StreamKey.isValid key = true) : ';' ∉ key.toList :=
  fun hmem => absurd ((StreamKey.isValid_iff.mp h).2 ';' hmem) (by decide)

theorem tokenParts_eq_pair_iff {token key secret : String} :
    tokenParts token = [key, secret] ↔
      token = key ++ ";" ++ secret ∧ ';' ∉ key.toList ∧ ';' ∉ secret.toList := by
  have hparts : tokenParts token = [key, secret] ↔
      split (· == ';') token.toList = [key.toList, secret.toList] := by
    rw [← List.map_inj_right fun _ _ h => String.ofList_injective h]
    simp [tokenParts]
  rw [hparts, split_eq_pair_iff, ← String.toList_inj]
  simp

/-- What stands before the first semicolon. -/
theorem headD_tokenParts_eq_iff {token key : String} : (tokenParts token).headD "" = key ↔
    ';' ∉ key.toList ∧ (token = key ∨ ∃ more, token = key ++ ";" ++ more) := by
  obtain ⟨first, later, hparts⟩ := List.exists_cons_of_ne_nil (split_ne_nil (· == ';') token.toList)
  have hhead : (split (· == ';') token.toList).head? = some key.toList ↔ _ :=
    head?_split_eq_some_iff
  rw [hparts, List.head?_cons, Option.some_inj] at hhead
  rw [tokenParts, hparts, List.map_cons, List.headD_cons, ← String.toList_inj,
    String.toList_ofList, hhead, ← String.toList_inj]
  refine and_congr_right fun _ => or_congr_right ?_
  constructor
  · rintro ⟨more, hmore⟩
    exact ⟨String.ofList more, String.toList_inj.mp (by simpa using hmore)⟩
  · rintro ⟨more, rfl⟩
    exact ⟨more.toList, by simp⟩

theorem PublishToken.read_eq_ok_iff {key secret : String} :
    PublishToken.read values = .ok ⟨key, secret⟩ ↔
      Bears values (key ++ ";" ++ secret) ∧ StreamKey.isValid key = true ∧
        ';' ∉ secret.toList := by
  unfold PublishToken.read
  rw [bearerToken_bind_eq_ok_iff]
  constructor
  · rintro ⟨token, hbears, hread⟩
    split at hread
    · rename_i key' secret' hparts
      obtain ⟨rfl, -, hsecret⟩ := tokenParts_eq_pair_iff.mp hparts
      split at hread
      · rename_i hvalid
        obtain ⟨rfl, rfl⟩ := PublishToken.mk.inj (Except.ok.inj hread)
        exact ⟨hbears, hvalid, hsecret⟩
      · cases hread
    · cases hread
  · rintro ⟨hbears, hvalid, hsecret⟩
    refine ⟨_, hbears, ?_⟩
    rw [tokenParts_eq_pair_iff.mpr ⟨rfl, semicolon_not_mem hvalid, hsecret⟩]
    simp only [hvalid, if_true]
    rfl

theorem readViewKey_eq_ok_iff {key : String} : readViewKey values = .ok key ↔
    StreamKey.isValid key = true ∧
      (Bears values key ∨ ∃ more, Bears values (key ++ ";" ++ more)) := by
  unfold readViewKey
  rw [bearerToken_bind_eq_ok_iff]
  constructor
  · rintro ⟨token, hbears, hread⟩
    dsimp only at hread
    split at hread
    · rename_i hvalid
      have hkey := Except.ok.inj hread
      rw [hkey] at hvalid
      rcases (headD_tokenParts_eq_iff.mp hkey).2 with rfl | ⟨more, rfl⟩
      · exact ⟨hvalid, Or.inl hbears⟩
      · exact ⟨hvalid, Or.inr ⟨more, hbears⟩⟩
    · cases hread
  · rintro ⟨hvalid, hbears⟩
    obtain ⟨token, hbears, htoken⟩ : ∃ token, Bears values token ∧
        (token = key ∨ ∃ more, token = key ++ ";" ++ more) := by
      rcases hbears with hbears | ⟨more, hbears⟩
      · exact ⟨_, hbears, Or.inl rfl⟩
      · exact ⟨_, hbears, Or.inr ⟨more, rfl⟩⟩
    refine ⟨token, hbears, ?_⟩
    rw [headD_tokenParts_eq_iff.mpr ⟨semicolon_not_mem hvalid, htoken⟩]
    simp only [hvalid, if_true]
    rfl

theorem PublishToken.read_eq_error (values : List Bytes) :
    (PublishToken.read values = .error .authMissing ↔ Missing values) ∧
      ∀ e, PublishToken.read values = .error e → ¬ Missing values →
        ∃ reason, e = .authMalformed reason := by
  refine bearerToken_bind_eq_error (fun parts e h => ?_) values
  split at h
  · split at h
    · cases h
    · exact ⟨_, (Except.error.inj h).symm⟩
  · exact ⟨_, (Except.error.inj h).symm⟩

theorem readViewKey_eq_error (values : List Bytes) :
    (readViewKey values = .error .authMissing ↔ Missing values) ∧
      ∀ e, readViewKey values = .error e → ¬ Missing values →
        ∃ reason, e = .authMalformed reason := by
  refine bearerToken_bind_eq_error (fun parts e h => ?_) values
  dsimp only at h
  split at h
  · cases h
  · exact ⟨_, (Except.error.inj h).symm⟩

/-! ## The grammar -/

/-- The bytes of `Bearer` and a space. -/
def scheme : Bytes := [66, 101, 97, 114, 101, 114, 32]

/-- The text is not empty and has only letters, digits and four marks. -/
def IsKeyText (key : String) : Prop :=
  key ≠ "" ∧ ∀ c ∈ key.toList, c.isAlphanum = true ∨ c ∈ ['_', '-', '.', '~']

theorem isValid_iff_isKeyText {key : String} : StreamKey.isValid key = true ↔ IsKeyText key := by
  simp [StreamKey.isValid_iff, IsKeyText, StreamKey.isKeyChar, or_assoc]

/-- What the readers make of the `Authorization` fields of a request. -/
structure ReadsBearer (values : List Bytes) : Prop where
  /-- Only the first field counts. -/
  first : PublishToken.read values = PublishToken.read values.head?.toList ∧
    readViewKey values = readViewKey values.head?.toList
  /-- A publisher presents a key and a token, with a semicolon in between and none in the token. -/
  publish_iff : ∀ key secret, PublishToken.read values = .ok ⟨key, secret⟩ ↔
    ∃ value rest, values = value :: rest ∧ Legible value ∧
      value = scheme ++ Utf8.encode key ++ 59 :: Utf8.encode secret ∧
      IsKeyText key ∧ 59 ∉ Utf8.encode secret
  /-- A viewer presents a key, and anything after a semicolon. -/
  view_iff : ∀ key, readViewKey values = .ok key ↔
    ∃ value rest, values = value :: rest ∧ Legible value ∧ IsKeyText key ∧
      (value = scheme ++ Utf8.encode key ∨ ∃ more, value = scheme ++ Utf8.encode key ++ 59 :: more)
  /-- Where there is nothing to read, it is missing for both. -/
  missing_iff : (PublishToken.read values = .error .authMissing ↔ Missing values) ∧
    (readViewKey values = .error .authMissing ↔ Missing values)
  /-- Everything else that is refused is malformed. -/
  malformed : ∀ e, (PublishToken.read values = .error e ∨ readViewKey values = .error e) →
    ¬ Missing values → ∃ reason, e = .authMalformed reason
  /-- Who may publish under a key may view it. -/
  view_of_publish : ∀ key secret, PublishToken.read values = .ok ⟨key, secret⟩ →
    readViewKey values = .ok key

theorem encode_bearer (token : String) :
    Utf8.encode ("Bearer " ++ token) = scheme ++ Utf8.encode token := by
  have hscheme : Utf8.encode "Bearer " = scheme := by decide
  rw [Utf8.encode_append, hscheme]

theorem encode_append_semicolon (key more : String) :
    Utf8.encode (key ++ ";" ++ more) = Utf8.encode key ++ 59 :: Utf8.encode more := by
  have hsemicolon : Utf8.encode ";" = [59] := by decide
  rw [Utf8.encode_append, Utf8.encode_append, hsemicolon, List.append_assoc, List.singleton_append]

/-- The readers accept exactly the grammar and tell apart what is missing from what is malformed. -/
theorem readsBearer (values : List Bytes) : ReadsBearer values where
  first := by
    cases values <;> exact ⟨rfl, rfl⟩
  publish_iff key secret := by
    have hsecret : ';' ∉ secret.toList ↔ 59 ∉ Utf8.encode secret :=
      (not_congr (Utf8.mem_encode_iff (c := ';') (by decide))).symm
    rw [PublishToken.read_eq_ok_iff, isValid_iff_isKeyText, hsecret]
    constructor
    · rintro ⟨⟨rest, hvalues, hlegible⟩, hgrammar⟩
      refine ⟨_, rest, hvalues, hlegible, ?_, hgrammar⟩
      rw [encode_bearer, encode_append_semicolon, List.append_assoc]
    · rintro ⟨value, rest, rfl, hlegible, rfl, hgrammar⟩
      rw [List.append_assoc, ← encode_append_semicolon, ← encode_bearer] at hlegible ⊢
      exact ⟨⟨rest, rfl, hlegible⟩, hgrammar⟩
  view_iff key := by
    rw [readViewKey_eq_ok_iff, isValid_iff_isKeyText]
    constructor
    · rintro ⟨hkey, ⟨rest, hvalues, hlegible⟩ | ⟨more, rest, hvalues, hlegible⟩⟩
      · exact ⟨_, rest, hvalues, hlegible, hkey, Or.inl (encode_bearer key)⟩
      · refine ⟨_, rest, hvalues, hlegible, hkey, Or.inr ⟨Utf8.encode more, ?_⟩⟩
        rw [encode_bearer, encode_append_semicolon, List.append_assoc]
    · rintro ⟨value, rest, rfl, hlegible, hkey, rfl | ⟨more, rfl⟩⟩
      · rw [← encode_bearer] at hlegible ⊢
        exact ⟨hkey, Or.inl ⟨rest, rfl, hlegible⟩⟩
      · have hmore : Legible more := fun b hb =>
          hlegible b (List.mem_append_right _ (List.mem_cons_of_mem _ hb))
        rw [← hmore.encode_text] at hlegible ⊢
        rw [List.append_assoc, ← encode_append_semicolon, ← encode_bearer] at hlegible ⊢
        exact ⟨hkey, Or.inr ⟨_, rest, rfl, hlegible⟩⟩
  missing_iff := ⟨(PublishToken.read_eq_error values).1, (readViewKey_eq_error values).1⟩
  malformed e h hnot := h.elim
    (fun h => (PublishToken.read_eq_error values).2 e h hnot)
    (fun h => (readViewKey_eq_error values).2 e h hnot)
  view_of_publish key secret h := by
    obtain ⟨hbears, hvalid, -⟩ := PublishToken.read_eq_ok_iff.mp h
    exact readViewKey_eq_ok_iff.mpr ⟨hvalid, Or.inr ⟨secret, hbears⟩⟩

/-- The token may be empty, and may have spaces and tabs. -/
example : PublishToken.read [Utf8.encode "Bearer live;", []] = .ok ⟨"live", ""⟩ ∧
    PublishToken.read [Utf8.encode "Bearer live; \t"] = .ok ⟨"live", " \t"⟩ := ⟨rfl, rfl⟩

end BroadcastRelay
