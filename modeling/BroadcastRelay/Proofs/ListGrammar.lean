import BroadcastRelay.Settings.Text
/-!
# The grammar of lists

A setting that lists texts holds entries with a separator between any two. An entry is white space,
or an item with white space around it (`WritesEntry`), so a list can be written in many ways, with
any separators and with blank entries anywhere (`Writes`).

The reader cuts a text at every separator and reads the pieces one by one, so a separator puts one
list behind another (`readList_append`), and a text without separators is read as what is left of it
between its white space, if that is not empty (`readList_eq_iff_writesEntry`). By the two of them a
text is read as the items that it writes, and as nothing else (`readList_eq_iff`).
-/

namespace BroadcastRelay.Settings

variable {cs entry text : List Char} {c s : Char} {items : List String}

/-! ## Items, entries and lists -/

/-- A text that can be an item of a list. -/
structure IsItem (item : String) : Prop where
  /-- It is not empty. -/
  ne_empty : item ≠ ""
  /-- It has no separator in it. -/
  no_separator : ∀ c ∈ item.toList, isListSeparator c = false
  /-- It has no white space at its ends. -/
  trimmed : Trimmed item.toList

instance (item : String) : Decidable (IsItem item) :=
  decidable_of_iff (item ≠ "" ∧ item.toList.all (!isListSeparator ·) = true ∧ Trimmed item.toList)
    ⟨fun ⟨hne, hseparator, htrimmed⟩ => ⟨hne, by simpa using hseparator, htrimmed⟩,
      fun h => ⟨h.ne_empty, by simpa using h.no_separator, h.trimmed⟩⟩

/-- An entry, and the items in it. -/
inductive WritesEntry : List String → List Char → Prop
  /-- White space has no item in it. -/
  | blank (ws : List Char) (hws : ∀ c ∈ ws, isBlank c = true) : WritesEntry [] ws
  /-- An item may have white space on both sides. -/
  | padded (before : List Char) (item : String) (after : List Char)
      (hbefore : ∀ c ∈ before, isBlank c = true) (hitem : IsItem item)
      (hafter : ∀ c ∈ after, isBlank c = true) :
      WritesEntry [item] (before ++ item.toList ++ after)

/-- A text, and the items that it writes. -/
inductive Writes : List String → List Char → Prop
  /-- An entry is a list. -/
  | entry {items : List String} {text : List Char} (hentry : WritesEntry items text) :
      Writes items text
  /-- An entry stands before a list, with a separator in between. -/
  | cons {items rest : List String} {entry text : List Char} {s : Char}
      (hentry : WritesEntry items entry) (hs : isListSeparator s = true)
      (hrest : Writes rest text) : Writes (items ++ rest) (entry ++ s :: text)

theorem isListSeparator_of_isBlank (h : isBlank c = true) : isListSeparator c = false := by
  rw [Bool.eq_false_iff]
  intro hc
  rcases Bool.or_eq_true_iff.mp hc with hc | hc <;> rw [beq_iff_eq.mp hc] at h <;>
    exact absurd h (by decide)

theorem WritesEntry.no_separator (h : WritesEntry items text) :
    ∀ c ∈ text, isListSeparator c = false := by
  cases h with
  | blank _ hws => exact fun c hc => isListSeparator_of_isBlank (hws c hc)
  | padded _ _ _ hbefore hitem hafter =>
    intro c hc
    rcases List.mem_append.mp hc with hc | hc
    · rcases List.mem_append.mp hc with hc | hc
      · exact isListSeparator_of_isBlank (hbefore c hc)
      · exact hitem.no_separator c hc
    · exact isListSeparator_of_isBlank (hafter c hc)

theorem WritesEntry.isItem (h : WritesEntry items text) : ∀ item ∈ items, IsItem item := by
  cases h with
  | blank => simp
  | padded _ _ _ _ hitem _ => simpa using hitem

/-- What is written is a list of items. -/
theorem Writes.isItem (h : Writes items text) : ∀ item ∈ items, IsItem item := by
  induction h with
  | entry hentry => exact hentry.isItem
  | cons hentry _ _ ih =>
    intro item hitem
    exact (List.mem_append.mp hitem).elim (hentry.isItem item) (ih item)

/-- Any list of items can be written with the same separator between any two of them. -/
theorem writes_intercalate (hs : isListSeparator s = true) (hitems : ∀ item ∈ items, IsItem item) :
    Writes items ([s].intercalate (items.map String.toList)) := by
  have hbare {item : String} (hitem : IsItem item) : WritesEntry [item] item.toList := by
    simpa using WritesEntry.padded [] item [] (by simp) hitem (by simp)
  induction items with
  | nil => exact .entry (.blank [] (by simp))
  | cons item items ih =>
    rw [List.forall_mem_cons] at hitems
    cases items with
    | nil => simpa using Writes.entry (hbare hitems.1)
    | cons next items =>
      simpa using Writes.cons (hbare hitems.1) hs (ih hitems.2)

/-! ## Reading lists -/

/-- A separator puts one list behind another. -/
theorem readList_append (hs : isListSeparator s = true) (xs ys : List Char) :
    readList (String.ofList (xs ++ s :: ys)) =
      readList (String.ofList xs) ++ readList (String.ofList ys) := by
  simp only [readList, String.toList_ofList, split_append_cons hs, List.map_append,
    List.filter_append]

theorem readList_of_no_separator (h : ∀ c ∈ cs, isListSeparator c = false) :
    readList (String.ofList cs) = if trim cs = [] then [] else [String.ofList (trim cs)] := by
  rw [readList, String.toList_ofList, split_of_forall_not h]
  by_cases hblank : trim cs = [] <;> simp [hblank]

theorem isItem_trim (h : ∀ c ∈ cs, isListSeparator c = false) (hne : trim cs ≠ []) :
    IsItem (String.ofList (trim cs)) where
  ne_empty := by simpa using hne
  no_separator c hc := h c (mem_of_mem_trim (by simpa using hc))
  trimmed := by simpa using (trim_eq_iff.mp (Eq.refl (trim cs))).1

/-- A text without separators is read as the entry that it is. -/
theorem readList_eq_iff_writesEntry (h : ∀ c ∈ cs, isListSeparator c = false) :
    readList (String.ofList cs) = items ↔ WritesEntry items cs := by
  rw [readList_of_no_separator h]
  constructor
  · rintro rfl
    split
    · rename_i hempty
      exact .blank cs (trim_eq_nil_iff.mp hempty)
    · rename_i hne
      obtain ⟨-, before, after, hbefore, hafter, hcs⟩ := trim_eq_iff.mp (Eq.refl (trim cs))
      have hpadded := WritesEntry.padded before _ after hbefore (isItem_trim h hne) hafter
      rwa [String.toList_ofList, ← hcs] at hpadded
  · intro hentry
    cases hentry with
    | blank _ hws => rw [if_pos (trim_eq_nil_iff.mpr hws)]
    | padded before item after hbefore hitem hafter =>
      have htrim : trim (before ++ item.toList ++ after) = item.toList :=
        trim_eq_iff.mpr ⟨hitem.trimmed, before, after, hbefore, hafter, rfl⟩
      rw [htrim, if_neg (by simpa using hitem.ne_empty), String.ofList_toList]

/-- A text is read as the items that it writes. -/
theorem readList_of_writes (h : Writes items text) : readList (String.ofList text) = items := by
  induction h with
  | entry hentry => exact (readList_eq_iff_writesEntry hentry.no_separator).mpr hentry
  | cons hentry hs _ ih =>
    rw [readList_append hs, ih, (readList_eq_iff_writesEntry hentry.no_separator).mpr hentry]

/-- A text writes the items that it is read as. What has been seen of an entry goes before the text
until a separator ends it. -/
theorem writes_readList (entry text : List Char)
    (hentry : ∀ c ∈ entry, isListSeparator c = false) :
    Writes (readList (String.ofList (entry ++ text))) (entry ++ text) := by
  induction text generalizing entry with
  | nil =>
    rw [List.append_nil]
    exact .entry ((readList_eq_iff_writesEntry hentry).mp rfl)
  | cons c cs ih =>
    cases hc : isListSeparator c with
    | true =>
      rw [readList_append hc]
      exact .cons ((readList_eq_iff_writesEntry hentry).mp rfl) hc (ih [] (by simp))
    | false =>
      rw [List.append_cons]
      refine ih (entry ++ [c]) fun d hd => ?_
      rcases List.mem_append.mp hd with hd | hd
      · exact hentry d hd
      · rw [List.mem_singleton.mp hd, hc]

theorem readList_eq_iff {text : String} : readList text = items ↔ Writes items text.toList := by
  constructor
  · rintro rfl
    simpa using writes_readList [] text.toList (by simp)
  · intro h
    simpa using readList_of_writes h

/-! ## What a reader of lists does -/

/-- What is written is read as it is written. -/
structure ReadsAsWritten (read : String → List String) : Prop where
  /-- A separator puts one list behind another. -/
  append : ∀ (a b : String) (s : Char), isListSeparator s = true →
    read (a ++ String.singleton s ++ b) = read a ++ read b
  /-- Only items are read. -/
  isItem : ∀ text, ∀ item ∈ read text, IsItem item
  /-- In whatever way a text writes items, it is read as these, and as no others. -/
  eq_iff : ∀ text items, read text = items ↔ Writes items text.toList
  /-- Any list of items can be read, whichever separator divides them. -/
  intercalate : ∀ (s : Char) (items : List String), isListSeparator s = true →
    (∀ item ∈ items, IsItem item) → read ((String.singleton s).intercalate items) = items

/-- Lists are read as they are written, with any separators, white space and blank entries. -/
theorem lists_read_as_written : ReadsAsWritten readList where
  append a b s hs := by
    have htext : a ++ String.singleton s ++ b = String.ofList (a.toList ++ s :: b.toList) := by
      simp [← String.toList_inj]
    rw [htext, readList_append hs, String.ofList_toList, String.ofList_toList]
  isItem _ := (readList_eq_iff.mp rfl).isItem
  eq_iff _ _ := readList_eq_iff
  intercalate s items hs hitems := by
    rw [readList_eq_iff, String.toList_intercalate, String.toList_singleton]
    exact writes_intercalate hs hitems

/-- Both separators, four kinds of white space, an empty entry and a blank one. -/
theorem lists_read_as_written_mixed :
    isListSeparator ',' = true ∧ (∀ item ∈ ["a b", "c"], IsItem item) ∧
      Writes ["a b", "c"] " a b |,\u00a0,\tc\u3000".toList ∧
      readList (" a b |" ++ String.singleton ',' ++ "\u00a0,\tc\u3000") =
        readList " a b |" ++ readList "\u00a0,\tc\u3000" ∧
      (∀ item ∈ readList " a b |", IsItem item) ∧
      readList " a b |,\u00a0,\tc\u3000" = ["a b", "c"] ∧
      readList ((String.singleton ',').intercalate ["a b", "c"]) = ["a b", "c"] := by
  have hbar : isListSeparator '|' = true := by decide
  have hcomma : isListSeparator ',' = true := by decide
  have hblank (ws : List Char) (h : ws.all isBlank = true) : ∀ c ∈ ws, isBlank c = true :=
    List.all_eq_true.mp h
  have hab : IsItem "a b" := by decide
  have hc : IsItem "c" := by decide
  have hitems : ∀ item ∈ ["a b", "c"], IsItem item := by simp [hab, hc]
  have hwrites : Writes ["a b", "c"] " a b |,\u00a0,\tc\u3000".toList :=
    .cons (.padded [' '] "a b" [' '] (hblank _ rfl) hab (hblank _ rfl)) hbar
      (.cons (.blank [] (hblank _ rfl)) hcomma
        (.cons (.blank ['\u00a0'] (hblank _ rfl)) hcomma
          (.entry (.padded ['\t'] "c" ['\u3000'] (hblank _ rfl) hc (hblank _ rfl)))))
  exact ⟨hcomma, hitems, hwrites, lists_read_as_written.append _ _ ',' hcomma,
    lists_read_as_written.isItem _, (lists_read_as_written.eq_iff _ _).mpr hwrites,
    lists_read_as_written.intercalate ',' _ hcomma hitems⟩

end BroadcastRelay.Settings
