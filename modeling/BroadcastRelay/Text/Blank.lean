/-!
# White space

`isBlank` is the Unicode property White_Space. `trim` removes the white space at both ends of a
text and nothing else: what is left has none at its ends (`Trimmed`), and what is gone is white space
(`trim_eq_iff`).
-/

namespace BroadcastRelay

/-- Whether the character is white space. -/
def isBlank (c : Char) : Bool :=
  let n := c.toNat
  (9 ≤ n && n ≤ 13) || n == 32 || n == 0x85 || n == 0xA0 || n == 0x1680 ||
    (0x2000 ≤ n && n ≤ 0x200A) || n == 0x2028 || n == 0x2029 || n == 0x202F || n == 0x205F ||
    n == 0x3000

/-- The text without the white space at its start. -/
def trimStart (cs : List Char) : List Char := cs.dropWhile isBlank

/-- The text without the white space at its end. -/
def trimEnd (cs : List Char) : List Char := (cs.reverse.dropWhile isBlank).reverse

/-- The text without the white space at its ends. -/
def trim (cs : List Char) : List Char := trimStart (trimEnd cs)

@[simp] theorem trimStart_nil : trimStart [] = [] := rfl

@[simp] theorem trimStart_cons_blank {c : Char} {cs : List Char} (h : isBlank c = true) :
    trimStart (c :: cs) = trimStart cs := by
  simp [trimStart, h]

theorem trimStart_cons_of_not_blank {c : Char} {cs : List Char} (h : isBlank c = false) :
    trimStart (c :: cs) = c :: cs := by
  simp [trimStart, h]

theorem trimStart_append_blank {ws cs : List Char} (h : ∀ c ∈ ws, isBlank c = true) :
    trimStart (ws ++ cs) = trimStart cs := by
  induction ws with
  | nil => rfl
  | cons w ws ih =>
    have hw : isBlank w = true := h w (by simp)
    rw [List.cons_append, trimStart_cons_blank hw]
    exact ih fun c hc => h c (by simp [hc])

/-- What is left does not start with white space. -/
theorem head_trimStart {c : Char} {cs rest : List Char} (h : trimStart cs = c :: rest) :
    isBlank c = false := by
  induction cs with
  | nil => simp at h
  | cons a as ih =>
    cases ha : isBlank a with
    | true => exact ih (by simpa [ha] using h)
    | false =>
      rw [trimStart_cons_of_not_blank ha] at h
      simp only [List.cons.injEq] at h
      rw [← h.1, ha]

theorem trimStart_eq_iff {cs rest : List Char} : trimStart cs = rest ↔
    (∀ c ∈ rest.head?, isBlank c = false) ∧
      ∃ before, (∀ c ∈ before, isBlank c = true) ∧ cs = before ++ rest := by
  constructor
  · rintro rfl
    refine ⟨fun c hc => ?_, cs.takeWhile isBlank, List.all_eq_true.mp List.all_takeWhile,
      List.takeWhile_append_dropWhile.symm⟩
    obtain ⟨rest, hrest⟩ := List.head?_eq_some_iff.mp hc
    exact head_trimStart hrest
  · rintro ⟨hhead, before, hbefore, rfl⟩
    rw [trimStart_append_blank hbefore]
    cases rest with
    | nil => rfl
    | cons c rest => exact trimStart_cons_of_not_blank (hhead c rfl)

/-- Read backwards, the end of a text is its start. -/
theorem trimEnd_eq_iff {cs front : List Char} : trimEnd cs = front ↔
    (∀ c ∈ front.getLast?, isBlank c = false) ∧
      ∃ after, (∀ c ∈ after, isBlank c = true) ∧ cs = front ++ after := by
  have hreverse : trimEnd cs = (trimStart cs.reverse).reverse := rfl
  rw [hreverse, List.reverse_eq_iff, trimStart_eq_iff, List.head?_reverse]
  refine and_congr_right fun _ => ⟨?_, ?_⟩
  · rintro ⟨before, hbefore, heq⟩
    refine ⟨before.reverse, fun c hc => hbefore c (List.mem_reverse.mp hc), ?_⟩
    rw [← List.reverse_reverse cs, heq, List.reverse_append, List.reverse_reverse]
  · rintro ⟨after, hafter, rfl⟩
    exact ⟨after.reverse, fun c hc => hafter c (List.mem_reverse.mp hc), List.reverse_append⟩

/-- The text has no white space at its ends. -/
def Trimmed (cs : List Char) : Prop :=
  (∀ c ∈ cs.head?, isBlank c = false) ∧ ∀ c ∈ cs.getLast?, isBlank c = false

instance (cs : List Char) : Decidable (Trimmed cs) :=
  decidable_of_iff (cs.head?.all (!isBlank ·) = true ∧ cs.getLast?.all (!isBlank ·) = true)
    (by simp [Trimmed, Option.all_eq_true])

/-- What is left of a text is what stands between the white space at its ends. -/
theorem trim_eq_iff {cs middle : List Char} : trim cs = middle ↔ Trimmed middle ∧
    ∃ before after, (∀ c ∈ before, isBlank c = true) ∧ (∀ c ∈ after, isBlank c = true) ∧
      cs = before ++ middle ++ after := by
  constructor
  · intro h
    obtain ⟨hhead, before, hbefore, hend⟩ := trimStart_eq_iff.mp h
    obtain ⟨hlast, after, hafter, hcs⟩ := trimEnd_eq_iff.mp hend
    refine ⟨⟨hhead, fun c hc => hlast c ?_⟩, before, after, hbefore, hafter, hcs⟩
    rw [List.getLast?_append, Option.mem_def.mp hc]
    rfl
  · rintro ⟨⟨hhead, hlast⟩, before, after, hbefore, hafter, rfl⟩
    refine trimStart_eq_iff.mpr ⟨hhead, ?_⟩
    cases middle with
    | nil =>
      -- With nothing in the middle, all of the text is removed from its end.
      refine ⟨[], fun _ h => absurd h List.not_mem_nil, trimEnd_eq_iff.mpr
        ⟨hlast, before ++ [] ++ after, fun c hc => ?_, rfl⟩⟩
      rw [List.append_nil, List.mem_append] at hc
      exact hc.elim (hbefore c) (hafter c)
    | cons c rest =>
      refine ⟨before, hbefore, trimEnd_eq_iff.mpr ⟨fun d hd => hlast d ?_, after, hafter, rfl⟩⟩
      rwa [List.getLast?_append, List.getLast?_cons, Option.some_or, ← List.getLast?_cons] at hd

theorem mem_of_mem_trim {c : Char} {cs : List Char} (h : c ∈ trim cs) : c ∈ cs := by
  obtain ⟨-, before, after, -, -, hcs⟩ := trim_eq_iff.mp (Eq.refl (trim cs))
  rw [hcs]
  exact List.mem_append_left after (List.mem_append_right before h)

/-- Nothing is left of a text if it is white space throughout. -/
theorem trim_eq_nil_iff {cs : List Char} : trim cs = [] ↔ ∀ c ∈ cs, isBlank c = true := by
  rw [trim_eq_iff]
  constructor
  · rintro ⟨-, before, after, hbefore, hafter, rfl⟩ c hc
    rw [List.append_nil] at hc
    exact (List.mem_append.mp hc).elim (hbefore c) (hafter c)
  · intro h
    exact ⟨by decide, cs, [], h, by simp, by simp⟩

end BroadcastRelay
