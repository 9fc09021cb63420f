import BroadcastRelay.KeyMap
import Mathlib.Data.String.Basic
/-!
# The entries of a map and its look-ups

A `KeyMap` is read by look-ups in one place and by its list of values in another. In an `Ordered`
map, whose entries increase strictly, the two agree (`Ordered.mem_values`). Insertion and erasure
keep a map ordered.
-/

namespace BroadcastRelay.KeyMap

variable {α : Type}

/-- The entries increase strictly. -/
def Ordered (m : KeyMap α) : Prop := m.entries.Pairwise fun e f => e.1 < f.1

theorem ordered_empty : (empty : KeyMap α).Ordered := List.Pairwise.nil

theorem mem_of_mem_put {key : String} {a : α} {e : String × α} {es : List (String × α)}
    (h : e ∈ put key a es) : e = (key, a) ∨ e ∈ es := by
  induction es with
  | nil => exact Or.inl (List.mem_singleton.mp h)
  | cons f es ih =>
    obtain ⟨k, b⟩ := f
    unfold put at h
    split at h
    · exact List.mem_cons.mp h
    · split at h
      · rcases List.mem_cons.mp h with rfl | h
        · exact Or.inl rfl
        · exact Or.inr (List.mem_cons_of_mem _ h)
      · rcases List.mem_cons.mp h with rfl | h
        · exact Or.inr List.mem_cons_self
        · exact (ih h).imp_right (List.mem_cons_of_mem _)

theorem pairwise_put (key : String) (a : α) {es : List (String × α)}
    (h : es.Pairwise fun e f => e.1 < f.1) : (put key a es).Pairwise fun e f => e.1 < f.1 := by
  induction es with
  | nil => exact List.pairwise_singleton _ _
  | cons f es ih =>
    obtain ⟨k, b⟩ := f
    obtain ⟨hhead, htail⟩ := List.pairwise_cons.mp h
    unfold put
    split
    · rename_i hlt
      refine List.pairwise_cons.mpr ⟨fun e he => ?_, h⟩
      rcases List.mem_cons.mp he with rfl | he
      · exact hlt
      · exact lt_trans hlt (hhead e he)
    · split
      · rename_i heq
        subst heq
        exact List.pairwise_cons.mpr ⟨hhead, htail⟩
      · rename_i hnot hne
        refine List.pairwise_cons.mpr ⟨fun e he => ?_, ih htail⟩
        rcases mem_of_mem_put he with rfl | he
        · exact lt_of_le_of_ne (not_lt.mp hnot) (Ne.symm hne)
        · exact hhead e he

theorem Ordered.insert {m : KeyMap α} (h : m.Ordered) (key : String) (a : α) :
    (m.insert key a).Ordered := pairwise_put key a h

theorem Ordered.erase {m : KeyMap α} (h : m.Ordered) (key : String) : (m.erase key).Ordered :=
  List.Pairwise.filter _ h

theorem mem_of_find {key : String} {a : α} {es : List (String × α)} (h : find key es = some a) :
    (key, a) ∈ es := by
  induction es with
  | nil => simp [find] at h
  | cons f es ih =>
    obtain ⟨k, b⟩ := f
    unfold find at h
    split at h
    · rename_i heq
      rw [heq, Option.some.inj h]
      exact List.mem_cons_self
    · exact List.mem_cons_of_mem _ (ih h)

theorem find_of_mem {key : String} {a : α} {es : List (String × α)}
    (h : es.Pairwise fun e f => e.1 < f.1) (hmem : (key, a) ∈ es) : find key es = some a := by
  induction es with
  | nil => simp at hmem
  | cons f es ih =>
    obtain ⟨k, b⟩ := f
    obtain ⟨hhead, htail⟩ := List.pairwise_cons.mp h
    rcases List.mem_cons.mp hmem with heq | hmem
    · obtain ⟨rfl, rfl⟩ := Prod.mk.inj heq
      simp [find]
    · have hne : key ≠ k := (hhead _ hmem).ne'
      rw [find, if_neg hne]
      exact ih htail hmem

/-- The values of an ordered map are those that its look-ups give. -/
theorem Ordered.mem_values {m : KeyMap α} (h : m.Ordered) {a : α} :
    a ∈ m.values ↔ ∃ key, m.get? key = some a := by
  constructor
  · intro ha
    obtain ⟨⟨key, b⟩, he, rfl⟩ := List.mem_map.mp ha
    exact ⟨key, find_of_mem h he⟩
  · rintro ⟨key, hkey⟩
    exact List.mem_map.mpr ⟨(key, a), mem_of_find hkey, rfl⟩

theorem get?_insert (m : KeyMap α) (key other : String) (a : α) :
    (m.insert key a).get? other = if other = key then some a else m.get? other := by
  split
  · rename_i heq
    rw [heq, get?_insert_self]
  · rename_i hne
    exact get?_insert_of_ne m hne a

/-- An entry that has been put in is erased with any that it replaced. -/
theorem erase_insert (m : KeyMap α) (key : String) (a : α) :
    (m.insert key a).erase key = m.erase key := by
  suffices h : ∀ es : List (String × α),
      (put key a es).filter (·.1 ≠ key) = es.filter (·.1 ≠ key) from congrArg mk (h m.entries)
  intro es
  induction es with
  | nil => simp [put]
  | cons e es ih =>
    obtain ⟨k, b⟩ := e
    unfold put
    split
    · simp
    · split
      · rename_i heq
        simp [heq]
      · simp only [List.filter_cons, ih]

/-- Erasing a key without a value changes nothing. -/
theorem erase_of_get?_eq_none {m : KeyMap α} {key : String} (h : m.get? key = none) :
    m.erase key = m := by
  refine congrArg mk (List.filter_eq_self.mpr fun e he => decide_eq_true ?_)
  rintro rfl
  suffices hmem : ∀ es : List (String × α), e ∈ es → find e.1 es ≠ none from hmem m.entries he h
  intro es hes
  induction es with
  | nil => simp at hes
  | cons f es ih =>
    obtain ⟨k, b⟩ := f
    unfold find
    split
    · simp
    · rename_i hne
      rcases List.mem_cons.mp hes with rfl | hes
      · exact absurd rfl hne
      · exact ih hes

end BroadcastRelay.KeyMap
