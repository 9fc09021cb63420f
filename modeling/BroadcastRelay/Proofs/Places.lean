import BroadcastRelay.Proofs.KeyMap
import Mathlib.Data.List.Basic
import Mathlib.Data.List.ChainOfFn
/-!
# Places in a part of a list

Things are known by their place in a list. In the part of the list that is of one kind, a thing has
another place: the number of things of the kind before it (`place`). Something that is not of the
kind has a place beyond the end, so that a look-up of it finds nothing (`getElem?_filter_place`) and a
change of it changes nothing (`filter_modify`). Two maps in order are the same if their look-ups are
(`KeyMap.eq_of_get?_eq`), which is how a part of a map is compared.
-/

namespace BroadcastRelay

variable {α β : Type}

/-! ## Lists -/

theorem filter_of_any {p : α → Bool} {o : Option α} (h : o.any p = true) : o.filter p = o := by
  cases o with
  | none => rfl
  | some a => exact if_pos h

theorem filter_of_not_any {p : α → Bool} {o : Option α} (h : o.any p = false) :
    o.filter p = none := by
  cases o with
  | none => rfl
  | some a =>
    rw [Option.any_some] at h
    rw [Option.filter_some, h, if_neg Bool.false_ne_true]

/-- The place of an element in the part of the list that is of a kind, or the end of that part. -/
def place (p : α → Bool) (l : List α) (i : Nat) : Nat :=
  if (l[i]?).any p then l.countPBefore p i else l.countP p

variable {p : α → Bool} {l : List α} {i j : Nat}

theorem place_of_pos (h : (l[i]?).any p = true) : place p l i = l.countPBefore p i := if_pos h

theorem place_of_neg (h : (l[i]?).any p = false) : place p l i = l.countP p :=
  if_neg (by simp [h])

theorem place_cons_zero (p : α → Bool) (a : α) (l : List α) :
    place p (a :: l) 0 = if p a then 0 else (l.filter p).length := by
  cases ha : p a with
  | true => rw [place_of_pos (by simp [ha]), List.countPBefore_zero, if_pos rfl]
  | false =>
    rw [place_of_neg (by simp [ha]), List.countP_cons_of_neg (by simp [ha]),
      List.countP_eq_length_filter, if_neg (by simp)]

theorem place_cons_succ (p : α → Bool) (a : α) (l : List α) (i : Nat) :
    place p (a :: l) (i + 1) = if p a then place p l i + 1 else place p l i := by
  have hsame : ((a :: l)[i + 1]?).any p = (l[i]?).any p := by rw [List.getElem?_cons_succ]
  cases hi : (l[i]?).any p with
  | true => rw [place_of_pos (hsame.trans hi), place_of_pos hi, List.countPBefore_cons_succ]
  | false =>
    rw [place_of_neg (hsame.trans hi), place_of_neg hi, List.countP_cons]
    split <;> rfl

/-- A look-up in a part of a list. -/
theorem getElem?_filter_place (p : α → Bool) (l : List α) (i : Nat) :
    (l.filter p)[place p l i]? = (l[i]?).filter p := by
  induction l generalizing i with
  | nil => rfl
  | cons a l ih =>
    cases i with
    | zero =>
      rw [place_cons_zero]
      cases ha : p a with
      | true =>
        rw [if_pos rfl, List.filter_cons_of_pos ha]
        simp [Option.filter, ha]
      | false =>
        rw [if_neg (by simp), List.filter_cons_of_neg (by simp [ha])]
        simp [Option.filter, ha]
    | succ i =>
      rw [place_cons_succ, List.getElem?_cons_succ]
      cases ha : p a with
      | true =>
        rw [if_pos rfl, List.filter_cons_of_pos ha, List.getElem?_cons_succ]
        exact ih i
      | false =>
        rw [if_neg (by simp), List.filter_cons_of_neg (by simp [ha])]
        exact ih i

/-- A change of an element is one of it in the part, or none if it is not of the kind. -/
theorem filter_modify {f : α → α} (hf : ∀ a, p (f a) = p a) (l : List α) (i : Nat) :
    (l.modify i f).filter p = (l.filter p).modify (place p l i) f := by
  induction l generalizing i with
  | nil => simp
  | cons a l ih =>
    cases i with
    | zero =>
      rw [place_cons_zero, List.modify_zero_cons]
      cases ha : p a with
      | true =>
        rw [if_pos rfl, List.filter_cons_of_pos ((hf a).trans ha), List.filter_cons_of_pos ha,
          List.modify_zero_cons]
      | false =>
        rw [if_neg (by simp), List.filter_cons_of_neg (by simp [hf, ha]),
          List.filter_cons_of_neg (by simp [ha]), List.modify_eq_self (Nat.le_refl _)]
    | succ i =>
      rw [place_cons_succ, List.modify_succ_cons]
      cases ha : p a with
      | true =>
        rw [if_pos rfl, List.filter_cons_of_pos ha, List.filter_cons_of_pos ha,
          List.modify_succ_cons, ih]
      | false =>
        rw [if_neg (by simp), List.filter_cons_of_neg (by simp [ha]),
          List.filter_cons_of_neg (by simp [ha]), ih]

theorem modify_of_getElem?_eq_none {f : α → α} (h : l[i]? = none) : l.modify i f = l :=
  List.modify_eq_self (List.getElem?_eq_none_iff.mp h)

/-- A look-up in a part of a list whose elements have been renumbered. -/
theorem getElem?_map_filter_place (p : α → Bool) (f : α → β) (l : List α) (i : Nat) :
    ((l.filter p).map f)[place p l i]? = ((l[i]?).filter p).map f := by
  rw [List.getElem?_map, getElem?_filter_place]

theorem map_modify_comm {f : α → β} {u : α → α} {v : β → β} (h : ∀ a, f (u a) = v (f a))
    (l : List α) (i : Nat) : (l.modify i u).map f = (l.map f).modify i v := by
  refine List.ext_getElem? fun n => ?_
  simp only [List.getElem?_map, List.getElem?_modify, Option.map_eq_map]
  cases l[n]? with
  | none => rfl
  | some a =>
    simp only [Option.map_some]
    split
    · rw [h]
    · rfl

/-- A change of an element, seen in a part whose elements have been renumbered. -/
theorem map_filter_modify {f : α → β} {u : α → α} {v : β → β} (hu : ∀ a, p (u a) = p a)
    (hv : ∀ a, f (u a) = v (f a)) (l : List α) (i : Nat) :
    ((l.modify i u).filter p).map f = ((l.filter p).map f).modify (place p l i) v := by
  rw [filter_modify hu, map_modify_comm hv]

/-- One more element of the kind is one more in the part, -/
theorem map_filter_concat_of_pos {a : α} (ha : p a = true) (f : α → β) (l : List α) :
    ((l ++ [a]).filter p).map f = (l.filter p).map f ++ [f a] := by
  rw [List.filter_append, List.filter_cons_of_pos ha, List.filter_nil, List.map_append,
    List.map_singleton]

/-- and one of another kind is not. -/
theorem map_filter_concat_of_neg {a : α} (ha : p a = false) (f : α → β) (l : List α) :
    ((l ++ [a]).filter p).map f = (l.filter p).map f := by
  rw [List.filter_append, List.filter_cons_of_neg (by simp [ha]), List.filter_nil,
    List.append_nil]

/-- Places depend only on what is of the kind. -/
theorem place_congr {q : β → Bool} {m : List β} (h : l.map p = m.map q) (i : Nat) :
    place p l i = place q m i := by
  have hmap : ∀ {γ : Type} (r : γ → Bool) (n : List γ), place r n i = place id (n.map r) i := by
    intro γ r n
    have hkind : ((n.map r)[i]?).any id = (n[i]?).any r := by
      rw [List.getElem?_map, Option.any_map]
      rfl
    rw [place, place, hkind, List.countPBefore_eq_countP_take, List.countPBefore_eq_countP_take,
      ← List.map_take, List.countP_map, List.countP_map]
    rfl
  rw [hmap p l, hmap q m, h]

theorem map_modify_of_same {f : α → α} {g : α → β} (hf : ∀ a, g (f a) = g a) (l : List α)
    (i : Nat) : (l.modify i f).map g = l.map g := by
  refine List.ext_getElem? fun n => ?_
  rw [List.getElem?_map, List.getElem?_map, List.getElem?_modify]
  cases l[n]? with
  | none => rfl
  | some a =>
    simp only [Option.map_eq_map, Option.map_some]
    split
    · rw [hf]
    · rfl

theorem place_modify {f : α → α} (hf : ∀ a, p (f a) = p a) (l : List α) (i j : Nat) :
    place p (l.modify i f) j = place p l j := place_congr (map_modify_of_same hf l i) j

theorem lt_length_of_any (h : (l[i]?).any p = true) : ∃ hi : i < l.length, p l[i] = true := by
  cases ha : l[i]? with
  | none => simp [ha] at h
  | some a =>
    obtain ⟨hi, rfl⟩ := List.getElem?_eq_some_iff.mp ha
    exact ⟨hi, by simpa [ha] using h⟩

/-- More elements behind change no place of one that is of the kind. -/
theorem place_append (h : (l[i]?).any p = true) (m : List α) : place p (l ++ m) i = place p l i := by
  obtain ⟨hi, -⟩ := lt_length_of_any h
  have hsame : ((l ++ m)[i]?).any p = (l[i]?).any p := by rw [List.getElem?_append_left hi]
  rw [place_of_pos (hsame.trans h), place_of_pos h, List.countPBefore_eq_countP_take,
    List.countPBefore_eq_countP_take, List.take_append_of_le_length (Nat.le_of_lt hi)]

/-- One more element that is not of the kind changes no place. -/
theorem place_concat_of_neg {a : α} (ha : p a = false) (l : List α) (i : Nat) :
    place p (l ++ [a]) i = place p l i := by
  cases hi : (l[i]?).any p with
  | true => exact place_append hi [a]
  | false =>
    have hnone : ((l ++ [a])[i]?).any p = false := by
      rw [List.getElem?_append]
      split
      · exact hi
      · cases hn : [a][i - l.length]? with
        | none => rfl
        | some b =>
          rw [List.mem_singleton.mp (List.mem_of_getElem? hn), Option.any_some, ha]
    rw [place_of_neg hnone, place_of_neg hi, List.countP_append]
    simp [ha]

theorem place_concat_length {a : α} (ha : p a = true) (l : List α) :
    place p (l ++ [a]) l.length = (l.filter p).length := by
  rw [place_of_pos (by simp [ha]), List.countPBefore_eq_countP_take, List.take_left,
    List.countP_eq_length_filter]

/-- An element of the kind is found by the number of those before it. -/
theorem findIdxNth_countPBefore (h : (l[i]?).any p = true) :
    l.findIdxNth p (l.countPBefore p i) = i := by
  obtain ⟨_, hp⟩ := lt_length_of_any h
  exact List.findIdxNth_countPBefore_of_lt_length_of_pos hp

theorem place_inj (hi : (l[i]?).any p = true) (hj : (l[j]?).any p = true)
    (h : place p l i = place p l j) : i = j := by
  rw [place_of_pos hi, place_of_pos hj] at h
  rw [← findIdxNth_countPBefore hi, h, findIdxNth_countPBefore hj]

/-- An element of the kind shares its place with no other element. -/
theorem place_eq_iff (hi : (l[i]?).any p = true) : place p l i = place p l j ↔ i = j := by
  refine ⟨fun h => ?_, fun h => h ▸ rfl⟩
  cases hj : (l[j]?).any p with
  | true => exact place_inj hi hj h
  | false =>
    have hfound : (l.filter p)[place p l i]? = l[i]? := by
      rw [getElem?_filter_place, filter_of_any hi]
    have hend : (l.filter p)[place p l j]? = none := by
      rw [getElem?_filter_place, filter_of_not_any hj]
    rw [← hfound, h, hend] at hi
    exact absurd hi (by simp)

/-- The element that is the next of its kind after `n` others has the place `n`. -/
theorem place_findIdxNth (p : α → Bool) (l : List α) (n : Nat) :
    place p l (l.findIdxNth p n) = min n (l.filter p).length := by
  rw [← List.countP_eq_length_filter]
  by_cases hn : n < l.countP p
  · have hlt : l.findIdxNth p n < l.length := List.findIdxNth_lt_length_of_lt_countP hn
    have hany : (l[l.findIdxNth p n]?).any p = true := by
      rw [List.getElem?_eq_getElem hlt]
      exact List.pos_findIdxNth_getElem
    rw [place_of_pos hany, List.countPBefore_findIdxNth_of_lt_countP hn]
    omega
  · have hend : l.findIdxNth p n = l.length :=
      List.findIdxNth_eq_length_of_ge_countP (Nat.not_lt.mp hn)
    rw [hend, place_of_neg (by simp)]
    omega

/-- What is found of another kind is not of this one. -/
theorem any_findIdxNth_of_disjoint {q : α → Bool} (h : ∀ a, q a = true → p a = false)
    (l : List α) (n : Nat) : (l[l.findIdxNth q n]?).any p = false := by
  by_cases hn : n < l.countP q
  · have hlt : l.findIdxNth q n < l.length := List.findIdxNth_lt_length_of_lt_countP hn
    rw [List.getElem?_eq_getElem hlt, Option.any_some]
    exact h _ List.pos_findIdxNth_getElem
  · have hend : l.findIdxNth q n = l.length :=
      List.findIdxNth_eq_length_of_ge_countP (Nat.not_lt.mp hn)
    rw [hend, List.getElem?_eq_none (Nat.le_refl _)]
    rfl

/-- In a list of one kind the next after `n` others stands at `n`. -/
theorem findIdxNth_of_forall (h : ∀ a ∈ l, p a = true) (n : Nat) :
    l.findIdxNth p n = min n l.length := by
  induction l generalizing n with
  | nil => simp
  | cons a l ih =>
    have ha : p a = true := h a List.mem_cons_self
    have htail := ih fun b hb => h b (List.mem_cons_of_mem a hb)
    cases n with
    | zero => simp [ha]
    | succ n =>
      rw [List.findIdxNth_cons_succ_of_pos ha, htail, List.length_cons]
      omega

/-- The place of an element that is of the kind, and nothing for any other. -/
def place? (p : α → Bool) (l : List α) (i : Nat) : Option Nat :=
  if (l[i]?).any p then some (place p l i) else none

theorem place?_congr {q : β → Bool} {m : List β} (h : l.map p = m.map q) (i : Nat) :
    place? p l i = place? q m i := by
  have hany : (l[i]?).any p = (m[i]?).any q := by
    have hi := congrArg (fun n : List Bool => (n[i]?).any id) h
    simpa [List.getElem?_map, Option.any_map, Function.comp_def] using hi
  rw [place?, place?, hany, place_congr h]

theorem place?_append (hi : i < l.length) (m : List α) : place? p (l ++ m) i = place? p l i := by
  have hsame : ((l ++ m)[i]?).any p = (l[i]?).any p := by rw [List.getElem?_append_left hi]
  rw [place?, place?, hsame]
  split
  · rename_i h
    rw [place_append h]
  · rfl

theorem place?_concat_length (p : α → Bool) (l : List α) (a : α) :
    place? p (l ++ [a]) l.length = if p a then some (l.filter p).length else none := by
  rw [place?, List.getElem?_concat_length, Option.any_some]
  split
  · rename_i ha
    rw [place_concat_length ha]
  · rfl

/-- To look an element up by its place is to ask whether it is of the kind. -/
theorem bind_place? (p : α → Bool) (f : α → β) (l : List α) (i : Nat) :
    (place? p l i).bind (((l.filter p).map f)[·]?) = ((l[i]?).filter p).map f := by
  rw [place?]
  split
  · exact getElem?_map_filter_place p f l i
  · rename_i h
    rw [filter_of_not_any (by simpa using h)]
    rfl

/-! ## Maps -/

namespace KeyMap

variable {m m' : KeyMap α} {key : String}

/-- The map that has at most one key. -/
def single (key : String) : Option α → KeyMap α
  | none => .empty
  | some a => ⟨[(key, a)]⟩

@[simp] theorem get?_single_self (key : String) (o : Option α) : (single key o).get? key = o := by
  cases o with
  | none => rfl
  | some a => simp [single, get?, find]

@[simp] theorem insert_single (key : String) (o : Option α) (a : α) :
    (single key o).insert key a = single key (some a) := by
  cases o <;> simp [single, insert, put, KeyMap.empty]

@[simp] theorem erase_single (key : String) (o : Option α) :
    (single key o).erase key = single key none := by
  cases o <;> simp [single, erase, KeyMap.empty]

/-- The map with its values changed, or dropped. -/
def filterMap (f : α → Option β) (m : KeyMap α) : KeyMap β :=
  ⟨m.entries.filterMap fun e => (f e.2).map (e.1, ·)⟩

theorem Ordered.get?_eq_some_iff (h : m.Ordered) {a : α} :
    m.get? key = some a ↔ (key, a) ∈ m.entries :=
  ⟨mem_of_find, find_of_mem h⟩

theorem Ordered.filterMap (h : m.Ordered) (f : α → Option β) : (m.filterMap f).Ordered := by
  refine List.Pairwise.filterMap _ ?_ h
  intro e e' hlt d hd d' hd'
  obtain ⟨b, -, rfl⟩ := Option.map_eq_some_iff.mp hd
  obtain ⟨b', -, rfl⟩ := Option.map_eq_some_iff.mp hd'
  exact hlt

theorem get?_filterMap (h : m.Ordered) (f : α → Option β) (key : String) :
    (m.filterMap f).get? key = (m.get? key).bind f := by
  refine Option.ext fun b => ?_
  rw [(h.filterMap f).get?_eq_some_iff, Option.bind_eq_some_iff]
  constructor
  · intro hmem
    obtain ⟨⟨k, a⟩, he, hb⟩ := List.mem_filterMap.mp hmem
    obtain ⟨b', hb', heq⟩ := Option.map_eq_some_iff.mp hb
    obtain ⟨rfl, rfl⟩ := Prod.mk.inj heq
    exact ⟨a, h.get?_eq_some_iff.mpr he, hb'⟩
  · rintro ⟨a, ha, hb⟩
    exact List.mem_filterMap.mpr ⟨(key, a), h.get?_eq_some_iff.mp ha, by simp [hb]⟩

theorem values_filterMap (f : α → Option β) (m : KeyMap α) :
    (m.filterMap f).values = m.values.filterMap f := by
  rw [values, filterMap, values, List.map_filterMap, List.filterMap_map]
  refine congrArg (List.filterMap · _) (funext fun e => ?_)
  cases hf : f e.2 <;> simp [hf]

theorem filterMap_congr {f g : α → Option β} (h : ∀ a ∈ m.values, f a = g a) :
    m.filterMap f = m.filterMap g := by
  refine congrArg mk (List.filterMap_congr fun e he => ?_)
  rw [h e.2 (List.mem_map.mpr ⟨e, he, rfl⟩)]

theorem filterMap_erase (f : α → Option β) (m : KeyMap α) (key : String) :
    (m.erase key).filterMap f = (m.filterMap f).erase key := by
  refine congrArg mk ?_
  rw [erase, List.filterMap_filter, filterMap, List.filter_filterMap]
  refine List.filterMap_congr fun e _ => ?_
  cases f e.2 with
  | none => simp
  | some b => by_cases he : e.1 = key <;> simp [Option.filter_some, he]

/-- Maps in order are the same if their look-ups are. -/
theorem eq_of_get?_eq (h : m.Ordered) (h' : m'.Ordered) (heq : ∀ key, m.get? key = m'.get? key) :
    m = m' := by
  have hnodup : ∀ {n : KeyMap α}, n.Ordered → n.entries.Nodup := by
    intro n hn
    exact hn.imp fun {e e'} hlt heq => absurd (heq ▸ hlt) (lt_irrefl _)
  have hperm : m.entries.Perm m'.entries := by
    refine (List.perm_ext_iff_of_nodup (hnodup h) (hnodup h')).mpr fun ⟨key, a⟩ => ?_
    rw [← h.get?_eq_some_iff, ← h'.get?_eq_some_iff, heq]
  have hentries : m.entries = m'.entries :=
    List.Perm.eq_of_pairwise (fun e e' _ _ hlt hgt => absurd hgt (lt_asymm hlt)) h h' hperm
  exact congrArg mk hentries

end KeyMap

end BroadcastRelay
