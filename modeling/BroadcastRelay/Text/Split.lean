/-!
# Cutting lists

`dropStart?` and `dropEnd?` take a given list off the start or the end of another
(`dropStart?_eq_some_iff`, `dropEnd?_eq_some_iff`). `split` cuts a list at every separator, so that
there is always one piece more than there are separators (`split_append_cons`), and no piece has one
in it (`mem_of_mem_split`).
-/

namespace BroadcastRelay

variable {α : Type}

/-- What follows the word at the start of a list. -/
def dropStart? [DecidableEq α] : List α → List α → Option (List α)
  | [], xs => some xs
  | _ :: _, [] => none
  | w :: ws, x :: xs => if w = x then dropStart? ws xs else none

theorem dropStart?_eq_some_iff [DecidableEq α] {word xs rest : List α} :
    dropStart? word xs = some rest ↔ xs = word ++ rest := by
  fun_induction dropStart? word xs with
  | case1 xs => simp
  | case2 w ws => simp
  | case3 ws x xs ih => simp [ih]
  | case4 w ws x xs h => simp [Ne.symm h]

theorem length_le_of_dropStart? [DecidableEq α] {word xs rest : List α}
    (h : dropStart? word xs = some rest) : rest.length ≤ xs.length := by
  rw [dropStart?_eq_some_iff.mp h, List.length_append]
  omega

/-- What stands before the word at the end of a list. -/
def dropEnd? [DecidableEq α] (word xs : List α) : Option (List α) :=
  (dropStart? word.reverse xs.reverse).map List.reverse

theorem dropEnd?_eq_some_iff [DecidableEq α] {word xs front : List α} :
    dropEnd? word xs = some front ↔ xs = front ++ word := by
  unfold dropEnd?
  constructor
  · intro h
    obtain ⟨r, hr, rfl⟩ := Option.map_eq_some_iff.mp h
    have := congrArg List.reverse (dropStart?_eq_some_iff.mp hr)
    simpa using this
  · rintro rfl
    exact Option.map_eq_some_iff.mpr ⟨front.reverse, dropStart?_eq_some_iff.mpr (by simp), by simp⟩

/-- The pieces with an element in front of the first. -/
def consPiece (x : α) : List (List α) → List (List α)
  | [] => [[x]]
  | piece :: pieces => (x :: piece) :: pieces

/-- The pieces between the separators. -/
def split (isSep : α → Bool) (xs : List α) : List (List α) :=
  xs.foldr (fun x pieces => if isSep x then [] :: pieces else consPiece x pieces) [[]]

@[simp] theorem split_nil (isSep : α → Bool) : split isSep [] = [[]] := rfl

theorem split_cons (isSep : α → Bool) (x : α) (xs : List α) :
    split isSep (x :: xs) =
      if isSep x then [] :: split isSep xs else consPiece x (split isSep xs) := rfl

theorem consPiece_append {ps : List (List α)} (h : ps ≠ []) (x : α) (qs : List (List α)) :
    consPiece x (ps ++ qs) = consPiece x ps ++ qs := by
  cases ps with
  | nil => exact absurd rfl h
  | cons p ps => rfl

theorem split_ne_nil (isSep : α → Bool) (xs : List α) : split isSep xs ≠ [] := by
  cases xs with
  | nil => simp
  | cons x xs =>
    rw [split_cons]
    split
    · simp
    · cases split isSep xs <;> simp [consPiece]

/-- A list without separators is its only piece. -/
theorem split_of_forall_not {isSep : α → Bool} {xs : List α} (h : ∀ x ∈ xs, isSep x = false) :
    split isSep xs = [xs] := by
  induction xs with
  | nil => rfl
  | cons x xs ih =>
    have hx : isSep x = false := h x (by simp)
    simp [split_cons, hx, consPiece, ih fun y hy => h y (by simp [hy])]

/-- What is in a piece is in the list, and no separator. -/
theorem mem_of_mem_split {isSep : α → Bool} {xs piece : List α} {x : α}
    (hpiece : piece ∈ split isSep xs) (hx : x ∈ piece) : x ∈ xs ∧ isSep x = false := by
  induction xs generalizing piece with
  | nil => exact absurd (List.mem_singleton.mp hpiece ▸ hx) List.not_mem_nil
  | cons y ys ih =>
    rw [split_cons] at hpiece
    split at hpiece
    · rcases List.mem_cons.mp hpiece with rfl | hpiece
      · exact absurd hx List.not_mem_nil
      · exact (ih hpiece hx).imp_left (List.mem_cons_of_mem y)
    · rename_i hy
      obtain ⟨p, ps, hps⟩ := List.exists_cons_of_ne_nil (split_ne_nil isSep ys)
      rw [hps] at hpiece ih
      rcases List.mem_cons.mp hpiece with rfl | hpiece
      · rcases List.mem_cons.mp hx with rfl | hx
        · exact ⟨List.mem_cons_self, Bool.eq_false_iff.mpr hy⟩
        · exact (ih List.mem_cons_self hx).imp_left (List.mem_cons_of_mem y)
      · exact (ih (List.mem_cons_of_mem p hpiece) hx).imp_left (List.mem_cons_of_mem y)

/-- A separator ends the pieces before it and starts those after it. -/
theorem split_append_cons {isSep : α → Bool} {s : α} (hs : isSep s = true) (xs ys : List α) :
    split isSep (xs ++ s :: ys) = split isSep xs ++ split isSep ys := by
  induction xs with
  | nil => simp [split_cons, hs]
  | cons x xs ih =>
    rw [List.cons_append, split_cons, split_cons, ih]
    split
    · rfl
    · exact consPiece_append (split_ne_nil _ _) _ _

end BroadcastRelay
