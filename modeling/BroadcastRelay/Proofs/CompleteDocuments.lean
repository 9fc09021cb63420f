import BroadcastRelay.Json.Document
import Mathlib.Tactic.SplitIfs
/-!
# Documents without a fault

A text that goes wrong half-way still gives a document, with everything before the fault in it. The
fault breaks the ending of each list and map around it, so the outermost ending is all that one has
to look at (`Document.isWhole`). That rests on how a document is put together: what lies in an open
list or map has been finished, and is without a fault itself (`Assembly.Sound`). So the document of a
text is whole as seen from outside exactly if it is `Complete`, down to the innermost values
(`Json.complete_assemble_iff`).
-/

namespace BroadcastRelay

/-- No part of the document is missing. -/
inductive Document.Complete : Document → Prop
  | null : Complete null
  | bool (b : Bool) : Complete (bool b)
  | unsigned (n : Nat) : Complete (unsigned n)
  | negative (n : Nat) : Complete (negative n)
  | float (text : String) : Complete (float text)
  | str (s : String) : Complete (str s)
  | unusable : Complete unusable
  | list {items : List Document} (h : ∀ d ∈ items, Complete d) : Complete (list items .closed)
  | map {members : List (Option String × Document)} (h : ∀ m ∈ members, Complete m.2) :
      Complete (map members .closed)

theorem Document.Complete.isWhole {d : Document} (h : d.Complete) : d.isWhole = true := by
  cases h <;> rfl

namespace Json

theorem Number.complete_document (n : Number) : n.document.Complete := by
  unfold document
  cases n.float? <;> dsimp only <;> split_ifs <;> constructor

/-- What an open list or map holds is complete. -/
def Frame.Sound : Frame → Prop
  | list items => ∀ d ∈ items, d.Complete
  | map members _ => ∀ m ∈ members, m.2.Complete

namespace Assembly

/-- What has been put together is complete, unless it was given up. -/
def Sound : Assembly → Prop
  | pending _ fs => ∀ f ∈ fs, f.Sound
  | complete d => d.Complete
  | trailing d => d.Complete
  | abandoned d => d.isWhole = false

variable {d : Document} {f : Frame} {fs : List Frame}

/-! ## Breaking off -/

theorem isWhole_brokenAt (h : d.isWhole = false) (fs : List Frame) :
    (brokenAt d fs).isWhole = false := by
  induction fs generalizing d with
  | nil => exact h
  | cons f fs ih => exact ih (by cases f <;> rfl)

theorem isWhole_brokenOff (fs : List Frame) : (brokenOff fs).isWhole = false := by
  cases fs with
  | nil => rfl
  | cons f fs => exact isWhole_brokenAt (by cases f <;> rfl) fs

/-! ## Going on -/

theorem sound_push (hd : d.Complete) (hf : f.Sound) : (f.push d).Sound := by
  cases f with
  | list items => exact List.forall_mem_cons.mpr ⟨hd, hf⟩
  | map members name => exact List.forall_mem_cons.mpr ⟨hd, hf⟩

theorem complete_close (hf : f.Sound) : (f.close .closed).Complete := by
  cases f with
  | list items => exact .list fun d hd => hf d (List.mem_reverse.mp hd)
  | map members name => exact .map fun m hm => hf m (List.mem_reverse.mp hm)

theorem sound_settle (hd : d.Complete) (hfs : ∀ f ∈ fs, f.Sound) : (settle d fs).Sound := by
  cases fs with
  | nil => exact hd
  | cons f fs =>
    obtain ⟨hf, hfs⟩ := List.forall_mem_cons.mp hfs
    exact List.forall_mem_cons.mpr ⟨sound_push hd hf, hfs⟩

theorem sound_start (hfs : ∀ f ∈ fs, f.Sound) (t : Token) : (start fs t).Sound := by
  have hopen : ∀ f : Frame, f.Sound → ∀ f' ∈ f :: fs, f'.Sound :=
    fun f hf => List.forall_mem_cons.mpr ⟨hf, hfs⟩
  cases t with
  | listOpen => exact hopen (.list []) fun _ hd => absurd hd List.not_mem_nil
  | mapOpen => exact hopen (.map [] none) fun _ hm => absurd hm List.not_mem_nil
  | null => exact sound_settle .null hfs
  | bool b => exact sound_settle (.bool b) hfs
  | number n => exact sound_settle n.complete_document hfs
  | string raw =>
    rw [start]
    split
    · exact sound_settle (.str _) hfs
    · exact sound_settle .unusable hfs
  | listClose | mapClose | comma | colon | fault => exact isWhole_brokenAt rfl fs

theorem sound_startName (hfs : ∀ f ∈ fs, f.Sound) (t : Token) : (startName fs t).Sound := by
  unfold startName
  split
  · split
    · obtain ⟨hf, hfs⟩ := List.forall_mem_cons.mp hfs
      exact List.forall_mem_cons.mpr ⟨hf, hfs⟩
    · exact isWhole_brokenOff _
  · exact isWhole_brokenOff _

theorem sound_separate (hfs : ∀ f ∈ fs, f.Sound) (t : Token) : (separate fs t).Sound := by
  unfold separate
  split
  · exact hfs
  · obtain ⟨hf, hfs⟩ := List.forall_mem_cons.mp hfs
    exact sound_settle (complete_close hf) hfs
  · obtain ⟨hf, hfs⟩ := List.forall_mem_cons.mp hfs
    exact List.forall_mem_cons.mpr ⟨hf, hfs⟩
  · obtain ⟨hf, hfs⟩ := List.forall_mem_cons.mp hfs
    exact sound_settle (complete_close hf) hfs
  · exact isWhole_brokenOff _

/-- A token more. -/
theorem Sound.step {a : Assembly} (h : a.Sound) (t : Token) : (a.step t).Sound := by
  cases a with
  | pending place fs =>
    cases place with
    | value => exact sound_start h t
    | firstItem =>
      unfold Assembly.step
      dsimp only
      split
      · exact sound_separate h _
      · exact sound_start h _
    | firstName =>
      unfold Assembly.step
      dsimp only
      split
      · exact sound_separate h _
      · exact sound_startName h _
    | nextName => exact sound_startName h t
    | colon =>
      unfold Assembly.step
      dsimp only
      split
      · exact h
      · exact isWhole_brokenAt rfl fs
    | separator => exact sound_separate h t
  | complete d => exact h
  | trailing d => exact h
  | abandoned d => exact h

theorem sound_foldl (ts : List Token) {a : Assembly} (h : a.Sound) :
    (ts.foldl Assembly.step a).Sound := by
  induction ts generalizing a with
  | nil => exact h
  | cons t ts ih => exact ih (h.step t)

/-- At the end of the text the document is complete or seen not to be. -/
theorem Sound.finish {a : Assembly} (h : a.Sound) :
    a.finish.1.Complete ∨ a.finish.1.isWhole = false := by
  cases a with
  | pending place fs =>
    right
    cases place with
    | value | firstItem | colon => exact isWhole_brokenAt rfl fs
    | firstName | nextName | separator => exact isWhole_brokenOff fs
  | complete d => exact Or.inl h
  | trailing d => exact Or.inl h
  | abandoned d => exact Or.inr h

end Assembly

/-- The outermost ending tells whether the document of a text is complete. -/
theorem complete_assemble_iff (bytes : Bytes) :
    (assemble bytes).1.Complete ↔ (assemble bytes).1.isWhole = true := by
  have hsound : ((tokens bytes).foldl Assembly.step (.pending .value [])).Sound :=
    Assembly.sound_foldl _ fun f hf => absurd hf List.not_mem_nil
  refine ⟨Document.Complete.isWhole, fun hwhole => ?_⟩
  rcases hsound.finish with h | h
  · exact h
  · exact absurd (hwhole.symm.trans h) (by simp)

end Json

end BroadcastRelay
