import BroadcastRelay.Media.Broadcast
import Mathlib.Data.List.Induction
/-!
# A publisher that leaves while another one comes

To take a publisher off air is two steps, and to put one on air is two steps as well: first the slot
and then the encodings. A `Changeover` is a broadcast that one publisher is about to leave and
another one about to come to, with how far either has come. The steps of both, and the encodings
added for the new one, are `Turn`s, so a list of turns is one interleaving.

Whether the slot is still that of the publisher that leaves is asked in its first step, and its
second step forgets the encodings whoever is in the slot by then. That wipe is all that can be lost:
an encoding of the new publisher is listed exactly if it has been added since (`layers_of_arrival`).
It can come at any time, so the encodings of a new publisher can get lost (`departure_wipes`).
-/

namespace BroadcastRelay

/-- An element of a list with one more at the end is that one, or was there before. -/
theorem append_singleton_eq_append_cons {α : Type} {xs pre post : List α} {x y : α} :
    xs ++ [x] = pre ++ y :: post ↔
      xs = pre ∧ x = y ∧ post = [] ∨ ∃ rest, post = rest ++ [x] ∧ xs = pre ++ y :: rest := by
  constructor
  · intro h
    rcases List.eq_nil_or_concat post with rfl | ⟨rest, z, rfl⟩
    · obtain ⟨hxs, hlast⟩ := List.append_inj' h rfl
      exact Or.inl ⟨hxs, List.singleton_inj.mp hlast, rfl⟩
    · rw [List.concat_eq_append, ← List.cons_append, ← List.append_assoc] at h
      obtain ⟨hxs, hlast⟩ := List.append_inj' h rfl
      obtain rfl := List.singleton_inj.mp hlast
      exact Or.inr ⟨rest, List.concat_eq_append, hxs⟩
  · rintro (⟨rfl, rfl, rfl⟩ | ⟨rest, rfl, rfl⟩)
    · rfl
    · rw [← List.cons_append, List.append_assoc]

/-- How far a call has come that is made of two steps. -/
inductive Phase where
  /-- Neither step has been done. -/
  | pending
  /-- The slot has been changed, the encodings have not. -/
  | halfway
  /-- Nothing is left to do. -/
  | finished
deriving DecidableEq, Repr

/-- A broadcast that one publisher leaves and another one comes to. -/
structure Changeover where
  /-- The id of the publisher that leaves. -/
  leaving : String
  /-- The publisher that comes. -/
  coming : Publisher
  /-- The broadcast. -/
  broadcast : Broadcast
  /-- How far the one has come with leaving. -/
  departure : Phase
  /-- How far the other has come with coming. -/
  arrival : Phase
deriving DecidableEq, Repr

namespace Changeover

/-- Whose turn it is. -/
inductive Turn where
  /-- The publisher that leaves does its next step. -/
  | leave
  /-- The publisher that comes does its next step. -/
  | arrive
  /-- An encoding is added for the publisher that has come. -/
  | add (rid : String) (ssrc : UInt32)
deriving DecidableEq, Repr

/-- What a turn does to the encodings of the new publisher. -/
inductive Event where
  /-- One is added. -/
  | added (l : VideoLayer)
  /-- The publisher that leaves forgets them all. -/
  | wiped
deriving DecidableEq, Repr

/-- Neither publisher has done anything. -/
def start (leaving : String) (coming : Publisher) (b : Broadcast) : Changeover :=
  ⟨leaving, coming, b, .pending, .pending⟩

/-- One turn. Encodings are added only for a publisher that has come. -/
def step (c : Changeover) : Turn → Changeover × Option Event
  | .leave =>
    match c.departure with
    | .pending =>
      if c.broadcast.isOnAir c.leaving then
        ({ c with broadcast := c.broadcast.takePublisher, departure := .halfway }, none)
      else ({ c with departure := .finished }, none)
    | .halfway =>
      ({ c with broadcast := c.broadcast.clearLayers, departure := .finished }, some .wiped)
    | .finished => (c, none)
  | .arrive =>
    match c.arrival with
    | .pending =>
      ({ c with broadcast := c.broadcast.putPublisher c.coming, arrival := .halfway }, none)
    | .halfway => ({ c with broadcast := c.broadcast.clearMedia, arrival := .finished }, none)
    | .finished => (c, none)
  | .add rid ssrc =>
    match c.arrival with
    | .finished =>
      let (b, l) := c.broadcast.addLayer rid ssrc
      ({ c with broadcast := b }, some (.added l))
    | _ => (c, none)

/-- The changeover after a list of turns. -/
def after (c : Changeover) (turns : List Turn) : Changeover :=
  turns.foldl (fun c t => (c.step t).1) c

/-- The events of a list of turns. -/
def events (c : Changeover) : List Turn → List Event
  | [] => []
  | t :: turns => (c.step t).2.toList ++ (c.step t).1.events turns

variable {c : Changeover} {es : List Event} {id rid : String} {p : Publisher} {b : Broadcast}

theorem after_concat (c : Changeover) (turns : List Turn) (t : Turn) :
    c.after (turns ++ [t]) = ((c.after turns).step t).1 := by
  simp only [after, List.foldl_append, List.foldl_cons, List.foldl_nil]

theorem events_concat (c : Changeover) (turns : List Turn) (t : Turn) :
    c.events (turns ++ [t]) = c.events turns ++ ((c.after turns).step t).2.toList := by
  induction turns generalizing c with
  | nil => simp [events, after]
  | cons u turns ih => simp only [List.cons_append, events, ih, List.append_assoc, after,
      List.foldl_cons]

/-- A publisher that leaves alone: two turns are all that it does. -/
theorem after_leave (id : String) (p : Publisher) (b : Broadcast) :
    ((start id p b).after [.leave, .leave]).broadcast = (b.clearPublisher id).1 := by
  cases h : b.isOnAir id <;>
    simp [after, start, step, Broadcast.clearPublisher, h]

/-- A publisher that comes alone: two turns are all that it does. -/
theorem after_arrive (id : String) (p : Publisher) (b : Broadcast) :
    ((start id p b).after [.arrive, .arrive]).broadcast = (b.replacePublisher p).1 := rfl

/-! ## What is listed -/

/-- The list of encodings after an event. -/
def record (ls : List VideoLayer) : Event → List VideoLayer
  | .added l => ls.filter (·.rid ≠ l.rid) ++ [l]
  | .wiped => []

/-- The encodings that events leave listed. -/
def listed (es : List Event) : List VideoLayer := es.foldl record []

theorem listed_concat (es : List Event) (e : Event) :
    listed (es ++ [e]) = record (listed es) e := by
  simp only [listed, List.foldl_append, List.foldl_cons, List.foldl_nil]

/-- Nothing is listed that has not been added. -/
theorem added_of_mem_listed {l : VideoLayer} (h : l ∈ listed es) : .added l ∈ es := by
  induction es using List.reverseRecOn with
  | nil => simp [listed] at h
  | append_singleton es e ih =>
    rw [listed_concat] at h
    cases e with
    | added m =>
      rcases List.mem_append.mp h with h | h
      · exact List.mem_append_left _ (ih (List.mem_filter.mp h).1)
      · rw [List.mem_singleton.mp h]
        exact List.mem_append_right _ List.mem_cons_self
    | wiped => simp [record] at h

/-- The encoding has been added and nothing has been wiped since. -/
def Lasting (rid : String) (es : List Event) : Prop :=
  ∃ pre l post, es = pre ++ .added l :: post ∧ l.rid = rid ∧ .wiped ∉ post

theorem lasting_concat {e : Event} : Lasting rid (es ++ [e]) ↔
    (∃ l, e = .added l ∧ l.rid = rid) ∨ e ≠ .wiped ∧ Lasting rid es := by
  constructor
  · rintro ⟨pre, l, post, heq, hrid, hpost⟩
    rcases append_singleton_eq_append_cons.mp heq with ⟨-, rfl, -⟩ | ⟨rest, rfl, hes⟩
    · exact Or.inl ⟨l, rfl, hrid⟩
    · rw [List.mem_append, List.mem_singleton, not_or] at hpost
      exact Or.inr ⟨Ne.symm hpost.2, pre, l, rest, hes, hrid, hpost.1⟩
  · rintro (⟨l, rfl, hrid⟩ | ⟨hne, pre, l, post, rfl, hrid, hpost⟩)
    · exact ⟨es, l, [], rfl, hrid, by simp⟩
    · exact ⟨pre, l, post ++ [e], by simp, hrid, by simpa [hpost] using Ne.symm hne⟩

/-- What is listed is what lasts. -/
theorem exists_mem_listed_iff : (∃ l ∈ listed es, l.rid = rid) ↔ Lasting rid es := by
  induction es using List.reverseRecOn with
  | nil => simp [listed, Lasting]
  | append_singleton es e ih =>
    rw [listed_concat, lasting_concat]
    cases e with
    | added m =>
      by_cases hm : m.rid = rid
      · simp [record, hm]
      · have hkept : (∃ l ∈ listed es, l.rid ≠ m.rid ∧ l.rid = rid) ↔
            ∃ l ∈ listed es, l.rid = rid := by
          refine exists_congr fun l => and_congr_right fun _ => and_iff_right_of_imp ?_
          rintro rfl
          exact Ne.symm hm
        simpa [record, hm, and_assoc, ← ih] using hkept
    | wiped => simp [record]

theorem lasting_of_added {l : VideoLayer} (h : .added l ∈ es) (hno : .wiped ∉ es) :
    Lasting l.rid es := by
  obtain ⟨pre, post, rfl⟩ := List.append_of_mem h
  exact ⟨pre, l, post, rfl, rfl, fun hpost => hno (by simp [hpost])⟩

/-- A wipe leaves only what is added after it. -/
theorem lasting_append_wiped {pre post : List Event} :
    Lasting rid (pre ++ .wiped :: post) ↔ Lasting rid post := by
  induction post using List.reverseRecOn with
  | nil =>
    rw [lasting_concat]
    simp [Lasting]
  | append_singleton post e ih =>
    rw [← List.cons_append, ← List.append_assoc, lasting_concat, lasting_concat, ih]

/-- Everything that has been added lasts exactly if what a wipe takes is added again. -/
theorem forall_lasting_iff : (∀ l, .added l ∈ es → Lasting l.rid es) ↔
    ∀ pre post, es = pre ++ .wiped :: post → ∀ l, .added l ∈ pre →
      ∃ m, .added m ∈ post ∧ m.rid = l.rid := by
  constructor
  · rintro h pre post rfl l hl
    obtain ⟨mid, m, rest, rfl, hrid, -⟩ :=
      lasting_append_wiped.mp (h l (List.mem_append_left _ hl))
    exact ⟨m, by simp, hrid⟩
  · intro h l hl
    by_cases hwiped : .wiped ∈ es
    · obtain ⟨post, pre, heq, hpost⟩ := List.eq_append_cons_of_mem (List.mem_reverse.mpr hwiped)
      have heq : es = pre.reverse ++ .wiped :: post.reverse := by
        rw [← List.reverse_reverse es, heq]
        simp
      have hpost : .wiped ∉ post.reverse := fun hmem => hpost (List.mem_reverse.mp hmem)
      rw [heq] at hl ⊢
      rw [lasting_append_wiped]
      rcases List.mem_append.mp hl with hl | hl
      · obtain ⟨m, hm, hrid⟩ := h _ _ heq l hl
        exact hrid ▸ lasting_of_added hm hpost
      · exact lasting_of_added ((List.mem_cons.mp hl).resolve_left (by simp)) hpost
    · exact lasting_of_added hl hwiped

/-! ## Runs -/

/-- What the events say of the broadcast: encodings are added only for a publisher that has come,
and from then on the list is what the events make of it. -/
structure Tracks (es : List Event) (c : Changeover) : Prop where
  not_added : c.arrival ≠ .finished → ∀ l, .added l ∉ es
  layers_eq : c.arrival = .finished → c.broadcast.layers = listed es

theorem tracks_start (id : String) (p : Publisher) (b : Broadcast) : Tracks [] (start id p b) where
  not_added _ _ := List.not_mem_nil
  layers_eq h := absurd h (by simp [start])

theorem listed_eq_nil (h : ∀ l, .added l ∉ es) : listed es = [] :=
  List.eq_nil_iff_forall_not_mem.mpr fun l hl => h l (added_of_mem_listed hl)

namespace Tracks

variable {d : Changeover}

/-- A turn that does nothing to the encodings. -/
theorem same (h : Tracks es c) (harrival : d.arrival = c.arrival)
    (hlayers : d.broadcast.layers = c.broadcast.layers) : Tracks es d where
  not_added ha := h.not_added (harrival ▸ ha)
  layers_eq ha := hlayers.trans (h.layers_eq (harrival ▸ ha))

theorem leave (h : Tracks es c) :
    Tracks (es ++ (c.step .leave).2.toList) (c.step .leave).1 := by
  cases hd : c.departure with
  | pending =>
    simp only [Changeover.step, hd]
    split
    all_goals
      rw [Option.toList_none, List.append_nil]
      exact h.same rfl rfl
  | halfway =>
    simp only [Changeover.step, hd]
    refine ⟨fun harrival l hl => h.not_added harrival l ?_, fun _ => ?_⟩
    · simpa using hl
    · exact (listed_concat es .wiped).symm
  | finished =>
    simp only [Changeover.step, hd, Option.toList_none, List.append_nil]
    exact h

theorem arrive (h : Tracks es c) :
    Tracks (es ++ (c.step .arrive).2.toList) (c.step .arrive).1 := by
  cases ha : c.arrival with
  | pending =>
    have hno := h.not_added (by simp [ha])
    simp only [Changeover.step, ha, Option.toList_none, List.append_nil]
    exact ⟨fun _ => hno, fun hfinished => absurd hfinished (by simp)⟩
  | halfway =>
    have hno := h.not_added (by simp [ha])
    simp only [Changeover.step, ha, Option.toList_none, List.append_nil]
    exact ⟨fun _ => hno, fun _ => (listed_eq_nil hno).symm⟩
  | finished =>
    simp only [Changeover.step, ha, Option.toList_none, List.append_nil]
    exact h

theorem add (h : Tracks es c) (rid : String) (ssrc : UInt32) :
    Tracks (es ++ (c.step (.add rid ssrc)).2.toList) (c.step (.add rid ssrc)).1 := by
  cases ha : c.arrival with
  | finished =>
    simp only [Changeover.step, ha]
    refine ⟨fun hno => absurd rfl hno, fun _ => ?_⟩
    rw [Option.toList_some, listed_concat, ← h.layers_eq ha]
    rfl
  | pending | halfway =>
    simp only [Changeover.step, ha, Option.toList_none, List.append_nil]
    exact h

/-- Each turn adds its event. -/
theorem step (h : Tracks es c) (t : Turn) :
    Tracks (es ++ (c.step t).2.toList) (c.step t).1 := by
  cases t with
  | leave => exact h.leave
  | arrive => exact h.arrive
  | add rid ssrc => exact h.add rid ssrc

end Tracks

theorem tracks_after (id : String) (p : Publisher) (b : Broadcast) (turns : List Turn) :
    Tracks ((start id p b).events turns) ((start id p b).after turns) := by
  induction turns using List.reverseRecOn with
  | nil => exact tracks_start id p b
  | append_singleton turns t ih =>
    rw [events_concat, after_concat]
    exact ih.step t

/-- Once the new publisher has come, every encoding listed has been added for it, and an encoding is
listed exactly if it has been added and the publisher that leaves has not wiped the list since. So
nothing is missing exactly if what the wipe takes is added again. -/
theorem layers_of_arrival (id : String) (p : Publisher) (b : Broadcast) (turns : List Turn)
    (hcome : ((start id p b).after turns).arrival = .finished) :
    let c := (start id p b).after turns
    let es := (start id p b).events turns
    (∀ l ∈ c.broadcast.layers, .added l ∈ es) ∧
      (∀ rid, c.broadcast.hasLayer rid = true ↔
        ∃ pre l post, es = pre ++ .added l :: post ∧ l.rid = rid ∧ .wiped ∉ post) ∧
      ((∀ l, .added l ∈ es → c.broadcast.hasLayer l.rid = true) ↔
        ∀ pre post, es = pre ++ .wiped :: post → ∀ l, .added l ∈ pre →
          ∃ m, .added m ∈ post ∧ m.rid = l.rid) := by
  intro c es
  have hlayers : c.broadcast.layers = listed es := (tracks_after id p b turns).layers_eq hcome
  have hlisted : ∀ rid, c.broadcast.hasLayer rid = true ↔ Lasting rid es := fun rid => by
    rw [← exists_mem_listed_iff, ← hlayers, Broadcast.hasLayer, List.any_eq_true]
    simp only [beq_iff_eq]
  refine ⟨fun l hl => added_of_mem_listed (hlayers ▸ hl), hlisted, ?_⟩
  simp only [hlisted]
  exact forall_lasting_iff

/-- A publisher that has left before the other one comes takes nothing from it. -/
theorem layers_of_arrival_after_departure :
    ((start "a" ⟨"b", 1⟩ ⟨"live", 0, 0, [], 0, none, none, some ⟨"a", 0⟩⟩).after
      [.leave, .leave, .arrive, .arrive, .add "h" 2]).broadcast.hasLayer "h" = true :=
  ((layers_of_arrival "a" ⟨"b", 1⟩ ⟨"live", 0, 0, [], 0, none, none, some ⟨"a", 0⟩⟩
    [.leave, .leave, .arrive, .arrive, .add "h" 2] rfl).2.1 "h").mpr
      ⟨[.wiped], ⟨"h", 2, 0, 0⟩, [], rfl, rfl, by simp⟩

/-- The publisher that leaves takes itself out of the slot, the other one comes and adds an
encoding, and only then does the first one forget the encodings, which are no longer its own. -/
theorem departure_wipes : ¬ ∀ (id : String) (p : Publisher) (b : Broadcast) (turns : List Turn),
    id ≠ p.id → b.isOnAir id = true →
    ((start id p b).after turns).departure = .finished →
    ((start id p b).after turns).arrival = .finished →
    ((start id p b).after turns).broadcast.publisher = some p →
      (∀ l, .added l ∈ (start id p b).events turns →
        ((start id p b).after turns).broadcast.hasLayer l.rid = true) ∧
      ∀ l ∈ ((start id p b).after turns).broadcast.layers,
        .added l ∈ (start id p b).events turns := by
  intro h
  have hlisted := (h "a" ⟨"b", 1⟩ ⟨"live", 0, 0, [], 0, none, none, some ⟨"a", 0⟩⟩
    [.leave, .arrive, .arrive, .add "h" 2, .leave] (by decide) rfl rfl rfl rfl).1
    ⟨"h", 2, 0, 0⟩ (by decide)
  exact absurd hlisted (by decide)

end Changeover

end BroadcastRelay
