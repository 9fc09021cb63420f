import BroadcastRelay.Media.Rewriter
import Mathlib.Data.List.Chain
import Mathlib.Tactic.Set
/-!
# Runs of a rewriter

A rewriter is given packets and, in between, changes of their source. `Input` is one of these,
`outputs` the stamps that are sent.

Once something was sent, the rewriter remembers the stamp and the offsets that gave it (`Sent`), and
this fixes the distance to the next stamp (`Sent.distance_rewrite`): one number and one gap if the
source has changed, the distance at the source otherwise. From this step follow the law of a run
(`distance_of_consecutive`), and that numbers which rise by one at the source go on without a jump
whatever its changes (`Sent.isChain_outputs`).
-/

namespace BroadcastRelay

namespace Stamp

/-- The distances from one stamp to another. -/
def distance (a b : Stamp) : UInt16 × UInt32 :=
  (b.sequence - a.sequence, b.timestamp - a.timestamp)

theorem distance_eq_iff {a b : Stamp} : a.distance b = (1, gap) ↔ b = a.next := by
  cases a
  cases b
  simp only [distance, next, Prod.mk.injEq, mk.injEq]
  refine and_congr ?_ ?_ <;> constructor <;> intro h <;> grind

end Stamp

namespace Rewriter

variable {r : Rewriter} {p a : Stamp}

/-! ## One packet -/

/-- A shift keeps distances. -/
theorem distance_shift (r : Rewriter) (a b : Stamp) :
    (r.shift a).distance (r.shift b) = a.distance b := by
  simp only [Stamp.distance, shift, Prod.mk.injEq]
  constructor <;> grind

/-- After a rewrite nothing is due, the stamp is remembered, and the offsets are those that gave
it. -/
theorem rewrite_fst (r : Rewriter) (s : Stamp) :
    (r.rewrite s).1.pending = false ∧ (r.rewrite s).1.last = some (r.rewrite s).2 ∧
      (r.rewrite s).1.shift s = (r.rewrite s).2 := by
  have hpending : (r.anchor s).pending = false := by
    unfold anchor
    split <;> rfl
  exact ⟨hpending, rfl, rfl⟩

/-- While nothing is due, a stamp is shifted by the offsets there are. -/
theorem rewrite_of_not_pending {r : Rewriter} (h : r.pending = false) (s : Stamp) :
    (r.rewrite s).2 = r.shift s := by
  simp [rewrite, anchor, h, shift]

theorem rewrite_of_pending {r : Rewriter} (h : r.pending = true) (hlast : r.last = some a)
    (s : Stamp) : (r.rewrite s).2 = a.next := by
  have hself : r.resync = r := by
    rw [resync, ← h]
  exact hself ▸ rewrite_resync hlast s

/-- The stamp `a` was sent last, for a packet with the stamp `p`. -/
structure Sent (r : Rewriter) (p a : Stamp) : Prop where
  /-- It is remembered. -/
  last_eq : r.last = some a
  /-- The offsets are those that gave it. -/
  shift_eq : r.shift p = a

theorem sent_rewrite (r : Rewriter) (p : Stamp) : (r.rewrite p).1.Sent p (r.rewrite p).2 :=
  ⟨(r.rewrite_fst p).2.1, (r.rewrite_fst p).2.2⟩

theorem Sent.resync (h : r.Sent p a) : r.resync.Sent p a := ⟨h.last_eq, h.shift_eq⟩

/-- One packet more is as far from the last one as at the source, or next to it if the offsets were
to be chosen anew. -/
theorem Sent.distance_rewrite (h : r.Sent p a) (q : Stamp) :
    a.distance (r.rewrite q).2 = if r.pending then (1, Stamp.gap) else p.distance q := by
  cases hpending : r.pending with
  | true =>
    rw [rewrite_of_pending hpending h.last_eq, if_pos rfl]
    exact Stamp.distance_eq_iff.mpr rfl
  | false =>
    rw [rewrite_of_not_pending hpending, ← h.shift_eq, if_neg Bool.false_ne_true]
    exact distance_shift r p q

/-- Two stamps rewritten one after the other, with a resynchronisation in between or without. -/
theorem next_rewrite (w : Rewriter) (a c : Stamp) :
    ((w.rewrite a).1.resync.rewrite c).2 = (w.rewrite a).2.next ∧
      (w.rewrite a).2.distance ((w.rewrite a).1.rewrite c).2 = a.distance c := by
  have hsent := w.sent_rewrite a
  refine ⟨rewrite_resync hsent.last_eq c, ?_⟩
  rw [hsent.distance_rewrite c, (w.rewrite_fst a).1, if_neg Bool.false_ne_true]

/-- As long as nothing was sent, stamps pass unchanged. -/
theorem rewrite_of_last_eq_none (h : r.last = none) (s : Stamp) : (r.rewrite s).2 = r.shift s := by
  simp [rewrite, anchor, h, shift]

/-! ## Runs -/

/-- What a rewriter is given. -/
inductive Input where
  /-- A packet with this stamp. -/
  | packet (s : Stamp)
  /-- The source changes. -/
  | resync
deriving DecidableEq, Repr

variable {inputs more : List Input}

/-- The rewriter after one input. -/
def step (r : Rewriter) : Input → Rewriter
  | .packet s => (r.rewrite s).1
  | .resync => r.resync

/-- The rewriter after a list of inputs. -/
def after (r : Rewriter) (inputs : List Input) : Rewriter := inputs.foldl step r

/-- The stamps sent for a list of inputs. -/
def outputs (r : Rewriter) : List Input → List Stamp
  | [] => []
  | .packet s :: inputs => (r.rewrite s).2 :: (r.rewrite s).1.outputs inputs
  | .resync :: inputs => r.resync.outputs inputs

theorem outputs_append (r : Rewriter) (inputs more : List Input) :
    r.outputs (inputs ++ more) = r.outputs inputs ++ (r.after inputs).outputs more := by
  induction inputs generalizing r with
  | nil => rfl
  | cons i inputs ih =>
    cases i with
    | packet s => exact congrArg ((r.rewrite s).2 :: ·) (ih (r.rewrite s).1)
    | resync => exact ih r.resync

/-- Several resynchronisations are as good as one. -/
theorem after_resyncs (r : Rewriter) {resyncs : List Input} (h : ∀ i ∈ resyncs, i = .resync) :
    r.after resyncs = if resyncs = [] then r else r.resync := by
  induction resyncs generalizing r with
  | nil => rfl
  | cons i resyncs ih =>
    obtain ⟨rfl, hrest⟩ := List.forall_mem_cons.mp h
    have hself : r.resync.resync = r.resync := rfl
    rw [if_neg (List.cons_ne_nil _ _)]
    exact (ih r.resync hrest).trans (by rw [hself, ite_self])

theorem outputs_resyncs (r : Rewriter) {resyncs : List Input} (h : ∀ i ∈ resyncs, i = .resync) :
    r.outputs resyncs = [] := by
  induction resyncs generalizing r with
  | nil => rfl
  | cons i resyncs ih =>
    obtain ⟨rfl, hrest⟩ := List.forall_mem_cons.mp h
    exact ih r.resync hrest

/-- The first packet passes unchanged, even after a resynchronisation. -/
theorem head?_outputs_fresh {resyncs : List Input} (h : ∀ i ∈ resyncs, i = .resync) (p : Stamp)
    (later : List Input) : (fresh.outputs (resyncs ++ .packet p :: later)).head? = some p := by
  rw [outputs_append, outputs_resyncs fresh h, after_resyncs fresh h]
  have hshift : fresh.shift p = p := by simp [shift, fresh]
  split
  · exact congrArg some ((rewrite_of_last_eq_none rfl p).trans hshift)
  · exact congrArg some ((rewrite_of_last_eq_none rfl p).trans hshift)

/-- Two packets one after the other, among others. -/
theorem outputs_consecutive (r : Rewriter) (before later : List Input) (p q : Stamp)
    {resyncs : List Input} (h : ∀ i ∈ resyncs, i = .resync) :
    ∃ a b rest, r.outputs (before ++ .packet p :: (resyncs ++ .packet q :: later)) =
        r.outputs before ++ a :: b :: rest ∧
      a.distance b = if resyncs = [] then p.distance q else (1, Stamp.gap) := by
  have hsent := (r.after before).sent_rewrite p
  have hpending := ((r.after before).rewrite_fst p).1
  set a := ((r.after before).rewrite p).2
  set w := ((r.after before).rewrite p).1
  refine ⟨a, ((w.after resyncs).rewrite q).2, ((w.after resyncs).rewrite q).1.outputs later, ?_, ?_⟩
  · rw [outputs_append, outputs, outputs_append, outputs_resyncs _ h, outputs, List.nil_append]
  · rw [after_resyncs w h]
    split
    · rw [hsent.distance_rewrite q, hpending, if_neg Bool.false_ne_true]
    · exact hsent.resync.distance_rewrite q

/-! ## Numbers without a jump -/

/-- The sequence number rises by one from a packet to another one that comes directly after it. -/
def Rises : Input → Input → Prop
  | .packet p, .packet q => q.sequence = p.sequence + 1
  | _, _ => True

/-- The second stamp has the sequence number after that of the first; zero comes after the
greatest. -/
def Follows (a b : Stamp) : Prop := b.sequence = a.sequence + 1

theorem sequence_eq_of_distance {a b : Stamp} {d : UInt16 × UInt32} (h : a.distance b = d) :
    b.sequence = a.sequence + d.1 := by
  rw [← h, Stamp.distance, UInt16.add_comm, UInt16.sub_add_cancel]

/-- After a packet, whether the source changes or goes on. -/
theorem Sent.isChain_outputs (h : r.Sent p a) (hrises : inputs.IsChain Rises)
    (hnext : r.pending = false → (.packet p :: inputs).IsChain Rises) :
    (a :: r.outputs inputs).IsChain Follows := by
  induction inputs generalizing r p a with
  | nil => exact List.isChain_singleton a
  | cons i inputs ih =>
    have hrest : inputs.IsChain Rises := hrises.tail
    cases i with
    | resync => exact ih h.resync hrest fun hpending => absurd hpending Bool.noConfusion
    | packet q =>
      refine List.isChain_cons_cons.mpr ⟨?_, ih (r.sent_rewrite q) hrest fun _ => hrises⟩
      have hdistance := sequence_eq_of_distance (h.distance_rewrite q)
      cases hpending : r.pending with
      | true =>
        rw [hpending, if_pos rfl] at hdistance
        exact hdistance
      | false =>
        have hq : q.sequence = p.sequence + 1 := (List.isChain_cons_cons.mp (hnext hpending)).1
        rw [hpending, if_neg Bool.false_ne_true] at hdistance
        rw [Follows, hdistance, Stamp.distance, hq]
        grind

/-- Nothing was sent yet. -/
theorem isChain_outputs_of_last_eq_none (h : r.last = none) (hrises : inputs.IsChain Rises) :
    (r.outputs inputs).IsChain Follows := by
  induction inputs generalizing r with
  | nil => exact List.isChain_nil
  | cons i inputs ih =>
    cases i with
    | resync => exact ih h hrises.tail
    | packet q => exact (r.sent_rewrite q).isChain_outputs hrises.tail fun _ => hrises

/-! ## The law -/

/-- Of any packets and resynchronisations, the first packet passes unchanged. From a packet to the
next one the distances are those of the source, or one number and one gap if there were
resynchronisations in between. So if the numbers of the source rise by one wherever there was none,
the numbers sent go on without a jump. -/
theorem distance_of_consecutive (inputs : List Input) :
    (∀ resyncs p later, inputs = resyncs ++ .packet p :: later → (∀ i ∈ resyncs, i = .resync) →
      (fresh.outputs inputs).head? = some p) ∧
    (∀ before p resyncs q later,
      inputs = before ++ .packet p :: (resyncs ++ .packet q :: later) →
      (∀ i ∈ resyncs, i = .resync) →
        ∃ a b rest, fresh.outputs inputs = fresh.outputs before ++ a :: b :: rest ∧
          a.distance b = if resyncs = [] then p.distance q else (1, 3000)) ∧
    (inputs.IsChain Rises →
      (fresh.outputs inputs).IsChain fun a b => b.sequence = a.sequence + 1) := by
  refine ⟨?_, ?_, isChain_outputs_of_last_eq_none rfl⟩
  · rintro resyncs p later rfl hresyncs
    exact head?_outputs_fresh hresyncs p later
  · rintro before p resyncs q later rfl hresyncs
    exact outputs_consecutive fresh before later p q hresyncs

/-- Two changes of the source with no packet in between, at the end of the range of numbers. -/
theorem distance_of_consecutive_wrapping :
    ∃ a b rest, fresh.outputs [.packet ⟨65535, 9000⟩, .resync, .resync, .packet ⟨7, 0⟩] =
      [] ++ a :: b :: rest ∧ a.distance b = (1, 3000) :=
  (distance_of_consecutive _).2.1 [] ⟨65535, 9000⟩ [.resync, .resync] ⟨7, 0⟩ [] rfl (by simp)

end Rewriter

end BroadcastRelay
