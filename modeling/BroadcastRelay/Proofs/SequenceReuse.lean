import BroadcastRelay.Proofs.Rewriting
import BroadcastRelay.Text.Split
import Mathlib.Algebra.GroupWithZero.Nat
import Mathlib.Data.List.Nodup
/-!
# Sequence numbers that are used again

The packets of a source may arrive in any order and with gaps, and each new segment of them starts
right after the packet that was sent last, which need not be the one with the highest number.
`places` puts the segments on a line in that way, and the sequence numbers sent are the places
modulo 2^16 (`sequences_outputs`).

As long as the spans of the segments do not exceed the range of sequence numbers together, all
places lie in one window of that size (`exists_window`), so a number is used again exactly if a
place is (`sequences_nodup_iff`). No place is if at every change of source the last packet before it
has the highest number of its segment and the first one after it the lowest (`nodup_placesFrom`).
But one packet that arrives late just before the change is enough to have a number used again
(`late_packet_reuses_number`).
-/

namespace BroadcastRelay.Rewriter

/-! ## Segments -/

/-- The sequence numbers of the packets between the resynchronisations, as they arrived. -/
def segments : List Input → List (List Nat)
  | [] => [[]]
  | .packet s :: inputs => consPiece s.sequence.toNat (segments inputs)
  | .resync :: inputs => [] :: segments inputs

/-- How many numbers there are from the lowest of a segment to the highest. -/
def span (segment : List Nat) : Nat :=
  match segment.min?, segment.max? with
  | some low, some high => high - low + 1
  | _, _ => 0

/-- Where the source changes from one segment to another one, the last packet of the one has its
highest number, and the first packet of the other one its lowest. -/
def Meets (segment next : List Nat) : Prop :=
  segment ≠ [] → next ≠ [] →
    (∀ x ∈ segment, x ≤ segment.getLastD 0) ∧ ∀ y ∈ next, next.headD 0 ≤ y

instance (segment next : List Nat) : Decidable (Meets segment next) :=
  inferInstanceAs (Decidable (segment ≠ [] → next ≠ [] →
    (∀ x ∈ segment, x ≤ segment.getLastD 0) ∧ ∀ y ∈ next, next.headD 0 ≤ y))

/-! ## Places -/

/-- The places of the packets of segments, the first of which has the place `n`. A segment keeps its
distances, and the next one starts at the place after its last packet. -/
def placesFrom (n : Int) : List (List Nat) → List Int
  | [] => []
  | [] :: segments => placesFrom n segments
  | (first :: rest) :: segments =>
    (first :: rest).map (fun x : Nat => n + (x - first)) ++
      placesFrom (n + (rest.getLastD first - first) + 1) segments

/-- The places of the packets of segments; the first segment is at its own numbers. -/
def places (segments : List (List Nat)) : List Int :=
  placesFrom (segments.flatten.headD 0) segments

/-- The places after a packet with the number `p` at the place `z`, the first segment being what is
left of its own. -/
def placesAfter (p : Nat) (z : Int) : List (List Nat) → List Int
  | [] => []
  | rest :: segments =>
    rest.map (fun x : Nat => z + (x - p)) ++ placesFrom (z + (rest.getLastD p - p) + 1) segments

theorem placesFrom_consPiece (n : Int) (first : Nat) (segments : List (List Nat)) :
    placesFrom n (consPiece first segments) = n :: placesAfter first n segments := by
  cases segments with
  | nil => simp [consPiece, placesFrom, placesAfter]
  | cons rest segments => simp [consPiece, placesFrom, placesAfter]

theorem placesAfter_nil_cons (p : Nat) (z : Int) (segments : List (List Nat)) :
    placesAfter p z ([] :: segments) = placesFrom (z + 1) segments := by
  simp [placesAfter]

theorem placesAfter_consPiece (p q : Nat) (z : Int) {segments : List (List Nat)}
    (h : segments ≠ []) : placesAfter p z (consPiece q segments) =
      (z + (q - p)) :: placesAfter q (z + (q - p)) segments := by
  obtain ⟨rest, segments, rfl⟩ := List.exists_cons_of_ne_nil h
  have hmap : rest.map (fun x : Nat => z + (x - p) : Nat → Int) =
      rest.map fun x : Nat => z + (q - p) + (x - q) := by
    refine List.map_congr_left fun x _ => ?_
    omega
  have hlast : (z + ((q :: rest).getLastD p - p) + 1 : Int) =
      z + (q - p) + (rest.getLastD q - q) + 1 := by
    rw [List.getLastD_cons]
    omega
  rw [consPiece, placesAfter, placesAfter, List.map_cons, hmap, hlast, List.cons_append]

theorem segments_ne_nil (inputs : List Input) : segments inputs ≠ [] := by
  cases inputs with
  | nil => exact List.cons_ne_nil _ _
  | cons i inputs =>
    cases i with
    | resync => exact List.cons_ne_nil _ _
    | packet s =>
      rw [segments]
      cases segments inputs <;> exact List.cons_ne_nil _ _

/-! ## The numbers sent -/

variable {r : Rewriter} {p a : Stamp} {inputs : List Input}

/-- The sequence numbers are those of the places, modulo 2^16. -/
def Agree (sent : List Stamp) (places : List Int) : Prop :=
  sent.map (fun s => (s.sequence.toNat : Int)) = places.map (· % 65536)

theorem Agree.cons {s : Stamp} {sent : List Stamp} {z : Int} {places : List Int}
    (hz : z % 65536 = s.sequence.toNat) (h : Agree sent places) :
    Agree (s :: sent) (z :: places) := by
  rw [Agree, List.map_cons, List.map_cons, hz, h]

/-- The place of one packet more. -/
theorem Sent.emod_rewrite (h : r.Sent p a) {z : Int} (hz : z % 65536 = a.sequence.toNat)
    (q : Stamp) :
    (if r.pending then z + 1 else z + (q.sequence.toNat - p.sequence.toNat)) % 65536 =
      (r.rewrite q).2.sequence.toNat := by
  have hdistance := sequence_eq_of_distance (h.distance_rewrite q)
  have hp := p.sequence.toNat_lt
  have hq := q.sequence.toNat_lt
  rw [hdistance, UInt16.toNat_add]
  split
  · have hone : ((1, Stamp.gap) : UInt16 × UInt32).1.toNat = 1 := rfl
    rw [hone]
    omega
  · rw [Stamp.distance, UInt16.toNat_sub]
    omega

/-- After a packet, whether the source changes or goes on. -/
theorem Sent.agree_outputs (h : r.Sent p a) {z : Int} (hz : z % 65536 = a.sequence.toNat)
    (inputs : List Input) :
    Agree (r.outputs inputs) (if r.pending then placesFrom (z + 1) (segments inputs)
      else placesAfter p.sequence.toNat z (segments inputs)) := by
  induction inputs generalizing r p a z with
  | nil => cases hpending : r.pending <;> rfl
  | cons i inputs ih =>
    cases i with
    | resync =>
      have hrest := ih h.resync hz
      rw [segments, placesAfter_nil_cons, placesFrom, ite_self]
      exact hrest
    | packet q =>
      have hhere := h.emod_rewrite hz q
      have hrest := ih (r.sent_rewrite q) hhere
      rw [(r.rewrite_fst q).1, if_neg Bool.false_ne_true] at hrest
      rw [segments, placesFrom_consPiece, placesAfter_consPiece _ _ _ (segments_ne_nil inputs)]
      cases hpending : r.pending with
      | true =>
        rw [hpending, if_pos rfl] at hhere hrest
        exact hrest.cons hhere
      | false =>
        rw [hpending, if_neg Bool.false_ne_true] at hhere hrest
        exact hrest.cons hhere

theorem flatten_consPiece (x : Nat) (segments : List (List Nat)) :
    (consPiece x segments).flatten = x :: segments.flatten := by
  cases segments <;> rfl

/-- The sequence numbers sent are the places of the packets modulo 2^16. -/
theorem sequences_outputs (hlast : r.last = none) (hshift : ∀ s, r.shift s = s) :
    Agree (r.outputs inputs) (places (segments inputs)) := by
  induction inputs generalizing r with
  | nil => rfl
  | cons i inputs ih =>
    cases i with
    | resync => exact ih hlast hshift
    | packet q =>
      have hq : (r.rewrite q).2 = q := (rewrite_of_last_eq_none hlast q).trans (hshift q)
      have hz : (q.sequence.toNat : Int) % 65536 = (r.rewrite q).2.sequence.toNat := by
        have := q.sequence.toNat_lt
        rw [hq]
        omega
      have hrest := (r.sent_rewrite q).agree_outputs hz inputs
      rw [(r.rewrite_fst q).1, if_neg Bool.false_ne_true] at hrest
      rw [places, segments, flatten_consPiece, placesFrom_consPiece]
      exact hrest.cons hz

/-! ## One window for all places -/

theorem exists_bounds {segment : List Nat} (h : segment ≠ []) :
    ∃ low high, (∀ x ∈ segment, low ≤ x ∧ x ≤ high) ∧ span segment = high - low + 1 := by
  obtain ⟨low, hlow⟩ := Option.isSome_iff_exists.mp (List.isSome_min?_of_ne_nil h)
  obtain ⟨high, hhigh⟩ := Option.isSome_iff_exists.mp (List.isSome_max?_of_ne_nil h)
  refine ⟨low, high, fun x hx => ⟨?_, ?_⟩, by rw [span, hlow, hhigh]⟩
  · exact (List.min?_eq_some_iff.mp hlow).2 x hx
  · exact (List.max?_eq_some_iff.mp hhigh).2 x hx

theorem getLastD_mem_cons (first : Nat) (rest : List Nat) :
    rest.getLastD first ∈ first :: rest := by
  cases rest with
  | nil => exact List.mem_singleton_self first
  | cons x rest =>
    rw [List.getLastD_eq_getLast?, List.getLast?_eq_some_getLast (List.cons_ne_nil x rest)]
    exact List.mem_cons_of_mem _ (List.getLast_mem _)

/-- Each segment starts inside the window of those before it or at its end, so the windows put
together are no longer than the spans. -/
theorem exists_window (n : Int) (segments : List (List Nat)) :
    ∃ below above : Nat, below + above ≤ (segments.map span).sum ∧
      ∀ z ∈ placesFrom n segments, n - below ≤ z ∧ z < n + above := by
  induction segments generalizing n with
  | nil => exact ⟨0, 0, Nat.zero_le _, fun z hz => absurd hz List.not_mem_nil⟩
  | cons segment segments ih =>
    cases segment with
    | nil =>
      have hspan : span [] = 0 := rfl
      rw [List.map_cons, List.sum_cons, hspan, Nat.zero_add]
      exact ih n
    | cons first rest =>
      obtain ⟨low, high, hbounds, hspan⟩ := exists_bounds (List.cons_ne_nil first rest)
      obtain ⟨below, above, hsum, hwindow⟩ := ih (n + (rest.getLastD first - first) + 1)
      have hfirst := hbounds first List.mem_cons_self
      have hlast := hbounds _ (getLastD_mem_cons first rest)
      refine ⟨first - low + below, high - first + 1 + above, ?_, fun z hz => ?_⟩
      · rw [List.map_cons, List.sum_cons, hspan]
        omega
      · rcases List.mem_append.mp hz with hz | hz
        · obtain ⟨x, hx, rfl⟩ := List.mem_map.mp hz
          have := hbounds x hx
          omega
        · have := hwindow z hz
          omega

/-- In a window of the size of the range, the numbers tell the places apart. -/
theorem nodup_map_emod_iff {zs : List Int} {low : Int}
    (h : ∀ z ∈ zs, low ≤ z ∧ z < low + 65536) : (zs.map (· % 65536)).Nodup ↔ zs.Nodup := by
  refine ⟨List.Nodup.of_map _, List.Nodup.map_on fun x hx y hy hxy => ?_⟩
  have := h x hx
  have := h y hy
  omega

/-! ## Places in order -/

/-- If every segment starts with its lowest number, no place is before the first. -/
theorem le_of_mem_placesFrom {n : Int} {segments : List (List Nat)}
    (h : ∀ segment ∈ segments, ∀ x ∈ segment, segment.headD 0 ≤ x) {z : Int}
    (hz : z ∈ placesFrom n segments) : n ≤ z := by
  induction segments generalizing n with
  | nil => exact absurd hz List.not_mem_nil
  | cons segment segments ih =>
    obtain ⟨hsegment, hrest⟩ := List.forall_mem_cons.mp h
    cases segment with
    | nil => exact ih hrest hz
    | cons first rest =>
      rcases List.mem_append.mp hz with hz | hz
      · obtain ⟨x, hx, rfl⟩ := List.mem_map.mp hz
        have : first ≤ x := hsegment x hx
        omega
      · have : first ≤ rest.getLastD first := hsegment _ (getLastD_mem_cons first rest)
        have := ih hrest hz
        omega

theorem exists_ne_nil_of_mem_placesFrom {n z : Int} {segments : List (List Nat)}
    (hz : z ∈ placesFrom n segments) : ∃ segment ∈ segments, segment ≠ [] := by
  induction segments generalizing n with
  | nil => exact absurd hz List.not_mem_nil
  | cons segment segments ih =>
    cases segment with
    | nil =>
      obtain ⟨segment, hmem, hne⟩ := ih hz
      exact ⟨segment, List.mem_cons_of_mem _ hmem, hne⟩
    | cons first rest => exact ⟨_, List.mem_cons_self, List.cons_ne_nil first rest⟩

/-- Segments that meet do not overlap. -/
theorem nodup_placesFrom {segments : List (List Nat)} (hnodup : ∀ s ∈ segments, s.Nodup)
    (hmeets : segments.Pairwise Meets) (n : Int) : (placesFrom n segments).Nodup := by
  induction segments generalizing n with
  | nil => exact List.nodup_nil
  | cons segment segments ih =>
    obtain ⟨hsegment, hrest⟩ := List.forall_mem_cons.mp hnodup
    obtain ⟨hfirst, hlater⟩ := List.pairwise_cons.mp hmeets
    cases segment with
    | nil => exact ih hrest hlater n
    | cons first rest =>
      refine List.nodup_append.mpr ⟨hsegment.map fun x y hxy => by omega, ih hrest hlater _, ?_⟩
      intro y hy z hz
      obtain ⟨x, hx, rfl⟩ := List.mem_map.mp hy
      obtain ⟨next, hnext, hne⟩ := exists_ne_nil_of_mem_placesFrom hz
      have hlast := (hfirst next hnext (List.cons_ne_nil _ _) hne).1 x hx
      rw [List.getLastD_cons] at hlast
      have hstart : n + (rest.getLastD first - first) + 1 ≤ z := by
        refine le_of_mem_placesFrom (fun s hs x hx => ?_) hz
        exact (hfirst s hs (List.cons_ne_nil _ _) (List.ne_nil_of_mem hx)).2 x hx
      omega

/-! ## Numbers used again -/

/-- Where the numbers of each segment are different and the spans do not exceed the range of numbers
together, a number is used again exactly if two packets have one place; and none is if the segments
meet. -/
theorem sequences_nodup_iff {inputs : List Input}
    (hnodup : ∀ segment ∈ segments inputs, segment.Nodup)
    (hspan : ((segments inputs).map span).sum ≤ 65536) :
    (((fresh.outputs inputs).map Stamp.sequence).Nodup ↔ (places (segments inputs)).Nodup) ∧
    ((segments inputs).Pairwise Meets → ((fresh.outputs inputs).map Stamp.sequence).Nodup) := by
  have hiff : ((fresh.outputs inputs).map Stamp.sequence).Nodup ↔
      (places (segments inputs)).Nodup := by
    obtain ⟨below, above, hsum, hwindow⟩ :=
      exists_window ((segments inputs).flatten.headD 0) (segments inputs)
    have hagree : Agree (fresh.outputs inputs) (places (segments inputs)) :=
      sequences_outputs rfl fun s => by simp [shift, fresh]
    have hinj : Function.Injective fun n : UInt16 => (n.toNat : Int) :=
      fun m n h => UInt16.toNat_inj.mp (Int.ofNat_inj.mp h)
    calc ((fresh.outputs inputs).map Stamp.sequence).Nodup
        ↔ (((fresh.outputs inputs).map Stamp.sequence).map
            fun n : UInt16 => (n.toNat : Int)).Nodup := (List.nodup_map_iff hinj).symm
      _ ↔ ((places (segments inputs)).map (· % 65536)).Nodup := by
          rw [List.map_map, ← hagree]
          rfl
      _ ↔ (places (segments inputs)).Nodup := by
          refine nodup_map_emod_iff fun z hz => ⟨(hwindow z hz).1, ?_⟩
          have := (hwindow z hz).2
          omega
  exact ⟨hiff, fun hmeets => hiff.mpr (nodup_placesFrom hnodup hmeets _)⟩

/-- Packets out of order inside both segments, but not where the source changes. -/
theorem sequences_nodup_iff_reordered :
    let inputs : List Input := [.packet ⟨65534, 0⟩, .packet ⟨65533, 0⟩, .packet ⟨65535, 3000⟩,
      .resync, .packet ⟨7, 0⟩, .packet ⟨10, 6000⟩, .packet ⟨8, 3000⟩]
    (∀ segment ∈ segments inputs, segment.Nodup) ∧ ((segments inputs).map span).sum ≤ 65536 ∧
      (segments inputs).Pairwise Meets ∧ ((fresh.outputs inputs).map Stamp.sequence).Nodup := by
  intro inputs
  have hnodup : ∀ segment ∈ segments inputs, segment.Nodup := by decide
  have hspan : ((segments inputs).map span).sum ≤ 65536 := by decide
  have hmeets : (segments inputs).Pairwise Meets := by decide
  exact ⟨hnodup, hspan, hmeets, (sequences_nodup_iff hnodup hspan).2 hmeets⟩

/-- A packet that arrives late just before the source changes: the number of the one that overtook
it is used again. -/
theorem late_packet_reuses_number : ¬ ∀ inputs : List Input,
    (∀ segment ∈ segments inputs, segment.Nodup) → ((segments inputs).map span).sum ≤ 65536 →
      ((fresh.outputs inputs).map Stamp.sequence).Nodup := by
  intro h
  have hnodup := h [.packet ⟨101, 12000⟩, .packet ⟨100, 9000⟩, .resync, .packet ⟨5000, 123456⟩]
    (by decide) (by decide)
  exact absurd hnodup (by decide)

end BroadcastRelay.Rewriter
