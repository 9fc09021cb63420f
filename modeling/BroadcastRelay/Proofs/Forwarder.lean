import BroadcastRelay.Media.Session
import BroadcastRelay.Proofs.Rewriting
import Mathlib.Data.List.Induction
/-!
# Packet numbers of a session whose layer is switched meanwhile

The forwarder of a session does two things with a packet: it asks whether the session accepts it,
and rewrites its stamp if so. A switch of layers may fall between the two. `Forwarder.step` is one
of these acts, and the events of a run are the packets accepted, the packets written and the
switches that were changes.

What decides whether a packet follows the last one written is whether a switch fell between the two
rewrites (`stamp_of_next_write`). A switch between the acceptance of a packet and its rewrite is
used up by that packet, which is still of the old encoding, and the first packet of the new one is
out of line (`switch_used_up`). Without such a switch the numbers go on at every change of encoding.
-/

namespace BroadcastRelay

/-! ## Acts and events -/

/-- The forwarder of a session between two of its acts. -/
structure Forwarder where
  /-- The session. -/
  session : Session
  /-- The packet that has been accepted and is still to be rewritten. -/
  held : Option VideoPacket

namespace Forwarder

/-- What the forwarder does, or a request beside it. -/
inductive Act where
  /-- The forwarder gets the next packet and asks whether the session accepts it. -/
  | offer (p : VideoPacket)
  /-- The forwarder rewrites the packet that it holds, and writes it. -/
  | rewrite
  /-- A request selects an encoding. -/
  | switch (rid : String)
deriving DecidableEq, Repr

/-- What an act comes to. -/
inductive Event where
  /-- A packet is accepted. -/
  | accepted (p : VideoPacket)
  /-- A packet is written, with this stamp. -/
  | wrote (p : VideoPacket) (out : Stamp)
  /-- Another encoding is selected. -/
  | switched
deriving DecidableEq, Repr

/-- The forwarder of a session when it begins. -/
def start (s : Session) : Forwarder := ⟨s, none⟩

/-- One act. The forwarder gets no packet while it holds one, and rewrites none if it holds none. -/
def step (f : Forwarder) : Act → Forwarder × Option Event
  | .offer p =>
    match f.held with
    | some _ => (f, none)
    | none =>
      match f.session.accepts p.rid with
      | (s, true) => (⟨s, some p⟩, some (.accepted p))
      | (s, false) => (⟨s, none⟩, none)
  | .rewrite =>
    match f.held with
    | none => (f, none)
    | some p =>
      let (s, out) := f.session.rewrite p.stamp
      (⟨s.recordWritten 1, none⟩, some (.wrote p out))
  | .switch rid =>
    match f.session.switchLayer rid with
    | (s, true) => (⟨s, f.held⟩, some .switched)
    | (s, false) => (⟨s, f.held⟩, none)

/-- The forwarder after a list of acts. -/
def after (f : Forwarder) (acts : List Act) : Forwarder := acts.foldl (fun f a => (f.step a).1) f

/-- The events of a list of acts. -/
def events (f : Forwarder) : List Act → List Event
  | [] => []
  | a :: acts => (f.step a).2.toList ++ (f.step a).1.events acts

/-- Without a switch in between, the two acts forward a packet as a whole. -/
theorem after_offer_rewrite (s : Session) (p : VideoPacket) :
    ((start s).after [.offer p, .rewrite]).session = (s.forwardVideo p).1 := by
  simp only [after, start, List.foldl_cons, List.foldl_nil, step, Session.forwardVideo]
  obtain ⟨s, accepted⟩ := s.accepts p.rid
  cases accepted <;> rfl

theorem events_append (f : Forwarder) (acts more : List Act) :
    f.events (acts ++ more) = f.events acts ++ (f.after acts).events more := by
  induction acts generalizing f with
  | nil => rfl
  | cons a acts ih => simp only [List.cons_append, events, ih, List.append_assoc, after,
      List.foldl_cons]

/-- An event comes of one of the acts; the events before it come of the acts before. -/
theorem events_eq_append_cons {f : Forwarder} {acts : List Act} {pre post : List Event} {e : Event}
    (h : f.events acts = pre ++ e :: post) :
    ∃ before a later, acts = before ++ a :: later ∧ f.events before = pre ∧
      ((f.after before).step a).2 = some e ∧ ((f.after before).step a).1.events later = post := by
  induction acts generalizing f pre with
  | nil => simp [events] at h
  | cons a acts ih =>
    cases hstep : (f.step a).2 with
    | none =>
      simp only [events, hstep, Option.toList_none, List.nil_append] at h
      obtain ⟨before, b, later, rfl, hpre, he, hpost⟩ := ih h
      exact ⟨a :: before, b, later, rfl, by simp [events, hstep, hpre], he, hpost⟩
    | some d =>
      simp only [events, hstep, Option.toList_some, List.singleton_append] at h
      cases pre with
      | nil =>
        obtain ⟨rfl, rfl⟩ := List.cons.inj h
        exact ⟨[], a, acts, rfl, rfl, hstep, rfl⟩
      | cons x pre =>
        obtain ⟨rfl, htail⟩ := List.cons.inj h
        obtain ⟨before, b, later, rfl, hpre, he, hpost⟩ := ih htail
        exact ⟨a :: before, b, later, rfl, by simp [events, hstep, hpre], he, hpost⟩

/-! ## One act -/

variable {f : Forwarder} {a : Act} {p q : VideoPacket} {out b : Stamp}

/-- All that an act can do: nothing, to accept a packet, to write the one held, or to switch. -/
theorem step_cases (f : Forwarder) (a : Act) :
    f.step a = (f, none) ∨
    (∃ p, f.held = none ∧ (f.session.layer = none ∨ f.session.layer = some p.rid) ∧
      f.step a = (⟨{ f.session with layer := some p.rid }, some p⟩, some (.accepted p))) ∨
    (∃ p, f.held = some p ∧ f.step a = (⟨(f.session.rewrite p.stamp).1.recordWritten 1, none⟩,
      some (.wrote p (f.session.rewriter.rewrite p.stamp).2))) ∨
    ∃ rid, f.step a = (⟨{ f.session with
        layer := some rid, rewriter := f.session.rewriter.resync }, f.held⟩, some .switched) := by
  obtain ⟨s, held⟩ := f
  cases a with
  | offer p =>
    cases held with
    | some x => exact Or.inl rfl
    | none =>
      cases hl : s.layer with
      | none => exact Or.inr (Or.inl ⟨p, rfl, Or.inl rfl, by simp [step, Session.accepts, hl]⟩)
      | some l =>
        cases heq : l == p.rid with
        | false => exact Or.inl (by simp [step, Session.accepts, hl, heq])
        | true =>
          obtain rfl : l = p.rid := beq_iff_eq.mp heq
          have hself : { s with layer := some p.rid } = s := by rw [← hl]
          refine Or.inr (Or.inl ⟨p, rfl, Or.inr rfl, ?_⟩)
          rw [hself]
          simp only [step, Session.accepts, hl, heq]
  | rewrite =>
    cases held with
    | none => exact Or.inl rfl
    | some p => exact Or.inr (Or.inr (Or.inl ⟨p, rfl, rfl⟩))
  | switch rid =>
    by_cases hl : s.layer = some rid
    · exact Or.inl (by simp [step, Session.switchLayer, hl])
    · exact Or.inr (Or.inr (Or.inr ⟨rid, by simp [step, Session.switchLayer, hl]⟩))

/-- What is written is the packet that was held. -/
theorem step_eq_wrote (h : (f.step a).2 = some (.wrote p out)) :
    f.held = some p ∧ out = (f.session.rewriter.rewrite p.stamp).2 ∧
      (f.step a).1 = ⟨(f.session.rewrite p.stamp).1.recordWritten 1, none⟩ := by
  rcases step_cases f a with hs | ⟨x, -, -, hs⟩ | ⟨x, hheld, hs⟩ | ⟨rid, hs⟩ <;> rw [hs] at h ⊢
  · simp at h
  · simp at h
  · obtain ⟨rfl, rfl⟩ := Event.wrote.inj (Option.some.inj h)
    exact ⟨hheld, rfl, rfl⟩
  · simp at h

/-- Only a rewrite and a switch change the rewriter. -/
theorem rewriter_step (h : ∀ p out, (f.step a).2 ≠ some (.wrote p out)) :
    (f.step a).1.session.rewriter =
      if (f.step a).2 = some .switched then f.session.rewriter.resync else f.session.rewriter := by
  rcases step_cases f a with hs | ⟨x, -, -, hs⟩ | ⟨x, hheld, hs⟩ | ⟨rid, hs⟩ <;> rw [hs] at h ⊢
  · simp
  · simp
  · exact absurd rfl (h x _)
  · simp

/-- The layer, once there is one, changes by a switch only. -/
theorem layer_step {l : String} (h : f.session.layer = some l)
    (hno : (f.step a).2 ≠ some .switched) : (f.step a).1.session.layer = some l := by
  rcases step_cases f a with hs | ⟨x, -, hl, hs⟩ | ⟨x, hheld, hs⟩ | ⟨rid, hs⟩ <;> rw [hs] at hno ⊢
  · exact h
  · rcases hl with hl | hl
    · exact absurd (hl.symm.trans h) (by simp)
    · exact hl.symm.trans h
  · exact h
  · exact absurd rfl hno

/-- A packet that is held was held before and still is, or it is accepted by the act. -/
theorem held_step (h : (f.step a).1.held = some p) :
    (f.held = some p ∧ ((f.step a).2 = none ∨ (f.step a).2 = some .switched)) ∨
      (f.step a).2 = some (.accepted p) ∧ (f.step a).1.session.layer = some p.rid := by
  rcases step_cases f a with hs | ⟨x, -, -, hs⟩ | ⟨x, -, hs⟩ | ⟨rid, hs⟩ <;> rw [hs] at h ⊢
  · exact Or.inl ⟨h, Or.inl rfl⟩
  · obtain rfl : x = p := Option.some.inj h
    exact Or.inr ⟨rfl, rfl⟩
  · simp at h
  · exact Or.inl ⟨h, Or.inr rfl⟩

/-! ## Many acts -/

theorem after_cons (f : Forwarder) (a : Act) (acts : List Act) :
    f.after (a :: acts) = (f.step a).1.after acts := rfl

theorem after_concat (f : Forwarder) (acts : List Act) (a : Act) :
    f.after (acts ++ [a]) = ((f.after acts).step a).1 := by
  simp [after]

theorem events_concat (f : Forwarder) (acts : List Act) (a : Act) :
    f.events (acts ++ [a]) = f.events acts ++ ((f.after acts).step a).2.toList := by
  simp [events_append, events]

/-- Without a write the rewriter changes by switches only, and several are as good as one. -/
theorem rewriter_after {acts : List Act} (h : ∀ p out, .wrote p out ∉ f.events acts) :
    (f.after acts).session.rewriter =
      if .switched ∈ f.events acts then f.session.rewriter.resync else f.session.rewriter := by
  induction acts generalizing f with
  | nil => rfl
  | cons a acts ih =>
    simp only [events, List.mem_append, Option.mem_toList, not_or] at h ⊢
    rw [after_cons, ih fun p out => (h p out).2, rewriter_step fun p out => (h p out).1]
    by_cases hfirst : (f.step a).2 = some .switched <;>
      by_cases hlater : .switched ∈ (f.step a).1.events acts <;> simp [hfirst, hlater]
    rfl

/-- Without a switch the layer does not change once there is one. -/
theorem layer_after {acts : List Act} {l : String} (h : f.session.layer = some l)
    (hno : .switched ∉ f.events acts) : (f.after acts).session.layer = some l := by
  induction acts generalizing f with
  | nil => exact h
  | cons a acts ih =>
    simp only [events, List.mem_append, Option.mem_toList, not_or] at hno
    rw [after_cons]
    exact ih (layer_step h hno.1) hno.2

/-- A packet that is held has been accepted; since then there were only switches, and without one
its encoding is the selected one. -/
theorem accepted_of_held {f : Forwarder} (hstart : f.held = none) {acts : List Act}
    (h : (f.after acts).held = some p) :
    ∃ pre mid, f.events acts = pre ++ .accepted p :: mid ∧ (∀ e ∈ mid, e = .switched) ∧
      (.switched ∉ mid → (f.after acts).session.layer = some p.rid) := by
  induction acts using List.reverseRecOn with
  | nil => exact absurd (hstart.symm.trans h) (by simp)
  | append_singleton acts a ih =>
    rw [after_concat] at h ⊢
    rw [events_concat]
    rcases held_step h with ⟨hheld, hevent⟩ | ⟨hevent, hlayer⟩
    · obtain ⟨pre, mid, hevents, hmid, hlayer⟩ := ih hheld
      refine ⟨pre, mid ++ ((f.after acts).step a).2.toList, ?_, ?_, fun hno => ?_⟩
      · rw [hevents, List.append_assoc, List.cons_append]
      · intro e he
        rcases List.mem_append.mp he with he | he
        · exact hmid e he
        · rcases hevent with hevent | hevent <;> rw [hevent] at he
          · simp at he
          · exact List.mem_singleton.mp he
      · simp only [List.mem_append, Option.mem_toList, not_or] at hno
        exact layer_step (hlayer hno.1) hno.2
    · exact ⟨f.events acts, [], by rw [hevent, Option.toList_some], by simp, fun _ => hlayer⟩

/-! ## Consecutive writes -/

/-- Two packets written one after the other. The second follows the first exactly if another
encoding was selected between the two rewrites, or if the source had them in line; without that
selection the distances of the source are kept. And if the packets are of different encodings
without a selection in between, then that fell between the acceptance of the first packet and its
rewrite. -/
theorem stamp_of_next_write (s : Session) {acts : List Act} {pre mid post : List Event}
    {out : Stamp} (h : (start s).events acts = pre ++ .wrote p out :: (mid ++ .wrote q b :: post))
    (hmid : ∀ x c, .wrote x c ∉ mid) :
    (b = out.next ↔ .switched ∈ mid ∨ q.stamp = p.stamp.next) ∧
    (.switched ∉ mid → out.distance b = p.stamp.distance q.stamp) ∧
    (p.rid ≠ q.rid → .switched ∉ mid → ∃ earlier since,
      pre = earlier ++ .accepted p :: since ∧ .switched ∈ since ∧ ∀ e ∈ since, e = .switched) := by
  obtain ⟨before, first, later, -, hpre, hwrote, hrest⟩ := events_eq_append_cons h
  obtain ⟨between, second, last, -, hbetween, hwrote', -⟩ := events_eq_append_cons hrest
  obtain ⟨hheld, rfl, hfirst⟩ := step_eq_wrote hwrote
  obtain ⟨hheld', rfl, -⟩ := step_eq_wrote hwrote'
  rw [hfirst] at hbetween hheld' ⊢
  set g := (start s).after before
  set f : Forwarder := ⟨(g.session.rewrite p.stamp).1.recordWritten 1, none⟩
  obtain ⟨hpending, hlast, hshift⟩ := g.session.rewriter.rewrite_fst p.stamp
  have hrewriter := rewriter_after (f := f) (hbetween ▸ hmid)
  rw [hbetween] at hrewriter
  have hkept : .switched ∉ mid → (g.session.rewriter.rewrite p.stamp).2.distance
      ((f.after between).session.rewriter.rewrite q.stamp).2 = p.stamp.distance q.stamp := by
    intro hno
    rw [hrewriter, if_neg hno, ← hshift]
    exact (congrArg _ (Rewriter.rewrite_of_not_pending hpending q.stamp)).trans
      (Rewriter.distance_shift _ p.stamp q.stamp)
  refine ⟨?_, hkept, fun hne hno => ?_⟩
  · by_cases hswitched : .switched ∈ mid
    · rw [hrewriter, if_pos hswitched]
      exact iff_of_true (Rewriter.rewrite_resync hlast q.stamp) (Or.inl hswitched)
    · rw [← Stamp.distance_eq_iff, hkept hswitched, Stamp.distance_eq_iff, or_iff_right hswitched]
  · obtain ⟨earlier, since, hevents, hsince, hlayer⟩ := accepted_of_held (by rfl) hheld
    refine ⟨earlier, since, hpre ▸ hevents, ?_, hsince⟩
    by_contra hnone
    -- The first packet left its encoding selected, so the second is of that encoding too.
    have hsecond : (f.after between).session.layer = some p.rid :=
      layer_after (hlayer hnone) (hbetween ▸ hno)
    obtain ⟨earlier', since', hevents', -, hlayer'⟩ := accepted_of_held (by rfl) hheld'
    have hno' : .switched ∉ since' := by
      intro hmem
      rw [← hbetween, hevents'] at hno
      exact hno (List.mem_append_right _ (List.mem_cons_of_mem _ hmem))
    exact hne (Option.some.inj (hsecond.symm.trans (hlayer' hno')))

/-- A switch between two packets: the first of the new encoding follows the last of the old. -/
theorem stamp_of_next_write_switched :
    (start (.fresh "s" "live" 0 0)).events
      [.offer ⟨"h", ⟨100, 9000⟩⟩, .rewrite, .switch "l", .offer ⟨"l", ⟨5000, 123456⟩⟩, .rewrite] =
      [.accepted ⟨"h", ⟨100, 9000⟩⟩] ++ .wrote ⟨"h", ⟨100, 9000⟩⟩ ⟨100, 9000⟩ ::
        ([.switched, .accepted ⟨"l", ⟨5000, 123456⟩⟩] ++
          .wrote ⟨"l", ⟨5000, 123456⟩⟩ ⟨101, 12000⟩ :: []) ∧
    (⟨101, 12000⟩ : Stamp) = Stamp.next ⟨100, 9000⟩ := by
  refine (and_iff_left_of_imp fun hevents => ?_).mpr rfl
  exact (stamp_of_next_write _ hevents (by simp)).1.mpr (Or.inl (by simp))

/-- A switch between the acceptance of a packet and its rewrite is used up by that packet, and the
first packet of the new encoding does not follow it. -/
theorem switch_used_up : ¬ ∀ (s : Session) (acts : List Act) (pre mid post : List Event)
    (p q : VideoPacket) (out b : Stamp),
    (start s).events acts = pre ++ .wrote p out :: (mid ++ .wrote q b :: post) →
    (∀ x c, .wrote x c ∉ mid) → p.rid ≠ q.rid → b = out.next := by
  intro h
  have hnext := h (.fresh "s" "live" 0 0)
    [.offer ⟨"h", ⟨100, 9000⟩⟩, .rewrite, .offer ⟨"h", ⟨101, 12000⟩⟩, .switch "l", .rewrite,
      .offer ⟨"l", ⟨5000, 123456⟩⟩, .rewrite]
    [.accepted ⟨"h", ⟨100, 9000⟩⟩, .wrote ⟨"h", ⟨100, 9000⟩⟩ ⟨100, 9000⟩,
      .accepted ⟨"h", ⟨101, 12000⟩⟩, .switched]
    [.accepted ⟨"l", ⟨5000, 123456⟩⟩] [] ⟨"h", ⟨101, 12000⟩⟩ ⟨"l", ⟨5000, 123456⟩⟩
    ⟨101, 12000⟩ ⟨5000, 123456⟩ rfl (by simp) (by decide)
  exact absurd hnext (by decide)

end Forwarder

end BroadcastRelay
