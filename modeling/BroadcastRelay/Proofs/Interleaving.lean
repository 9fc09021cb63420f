import BroadcastRelay.Media.Engine
/-!
# Negotiations in single steps

A negotiation waits between its steps, and other negotiations and reports go on meanwhile. An
`Errand` is a negotiation or a report that has been begun, by what it still has to do and what it
holds: the place of the broadcast that it looked up, for one. `Errand.step` does the next step, at
most one change of the two maps or of a slot. An errand that is alone comes to the same as the whole
operation (`steps_egress`, `steps_ingest`, `steps_report`).

`Traffic` is a registry with the errands under way. A `Move` begins an errand or does the next step
of any errand, so a list of moves is one interleaving.
-/

namespace BroadcastRelay

/-- The step at which a negotiation fails, if it does. -/
def Course.failure? {α : Type} : Course α → Option NegotiationStep
  | .answered _ => none
  | .failed step _ => some step

/-- What a negotiation or a report under way still has to do. -/
inductive Errand where
  /-- A viewer asks for a session: its broadcast is to be looked up. -/
  | egress (key id : String) (failure : Option NegotiationStep)
  /-- The session of a viewer is to be registered. -/
  | attach (key id : String) (failure : Option NegotiationStep) (broadcast : Nat)
  /-- The offer of a viewer with a session is to be answered. -/
  | answerViewer (key id : String) (failure : Option NegotiationStep) (session peer : Nat)
  /-- A publisher asks to be put on air: its broadcast is to be looked up. -/
  | ingest (key id : String) (failure : Option NegotiationStep)
  /-- The publisher is to be put into the slot. -/
  | install (key id : String) (failure : Option NegotiationStep) (broadcast : Nat)
  /-- The publisher that was in the slot before is to be dismissed. -/
  | dismiss (key id : String) (failure : Option NegotiationStep) (broadcast peer : Nat)
      (previous : Option Publisher)
  /-- The offer of a publisher in the slot is to be answered. -/
  | answerPublisher (key id : String) (failure : Option NegotiationStep) (broadcast peer : Nat)
  /-- The offer of a publisher has been answered: nothing is to be done. -/
  | published (key id : String) (broadcast peer : Nat)
  /-- A connection reports a state. -/
  | report (peer : Nat) (state : PeerState)
  /-- A key may be left to be pruned, and after that a connection to be closed. -/
  | rest (key : Option String) (peer : Option Nat)
  /-- Nothing is to be done. -/
  | done
deriving Repr

namespace Errand

/-- Takes the session of a viewer back; the key is left to be pruned. -/
def leave (r : Registry) (key id : String) (peer : Nat) : Registry × Errand :=
  ((((r.cancel peer).removeSession id).1).close peer, .rest (some key) none)

/-- Ends the publisher or the session of a connection; its key is left to be pruned if that one was
still there, and the connection to be closed if it is still open. -/
def retire (r : Registry) (peer : Nat) (open? : Option Nat) : Role → Registry × Errand
  | .publisher broadcast id =>
    let (r, cleared) := (r.cancel peer).clearPublisher broadcast id
    match cleared, r.broadcasts[broadcast]? with
    | true, some b => (r, .rest (some b.key) open?)
    | _, _ => (r, .rest none open?)
  | .viewer id key =>
    let (r, removed) := (r.cancel peer).removeSession id
    (r, .rest (if removed then some key else none) open?)

/-- The next step. -/
def step (now : UInt64) (r : Registry) : Errand → Registry × Errand
  | .egress key id failure =>
    let (r, broadcast) := r.streamOrCreate now key
    (r, .attach key id failure broadcast)
  | .attach key id failure broadcast =>
    match failure with
    | some .connection => (r, .rest (some key) none)
    | some .tracks =>
      let (r, peer) := r.openPeer (.viewer id key)
      leave r key id peer
    | _ =>
      let (r, peer) := r.openPeer (.viewer id key)
      let (r, session) := r.insertSession (.fresh id key broadcast peer)
      (r, .answerViewer key id failure session peer)
  | .answerViewer key id failure session peer =>
    match failure with
    | none => (Engine.subscribe r session, .done)
    | some _ => leave r key id peer
  | .ingest key id failure =>
    match failure with
    | some .connection => (r, .done)
    | _ =>
      let (r, broadcast) := r.streamOrCreate now key
      (r, .install key id failure broadcast)
  | .install key id failure broadcast =>
    let (r, peer) := r.openPeer (.publisher broadcast id)
    let (r, previous) := r.replacePublisher broadcast ⟨id, peer⟩
    (r, .dismiss key id failure broadcast peer previous)
  | .dismiss key id failure broadcast peer previous =>
    (Engine.dismiss r previous, .answerPublisher key id failure broadcast peer)
  | .answerPublisher key id failure broadcast peer =>
    match failure with
    | none => (r, .published key id broadcast peer)
    | some _ =>
      ((((r.cancel peer).clearPublisher broadcast id).1).close peer, .rest (some key) none)
  | .published key id broadcast peer => (r, .published key id broadcast peer)
  | .report peer state =>
    match state.isTerminal, r.peers[peer]? with
    | true, some p => retire r peer (if state.leavesOpen then some peer else none) p.role
    | _, _ => (r, .done)
  | .rest key peer =>
    let r := (key.map r.prune).getD r
    ((peer.map r.close).getD r, .done)
  | .done => (r, .done)

/-- Whether or not its publisher was still in the slot, a connection that is retired has it cleared
there. -/
theorem retire_publisher_fst (r : Registry) (peer : Nat) (open? : Option Nat) (broadcast : Nat)
    (id : String) : (retire r peer open? (.publisher broadcast id)).1 =
      ((r.cancel peer).clearPublisher broadcast id).1 := by
  simp only [retire]
  split <;> rfl

/-- After the first step of a report nothing is left but the key and the connection. -/
theorem report_snd (now : UInt64) (r : Registry) (peer : Nat) (state : PeerState) :
    (step now r (.report peer state)).2 = .done ∨
      ∃ key open?, (step now r (.report peer state)).2 = .rest key open? := by
  simp only [step]
  split
  · right
    unfold retire
    split
    · dsimp only
      split <;> exact ⟨_, _, rfl⟩
    · exact ⟨_, _, rfl⟩
  · exact Or.inl rfl

/-- Several steps of an errand that is alone. -/
def steps (now : UInt64) : Nat → Registry → Errand → Registry × Errand
  | 0, r, errand => (r, errand)
  | n + 1, r, errand => steps now n (errand.step now r).1 (errand.step now r).2

/-! ## Errands that are alone -/

variable {α : Type}

/-- A viewer that is alone: four steps are the whole negotiation. -/
theorem steps_egress (e : Engine) (now : UInt64) (key id : String) (course : Course α) :
    (steps now 4 e.registry (.egress key id course.failure?)).1 =
      (e.egressWith now key id course).1.registry := by
  cases course with
  | answered a => rfl
  | failed step cause => cases step <;> rfl

/-- A publisher that is alone: five steps are the whole negotiation. -/
theorem steps_ingest (e : Engine) (now : UInt64) (key id : String) (course : Course α) :
    (steps now 5 e.registry (.ingest key id course.failure?)).1 =
      (e.ingestWith now key id course).1.registry := by
  cases course with
  | answered a => rfl
  | failed step cause => cases step <;> rfl

theorem retirePublisher_eq (r : Registry) (now : UInt64) (peer broadcast : Nat) (id : String)
    (stillOpen : Bool) :
    r.retirePublisher peer broadcast id stillOpen =
      (step now (retire r peer (if stillOpen then some peer else none) (.publisher broadcast id)).1
        (retire r peer (if stillOpen then some peer else none) (.publisher broadcast id)).2).1 := by
  simp only [retire, Registry.retirePublisher]
  obtain ⟨s, cleared⟩ := (r.cancel peer).clearPublisher broadcast id
  cases cleared with
  | false => cases stillOpen <;> rfl
  | true => cases s.broadcasts[broadcast]? <;> cases stillOpen <;> rfl

theorem retireSession_eq (r : Registry) (now : UInt64) (peer : Nat) (id key : String)
    (stillOpen : Bool) :
    r.retireSession peer id key stillOpen =
      (step now (retire r peer (if stillOpen then some peer else none) (.viewer id key)).1
        (retire r peer (if stillOpen then some peer else none) (.viewer id key)).2).1 := by
  simp only [retire, Registry.retireSession]
  obtain ⟨s, removed⟩ := (r.cancel peer).removeSession id
  cases removed <;> cases stillOpen <;> rfl

/-- A report that is alone: two steps are all that it does. -/
theorem steps_report (r : Registry) (now : UInt64) (peer : Nat) (state : PeerState) :
    (steps now 2 r (.report peer state)).1 = r.peerEvent peer state := by
  unfold Registry.peerEvent
  simp only [steps, step]
  cases state.isTerminal with
  | false => rfl
  | true =>
    cases r.peers[peer]? with
    | none => rfl
    | some p =>
      cases hrole : p.role with
      | publisher broadcast id =>
        simp only [hrole]
        exact (retirePublisher_eq r now peer broadcast id _).symm
      | viewer id key =>
        simp only [hrole]
        exact (retireSession_eq r now peer id key _).symm

end Errand

/-! ## Interleavings -/

/-- A registry and the errands under way. -/
structure Traffic where
  /-- The registry. -/
  registry : Registry
  /-- Every errand that was ever begun. -/
  errands : List Errand
deriving Repr

/-- One move of the traffic. -/
inductive Move where
  /-- A viewer asks for a session, under an id drawn for it. -/
  | egress (key id : String) (failure : Option NegotiationStep)
  /-- A publisher asks to be put on air, under an id drawn for it. -/
  | ingest (key id : String) (failure : Option NegotiationStep)
  /-- A connection reports a state. -/
  | report (peer : Nat) (state : PeerState)
  /-- An errand does its next step. -/
  | advance (errand : Nat) (now : UInt64)
deriving Repr

namespace Traffic

/-- An engine's registry before anything is asked of it. -/
def fresh : Traffic := ⟨.fresh, []⟩

/-- One errand more. -/
def start (t : Traffic) (errand : Errand) : Traffic := { t with errands := t.errands ++ [errand] }

/-- The traffic after a move. -/
def move (t : Traffic) : Move → Traffic
  | .egress key id failure => t.start (.egress key id failure)
  | .ingest key id failure => t.start (.ingest key id failure)
  | .report peer state => t.start (.report peer state)
  | .advance i now =>
    match t.errands[i]? with
    | some errand =>
      ⟨(errand.step now t.registry).1, t.errands.set i (errand.step now t.registry).2⟩
    | none => t

/-- The traffic after a list of moves. -/
def run (moves : List Move) : Traffic := moves.foldl move fresh

theorem run_concat (moves : List Move) (m : Move) : run (moves ++ [m]) = (run moves).move m := by
  simp [run]

end Traffic

end BroadcastRelay
