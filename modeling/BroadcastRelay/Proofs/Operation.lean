import BroadcastRelay.Proofs.Registry
/-!
# Runs of whole operations

An `Operation` is one call of the engine from its start to its return, the report of a connection,
or what comes from a publisher. `Reachable` holds of the engines that operations, one after the
other and in any order, lead to from a new one. What is drawn from outside comes with the
operation: the clock, the course of a negotiation and the id of a new publisher or session. The id
of a session is one that no earlier session has had (`Operation.IsNew`).

A negotiation is an operation whatever its answer (`ingest_eq_apply`, `egress_eq_apply`), and there are
few things that it can come to for the registry (`ingestWith_cases`, `egressWith_cases`).
-/

namespace BroadcastRelay

/-- The course of a negotiation without the text of its answer. -/
def Course.outline {α : Type} : Course α → Course Unit
  | .answered _ => .answered ()
  | .failed step cause => .failed step cause

/-- What happens to an engine in one go. -/
inductive Operation where
  /-- A publisher asks to be put on air. -/
  | ingest (now : UInt64) (key id : String) (course : Course Unit)
  /-- A viewer asks for a session. -/
  | egress (now : UInt64) (key id : String) (course : Course Unit)
  /-- A viewer asks for a layer. -/
  | setLayer (sessionId encodingId : String)
  /-- A connection reports a state, which may be late or come again. -/
  | report (peer : Nat) (state : PeerState)
  /-- A video track of an encoding begins. -/
  | videoTrack (broadcast : Nat) (rid : String) (ssrc : UInt32) (codec : Codec)
  /-- An audio track begins. -/
  | audioTrack (broadcast : Nat) (codec : Codec)
  /-- Video packets arrive through the handle of a track. -/
  | video (broadcast handle : Nat) (packets : List VideoPacket)
  /-- Audio packets arrive. -/
  | audio (broadcast count : Nat)
  /-- Everything is closed. -/
  | shutdown

/-- A new session has an id that no connection of a viewer has had. -/
def Operation.IsNew (e : Engine) : Operation → Prop
  | egress _ _ id _ => ∀ peer key, e.registry.role? peer ≠ some (.viewer id key)
  | _ => True

namespace Engine

/-- The engine after an operation. -/
def apply (e : Engine) : Operation → Engine
  | .ingest now key id course => (e.ingestWith now key id course).1
  | .egress now key id course => (e.egressWith now key id course).1
  | .setLayer sessionId encodingId => (e.setLayer sessionId encodingId).1
  | .report peer state => e.withRegistry (e.registry.peerEvent peer state)
  | .videoTrack broadcast rid ssrc codec =>
    e.withRegistry (e.registry.modifyBroadcast broadcast fun b =>
      { (b.addLayer rid ssrc).1 with videoCodec := some codec })
  | .audioTrack broadcast codec =>
    e.withRegistry (e.registry.modifyBroadcast broadcast fun b =>
      { b with audioCodec := some codec })
  | .video broadcast handle packets =>
    e.withRegistry ((e.registry.modifyBroadcast broadcast
      (·.countVideo handle (UInt64.ofNat packets.length))).sendVideo broadcast packets)
  | .audio broadcast count =>
    e.withRegistry ((e.registry.modifyBroadcast broadcast
      (·.countAudio (UInt64.ofNat count))).sendAudio broadcast count)
  | .shutdown => e.shutdown

/-- The engines that operations lead to. -/
inductive Reachable : Engine → Prop
  /-- A new engine. -/
  | start (settings : EngineSettings) : Reachable ⟨settings, .fresh⟩
  /-- One operation more. -/
  | step {e : Engine} (h : Reachable e) (op : Operation) (hnew : op.IsNew e) :
    Reachable (e.apply op)

/-- Taking the offer of a publisher is an operation. -/
theorem ingest_eq_apply (e : Engine) (now : UInt64) (key id offer : String) :
    (e.ingest now key id offer).1 =
      e.apply (.ingest now key id (e.settings.course offer).outline) := by
  unfold ingest
  cases e.settings.course offer with
  | answered a => rfl
  | failed step cause => cases step <;> rfl

/-- Taking the offer of a viewer is an operation. -/
theorem egress_eq_apply (e : Engine) (now : UInt64) (key id offer : String) :
    (e.egress now key id offer).1 =
      e.apply (.egress now key id (e.settings.course offer).outline) := by
  unfold egress
  cases e.settings.course offer with
  | answered a => rfl
  | failed step cause => cases step <;> rfl

/-- A publisher gets no connection, is put on air, or is put on air and taken off again. -/
theorem ingestWith_cases {α : Type} (e : Engine) (now : UInt64) (key id : String)
    (course : Course α) :
    let installed := install e.registry now key id
    let e' := (e.ingestWith now key id course).1
    e' = e ∨ e' = e.withRegistry installed.1 ∨
      e' = e.withRegistry (withdrawPublisher installed.1 installed.2.1 installed.2.2 key id) := by
  cases course with
  | answered a => exact Or.inr (Or.inl rfl)
  | failed step cause =>
    cases step with
    | connection => exact Or.inl rfl
    | tracks => exact Or.inr (Or.inr rfl)
    | offer => exact Or.inr (Or.inr rfl)

/-- A viewer gets no connection, has one without a session withdrawn, has its session withdrawn, or
is subscribed. -/
theorem egressWith_cases {α : Type} (e : Engine) (now : UInt64) (key id : String)
    (course : Course α) :
    let looked := e.registry.streamOrCreate now key
    let peer := looked.1.peers.length
    let opened := (looked.1.openPeer (.viewer id key)).1
    let joined := (opened.insertSession (.fresh id key looked.2 peer)).1
    let e' := (e.egressWith now key id course).1
    e' = e.withRegistry (looked.1.prune key) ∨
      e' = e.withRegistry (withdrawSession opened peer key id) ∨
      e' = e.withRegistry (withdrawSession joined peer key id) ∨
      e' = e.withRegistry (subscribe joined looked.1.sessions.length) := by
  cases course with
  | answered a => exact Or.inr (Or.inr (Or.inr rfl))
  | failed step cause =>
    cases step with
    | connection => exact Or.inl rfl
    | tracks => exact Or.inr (Or.inl rfl)
    | offer => exact Or.inr (Or.inr (Or.inl rfl))

/-- What holds of a new engine and is kept by every operation holds of every reachable engine. -/
theorem Reachable.registry_of_step {P : Registry → Prop} (hfresh : P .fresh)
    (hstep : ∀ (e : Engine) (op : Operation), P e.registry → op.IsNew e → P (e.apply op).registry)
    {e : Engine} (h : e.Reachable) : P e.registry := by
  induction h with
  | start settings => exact hfresh
  | step _ op hnew ih => exact hstep _ op ih hnew

end Engine

end BroadcastRelay
