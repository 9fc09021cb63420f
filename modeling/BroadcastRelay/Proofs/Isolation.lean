import BroadcastRelay.Proofs.Locality
/-!
# Broadcasts do not disturb each other

An `Input` is what comes to an engine, be it a request, a question, the report of a connection or
what a publisher sends. A connection or a broadcast is named by its key and by how many were made for
that key before it, so an input means the same whether or not inputs for other keys came in between.
An input `concerns` a key if it names the key, or a session of it. Every run of operations without a
shutdown is one of inputs (`Engine.exists_inputs`).

Along any run of inputs, all that is answered to those that concern a key, all that is written to the
sessions of the key, and the status of the key are the same as if no other input had come
(`Engine.broadcasts_isolated`). For an input does to what the engine holds of the key the same as
alone if it concerns the key, and nothing otherwise (`Engine.only_react`).
-/

namespace BroadcastRelay

open Registry Fanout

/-! ## Inputs -/

/-- What a publisher sends. -/
inductive Signal where
  /-- A video track of an encoding begins. -/
  | videoTrack (rid : String) (ssrc : UInt32) (codec : Codec)
  /-- An audio track begins. -/
  | audioTrack (codec : Codec)
  /-- Video packets come through the handle of a track. -/
  | video (handle : Nat) (packets : List VideoPacket)
  /-- Audio packets come. -/
  | audio (count : Nat)
deriving DecidableEq, Repr

/-- What comes to an engine. -/
inductive Input where
  /-- A publisher asks to be put on air. -/
  | ingest (now : UInt64) (key id : String) (course : Course Unit)
  /-- A viewer asks for a session. -/
  | egress (now : UInt64) (key id : String) (course : Course Unit)
  /-- A viewer asks for a layer. -/
  | setLayer (sessionId encodingId : String)
  /-- A viewer asks which layers there are. -/
  | layers (sessionId : String)
  /-- Someone asks for the status of a key. -/
  | status (key : String)
  /-- Someone asks for the status of all keys. -/
  | statuses
  /-- The connection made after `n` others for the key reports a state. -/
  | report (key : String) (n : Nat) (state : PeerState)
  /-- Something comes for the broadcast made after `n` others for the key. -/
  | signal (key : String) (n : Nat) (s : Signal)
deriving DecidableEq, Repr

namespace Signal

/-- What comes for a broadcast, as an operation of the engine. -/
def operation (b : Nat) : Signal → Operation
  | videoTrack rid ssrc codec => .videoTrack b rid ssrc codec
  | audioTrack codec => .audioTrack b codec
  | video handle packets => .video b handle packets
  | audio count => .audio b count

/-- What becomes of the broadcast. -/
def change : Signal → Broadcast → Broadcast
  | videoTrack rid ssrc codec, b => { (b.addLayer rid ssrc).1 with videoCodec := some codec }
  | audioTrack codec, b => { b with audioCodec := some codec }
  | video handle packets, b => b.countVideo handle (UInt64.ofNat packets.length)
  | audio count, b => b.countAudio (UInt64.ofNat count)

/-- What is sent to the sessions of the broadcast. -/
def send (r : Registry) (b : Nat) : Signal → Registry
  | video _ packets => r.sendVideo b packets
  | audio count => r.sendAudio b count
  | _ => r

/-- The packets that go out to a session. -/
def events : Signal → List (Event Unit)
  | video handle packets =>
    (latest Broadcast.videoCapacity packets).map fun p => .packet handle (.video p)
  | audio count => List.replicate (min count Broadcast.audioCapacity) (.packet 0 (.audio ()))
  | _ => []

end Signal

/-- The place of the broadcast made after `n` others for the key. -/
def Registry.nthBroadcast (r : Registry) (key : String) (n : Nat) : Nat :=
  r.broadcasts.findIdxNth (·.key = key) n

/-- The place of the connection made after `n` others for the key. -/
def Registry.nthPeer (r : Registry) (key : String) (n : Nat) : Nat :=
  r.peers.findIdxNth (r.isPeerOf key) n

namespace Input

/-- Whether an input names the key or a session of it, where `keyOf` tells for which key the id of a
session was drawn. -/
def concerns (keyOf : String → String) (k : String) : Input → Bool
  | ingest _ key _ _ | egress _ key _ _ | status key | report key _ _ | signal key _ _ => key = k
  | setLayer sessionId _ | layers sessionId => keyOf sessionId = k
  | statuses => false

/-- The operation that an input leads to, unless it only asks something. -/
def operation? (r : Registry) : Input → Option Operation
  | ingest now key id course => some (.ingest now key id course)
  | egress now key id course => some (.egress now key id course)
  | setLayer sessionId encodingId => some (.setLayer sessionId encodingId)
  | report key n state => some (.report (r.nthPeer key n) state)
  | signal key n s => some (s.operation (r.nthBroadcast key n))
  | layers _ | status _ | statuses => none

end Input

/-- What an input is answered. -/
inductive Reply where
  /-- A publisher is on air, or refused. -/
  | ingest (verdict : Except TransportError Unit)
  /-- A viewer has a session, with tracks of these codecs, or is refused. -/
  | egress (verdict : Except TransportError (Option (Codec × Codec)))
  /-- A layer is selected, or refused. -/
  | setLayer (verdict : Except TransportError Unit)
  /-- The layers of a session. -/
  | layers (found : Except TransportError (List Layer))
  /-- The status of a key. -/
  | status (found : Option StreamStatus)
  /-- The status of all keys. -/
  | statuses (all : List StreamStatus)
  /-- Nobody waits for an answer. -/
  | nothing

/-! ## Renumbered sessions -/

namespace Session

variable {α : Type} (β π : Nat → Nat) (offered : String → Bool)

theorem writes_moved (t : Session) (ev : Event α) : (t.moved β π).writes ev = t.writes ev := by
  cases ev with
  | packet handle p =>
    cases p with
    | video p => rw [writes, writes, moved_forwardVideo]
    | audio a => rfl
  | setLayer sessionId encodingId => rfl
  | join now key id => rfl

theorem hear_moved (t : Session) (ev : Event α) :
    (t.moved β π).hear offered ev = (t.hear offered ev).moved β π := by
  cases ev with
  | packet handle p =>
    cases p with
    | video p => rw [hear, hear, moved_forwardVideo]
    | audio a => rfl
  | setLayer sessionId encodingId =>
    have hid : (t.moved β π).id = t.id := rfl
    rw [hear, hear, hid]
    split
    · exact (moved_switchLayer β π t encodingId).symm
    · rfl
  | join now key id => rfl

/-- What is written to a session does not depend on the places of its broadcast and connection. -/
theorem recording_moved (t : Session) (events : List (Event α)) :
    (t.moved β π).recording offered events = t.recording offered events := by
  induction events generalizing t with
  | nil => rfl
  | cons ev events ih => rw [recording, recording, writes_moved, hear_moved, ih]

/-- Packets of video heard one by one. -/
theorem hearAll_video (handle : Nat) (packets : List VideoPacket) (t : Session) :
    t.hearAll offered (packets.map fun p => (.packet handle (.video p) : Event α)) =
      packets.foldl (fun s p => (s.forwardVideo p).1) t := List.foldl_map

/-- Packets of audio heard one by one are counted as those that come at once. -/
theorem hearAll_audio (a : α) (n : Nat) (t : Session) :
    t.hearAll offered (List.replicate n (.packet 0 (.audio a))) = t.forwardAudio (UInt64.ofNat n) := by
  induction n generalizing t with
  | zero => simp [hearAll, forwardAudio, recordWritten]
  | succ n ih =>
    have hone := ih (t.forwardAudio 1)
    have hsum : t.written + 1 + UInt64.ofNat n = t.written + UInt64.ofNat (n + 1) := by
      rw [UInt64.ofNat_add, UInt64.add_assoc, UInt64.add_comm 1]
      rfl
    rw [List.replicate_succ, hearAll, List.foldl_cons]
    refine hone.trans ?_
    simp only [forwardAudio, recordWritten, hsum]

end Session

namespace Engine

variable {r : Registry} {e : Engine} {keyOf : String → String} {k key : String}

/-- The codecs of the tracks that a new viewer of a key is offered. -/
def tracks (e : Engine) (now : UInt64) (key : String) : Option (Codec × Codec) :=
  let (r, b) := e.registry.streamOrCreate now key
  (r.broadcasts[b]?).map Broadcast.trackCodecs

/-- The engine after an input. -/
def react (e : Engine) (x : Input) : Engine := (x.operation? e.registry).elim e e.apply

/-- What an input is answered. -/
def reply (e : Engine) : Input → Reply
  | .ingest now key id course => .ingest (e.ingestWith now key id course).2
  | .egress now key id course =>
    .egress ((e.egressWith now key id course).2.map fun _ => e.tracks now key)
  | .setLayer sessionId encodingId => .setLayer (e.setLayer sessionId encodingId).2
  | .layers sessionId => .layers (e.layers sessionId)
  | .status key => .status (e.status key)
  | .statuses => .statuses e.statuses
  | .report _ _ _ | .signal _ _ _ => .nothing

/-- The packets written to the sessions of the key at an input, each with the id of its session. -/
def written (e : Engine) (k : String) : Input → List (String × Write Unit)
  | .signal key n s =>
    ((e.registry.sessions.filter (·.streamKey = k)).filter
      (e.registry.receives (e.registry.nthBroadcast key n))).flatMap fun t =>
        (t.recording (fun _ => false) s.events).map (t.id, ·)
  | _ => []

/-! ## Runs -/

/-- The engine after some inputs. -/
def after (e : Engine) (xs : List Input) : Engine := xs.foldl react e

/-- What is answered to the inputs that satisfy `p`. -/
def replies (e : Engine) (p : Input → Bool) : List Input → List Reply
  | [] => []
  | x :: xs => (if p x then [e.reply x] else []) ++ (e.react x).replies p xs

/-- The packets written to the sessions of the key. -/
def deliveries (e : Engine) (k : String) : List Input → List (String × Write Unit)
  | [] => []
  | x :: xs => e.written k x ++ (e.react x).deliveries k xs

/-! ## Places -/

theorem nthBroadcast_only (r : Registry) (k : String) (n : Nat) :
    (r.only k).nthBroadcast k n = r.broadcastPlace k (r.nthBroadcast k n) := by
  have hall : ∀ x ∈ (r.only k).broadcasts, decide (x.key = k) = true := by
    intro x hx
    obtain ⟨y, hy, rfl⟩ := List.mem_map.mp hx
    exact (List.mem_filter.mp hy).2
  have hplace := place_findIdxNth (·.key = k) r.broadcasts n
  rw [nthBroadcast, findIdxNth_of_forall hall, length_broadcasts_only]
  exact hplace.symm

theorem nthPeer_only (r : Registry) (k : String) (n : Nat) :
    (r.only k).nthPeer k n = r.peerPlace k (r.nthPeer k n) := by
  have hplace := place_findIdxNth (r.isPeerOf k) r.peers n
  rw [nthPeer, findIdxNth_of_forall fun p hp => isPeerOf_only hp, length_peers_only]
  exact hplace.symm

theorem keyAt?_nthBroadcast_of_ne (r : Registry) (hne : key ≠ k) (n : Nat) :
    r.keyAt? (r.nthBroadcast key n) ≠ some k := by
  have hother : ∀ x : Broadcast, decide (x.key = key) = true → decide (x.key = k) = false :=
    fun x hx => decide_eq_false fun heq => hne ((of_decide_eq_true hx).symm.trans heq)
  have hnot := any_findIdxNth_of_disjoint hother r.broadcasts n
  rw [any_key] at hnot
  exact of_decide_eq_false hnot

theorem peerKey?_nthPeer_of_ne (r : Registry) (hne : key ≠ k) (n : Nat) :
    r.peerKey? (r.nthPeer key n) ≠ some k := by
  have hother : ∀ p : Peer, r.isPeerOf key p = true → r.isPeerOf k p = false := fun p hp =>
    decide_eq_false fun heq =>
      hne (Option.some.inj ((of_decide_eq_true hp).symm.trans heq))
  have hnot := any_findIdxNth_of_disjoint hother r.peers n
  rw [any_isPeerOf] at hnot
  exact of_decide_eq_false hnot

/-! ## One input -/

/-- What comes for a broadcast changes it, and is then sent to its sessions. -/
theorem apply_operation (e : Engine) (b : Nat) (s : Signal) :
    e.apply (s.operation b) =
      e.withRegistry (s.send (e.registry.modifyBroadcast b s.change) b) := by
  cases s <;> rfl

/-- The sessions that get what comes for a broadcast hear all that is written to them. -/
theorem sessions_apply_operation (e : Engine) (b : Nat) (s : Signal) :
    (e.apply (s.operation b)).registry.sessions = e.registry.sessions.map fun t =>
      if e.registry.receives b t then t.hearAll (fun _ => false) s.events else t := by
  have htrack : e.registry.sessions.map (fun t =>
      if e.registry.receives b t then t.hearAll (fun _ => false) ([] : List (Event Unit)) else t) =
        e.registry.sessions := by simp [Session.hearAll]
  rw [apply_operation]
  cases s with
  | videoTrack rid ssrc codec => exact htrack.symm
  | audioTrack codec => exact htrack.symm
  | video handle packets =>
    simp only [Signal.events, Session.hearAll_video]
    rfl
  | audio count =>
    simp only [Signal.events, Session.hearAll_audio]
    rfl

theorem moved_change (π : Nat → Nat) (s : Signal) (x : Broadcast) :
    (s.change x).moved π = s.change (x.moved π) := by
  cases s <;> rfl

theorem key_change (s : Signal) (x : Broadcast) : (s.change x).key = x.key := by
  cases s <;> rfl

theorem publisher_change (s : Signal) (x : Broadcast) :
    (s.change x).publisher = x.publisher := by
  cases s <;> rfl

theorem only_send (h : r.Apart keyOf) (k : String) (b : Nat) (s : Signal) :
    (s.send r b).only k = s.send (r.only k) (r.broadcastPlace k b) := by
  cases s with
  | videoTrack rid ssrc codec => rfl
  | audioTrack codec => rfl
  | video handle packets => exact only_sendVideo h k b packets
  | audio count => exact only_sendAudio h k b count

theorem only_send_of_ne (h : r.Apart keyOf) {b : Nat} (hb : r.keyAt? b ≠ some k) (s : Signal) :
    (s.send r b).only k = r.only k := by
  cases s with
  | videoTrack rid ssrc codec => rfl
  | audioTrack codec => rfl
  | video handle packets => exact only_sendVideo_of_ne h hb packets
  | audio count => exact only_sendAudio_of_ne h hb count

/-- Something comes for a broadcast, be it one of the key or not. -/
theorem only_signal (h : e.registry.Apart keyOf) (k : String) (b : Nat) (s : Signal) :
    (e.apply (s.operation b)).only k =
      (e.only k).apply (s.operation (e.registry.broadcastPlace k b)) := by
  have happart := h.modifyBroadcast b (key_change s) (publisher_change s)
  have hsend : (s.send (e.registry.modifyBroadcast b s.change) b).only k =
      s.send ((e.registry.only k).modifyBroadcast (e.registry.broadcastPlace k b) s.change)
        (e.registry.broadcastPlace k b) := by
    rw [only_send happart, only_modifyBroadcast _ k (key_change s) (moved_change _ s),
      broadcastPlace_modifyBroadcast _ k (key_change s)]
  rw [apply_operation, apply_operation]
  exact congrArg e.withRegistry hsend

/-- Something comes for a broadcast of another key. -/
theorem only_signal_of_ne (h : e.registry.Apart keyOf) {b : Nat} (hb : e.registry.keyAt? b ≠ some k)
    (s : Signal) : (e.apply (s.operation b)).only k = e.only k := by
  have happart := h.modifyBroadcast b (key_change s) (publisher_change s)
  have hb' : (e.registry.modifyBroadcast b s.change).keyAt? b ≠ some k := by
    rwa [keyAt?_modifyBroadcast _ b (key_change s)]
  have hsend : (s.send (e.registry.modifyBroadcast b s.change) b).only k = e.registry.only k := by
    rw [only_send_of_ne happart hb', only_modifyBroadcast _ k (key_change s) (moved_change _ s),
      modifyBroadcast_only_of_ne hb]
  rw [apply_operation]
  exact congrArg e.withRegistry hsend

/-- An input that concerns a key does to what the engine holds of it the same as alone. -/
theorem only_react (h : e.registry.Apart keyOf) {x : Input}
    (hid : ∀ now key id course, x = .egress now key id course → keyOf id = key)
    (hx : x.concerns keyOf k = true) : (e.react x).only k = (e.only k).react x := by
  cases x with
  | ingest now key id course =>
    obtain rfl : key = k := of_decide_eq_true hx
    exact only_ingestWith h now key id course
  | egress now key id course =>
    obtain rfl : key = k := of_decide_eq_true hx
    exact only_egressWith h now (hid now key id course rfl) course
  | setLayer sessionId encodingId =>
    exact (only_setLayer h.told (of_decide_eq_true hx) encodingId).1
  | layers sessionId => rfl
  | status key => rfl
  | statuses => rfl
  | report key n state =>
    obtain rfl : key = k := of_decide_eq_true hx
    have hevent := only_peerEvent h key (e.registry.nthPeer key n) state
    rw [← nthPeer_only] at hevent
    exact congrArg e.withRegistry hevent
  | signal key n s =>
    obtain rfl : key = k := of_decide_eq_true hx
    have hsignal := only_signal h key (e.registry.nthBroadcast key n) s
    rw [← nthBroadcast_only] at hsignal
    exact hsignal

/-- An input that does not concern a key does nothing to what the engine holds of it. -/
theorem only_react_of_not_concerns (h : e.registry.Apart keyOf) {x : Input}
    (hid : ∀ now key id course, x = .egress now key id course → keyOf id = key)
    (hx : x.concerns keyOf k = false) : (e.react x).only k = e.only k := by
  cases x with
  | ingest now key id course => exact only_ingestWith_of_ne h now id course (of_decide_eq_false hx)
  | egress now key id course =>
    exact only_egressWith_of_ne h now (hid now key id course rfl) course (of_decide_eq_false hx)
  | setLayer sessionId encodingId =>
    exact only_setLayer_of_ne h.told (of_decide_eq_false hx) encodingId
  | layers sessionId => rfl
  | status key => rfl
  | statuses => rfl
  | report key n state =>
    have hpeer := peerKey?_nthPeer_of_ne e.registry (of_decide_eq_false hx) n
    have hevent := only_peerEvent h k (e.registry.nthPeer key n) state
    rw [peerEvent_only_of_ne hpeer] at hevent
    exact congrArg e.withRegistry hevent
  | signal key n s =>
    exact only_signal_of_ne h (keyAt?_nthBroadcast_of_ne _ (of_decide_eq_false hx) n) s

/-! ## Operations as inputs -/

/-- Nothing comes of what is sent for a broadcast that is not there. -/
theorem apply_operation_of_none (h : e.registry.Apart keyOf) {b : Nat}
    (hb : e.registry.keyAt? b = none) (s : Signal) : e.apply (s.operation b) = e := by
  have hbroadcast : e.registry.broadcasts[b]? = none := Option.map_eq_none_iff.mp hb
  have hchange : e.registry.modifyBroadcast b s.change = e.registry :=
    Registry.ext rfl (modify_of_getElem?_eq_none hbroadcast) rfl rfl rfl
  have hsessions : ∀ f : Session → Session, e.registry.sessions.map (fun t =>
      if e.registry.receives b t then f t else t) = e.registry.sessions := by
    intro f
    refine (List.map_congr_left fun t ht => ?_).trans (List.map_id _)
    have hother : e.registry.keyAt? b ≠ some t.streamKey := by simp [hb]
    rw [receives_of_ne h ht rfl hother, if_neg Bool.false_ne_true]
    rfl
  have hsend : s.send e.registry b = e.registry := by
    cases s with
    | videoTrack rid ssrc codec => rfl
    | audioTrack codec => rfl
    | video handle packets => exact Registry.ext rfl rfl (hsessions _) rfl rfl
    | audio count => exact Registry.ext rfl rfl (hsessions _) rfl rfl
  rw [apply_operation, hchange, hsend]
  rfl

theorem exists_nthBroadcast {b : Nat} (h : r.keyAt? b = some key) :
    ∃ n, r.nthBroadcast key n = b :=
  ⟨_, findIdxNth_countPBefore ((any_key r key b).trans (decide_eq_true h))⟩

theorem exists_nthPeer {i : Nat} (h : r.peerKey? i = some key) : ∃ n, r.nthPeer key n = i :=
  ⟨_, findIdxNth_countPBefore ((any_isPeerOf r key i).trans (decide_eq_true h))⟩

/-- Every operation but the shutdown is what some input leads to, or does nothing. -/
theorem exists_input (h : e.registry.Apart keyOf) {op : Operation} (hop : op ≠ .shutdown) :
    (∃ x : Input, x.operation? e.registry = some op) ∨ e.apply op = e := by
  have hsignal : ∀ (b : Nat) (s : Signal),
      (∃ x : Input, x.operation? e.registry = some (s.operation b)) ∨
        e.apply (s.operation b) = e := by
    intro b s
    cases hb : e.registry.keyAt? b with
    | none => exact .inr (apply_operation_of_none h hb s)
    | some key =>
      obtain ⟨n, rfl⟩ := exists_nthBroadcast hb
      exact .inl ⟨.signal key n s, rfl⟩
  cases op with
  | ingest now key id course => exact .inl ⟨.ingest now key id course, rfl⟩
  | egress now key id course => exact .inl ⟨.egress now key id course, rfl⟩
  | setLayer sessionId encodingId => exact .inl ⟨.setLayer sessionId encodingId, rfl⟩
  | report peer state =>
    cases hpeer : e.registry.role? peer with
    | none =>
      have hnone : e.registry.peers[peer]? = none := Option.map_eq_none_iff.mp hpeer
      have hevent : e.registry.peerEvent peer state = e.registry := by
        rw [peerEvent, hnone]
        exact ite_self _
      exact .inr (congrArg e.withRegistry hevent)
    | some role =>
      obtain ⟨key, hkey⟩ := h.role hpeer
      obtain ⟨n, rfl⟩ := exists_nthPeer (peerKey?_eq_some_iff.mpr ⟨role, hpeer, hkey⟩)
      exact .inl ⟨.report key n state, rfl⟩
  | videoTrack broadcast rid ssrc codec => exact hsignal broadcast (.videoTrack rid ssrc codec)
  | audioTrack broadcast codec => exact hsignal broadcast (.audioTrack codec)
  | video broadcast handle packets => exact hsignal broadcast (.video handle packets)
  | audio broadcast count => exact hsignal broadcast (.audio count)
  | shutdown => exact absurd rfl hop

/-- Every run of operations without a shutdown is a run of inputs, in which no other sessions are
made. -/
theorem exists_inputs (h : e.registry.Apart keyOf) (ops : List Operation)
    (hops : ∀ op ∈ ops, op ≠ .shutdown)
    (hids : ∀ now key id course, .egress now key id course ∈ ops → keyOf id = key) :
    ∃ xs, e.after xs = ops.foldl apply e ∧
      ∀ now key id course, .egress now key id course ∈ xs →
        Operation.egress now key id course ∈ ops := by
  induction ops generalizing e with
  | nil => exact ⟨[], rfl, by simp⟩
  | cons op ops ih =>
    have hop := hops op List.mem_cons_self
    have hid : ∀ now key id course, op = .egress now key id course → keyOf id = key :=
      fun now key id course heq => hids now key id course (heq ▸ List.mem_cons_self)
    obtain ⟨xs, hxs, hnew⟩ := ih (apart_apply h hop hid)
      (fun other hother => hops other (List.mem_cons_of_mem op hother))
      fun now key id course hmem => hids now key id course (List.mem_cons_of_mem op hmem)
    rcases exists_input h hop with ⟨x, hx⟩ | hsame
    · have hreact : e.react x = e.apply op := congrArg (Option.elim · e e.apply) hx
      refine ⟨x :: xs, ?_, fun now key id course hmem => ?_⟩
      · rw [after, List.foldl_cons, hreact]
        exact hxs
      · rcases List.mem_cons.mp hmem with rfl | hmem
        · exact Option.some.inj hx ▸ List.mem_cons_self
        · exact List.mem_cons_of_mem op (hnew now key id course hmem)
    · refine ⟨xs, ?_, fun now key id course hmem =>
        List.mem_cons_of_mem op (hnew now key id course hmem)⟩
      rw [List.foldl_cons, ← hxs, hsame]

/-! ## Answers and packets -/

/-- Whether a publisher is refused is told by the course of the negotiation. -/
theorem snd_ingestWith {α : Type} (e e' : Engine) (now : UInt64) (key id : String)
    (course : Course α) : (e.ingestWith now key id course).2 = (e'.ingestWith now key id course).2 := by
  cases course with
  | answered a => rfl
  | failed step cause => cases step <;> rfl

/-- Whether a viewer is refused is told by the course of the negotiation. -/
theorem snd_egressWith {α : Type} (e e' : Engine) (now : UInt64) (key id : String)
    (course : Course α) : (e.egressWith now key id course).2 = (e'.egressWith now key id course).2 := by
  cases course with
  | answered a => rfl
  | failed step cause => cases step <;> rfl

theorem tracks_only (h : e.registry.Apart keyOf) (now : UInt64) (k : String) :
    (e.only k).tracks now k = e.tracks now k := by
  obtain ⟨hfound, hplace⟩ := only_streamOrCreate h now k
  have hkey := keyAt?_streamOrCreate_self h.told.wellFormed now k
  have hread := getElem?_broadcasts_only_of_eq hkey
  rw [hfound, hplace] at hread
  simp only [tracks, only, withRegistry, hread, Option.map_map]
  rfl

/-- What an input is answered that concerns the key can be seen in what the engine holds of the
key. -/
theorem reply_only (h : e.registry.Apart keyOf) {x : Input} (hx : x.concerns keyOf k = true) :
    (e.only k).reply x = e.reply x := by
  cases x with
  | ingest now key id course => exact congrArg Reply.ingest (snd_ingestWith _ _ now key id course)
  | egress now key id course =>
    obtain rfl : key = k := of_decide_eq_true hx
    rw [reply, reply, tracks_only h, snd_egressWith _ e]
  | setLayer sessionId encodingId =>
    exact congrArg Reply.setLayer (only_setLayer h.told (of_decide_eq_true hx) encodingId).2.symm
  | layers sessionId => exact congrArg Reply.layers (layers_only h.told (of_decide_eq_true hx))
  | status key =>
    obtain rfl : key = k := of_decide_eq_true hx
    exact congrArg Reply.status (status_only h.told.wellFormed key)
  | statuses => exact absurd hx Bool.false_ne_true
  | report key n state => rfl
  | signal key n s => rfl

theorem written_only (h : e.registry.Apart keyOf) {x : Input} (hx : x.concerns keyOf k = true) :
    (e.only k).written k x = e.written k x := by
  cases x with
  | signal key n s =>
    obtain rfl : key = k := of_decide_eq_true hx
    have hown : (e.registry.only key).sessions.filter (·.streamKey = key) =
        (e.registry.only key).sessions := by
      refine List.filter_eq_self.mpr fun t ht => ?_
      obtain ⟨u, hu, rfl⟩ := List.mem_map.mp ht
      exact (List.mem_filter.mp hu).2
    have hreceives : ∀ t ∈ e.registry.sessions.filter (·.streamKey = key),
        (e.registry.only key).receives ((e.registry.only key).nthBroadcast key n)
          (t.moved (e.registry.broadcastPlace key) (e.registry.peerPlace key)) =
        e.registry.receives (e.registry.nthBroadcast key n) t := by
      intro t ht
      obtain ⟨hmem, ht⟩ := List.mem_filter.mp ht
      rw [nthBroadcast_only, receives_only h hmem (of_decide_eq_true ht)]
    have hfilter : (e.registry.only key).sessions.filter
        ((e.registry.only key).receives ((e.registry.only key).nthBroadcast key n)) =
        ((e.registry.sessions.filter (·.streamKey = key)).filter
          (e.registry.receives (e.registry.nthBroadcast key n))).map
            (·.moved (e.registry.broadcastPlace key) (e.registry.peerPlace key)) :=
      List.filter_map.trans (congrArg (List.map _) (List.filter_congr hreceives))
    simp only [written, only, withRegistry, hown, hfilter, List.flatMap_map,
      Session.recording_moved]
    rfl
  | _ => rfl

theorem written_of_not_concerns (h : e.registry.Apart keyOf) {x : Input}
    (hx : x.concerns keyOf k = false) : e.written k x = [] := by
  cases x with
  | signal key n s =>
    have hb := keyAt?_nthBroadcast_of_ne e.registry (of_decide_eq_false hx) n
    have hnone : (e.registry.sessions.filter (·.streamKey = k)).filter
        (e.registry.receives (e.registry.nthBroadcast key n)) = [] := by
      refine List.filter_eq_nil_iff.mpr fun t ht => ?_
      obtain ⟨hmem, ht⟩ := List.mem_filter.mp ht
      rw [receives_of_ne h hmem (of_decide_eq_true ht) hb]
      exact Bool.false_ne_true
    rw [written, hnone, List.flatMap_nil]
  | _ => rfl

/-! ## All of a run -/

theorem apart_react (h : e.registry.Apart keyOf) {x : Input}
    (hid : ∀ now key id course, x = .egress now key id course → keyOf id = key) :
    (e.react x).registry.Apart keyOf := by
  cases x with
  | ingest now key id course => exact apart_ingestWith h now key id course
  | egress now key id course => exact apart_egressWith h now (hid now key id course rfl) course
  | setLayer sessionId encodingId => exact apart_setLayer h sessionId encodingId
  | layers sessionId => exact h
  | status key => exact h
  | statuses => exact h
  | report key n state => exact h.peerEvent _ state
  | signal key n s =>
    refine apart_apply h ?_ fun now key id course heq => ?_
    · cases s <;> simp [Signal.operation]
    · cases s <;> simp [Signal.operation] at heq

theorem apart_after (h : e.registry.Apart keyOf) (xs : List Input)
    (hids : ∀ now key id course, .egress now key id course ∈ xs → keyOf id = key) :
    (e.after xs).registry.Apart keyOf := by
  induction xs generalizing e with
  | nil => exact h
  | cons x xs ih =>
    have hreact := apart_react h (x := x) fun now key id course hx =>
      hids now key id course (hx ▸ List.mem_cons_self)
    exact ih hreact fun now key id course hx => hids now key id course (List.mem_cons_of_mem _ hx)

/-- From wherever the keys are apart, a run does at a key what is done there by the inputs alone that
concern the key. -/
theorem run_only (h : e.registry.Apart keyOf) (k : String) (xs : List Input)
    (hids : ∀ now key id course, .egress now key id course ∈ xs → keyOf id = key) :
    e.replies (·.concerns keyOf k) xs =
        (e.only k).replies (fun _ => true) (xs.filter (·.concerns keyOf k)) ∧
      e.deliveries k xs = (e.only k).deliveries k (xs.filter (·.concerns keyOf k)) ∧
      (e.after xs).only k = (e.only k).after (xs.filter (·.concerns keyOf k)) := by
  induction xs generalizing e with
  | nil => exact ⟨rfl, rfl, rfl⟩
  | cons x xs ih =>
    have hid : ∀ now key id course, x = .egress now key id course → keyOf id = key :=
      fun now key id course hx => hids now key id course (hx ▸ List.mem_cons_self)
    obtain ⟨hreplies, hdeliveries, hafter⟩ := ih (apart_react h hid)
      fun now key id course hx => hids now key id course (List.mem_cons_of_mem _ hx)
    cases hx : x.concerns keyOf k with
    | true =>
      rw [only_react h hid hx] at hreplies hdeliveries hafter
      rw [List.filter_cons_of_pos hx]
      refine ⟨?_, ?_, hafter⟩
      · rw [replies, replies, hx, hreplies, reply_only h hx]
      · rw [deliveries, deliveries, hdeliveries, written_only h hx]
    | false =>
      rw [only_react_of_not_concerns h hid hx] at hreplies hdeliveries hafter
      rw [List.filter_cons_of_neg (by simp [hx])]
      refine ⟨?_, ?_, hafter⟩
      · rw [replies, hx, hreplies]
        rfl
      · rw [deliveries, hdeliveries, written_of_not_concerns h hx]
        rfl

/-- What happens at other keys does not show at a key: along any run from a new engine, the answers
to what concerns the key, the packets written to its sessions and its status in the end are those of
the run of the inputs alone that concern it. The id of a session is drawn for one key only. -/
theorem broadcasts_isolated (settings : EngineSettings) (xs : List Input)
    (keyOf : String → String)
    (hids : ∀ now key id course, .egress now key id course ∈ xs → keyOf id = key) (k : String) :
    let e : Engine := ⟨settings, .fresh⟩
    let own := xs.filter (·.concerns keyOf k)
    e.replies (·.concerns keyOf k) xs = e.replies (fun _ => true) own ∧
      e.deliveries k xs = e.deliveries k own ∧
      (e.after xs).status k = (e.after own).status k := by
  intro e own
  have hapart : e.registry.Apart keyOf := apart_fresh
  have hstart : e.only k = e := congrArg e.withRegistry (only_fresh k)
  obtain ⟨hreplies, hdeliveries, hafter⟩ := run_only hapart k xs hids
  rw [hstart] at hreplies hdeliveries hafter
  have hstatus : ((e.after xs).only k).status k = (e.after xs).status k :=
    status_only (apart_after hapart xs hids).told.wellFormed k
  exact ⟨hreplies, hdeliveries, hafter ▸ hstatus.symm⟩

/-- Two broadcasts at once: while "live" is watched, the publisher of "other" comes, is watched too,
sends and is lost, and its viewer asks for a layer. -/
def twoBroadcasts : List Input :=
  [.ingest 1 "live" "p" (.answered ()), .ingest 2 "other" "q" (.answered ()),
    .signal "other" 0 (.videoTrack "x" 2 .defaultVideo),
    .signal "live" 0 (.videoTrack "h" 1 .defaultVideo),
    .egress 3 "other" "w" (.answered ()), .egress 4 "live" "v" (.answered ()),
    .signal "other" 0 (.video 0 [⟨"x", ⟨7, 0⟩⟩]), .signal "live" 0 (.video 0 [⟨"h", ⟨1, 0⟩⟩]),
    .setLayer "w" "h", .setLayer "v" "h", .report "other" 0 .failed, .statuses,
    .signal "live" 0 (.audio 1), .layers "v", .status "live"]

/-- The key that the ids of its sessions are drawn for. -/
def drawnFor (id : String) : String := if id = "v" then "live" else "other"

theorem broadcasts_isolated_watched :
    let e : Engine := ⟨.default, .fresh⟩
    let own := twoBroadcasts.filter (·.concerns drawnFor "live")
    own.length = 8 ∧
      e.deliveries "live" own =
        [("v", .video ⟨"h", ⟨1, 0⟩⟩ ⟨1, 0⟩), ("v", .audio ())] ∧
      e.replies (·.concerns drawnFor "live") twoBroadcasts = e.replies (fun _ => true) own ∧
      e.deliveries "live" twoBroadcasts = e.deliveries "live" own ∧
      (e.after twoBroadcasts).status "live" = (e.after own).status "live" := by
  intro e own
  have hids : ∀ now key id course, .egress now key id course ∈ twoBroadcasts →
      drawnFor id = key := by
    intro now key id course hx
    simp only [twoBroadcasts, List.mem_cons, Input.egress.injEq, reduceCtorEq, List.not_mem_nil,
      or_false, false_or] at hx
    rcases hx with ⟨-, rfl, rfl, -⟩ | ⟨-, rfl, rfl, -⟩ <;> rfl
  exact ⟨by decide, by decide, broadcasts_isolated .default twoBroadcasts drawnFor hids "live"⟩

end Engine

end BroadcastRelay
