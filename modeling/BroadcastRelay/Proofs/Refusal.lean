import BroadcastRelay.Proofs.Interleaving
import BroadcastRelay.Proofs.LiveStreams
/-!
# What a refused negotiation leaves behind

A viewer who is refused leaves no trace: the registry is as it was before the call
(`refused_egress_leaves_no_trace`). What the call made is still in the lists of connections,
broadcasts and sessions, but nothing registered leads to it (`Extends`). That the stream is there
again as it was rests on the registry being settled: the prune that undoes a new stream spares one
that was there, since something on it is live.

A publisher who is refused is not undone like that. Its broadcast goes off air, whoever was on it,
and stays registered only if it has viewers (`refused_ingest_goes_off_air`). Other broadcasts and
all sessions are as they were.
-/

namespace BroadcastRelay

open Registry

namespace Broadcast

/-- The broadcast without publisher, encodings and codecs. -/
def offAir (b : Broadcast) : Broadcast := b.takePublisher.clearMedia

/-- A publisher that is put on air and cleared leaves nothing of the one before it. -/
theorem clearPublisher_replacePublisher (b : Broadcast) (p : Publisher) :
    ((b.replacePublisher p).1.clearPublisher p.id).1 = b.offAir := by
  have hon : (b.replacePublisher p).1.isOnAir p.id = true := beq_self_eq_true p.id
  rw [clearPublisher, if_pos hon]
  rfl

theorem offAir_eq_self_iff {b : Broadcast} :
    b.offAir = b ↔
      b.publisher = none ∧ b.layers = [] ∧ b.videoCodec = none ∧ b.audioCodec = none := by
  constructor
  · intro h
    rw [← h]
    exact ⟨rfl, rfl, rfl, rfl⟩
  · rintro ⟨hpublisher, hlayers, hvideo, haudio⟩
    cases b
    simp_all [offAir, takePublisher, clearMedia, clearLayers]

end Broadcast

namespace Registry

variable {r r' : Registry}

/-! ## Registries with more in them -/

/-- The same keys and ids are registered, and lead to the same broadcasts and sessions. -/
structure Extends (r r' : Registry) : Prop where
  streams : r'.streams = r.streams
  viewers : r'.viewers = r.viewers
  broadcast_at : ∀ {b : Nat} {x}, r.broadcasts[b]? = some x → r'.broadcasts[b]? = some x
  session_at : ∀ {i : Nat} {s}, r.sessions[i]? = some s → r'.sessions[i]? = some s

namespace Extends

theorem refl (r : Registry) : r.Extends r := ⟨rfl, rfl, id, id⟩

theorem trans {r'' : Registry} (h : r.Extends r') (h' : r'.Extends r'') : r.Extends r'' where
  streams := h'.streams.trans h.streams
  viewers := h'.viewers.trans h.viewers
  broadcast_at hx := h'.broadcast_at (h.broadcast_at hx)
  session_at hs := h'.session_at (h.session_at hs)

theorem wellFormed (h : r.Extends r') (hw : r.WellFormed) : r'.WellFormed := by
  refine ⟨⟨h.streams ▸ hw.keys.ordered, fun {key b} hb => ?_⟩,
    ⟨h.viewers ▸ hw.ids.ordered, fun {id i} hi => ?_⟩⟩
  · rw [h.streams] at hb
    obtain ⟨x, hx, hkey⟩ := hw.keys.broadcast_at hb
    exact ⟨x, h.broadcast_at hx, hkey⟩
  · rw [h.viewers] at hi
    obtain ⟨s, hs, hid⟩ := hw.ids.session_at hi
    exact ⟨s, h.session_at hs, hid⟩

variable (h : r.Extends r') (hw : r.WellFormed)
include h hw

theorem broadcast_of_registered {key : String} {b : Nat} (hb : r.streams.get? key = some b) :
    r'.broadcasts[b]? = r.broadcasts[b]? := by
  obtain ⟨x, hx, -⟩ := hw.keys.broadcast_at hb
  rw [hx, h.broadcast_at hx]

theorem session_of_registered {id : String} {i : Nat} (hi : r.viewers.get? id = some i) :
    r'.sessions[i]? = r.sessions[i]? := by
  obtain ⟨s, hs, -⟩ := hw.ids.session_at hi
  rw [hs, h.session_at hs]

theorem stream?_eq (key : String) : r'.stream? key = r.stream? key := by
  rw [stream?, h.streams, stream?]
  cases hb : r.streams.get? key with
  | none => rfl
  | some b => exact h.broadcast_of_registered hw hb

theorem session?_eq (id : String) : r'.session? id = r.session? id := by
  rw [session?, h.viewers, session?]
  cases hi : r.viewers.get? id with
  | none => rfl
  | some i => exact h.session_of_registered hw hi

theorem sessionsOf_eq (key : String) : r'.sessionsOf key = r.sessionsOf key := by
  have hsame : ∀ i ∈ r.viewers.values, r'.sessions[i]? = r.sessions[i]? := by
    intro i hi
    obtain ⟨id, hid⟩ := hw.ids.ordered.mem_values.mp hi
    exact h.session_of_registered hw hid
  rw [sessionsOf, h.viewers, List.filterMap_congr hsame, sessionsOf]

theorem onAir_eq : r'.onAir = r.onAir := by
  have hsame : ∀ b ∈ r.streams.values, r'.broadcasts[b]? = r.broadcasts[b]? := by
    intro b hb
    obtain ⟨key, hkey⟩ := hw.keys.ordered.mem_values.mp hb
    exact h.broadcast_of_registered hw hkey
  rw [onAir, h.streams, List.filterMap_congr hsame, onAir]

theorem statusOf_eq : r'.statusOf = r.statusOf := by
  funext x
  rw [statusOf, h.sessionsOf_eq hw, statusOf]

theorem status_eq (key : String) : r'.status key = r.status key := by
  rw [status, h.stream?_eq hw, h.statusOf_eq hw, status]

theorem statuses_eq : r'.statuses = r.statuses := by
  rw [statuses, h.onAir_eq hw, h.statusOf_eq hw, statuses]

theorem live_iff (key : String) : r'.Live key ↔ r.Live key := by
  have hseat : ∀ id, r'.seat? id = r.seat? id := by
    intro id
    rw [seat?, h.session?_eq hw, seat?]
  simp only [Live, h.streams, hseat]
  refine or_congr_left (exists_congr fun b => exists_congr fun p => and_congr_right fun hb => ?_)
  rw [slot, h.broadcast_of_registered hw hb, slot]

end Extends

/-! ## Looking up and pruning again -/

/-- A stream that has just been made has nothing live on it. -/
theorem Settled.not_live_streamOrCreate (hs : r.Settled) (now : UInt64) {key : String}
    (hb : r.streams.get? key = none) : ¬ (r.streamOrCreate now key).1.Live key := by
  have hw := hs.wellFormed.streamOrCreate now key
  rintro (⟨c, p, hc, hp⟩ | ⟨id, c, hseat⟩)
  · rw [slot_streamOrCreate] at hp
    obtain ⟨k, hk⟩ := hs.registered_of_slot hp
    have hsame : k = key := hw.keys.key_unique (get?_streamOrCreate_of_some hk) hc
    rw [hsame, hb] at hk
    exact absurd hk (by simp)
  · rw [seat?_streamOrCreate] at hseat
    obtain ⟨d, hd⟩ := hs.registered_of_seat hseat
    rw [hb] at hd
    exact absurd hd (by simp)

/-- A stream that is looked up and then pruned is as it was: one that was there is live, and one
that was not is dropped again. -/
theorem Settled.extends_prune (hs : r.Settled) (now : UInt64) {key : String}
    (h : (r.streamOrCreate now key).1.Extends r') : r.Extends (r'.prune key) := by
  have hw := hs.wellFormed.streamOrCreate now key
  have hw' := h.wellFormed hw
  cases hb : r.streams.get? key with
  | some b =>
    rw [streamOrCreate_of_some now hb] at h
    have hlive : r.Live key := hs.live_of_registered not_false hb
    rw [prune_of_live hw' ((h.live_iff hs.wellFormed key).mpr hlive)]
    exact h
  | none =>
    have hlive := mt (h.live_iff hw key).mp (hs.not_live_streamOrCreate now hb)
    have hmade : (r.streamOrCreate now key).1 =
        { r with
            broadcasts := r.broadcasts ++ [.fresh key now]
            streams := r.streams.insert key r.broadcasts.length } := by
      rw [streamOrCreate, hb]
    rw [hmade] at h
    rw [prune_of_not_live hw' hlive]
    -- What the look-up inserted is erased, and the key was not in the map before.
    refine ⟨?_, h.viewers, fun hx => h.broadcast_at ?_, h.session_at⟩
    · rw [h.streams]
      exact (KeyMap.erase_insert _ _ _).trans (KeyMap.erase_of_get?_eq_none hb)
    · exact (List.getElem?_append_left (List.getElem?_eq_some_iff.mp hx).1).trans hx

/-- An id that no connection has had is not registered. -/
theorem Settled.get?_viewers_eq_none (hs : r.Settled) {id : String}
    (hnew : ∀ peer key, r.role? peer ≠ some (.viewer id key)) : r.viewers.get? id = none := by
  have hseat : r.seat? id = none := hs.seat_eq_none hnew
  cases hi : r.viewers.get? id with
  | none => rfl
  | some i =>
    obtain ⟨s, hsess, -⟩ := hs.wellFormed.ids.session_at hi
    rw [seat?, session?, hi, Option.bind_some, hsess] at hseat
    exact absurd hseat (by simp)

theorem extends_openPeer (r : Registry) (role : Role) : r.Extends (r.openPeer role).1 :=
  ⟨rfl, rfl, fun hx => hx, fun hs => hs⟩

/-- Removing an id that is not registered changes nothing. -/
theorem extends_removeSession {id : String} (hnone : r.viewers.get? id = none) :
    r.Extends (r.removeSession id).1 :=
  ⟨rfl, KeyMap.erase_of_get?_eq_none hnone, fun hx => hx, fun hs => hs⟩

/-- A session that is registered under a new id and removed again leaves nothing registered. -/
theorem extends_removeSession_insertSession {s : Session} (hnone : r.viewers.get? s.id = none) :
    r.Extends ((r.insertSession s).1.removeSession s.id).1 where
  streams := rfl
  viewers := (KeyMap.erase_insert _ _ _).trans (KeyMap.erase_of_get?_eq_none hnone)
  broadcast_at hx := hx
  session_at hx := (List.getElem?_append_left (List.getElem?_eq_some_iff.mp hx).1).trans hx

/-- A connection that is made and finished is closed and cancelled. -/
theorem peers_finish_openPeer (r : Registry) (role : Role) :
    ((r.openPeer role).1.finish r.peers.length).peers = r.peers ++ [⟨role, true, true⟩] := by
  simp [openPeer, finish, cancel, close, modify_concat, List.modify_eq_self]

/-! ## Broadcasts off air -/

/-- The place of a key has the publisher of the key in its slot. -/
theorem slot_place (r : Registry) (now : UInt64) (key : String) :
    r.slot (r.streamOrCreate now key).2 = (r.stream? key).bind (·.publisher) := by
  unfold streamOrCreate stream? slot
  cases r.streams.get? key with
  | some b => rfl
  | none => exact congrArg (Option.bind · _) (List.getElem?_eq_none le_rfl)

/-- A broadcast that a publisher is put on and taken off again is off air. -/
theorem clearPublisher_replacePublisher (r : Registry) (b : Nat) (p : Publisher) :
    ((r.replacePublisher b p).1.clearPublisher b p.id).1 = r.modifyBroadcast b .offAir := by
  simp only [replacePublisher, clearPublisher, modifyBroadcast, List.modify_modify_eq]
  have hboth : ((fun x => (x.clearPublisher p.id).1) ∘ fun x => (x.replacePublisher p).1) =
      Broadcast.offAir := funext fun x => x.clearPublisher_replacePublisher p
  rw [hboth]

/-- With no publisher on it, a key is pruned exactly if it has no viewers. -/
theorem prune_of_publisher_eq_none {key : String} {x : Broadcast} (hx : r.stream? key = some x)
    (hp : x.publisher = none) :
    r.prune key =
      if r.hasViewers key then r else { r with streams := r.streams.erase key } := by
  have hnot : x.hasPublisher = false := by rw [Broadcast.hasPublisher, hp, Option.isSome_none]
  rw [prune, dropUnpublished, hx, Option.any_some, hnot, Bool.not_false, if_pos rfl]

theorem sessionsOf_congr (hviewers : r'.viewers = r.viewers) (hsessions : r'.sessions = r.sessions)
    (key : String) : r'.sessionsOf key = r.sessionsOf key := by
  rw [sessionsOf, hviewers, hsessions, sessionsOf]

/-- What is registered when the broadcast of a key has been taken off air and pruned, whatever the
connections are: that broadcast if it has viewers, and all others. -/
theorem registered_of_offAir (hs : r.Settled) (now : UInt64) (key : String) (peers : List Peer) :
    let q : Registry := { (r.streamOrCreate now key).1.modifyBroadcast
      (r.streamOrCreate now key).2 .offAir with peers := peers }
    (q.prune key).stream? key =
        (if r.hasViewers key then (r.stream? key).map .offAir else none) ∧
      ∀ k, k ≠ key → (q.prune key).streams.get? k = r.streams.get? k ∧
        (q.prune key).stream? k = r.stream? k := by
  intro q
  have hw := hs.wellFormed.streamOrCreate now key
  have hkey := get?_streamOrCreate_self r now key
  have hstream : ∀ k, q.stream? k = if k = key
      then ((r.streamOrCreate now key).1.stream? key).map .offAir
      else (r.streamOrCreate now key).1.stream? k := stream?_modifyBroadcast hw hkey _
  have hother : ∀ k, k ≠ key → q.streams.get? k = r.streams.get? k ∧ q.stream? k = r.stream? k := by
    intro k hne
    have hplace := get?_streamOrCreate r now key k
    rw [if_neg hne] at hplace
    rw [hstream, if_neg hne]
    exact ⟨hplace, stream?_streamOrCreate_of_ne hs.wellFormed now hne⟩
  obtain ⟨y, hy, -⟩ := hw.keys.broadcast_at hkey
  have hoff : q.stream? key = some y.offAir := by
    rw [hstream, if_pos rfl, stream?, hkey, Option.bind_some, hy, Option.map_some]
  have hsame : q.hasViewers key = r.hasViewers key := by
    have hsessions : q.sessionsOf key = r.sessionsOf key := sessionsOf_congr
      (viewers_streamOrCreate r now key) (sessions_streamOrCreate r now key) key
    rw [hasViewers, hsessions, hasViewers]
  rw [prune_of_publisher_eq_none hoff rfl, hsame]
  split
  · rename_i hv
    obtain ⟨id, c, hseat⟩ := (hasViewers_iff hs.wellFormed).mp hv
    obtain ⟨d, hd⟩ := hs.registered_of_seat hseat
    refine ⟨?_, hother⟩
    rw [hstream, if_pos rfl, streamOrCreate_of_some now hd]
  · refine ⟨?_, fun k hne => ?_⟩
    · rw [stream?, KeyMap.get?_erase, if_pos rfl, Option.bind_none]
    · rw [stream?, KeyMap.get?_erase, if_neg hne]
      exact hother k hne

/-- A registered key without a publisher has viewers. -/
theorem hasViewers_of_publisher_eq_none (hs : r.Settled) {key : String} {x : Broadcast}
    (hx : r.stream? key = some x) (hp : x.publisher = none) : r.hasViewers key = true := by
  obtain ⟨b, hb, hbx⟩ := Option.bind_eq_some_iff.mp hx
  rcases hs.live_of_registered not_false hb with ⟨c, p, hc, hslot⟩ | hseat
  · have hplace : b = c := Option.some.inj (hb.symm.trans hc)
    rw [← hplace, slot, hbx, Option.bind_some, hp] at hslot
    exact absurd hslot (by simp)
  · exact (hasViewers_iff hs.wellFormed).mpr hseat

/-- A broadcast that goes off air is as it was exactly if there was nothing to lose. -/
theorem stream?_unchanged_iff (hs : r.Settled) {key : String}
    (hkey : r'.stream? key = if r.hasViewers key then (r.stream? key).map .offAir else none)
    (hother : ∀ k, k ≠ key → r'.stream? k = r.stream? k) :
    (∀ k, r'.stream? k = r.stream? k) ↔ ∀ x, r.stream? key = some x →
      x.publisher = none ∧ x.layers = [] ∧ x.videoCodec = none ∧ x.audioCodec = none := by
  constructor
  · intro hall x hx
    have hsame := hall key
    rw [hkey, hx] at hsame
    split at hsame
    · exact Broadcast.offAir_eq_self_iff.mp (Option.some.inj hsame)
    · exact absurd hsame (by simp)
  · intro hnothing k
    by_cases hk : k = key
    · rw [hk, hkey]
      cases hx : r.stream? key with
      | none => split <;> rfl
      | some x =>
        have hoff := hnothing x hx
        rw [if_pos (hasViewers_of_publisher_eq_none hs hx hoff.1), Option.map_some,
          Broadcast.offAir_eq_self_iff.mpr hoff]
    · exact hother k hk

end Registry

namespace Engine

variable {r r' : Registry} {e : Engine} {α : Type} {course : Course α} {cause : TransportError}

/-! ## Refused viewers -/

theorem extends_withdrawSession (hs : r.Settled) (now : UInt64) {key id : String} {q : Registry}
    (h : (r.streamOrCreate now key).1.Extends (q.removeSession id).1) (peer : Nat) :
    r.Extends (withdrawSession q peer key id) :=
  hs.extends_prune now ⟨h.streams, h.viewers, h.broadcast_at, h.session_at⟩

/-- A viewer who is refused, at whatever step, leaves the registry with nothing new registered. -/
theorem extends_egressWith (hs : e.registry.Settled) {now : UInt64} {key id : String}
    (hnew : ∀ peer k, e.registry.role? peer ≠ some (.viewer id k))
    (hrefused : (e.egressWith now key id course).2 = .error cause) :
    e.registry.Extends (e.egressWith now key id course).1.registry := by
  have hnone := hs.get?_viewers_eq_none hnew
  rw [← viewers_streamOrCreate e.registry now key] at hnone
  have hopened := extends_openPeer (e.registry.streamOrCreate now key).1 (.viewer id key)
  cases course with
  | answered a => exact absurd hrefused (by simp [egressWith])
  | failed step _ =>
    cases step with
    | connection => exact hs.extends_prune now (.refl _)
    | tracks =>
      have hremoved := hopened.trans (extends_removeSession hnone)
      exact extends_withdrawSession hs now hremoved _
    | offer =>
      have hremoved := hopened.trans (extends_removeSession_insertSession (s := .fresh id key
        (e.registry.streamOrCreate now key).2 (e.registry.streamOrCreate now key).1.peers.length)
        hnone)
      exact extends_withdrawSession hs now hremoved _

/-- A viewer who is refused leaves no running connection: one that was made is finished. -/
theorem peers_egressWith {now : UInt64} {key id : String}
    (hrefused : (e.egressWith now key id course).2 = .error cause) :
    (e.egressWith now key id course).1.registry.peers =
      e.registry.peers ++
        if course.failure? = some .connection then [] else [⟨.viewer id key, true, true⟩] := by
  have hpeers := peers_streamOrCreate e.registry now key
  have hmade := peers_finish_openPeer (e.registry.streamOrCreate now key).1 (.viewer id key)
  rw [← hpeers]
  cases course with
  | answered a => exact absurd hrefused (by simp [egressWith])
  | failed step _ =>
    cases step with
    | connection =>
      rw [Course.failure?, if_pos rfl, List.append_nil]
      exact peers_prune _ key
    | tracks =>
      rw [Course.failure?, if_neg (by simp)]
      exact (peers_prune _ key).trans hmade
    | offer =>
      rw [Course.failure?, if_neg (by simp)]
      exact (peers_prune _ key).trans hmade

/-- A viewer who is refused, at whatever step, leaves no trace: the same broadcasts and sessions are
registered, each as it was, so that every status is as it was; and the connection that was made for
it, if one was, is closed and cancelled. -/
theorem refused_egress_leaves_no_trace (h : e.Reachable) (now : UInt64) (key : String) {id : String}
    (hnew : ∀ peer k, e.registry.role? peer ≠ some (.viewer id k)) (course : Course α)
    (hrefused : (e.egressWith now key id course).2 = .error cause) :
    let e' := (e.egressWith now key id course).1
    (e'.registry.streams = e.registry.streams ∧
      ∀ k, e'.registry.stream? k = e.registry.stream? k) ∧
    (e'.registry.viewers = e.registry.viewers ∧
      ∀ x, e'.registry.session? x = e.registry.session? x) ∧
    (∀ k, e'.status k = e.status k) ∧ e'.statuses = e.statuses ∧
    e'.registry.peers = e.registry.peers ++
      if course.failure? = some .connection then [] else [⟨.viewer id key, true, true⟩] := by
  have hw := h.settled.wellFormed
  have hext := extends_egressWith h.settled hnew hrefused
  exact ⟨⟨hext.streams, hext.stream?_eq hw⟩, ⟨hext.viewers, hext.session?_eq hw⟩,
    hext.status_eq hw, hext.statuses_eq hw, peers_egressWith hrefused⟩

/-- A publisher is on air when a viewer is refused: it still is, and one more connection has
ended. -/
theorem refused_egress_leaves_no_trace_published :
    let e := (⟨.default, .fresh⟩ : Engine).apply (.ingest 0 "live" "p" (.answered ()))
    let refused : Course Unit := .failed .offer (.sdp "refused")
    let e' := (e.egressWith 1 "live" "v" refused).1
    e'.status "live" = some ⟨"live", 0, 0, [], []⟩ ∧
      e'.registry.peers = [⟨.publisher 0 "p", false, false⟩, ⟨.viewer "v" "live", true, true⟩] := by
  have hpublished := (Reachable.start .default).step (.ingest 0 "live" "p" (.answered ())) trivial
  have hnew : ∀ peer k, ((⟨.default, .fresh⟩ : Engine).apply
      (.ingest 0 "live" "p" (.answered ()))).registry.role? peer ≠ some (.viewer "v" k) := by
    intro peer k hrole
    have hmem : .viewer "v" k ∈ [Role.publisher 0 "p"] := mem_of_role? hrole
    simp at hmem
  obtain ⟨-, -, hstatus, -, hpeers⟩ := refused_egress_leaves_no_trace hpublished 1 "live" hnew
    (.failed .offer (.sdp "refused") : Course Unit) rfl
  exact ⟨hstatus "live", hpeers⟩

/-! ## Refused publishers -/

/-- The connection before is ended and the new one too, whichever they are. -/
theorem peers_finish_dismiss (r : Registry) (role : Role) (previous : Option Publisher) :
    ((dismiss (r.openPeer role).1 previous).finish r.peers.length).peers =
      (dismiss r previous).peers ++ [⟨role, true, true⟩] := by
  cases previous with
  | none => exact peers_finish_openPeer r role
  | some p =>
    by_cases hp : p.peer = r.peers.length <;>
      simp [dismiss, openPeer, finish, cancel, close, modify_concat, List.modify_eq_self, hp]

theorem peers_dismiss_congr (h : r.peers = r'.peers) (previous : Option Publisher) :
    (dismiss r previous).peers = (dismiss r' previous).peers := by
  cases previous with
  | none => exact h
  | some p => simp only [dismiss, finish, cancel, close, h]

/-- A publisher who is put on air and withdrawn: when it comes to the prune, the broadcast of the
key is off air, and the connections of the publisher before and of the new one have ended. -/
theorem withdrawPublisher_install (r : Registry) (now : UInt64) (key id : String) :
    ∃ b, withdrawPublisher (install r now key id).1 (install r now key id).2.1
        (install r now key id).2.2 key id =
      Registry.prune { (r.streamOrCreate now key).1.modifyBroadcast (r.streamOrCreate now key).2
        .offAir with
          peers := (dismiss r ((r.stream? key).bind (·.publisher))).peers ++
            [⟨.publisher b id, true, true⟩] } key := by
  -- Both sides end in the same prune. Of what it is given the slot before says who is dismissed.
  refine ⟨(r.streamOrCreate now key).2, congrArg (Registry.prune · key) ?_⟩
  have hprevious := slot_place r now key
  rw [← slot_streamOrCreate r now key] at hprevious
  rw [← hprevious, ← peers_dismiss_congr (peers_streamOrCreate r now key),
    ← peers_finish_dismiss, ← clearPublisher_replacePublisher _ _
      ⟨id, (r.streamOrCreate now key).1.peers.length⟩]
  unfold install
  obtain ⟨q, b⟩ := r.streamOrCreate now key
  change (((dismiss ((q.openPeer _).1.replacePublisher b ⟨id, _⟩).1 (q.slot b)).cancel
    _).clearPublisher b id).1.close _ = _
  cases q.slot b <;> rfl

/-- A publisher who is refused once it has a connection is withdrawn. -/
theorem registry_ingestWith (now : UInt64) (key id : String)
    (hstep : course.failure? ≠ some .connection)
    (hrefused : (e.ingestWith now key id course).2 = .error cause) :
    (e.ingestWith now key id course).1.registry =
      withdrawPublisher (install e.registry now key id).1 (install e.registry now key id).2.1
        (install e.registry now key id).2.2 key id := by
  cases course with
  | answered a => exact absurd hrefused (by simp [ingestWith])
  | failed step _ =>
    cases step with
    | connection => exact absurd rfl hstep
    | tracks => rfl
    | offer => rfl

/-- A publisher who gets no connection changes nothing. -/
theorem ingestWith_of_connection (now : UInt64) (key id : String)
    (hstep : course.failure? = some .connection) : (e.ingestWith now key id course).1 = e := by
  cases course with
  | answered a => exact absurd hstep (by simp [Course.failure?])
  | failed step _ =>
    obtain rfl : step = .connection := Option.some.inj hstep
    rfl

/-- What a publisher leaves that is refused once it has a connection. -/
theorem left_by_refused_ingest (hs : e.registry.Settled) (now : UInt64) (key id : String)
    (hstep : course.failure? ≠ some .connection)
    (hrefused : (e.ingestWith now key id course).2 = .error cause) :
    let r := e.registry
    let r' := (e.ingestWith now key id course).1.registry
    (r'.stream? key = (if r.hasViewers key then (r.stream? key).map .offAir else none) ∧
      ∀ k, k ≠ key → r'.streams.get? k = r.streams.get? k ∧ r'.stream? k = r.stream? k) ∧
    (r'.viewers = r.viewers ∧ r'.sessions = r.sessions) ∧
    ∃ b, r'.peers = (dismiss r ((r.stream? key).bind (·.publisher))).peers ++
      [⟨.publisher b id, true, true⟩] := by
  intro r r'
  obtain ⟨b, hwithdrawn⟩ := withdrawPublisher_install e.registry now key id
  rw [← registry_ingestWith now key id hstep hrefused] at hwithdrawn
  obtain ⟨hkey, hother⟩ := registered_of_offAir hs now key
    ((dismiss r ((r.stream? key).bind (·.publisher))).peers ++ [⟨.publisher b id, true, true⟩])
  rw [← hwithdrawn] at hkey hother
  have hviewers : r'.viewers = r.viewers := by
    simp only [r', hwithdrawn, viewers_prune]
    exact viewers_streamOrCreate r now key
  have hsessions : r'.sessions = r.sessions := by
    simp only [r', hwithdrawn, sessions_prune]
    exact sessions_streamOrCreate r now key
  refine ⟨⟨hkey, hother⟩, ⟨hviewers, hsessions⟩, b, ?_⟩
  simp only [r', hwithdrawn, peers_prune]
  rfl

/-- A publisher who is refused before it has a connection leaves everything as it was. One who is
refused later takes the key off air: the publisher before it has been dismissed, and the broadcast
stays without publisher, encodings and codecs if it has viewers, and is unregistered if it has none.
Nothing else that is registered changes. So the broadcasts are as they were exactly if it was
refused without a connection or there was nothing to lose. -/
theorem refused_ingest_goes_off_air (h : e.Reachable) (now : UInt64) (key id : String)
    (course : Course α) (hrefused : (e.ingestWith now key id course).2 = .error cause) :
    let r := e.registry
    let r' := (e.ingestWith now key id course).1.registry
    (course.failure? = some .connection → r' = r) ∧
    (course.failure? ≠ some .connection →
      r'.stream? key = (if r.hasViewers key then (r.stream? key).map .offAir else none) ∧
      ∃ b, r'.peers = (dismiss r ((r.stream? key).bind (·.publisher))).peers ++
        [⟨.publisher b id, true, true⟩]) ∧
    (r'.viewers = r.viewers ∧ r'.sessions = r.sessions) ∧
    (∀ k, k ≠ key → r'.streams.get? k = r.streams.get? k ∧ r'.stream? k = r.stream? k ∧
      r'.status k = r.status k) ∧
    ((∀ k, r'.stream? k = r.stream? k) ↔ course.failure? = some .connection ∨
      ∀ x, r.stream? key = some x →
        x.publisher = none ∧ x.layers = [] ∧ x.videoCodec = none ∧ x.audioCodec = none) := by
  have hs := h.settled
  intro r r'
  by_cases hstep : course.failure? = some .connection
  · have hsame : r' = r := congrArg registry (ingestWith_of_connection now key id hstep)
    rw [hsame]
    exact ⟨fun _ => rfl, fun hnot => absurd hstep hnot, ⟨rfl, rfl⟩, fun _ _ => ⟨rfl, rfl, rfl⟩,
      iff_of_true (fun _ => rfl) (Or.inl hstep)⟩
  · obtain ⟨⟨hkey, hother⟩, ⟨hviewers, hsessions⟩, hpeers⟩ :=
      left_by_refused_ingest hs now key id hstep hrefused
    have hstatus : r'.statusOf = r.statusOf := by
      funext x
      rw [statusOf, sessionsOf_congr hviewers hsessions, statusOf]
    refine ⟨fun hstep' => absurd hstep' hstep, fun _ => ⟨hkey, hpeers⟩, ⟨hviewers, hsessions⟩,
      fun k hne => ⟨(hother k hne).1, (hother k hne).2, ?_⟩, ?_⟩
    · rw [Registry.status, (hother k hne).2, hstatus, Registry.status]
    · rw [or_iff_right hstep]
      exact stream?_unchanged_iff hs hkey fun k hne => (hother k hne).2

/-- A publisher with a viewer is on air when another is refused: the viewer is left with a broadcast
off air, and both publishers' connections have ended. -/
theorem refused_ingest_goes_off_air_watched :
    let e := ((⟨.default, .fresh⟩ : Engine).apply (.ingest 7 "live" "p" (.answered ()))).apply
      (.egress 8 "live" "v" (.answered ()))
    let refused : Course Unit := .failed .offer (.sdp "refused")
    let r' := (e.ingestWith 9 "live" "q" refused).1.registry
    r'.stream? "live" = some (.fresh "live" 7) ∧
      ∃ b, r'.peers = [⟨.publisher 0 "p", true, true⟩, ⟨.viewer "v" "live", false, false⟩,
        ⟨.publisher b "q", true, true⟩] := by
  have hpublished := (Reachable.start .default).step (.ingest 7 "live" "p" (.answered ())) trivial
  have hwatched := hpublished.step (.egress 8 "live" "v" (.answered ())) (by
    intro peer k hrole
    have hmem : .viewer "v" k ∈ [Role.publisher 0 "p"] := mem_of_role? hrole
    simp at hmem)
  exact (refused_ingest_goes_off_air hwatched 9 "live" "q"
    (.failed .offer (.sdp "refused") : Course Unit) rfl).2.1 (by simp [Course.failure?])

/-- A publisher who is on air is not left alone by one who is refused: its stream is gone, its
connection closed and its token cancelled. -/
theorem refused_ingest_disturbs_broadcast :
    let e := (⟨.default, .fresh⟩ : Engine).apply (.ingest 7 "live" "p" (.answered ()))
    let refused : Course Unit := .failed .offer (.sdp "refused")
    e.Reachable ∧
      e.registry.stream? "live" =
        some { Broadcast.fresh "live" 7 with publisher := some ⟨"p", 0⟩ } ∧
      e.registry.peers = [⟨.publisher 0 "p", false, false⟩] ∧
      (e.ingestWith 8 "live" "q" refused).2 = .error (.sdp "refused") ∧
      (e.ingestWith 8 "live" "q" refused).1.registry.stream? "live" = none ∧
      (e.ingestWith 8 "live" "q" refused).1.registry.peers =
        [⟨.publisher 0 "p", true, true⟩, ⟨.publisher 0 "q", true, true⟩] :=
  ⟨(Reachable.start .default).step (.ingest 7 "live" "p" (.answered ())) trivial,
    by decide, by decide, rfl, by decide, by decide⟩

end Engine

end BroadcastRelay
