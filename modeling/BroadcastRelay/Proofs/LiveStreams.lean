import BroadcastRelay.Proofs.Operation
import BroadcastRelay.Proofs.Settled
/-!
# The registered streams are the live ones

Every operation leads from a settled registry to a settled one (`settled_apply`): it loosens at
most one key, and then either puts something live there or prunes it. So every reachable engine has
exactly its live streams registered (`registered_iff_live`).
-/

namespace BroadcastRelay

open Registry

namespace Session

/-- A session without what forwarding and switching change. -/
def core (s : Session) : Session := { s with layer := none, rewriter := .fresh, written := 0 }

theorem core_switchLayer (s : Session) (rid : String) : (s.switchLayer rid).1.core = s.core := by
  unfold switchLayer
  split <;> rfl

theorem core_accepts (s : Session) (rid : String) : (s.accepts rid).1.core = s.core := by
  unfold accepts
  split <;> rfl

theorem core_forwardVideo (s : Session) (p : VideoPacket) :
    (s.forwardVideo p).1.core = s.core := by
  have haccepts := core_accepts s p.rid
  unfold forwardVideo
  split
  · rename_i heq
    rwa [heq] at haccepts
  · rename_i heq
    rw [heq] at haccepts
    exact haccepts

theorem core_foldl_forwardVideo (packets : List VideoPacket) (s : Session) :
    (packets.foldl (fun s p => (s.forwardVideo p).1) s).core = s.core := by
  induction packets generalizing s with
  | nil => rfl
  | cons p packets ih => exact (ih _).trans (core_forwardVideo s p)

/-- The identity of a session is in its core. -/
theorem identity_of_core {s t : Session} (h : t.core = s.core) : t.identity = s.identity := by
  have hcore : t.core.identity = s.core.identity := congrArg identity h
  exact hcore

end Session

namespace Registry

variable {r : Registry}

/-! ## Endings -/

theorem Settled.close_if (h : r.Settled) (peer : Nat) (stillOpen : Bool) :
    (if stillOpen then r.close peer else r).Settled := by
  split
  · exact SettledBut.close h peer
  · exact h

/-- A publisher that is retired, be it on air or not, leaves a settled registry. -/
theorem Settled.retirePublisher (h : r.Settled) (peer broadcast : Nat) (id : String)
    (stillOpen : Bool) : (r.retirePublisher peer broadcast id stillOpen).Settled := by
  have hcancel : (r.cancel peer).Settled := h.cancel peer
  have hkey : ∀ {p}, (r.cancel peer).slot broadcast = some p →
      ∃ key, (r.cancel peer).streams.get? key = some broadcast ∧
        ((r.cancel peer).clearPublisher broadcast id).1.SettledBut (· = key) := by
    intro p hslot
    obtain ⟨key, hkey⟩ := hcancel.registered_of_slot hslot
    refine ⟨key, hkey, (hcancel.mono fun _ => False.elim).clearPublisher fun k _ hk _ _ => ?_⟩
    exact hcancel.wellFormed.keys.key_unique hk hkey
  refine Settled.close_if ?_ peer stillOpen
  split
  · rename_i b hcleared hb
    obtain ⟨p, hslot, -⟩ := clearPublisher_eq_true_iff.mp hcleared
    obtain ⟨key, hkey, hbut⟩ := hkey hslot
    obtain ⟨x, hx, rfl⟩ := hbut.wellFormed.keys.broadcast_at hkey
    rw [Option.some.inj (hb.symm.trans hx)]
    exact hbut.settled_prune
  · rename_i hnot
    refine hcancel.clearPublisher fun _ p _ hslot hid => ?_
    obtain ⟨key, hkey, hbut⟩ := hkey hslot
    obtain ⟨x, hx, -⟩ := hbut.wellFormed.keys.broadcast_at hkey
    exact hnot x (clearPublisher_eq_true_iff.mpr ⟨p, hslot, hid⟩) hx

/-- A session that is retired, be it registered or not, leaves a settled registry. -/
theorem Settled.retireSession (h : r.Settled) {peer : Nat} {id key : String}
    (hrole : r.role? peer = some (.viewer id key)) (stillOpen : Bool) :
    (r.retireSession peer id key stillOpen).Settled := by
  have hcancel : (r.cancel peer).Settled := h.cancel peer
  refine Settled.close_if ?_ peer stillOpen
  split
  · refine SettledBut.settled_prune ((hcancel.mono fun _ => False.elim).removeSession ?_)
    intro k b hseat
    exact hcancel.key_of_role ((role?_cancel r peer peer).trans hrole) hseat
  · rename_i hremoved
    exact hcancel.removeSession fun k b hseat =>
      hremoved ((removeSession_eq_true_iff hcancel.wellFormed).mpr ⟨k, b, hseat⟩)

/-- Whatever a connection reports, and whenever, it leaves a settled registry. -/
theorem Settled.peerEvent (h : r.Settled) (peer : Nat) (state : PeerState) :
    (r.peerEvent peer state).Settled := by
  unfold Registry.peerEvent
  split
  · exact h
  · cases hp : r.peers[peer]? with
    | none => exact h
    | some p =>
      cases hrole : p.role with
      | publisher broadcast id =>
        simp only [hrole]
        exact h.retirePublisher peer broadcast id _
      | viewer id key =>
        simp only [hrole]
        exact h.retireSession (by rw [role?, hp, Option.map_some, hrole]) _

/-! ## Packets -/

theorem Settled.sendVideo (h : r.Settled) (broadcast : Nat) (packets : List VideoPacket) :
    (r.sendVideo broadcast packets).Settled := by
  refine SettledBut.mapSessions h fun s => ?_
  split
  · exact Session.identity_of_core (Session.core_foldl_forwardVideo _ s)
  · rfl

theorem Settled.sendAudio (h : r.Settled) (broadcast count : Nat) :
    (r.sendAudio broadcast count).Settled := by
  refine SettledBut.mapSessions h fun s => ?_
  split <;> rfl

end Registry

namespace Engine

variable {r : Registry} {e : Engine}

/-! ## Publishers -/

theorem settled_dismiss (h : r.Settled) (previous : Option Publisher) :
    (dismiss r previous).Settled := by
  cases previous with
  | none => exact h
  | some p => exact h.finish p.peer

theorem streams_dismiss (r : Registry) (previous : Option Publisher) :
    (dismiss r previous).streams = r.streams := by cases previous <;> rfl

/-- A publisher that is put on air has its broadcast registered. -/
theorem get?_install (r : Registry) (now : UInt64) (key id : String) :
    (install r now key id).1.streams.get? key = some (install r now key id).2.1 := by
  have hkey := get?_streamOrCreate_self r now key
  unfold install
  simp only [streams_dismiss]
  exact hkey

theorem settled_install (h : r.Settled) (now : UInt64) (key id : String) :
    (install r now key id).1.Settled := by
  have hkey := get?_streamOrCreate_self r now key
  have hlooked : (r.streamOrCreate now key).1.SettledBut (· = key) :=
    (h.mono fun _ => False.elim).streamOrCreate now rfl
  have hopen := hlooked.openPeer (.publisher (r.streamOrCreate now key).2 id) (by simp)
  obtain ⟨x, hx, -⟩ := hopen.wellFormed.keys.broadcast_at hkey
  refine settled_dismiss ((hopen.replacePublisher hkey _).settled ?_) _
  rintro k rfl
  exact Or.inl ⟨_, _, hkey, slot_replacePublisher_self hx _⟩

theorem settled_withdrawPublisher (h : r.Settled) {broadcast : Nat} {key : String}
    (hkey : r.streams.get? key = some broadcast) (peer : Nat) (id : String) :
    (withdrawPublisher r broadcast peer key id).Settled := by
  have hcancel : (r.cancel peer).SettledBut (· = key) := (h.mono fun _ => False.elim).cancel peer
  refine SettledBut.settled_prune ((hcancel.clearPublisher ?_).close peer)
  intro k _ hk _ _
  exact h.wellFormed.keys.key_unique hk hkey

theorem settled_ingestWith {α : Type} (h : e.registry.Settled) (now : UInt64) (key id : String)
    (course : Course α) : (e.ingestWith now key id course).1.registry.Settled := by
  have hinstall := settled_install h now key id
  have hwithdraw := settled_withdrawPublisher hinstall (get?_install e.registry now key id)
    (install e.registry now key id).2.2 id
  rcases ingestWith_cases e now key id course with heq | heq | heq <;> rw [heq]
  · exact h
  · exact hinstall
  · exact hwithdraw

/-! ## Viewers -/

theorem settled_withdrawSession {key : String} (h : r.SettledBut (· = key)) {id : String}
    (hseat : ∀ k b, r.seat? id = some (k, b) → k = key) (peer : Nat) :
    (withdrawSession r peer key id).Settled :=
  (((h.cancel peer).removeSession hseat).close peer).settled_prune

/-- A connection and a session for it, under an id that no connection has. -/
theorem settledBut_seat {key id : String} {b : Nat} (h : r.SettledBut (· = key))
    (hkey : r.streams.get? key = some b) (hnew : ∀ peer k, r.role? peer ≠ some (.viewer id k)) :
    ((r.openPeer (.viewer id key)).1.insertSession
      (.fresh id key b r.peers.length)).1.SettledBut (· = key) := by
  have hnone := h.seat_eq_none hnew
  have hopen := h.openPeer (.viewer id key) fun _ _ heq => (Role.viewer.inj heq).1 ▸ hnone
  refine hopen.insertSession _ r.peers.length hnone hkey ?_ fun peer k hpeer => ?_
  · rw [role?_openPeer, if_pos rfl]
    rfl
  · rw [role?_openPeer] at hpeer
    split at hpeer
    · exact (Role.viewer.inj (Option.some.inj hpeer)).2.symm
    · exact absurd hpeer (hnew peer k)

theorem settled_egressWith {α : Type} (h : e.registry.Settled) (now : UInt64) (key : String)
    {id : String} (hnew : ∀ peer k, e.registry.role? peer ≠ some (.viewer id k))
    (course : Course α) : (e.egressWith now key id course).1.registry.Settled := by
  have hkey := get?_streamOrCreate_self e.registry now key
  have hlooked : (e.registry.streamOrCreate now key).1.SettledBut (· = key) :=
    (h.mono fun _ => False.elim).streamOrCreate now rfl
  have hnew' : ∀ peer k, (e.registry.streamOrCreate now key).1.role? peer ≠ some (.viewer id k) :=
    fun peer k => role?_streamOrCreate e.registry now key peer ▸ hnew peer k
  have hnone := hlooked.seat_eq_none hnew'
  have hopen := hlooked.openPeer (.viewer id key) fun _ _ heq =>
    (Role.viewer.inj heq).1 ▸ hnone
  have hseated := settledBut_seat hlooked hkey hnew'
  have hseat : _ = some (key, _) := seat?_insertSession_self hopen.wellFormed (.fresh id key
    (e.registry.streamOrCreate now key).2 (e.registry.streamOrCreate now key).1.peers.length)
  rcases egressWith_cases e now key id course with heq | heq | heq | heq <;> rw [heq]
  · exact hlooked.settled_prune
  · refine settled_withdrawSession hopen ?_ _
    intro k b hk
    exact absurd (hnone.symm.trans hk) (by simp)
  · refine settled_withdrawSession hseated ?_ _
    intro k b hk
    exact (Prod.mk.inj (Option.some.inj (hseat.symm.trans hk))).1.symm
  · refine SettledBut.modifySession (hseated.settled ?_) _ fun _ => rfl
    rintro k rfl
    exact Or.inr ⟨id, _, hseat⟩

/-! ## Shutting down -/

theorem streams_takeOff (r : Registry) (b : Nat) : (takeOff r b).streams = r.streams := by
  unfold takeOff
  split <;> rfl

theorem viewers_takeOff (r : Registry) (b : Nat) : (takeOff r b).viewers = r.viewers := by
  unfold takeOff
  split <;> rfl

theorem slot_takeOff (r : Registry) (b c : Nat) :
    (takeOff r b).slot c = if c = b then none else r.slot c := by
  unfold takeOff
  split
  · refine (slot_modifyBroadcast r b Broadcast.takePublisher c).trans ?_
    by_cases hc : c = b
    · subst hc
      cases r.broadcasts[c]? <;> simp [Broadcast.takePublisher]
    · simp only [if_neg hc, if_neg (Ne.symm hc)]
      rfl
  · rename_i hnone
    split
    · rename_i hc
      exact hc ▸ hnone
    · rfl

/-- Taking off a list of broadcasts empties their slots and registers nothing. -/
theorem foldl_takeOff (bs : List Nat) (r : Registry) :
    (bs.foldl takeOff r).streams = r.streams ∧ (bs.foldl takeOff r).viewers = r.viewers ∧
      ∀ c, (bs.foldl takeOff r).slot c = if c ∈ bs then none else r.slot c := by
  induction bs generalizing r with
  | nil => simp
  | cons b bs ih =>
    obtain ⟨hstreams, hviewers, hslot⟩ := ih (takeOff r b)
    refine ⟨hstreams.trans (streams_takeOff r b), hviewers.trans (viewers_takeOff r b), fun c => ?_⟩
    rw [List.foldl_cons, hslot, slot_takeOff]
    by_cases hb : c = b <;> by_cases hbs : c ∈ bs <;> simp [hb, hbs]

theorem foldl_finish (ss : List Session) (r : Registry) :
    (ss.foldl (fun d s => d.finish s.peer) r).streams = r.streams ∧
      (ss.foldl (fun d s => d.finish s.peer) r).viewers = r.viewers ∧
      (ss.foldl (fun d s => d.finish s.peer) r).broadcasts = r.broadcasts := by
  induction ss generalizing r with
  | nil => exact ⟨rfl, rfl, rfl⟩
  | cons s ss ih => exact ih (r.finish s.peer)

theorem streams_shutdown (e : Engine) : e.shutdown.registry.streams = .empty :=
  (foldl_takeOff _ _).1.trans (foldl_finish _ _).1

theorem viewers_shutdown (e : Engine) : e.shutdown.registry.viewers = .empty :=
  (foldl_takeOff _ _).2.1.trans (foldl_finish _ _).2.1

/-- No broadcast has a publisher after a shutdown, since those that had were registered. -/
theorem slot_shutdown (h : e.registry.Settled) (c : Nat) : e.shutdown.registry.slot c = none := by
  have hslot := (foldl_takeOff e.registry.streams.values
    ((e.registry.viewers.values.filterMap (e.registry.sessions[·]?)).foldl
      (fun d s => d.finish s.peer)
      { e.registry with streams := .empty, viewers := .empty })).2.2 c
  refine hslot.trans ?_
  split
  · rfl
  · rename_i hmem
    rw [slot, (foldl_finish _ _).2.2, Option.eq_none_iff_forall_ne_some]
    intro p hp
    exact hmem (h.wellFormed.keys.ordered.mem_values.mpr (h.registered_of_slot hp))

/-- Nothing is registered after a shutdown, and no broadcast has a publisher. -/
theorem settled_shutdown (h : e.registry.Settled) : e.shutdown.registry.Settled :=
  settled_of_empty (streams_shutdown e) (viewers_shutdown e) (slot_shutdown h)

/-! ## Runs -/

/-- Every operation leads from a settled registry to a settled one. -/
theorem settled_apply (h : e.registry.Settled) {op : Operation} (hnew : op.IsNew e) :
    (e.apply op).registry.Settled := by
  cases op with
  | ingest now key id course => exact settled_ingestWith h now key id course
  | egress now key id course => exact settled_egressWith h now key hnew course
  | setLayer sessionId encodingId =>
    simp only [apply, setLayer]
    split
    · split
      · exact SettledBut.modifySession h _ fun s =>
          Session.identity_of_core (s.core_switchLayer encodingId)
      · exact h
    · exact h
  | report peer state => exact h.peerEvent peer state
  | videoTrack broadcast rid ssrc codec => exact SettledBut.modifyBroadcast h _ fun _ => ⟨rfl, rfl⟩
  | audioTrack broadcast codec => exact SettledBut.modifyBroadcast h _ fun _ => ⟨rfl, rfl⟩
  | video broadcast handle packets =>
    have hcounted : (e.registry.modifyBroadcast broadcast
        (·.countVideo handle (UInt64.ofNat packets.length))).Settled :=
      SettledBut.modifyBroadcast h _ fun _ => ⟨rfl, rfl⟩
    exact hcounted.sendVideo broadcast packets
  | audio broadcast count =>
    have hcounted : (e.registry.modifyBroadcast broadcast
        (·.countAudio (UInt64.ofNat count))).Settled :=
      SettledBut.modifyBroadcast h _ fun _ => ⟨rfl, rfl⟩
    exact hcounted.sendAudio broadcast count
  | shutdown => exact settled_shutdown h

theorem Reachable.settled (h : e.Reachable) : e.registry.Settled :=
  h.registry_of_step settled_fresh fun _ _ hs hnew => settled_apply hs hnew

/-- After any run of operations a key is registered exactly if its broadcast has a publisher or a
session carries the key; and no publisher and no session is left out. -/
theorem registered_iff_live (h : e.Reachable) :
    (∀ key, (∃ x, e.registry.stream? key = some x) ↔
      (∃ x, e.registry.stream? key = some x ∧ x.hasPublisher = true) ∨
        ∃ id s, e.registry.session? id = some s ∧ s.streamKey = key) ∧
    (∀ b x, e.registry.broadcasts[b]? = some x → x.hasPublisher = true →
      e.registry.streams.get? x.key = some b) ∧
    ∀ id s, e.registry.session? id = some s → ∃ x, e.registry.stream? s.streamKey = some x := by
  have hs := h.settled
  have hstream : ∀ {key b}, e.registry.streams.get? key = some b →
      ∃ x, e.registry.stream? key = some x ∧ e.registry.slot b = x.publisher := by
    intro key b hb
    obtain ⟨x, hx, -⟩ := hs.wellFormed.keys.broadcast_at hb
    exact ⟨x, by rw [stream?, hb, Option.bind_some, hx], by rw [slot, hx, Option.bind_some]⟩
  have hsession : ∀ id s, e.registry.session? id = some s →
      ∃ x, e.registry.stream? s.streamKey = some x := by
    intro id s hsess
    obtain ⟨b, hb⟩ := hs.registered_of_seat (seat?_eq_some_iff.mpr ⟨s, hsess, rfl, rfl⟩)
    obtain ⟨x, hx, -⟩ := hstream hb
    exact ⟨x, hx⟩
  refine ⟨fun key => ⟨?_, ?_⟩, ?_, hsession⟩
  · rintro ⟨x, hx⟩
    obtain ⟨b, hb, hbx⟩ := Option.bind_eq_some_iff.mp hx
    rcases hs.live_of_registered (fun hf => hf) hb with ⟨c, p, hc, hp⟩ | ⟨id, c, hseat⟩
    · obtain ⟨y, hy, hslot⟩ := hstream hc
      exact Or.inl ⟨y, hy, by rw [Broadcast.hasPublisher, ← hslot, hp, Option.isSome_some]⟩
    · obtain ⟨s, hsess, hkey, -⟩ := seat?_eq_some_iff.mp hseat
      exact Or.inr ⟨id, s, hsess, hkey⟩
  · rintro (⟨x, hx, -⟩ | ⟨id, s, hsess, rfl⟩)
    · exact ⟨x, hx⟩
    · exact hsession id s hsess
  · intro b x hx hpublisher
    obtain ⟨p, hp⟩ := Option.isSome_iff_exists.mp hpublisher
    have hslot : e.registry.slot b = some p := by rw [slot, hx, Option.bind_some, hp]
    obtain ⟨key, hkey⟩ := hs.registered_of_slot hslot
    obtain ⟨y, hy, rfl⟩ := hs.wellFormed.keys.broadcast_at hkey
    rwa [Option.some.inj (hx.symm.trans hy)]

/-- A viewer keeps the key registered when the publisher is gone. -/
theorem registered_iff_live_viewer : ∃ x,
    ((((⟨.default, .fresh⟩ : Engine).apply (.ingest 0 "live" "p" (.answered ()))).apply
      (.egress 0 "live" "v" (.answered ()))).apply (.report 0 .failed)).registry.stream? "live" =
      some x := by
  have hpublished := (Reachable.start .default).step (.ingest 0 "live" "p" (.answered ())) trivial
  have hwatched := hpublished.step (.egress 0 "live" "v" (.answered ())) (by
    intro peer key hrole
    cases peer with
    | zero =>
      have hpublisher : (some (.publisher 0 "p") : Option Role) = some (.viewer "v" key) := hrole
      exact absurd hpublisher (by simp)
    | succ peer =>
      have hnone : (none : Option Role) = some (.viewer "v" key) := hrole
      exact absurd hnone (by simp))
  have hfailed := hwatched.step (.report 0 .failed) trivial
  exact ((registered_iff_live hfailed).1 "live").mpr (Or.inr ⟨"v", _, rfl, rfl⟩)

end Engine

end BroadcastRelay
