import BroadcastRelay.Proofs.Account
import BroadcastRelay.Proofs.IdleStreams
/-!
# Keys that are apart

A broadcast belongs to its key, a session to the key that it was made for, and a connection to the
key of its publisher or viewer (`Registry.peerKey?`). A registry is `Apart` if whatever belongs to a
key leads only to what belongs to that key: a role to its broadcast, a slot to the connection of its
publisher, a session to its broadcast and to its connection. Every operation but the shutdown keeps
the keys apart (`Engine.apart_apply`), since a step either adds a thing that leads to things of one
key, or changes nothing of where things lead (`Apart.of_grows`).
-/

namespace BroadcastRelay

open Registry

namespace Registry

variable {r r' : Registry} {keyOf : String → String} {key id : String} {b i : Nat}

/-! ## What belongs to a key -/

/-- The key that a connection of this role belongs to. -/
def roleKey? (r : Registry) : Role → Option String
  | .publisher b _ => r.keyAt? b
  | .viewer _ key => some key

/-- The key that a connection belongs to. -/
def peerKey? (r : Registry) (i : Nat) : Option String := (r.role? i).bind r.roleKey?

theorem peerKey?_eq_some_iff :
    r.peerKey? i = some key ↔ ∃ role, r.role? i = some role ∧ r.roleKey? role = some key :=
  Option.bind_eq_some_iff

/-- Where a role leads is told by the keys of the broadcasts. -/
theorem roleKey?_congr (h : ∀ b, r'.keyAt? b = r.keyAt? b) (role : Role) :
    r'.roleKey? role = r.roleKey? role := by
  cases role with
  | publisher b id => exact h b
  | viewer id key => rfl

theorem peerKey?_congr (hroles : ∀ i, r'.role? i = r.role? i)
    (hkeys : ∀ b, r'.keyAt? b = r.keyAt? b) (i : Nat) : r'.peerKey? i = r.peerKey? i := by
  rw [peerKey?, peerKey?, hroles, funext (roleKey?_congr hkeys)]

/-- A session leads to a broadcast of its key, and to a connection of a viewer of that key. -/
structure SessionFits (r : Registry) (s : Session) : Prop where
  broadcast : r.keyAt? s.broadcast = some s.streamKey
  peer : r.role? s.peer = some (.viewer s.id s.streamKey)

/-- Whatever belongs to a key leads only to what belongs to it too. -/
structure Apart (keyOf : String → String) (r : Registry) : Prop where
  told : r.Told keyOf
  role : ∀ {i role}, r.role? i = some role → ∃ key, r.roleKey? role = some key
  slot : ∀ {b p}, r.slot b = some p → ∃ key, r.keyAt? b = some key ∧ r.peerKey? p.peer = some key
  session : ∀ s ∈ r.sessions, r.SessionFits s

theorem apart_fresh : fresh.Apart keyOf where
  told := told_fresh
  role h := absurd h (by simp [fresh, role?])
  slot h := absurd h (by simp [fresh, Registry.slot])
  session := by simp [fresh]

theorem keyAt?_streamOrCreate_self (h : r.WellFormed) (now : UInt64) (key : String) :
    (r.streamOrCreate now key).1.keyAt? (r.streamOrCreate now key).2 = some key := by
  have hw := h.streamOrCreate now key
  exact keyAt?_eq_some_iff.mpr (hw.keys.broadcast_at (get?_streamOrCreate_self r now key))

/-- Roles are never forgotten when a connection is made. -/
theorem role?_openPeer_of_some {role other : Role} (h : r.role? i = some role) :
    (r.openPeer other).1.role? i = some role := by
  obtain ⟨p, hp, -⟩ := Option.map_eq_some_iff.mp h
  have hlt : i < r.peers.length := (List.getElem?_eq_some_iff.mp hp).1
  rw [role?_openPeer, if_neg (Nat.ne_of_lt hlt), h]

theorem peerKey?_openPeer_self (role : Role) (h : r.roleKey? role = some key) :
    (r.openPeer role).1.peerKey? r.peers.length = some key :=
  peerKey?_eq_some_iff.mpr ⟨role, by rw [role?_openPeer, if_pos rfl], h⟩

/-! ## Steps -/

namespace Apart

variable (h : r.Apart keyOf)
include h

/-- The keys stay apart when no connection, publisher or session is added. -/
theorem of_grows (hg : r.Grows keyOf r') (hroles : ∀ i, r'.role? i = r.role? i)
    (hslot : ∀ b p, r'.slot b = some p → r.slot b = some p)
    (hsession : ∀ s ∈ r'.sessions, ∃ t ∈ r.sessions, t.identity = s.identity ∧ t.peer = s.peer) :
    r'.Apart keyOf := by
  have hkey : ∀ {role k}, r.roleKey? role = some k → r'.roleKey? role = some k := by
    intro role k hrole
    cases role with
    | publisher b id => exact hg.keyAt? hrole
    | viewer id key => exact hrole
  refine ⟨hg.told, fun {i role} hrole => ?_, fun {b p} hp => ?_, fun s hs => ?_⟩
  · obtain ⟨k, hk⟩ := h.role ((hroles i).symm.trans hrole)
    exact ⟨k, hkey hk⟩
  · obtain ⟨k, hk, hpeer⟩ := h.slot (hslot b p hp)
    obtain ⟨role, hrole, hk'⟩ := peerKey?_eq_some_iff.mp hpeer
    exact ⟨k, hg.keyAt? hk, peerKey?_eq_some_iff.mpr ⟨role, (hroles _).trans hrole, hkey hk'⟩⟩
  · obtain ⟨t, ht, hsame, hpeer⟩ := hsession s hs
    obtain ⟨hid, hrest⟩ := Prod.mk.inj hsame
    obtain ⟨hstream, hbroadcast⟩ := Prod.mk.inj hrest
    obtain ⟨hb, hp⟩ := h.session t ht
    rw [hbroadcast, hstream] at hb
    rw [hpeer, hid, hstream] at hp
    exact ⟨hg.keyAt? hb, (hroles _).trans hp⟩

/-- The same, with the sessions as they were. -/
theorem of_grows_of_sessions (hg : r.Grows keyOf r') (hroles : ∀ i, r'.role? i = r.role? i)
    (hslot : ∀ b p, r'.slot b = some p → r.slot b = some p) (hsessions : r'.sessions = r.sessions) :
    r'.Apart keyOf :=
  h.of_grows hg hroles hslot fun s hs => ⟨s, hsessions ▸ hs, rfl, rfl⟩

theorem cancel (peer : Nat) : (r.cancel peer).Apart keyOf :=
  h.of_grows_of_sessions (h.told.grows_cancel peer) (role?_cancel r peer) (fun _ _ hp => hp) rfl

theorem close (peer : Nat) : (r.close peer).Apart keyOf :=
  h.of_grows_of_sessions (h.told.grows_close peer) (role?_close r peer) (fun _ _ hp => hp) rfl

theorem close_if (peer : Nat) (stillOpen : Bool) :
    (if stillOpen then r.close peer else r).Apart keyOf := by
  split
  · exact h.close peer
  · exact h

theorem dismiss (previous : Option Publisher) : (Engine.dismiss r previous).Apart keyOf := by
  cases previous with
  | none => exact h
  | some p => exact (h.cancel p.peer).close p.peer

theorem streamOrCreate (now : UInt64) (key : String) : (r.streamOrCreate now key).1.Apart keyOf :=
  h.of_grows_of_sessions (h.told.grows_streamOrCreate now key) (role?_streamOrCreate r now key)
    (fun b _ hp => (slot_streamOrCreate r now key b).symm.trans hp)
    (sessions_streamOrCreate r now key)

theorem modifyBroadcast (i : Nat) {f : Broadcast → Broadcast} (hkey : ∀ x, (f x).key = x.key)
    (hpublisher : ∀ x, (f x).publisher = x.publisher) : (r.modifyBroadcast i f).Apart keyOf :=
  h.of_grows_of_sessions (h.told.grows_modifyBroadcast i hkey) (fun _ => rfl)
    (fun b _ hp => (slot_modifyBroadcast_of_publisher r i hpublisher b).symm.trans hp) rfl

theorem clearPublisher (i : Nat) (id : String) : (r.clearPublisher i id).1.Apart keyOf :=
  h.of_grows_of_sessions (h.told.grows_clearPublisher i id) (fun _ => rfl)
    (fun _ _ hp => slot_of_clearPublisher hp) rfl

theorem removeSession (id : String) : (r.removeSession id).1.Apart keyOf :=
  h.of_grows_of_sessions (h.told.grows_removeSession id) (fun _ => rfl) (fun _ _ hp => hp) rfl

theorem prune (key : String) : (r.prune key).Apart keyOf :=
  h.of_grows_of_sessions (h.told.grows_prune key) (role?_prune r key)
    (fun b _ hp => (slot_prune r key b).symm.trans hp) (sessions_prune r key)

theorem mapSessions {f : Session → Session}
    (hf : ∀ s, (f s).identity = s.identity ∧ (f s).peer = s.peer) :
    ({ r with sessions := r.sessions.map f } : Registry).Apart keyOf := by
  have hseat : ∀ id, ({ r with sessions := r.sessions.map f } : Registry).seat? id = r.seat? id :=
    seat?_mapSessions r fun s => Prod.mk.inj (Prod.mk.inj (hf s).1).2
  have hw : ({ r with sessions := r.sessions.map f } : Registry).WellFormed :=
    ⟨h.told.wellFormed.keys, h.told.wellFormed.ids.map fun s => (Prod.mk.inj (hf s).1).1⟩
  refine h.of_grows (h.told.grows hw (fun id _ hs => hseat id ▸ hs) (fun _ => rfl)
    fun _ _ hb => hb) (fun _ => rfl) (fun _ _ hp => hp) fun s hs => ?_
  obtain ⟨t, ht, rfl⟩ := List.mem_map.mp hs
  exact ⟨t, ht, (hf t).1.symm, (hf t).2.symm⟩

theorem modifySession (i : Nat) {f : Session → Session}
    (hf : ∀ s, (f s).identity = s.identity ∧ (f s).peer = s.peer) :
    (r.modifySession i f).Apart keyOf := by
  have hseat : ∀ id, (r.modifySession i f).seat? id = r.seat? id :=
    seat?_modifySession r i fun s => Prod.mk.inj (Prod.mk.inj (hf s).1).2
  have hw := h.told.wellFormed.modifySession i fun s => (Prod.mk.inj (hf s).1).1
  refine h.of_grows (h.told.grows hw (fun id _ hs => hseat id ▸ hs) (fun _ => rfl)
    fun _ _ hb => hb) (fun _ => rfl) (fun _ _ hp => hp) fun s hs => ?_
  obtain ⟨j, hj⟩ := List.getElem?_of_mem hs
  simp only [Registry.modifySession, List.getElem?_modify] at hj
  obtain ⟨t, ht, rfl⟩ := Option.map_eq_some_iff.mp hj
  refine ⟨t, List.mem_of_getElem? ht, ?_⟩
  split
  · exact ⟨(hf t).1.symm, (hf t).2.symm⟩
  · exact ⟨rfl, rfl⟩

/-- A connection is added whose role leads to a key. -/
theorem openPeer (role : Role) (hrole : r.roleKey? role = some key)
    (hviewer : ∀ id k, role = .viewer id k → keyOf id = k) : (r.openPeer role).1.Apart keyOf := by
  refine ⟨(h.told.grows_openPeer role hviewer).told, fun {i other} hother => ?_, fun {b p} hp => ?_,
    fun s hs => ?_⟩
  · rw [role?_openPeer] at hother
    split at hother
    · exact ⟨key, Option.some.inj hother ▸ hrole⟩
    · exact h.role hother
  · obtain ⟨k, hk, hpeer⟩ := h.slot hp
    obtain ⟨other, hother, hk'⟩ := peerKey?_eq_some_iff.mp hpeer
    exact ⟨k, hk, peerKey?_eq_some_iff.mpr ⟨other, role?_openPeer_of_some hother, hk'⟩⟩
  · obtain ⟨hb, hp⟩ := h.session s hs
    exact ⟨hb, role?_openPeer_of_some hp⟩

/-- A publisher gets a connection for a broadcast that is there. -/
theorem openPeer_publisher (hb : r.keyAt? b = some key) (id : String) :
    (r.openPeer (.publisher b id)).1.Apart keyOf :=
  h.openPeer (.publisher b id) hb fun _ _ hrole => by simp at hrole

/-- A viewer gets a connection for the key that its id was drawn for. -/
theorem openPeer_viewer (hid : keyOf id = key) : (r.openPeer (.viewer id key)).1.Apart keyOf := by
  refine h.openPeer (.viewer id key) rfl fun other k hrole => ?_
  obtain ⟨rfl, rfl⟩ := Role.viewer.inj hrole
  exact hid

/-- A publisher is put into the slot of a broadcast that its connection belongs to. -/
theorem replacePublisher {p : Publisher} (hb : r.keyAt? b = some key)
    (hp : r.peerKey? p.peer = some key) : (r.replacePublisher b p).1.Apart keyOf := by
  have hg : r.Grows keyOf (r.replacePublisher b p).1 := h.told.grows_modifyBroadcast b fun _ => rfl
  have hkeys : ∀ c, (r.replacePublisher b p).1.keyAt? c = r.keyAt? c :=
    keyAt?_modifyBroadcast r b fun _ => rfl
  have hpeers : ∀ i, (r.replacePublisher b p).1.peerKey? i = r.peerKey? i :=
    peerKey?_congr (fun _ => rfl) hkeys
  refine ⟨hg.told, fun {i role} hrole => ?_, fun {c q} hq => ?_, fun s hs => ?_⟩
  · rw [roleKey?_congr hkeys]
    exact h.role hrole
  · rw [hkeys, hpeers]
    by_cases hc : c = b
    · subst hc
      rw [eq_of_slot_replacePublisher_self hq]
      exact ⟨key, hb, hp⟩
    · rw [slot_replacePublisher_of_ne r p hc] at hq
      exact h.slot hq
  · obtain ⟨hb', hp'⟩ := h.session s hs
    exact ⟨(hkeys _).trans hb', hp'⟩

/-- A session is added that leads to what belongs to its key. -/
theorem insertSession {s : Session} (hid : keyOf s.id = s.streamKey) (hs : r.SessionFits s) :
    (r.insertSession s).1.Apart keyOf := by
  refine ⟨(h.told.grows_insertSession hid).told, h.role, h.slot, fun t ht => ?_⟩
  rcases List.mem_append.mp ht with ht | ht
  · obtain ⟨hb, hp⟩ := h.session t ht
    exact ⟨hb, hp⟩
  · rw [List.mem_singleton.mp ht]
    exact ⟨hs.broadcast, hs.peer⟩

/-! ## Endings and packets -/

theorem retirePublisher (peer broadcast : Nat) (id : String) (stillOpen : Bool) :
    (r.retirePublisher peer broadcast id stillOpen).Apart keyOf := by
  have hclear := (h.cancel peer).clearPublisher broadcast id
  refine close_if ?_ peer stillOpen
  split
  · exact hclear.prune _
  · exact hclear

theorem retireSession (peer : Nat) (id key : String) (stillOpen : Bool) :
    (r.retireSession peer id key stillOpen).Apart keyOf := by
  have hremove := (h.cancel peer).removeSession id
  refine close_if ?_ peer stillOpen
  split
  · exact hremove.prune key
  · exact hremove

theorem peerEvent (peer : Nat) (state : PeerState) : (r.peerEvent peer state).Apart keyOf := by
  unfold Registry.peerEvent
  split
  · exact h
  · split
    · exact h
    · split
      · exact h.retirePublisher ..
      · exact h.retireSession ..

theorem sendVideo (broadcast : Nat) (packets : List VideoPacket) :
    (r.sendVideo broadcast packets).Apart keyOf := by
  refine h.mapSessions fun s => ?_
  split
  · have hcore := Session.core_foldl_forwardVideo (latest Broadcast.videoCapacity packets) s
    exact ⟨Session.identity_of_core hcore, Session.peer_of_core hcore⟩
  · exact ⟨rfl, rfl⟩

theorem sendAudio (broadcast count : Nat) : (r.sendAudio broadcast count).Apart keyOf := by
  refine h.mapSessions fun s => ?_
  split <;> exact ⟨rfl, rfl⟩

end Apart

end Registry

namespace Engine

variable {r : Registry} {e : Engine} {keyOf : String → String}

/-! ## Operations -/

/-- What a publisher that is put on air adds belongs to its key. -/
theorem apart_install (h : r.Apart keyOf) (now : UInt64) (key id : String) :
    (install r now key id).1.Apart keyOf := by
  have hkey := keyAt?_streamOrCreate_self h.told.wellFormed now key
  have hopen := (h.streamOrCreate now key).openPeer_publisher hkey id
  have hpeer := peerKey?_openPeer_self (.publisher (r.streamOrCreate now key).2 id) hkey
  exact (hopen.replacePublisher hkey hpeer).dismiss _

theorem apart_withdrawPublisher (h : r.Apart keyOf) (broadcast peer : Nat) (key id : String) :
    (withdrawPublisher r broadcast peer key id).Apart keyOf :=
  (((h.cancel peer).clearPublisher broadcast id).close peer).prune key

theorem apart_ingestWith {α : Type} (h : e.registry.Apart keyOf) (now : UInt64) (key id : String)
    (course : Course α) : (e.ingestWith now key id course).1.registry.Apart keyOf := by
  have hinstall := apart_install h now key id
  rcases ingestWith_cases e now key id course with heq | heq | heq <;> rw [heq]
  · exact h
  · exact hinstall
  · exact apart_withdrawPublisher hinstall _ _ key id

theorem apart_withdrawSession (h : r.Apart keyOf) (peer : Nat) (key id : String) :
    (withdrawSession r peer key id).Apart keyOf :=
  (((h.cancel peer).removeSession id).close peer).prune key

/-- What a viewer adds belongs to the key that its id was drawn for. -/
theorem apart_egressWith {α : Type} (h : e.registry.Apart keyOf) (now : UInt64) {key id : String}
    (hid : keyOf id = key) (course : Course α) :
    (e.egressWith now key id course).1.registry.Apart keyOf := by
  have hkey := keyAt?_streamOrCreate_self h.told.wellFormed now key
  have hlooked := h.streamOrCreate now key
  have hopen := hlooked.openPeer_viewer hid
  have hjoined := hopen.insertSession (s := .fresh id key (e.registry.streamOrCreate now key).2
    (e.registry.streamOrCreate now key).1.peers.length) hid
    ⟨hkey, by rw [role?_openPeer]; exact if_pos rfl⟩
  rcases egressWith_cases e now key id course with heq | heq | heq | heq <;> rw [heq]
  · exact hlooked.prune key
  · exact apart_withdrawSession hopen _ key id
  · exact apart_withdrawSession hjoined _ key id
  · exact hjoined.modifySession _ fun _ => ⟨rfl, rfl⟩

theorem apart_setLayer (h : e.registry.Apart keyOf) (sessionId encodingId : String) :
    (e.setLayer sessionId encodingId).1.registry.Apart keyOf := by
  unfold setLayer
  split
  · split
    · refine h.modifySession _ fun s => ?_
      have hcore := Session.core_switchLayer s encodingId
      exact ⟨Session.identity_of_core hcore, Session.peer_of_core hcore⟩
    · exact h
  · exact h

/-- An operation other than a shutdown keeps the keys apart, if the id of a new session is one for
its key. -/
theorem apart_apply (h : e.registry.Apart keyOf) {op : Operation} (hop : op ≠ .shutdown)
    (hid : ∀ now key id course, op = .egress now key id course → keyOf id = key) :
    (e.apply op).registry.Apart keyOf := by
  cases op with
  | ingest now key id course => exact apart_ingestWith h now key id course
  | egress now key id course => exact apart_egressWith h now (hid now key id course rfl) course
  | setLayer sessionId encodingId => exact apart_setLayer h sessionId encodingId
  | report peer state => exact h.peerEvent peer state
  | videoTrack broadcast rid ssrc codec =>
    exact h.modifyBroadcast broadcast (fun _ => rfl) fun _ => rfl
  | audioTrack broadcast codec => exact h.modifyBroadcast broadcast (fun _ => rfl) fun _ => rfl
  | video broadcast handle packets =>
    have hcount := h.modifyBroadcast broadcast
      (f := (·.countVideo handle (UInt64.ofNat packets.length))) (fun _ => rfl) fun _ => rfl
    exact hcount.sendVideo broadcast packets
  | audio broadcast count =>
    have hcount := h.modifyBroadcast broadcast (f := (·.countAudio (UInt64.ofNat count)))
      (fun _ => rfl) fun _ => rfl
    exact hcount.sendAudio broadcast count
  | shutdown => exact absurd rfl hop

end Engine

end BroadcastRelay
