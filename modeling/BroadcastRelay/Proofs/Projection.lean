import BroadcastRelay.Proofs.Apart
import BroadcastRelay.Proofs.Places
/-!
# What a registry holds of one key

`Registry.only k` is the registry with nothing in it but what belongs to the key `k`, every thing
known by its place among those. A step at the key can be taken before or after all else is left out
(`only_streamOrCreate`, `only_openPeer` and so on), and a step at another key is then none at all
(`only_prune_of_ne` and so on). What is read of the key is the same (`stream?_only`, `status_only`,
`receives_only`).

A step that changes a thing at a place needs no distinction: the place of a thing of another key is
beyond the end of the part, where a change does nothing.
-/

namespace BroadcastRelay

attribute [ext] Registry

/-! ## Renumbering -/

/-- A role with its broadcast renumbered. -/
def Role.moved (β : Nat → Nat) : Role → Role
  | .publisher b id => .publisher (β b) id
  | .viewer id key => .viewer id key

/-- A connection with the broadcast of its role renumbered. -/
def Peer.moved (β : Nat → Nat) (p : Peer) : Peer := { p with role := p.role.moved β }

/-- A publisher with its connection renumbered. -/
def Publisher.moved (π : Nat → Nat) (p : Publisher) : Publisher := { p with peer := π p.peer }

namespace Broadcast

/-- A broadcast with the connection of its publisher renumbered. -/
def moved (π : Nat → Nat) (b : Broadcast) : Broadcast :=
  { b with publisher := b.publisher.map (·.moved π) }

variable {π π' : Nat → Nat} {b : Broadcast}

theorem isOnAir_moved (π : Nat → Nat) (b : Broadcast) (id : String) :
    (b.moved π).isOnAir id = b.isOnAir id := by
  rw [isOnAir, isOnAir, moved, Option.any_map]
  rfl

theorem hasPublisher_moved (π : Nat → Nat) (b : Broadcast) :
    (b.moved π).hasPublisher = b.hasPublisher := Option.isSome_map

theorem moved_clearPublisher (π : Nat → Nat) (b : Broadcast) (id : String) :
    (b.clearPublisher id).1.moved π = ((b.moved π).clearPublisher id).1 := by
  rw [clearPublisher, clearPublisher, isOnAir_moved]
  split <;> rfl

theorem moved_congr (h : ∀ p, b.publisher = some p → π p.peer = π' p.peer) :
    b.moved π = b.moved π' := by
  have hpublisher : b.publisher.map (·.moved π) = b.publisher.map (·.moved π') :=
    Option.map_congr fun p hp => congrArg (Publisher.mk p.id) (h p hp)
  rw [moved, moved, hpublisher]

end Broadcast

namespace Session

/-- A session with its broadcast and its connection renumbered. -/
def moved (β π : Nat → Nat) (s : Session) : Session :=
  { s with broadcast := β s.broadcast, peer := π s.peer }

variable (β π : Nat → Nat)

theorem moved_accepts (s : Session) (rid : String) :
    (s.moved β π).accepts rid = ((s.accepts rid).1.moved β π, (s.accepts rid).2) := by
  have hlayer : (s.moved β π).layer = s.layer := rfl
  rw [accepts, accepts, hlayer]
  split <;> rfl

theorem moved_forwardVideo (s : Session) (p : VideoPacket) :
    (s.moved β π).forwardVideo p = ((s.forwardVideo p).1.moved β π, (s.forwardVideo p).2) := by
  rw [forwardVideo, forwardVideo, moved_accepts]
  obtain ⟨t, accepted⟩ := s.accepts p.rid
  cases accepted <;> rfl

theorem moved_foldl_forwardVideo (packets : List VideoPacket) (s : Session) :
    (packets.foldl (fun s p => (s.forwardVideo p).1) s).moved β π =
      packets.foldl (fun s p => (s.forwardVideo p).1) (s.moved β π) := by
  induction packets generalizing s with
  | nil => rfl
  | cons p packets ih =>
    rw [List.foldl_cons, List.foldl_cons, ih, moved_forwardVideo]

theorem moved_switchLayer (s : Session) (rid : String) :
    (s.switchLayer rid).1.moved β π = ((s.moved β π).switchLayer rid).1 := by
  have hlayer : (s.moved β π).layer = s.layer := rfl
  rw [switchLayer, switchLayer, hlayer]
  split <;> rfl

end Session

namespace Registry

variable {r : Registry} {keyOf : String → String} {k key id : String} {b i : Nat}

/-! ## The part of one key -/

/-- Whether a connection belongs to the key. -/
def isPeerOf (r : Registry) (k : String) (p : Peer) : Bool := r.roleKey? p.role = some k

/-- The place of a broadcast among those of the key. -/
def broadcastPlace (r : Registry) (k : String) (b : Nat) : Nat :=
  place (·.key = k) r.broadcasts b

/-- The place of a connection among those of the key. -/
def peerPlace (r : Registry) (k : String) (i : Nat) : Nat := place (r.isPeerOf k) r.peers i

/-- The place of a session among those of the key. -/
def sessionPlace (r : Registry) (k : String) (i : Nat) : Nat :=
  place (·.streamKey = k) r.sessions i

/-- What the registry holds of the key. -/
def only (r : Registry) (k : String) : Registry where
  peers := (r.peers.filter (r.isPeerOf k)).map (·.moved (r.broadcastPlace k))
  broadcasts := (r.broadcasts.filter (·.key = k)).map (·.moved (r.peerPlace k))
  sessions := (r.sessions.filter (·.streamKey = k)).map
    (·.moved (r.broadcastPlace k) (r.peerPlace k))
  streams := .single k ((r.streams.get? k).map (r.broadcastPlace k))
  viewers := r.viewers.filterMap (place? (·.streamKey = k) r.sessions)

theorem only_fresh (k : String) : fresh.only k = fresh := rfl

theorem length_peers_only (r : Registry) (k : String) :
    (r.only k).peers.length = (r.peers.filter (r.isPeerOf k)).length := List.length_map _

theorem length_broadcasts_only (r : Registry) (k : String) :
    (r.only k).broadcasts.length = (r.broadcasts.filter (·.key = k)).length := List.length_map _

theorem length_sessions_only (r : Registry) (k : String) :
    (r.only k).sessions.length = (r.sessions.filter (·.streamKey = k)).length := List.length_map _

theorem any_key (r : Registry) (k : String) (b : Nat) :
    (r.broadcasts[b]?).any (·.key = k) = decide (r.keyAt? b = some k) := by
  rw [keyAt?]
  cases r.broadcasts[b]? with
  | none => rfl
  | some x => simp

theorem any_isPeerOf (r : Registry) (k : String) (i : Nat) :
    (r.peers[i]?).any (r.isPeerOf k) = decide (r.peerKey? i = some k) := by
  rw [peerKey?, role?]
  cases r.peers[i]? with
  | none => rfl
  | some p => rfl

/-! ## Reading -/

theorem getElem?_peers_only (r : Registry) (k : String) (i : Nat) :
    (r.only k).peers[r.peerPlace k i]? =
      ((r.peers[i]?).filter (r.isPeerOf k)).map (·.moved (r.broadcastPlace k)) :=
  getElem?_map_filter_place _ _ _ _

theorem getElem?_broadcasts_only (r : Registry) (k : String) (b : Nat) :
    (r.only k).broadcasts[r.broadcastPlace k b]? =
      ((r.broadcasts[b]?).filter (·.key = k)).map (·.moved (r.peerPlace k)) :=
  getElem?_map_filter_place _ _ _ _

theorem getElem?_peers_only_of_eq (h : r.peerKey? i = some k) :
    (r.only k).peers[r.peerPlace k i]? = (r.peers[i]?).map (·.moved (r.broadcastPlace k)) := by
  rw [getElem?_peers_only, filter_of_any ((any_isPeerOf r k i).trans (decide_eq_true h))]

theorem getElem?_peers_only_of_ne (h : r.peerKey? i ≠ some k) :
    (r.only k).peers[r.peerPlace k i]? = none := by
  rw [getElem?_peers_only, filter_of_not_any ((any_isPeerOf r k i).trans (decide_eq_false h))]
  rfl

theorem getElem?_broadcasts_only_of_eq (h : r.keyAt? b = some k) :
    (r.only k).broadcasts[r.broadcastPlace k b]? =
      (r.broadcasts[b]?).map (·.moved (r.peerPlace k)) := by
  rw [getElem?_broadcasts_only, filter_of_any ((any_key r k b).trans (decide_eq_true h))]

theorem getElem?_broadcasts_only_of_ne (h : r.keyAt? b ≠ some k) :
    (r.only k).broadcasts[r.broadcastPlace k b]? = none := by
  rw [getElem?_broadcasts_only, filter_of_not_any ((any_key r k b).trans (decide_eq_false h))]
  rfl

theorem keyAt?_only (h : r.keyAt? b = some k) :
    (r.only k).keyAt? (r.broadcastPlace k b) = some k := by
  rw [keyAt?, getElem?_broadcasts_only_of_eq h, Option.map_map]
  exact h

/-- The connections of the key belong to it also when all else is left out. -/
theorem isPeerOf_only {p : Peer} (hp : p ∈ (r.only k).peers) : (r.only k).isPeerOf k p = true := by
  obtain ⟨q, hq, rfl⟩ := List.mem_map.mp hp
  have hkey : r.roleKey? q.role = some k := of_decide_eq_true (List.mem_filter.mp hq).2
  refine decide_eq_true ?_
  cases hrole : q.role with
  | publisher b id =>
    rw [hrole] at hkey
    rw [Peer.moved, hrole]
    exact keyAt?_only hkey
  | viewer id key =>
    rw [hrole] at hkey
    rw [Peer.moved, hrole]
    exact hkey

theorem get?_viewers_only (hw : r.WellFormed) (k id : String) :
    (r.only k).viewers.get? id = (r.viewers.get? id).bind (place? (·.streamKey = k) r.sessions) :=
  KeyMap.get?_filterMap hw.ids.ordered _ id

/-- The broadcast registered under the key. -/
theorem stream?_only (hw : r.WellFormed) (k : String) :
    (r.only k).stream? k = (r.stream? k).map (·.moved (r.peerPlace k)) := by
  rw [stream?, stream?]
  simp only [only, KeyMap.get?_single_self]
  cases hb : r.streams.get? k with
  | none => rfl
  | some b =>
    obtain ⟨x, hx, hkey⟩ := hw.keys.broadcast_at hb
    exact getElem?_broadcasts_only_of_eq (keyAt?_eq_some_iff.mpr ⟨x, hx, hkey⟩)

/-- The session registered under an id, if it is one of the key. -/
theorem session?_only (hw : r.WellFormed) (k id : String) :
    (r.only k).session? id = ((r.session? id).filter (·.streamKey = k)).map
      (·.moved (r.broadcastPlace k) (r.peerPlace k)) := by
  rw [session?, session?, get?_viewers_only hw]
  cases r.viewers.get? id with
  | none => rfl
  | some i => exact bind_place? _ _ _ _

/-- The registered sessions of the key. -/
theorem sessionsOf_only (r : Registry) (k : String) :
    (r.only k).sessionsOf k =
      (r.sessionsOf k).map (·.moved (r.broadcastPlace k) (r.peerPlace k)) := by
  have hfound : ∀ i, (place? (·.streamKey = k) r.sessions i).bind ((r.only k).sessions[·]?) =
      ((r.sessions[i]?).filter (·.streamKey = k)).map
        (·.moved (r.broadcastPlace k) (r.peerPlace k)) := bind_place? _ _ _
  have hvalues : (r.only k).viewers.values =
      r.viewers.values.filterMap (place? (·.streamKey = k) r.sessions) :=
    KeyMap.values_filterMap _ _
  rw [sessionsOf, sessionsOf, hvalues, List.filterMap_filterMap, List.filter_filterMap,
    List.filter_filterMap, List.map_filterMap]
  refine List.filterMap_congr fun i _ => ?_
  rw [hfound]
  cases r.sessions[i]? with
  | none => rfl
  | some s => by_cases hs : s.streamKey = k <;> simp [Option.filter_some, hs, Session.moved]

theorem hasViewers_only (r : Registry) (k : String) :
    (r.only k).hasViewers k = r.hasViewers k := by
  rw [hasViewers, hasViewers, sessionsOf_only, List.isEmpty_map]

/-- The status of the key. -/
theorem status_only (hw : r.WellFormed) (k : String) : (r.only k).status k = r.status k := by
  rw [status, status, stream?_only hw, Option.map_map]
  refine Option.map_congr fun x hx => ?_
  obtain ⟨b, hb, hbx⟩ := Option.bind_eq_some_iff.mp hx
  obtain ⟨y, hy, hkey⟩ := hw.keys.broadcast_at hb
  obtain rfl := Option.some.inj (hbx.symm.trans hy)
  subst hkey
  have hsessions : ((r.only x.key).sessionsOf x.key).map Session.status =
      (r.sessionsOf x.key).map Session.status := by
    rw [sessionsOf_only, List.map_map]
    rfl
  exact congrArg (StreamStatus.mk x.key x.firstSeen x.audioPackets x.videoStatuses) hsessions

/-- Whether what runs for a connection of the key has been stopped. -/
theorem isCancelled_only (h : r.peerKey? i = some k) :
    (r.only k).isCancelled (r.peerPlace k i) = r.isCancelled i := by
  rw [isCancelled, isCancelled, getElem?_peers_only_of_eq h, Option.any_map]
  rfl

/-- Whether packets of a broadcast, be it one of the key or not, go to a session of the key. -/
theorem receives_only (h : r.Apart keyOf) {s : Session} (hs : s ∈ r.sessions)
    (hkey : s.streamKey = k) (b : Nat) :
    (r.only k).receives (r.broadcastPlace k b)
      (s.moved (r.broadcastPlace k) (r.peerPlace k)) = r.receives b s := by
  subst hkey
  obtain ⟨hbroadcast, hpeer⟩ := h.session s hs
  have hrole : r.peerKey? s.peer = some s.streamKey := peerKey?_eq_some_iff.mpr ⟨_, hpeer, rfl⟩
  have hcancelled := isCancelled_only hrole
  have hplace : r.broadcastPlace s.streamKey s.broadcast = r.broadcastPlace s.streamKey b ↔
      s.broadcast = b := place_eq_iff ((any_key r _ _).trans (decide_eq_true hbroadcast))
  simp only [receives, Session.moved, hcancelled]
  congr 2
  exact beq_eq_beq.mpr hplace

/-! ## Changes -/

theorem isPeerOf_congr {p q : Peer} (h : p.role = q.role) : r.isPeerOf k p = r.isPeerOf k q := by
  rw [isPeerOf, isPeerOf, h]

theorem peerPlace_modifyPeers (r : Registry) (k : String) {f : Peer → Peer}
    (hrole : ∀ p, (f p).role = p.role) (i : Nat) :
    ({ r with peers := r.peers.modify i f } : Registry).peerPlace k = r.peerPlace k :=
  funext (place_modify (fun p => isPeerOf_congr (hrole p)) r.peers i)

/-- A change of a connection that keeps its role. -/
theorem only_modifyPeers (r : Registry) (k : String) {f : Peer → Peer}
    (hrole : ∀ p, (f p).role = p.role) (hf : ∀ β p, (f p).moved β = f (p.moved β)) (i : Nat) :
    ({ r with peers := r.peers.modify i f } : Registry).only k =
      { r.only k with peers := (r.only k).peers.modify (r.peerPlace k i) f } := by
  have hkind : ∀ p, r.isPeerOf k (f p) = r.isPeerOf k p := fun p => isPeerOf_congr (hrole p)
  have hplace := peerPlace_modifyPeers r k hrole i
  refine Registry.ext ?_ ?_ ?_ rfl rfl
  · exact map_filter_modify hkind (hf _) r.peers i
  · exact congrArg (fun π => (r.broadcasts.filter (·.key = k)).map (·.moved π)) hplace
  · exact congrArg (fun π => (r.sessions.filter (·.streamKey = k)).map
      (·.moved (r.broadcastPlace k) π)) hplace

theorem peerPlace_cancel (r : Registry) (k : String) (i : Nat) :
    (r.cancel i).peerPlace k = r.peerPlace k :=
  peerPlace_modifyPeers r k (f := fun p => { p with cancelled := true }) (fun _ => rfl) i

theorem peerPlace_close (r : Registry) (k : String) (i : Nat) :
    (r.close i).peerPlace k = r.peerPlace k :=
  peerPlace_modifyPeers r k (f := fun p => { p with closed := true }) (fun _ => rfl) i

theorem only_cancel (r : Registry) (k : String) (i : Nat) :
    (r.cancel i).only k = (r.only k).cancel (r.peerPlace k i) :=
  only_modifyPeers r k (f := fun p => { p with cancelled := true }) (fun _ => rfl)
    (fun _ _ => rfl) i

theorem only_close (r : Registry) (k : String) (i : Nat) :
    (r.close i).only k = (r.only k).close (r.peerPlace k i) :=
  only_modifyPeers r k (f := fun p => { p with closed := true }) (fun _ => rfl)
    (fun _ _ => rfl) i

theorem only_finish (r : Registry) (k : String) (i : Nat) :
    (r.finish i).only k = (r.only k).finish (r.peerPlace k i) := by
  rw [finish, only_close, only_cancel, peerPlace_cancel, finish]

/-- A connection of another key has no place among those of the key: to stop it there changes
nothing. -/
theorem cancel_only_of_ne (h : r.peerKey? i ≠ some k) :
    (r.only k).cancel (r.peerPlace k i) = r.only k :=
  Registry.ext (modify_of_getElem?_eq_none (getElem?_peers_only_of_ne h)) rfl rfl rfl rfl

theorem close_only_of_ne (h : r.peerKey? i ≠ some k) :
    (r.only k).close (r.peerPlace k i) = r.only k :=
  Registry.ext (modify_of_getElem?_eq_none (getElem?_peers_only_of_ne h)) rfl rfl rfl rfl

theorem isPeerOf_modifyBroadcast (r : Registry) (k : String) {f : Broadcast → Broadcast}
    (hkey : ∀ x, (f x).key = x.key) (b : Nat) :
    (r.modifyBroadcast b f).isPeerOf k = r.isPeerOf k := by
  funext p
  rw [isPeerOf, isPeerOf, roleKey?_congr (keyAt?_modifyBroadcast r b hkey)]

theorem peerPlace_modifyBroadcast (r : Registry) (k : String) {f : Broadcast → Broadcast}
    (hkey : ∀ x, (f x).key = x.key) (b : Nat) :
    (r.modifyBroadcast b f).peerPlace k = r.peerPlace k := by
  funext i
  rw [peerPlace, isPeerOf_modifyBroadcast r k hkey]
  rfl

/-- To stop a connection and to take its publisher off air changes no place of a connection. -/
theorem peerPlace_clearPublisher_cancel (r : Registry) (k : String) (peer b : Nat) (id : String) :
    ((r.cancel peer).clearPublisher b id).1.peerPlace k = r.peerPlace k :=
  (peerPlace_modifyBroadcast _ k (fun x => key_clearPublisher x id) b).trans
    (peerPlace_cancel r k peer)

theorem broadcastPlace_modifyBroadcast (r : Registry) (k : String) {f : Broadcast → Broadcast}
    (hkey : ∀ x, (f x).key = x.key) (b : Nat) :
    (r.modifyBroadcast b f).broadcastPlace k = r.broadcastPlace k := by
  have hkeep : ∀ x, decide ((f x).key = k) = decide (x.key = k) := fun x => by rw [hkey]
  exact funext (place_modify hkeep r.broadcasts b)

/-- A change of a broadcast that keeps its key. -/
theorem only_modifyBroadcast (r : Registry) (k : String) {f g : Broadcast → Broadcast}
    (hkey : ∀ x, (f x).key = x.key)
    (hf : ∀ x, (f x).moved (r.peerPlace k) = g (x.moved (r.peerPlace k))) (b : Nat) :
    (r.modifyBroadcast b f).only k = (r.only k).modifyBroadcast (r.broadcastPlace k b) g := by
  have hkind := isPeerOf_modifyBroadcast r k hkey b
  have hpeer := peerPlace_modifyBroadcast r k hkey b
  have hbroadcast := broadcastPlace_modifyBroadcast r k hkey b
  have hkeep : ∀ x, decide ((f x).key = k) = decide (x.key = k) := fun x => by rw [hkey]
  refine Registry.ext ?_ ?_ ?_ ?_ rfl
  · simp only [only, hkind, hbroadcast]
    rfl
  · simp only [only, hpeer]
    exact map_filter_modify hkeep hf r.broadcasts b
  · simp only [only, hpeer, hbroadcast]
    rfl
  · simp only [only, hbroadcast]
    rfl

/-- A broadcast of another key has no place among those of the key. -/
theorem modifyBroadcast_only_of_ne (hb : r.keyAt? b ≠ some k) (f : Broadcast → Broadcast) :
    (r.only k).modifyBroadcast (r.broadcastPlace k b) f = r.only k :=
  Registry.ext rfl (modify_of_getElem?_eq_none (getElem?_broadcasts_only_of_ne hb)) rfl rfl rfl

theorem only_replacePublisher (r : Registry) (k : String) (b : Nat) (p : Publisher) :
    (r.replacePublisher b p).1.only k =
      ((r.only k).replacePublisher (r.broadcastPlace k b) (p.moved (r.peerPlace k))).1 :=
  only_modifyBroadcast r k (f := fun x => (x.replacePublisher p).1)
    (g := fun x => (x.replacePublisher (p.moved (r.peerPlace k))).1) (fun _ => rfl) (fun _ => rfl) b

theorem only_clearPublisher (r : Registry) (k : String) (b : Nat) (id : String) :
    (r.clearPublisher b id).1.only k =
      ((r.only k).clearPublisher (r.broadcastPlace k b) id).1 :=
  only_modifyBroadcast r k (fun x => key_clearPublisher x id)
    (fun x => x.moved_clearPublisher _ id) b

/-- A change of a session that keeps its key. -/
theorem only_modifySession (r : Registry) (k : String) {f g : Session → Session}
    (hkey : ∀ s, (f s).streamKey = s.streamKey)
    (hf : ∀ s, (f s).moved (r.broadcastPlace k) (r.peerPlace k) =
      g (s.moved (r.broadcastPlace k) (r.peerPlace k))) (i : Nat) :
    (r.modifySession i f).only k = (r.only k).modifySession (r.sessionPlace k i) g := by
  have hkeep : ∀ s, decide ((f s).streamKey = k) = decide (s.streamKey = k) := fun s => by
    rw [hkey]
  have hplace : place? (·.streamKey = k) (r.modifySession i f).sessions =
      place? (·.streamKey = k) r.sessions :=
    funext (place?_congr (map_modify_of_same hkeep r.sessions i))
  refine Registry.ext rfl rfl ?_ rfl ?_
  · exact map_filter_modify hkeep hf r.sessions i
  · simp only [only, hplace]
    rfl

/-- A session of another key has no place among those of the key. -/
theorem modifySession_only_of_ne (h : ∀ s, r.sessions[i]? = some s → s.streamKey ≠ k)
    (f : Session → Session) :
    (r.only k).modifySession (r.sessionPlace k i) f = r.only k := by
  have hany : (r.sessions[i]?).any (·.streamKey = k) = false := by
    cases hs : r.sessions[i]? with
    | none => rfl
    | some s => simpa using h s hs
  have hnone : (r.only k).sessions[r.sessionPlace k i]? = none := by
    refine (getElem?_map_filter_place _ _ _ _).trans ?_
    rw [filter_of_not_any hany]
    rfl
  exact Registry.ext rfl rfl (modify_of_getElem?_eq_none hnone) rfl rfl

/-- A change of all sessions that keeps their keys. -/
theorem only_mapSessions (r : Registry) (k : String) {f g : Session → Session}
    (hkey : ∀ s, (f s).streamKey = s.streamKey)
    (hf : ∀ s ∈ r.sessions, s.streamKey = k →
      (f s).moved (r.broadcastPlace k) (r.peerPlace k) =
        g (s.moved (r.broadcastPlace k) (r.peerPlace k))) :
    ({ r with sessions := r.sessions.map f } : Registry).only k =
      { r.only k with sessions := (r.only k).sessions.map g } := by
  have hkeep : ∀ s, decide ((f s).streamKey = k) = decide (s.streamKey = k) := fun s => by
    rw [hkey]
  have hplace : place? (·.streamKey = k) (r.sessions.map f) =
      place? (·.streamKey = k) r.sessions :=
    funext (place?_congr (by rw [List.map_map]; exact List.map_congr_left fun s _ => hkeep s))
  refine Registry.ext rfl rfl ?_ rfl ?_
  · simp only [only, List.filter_map, Function.comp_def, hkeep, List.map_map]
    refine List.map_congr_left fun s hs => ?_
    obtain ⟨hmem, hs⟩ := List.mem_filter.mp hs
    exact hf s hmem (of_decide_eq_true hs)
  · simp only [only, hplace]

/-! ## Additions -/

/-- The connections of the key, with broadcasts renumbered as they are among those of the key. -/
theorem peers_only_eq {β : Nat → Nat} (hβ : ∀ b, r.keyAt? b = some k → β b = r.broadcastPlace k b) :
    (r.peers.filter (r.isPeerOf k)).map (·.moved β) = (r.only k).peers := by
  refine List.map_congr_left fun p hp => ?_
  have hkey : r.roleKey? p.role = some k := of_decide_eq_true (List.mem_filter.mp hp).2
  have hrole : p.role.moved β = p.role.moved (r.broadcastPlace k) := by
    cases hp : p.role with
    | publisher b id => exact congrArg (Role.publisher · id) (hβ b (by rwa [hp] at hkey))
    | viewer id key => rfl
  rw [Peer.moved, Peer.moved, hrole]

/-- The broadcasts of the key, with connections renumbered as they are among those of the key. -/
theorem broadcasts_only_eq (h : r.Apart keyOf) {π : Nat → Nat}
    (hπ : ∀ i, r.peerKey? i = some k → π i = r.peerPlace k i) :
    (r.broadcasts.filter (·.key = k)).map (·.moved π) = (r.only k).broadcasts := by
  refine List.map_congr_left fun x hx => Broadcast.moved_congr fun p hp => hπ p.peer ?_
  obtain ⟨hmem, hx⟩ := List.mem_filter.mp hx
  obtain ⟨b, hb⟩ := List.getElem?_of_mem hmem
  obtain ⟨key, hkey, hpeer⟩ := h.slot (by rw [slot, hb, Option.bind_some, hp])
  have hsame : some key = some x.key := hkey.symm.trans (keyAt?_eq_some_iff.mpr ⟨x, hb, rfl⟩)
  rw [hpeer, hsame, of_decide_eq_true hx]

/-- The sessions of the key, renumbered as things are among those of the key. -/
theorem sessions_only_eq (h : r.Apart keyOf) {β π : Nat → Nat}
    (hβ : ∀ b, r.keyAt? b = some k → β b = r.broadcastPlace k b)
    (hπ : ∀ i, r.peerKey? i = some k → π i = r.peerPlace k i) :
    (r.sessions.filter (·.streamKey = k)).map (·.moved β π) = (r.only k).sessions := by
  refine List.map_congr_left fun s hs => ?_
  obtain ⟨hmem, hs⟩ := List.mem_filter.mp hs
  obtain ⟨hbroadcast, hpeer⟩ := h.session s hmem
  rw [of_decide_eq_true hs] at hbroadcast hpeer
  rw [Session.moved, Session.moved, hβ _ hbroadcast,
    hπ _ (peerKey?_eq_some_iff.mpr ⟨_, hpeer, rfl⟩)]

/-- A connection of the key is made. -/
theorem only_openPeer (h : r.Apart keyOf) (role : Role) (hrole : r.roleKey? role = some k) :
    (r.openPeer role).1.only k =
      ((r.only k).openPeer (role.moved (r.broadcastPlace k))).1 := by
  have hnew : r.isPeerOf k ⟨role, false, false⟩ = true := decide_eq_true hrole
  have hπ : ∀ i, r.peerKey? i = some k → (r.openPeer role).1.peerPlace k i = r.peerPlace k i :=
    fun i hi => place_append ((any_isPeerOf r k i).trans (decide_eq_true hi)) _
  refine Registry.ext ?_ ?_ ?_ rfl rfl
  · exact map_filter_concat_of_pos hnew _ r.peers
  · exact broadcasts_only_eq h hπ
  · exact sessions_only_eq h (fun _ _ => rfl) hπ

theorem peerPlace_openPeer (role : Role) (hrole : r.roleKey? role = some k) :
    (r.openPeer role).1.peerPlace k r.peers.length = (r.only k).peers.length := by
  have hnew : r.isPeerOf k ⟨role, false, false⟩ = true := decide_eq_true hrole
  exact (place_concat_length hnew r.peers).trans (length_peers_only r k).symm

/-- A connection of another key is made. -/
theorem only_openPeer_of_ne (role : Role) (hrole : r.roleKey? role ≠ some k) :
    (r.openPeer role).1.only k = r.only k := by
  have hnew : r.isPeerOf k ⟨role, false, false⟩ = false := decide_eq_false hrole
  have hπ : (r.openPeer role).1.peerPlace k = r.peerPlace k :=
    funext (place_concat_of_neg hnew r.peers)
  refine Registry.ext ?_ ?_ ?_ rfl rfl
  · exact map_filter_concat_of_neg hnew _ r.peers
  · simp only [only, hπ]
    rfl
  · simp only [only, hπ]
    rfl

/-- A broadcast more changes nothing of what the connections belong to. -/
theorem isPeerOf_concat (h : r.Apart keyOf) (x : Broadcast) (m : KeyMap Nat) {p : Peer}
    (hp : p ∈ r.peers) :
    ({ r with broadcasts := r.broadcasts ++ [x], streams := m } : Registry).isPeerOf k p =
      r.isPeerOf k p := by
  obtain ⟨i, hi⟩ := List.getElem?_of_mem hp
  obtain ⟨key, hkey⟩ := h.role (by rw [role?, hi, Option.map_some])
  have hsame : roleKey? { r with broadcasts := r.broadcasts ++ [x], streams := m } p.role =
      some key := by
    cases hrole : p.role with
    | viewer id key => rwa [hrole] at hkey
    | publisher b id =>
      rw [hrole] at hkey
      obtain ⟨y, hy, hyk⟩ := keyAt?_eq_some_iff.mp hkey
      have hlt : b < r.broadcasts.length := (List.getElem?_eq_some_iff.mp hy).1
      exact keyAt?_eq_some_iff.mpr ⟨y, (List.getElem?_append_left hlt).trans hy, hyk⟩
  rw [isPeerOf, isPeerOf, hkey, hsame]

/-- A broadcast is added, of the key or of another. -/
theorem only_concat (h : r.Apart keyOf) (x : Broadcast) (m : KeyMap Nat) :
    ({ r with broadcasts := r.broadcasts ++ [x], streams := m } : Registry).only k =
      { r.only k with
        broadcasts := (r.only k).broadcasts ++ ([x].filter (·.key = k)).map (·.moved (r.peerPlace k))
        streams := .single k ((m.get? k).map (place (·.key = k) (r.broadcasts ++ [x]))) } := by
  have hkind : ∀ p ∈ r.peers,
      ({ r with broadcasts := r.broadcasts ++ [x], streams := m } : Registry).isPeerOf k p =
        r.isPeerOf k p := fun p hp => isPeerOf_concat h x m hp
  have hπ := funext (place_congr (List.map_congr_left hkind))
  have hβ : ∀ b, r.keyAt? b = some k →
      place (·.key = k) (r.broadcasts ++ [x]) b = r.broadcastPlace k b :=
    fun b hb => place_append ((any_key r k b).trans (decide_eq_true hb)) _
  refine Registry.ext ?_ ?_ ?_ rfl rfl
  · exact (congrArg (List.map _) (List.filter_congr hkind)).trans (peers_only_eq hβ)
  · simp only [only, List.filter_append, List.map_append]
    exact congrArg (fun π => (r.broadcasts.filter (·.key = k)).map (·.moved π) ++
      ([x].filter (·.key = k)).map (·.moved π)) hπ
  · exact sessions_only_eq h hβ fun i _ => congrFun hπ i

/-- The broadcast of the key is looked up, or made. -/
theorem only_streamOrCreate (h : r.Apart keyOf) (now : UInt64) (k : String) :
    (r.streamOrCreate now k).1.only k = ((r.only k).streamOrCreate now k).1 ∧
      (r.streamOrCreate now k).1.broadcastPlace k (r.streamOrCreate now k).2 =
        ((r.only k).streamOrCreate now k).2 := by
  have hstreams : (r.only k).streams.get? k = (r.streams.get? k).map (r.broadcastPlace k) :=
    KeyMap.get?_single_self _ _
  unfold streamOrCreate
  rw [hstreams]
  cases hb : r.streams.get? k with
  | some b => exact ⟨rfl, rfl⟩
  | none =>
    have hfresh : decide ((Broadcast.fresh k now).key = k) = true := decide_eq_true rfl
    have hplace : place (·.key = k) (r.broadcasts ++ [.fresh k now]) r.broadcasts.length =
        (r.only k).broadcasts.length :=
      (place_concat_length (p := fun x => x.key = k) hfresh r.broadcasts).trans
        (length_broadcasts_only r k).symm
    have hnone : (r.only k).streams = .single k none := congrArg (KeyMap.single k) (by rw [hb]; rfl)
    refine ⟨(only_concat h (.fresh k now) _).trans ?_, hplace⟩
    refine Registry.ext rfl ?_ rfl ?_ rfl
    · simp [Broadcast.fresh, Broadcast.moved]
    · simp only [hnone, KeyMap.insert_single, KeyMap.get?_insert_self, Option.map_some]
      exact congrArg (fun b => KeyMap.single k (some b)) hplace

/-- The broadcast of another key is looked up, or made. -/
theorem only_streamOrCreate_of_ne (h : r.Apart keyOf) (now : UInt64) (hne : key ≠ k) :
    (r.streamOrCreate now key).1.only k = r.only k := by
  unfold streamOrCreate
  split
  · rfl
  · have hfresh : decide ((Broadcast.fresh key now).key = k) = false := decide_eq_false hne
    refine (only_concat h (.fresh key now) _).trans ?_
    refine Registry.ext rfl ?_ rfl ?_ rfl
    · simp [Broadcast.fresh, hne]
    · have hβ : place (·.key = k) (r.broadcasts ++ [.fresh key now]) = r.broadcastPlace k :=
        funext (place_concat_of_neg (p := fun x => x.key = k) hfresh r.broadcasts)
      simp only [KeyMap.get?_insert_of_ne _ hne.symm]
      exact congrArg (fun β => KeyMap.single k ((r.streams.get? k).map β)) hβ

/-! ## Sessions -/

/-- A session more changes no place that an id leads to. -/
theorem bind_place?_concat (hw : r.WellFormed) (k id : String) (s : Session) :
    (r.viewers.get? id).bind (place? (·.streamKey = k) (r.sessions ++ [s])) =
      (r.only k).viewers.get? id := by
  rw [get?_viewers_only hw]
  refine Option.bind_congr fun i hi => ?_
  obtain ⟨t, ht, -⟩ := hw.ids.session_at hi
  exact place?_append (List.getElem?_eq_some_iff.mp ht).1 [s]

/-- The place that an id leads to among the sessions of the key when a session more is
registered. -/
theorem get?_viewers_insertSession_only (hw : r.WellFormed) (k id : String) (s : Session) :
    ((r.insertSession s).1.only k).viewers.get? id =
      if id = s.id then place? (·.streamKey = k) (r.sessions ++ [s]) r.sessions.length
      else (r.only k).viewers.get? id := by
  rw [get?_viewers_only (hw.insertSession s)]
  simp only [insertSession, KeyMap.get?_insert]
  split
  · rfl
  · exact bind_place?_concat hw k id s

theorem ordered_viewers_only (hw : r.WellFormed) (k : String) : (r.only k).viewers.Ordered :=
  hw.ids.ordered.filterMap _

/-- A session of the key is registered. -/
theorem only_insertSession (hw : r.WellFormed) {s : Session} (hs : s.streamKey = k) :
    (r.insertSession s).1.only k =
      ((r.only k).insertSession (s.moved (r.broadcastPlace k) (r.peerPlace k))).1 := by
  have hown : decide (s.streamKey = k) = true := decide_eq_true hs
  refine Registry.ext rfl rfl ?_ rfl ?_
  · exact map_filter_concat_of_pos (p := fun t => t.streamKey = k) hown _ r.sessions
  · refine KeyMap.eq_of_get?_eq (ordered_viewers_only (hw.insertSession s) k)
      ((ordered_viewers_only hw k).insert _ _) fun id => ?_
    rw [get?_viewers_insertSession_only hw, place?_concat_length, if_pos hown,
      ← length_sessions_only]
    exact (KeyMap.get?_insert _ _ _ _).symm

theorem sessionPlace_insertSession {s : Session} (hs : s.streamKey = k) :
    (r.insertSession s).1.sessionPlace k r.sessions.length = (r.only k).sessions.length := by
  have hown : decide (s.streamKey = k) = true := decide_eq_true hs
  exact (place_concat_length (p := fun t => t.streamKey = k) hown r.sessions).trans
    (length_sessions_only r k).symm

/-- What an id leads to is of the key that the id was drawn for. -/
theorem Told.getElem?_of_get? (h : r.Told keyOf) (hi : r.viewers.get? id = some i) :
    ∃ s, r.sessions[i]? = some s ∧ s.id = id ∧ s.streamKey = keyOf id := by
  obtain ⟨s, hs, hid⟩ := h.wellFormed.ids.session_at hi
  have hseat : r.seat? id = some (s.streamKey, s.broadcast) := by
    rw [seat?, session?, hi, Option.bind_some, hs, Option.map_some]
  exact ⟨s, hs, hid, (h.key_of_seat hseat).symm⟩

/-- The session registered under an id that was drawn for the key, and its place. -/
theorem viewer_only (h : r.Told keyOf) (hid : keyOf id = k) (hi : r.viewers.get? id = some i) :
    ∃ s, r.sessions[i]? = some s ∧ s.streamKey = k ∧
      (r.only k).viewers.get? id = some (r.sessionPlace k i) ∧
      (r.only k).sessions[r.sessionPlace k i]? =
        some (s.moved (r.broadcastPlace k) (r.peerPlace k)) := by
  obtain ⟨s, hs, -, hkey⟩ := h.getElem?_of_get? hi
  have hany : (r.sessions[i]?).any (·.streamKey = k) = true := by
    rw [hs, Option.any_some, hkey, hid]
    exact decide_eq_true rfl
  refine ⟨s, hs, hkey.trans hid, ?_, ?_⟩
  · rw [get?_viewers_only h.wellFormed, hi, Option.bind_some, place?, if_pos hany]
    rfl
  · refine (getElem?_map_filter_place _ _ _ _).trans ?_
    rw [filter_of_any hany, hs]
    rfl

/-- An id that was drawn for another key leads to nothing of the key. -/
theorem get?_viewers_only_of_ne (h : r.Told keyOf) (hid : keyOf id ≠ k) :
    (r.only k).viewers.get? id = none := by
  rw [get?_viewers_only h.wellFormed, Option.bind_eq_none_iff]
  intro i hi
  obtain ⟨s, hs, -, hkey⟩ := h.getElem?_of_get? hi
  rw [place?, hs, Option.any_some, hkey, if_neg (by simpa using hid)]

/-- An id that was drawn for the key leads to something of the key if it leads anywhere. -/
theorem contains_viewers_only (h : r.Told keyOf) (hid : keyOf id = k) :
    (r.only k).viewers.contains id = r.viewers.contains id := by
  rw [KeyMap.contains, KeyMap.contains, get?_viewers_only h.wellFormed]
  cases hi : r.viewers.get? id with
  | none => rfl
  | some i =>
    obtain ⟨s, hs, -, hkey⟩ := h.getElem?_of_get? hi
    rw [Option.bind_some, place?, hs, Option.any_some, hkey, if_pos (by simpa using hid)]
    rfl

/-- A session of another key is registered. -/
theorem only_insertSession_of_ne (h : r.Told keyOf) {s : Session} (hs : s.streamKey ≠ k)
    (hid : keyOf s.id = s.streamKey) : (r.insertSession s).1.only k = r.only k := by
  have hw := h.wellFormed
  have hother : decide (s.streamKey = k) = false := decide_eq_false hs
  refine Registry.ext rfl rfl ?_ rfl ?_
  · exact map_filter_concat_of_neg (p := fun t => t.streamKey = k) hother _ r.sessions
  · refine KeyMap.eq_of_get?_eq (ordered_viewers_only (hw.insertSession s) k)
      (ordered_viewers_only hw k) fun id => ?_
    rw [get?_viewers_insertSession_only hw, place?_concat_length, hother,
      if_neg Bool.false_ne_true]
    split
    · rename_i heq
      rw [heq, get?_viewers_only_of_ne h (hid.trans_ne hs)]
    · rfl

theorem only_removeSession (r : Registry) (k id : String) :
    (r.removeSession id).1.only k = ((r.only k).removeSession id).1 :=
  Registry.ext rfl rfl rfl rfl (KeyMap.filterMap_erase _ r.viewers id)

/-- The session of an id that was drawn for another key is forgotten. -/
theorem only_removeSession_of_ne (h : r.Told keyOf) (hid : keyOf id ≠ k) :
    (r.removeSession id).1.only k = r.only k := by
  have hnone := KeyMap.erase_of_get?_eq_none (get?_viewers_only_of_ne h hid)
  rw [only_removeSession]
  exact Registry.ext rfl rfl rfl rfl hnone

/-! ## Idle broadcasts -/

/-- The key is pruned. -/
theorem only_prune (hw : r.WellFormed) (k : String) :
    (r.prune k).only k = (r.only k).prune k := by
  have hdrop : ((r.only k).stream? k).any (!·.hasPublisher) =
      (r.stream? k).any (!·.hasPublisher) := by
    rw [stream?_only hw, Option.any_map]
    simp only [Broadcast.hasPublisher_moved]
  rw [prune, prune, hasViewers_only]
  split
  · rfl
  · rw [dropUnpublished, dropUnpublished, hdrop]
    split
    · refine Registry.ext rfl rfl rfl ?_ rfl
      simp only [only, KeyMap.get?_erase, KeyMap.erase_single, if_pos, Option.map_none]
    · rfl

/-- Another key is pruned. -/
theorem only_prune_of_ne (r : Registry) (hne : key ≠ k) : (r.prune key).only k = r.only k := by
  unfold prune dropUnpublished
  split
  · rfl
  · split
    · refine Registry.ext rfl rfl rfl ?_ rfl
      simp only [only, KeyMap.get?_erase, if_neg hne.symm]
      rfl
    · rfl

theorem peerPlace_prune (r : Registry) (k key : String) :
    (r.prune key).peerPlace k = r.peerPlace k := by
  unfold prune dropUnpublished
  split
  · rfl
  · split <;> rfl

/-! ## Endings -/

/-- Ends a connection that is still open, after all else. -/
theorem only_close_if (r : Registry) (k : String) (peer : Nat) (stillOpen : Bool) :
    (if stillOpen then r.close peer else r).only k =
      if stillOpen then (r.only k).close (r.peerPlace k peer) else r.only k := by
  split
  · exact only_close r k peer
  · rfl

/-- What becomes of the publisher of a broadcast that is there. -/
theorem retirePublisher_of_some {x : Broadcast} (hx : r.broadcasts[b]? = some x) (peer : Nat)
    (id : String) (stillOpen : Bool) :
    r.retirePublisher peer b id stillOpen =
      let cleared := ((r.cancel peer).clearPublisher b id).1
      let pruned := if x.isOnAir id then cleared.prune x.key else cleared
      if stillOpen then pruned.close peer else pruned := by
  have hflag : ((r.cancel peer).clearPublisher b id).2 = x.isOnAir id := by
    simp only [clearPublisher, cancel, hx, Option.any_some]
  have hleft : ((r.cancel peer).clearPublisher b id).1.broadcasts[b]? =
      some (x.clearPublisher id).1 := by
    simp only [clearPublisher, cancel, modifyBroadcast, List.getElem?_modify_eq, hx]
    rfl
  unfold retirePublisher
  simp only [hflag, hleft]
  cases x.isOnAir id with
  | true => simp only [if_pos, key_clearPublisher]
  | false => rfl

/-- A publisher of a broadcast that is not there. -/
theorem retirePublisher_of_none (hb : r.broadcasts[b]? = none) (peer : Nat) (id : String)
    (stillOpen : Bool) :
    r.retirePublisher peer b id stillOpen =
      let cleared := ((r.cancel peer).clearPublisher b id).1
      if stillOpen then cleared.close peer else cleared := by
  have hflag : ((r.cancel peer).clearPublisher b id).2 = false := by
    simp only [clearPublisher, cancel, hb, Option.any_none]
  unfold retirePublisher
  simp only [hflag]

/-- A publisher ends, be it one of the key or not. -/
theorem only_retirePublisher (hw : r.WellFormed) (k : String) (peer b : Nat) (id : String)
    (stillOpen : Bool) :
    (r.retirePublisher peer b id stillOpen).only k =
      (r.only k).retirePublisher (r.peerPlace k peer) (r.broadcastPlace k b) id stillOpen := by
  have hclear : ((r.cancel peer).clearPublisher b id).1.only k =
      (((r.only k).cancel (r.peerPlace k peer)).clearPublisher (r.broadcastPlace k b) id).1 := by
    rw [only_clearPublisher, only_cancel]
    rfl
  have hplace := peerPlace_clearPublisher_cancel r k peer b id
  have hw' := (hw.cancel peer).clearPublisher b id
  cases hx : r.broadcasts[b]? with
  | none =>
    have hnone : (r.only k).broadcasts[r.broadcastPlace k b]? = none := by
      rw [getElem?_broadcasts_only, hx]
      rfl
    rw [retirePublisher_of_none hx, retirePublisher_of_none hnone]
    simp only [only_close_if, hclear, hplace]
  | some x =>
    by_cases hkey : x.key = k
    · subst hkey
      have hsome : (r.only x.key).broadcasts[r.broadcastPlace x.key b]? =
          some (x.moved (r.peerPlace x.key)) := by
        rw [getElem?_broadcasts_only_of_eq (keyAt?_eq_some_iff.mpr ⟨x, hx, rfl⟩), hx]
        rfl
      have hkey : (x.moved (r.peerPlace x.key)).key = x.key := rfl
      rw [retirePublisher_of_some hx, retirePublisher_of_some hsome]
      simp only [only_close_if, Broadcast.isOnAir_moved, hkey]
      cases x.isOnAir id with
      | true => simp only [if_pos, only_prune hw', peerPlace_prune, hclear, hplace]
      | false => simp only [hclear, hplace, if_neg Bool.false_ne_true]
    · have hother : r.keyAt? b ≠ some k := by
        rw [keyAt?, hx]
        simpa using hkey
      rw [retirePublisher_of_some hx,
        retirePublisher_of_none (getElem?_broadcasts_only_of_ne hother)]
      simp only [only_close_if]
      cases x.isOnAir id with
      | true => simp only [if_pos, only_prune_of_ne _ hkey, peerPlace_prune, hclear, hplace]
      | false => simp only [hclear, hplace, if_neg Bool.false_ne_true]

/-- A publisher of another key ends. -/
theorem only_retirePublisher_of_ne (hw : r.WellFormed) (hpeer : r.peerKey? i ≠ some k)
    (hb : r.keyAt? b ≠ some k) (id : String) (stillOpen : Bool) :
    (r.retirePublisher i b id stillOpen).only k = r.only k := by
  rw [only_retirePublisher hw, retirePublisher_of_none (getElem?_broadcasts_only_of_ne hb)]
  simp only [clearPublisher, cancel_only_of_ne hpeer, modifyBroadcast_only_of_ne hb,
    close_only_of_ne hpeer, ite_self]

/-- A session of the key ends. -/
theorem only_retireSession (h : r.Told keyOf) (hid : keyOf id = k) (peer : Nat)
    (stillOpen : Bool) :
    (r.retireSession peer id k stillOpen).only k =
      (r.only k).retireSession (r.peerPlace k peer) id k stillOpen := by
  have hremove : ((r.cancel peer).removeSession id).1.only k =
      (((r.only k).cancel (r.peerPlace k peer)).removeSession id).1 := by
    rw [only_removeSession, only_cancel]
  have hplace : ((r.cancel peer).removeSession id).1.peerPlace k = r.peerPlace k :=
    peerPlace_cancel r k peer
  have hw := (h.wellFormed.cancel peer).removeSession id
  have hflag : (((r.only k).cancel (r.peerPlace k peer)).removeSession id).2 =
      ((r.cancel peer).removeSession id).2 := contains_viewers_only h hid
  unfold retireSession
  simp only [only_close_if, hflag]
  cases ((r.cancel peer).removeSession id).2 with
  | true => simp only [if_pos, only_prune hw, peerPlace_prune, hremove, hplace]
  | false => simp only [hremove, hplace, if_neg Bool.false_ne_true]

/-- A session of another key ends. -/
theorem only_retireSession_of_ne (h : r.Told keyOf) (hpeer : r.peerKey? i ≠ some k)
    (hid : keyOf id = key) (hne : key ≠ k) (stillOpen : Bool) :
    (r.retireSession i id key stillOpen).only k = r.only k := by
  have htold : (r.cancel i).Told keyOf := (h.grows_cancel i).told
  have hremove : ((r.cancel i).removeSession id).1.only k = r.only k := by
    rw [only_removeSession_of_ne htold (hid.trans_ne hne), only_cancel, cancel_only_of_ne hpeer]
  have hplace : ((r.cancel i).removeSession id).1.peerPlace k = r.peerPlace k :=
    peerPlace_cancel r k i
  unfold retireSession
  simp only [only_close_if]
  cases ((r.cancel i).removeSession id).2 with
  | true =>
    simp only [if_pos, only_prune_of_ne _ hne, peerPlace_prune, hremove, hplace,
      close_only_of_ne hpeer, ite_self]
  | false =>
    simp only [hremove, hplace, close_only_of_ne hpeer, ite_self, if_neg Bool.false_ne_true]

/-- A connection reports a state, be it one of the key or not. -/
theorem only_peerEvent (h : r.Apart keyOf) (k : String) (i : Nat) (state : PeerState) :
    (r.peerEvent i state).only k = (r.only k).peerEvent (r.peerPlace k i) state := by
  have hw := h.told.wellFormed
  unfold peerEvent
  split
  · rfl
  · by_cases hpeer : r.peerKey? i = some k
    · rw [getElem?_peers_only_of_eq hpeer]
      obtain ⟨role, hrole, hkey⟩ := peerKey?_eq_some_iff.mp hpeer
      obtain ⟨p, hp, rfl⟩ := Option.map_eq_some_iff.mp hrole
      rw [hp, Option.map_some]
      cases hpr : p.role with
      | publisher b id =>
        simp only [Peer.moved, hpr, Role.moved]
        exact only_retirePublisher hw k i b id _
      | viewer id key =>
        rw [hpr] at hkey hrole
        obtain rfl : key = k := Option.some.inj hkey
        simp only [Peer.moved, hpr, Role.moved]
        exact only_retireSession h.told (h.told.key_of_role hrole) i _
    · rw [getElem?_peers_only_of_ne hpeer]
      cases hp : r.peers[i]? with
      | none => rfl
      | some p =>
        have hrole : r.role? i = some p.role := by rw [role?, hp, Option.map_some]
        have hother : r.roleKey? p.role ≠ some k := fun hk =>
          hpeer (peerKey?_eq_some_iff.mpr ⟨_, hrole, hk⟩)
        cases hpr : p.role with
        | publisher b id =>
          rw [hpr] at hother
          simp only [hpr]
          exact only_retirePublisher_of_ne hw hpeer hother id _
        | viewer id key =>
          rw [hpr] at hother hrole
          simp only [hpr]
          exact only_retireSession_of_ne h.told hpeer (h.told.key_of_role hrole)
            (fun heq => hother (congrArg some heq)) _

theorem peerEvent_only_of_ne (h : r.peerKey? i ≠ some k) (state : PeerState) :
    (r.only k).peerEvent (r.peerPlace k i) state = r.only k := by
  rw [peerEvent, getElem?_peers_only_of_ne h]
  exact ite_self _

/-! ## Packets -/

/-- A session of the key gets no packets of a broadcast of another key. -/
theorem receives_of_ne (h : r.Apart keyOf) {s : Session} (hs : s ∈ r.sessions)
    (hkey : s.streamKey = k) (hb : r.keyAt? b ≠ some k) : r.receives b s = false := by
  have hne : s.broadcast ≠ b := by
    rintro rfl
    exact hb (hkey ▸ (h.session s hs).broadcast)
  rw [receives, beq_false_of_ne hne, Bool.and_false, Bool.false_and]

/-- Packets of video change no session's key. -/
theorem streamKey_sendVideo (r : Registry) (b : Nat) (packets : List VideoPacket) (s : Session) :
    (if r.receives b s then packets.foldl (fun s p => (s.forwardVideo p).1) s else s).streamKey =
      s.streamKey := by
  split
  · have hsame := Session.identity_of_core (Session.core_foldl_forwardVideo packets s)
    exact (Prod.mk.inj (Prod.mk.inj hsame).2).1
  · rfl

/-- Packets of video come, be it for a broadcast of the key or not. -/
theorem only_sendVideo (h : r.Apart keyOf) (k : String) (b : Nat) (packets : List VideoPacket) :
    (r.sendVideo b packets).only k = (r.only k).sendVideo (r.broadcastPlace k b) packets := by
  refine only_mapSessions r k (streamKey_sendVideo r b _) fun s hs hkey => ?_
  simp only [receives_only h hs hkey]
  split
  · exact Session.moved_foldl_forwardVideo _ _ _ s
  · rfl

/-- Packets of audio come, be it for a broadcast of the key or not. -/
theorem only_sendAudio (h : r.Apart keyOf) (k : String) (b n : Nat) :
    (r.sendAudio b n).only k = (r.only k).sendAudio (r.broadcastPlace k b) n := by
  refine only_mapSessions r k (fun s => ?_) fun s hs hkey => ?_
  · split <;> rfl
  · simp only [receives_only h hs hkey]
    split <;> rfl

/-- No session of the key gets anything that comes for a broadcast of another key. -/
theorem map_sessions_only_of_ne (h : r.Apart keyOf) (hb : r.keyAt? b ≠ some k)
    (f : Session → Session) :
    (r.only k).sessions.map (fun s =>
      if (r.only k).receives (r.broadcastPlace k b) s then f s else s) = (r.only k).sessions := by
  refine (List.map_congr_left fun t ht => ?_).trans (List.map_id _)
  obtain ⟨s, hs, rfl⟩ := List.mem_map.mp ht
  obtain ⟨hmem, hs⟩ := List.mem_filter.mp hs
  have hkey := of_decide_eq_true hs
  rw [receives_only h hmem hkey, receives_of_ne h hmem hkey hb, if_neg Bool.false_ne_true]
  rfl

theorem only_sendVideo_of_ne (h : r.Apart keyOf) (hb : r.keyAt? b ≠ some k)
    (packets : List VideoPacket) : (r.sendVideo b packets).only k = r.only k := by
  rw [only_sendVideo h]
  exact Registry.ext rfl rfl (map_sessions_only_of_ne h hb _) rfl rfl

theorem only_sendAudio_of_ne (h : r.Apart keyOf) (hb : r.keyAt? b ≠ some k) (n : Nat) :
    (r.sendAudio b n).only k = r.only k := by
  rw [only_sendAudio h]
  exact Registry.ext rfl rfl (map_sessions_only_of_ne h hb _) rfl rfl

end Registry

end BroadcastRelay
