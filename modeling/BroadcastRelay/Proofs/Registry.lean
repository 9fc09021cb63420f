import BroadcastRelay.Media.Engine
import BroadcastRelay.Proofs.KeyMap
/-!
# What the steps of the registry change

For the questions of who is registered where, a registry is four look-ups: the place registered
under a key (`streams.get?`), the publisher in the slot of a broadcast (`slot`), the seat of the
session of an id (`seat?`) and the role of a connection (`role?`). There is one lemma for each step
and each look-up that the step changes.

A `WellFormed` registry has ordered maps that lead to broadcasts and sessions of the right names.
In such a registry `prune` unregisters a key exactly if nothing on it is `Live` (`get?_prune`).
-/

namespace BroadcastRelay.Registry

variable {r : Registry}

/-! ## Look-ups -/

/-- The publisher in the slot of a broadcast. -/
def slot (r : Registry) (broadcast : Nat) : Option Publisher :=
  (r.broadcasts[broadcast]?).bind (·.publisher)

/-- The stream key and the broadcast of the session registered under an id. -/
def seat? (r : Registry) (id : String) : Option (String × Nat) :=
  (r.session? id).map fun s => (s.streamKey, s.broadcast)

/-- The role of a connection. -/
def role? (r : Registry) (peer : Nat) : Option Role := (r.peers[peer]?).map (·.role)

/-- The key has a publisher on its registered broadcast, or a registered session. -/
def Live (r : Registry) (key : String) : Prop :=
  (∃ b p, r.streams.get? key = some b ∧ r.slot b = some p) ∨ ∃ id b, r.seat? id = some (key, b)

theorem seat?_eq_some_iff {id key : String} {b : Nat} :
    r.seat? id = some (key, b) ↔
      ∃ s, r.session? id = some s ∧ s.streamKey = key ∧ s.broadcast = b := by
  simp [seat?]

/-! ## Well-formed registries -/

/-- The keys are in order, and each leads to a broadcast of its own. -/
structure KeysLead (broadcasts : List Broadcast) (streams : KeyMap Nat) : Prop where
  ordered : streams.Ordered
  broadcast_at : ∀ {key b}, streams.get? key = some b →
    ∃ x, broadcasts[b]? = some x ∧ x.key = key

/-- The ids are in order, and each leads to a session of its own. -/
structure IdsLead (sessions : List Session) (viewers : KeyMap Nat) : Prop where
  ordered : viewers.Ordered
  session_at : ∀ {id i}, viewers.get? id = some i → ∃ s, sessions[i]? = some s ∧ s.id = id

/-- Both maps of the registry are in order and lead where they should. -/
structure WellFormed (r : Registry) : Prop where
  keys : KeysLead r.broadcasts r.streams
  ids : IdsLead r.sessions r.viewers

namespace KeysLead

variable {bs : List Broadcast} {m : KeyMap Nat}

theorem modify (h : KeysLead bs m) (i : Nat) {f : Broadcast → Broadcast}
    (hf : ∀ b, (f b).key = b.key) : KeysLead (bs.modify i f) m where
  ordered := h.ordered
  broadcast_at hb := by
    obtain ⟨x, hx, rfl⟩ := h.broadcast_at hb
    rw [List.getElem?_modify, hx]
    refine ⟨_, rfl, ?_⟩
    split
    · exact hf x
    · rfl

theorem insert (h : KeysLead bs m) (b : Broadcast) :
    KeysLead (bs ++ [b]) (m.insert b.key bs.length) where
  ordered := h.ordered.insert _ _
  broadcast_at hb := by
    rw [KeyMap.get?_insert] at hb
    split at hb
    · rename_i heq
      rw [← Option.some.inj hb, List.getElem?_concat_length]
      exact ⟨b, rfl, heq.symm⟩
    · obtain ⟨x, hx, hkey⟩ := h.broadcast_at hb
      obtain ⟨hlt, -⟩ := List.getElem?_eq_some_iff.mp hx
      exact ⟨x, by rw [List.getElem?_append_left hlt, hx], hkey⟩

theorem erase (h : KeysLead bs m) (key : String) : KeysLead bs (m.erase key) where
  ordered := h.ordered.erase key
  broadcast_at hb := by
    rw [KeyMap.get?_erase] at hb
    split at hb
    · exact absurd hb (by simp)
    · exact h.broadcast_at hb

/-- Two keys never lead to one broadcast. -/
theorem key_unique (h : KeysLead bs m) {k l : String} {b : Nat} (hk : m.get? k = some b)
    (hl : m.get? l = some b) : k = l := by
  obtain ⟨x, hx, rfl⟩ := h.broadcast_at hk
  obtain ⟨y, hy, rfl⟩ := h.broadcast_at hl
  rw [Option.some.inj (hx.symm.trans hy)]

end KeysLead

namespace IdsLead

variable {ss : List Session} {m : KeyMap Nat}

theorem map (h : IdsLead ss m) {f : Session → Session} (hf : ∀ s, (f s).id = s.id) :
    IdsLead (ss.map f) m where
  ordered := h.ordered
  session_at hi := by
    obtain ⟨s, hs, rfl⟩ := h.session_at hi
    exact ⟨f s, by rw [List.getElem?_map, hs]; rfl, hf s⟩

theorem modify (h : IdsLead ss m) (i : Nat) {f : Session → Session} (hf : ∀ s, (f s).id = s.id) :
    IdsLead (ss.modify i f) m where
  ordered := h.ordered
  session_at hi := by
    obtain ⟨s, hs, rfl⟩ := h.session_at hi
    rw [List.getElem?_modify, hs]
    refine ⟨_, rfl, ?_⟩
    split
    · exact hf s
    · rfl

theorem insert (h : IdsLead ss m) (s : Session) :
    IdsLead (ss ++ [s]) (m.insert s.id ss.length) where
  ordered := h.ordered.insert _ _
  session_at hi := by
    rw [KeyMap.get?_insert] at hi
    split at hi
    · rename_i heq
      rw [← Option.some.inj hi, List.getElem?_concat_length]
      exact ⟨s, rfl, heq.symm⟩
    · obtain ⟨x, hx, hid⟩ := h.session_at hi
      obtain ⟨hlt, -⟩ := List.getElem?_eq_some_iff.mp hx
      exact ⟨x, by rw [List.getElem?_append_left hlt, hx], hid⟩

theorem erase (h : IdsLead ss m) (id : String) : IdsLead ss (m.erase id) where
  ordered := h.ordered.erase id
  session_at hi := by
    rw [KeyMap.get?_erase] at hi
    split at hi
    · exact absurd hi (by simp)
    · exact h.session_at hi

end IdsLead

theorem wellFormed_fresh : fresh.WellFormed where
  keys := ⟨KeyMap.ordered_empty, fun h => absurd h (by simp [fresh])⟩
  ids := ⟨KeyMap.ordered_empty, fun h => absurd h (by simp [fresh])⟩

/-! ## Connections -/

theorem WellFormed.openPeer (h : r.WellFormed) (role : Role) : (r.openPeer role).1.WellFormed :=
  ⟨h.keys, h.ids⟩

theorem WellFormed.cancel (h : r.WellFormed) (peer : Nat) : (r.cancel peer).WellFormed :=
  ⟨h.keys, h.ids⟩

theorem WellFormed.close (h : r.WellFormed) (peer : Nat) : (r.close peer).WellFormed :=
  ⟨h.keys, h.ids⟩

theorem WellFormed.finish (h : r.WellFormed) (peer : Nat) : (r.finish peer).WellFormed :=
  (h.cancel peer).close peer

theorem mem_of_role? {peer : Nat} {role : Role} (h : r.role? peer = some role) :
    role ∈ r.peers.map (·.role) := by
  obtain ⟨p, hp, rfl⟩ := Option.map_eq_some_iff.mp h
  exact List.mem_map_of_mem (List.mem_of_getElem? hp)

theorem role?_openPeer (r : Registry) (role : Role) (peer : Nat) :
    (r.openPeer role).1.role? peer =
      if peer = r.peers.length then some role else r.role? peer := by
  simp only [openPeer, role?]
  split
  · rename_i heq
    rw [heq, List.getElem?_concat_length]
    rfl
  · rename_i hne
    rcases Nat.lt_or_ge peer r.peers.length with hlt | hge
    · rw [List.getElem?_append_left hlt]
    · rw [List.getElem?_eq_none (by simp; omega), List.getElem?_eq_none hge]

/-- A change at a place of a list with one element more. -/
theorem modify_concat {α : Type} (l : List α) (a : α) (i : Nat) (f : α → α) :
    (l ++ [a]).modify i f = l.modify i f ++ [if i = l.length then f a else a] := by
  induction l generalizing i with
  | nil => cases i <;> simp
  | cons b l ih =>
    cases i with
    | zero => rfl
    | succ i =>
      have htail := congrArg (b :: ·) (ih i)
      simpa [List.modify_succ_cons] using htail

theorem role_modify (peers : List Peer) (i : Nat) {f : Peer → Peer} (hf : ∀ p, (f p).role = p.role)
    (peer : Nat) : ((peers.modify i f)[peer]?).map (·.role) = (peers[peer]?).map (·.role) := by
  rw [List.getElem?_modify]
  cases peers[peer]? with
  | none => rfl
  | some p => by_cases h : i = peer <;> simp [h, hf]

theorem role?_cancel (r : Registry) (i peer : Nat) : (r.cancel i).role? peer = r.role? peer :=
  role_modify r.peers i (f := fun p => { p with cancelled := true }) (fun _ => rfl) peer

theorem role?_close (r : Registry) (i peer : Nat) : (r.close i).role? peer = r.role? peer :=
  role_modify r.peers i (f := fun p => { p with closed := true }) (fun _ => rfl) peer

/-! ## Broadcasts -/

theorem WellFormed.modifyBroadcast (h : r.WellFormed) (i : Nat) {f : Broadcast → Broadcast}
    (hf : ∀ b, (f b).key = b.key) : (r.modifyBroadcast i f).WellFormed :=
  ⟨h.keys.modify i hf, h.ids⟩

theorem WellFormed.streamOrCreate (h : r.WellFormed) (now : UInt64) (key : String) :
    (r.streamOrCreate now key).1.WellFormed := by
  unfold Registry.streamOrCreate
  split
  · exact h
  · exact ⟨h.keys.insert (.fresh key now), h.ids⟩

theorem WellFormed.replacePublisher (h : r.WellFormed) (i : Nat) (p : Publisher) :
    (r.replacePublisher i p).1.WellFormed :=
  h.modifyBroadcast i fun _ => rfl

theorem key_clearPublisher (b : Broadcast) (id : String) : (b.clearPublisher id).1.key = b.key := by
  unfold Broadcast.clearPublisher
  split <;> rfl

theorem WellFormed.clearPublisher (h : r.WellFormed) (i : Nat) (id : String) :
    (r.clearPublisher i id).1.WellFormed :=
  h.modifyBroadcast i fun b => key_clearPublisher b id

/-- After the look-up the key has the place that the look-up gives, and no other key has changed. -/
theorem get?_streamOrCreate (r : Registry) (now : UInt64) (key other : String) :
    (r.streamOrCreate now key).1.streams.get? other =
      if other = key then some (r.streamOrCreate now key).2 else r.streams.get? other := by
  unfold streamOrCreate
  split
  · rename_i b hb
    dsimp only
    split
    · rename_i heq
      rw [heq, hb]
    · rfl
  · exact KeyMap.get?_insert _ _ _ _

/-- The key that is looked up is registered, under the place that the look-up gives. -/
theorem get?_streamOrCreate_self (r : Registry) (now : UInt64) (key : String) :
    (r.streamOrCreate now key).1.streams.get? key = some (r.streamOrCreate now key).2 := by
  rw [get?_streamOrCreate, if_pos rfl]

/-- A look-up leaves every key that is registered where it is. -/
theorem get?_streamOrCreate_of_some {now : UInt64} {key other : String} {b : Nat}
    (h : r.streams.get? other = some b) :
    (r.streamOrCreate now key).1.streams.get? other = some b := by
  unfold streamOrCreate
  split
  · exact h
  · rename_i hkey
    have hne : other ≠ key := fun heq => absurd (hkey.symm.trans (heq ▸ h)) (by simp)
    exact (KeyMap.get?_insert_of_ne _ hne _).trans h

theorem streamOrCreate_of_some (now : UInt64) {key : String} {b : Nat}
    (h : r.streams.get? key = some b) : r.streamOrCreate now key = (r, b) := by
  rw [streamOrCreate, h]

theorem slot_streamOrCreate (r : Registry) (now : UInt64) (key : String) (b : Nat) :
    (r.streamOrCreate now key).1.slot b = r.slot b := by
  unfold streamOrCreate slot
  split
  · rfl
  · simp only
    rcases Nat.lt_trichotomy b r.broadcasts.length with hlt | rfl | hgt
    · rw [List.getElem?_append_left hlt]
    · rw [List.getElem?_concat_length, List.getElem?_eq_none le_rfl]
      rfl
    · rw [List.getElem?_eq_none (by simp; omega), List.getElem?_eq_none hgt.le]

theorem session?_streamOrCreate (r : Registry) (now : UInt64) (key id : String) :
    (r.streamOrCreate now key).1.session? id = r.session? id := by
  unfold streamOrCreate
  split <;> rfl

theorem seat?_streamOrCreate (r : Registry) (now : UInt64) (key id : String) :
    (r.streamOrCreate now key).1.seat? id = r.seat? id :=
  congrArg (Option.map _) (session?_streamOrCreate r now key id)

theorem role?_streamOrCreate (r : Registry) (now : UInt64) (key : String) (peer : Nat) :
    (r.streamOrCreate now key).1.role? peer = r.role? peer := by
  unfold streamOrCreate
  split <;> rfl

theorem sessions_streamOrCreate (r : Registry) (now : UInt64) (key : String) :
    (r.streamOrCreate now key).1.sessions = r.sessions := by
  unfold streamOrCreate
  split <;> rfl

theorem viewers_streamOrCreate (r : Registry) (now : UInt64) (key : String) :
    (r.streamOrCreate now key).1.viewers = r.viewers := by
  unfold streamOrCreate
  split <;> rfl

theorem peers_streamOrCreate (r : Registry) (now : UInt64) (key : String) :
    (r.streamOrCreate now key).1.peers = r.peers := by
  unfold streamOrCreate
  split <;> rfl

/-- A change of the broadcast of a key changes what that key leads to. -/
theorem stream?_modifyBroadcast (h : r.WellFormed) {key : String} {b : Nat}
    (hkey : r.streams.get? key = some b) (f : Broadcast → Broadcast) (other : String) :
    (r.modifyBroadcast b f).stream? other =
      if other = key then (r.stream? key).map f else r.stream? other := by
  simp only [stream?, modifyBroadcast]
  split
  · rename_i heq
    rw [heq, hkey, Option.bind_some, Option.bind_some, List.getElem?_modify_eq]
    rfl
  · rename_i hne
    cases hother : r.streams.get? other with
    | none => rfl
    | some c =>
      have hplace : b ≠ c := fun heq => hne (h.keys.key_unique hother (heq ▸ hkey))
      rw [Option.bind_some, Option.bind_some, List.getElem?_modify_ne _ _ hplace]

/-- A look-up changes what no other key leads to. -/
theorem stream?_streamOrCreate_of_ne (h : r.WellFormed) (now : UInt64) {key other : String}
    (hne : other ≠ key) : (r.streamOrCreate now key).1.stream? other = r.stream? other := by
  rw [stream?, get?_streamOrCreate, if_neg hne, stream?]
  cases hother : r.streams.get? other with
  | none => rfl
  | some b =>
    obtain ⟨x, hx, -⟩ := h.keys.broadcast_at hother
    have hlt : b < r.broadcasts.length := (List.getElem?_eq_some_iff.mp hx).1
    rw [Option.bind_some, Option.bind_some]
    unfold streamOrCreate
    split
    · rfl
    · rw [List.getElem?_append_left hlt]

theorem slot_modifyBroadcast (r : Registry) (i : Nat) (f : Broadcast → Broadcast) (b : Nat) :
    (r.modifyBroadcast i f).slot b =
      (r.broadcasts[b]?).bind fun x => (if i = b then f x else x).publisher := by
  simp only [slot, modifyBroadcast, List.getElem?_modify]
  cases r.broadcasts[b]? with
  | none => rfl
  | some x => by_cases h : i = b <;> simp [h]

/-- A change of a broadcast that keeps its publisher. -/
theorem slot_modifyBroadcast_of_publisher (r : Registry) (i : Nat) {f : Broadcast → Broadcast}
    (hf : ∀ b, (f b).publisher = b.publisher) (b : Nat) :
    (r.modifyBroadcast i f).slot b = r.slot b := by
  rw [slot_modifyBroadcast, slot]
  refine congrArg _ (funext fun x => ?_)
  split
  · exact hf x
  · rfl

theorem slot_replacePublisher_of_ne (r : Registry) {i b : Nat} (p : Publisher) (h : b ≠ i) :
    (r.replacePublisher i p).1.slot b = r.slot b := by
  simp only [replacePublisher, slot_modifyBroadcast, if_neg (Ne.symm h)]
  rfl

/-- A broadcast that is there has the new publisher in its slot. -/
theorem slot_replacePublisher_self {i : Nat} {x : Broadcast} (h : r.broadcasts[i]? = some x)
    (p : Publisher) : (r.replacePublisher i p).1.slot i = some p := by
  simp only [replacePublisher, slot_modifyBroadcast, h, if_pos]
  rfl

/-- A slot that is replaced holds nothing but the new publisher. -/
theorem eq_of_slot_replacePublisher_self {i : Nat} {p q : Publisher}
    (h : (r.replacePublisher i p).1.slot i = some q) : q = p := by
  simp only [replacePublisher, slot_modifyBroadcast, if_pos] at h
  obtain ⟨x, -, hx⟩ := Option.bind_eq_some_iff.mp h
  exact (Option.some.inj hx).symm

theorem slot_clearPublisher_of_ne (r : Registry) {i b : Nat} (id : String) (h : b ≠ i) :
    (r.clearPublisher i id).1.slot b = r.slot b := by
  simp only [clearPublisher, slot_modifyBroadcast, if_neg (Ne.symm h)]
  rfl

theorem publisher_clearPublisher (b : Broadcast) (id : String) :
    (b.clearPublisher id).1.publisher = b.publisher.filter (·.id ≠ id) := by
  unfold Broadcast.clearPublisher Broadcast.isOnAir
  cases hp : b.publisher with
  | none => simp [hp]
  | some p =>
    by_cases h : p.id = id <;>
      simp [h, hp, Option.filter_some, Broadcast.takePublisher, Broadcast.clearLayers]

/-- Clearing leaves the publisher of another id in its slot and takes that of this id out. -/
theorem slot_clearPublisher_self (r : Registry) (i : Nat) (id : String) :
    (r.clearPublisher i id).1.slot i = (r.slot i).filter (·.id ≠ id) := by
  rw [clearPublisher, slot_modifyBroadcast, slot]
  cases r.broadcasts[i]? with
  | none => rfl
  | some b => simp only [Option.bind_some, if_pos, publisher_clearPublisher]

/-- Clearing puts nothing into a slot. -/
theorem slot_of_clearPublisher {i b : Nat} {id : String} {p : Publisher}
    (h : (r.clearPublisher i id).1.slot b = some p) : r.slot b = some p := by
  by_cases hb : b = i
  · rw [hb, slot_clearPublisher_self] at h
    rw [hb]
    exact (Option.filter_eq_some_iff.mp h).1
  · rwa [slot_clearPublisher_of_ne r id hb] at h

/-- What clearing answers: whether the publisher was in the slot. -/
theorem clearPublisher_eq_true_iff {i : Nat} {id : String} :
    (r.clearPublisher i id).2 = true ↔ ∃ p, r.slot i = some p ∧ p.id = id := by
  simp only [clearPublisher, slot, Broadcast.isOnAir]
  cases r.broadcasts[i]? with
  | none => simp
  | some b => cases hp : b.publisher <;> simp [hp]

/-! ## Sessions -/

theorem WellFormed.modifySession (h : r.WellFormed) (i : Nat) {f : Session → Session}
    (hf : ∀ s, (f s).id = s.id) : (r.modifySession i f).WellFormed :=
  ⟨h.keys, h.ids.modify i hf⟩

theorem WellFormed.insertSession (h : r.WellFormed) (s : Session) :
    (r.insertSession s).1.WellFormed :=
  ⟨h.keys, h.ids.insert s⟩

theorem WellFormed.removeSession (h : r.WellFormed) (id : String) :
    (r.removeSession id).1.WellFormed :=
  ⟨h.keys, h.ids.erase id⟩

/-- A change of one session that keeps what is looked at. -/
theorem map_session?_modifySession {β : Type} (r : Registry) (i : Nat) {f : Session → Session}
    {g : Session → β} (hf : ∀ s, g (f s) = g s) (id : String) :
    ((r.modifySession i f).session? id).map g = (r.session? id).map g := by
  simp only [session?, modifySession]
  cases r.viewers.get? id with
  | none => rfl
  | some j =>
    simp only [Option.bind_some, List.getElem?_modify]
    cases r.sessions[j]? with
    | none => rfl
    | some s => by_cases h : i = j <;> simp [h, hf]

/-- A change of all sessions that keeps what is looked at. -/
theorem map_session?_mapSessions {β : Type} (r : Registry) {f : Session → Session}
    {g : Session → β} (hf : ∀ s, g (f s) = g s) (id : String) :
    (({ r with sessions := r.sessions.map f } : Registry).session? id).map g =
      (r.session? id).map g := by
  simp only [session?]
  cases r.viewers.get? id with
  | none => rfl
  | some j =>
    simp only [Option.bind_some, List.getElem?_map, Option.map_map]
    exact congrArg (Option.map · r.sessions[j]?) (funext hf)

theorem session?_insertSession (h : r.WellFormed) (s : Session) (id : String) :
    (r.insertSession s).1.session? id = if id = s.id then some s else r.session? id := by
  simp only [session?, insertSession, KeyMap.get?_insert]
  split
  · simp
  · cases hi : r.viewers.get? id with
    | none => rfl
    | some i =>
      obtain ⟨x, hx, -⟩ := h.ids.session_at hi
      obtain ⟨hlt, -⟩ := List.getElem?_eq_some_iff.mp hx
      simp only [Option.bind_some, List.getElem?_append_left hlt]

theorem session?_removeSession (r : Registry) (id other : String) :
    (r.removeSession id).1.session? other = if other = id then none else r.session? other := by
  simp only [session?, removeSession, KeyMap.get?_erase]
  split <;> rfl

theorem seat?_modifySession (r : Registry) (i : Nat) {f : Session → Session}
    (hf : ∀ s, (f s).streamKey = s.streamKey ∧ (f s).broadcast = s.broadcast) (id : String) :
    (r.modifySession i f).seat? id = r.seat? id :=
  map_session?_modifySession r i (fun s => Prod.ext (hf s).1 (hf s).2) id

theorem seat?_mapSessions (r : Registry) {f : Session → Session}
    (hf : ∀ s, (f s).streamKey = s.streamKey ∧ (f s).broadcast = s.broadcast) (id : String) :
    ({ r with sessions := r.sessions.map f } : Registry).seat? id = r.seat? id :=
  map_session?_mapSessions r (fun s => Prod.ext (hf s).1 (hf s).2) id

theorem seat?_insertSession (h : r.WellFormed) (s : Session) (id : String) :
    (r.insertSession s).1.seat? id =
      if id = s.id then some (s.streamKey, s.broadcast) else r.seat? id := by
  rw [seat?, session?_insertSession h]
  split <;> rfl

theorem seat?_insertSession_self (h : r.WellFormed) (s : Session) :
    (r.insertSession s).1.seat? s.id = some (s.streamKey, s.broadcast) := by
  rw [seat?_insertSession h, if_pos rfl]

theorem seat?_removeSession (r : Registry) (id other : String) :
    (r.removeSession id).1.seat? other = if other = id then none else r.seat? other := by
  rw [seat?, session?_removeSession]
  split <;> rfl

/-- Removal seats nobody. -/
theorem seat?_of_removeSession {id other : String} {seat : String × Nat}
    (h : (r.removeSession id).1.seat? other = some seat) : r.seat? other = some seat := by
  rw [seat?_removeSession] at h
  split at h
  · exact absurd h (by simp)
  · exact h

/-- What removal answers: whether a session was registered under the id. -/
theorem removeSession_eq_true_iff (h : r.WellFormed) {id : String} :
    (r.removeSession id).2 = true ↔ ∃ key b, r.seat? id = some (key, b) := by
  simp only [removeSession, KeyMap.contains, seat?, session?]
  cases hi : r.viewers.get? id with
  | none => simp
  | some i =>
    obtain ⟨s, hs, -⟩ := h.ids.session_at hi
    simp [hs]

/-! ## Idle broadcasts -/

theorem mem_sessionsOf (h : r.WellFormed) {key : String} {s : Session} :
    s ∈ r.sessionsOf key ↔ ∃ id, r.session? id = some s ∧ s.streamKey = key := by
  simp only [sessionsOf, List.mem_filter, List.mem_filterMap, decide_eq_true_eq,
    h.ids.ordered.mem_values, session?, Option.bind_eq_some_iff]
  constructor
  · rintro ⟨⟨i, ⟨id, hid⟩, hs⟩, hkey⟩
    exact ⟨id, ⟨i, hid, hs⟩, hkey⟩
  · rintro ⟨id, ⟨i, hid, hs⟩, hkey⟩
    exact ⟨⟨i, ⟨id, hid⟩, hs⟩, hkey⟩

theorem hasViewers_iff (h : r.WellFormed) {key : String} :
    r.hasViewers key = true ↔ ∃ id b, r.seat? id = some (key, b) := by
  have hmem : r.hasViewers key = true ↔ ∃ s, s ∈ r.sessionsOf key := by
    unfold hasViewers
    cases r.sessionsOf key <;> simp
  simp only [hmem, mem_sessionsOf h, seat?_eq_some_iff]
  constructor
  · rintro ⟨s, id, hs, hkey⟩
    exact ⟨id, s.broadcast, s, hs, hkey, rfl⟩
  · rintro ⟨id, b, s, hs, hkey, -⟩
    exact ⟨s, id, hs, hkey⟩

theorem WellFormed.dropUnpublished (h : r.WellFormed) (key : String) :
    (r.dropUnpublished key).WellFormed := by
  unfold Registry.dropUnpublished
  split
  · exact ⟨h.keys.erase key, h.ids⟩
  · exact h

theorem WellFormed.prune (h : r.WellFormed) (key : String) : (r.prune key).WellFormed := by
  unfold Registry.prune
  split
  · exact h
  · exact h.dropUnpublished key

theorem slot_prune (r : Registry) (key : String) (b : Nat) : (r.prune key).slot b = r.slot b := by
  unfold prune dropUnpublished
  split
  · rfl
  · split <;> rfl

theorem session?_prune (r : Registry) (key id : String) :
    (r.prune key).session? id = r.session? id := by
  unfold prune dropUnpublished
  split
  · rfl
  · split <;> rfl

theorem seat?_prune (r : Registry) (key id : String) : (r.prune key).seat? id = r.seat? id :=
  congrArg (Option.map _) (session?_prune r key id)

theorem role?_prune (r : Registry) (key : String) (peer : Nat) :
    (r.prune key).role? peer = r.role? peer := by
  unfold prune dropUnpublished
  split
  · rfl
  · split <;> rfl

theorem viewers_prune (r : Registry) (key : String) : (r.prune key).viewers = r.viewers := by
  unfold prune dropUnpublished
  split
  · rfl
  · split <;> rfl

theorem sessions_prune (r : Registry) (key : String) : (r.prune key).sessions = r.sessions := by
  unfold prune dropUnpublished
  split
  · rfl
  · split <;> rfl

theorem peers_prune (r : Registry) (key : String) : (r.prune key).peers = r.peers := by
  unfold prune dropUnpublished
  split
  · rfl
  · split <;> rfl

/-- A key with something live on it is not pruned. -/
theorem prune_of_live (h : r.WellFormed) {key : String} (hlive : r.Live key) :
    r.prune key = r := by
  unfold prune
  split
  · rfl
  · rename_i hv
    rcases hlive with ⟨b, p, hb, hp⟩ | hseat
    · obtain ⟨x, hx, hpublisher⟩ := Option.bind_eq_some_iff.mp hp
      rw [dropUnpublished, if_neg]
      simp [stream?, hb, hx, Broadcast.hasPublisher, hpublisher]
    · exact absurd ((hasViewers_iff h).mpr hseat) hv

/-- A key with nothing live on it is unregistered. -/
theorem prune_of_not_live (h : r.WellFormed) {key : String} (hlive : ¬ r.Live key) :
    r.prune key = { r with streams := r.streams.erase key } := by
  have hv : ¬ r.hasViewers key = true := fun hv => hlive (Or.inr ((hasViewers_iff h).mp hv))
  rw [prune, if_neg hv, dropUnpublished]
  split
  · rfl
  · rename_i hnot
    cases hb : r.streams.get? key with
    | none => rw [KeyMap.erase_of_get?_eq_none hb]
    | some b =>
      obtain ⟨x, hx, -⟩ := h.keys.broadcast_at hb
      have hpublisher : x.publisher ≠ none := by
        simpa [stream?, hb, hx, Broadcast.hasPublisher] using hnot
      obtain ⟨p, hp⟩ := Option.ne_none_iff_exists'.mp hpublisher
      exact absurd (Or.inl ⟨b, p, hb, by rw [slot, hx, Option.bind_some, hp]⟩) hlive

/-- Pruning a key unregisters it exactly if nothing on it is live, and changes no other key. -/
theorem get?_prune (h : r.WellFormed) {key other : String} {b : Nat} :
    (r.prune key).streams.get? other = some b ↔
      r.streams.get? other = some b ∧ (other = key → r.Live key) := by
  by_cases hlive : r.Live key
  · simp [prune_of_live h hlive, hlive]
  · rw [prune_of_not_live h hlive, KeyMap.get?_erase]
    by_cases heq : other = key <;> simp [heq, hlive]

end BroadcastRelay.Registry
