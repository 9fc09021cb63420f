import BroadcastRelay.Proofs.Registry
/-!
# Settled registries

In a `Settled` registry what is registered is what is live: a publisher is on the broadcast of the
key, or a registered session carries the key. One half of this, that what is live is registered,
holds within operations as well. The other half fails at the key that an operation works on, until
the prune at its end. `SettledBut loose` claims the second half only of the keys that are not
`loose`. There is one lemma for each step of the registry, which says what keys the step loosens,
and `prune` is the one step that tightens.

A session that leaves says by its connection which key to prune, so that key has to be its own: in
a settled registry the seat of a session agrees with the connections of its id.
-/

namespace BroadcastRelay

/-- What never changes of a session: its id, its key and its broadcast. -/
def Session.identity (s : Session) : String × String × Nat := (s.id, s.streamKey, s.broadcast)

namespace Registry

variable {r r' : Registry} {loose : String → Prop}

/-! ## The invariant -/

/-- What is live is registered, and what is registered is live but for some loose keys. -/
structure SettledBut (r : Registry) (loose : String → Prop) : Prop where
  wellFormed : r.WellFormed
  /-- The connections of a seated id are for the key of the seat. -/
  key_of_role : ∀ {peer id key k b}, r.role? peer = some (.viewer id key) →
    r.seat? id = some (k, b) → k = key
  /-- A seated id has a connection. -/
  role_of_seat : ∀ {id k b}, r.seat? id = some (k, b) → ∃ peer, r.role? peer = some (.viewer id k)
  /-- A broadcast with a publisher is registered. -/
  registered_of_slot : ∀ {b p}, r.slot b = some p → ∃ k, r.streams.get? k = some b
  /-- The key of a session is registered. -/
  registered_of_seat : ∀ {id k b}, r.seat? id = some (k, b) → ∃ c, r.streams.get? k = some c
  /-- A registered key is live. -/
  live_of_registered : ∀ {k b}, ¬ loose k → r.streams.get? k = some b → r.Live k

/-- What is live is registered, and what is registered is live. -/
def Settled (r : Registry) : Prop := r.SettledBut fun _ => False

/-- A registry with nothing registered and no publisher anywhere is settled. -/
theorem settled_of_empty (hstreams : r.streams = .empty) (hviewers : r.viewers = .empty)
    (hslot : ∀ b, r.slot b = none) : r.Settled where
  wellFormed := by
    refine ⟨⟨?_, fun h => absurd h ?_⟩, ⟨?_, fun h => absurd h ?_⟩⟩
    · exact hstreams ▸ KeyMap.ordered_empty
    · simp [hstreams]
    · exact hviewers ▸ KeyMap.ordered_empty
    · simp [hviewers]
  key_of_role _ h := by simp [seat?, session?, hviewers] at h
  role_of_seat h := by simp [seat?, session?, hviewers] at h
  registered_of_slot h := by simp [hslot] at h
  registered_of_seat h := by simp [seat?, session?, hviewers] at h
  live_of_registered _ h := by simp [hstreams] at h

theorem settled_fresh : fresh.Settled := settled_of_empty rfl rfl fun _ => rfl

/-- The two registries answer every look-up alike. -/
structure Agrees (r r' : Registry) : Prop where
  stream : ∀ key, r'.streams.get? key = r.streams.get? key
  slot : ∀ b, r'.slot b = r.slot b
  seat : ∀ id, r'.seat? id = r.seat? id
  role : ∀ peer, r'.role? peer = r.role? peer

theorem Agrees.live_iff (ha : r.Agrees r') (key : String) : r'.Live key ↔ r.Live key := by
  simp only [Live, ha.stream, ha.slot, ha.seat]

namespace SettledBut

theorem of_agrees (h : r.SettledBut loose) (hw : r'.WellFormed) (ha : r.Agrees r') :
    r'.SettledBut loose where
  wellFormed := hw
  key_of_role hrole hseat := h.key_of_role (ha.role _ ▸ hrole) (ha.seat _ ▸ hseat)
  role_of_seat hseat := by
    simp only [ha.role]
    exact h.role_of_seat (ha.seat _ ▸ hseat)
  registered_of_slot hslot := by
    simp only [ha.stream]
    exact h.registered_of_slot (ha.slot _ ▸ hslot)
  registered_of_seat hseat := by
    simp only [ha.stream]
    exact h.registered_of_seat (ha.seat _ ▸ hseat)
  live_of_registered hk hb := (ha.live_iff _).mpr (h.live_of_registered hk (ha.stream _ ▸ hb))

/-- More keys may be loose. -/
theorem mono {loose' : String → Prop} (h : r.SettledBut loose) (hl : ∀ k, loose k → loose' k) :
    r.SettledBut loose' :=
  { h with live_of_registered := fun hk hb => h.live_of_registered (fun hl' => hk (hl _ hl')) hb }

/-- A registry whose loose keys turn out to be live is settled. -/
theorem settled (h : r.SettledBut loose) (hlive : ∀ k, loose k → r.Live k) : r.Settled :=
  { h with
    live_of_registered := fun {k _} _ hb =>
      (Classical.em (loose k)).elim (hlive k) fun hk => h.live_of_registered hk hb }

/-- An id that no connection has is not seated. -/
theorem seat_eq_none (h : r.SettledBut loose) {id : String}
    (hnew : ∀ peer key, r.role? peer ≠ some (.viewer id key)) : r.seat? id = none := by
  cases hseat : r.seat? id with
  | none => rfl
  | some seat =>
    obtain ⟨peer, hpeer⟩ := h.role_of_seat hseat
    exact absurd hpeer (hnew peer _)

/-! ## Steps with connections -/

theorem cancel (h : r.SettledBut loose) (peer : Nat) : (r.cancel peer).SettledBut loose :=
  h.of_agrees (h.wellFormed.cancel peer)
    ⟨fun _ => rfl, fun _ => rfl, fun _ => rfl, role?_cancel r _⟩

theorem close (h : r.SettledBut loose) (peer : Nat) : (r.close peer).SettledBut loose :=
  h.of_agrees (h.wellFormed.close peer) ⟨fun _ => rfl, fun _ => rfl, fun _ => rfl, role?_close r _⟩

theorem finish (h : r.SettledBut loose) (peer : Nat) : (r.finish peer).SettledBut loose :=
  (h.cancel peer).close peer

/-- A connection for a session is made before the session is seated. -/
theorem openPeer (h : r.SettledBut loose) (role : Role)
    (hrole : ∀ id key, role = .viewer id key → r.seat? id = none) :
    (r.openPeer role).1.SettledBut loose where
  wellFormed := h.wellFormed.openPeer role
  key_of_role {peer id key k b} hpeer hseat := by
    rw [role?_openPeer] at hpeer
    split at hpeer
    · have hnone : r.seat? id = none := hrole id key (Option.some.inj hpeer)
      exact absurd (hnone.symm.trans hseat) (by simp)
    · exact h.key_of_role hpeer hseat
  role_of_seat hseat := by
    obtain ⟨peer, hpeer⟩ := h.role_of_seat hseat
    refine ⟨peer, ?_⟩
    rw [role?_openPeer, if_neg, hpeer]
    rintro rfl
    simp [role?] at hpeer
  registered_of_slot := h.registered_of_slot
  registered_of_seat := h.registered_of_seat
  live_of_registered := h.live_of_registered

/-! ## Steps with broadcasts -/

/-- The key that is looked up may have had its broadcast made only now. -/
theorem streamOrCreate (h : r.SettledBut loose) (now : UInt64) {key : String} (hkey : loose key) :
    (r.streamOrCreate now key).1.SettledBut loose where
  wellFormed := h.wellFormed.streamOrCreate now key
  key_of_role hrole hseat := by
    rw [role?_streamOrCreate] at hrole
    rw [seat?_streamOrCreate] at hseat
    exact h.key_of_role hrole hseat
  role_of_seat hseat := by
    rw [seat?_streamOrCreate] at hseat
    simp only [role?_streamOrCreate]
    exact h.role_of_seat hseat
  registered_of_slot {b p} hslot := by
    rw [slot_streamOrCreate] at hslot
    obtain ⟨k, hk⟩ := h.registered_of_slot hslot
    exact ⟨k, by rw [get?_streamOrCreate_of_some hk]⟩
  registered_of_seat {id k b} hseat := by
    rw [seat?_streamOrCreate] at hseat
    obtain ⟨c, hc⟩ := h.registered_of_seat hseat
    exact ⟨c, by rw [get?_streamOrCreate_of_some hc]⟩
  live_of_registered {k b} hk hb := by
    have hne : k ≠ key := fun heq => hk (heq ▸ hkey)
    rw [get?_streamOrCreate, if_neg hne] at hb
    rcases h.live_of_registered hk hb with ⟨c, p, hc, hp⟩ | ⟨id, c, hseat⟩
    · exact Or.inl ⟨c, p, get?_streamOrCreate_of_some hc, by rw [slot_streamOrCreate, hp]⟩
    · exact Or.inr ⟨id, c, by rw [seat?_streamOrCreate, hseat]⟩

/-- A publisher goes on a broadcast that is registered. -/
theorem replacePublisher (h : r.SettledBut loose) {i : Nat} {key : String}
    (hkey : r.streams.get? key = some i) (p : Publisher) :
    (r.replacePublisher i p).1.SettledBut loose where
  wellFormed := h.wellFormed.replacePublisher i p
  key_of_role := h.key_of_role
  role_of_seat := h.role_of_seat
  registered_of_slot {b q} hslot := by
    by_cases hb : b = i
    · exact ⟨key, hb ▸ hkey⟩
    · rw [slot_replacePublisher_of_ne r p hb] at hslot
      exact h.registered_of_slot hslot
  registered_of_seat := h.registered_of_seat
  live_of_registered hk hb := by
    rcases h.live_of_registered hk hb with ⟨c, q, hc, hq⟩ | hseat
    · by_cases hci : c = i
      · obtain ⟨x, hx, -⟩ := h.wellFormed.keys.broadcast_at hkey
        exact Or.inl ⟨c, p, hc, hci ▸ slot_replacePublisher_self hx p⟩
      · exact Or.inl ⟨c, q, hc, by rw [slot_replacePublisher_of_ne r p hci, hq]⟩
    · exact Or.inr hseat

/-- Clearing loosens the key of the broadcast if it takes the publisher off. -/
theorem clearPublisher (h : r.SettledBut loose) {i : Nat} {id : String}
    (hloose : ∀ k p, r.streams.get? k = some i → r.slot i = some p → p.id = id → loose k) :
    (r.clearPublisher i id).1.SettledBut loose where
  wellFormed := h.wellFormed.clearPublisher i id
  key_of_role := h.key_of_role
  role_of_seat := h.role_of_seat
  registered_of_slot hslot := h.registered_of_slot (slot_of_clearPublisher hslot)
  registered_of_seat := h.registered_of_seat
  live_of_registered {k b} hk hb := by
    rcases h.live_of_registered hk hb with ⟨c, q, hc, hq⟩ | hseat
    · refine Or.inl ⟨c, q, hc, ?_⟩
      by_cases hci : c = i
      · subst hci
        have hid : q.id ≠ id := fun hid => hk (hloose k q hc hq hid)
        rw [slot_clearPublisher_self, hq, Option.filter_some, if_pos (by simpa using hid)]
      · rw [slot_clearPublisher_of_ne r id hci, hq]
    · exact Or.inr hseat

theorem modifyBroadcast (h : r.SettledBut loose) (i : Nat) {f : Broadcast → Broadcast}
    (hf : ∀ b, (f b).key = b.key ∧ (f b).publisher = b.publisher) :
    (r.modifyBroadcast i f).SettledBut loose :=
  h.of_agrees (h.wellFormed.modifyBroadcast i fun b => (hf b).1)
    ⟨fun _ => rfl, slot_modifyBroadcast_of_publisher r i fun b => (hf b).2, fun _ => rfl,
      fun _ => rfl⟩

/-! ## Steps with sessions -/

theorem modifySession (h : r.SettledBut loose) (i : Nat) {f : Session → Session}
    (hf : ∀ s, (f s).identity = s.identity) : (r.modifySession i f).SettledBut loose := by
  simp only [Session.identity, Prod.mk.injEq] at hf
  exact h.of_agrees (h.wellFormed.modifySession i fun s => (hf s).1)
    ⟨fun _ => rfl, fun _ => rfl, seat?_modifySession r i fun s => (hf s).2, fun _ => rfl⟩

theorem mapSessions (h : r.SettledBut loose) {f : Session → Session}
    (hf : ∀ s, (f s).identity = s.identity) :
    ({ r with sessions := r.sessions.map f } : Registry).SettledBut loose := by
  simp only [Session.identity, Prod.mk.injEq] at hf
  exact h.of_agrees ⟨h.wellFormed.keys, h.wellFormed.ids.map fun s => (hf s).1⟩
    ⟨fun _ => rfl, fun _ => rfl, seat?_mapSessions r fun s => (hf s).2, fun _ => rfl⟩

/-- A session is seated under a new id, on a key that is registered. -/
theorem insertSession (h : r.SettledBut loose) (s : Session) (peer : Nat) {c : Nat}
    (hnone : r.seat? s.id = none) (hkey : r.streams.get? s.streamKey = some c)
    (hrole : r.role? peer = some (.viewer s.id s.streamKey))
    (honly : ∀ peer k, r.role? peer = some (.viewer s.id k) → k = s.streamKey) :
    (r.insertSession s).1.SettledBut loose where
  wellFormed := h.wellFormed.insertSession s
  key_of_role {peer id key k b} hpeer hseat := by
    rw [seat?_insertSession h.wellFormed] at hseat
    split at hseat
    · rename_i heq
      obtain ⟨rfl, -⟩ := Prod.mk.inj (Option.some.inj hseat)
      exact (honly peer key (heq ▸ hpeer)).symm
    · exact h.key_of_role hpeer hseat
  role_of_seat {id k b} hseat := by
    rw [seat?_insertSession h.wellFormed] at hseat
    split at hseat
    · rename_i heq
      obtain ⟨rfl, -⟩ := Prod.mk.inj (Option.some.inj hseat)
      exact ⟨peer, heq ▸ hrole⟩
    · exact h.role_of_seat hseat
  registered_of_slot := h.registered_of_slot
  registered_of_seat {id k b} hseat := by
    rw [seat?_insertSession h.wellFormed] at hseat
    split at hseat
    · obtain ⟨rfl, -⟩ := Prod.mk.inj (Option.some.inj hseat)
      exact ⟨c, hkey⟩
    · exact h.registered_of_seat hseat
  live_of_registered {k b} hk hb := by
    rcases h.live_of_registered hk hb with hslot | ⟨id, c, hseat⟩
    · exact Or.inl hslot
    · refine Or.inr ⟨id, c, ?_⟩
      rw [seat?_insertSession h.wellFormed, if_neg, hseat]
      rintro rfl
      exact absurd (hnone.symm.trans hseat) (by simp)

/-- Forgetting a session loosens its key. -/
theorem removeSession (h : r.SettledBut loose) {id : String}
    (hloose : ∀ k b, r.seat? id = some (k, b) → loose k) :
    (r.removeSession id).1.SettledBut loose where
  wellFormed := h.wellFormed.removeSession id
  key_of_role hpeer hseat := h.key_of_role hpeer (seat?_of_removeSession hseat)
  role_of_seat hseat := h.role_of_seat (seat?_of_removeSession hseat)
  registered_of_slot := h.registered_of_slot
  registered_of_seat hseat := h.registered_of_seat (seat?_of_removeSession hseat)
  live_of_registered {k b} hk hb := by
    rcases h.live_of_registered hk hb with hslot | ⟨other, c, hseat⟩
    · exact Or.inl hslot
    · refine Or.inr ⟨other, c, ?_⟩
      rw [seat?_removeSession, if_neg, hseat]
      rintro rfl
      exact hk (hloose k c hseat)

/-! ## Pruning -/

/-- Pruning tightens its key. -/
theorem prune (h : r.SettledBut loose) (key : String) :
    (r.prune key).SettledBut fun k => loose k ∧ k ≠ key where
  wellFormed := h.wellFormed.prune key
  key_of_role hrole hseat := by
    rw [role?_prune] at hrole
    rw [seat?_prune] at hseat
    exact h.key_of_role hrole hseat
  role_of_seat hseat := by
    rw [seat?_prune] at hseat
    simp only [role?_prune]
    exact h.role_of_seat hseat
  registered_of_slot {b p} hslot := by
    rw [slot_prune] at hslot
    obtain ⟨k, hk⟩ := h.registered_of_slot hslot
    exact ⟨k, (get?_prune h.wellFormed).mpr ⟨hk, fun heq => Or.inl ⟨b, p, heq ▸ hk, hslot⟩⟩⟩
  registered_of_seat {id k b} hseat := by
    rw [seat?_prune] at hseat
    obtain ⟨c, hc⟩ := h.registered_of_seat hseat
    exact ⟨c, (get?_prune h.wellFormed).mpr ⟨hc, fun heq => Or.inr ⟨id, b, heq ▸ hseat⟩⟩⟩
  live_of_registered {k b} hk hb := by
    obtain ⟨hb, hkey⟩ := (get?_prune h.wellFormed).mp hb
    have hlive : r.Live k := by
      by_cases heq : k = key
      · exact heq ▸ hkey heq
      · exact h.live_of_registered (fun hl => hk ⟨hl, heq⟩) hb
    rcases hlive with ⟨c, p, hc, hp⟩ | ⟨id, c, hseat⟩
    · exact Or.inl ⟨c, p, (get?_prune h.wellFormed).mpr
        ⟨hc, fun heq => Or.inl ⟨c, p, heq ▸ hc, hp⟩⟩, by rw [slot_prune, hp]⟩
    · exact Or.inr ⟨id, c, by rw [seat?_prune, hseat]⟩

/-- Pruning the one loose key settles the registry. -/
theorem settled_prune {key : String} (h : r.SettledBut (· = key)) : (r.prune key).Settled :=
  (h.prune key).mono fun _ hk => hk.2 hk.1

end SettledBut

end Registry

end BroadcastRelay
