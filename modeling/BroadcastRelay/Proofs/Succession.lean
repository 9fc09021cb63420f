import BroadcastRelay.Proofs.LiveStreams
import BroadcastRelay.Proofs.Orphans
import Mathlib.Data.List.Nodup
/-!
# Publishers that follow one another

Publishers come to the slot of a broadcast one after the other. The one that is replaced is dismissed
only later, and its connection may report its end at any time and again, when another publisher is
long on air. A `Station` is the traffic together with shutdowns, which first take everything out of
the registry and then the publishers off one broadcast after the other.

A slot is emptied only on account of the publisher in it, or by a shutdown (`slot_turn`): an errand
clears a slot by the id of a publisher, and ids are drawn once (`Named`). Of the publishers that a
slot has had, only the last can be neither cancelled nor awaiting its dismissal (`Recorded`).
-/

namespace BroadcastRelay

/-! ## Counting -/

section Counting

variable {α : Type} {p : α → Bool}

theorem countP_singleton_toNat (a : α) : [a].countP p = (p a).toNat := by
  cases ha : p a <;> simp [ha]

/-- What is counted when an element is put in place of another. -/
theorem countP_set_add {l : List α} {i : Nat} {x : α} (hi : l[i]? = some x) (a : α) :
    (l.set i a).countP p + (p x).toNat = l.countP p + (p a).toNat := by
  obtain ⟨hlt, rfl⟩ := List.getElem?_eq_some_iff.mp hi
  rw [List.countP_set hlt]
  cases hx : p l[i] with
  | false => cases p a <;> simp
  | true =>
    have hpos : 0 < l.countP p := List.countP_pos_iff.mpr ⟨_, List.getElem_mem hlt, hx⟩
    cases p a <;> simp <;> omega

/-- Two places with a property that no more than one element has are the same. -/
theorem eq_of_countP_le_one {l : List α} (h : l.countP p ≤ 1) {i j : Nat} {a b : α}
    (hi : l[i]? = some a) (ha : p a = true) (hj : l[j]? = some b) (hb : p b = true) : i = j := by
  by_contra hne
  wlog hlt : i < j generalizing i j a b
  · exact this hj hb hi ha (Ne.symm hne) (by omega)
  rw [← List.take_append_drop j l, List.countP_append] at h
  have hbefore : 0 < (l.take j).countP p :=
    List.countP_pos_iff.mpr ⟨a, List.mem_of_getElem? ((List.getElem?_take_of_lt hlt).trans hi), ha⟩
  have hafter : 0 < (l.drop j).countP p :=
    List.countP_pos_iff.mpr ⟨b, List.mem_of_getElem? (i := 0) (by rwa [List.getElem?_drop]), hb⟩
  omega

end Counting

/-! ## Connections -/

/-- Whether it is the role of a publisher with this id. -/
def Role.names (id : String) : Role → Bool
  | .publisher _ i => i == id
  | .viewer _ _ => false

namespace Registry

variable {r r' r'' : Registry}

/-- The roles of all connections, in the order in which they were made. -/
def roles (r : Registry) : List Role := r.peers.map (·.role)

theorem role?_eq_roles (r : Registry) (peer : Nat) : r.role? peer = r.roles[peer]? := by
  simp [role?, roles]

theorem length_roles (r : Registry) : r.roles.length = r.peers.length := by simp [roles]

/-- The later registry has some connections more, and those that were cancelled are cancelled. -/
structure Carries (r r' : Registry) (opened : List Role) : Prop where
  roles : r'.roles = r.roles ++ opened
  cancelled : ∀ i, r.isCancelled i = true → r'.isCancelled i = true

theorem Carries.trans {opened more : List Role} (h : r.Carries r' opened)
    (h' : r'.Carries r'' more) : r.Carries r'' (opened ++ more) where
  roles := by rw [h'.roles, h.roles, List.append_assoc]
  cancelled i hi := h'.cancelled i (h.cancelled i hi)

theorem Carries.role? {opened : List Role} (h : r.Carries r' opened) {peer : Nat} {role : Role}
    (hrole : r.role? peer = some role) : r'.role? peer = some role := by
  rw [role?_eq_roles] at hrole ⊢
  rw [h.roles, List.getElem?_append_left (List.getElem?_eq_some_iff.mp hrole).1, hrole]

theorem carries_of_peers (h : r'.peers = r.peers) : r.Carries r' [] where
  roles := by rw [roles, h, List.append_nil, roles]
  cancelled i hi := by rwa [isCancelled, h]

/-- A change of connections that keeps their roles and cancels none anew. -/
theorem carries_modify (r : Registry) (i : Nat) {f : Peer → Peer} (hrole : ∀ p, (f p).role = p.role)
    (hcancelled : ∀ p, p.cancelled = true → (f p).cancelled = true) :
    r.Carries { r with peers := r.peers.modify i f } [] where
  roles := by
    refine List.ext_getElem? fun peer => ?_
    rw [List.append_nil, ← role?_eq_roles, ← role?_eq_roles]
    exact role_modify r.peers i hrole peer
  cancelled j hj := by
    simp only [isCancelled, List.getElem?_modify] at hj ⊢
    cases hp : r.peers[j]? with
    | none => simp [hp] at hj
    | some p =>
      simp only [hp, Option.any_some] at hj
      by_cases hij : i = j
      · simpa [hij] using hcancelled p hj
      · simpa [hij] using hj

theorem carries_cancel (r : Registry) (peer : Nat) : r.Carries (r.cancel peer) [] :=
  r.carries_modify peer (f := fun p => { p with cancelled := true }) (fun _ => rfl) fun _ _ => rfl

theorem carries_close (r : Registry) (peer : Nat) : r.Carries (r.close peer) [] :=
  r.carries_modify peer (f := fun p => { p with closed := true }) (fun _ => rfl) fun _ h => h

theorem carries_finish (r : Registry) (peer : Nat) : r.Carries (r.finish peer) [] :=
  (r.carries_cancel peer).trans ((r.cancel peer).carries_close peer)

theorem carries_openPeer (r : Registry) (role : Role) : r.Carries (r.openPeer role).1 [role] where
  roles := by simp [roles, openPeer]
  cancelled i hi := by
    obtain ⟨p, hp, hcancelled⟩ := (Option.any_eq_true _ _).mp hi
    refine (Option.any_eq_true _ _).mpr ⟨p, ?_, hcancelled⟩
    exact (List.getElem?_append_left (List.getElem?_eq_some_iff.mp hp).1).trans hp

/-- A connection that there is is cancelled by being cancelled. -/
theorem isCancelled_cancel {peer : Nat} {role : Role} (h : r.role? peer = some role) :
    (r.cancel peer).isCancelled peer = true := by
  obtain ⟨p, hp, -⟩ := Option.map_eq_some_iff.mp h
  simp [isCancelled, cancel, hp]

theorem isCancelled_finish {peer : Nat} {role : Role} (h : r.role? peer = some role) :
    (r.finish peer).isCancelled peer = true :=
  ((r.cancel peer).carries_close peer).cancelled peer (isCancelled_cancel h)

theorem lt_of_role? {peer : Nat} {role : Role} (h : r.role? peer = some role) :
    peer < r.peers.length := by
  rw [role?_eq_roles] at h
  exact length_roles r ▸ (List.getElem?_eq_some_iff.mp h).1

/-! ## Slots -/

/-- What a replacement does to slots. -/
theorem slot_replacePublisher_cases (r : Registry) (i : Nat) (p : Publisher) (b : Nat) :
    (r.replacePublisher i p).1.slot b = r.slot b ∨
      (i = b ∧ (r.replacePublisher i p).1.slot b = some p) := by
  by_cases hb : b = i
  · subst hb
    cases hx : r.broadcasts[b]? with
    | none =>
      left
      simp only [replacePublisher, slot_modifyBroadcast, hx, Option.bind_none]
      rw [slot, hx, Option.bind_none]
    | some x => exact Or.inr ⟨rfl, slot_replacePublisher_self hx p⟩
  · exact Or.inl (slot_replacePublisher_of_ne r p hb)

/-- What clearing does to slots. -/
theorem slot_clearPublisher_cases (r : Registry) (i : Nat) (id : String) (b : Nat) :
    (r.clearPublisher i id).1.slot b = r.slot b ∨
      ∃ p, r.slot b = some p ∧ i = b ∧ id = p.id ∧ (r.clearPublisher i id).1.slot b = none := by
  by_cases hb : b = i
  · subst hb
    rw [slot_clearPublisher_self]
    cases hp : r.slot b with
    | none => exact Or.inl rfl
    | some p =>
      by_cases hid : p.id = id
      · exact Or.inr ⟨p, rfl, rfl, hid.symm, by simp [Option.filter_some, hid]⟩
      · exact Or.inl (by simp [Option.filter_some, hid])
  · exact Or.inl (slot_clearPublisher_of_ne r id hb)

end Registry

/-! ## One step of an errand -/

namespace Errand

variable {r : Registry} {e : Errand} {b : Nat}

/-- The connections that the next step makes. -/
def opens : Errand → List Role
  | attach _ _ (some .connection) _ => []
  | attach key id _ _ => [.viewer id key]
  | install _ id _ broadcast => [.publisher broadcast id]
  | _ => []

/-- Whether it is the errand of a publisher with this id that has no connection yet. -/
def awaits (id : String) : Errand → Bool
  | ingest _ i _ | install _ i _ _ => i == id
  | _ => false

/-- The broadcast and the publisher of an errand that has put one into a slot. -/
def airs? : Errand → Option (Nat × Publisher)
  | dismiss _ id _ broadcast peer _ | answerPublisher _ id _ broadcast peer
  | published _ id broadcast peer => some (broadcast, ⟨id, peer⟩)
  | _ => none

theorem carries_leave (r : Registry) (key id : String) (peer : Nat) :
    r.Carries (leave r key id peer).1 [] :=
  (r.carries_finish peer).trans (Registry.carries_of_peers rfl)

theorem carries_retire (r : Registry) (peer : Nat) (open? : Option Nat) (role : Role) :
    r.Carries (retire r peer open? role).1 [] := by
  refine (r.carries_cancel peer).trans (Registry.carries_of_peers ?_)
  cases role with
  | publisher broadcast id =>
    rw [retire_publisher_fst]
    rfl
  | viewer id key => rfl

theorem carries_step (now : UInt64) (r : Registry) (e : Errand) :
    r.Carries (e.step now r).1 e.opens := by
  have hsame := Registry.carries_of_peers (r := r) rfl
  cases e with
  | egress key id failure => exact Registry.carries_of_peers (Registry.peers_streamOrCreate r now key)
  | attach key id failure broadcast =>
    have hopen := r.carries_openPeer (.viewer id key)
    have hinsert : r.Carries ((r.openPeer (.viewer id key)).1.insertSession
        (.fresh id key broadcast r.peers.length)).1 [.viewer id key] :=
      hopen.trans (Registry.carries_of_peers rfl)
    rcases failure with _ | _ | _ | _
    · exact hinsert
    · exact hsame
    · exact hopen.trans (carries_leave _ key id r.peers.length)
    · exact hinsert
  | answerViewer key id failure session peer =>
    cases failure with
    | none => exact Registry.carries_of_peers rfl
    | some failed => exact carries_leave r key id peer
  | ingest key id failure =>
    have hlooked := Registry.carries_of_peers (Registry.peers_streamOrCreate r now key)
    rcases failure with _ | _ | _ | _
    · exact hlooked
    · exact hsame
    · exact hlooked
    · exact hlooked
  | install key id failure broadcast =>
    exact (r.carries_openPeer (.publisher broadcast id)).trans (Registry.carries_of_peers rfl)
  | dismiss key id failure broadcast peer previous =>
    cases previous with
    | none => exact hsame
    | some p => exact r.carries_finish p.peer
  | answerPublisher key id failure broadcast peer =>
    cases failure with
    | none => exact hsame
    | some failed => exact (r.carries_finish peer).trans (Registry.carries_of_peers rfl)
  | published key id broadcast peer => exact hsame
  | report peer state =>
    simp only [step]
    split
    · exact carries_retire r peer _ _
    · exact hsame
  | rest key peer =>
    have hprune : r.Carries ((key.map r.prune).getD r) [] := by
      cases key with
      | none => exact hsame
      | some key => exact Registry.carries_of_peers (Registry.peers_prune r key)
    cases peer with
    | none => exact hprune
    | some peer => exact hprune.trans (Registry.carries_close _ peer)
  | done => exact hsame

/-- All that a step can do to a slot: nothing, to put a new publisher into it, or to take the
publisher out whose errand has failed or whose connection has come to its end. -/
theorem slot_step (now : UInt64) (r : Registry) (e : Errand) (b : Nat) :
    (e.step now r).1.slot b = r.slot b ∨
    (∃ key id failure, e = install key id failure b ∧
      (e.step now r).1.slot b = some ⟨id, r.peers.length⟩) ∨
    ∃ p peer, r.slot b = some p ∧ (e.step now r).1.slot b = none ∧
      ((∃ key failed, e = answerPublisher key p.id (some failed) b peer) ∨
        ∃ state, e = report peer state ∧ state.isTerminal = true ∧
          r.role? peer = some (.publisher b p.id)) := by
  cases e with
  | egress key id failure => exact Or.inl (Registry.slot_streamOrCreate r now key b)
  | attach key id failure broadcast =>
    rcases failure with _ | _ | _ | _ <;> exact Or.inl rfl
  | answerViewer key id failure session peer => cases failure <;> exact Or.inl rfl
  | ingest key id failure =>
    rcases failure with _ | _ | _ | _
    · exact Or.inl (Registry.slot_streamOrCreate r now key b)
    · exact Or.inl rfl
    · exact Or.inl (Registry.slot_streamOrCreate r now key b)
    · exact Or.inl (Registry.slot_streamOrCreate r now key b)
  | install key id failure broadcast =>
    rcases Registry.slot_replacePublisher_cases (r.openPeer (.publisher broadcast id)).1 broadcast
        ⟨id, r.peers.length⟩ b with hsame | ⟨rfl, hnew⟩
    · exact Or.inl hsame
    · exact Or.inr (Or.inl ⟨key, id, failure, rfl, hnew⟩)
  | dismiss key id failure broadcast peer previous => cases previous <;> exact Or.inl rfl
  | answerPublisher key id failure broadcast peer =>
    cases failure with
    | none => exact Or.inl rfl
    | some failed =>
      rcases Registry.slot_clearPublisher_cases (r.cancel peer) broadcast id b with
        hsame | ⟨p, hp, rfl, rfl, hnone⟩
      · exact Or.inl hsame
      · exact Or.inr (Or.inr ⟨p, peer, hp, hnone, Or.inl ⟨key, failed, rfl⟩⟩)
  | published key id broadcast peer => exact Or.inl rfl
  | report peer state =>
    cases hterminal : state.isTerminal with
    | false => exact Or.inl (by simp [step, hterminal])
    | true =>
      cases hp : r.peers[peer]? with
      | none => exact Or.inl (by simp [step, hterminal, hp])
      | some x =>
        have hrole : r.role? peer = some x.role := by rw [Registry.role?, hp, Option.map_some]
        simp only [step, hterminal, hp]
        cases hx : x.role with
        | viewer id key => exact Or.inl rfl
        | publisher broadcast id =>
          rw [retire_publisher_fst]
          rcases Registry.slot_clearPublisher_cases (r.cancel peer) broadcast id b with
            hsame | ⟨p, hslot, rfl, rfl, hnone⟩
          · exact Or.inl hsame
          · exact Or.inr (Or.inr ⟨p, peer, hslot, hnone,
              Or.inr ⟨state, rfl, hterminal, hrole.trans (congrArg some hx)⟩⟩)
  | rest key peer =>
    left
    cases key with
    | none => cases peer <;> rfl
    | some key => cases peer <;> exact Registry.slot_prune r key b
  | done => exact Or.inl rfl

/-- A report of its end cancels a connection. -/
theorem isCancelled_report (now : UInt64) {peer : Nat} {state : PeerState} {role : Role}
    (hterminal : state.isTerminal = true) (hrole : r.role? peer = some role) :
    (step now r (report peer state)).1.isCancelled peer = true := by
  obtain ⟨p, hp, -⟩ := Option.map_eq_some_iff.mp hrole
  have hcancelled := Registry.isCancelled_cancel hrole
  simp only [step, hterminal, hp]
  cases p.role with
  | publisher broadcast id =>
    rw [retire_publisher_fst]
    exact hcancelled
  | viewer id key => exact hcancelled

/-- A step makes a connection for a publisher only if the errand was awaiting it. -/
theorem awaits_step (now : UInt64) (r : Registry) (e : Errand) (id : String) :
    ((e.step now r).2.awaits id).toNat + e.opens.countP (Role.names id) ≤ (e.awaits id).toNat := by
  cases e with
  | attach key viewer failure broadcast =>
    rcases failure with _ | _ | _ | _ <;> simp [step, leave, awaits, opens, Role.names]
  | answerViewer key viewer failure session peer =>
    cases failure <;> simp [step, leave, awaits, opens]
  | ingest key publisher failure =>
    rcases failure with _ | _ | _ | _ <;> simp [step, awaits, opens]
  | install key publisher failure broadcast =>
    simp only [step, awaits, opens, countP_singleton_toNat, Role.names, Bool.toNat_false]
    omega
  | answerPublisher key publisher failure broadcast peer =>
    cases failure <;> simp [step, awaits, opens]
  | report peer state =>
    rcases report_snd now r peer state with hnext | ⟨key, open?, hnext⟩ <;>
      simp [hnext, awaits, opens]
  | _ => simp [step, awaits, opens]

/-- An errand has put a publisher into a slot only where it installed one. -/
theorem airs_of_step {now : UInt64} {p : Publisher}
    (h : (e.step now r).2.airs? = some (b, p)) :
    e.airs? = some (b, p) ∨
      ∃ key id failure, e = install key id failure b ∧ p = ⟨id, r.peers.length⟩ := by
  cases e with
  | install key id failure broadcast =>
    obtain ⟨rfl, rfl⟩ := Prod.mk.inj (Option.some.inj h)
    exact Or.inr ⟨key, id, failure, rfl, rfl⟩
  | dismiss key id failure broadcast peer previous => exact Or.inl h
  | answerPublisher key id failure broadcast peer =>
    cases failure with
    | none => exact Or.inl h
    | some failed => exact absurd h (by simp [step, airs?])
  | published key id broadcast peer => exact Or.inl h
  | attach key id failure broadcast =>
    rcases failure with _ | _ | _ | _ <;> exact absurd h (by simp [step, leave, airs?])
  | answerViewer key id failure session peer =>
    cases failure <;> exact absurd h (by simp [step, leave, airs?])
  | ingest key id failure =>
    rcases failure with _ | _ | _ | _ <;> exact absurd h (by simp [step, airs?])
  | report peer state =>
    rcases report_snd now r peer state with hnext | ⟨k, open?, hnext⟩ <;> rw [hnext] at h <;>
      exact absurd h (by simp [airs?])
  | _ => exact absurd h (by simp [step, airs?])

end Errand

/-! ## Names are drawn once -/

namespace Traffic

variable {t : Traffic} {ids : List String}

/-- A publisher in a slot has its own connection, and no id is that of more publishers than it was
drawn for, those without a connection included. -/
structure Named (ids : List String) (t : Traffic) : Prop where
  count_le : ∀ id, t.errands.countP (·.awaits id) + t.registry.roles.countP (Role.names id) ≤
    ids.count id
  role_of_slot : ∀ {b p}, t.registry.slot b = some p →
    t.registry.role? p.peer = some (.publisher b p.id)
  role_of_airs : ∀ {e b p}, e ∈ t.errands → e.airs? = some (b, p) →
    t.registry.role? p.peer = some (.publisher b p.id)

theorem named_fresh : fresh.Named [] where
  count_le id := by simp [fresh, Registry.fresh, Registry.roles]
  role_of_slot h := absurd h (by simp [fresh, Registry.fresh, Registry.slot])
  role_of_airs h := absurd h (by simp [fresh])

/-- If ids are drawn once, then publishers of one id have one connection. -/
theorem Named.peer_unique (h : t.Named ids) (hids : ids.Nodup) {i j b c : Nat} {id : String}
    (hi : t.registry.role? i = some (.publisher b id))
    (hj : t.registry.role? j = some (.publisher c id)) : i = j := by
  have hcount := h.count_le id
  have honce := List.nodup_iff_count.mp hids id
  rw [Registry.role?_eq_roles] at hi hj
  exact eq_of_countP_le_one (p := Role.names id) (by omega) hi (by simp [Role.names]) hj
    (by simp [Role.names])

/-- An errand begins without a connection, and with an id that is drawn for it. -/
theorem Named.start (h : t.Named ids) {e : Errand} {more : List String} (hairs : e.airs? = none)
    (hawaits : ∀ id, (e.awaits id).toNat ≤ more.count id) : (t.start e).Named (ids ++ more) where
  count_le id := by
    have hcount := h.count_le id
    have hnew := hawaits id
    simp only [Traffic.start, List.countP_append, countP_singleton_toNat, List.count_append]
    omega
  role_of_slot := h.role_of_slot
  role_of_airs he hp := by
    rcases List.mem_append.mp he with he | he
    · exact h.role_of_airs he hp
    · rw [List.mem_singleton.mp he, hairs] at hp
      exact absurd hp (by simp)

theorem Named.advance (h : t.Named ids) {i : Nat} {e : Errand} (hi : t.errands[i]? = some e)
    (now : UInt64) :
    Named ids ⟨(e.step now t.registry).1, t.errands.set i (e.step now t.registry).2⟩ := by
  have hcarries := e.carries_step now t.registry
  have hnew : ∀ {key id failure b}, e = .install key id failure b →
      (e.step now t.registry).1.role? t.registry.peers.length = some (.publisher b id) := by
    rintro key id failure b rfl
    rw [Registry.role?_eq_roles, hcarries.roles, ← Registry.length_roles, Errand.opens,
      List.getElem?_concat_length]
  refine ⟨fun id => ?_, fun {b p} hp => ?_, fun {x b p} hx hp => ?_⟩
  · -- A connection that the step makes is one that the errand no longer awaits.
    have hcount := h.count_le id
    have hstep := e.awaits_step now t.registry id
    have hset := countP_set_add (p := (·.awaits id)) hi (e.step now t.registry).2
    simp only [hcarries.roles, List.countP_append]
    omega
  · rcases e.slot_step now t.registry b with hsame | ⟨key, id, failure, he, hslot⟩ |
      ⟨q, peer, -, hnone, -⟩
    · exact hcarries.role? (h.role_of_slot (hsame ▸ hp))
    · obtain rfl := Option.some.inj (hslot.symm.trans hp)
      exact hnew he
    · exact absurd (hnone.symm.trans hp) (by simp)
  · rcases List.mem_or_eq_of_mem_set hx with hx | rfl
    · exact hcarries.role? (h.role_of_airs hx hp)
    · rcases Errand.airs_of_step hp with hbefore | ⟨key, id, failure, he, rfl⟩
      · exact hcarries.role? (h.role_of_airs (List.mem_of_getElem? hi) hbefore)
      · exact hnew he

/-- Names stay in order if no connection is made and no slot is filled. -/
theorem Named.of_carries (h : t.Named ids) {r : Registry} (hcarries : t.registry.Carries r [])
    (hslot : ∀ b p, r.slot b = some p → t.registry.slot b = some p) :
    Named ids ⟨r, t.errands⟩ where
  count_le id := by simpa only [hcarries.roles, List.append_nil] using h.count_le id
  role_of_slot hp := hcarries.role? (h.role_of_slot (hslot _ _ hp))
  role_of_airs he hp := hcarries.role? (h.role_of_airs he hp)

end Traffic

/-! ## Shutdowns beside the traffic -/

/-- Takes everything out of the registry and ends the connections of the viewers. -/
def Registry.drain (r : Registry) : Registry :=
  (r.viewers.values.filterMap (r.sessions[·]?)).foldl (fun d s => d.finish s.peer)
    { r with streams := .empty, viewers := .empty }

/-- Traffic, and what shutdowns still have to do. -/
structure Station extends Traffic where
  /-- The broadcasts that were taken out of the registry and are still to be taken off air. -/
  leaving : List Nat

/-- One turn of a station. -/
inductive Turn where
  /-- A move of the traffic. -/
  | move (m : Move)
  /-- A shutdown takes everything out of the registry. -/
  | drain
  /-- A shutdown takes the next broadcast off air. -/
  | takeOff

/-- The id drawn for a publisher. -/
def Turn.publisherId? : Turn → Option String
  | .move (.ingest _ id _) => some id
  | _ => none

namespace Station

variable {s : Station} {x : Turn} {ids : List String} {b : Nat} {p q : Publisher}

/-- A station before anything is asked of it. -/
def fresh : Station := ⟨.fresh, []⟩

/-- The station after a turn. -/
def turn (s : Station) : Turn → Station
  | .move m => ⟨s.toTraffic.move m, s.leaving⟩
  | .drain => ⟨⟨s.registry.drain, s.errands⟩, s.leaving ++ s.registry.streams.values⟩
  | .takeOff =>
    match s.leaving with
    | [] => s
    | b :: rest => ⟨⟨Engine.takeOff s.registry b, s.errands⟩, rest⟩

/-- The station after a list of turns. -/
def run (turns : List Turn) : Station := turns.foldl turn fresh

theorem run_concat (turns : List Turn) (x : Turn) : run (turns ++ [x]) = (run turns).turn x := by
  simp [run]

theorem foldl_turn_takeOff (t : Traffic) (bs : List Nat) :
    (List.replicate bs.length Turn.takeOff).foldl turn ⟨t, bs⟩ =
      ⟨⟨bs.foldl Engine.takeOff t.registry, t.errands⟩, []⟩ := by
  induction bs generalizing t with
  | nil => rfl
  | cons b bs ih => exact ih ⟨Engine.takeOff t.registry b, t.errands⟩

/-- A shutdown that is alone. -/
theorem foldl_turn_shutdown (e : Engine) (errands : List Errand) :
    ((Turn.drain :: List.replicate e.registry.streams.values.length .takeOff).foldl turn
      ⟨⟨e.registry, errands⟩, []⟩).registry = e.shutdown.registry := by
  rw [List.foldl_cons]
  exact congrArg (·.registry) (foldl_turn_takeOff _ e.registry.streams.values)

/-! ## One turn -/

/-- The ingest that replaced the publisher is about to cancel it. -/
def AwaitsDismissal (s : Station) (p : Publisher) : Prop :=
  ∃ key id failure b peer, .dismiss key id failure b peer (some p) ∈ s.errands

/-- The turn is the failure of the publisher's own ingest, a terminal report of its own connection,
or a shutdown that takes its broadcast off air. -/
def Ends (s : Station) (b : Nat) (p : Publisher) : Turn → Prop
  | .move (.advance i _) =>
    (∃ key failed, s.errands[i]? = some (.answerPublisher key p.id (some failed) b p.peer)) ∨
      ∃ state, s.errands[i]? = some (.report p.peer state) ∧ state.isTerminal = true
  | .takeOff => s.leaving.head? = some b
  | _ => False

theorem carries_drain (r : Registry) : r.Carries r.drain [] := by
  have hfold : ∀ (ss : List Session) (r : Registry),
      r.Carries (ss.foldl (fun d s => d.finish s.peer) r) [] := by
    intro ss
    induction ss with
    | nil => exact fun r => Registry.carries_of_peers rfl
    | cons s ss ih => exact fun r => (r.carries_finish s.peer).trans (ih _)
  have hemptied : r.Carries { r with streams := .empty, viewers := .empty } [] :=
    Registry.carries_of_peers rfl
  exact hemptied.trans (hfold _ _)

theorem carries_takeOff (r : Registry) (b : Nat) : r.Carries (Engine.takeOff r b) [] := by
  unfold Engine.takeOff
  split
  · rename_i p hp
    exact (r.carries_finish p.peer).trans (Registry.carries_of_peers rfl)
  · exact Registry.carries_of_peers rfl

theorem slot_drain (r : Registry) (b : Nat) : r.drain.slot b = r.slot b := by
  rw [Registry.slot, Registry.drain, (Engine.foldl_finish _ _).2.2, Registry.slot]

/-- A turn takes no connection away and revives none. -/
theorem carries_turn (s : Station) (x : Turn) :
    ∃ opened, s.registry.Carries (s.turn x).registry opened := by
  have hsame : s.registry.Carries s.registry [] := Registry.carries_of_peers rfl
  cases x with
  | move m =>
    cases m with
    | advance i now =>
      simp only [turn, Traffic.move]
      split
      · rename_i e he
        exact ⟨_, e.carries_step now s.registry⟩
      · exact ⟨_, hsame⟩
    | egress key id failure => exact ⟨_, hsame⟩
    | ingest key id failure => exact ⟨_, hsame⟩
    | report peer state => exact ⟨_, hsame⟩
  | drain => exact ⟨_, carries_drain s.registry⟩
  | takeOff =>
    simp only [turn]
    split
    · exact ⟨_, hsame⟩
    · exact ⟨_, carries_takeOff s.registry _⟩

theorem named_turn (h : s.Named ids) (x : Turn) :
    (s.turn x).Named (ids ++ x.publisherId?.toList) := by
  have hnil : ids ++ [] = ids := List.append_nil ids
  cases x with
  | move m =>
    cases m with
    | egress key id failure => exact h.start rfl fun _ => Nat.zero_le _
    | ingest key id failure =>
      refine h.start rfl fun other => ?_
      simp only [Errand.awaits, Turn.publisherId?, Option.toList_some, List.count_singleton]
      cases id == other <;> simp
    | report peer state => exact h.start rfl fun _ => Nat.zero_le _
    | advance i now =>
      simp only [turn, Traffic.move, Turn.publisherId?, Option.toList_none, hnil]
      split
      · rename_i e he
        exact h.advance he now
      · exact h
  | drain =>
    simp only [turn, Turn.publisherId?, Option.toList_none, hnil]
    exact h.of_carries (carries_drain s.registry) fun b p hp => slot_drain s.registry b ▸ hp
  | takeOff =>
    simp only [turn, Turn.publisherId?, Option.toList_none, hnil]
    split
    · exact h
    · rename_i c rest _
      refine h.of_carries (carries_takeOff s.registry c) fun b p hp => ?_
      rw [Engine.slot_takeOff] at hp
      split at hp
      · exact absurd hp (by simp)
      · exact hp

theorem named_run (turns : List Turn) :
    (run turns).Named (turns.filterMap Turn.publisherId?) := by
  induction turns using List.reverseRecOn with
  | nil => exact Traffic.named_fresh
  | append_singleton turns x ih =>
    have hlast : [x].filterMap Turn.publisherId? = x.publisherId?.toList := by
      cases h : x.publisherId? <;> simp [h]
    rw [run_concat, List.filterMap_append, hlast]
    exact named_turn ih x

/-- A publisher that awaits its dismissal does so until it is cancelled. -/
theorem awaitsDismissal_turn (h : s.AwaitsDismissal p) {role : Role}
    (hrole : s.registry.role? p.peer = some role) (x : Turn) :
    (s.turn x).AwaitsDismissal p ∨ (s.turn x).registry.isCancelled p.peer = true := by
  obtain ⟨key, id, failure, b, peer, hmem⟩ := h
  have hstart : ∀ e, (⟨s.toTraffic.start e, s.leaving⟩ : Station).AwaitsDismissal p :=
    fun e => ⟨key, id, failure, b, peer, List.mem_append_left _ hmem⟩
  cases x with
  | move m =>
    cases m with
    | egress => exact Or.inl (hstart _)
    | ingest => exact Or.inl (hstart _)
    | report => exact Or.inl (hstart _)
    | advance i now =>
      simp only [turn, Traffic.move]
      split
      · rename_i e he
        obtain ⟨j, hj⟩ := List.mem_iff_getElem?.mp hmem
        by_cases hij : i = j
        · obtain rfl := Option.some.inj ((hij ▸ he).symm.trans hj)
          exact Or.inr (Registry.isCancelled_finish hrole)
        · refine Or.inl ⟨key, id, failure, b, peer, List.mem_iff_getElem?.mpr ⟨j, ?_⟩⟩
          exact (List.getElem?_set_ne hij).trans hj
      · exact Or.inl ⟨key, id, failure, b, peer, hmem⟩
  | drain => exact Or.inl ⟨key, id, failure, b, peer, hmem⟩
  | takeOff =>
    simp only [turn]
    split
    · exact Or.inl ⟨key, id, failure, b, peer, hmem⟩
    · exact Or.inl ⟨key, id, failure, b, peer, hmem⟩

/-- All that a turn can do to a slot: nothing, to put a new publisher into it, whose ingest then has
to dismiss the one before, or to take the publisher out on its own account or for a shutdown. -/
theorem slot_turn (h : s.Named ids) (hids : ids.Nodup) (x : Turn) (b : Nat) :
    (s.turn x).registry.slot b = s.registry.slot b ∨
    (∃ p, (s.turn x).registry.slot b = some p ∧ p.peer = s.registry.peers.length ∧
      ∀ q, s.registry.slot b = some q → (s.turn x).AwaitsDismissal q) ∨
    ∃ p, s.registry.slot b = some p ∧ (s.turn x).registry.slot b = none ∧
      (s.turn x).registry.isCancelled p.peer = true ∧ s.Ends b p x := by
  cases x with
  | move m =>
    cases m with
    | egress => exact Or.inl rfl
    | ingest => exact Or.inl rfl
    | report => exact Or.inl rfl
    | advance i now =>
      cases he : s.errands[i]? with
      | none => simp [turn, Traffic.move, he]
      | some e =>
        simp only [turn, Traffic.move, he]
        have hmem := List.mem_of_getElem? he
        obtain ⟨hlt, -⟩ := List.getElem?_eq_some_iff.mp he
        rcases e.slot_step now s.registry b with hsame | ⟨key, id, failure, rfl, hnew⟩ |
          ⟨p, peer, hp, hnone, ⟨key, failed, rfl⟩ | ⟨state, rfl, hterminal, hrole⟩⟩
        · exact Or.inl hsame
        · refine Or.inr (Or.inl ⟨_, hnew, rfl, fun q hq => ?_⟩)
          refine ⟨key, id, failure, b, s.registry.peers.length, ?_⟩
          rw [← hq]
          exact List.mem_set hlt _
        · -- The slot is cleared by an id, and only one connection has that id.
          have hrole := h.role_of_airs hmem rfl
          obtain rfl : peer = p.peer := h.peer_unique hids hrole (h.role_of_slot hp)
          exact Or.inr (Or.inr ⟨p, hp, hnone, Registry.isCancelled_finish hrole,
            Or.inl ⟨key, failed, he⟩⟩)
        · obtain rfl := h.peer_unique hids hrole (h.role_of_slot hp)
          exact Or.inr (Or.inr ⟨p, hp, hnone, Errand.isCancelled_report now hterminal hrole,
            Or.inr ⟨state, he, hterminal⟩⟩)
  | drain => exact Or.inl (slot_drain s.registry b)
  | takeOff =>
    cases hleaving : s.leaving with
    | nil => simp [turn, hleaving]
    | cons c rest =>
      simp only [turn, hleaving]
      rw [Engine.slot_takeOff]
      by_cases hb : b = c
      · subst hb
        cases hp : s.registry.slot b with
        | none => simp
        | some p =>
          refine Or.inr (Or.inr ⟨p, rfl, by simp, ?_, by simp [Ends, hleaving]⟩)
          have htake : Engine.takeOff s.registry b =
              (s.registry.modifyBroadcast b Broadcast.takePublisher).finish p.peer := by
            rw [Engine.takeOff]
            split
            · rename_i q hq
              rw [Option.some.inj (hq.symm.trans hp)]
            · rename_i hnone
              exact absurd (hnone.symm.trans hp) (by simp)
          rw [htake]
          exact Registry.isCancelled_finish (h.role_of_slot hp)
      · exact Or.inl (if_neg hb)

/-! ## The publishers that a slot has had -/

/-- The publisher that has come to the slot from one station to the next. -/
def newcomer? (b : Nat) (s s' : Station) : Option Publisher :=
  if s'.registry.slot b = s.registry.slot b then none else s'.registry.slot b

/-- The publishers that come to the slot in a list of turns, in order. -/
def newcomers (b : Nat) : Station → List Turn → List Publisher
  | _, [] => []
  | s, x :: turns => (newcomer? b s (s.turn x)).toList ++ newcomers b (s.turn x) turns

/-- The publishers that a run puts into the slot, in order. -/
def installed (b : Nat) (turns : List Turn) : List Publisher := newcomers b fresh turns

theorem newcomers_concat (b : Nat) (s : Station) (turns : List Turn) (x : Turn) :
    newcomers b s (turns ++ [x]) = newcomers b s turns ++
      (newcomer? b (turns.foldl turn s) ((turns.foldl turn s).turn x)).toList := by
  induction turns generalizing s with
  | nil => simp [newcomers]
  | cons y turns ih => simp only [List.cons_append, newcomers, ih, List.append_assoc,
      List.foldl_cons]

/-- Neither cancelled, nor about to be cancelled by the ingest that replaced it. -/
def Remains (s : Station) (p : Publisher) : Prop :=
  s.registry.isCancelled p.peer = false ∧ ¬ s.AwaitsDismissal p

/-- The publisher in the slot is the last one that came, and those before it are cancelled or await
their dismissal. -/
structure Recorded (b : Nat) (log : List Publisher) (s : Station) : Prop where
  role : ∀ p ∈ log, s.registry.role? p.peer = some (.publisher b p.id)
  last : ∀ p, s.registry.slot b = some p → log.getLast? = some p
  gone : ∀ p ∈ log, s.registry.slot b ≠ some p →
    s.registry.isCancelled p.peer = true ∨ s.AwaitsDismissal p

theorem recorded_fresh (b : Nat) : fresh.Recorded b [] :=
  ⟨by simp, fun _ h => absurd h (by simp [fresh, Traffic.fresh, Registry.fresh, Registry.slot]),
    by simp⟩

theorem Recorded.turn {log : List Publisher} (hr : s.Recorded b log) (h : s.Named ids)
    (hids : ids.Nodup) (x : Turn) :
    (s.turn x).Recorded b (log ++ (newcomer? b s (s.turn x)).toList) := by
  obtain ⟨opened, hcarries⟩ := carries_turn s x
  have hgone : ∀ p ∈ log, s.registry.isCancelled p.peer = true ∨ s.AwaitsDismissal p →
      (s.turn x).registry.isCancelled p.peer = true ∨ (s.turn x).AwaitsDismissal p := by
    rintro p hp (hcancelled | hawaits)
    · exact Or.inl (hcarries.cancelled p.peer hcancelled)
    · exact (awaitsDismissal_turn hawaits (hr.role p hp) x).symm
  rcases slot_turn h hids x b with hsame | ⟨p, hnew, hpeer, hawaits⟩ | ⟨p, hp, hnone, hcancelled, -⟩
  · simp only [newcomer?, if_pos hsame, Option.toList_none, List.append_nil]
    refine ⟨fun p hp => hcarries.role? (hr.role p hp), fun p hp => hr.last p (hsame ▸ hp), ?_⟩
    exact fun p hp hnot => hgone p hp (hr.gone p hp (hsame ▸ hnot))
  · -- A publisher with a new connection is not the one that was in the slot.
    have hne : (s.turn x).registry.slot b ≠ s.registry.slot b := by
      intro heq
      have hlt := Registry.lt_of_role? (h.role_of_slot (heq.symm.trans hnew))
      omega
    rw [newcomer?, if_neg hne, hnew, Option.toList_some]
    refine ⟨fun q hq => ?_, fun q hq => ?_, fun q hq hnot => ?_⟩
    · rcases List.mem_append.mp hq with hq | hq
      · exact hcarries.role? (hr.role q hq)
      · rw [List.mem_singleton.mp hq]
        exact (named_turn h x).role_of_slot hnew
    · rw [List.getLast?_concat, ← hnew, hq]
    · rcases List.mem_append.mp hq with hq | hq
      · by_cases hslot : s.registry.slot b = some q
        · exact Or.inr (hawaits q hslot)
        · exact hgone q hq (hr.gone q hq hslot)
      · rw [List.mem_singleton.mp hq] at hnot
        exact absurd hnew hnot
  · have hlost : (newcomer? b s (s.turn x)).toList = [] := by
      rw [newcomer?, hnone]
      split <;> rfl
    rw [hlost, List.append_nil]
    refine ⟨fun q hq => hcarries.role? (hr.role q hq), fun q hq => ?_, fun q hq _ => ?_⟩
    · exact absurd (hnone.symm.trans hq) (by simp)
    · by_cases hslot : s.registry.slot b = some q
      · obtain rfl := Option.some.inj (hp.symm.trans hslot)
        exact Or.inl hcancelled
      · exact hgone q hq (hr.gone q hq hslot)

theorem recorded_run {turns : List Turn} (hids : (turns.filterMap Turn.publisherId?).Nodup)
    (b : Nat) : (run turns).Recorded b (installed b turns) := by
  induction turns using List.reverseRecOn with
  | nil => exact recorded_fresh b
  | append_singleton turns x ih =>
    have hbefore : (turns.filterMap Turn.publisherId?).Nodup := by
      rw [List.filterMap_append] at hids
      exact hids.of_append_left
    rw [run_concat, installed, newcomers_concat]
    exact (ih hbefore).turn (named_run turns) hbefore x

/-- Whatever the order of ingests, reports and shutdowns: a publisher is taken out of its slot only
by the failure of its own ingest, by a terminal report of its own connection or by a shutdown. And
of the publishers that the slot has had none remains but the last. -/
theorem late_events_spare_successor (turns : List Turn)
    (hids : (turns.filterMap Turn.publisherId?).Nodup) (b : Nat) :
    (∀ x p, (run turns).registry.slot b = some p →
      (run (turns ++ [x])).registry.slot b = none → (run turns).Ends b p x) ∧
    ∀ p ∈ installed b turns, (run turns).Remains p → (installed b turns).getLast? = some p := by
  constructor
  · intro x p hp hnone
    rw [run_concat] at hnone
    rcases slot_turn (named_run turns) hids x b with hsame | ⟨q, hnew, -⟩ | ⟨q, hq, -, -, hends⟩
    · exact absurd (hsame.symm.trans hnone) (by simp [hp])
    · exact absurd (hnew.symm.trans hnone) (by simp)
    · rwa [Option.some.inj (hp.symm.trans hq)]
  · intro p hp hremains
    have hr := recorded_run hids b
    by_cases hslot : (run turns).registry.slot b = some p
    · exact hr.last p hslot
    · rcases hr.gone p hp hslot with hcancelled | hawaits
      · exact absurd (hremains.1.symm.trans hcancelled) (by simp)
      · exact absurd hawaits hremains.2

/-- A publisher is replaced, and its connection reports its end before it is dismissed. -/
def lateReport : List Turn :=
  [.move (.ingest "live" "p" none), .move (.advance 0 0), .move (.advance 0 0),
    .move (.advance 0 0), .move (.advance 0 0),
    .move (.ingest "live" "q" none), .move (.advance 1 0), .move (.advance 1 0),
    .move (.report 0 .closed), .move (.advance 2 0), .move (.advance 1 0),
    .move (.report 1 .failed)]

/-- The successor is on air and the only one that remains, until its own connection fails. -/
theorem late_events_spare_successor_replaced :
    (lateReport.filterMap Turn.publisherId?).Nodup ∧
    (run lateReport).Ends 0 ⟨"q", 1⟩ (.move (.advance 3 0)) ∧
    (run lateReport).Remains ⟨"q", 1⟩ ∧ (installed 0 lateReport).getLast? = some ⟨"q", 1⟩ := by
  have hids : (lateReport.filterMap Turn.publisherId?).Nodup := by decide
  have hremains : (run lateReport).Remains ⟨"q", 1⟩ := by
    refine ⟨rfl, ?_⟩
    rintro ⟨key, id, failure, b, peer, hmem⟩
    have herrands : (run lateReport).errands = [.published "live" "p" 0 0,
      .answerPublisher "live" "q" none 0 1, .rest none none, .report 1 .failed] := rfl
    simp [herrands] at hmem
  exact ⟨hids, (late_events_spare_successor lateReport hids 0).1 _ _ rfl rfl, hremains,
    (late_events_spare_successor lateReport hids 0).2 _ (by decide) hremains⟩

end Station

end BroadcastRelay
