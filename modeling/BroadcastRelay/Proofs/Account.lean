import BroadcastRelay.Proofs.LiveStreams
/-!
# The account of connections

A connection is made for a `Party`: a publisher of a broadcast, or a viewer. The party `Holds` the
connection while it is in its slot or seat. In an `Accounted` registry a connection runs exactly
while its party holds it, and has ended otherwise. Within an operation that fails of some
connections, the stray ones of `AccountedBut stray`.

All that happens to connections is of three kinds: one is made for a new party (`openPeer`), a
party gets the one made for it (`holding`), and one ends as its party loses it (`ending`).
-/

namespace BroadcastRelay

/-! ## Parties -/

/-- For whom a connection is made. -/
inductive Party where
  /-- A publisher of a broadcast. -/
  | publisher (broadcast : Nat) (id : String)
  /-- A viewer. -/
  | viewer (sessionId : String)
deriving DecidableEq, Repr

/-- The party of a role. -/
def Role.party : Role → Party
  | .publisher broadcast id => .publisher broadcast id
  | .viewer sessionId _ => .viewer sessionId

namespace Peer

/-- The connection is open and what runs for it goes on. -/
def Running (p : Peer) : Prop := p.closed = false ∧ p.cancelled = false

/-- The connection is closed and what ran for it has been stopped. -/
def Ended (p : Peer) : Prop := p.closed = true ∧ p.cancelled = true

end Peer

/-- A session keeps its connection. -/
theorem Session.peer_of_core {s t : Session} (h : t.core = s.core) : t.peer = s.peer := by
  have hcore : t.core.peer = s.core.peer := congrArg peer h
  exact hcore

namespace Registry

variable {r r' : Registry} {stray : Nat → Prop} {party : Party}

/-- The party of a connection. -/
def party? (r : Registry) (peer : Nat) : Option Party := (r.role? peer).map Role.party

theorem party?_eq_some_iff {peer : Nat} :
    r.party? peer = some party ↔ ∃ p, r.peers[peer]? = some p ∧ p.role.party = party := by
  simp [party?, role?]

theorem lt_of_party? {peer : Nat} (h : r.party? peer = some party) : peer < r.peers.length := by
  obtain ⟨p, hp, -⟩ := party?_eq_some_iff.mp h
  exact (List.getElem?_eq_some_iff.mp hp).1

theorem role?_of_party?_publisher {peer broadcast : Nat} {id : String}
    (h : r.party? peer = some (.publisher broadcast id)) :
    r.role? peer = some (.publisher broadcast id) := by
  obtain ⟨role, hrole, hparty⟩ := Option.map_eq_some_iff.mp h
  cases role with
  | publisher b x =>
    obtain ⟨rfl, rfl⟩ := Party.publisher.inj hparty
    exact hrole
  | viewer x key => exact absurd hparty (by simp [Role.party])

theorem role?_of_party?_viewer {peer : Nat} {id : String}
    (h : r.party? peer = some (.viewer id)) : ∃ key, r.role? peer = some (.viewer id key) := by
  obtain ⟨role, hrole, hparty⟩ := Option.map_eq_some_iff.mp h
  cases role with
  | publisher b x => exact absurd hparty (by simp [Role.party])
  | viewer x key => exact ⟨key, Party.viewer.inj hparty ▸ hrole⟩

/-! ## Who holds a connection -/

/-- The party has the connection in its slot or seat. -/
def Holds (r : Registry) (peer : Nat) : Party → Prop
  | .publisher broadcast id => r.slot broadcast = some ⟨id, peer⟩
  | .viewer id => ∃ s, r.session? id = some s ∧ s.peer = peer

theorem holds_viewer_iff {peer : Nat} {id : String} :
    r.Holds peer (.viewer id) ↔ (r.session? id).map (·.peer) = some peer := by
  simp [Holds]

theorem holds_prune {key : String} {peer : Nat} :
    (r.prune key).Holds peer party ↔ r.Holds peer party := by
  cases party with
  | publisher broadcast id => rw [Holds, slot_prune, Holds]
  | viewer id => rw [Holds, session?_prune, Holds]

/-- Clearing a publisher takes its connection from it, and nothing else from anybody. -/
theorem holds_clearPublisher {broadcast peer : Nat} {id : String} :
    (r.clearPublisher broadcast id).1.Holds peer party ↔
      r.Holds peer party ∧ party ≠ .publisher broadcast id := by
  cases party with
  | viewer other => exact (and_iff_left (by simp)).symm
  | publisher b other =>
    by_cases hb : b = broadcast
    · subst hb
      simp [Holds, slot_clearPublisher_self, Option.filter_eq_some_iff]
    · simp [Holds, slot_clearPublisher_of_ne r id hb, hb]

/-- Removing a session takes its connection from it, and nothing else from anybody. -/
theorem holds_removeSession {peer : Nat} {id : String} :
    (r.removeSession id).1.Holds peer party ↔ r.Holds peer party ∧ party ≠ .viewer id := by
  cases party with
  | publisher b other => exact (and_iff_left (by simp)).symm
  | viewer other => by_cases h : other = id <;> simp [Holds, session?_removeSession, h]

/-- A publisher that is put into a slot gets its connection, and no other publisher of the
broadcast keeps one. -/
theorem holds_replacePublisher {broadcast peer : Nat} {x : Broadcast} {p : Publisher}
    (hx : r.broadcasts[broadcast]? = some x) :
    (r.replacePublisher broadcast p).1.Holds peer party ↔
      (party = .publisher broadcast p.id ∧ peer = p.peer) ∨
        ¬ (∃ id, party = .publisher broadcast id) ∧ r.Holds peer party := by
  cases party with
  | viewer id => exact ⟨fun h => Or.inr ⟨by simp, h⟩, fun h => h.elim (by simp) And.right⟩
  | publisher b id =>
    by_cases hb : b = broadcast
    · subst hb
      simp only [Holds, slot_replacePublisher_self hx, Option.some.injEq]
      cases p
      simp [eq_comm]
    · simp [Holds, slot_replacePublisher_of_ne r p hb, hb]

/-- A session that is registered gets its connection. -/
theorem holds_insertSession (h : r.WellFormed) {s : Session} {peer : Nat} :
    (r.insertSession s).1.Holds peer party ↔
      (party = .viewer s.id ∧ peer = s.peer) ∨ ¬ party = .viewer s.id ∧ r.Holds peer party := by
  cases party with
  | publisher b id => exact ⟨fun h => Or.inr ⟨by simp, h⟩, fun h => h.elim (by simp) And.right⟩
  | viewer id =>
    by_cases hid : id = s.id <;> simp [Holds, session?_insertSession h, hid, eq_comm]

/-! ## Ended connections -/

/-- The connection has ended, if there is one. -/
def HasEnded (r : Registry) (peer : Nat) : Prop := ∀ p, r.peers[peer]? = some p → p.Ended

/-- A connection that is finished is closed and cancelled, and the others are as they were. -/
theorem getElem?_finish {i j : Nat} {x : Peer} (h : (r.finish i).peers[j]? = some x) :
    ∃ p, r.peers[j]? = some p ∧
      x = if j = i then { p with closed := true, cancelled := true } else p := by
  simp only [finish, cancel, close, List.getElem?_modify, Option.map_eq_map, Option.map_map,
    Option.map_eq_some_iff] at h
  obtain ⟨p, hp, rfl⟩ := h
  refine ⟨p, hp, ?_⟩
  by_cases hij : i = j
  · simp [hij]
  · simp [hij, Ne.symm hij]

/-! ## The account -/

/-- The connection runs and its party holds it, or it has ended and its party does not. -/
def InOrder (r : Registry) (peer : Nat) : Prop :=
  ∀ p, r.peers[peer]? = some p →
    (p.Running ∧ r.Holds peer p.role.party) ∨ (p.Ended ∧ ¬ r.Holds peer p.role.party)

/-- Parties hold their own connections only, and every connection is in order but for some stray
ones. -/
structure AccountedBut (r : Registry) (stray : Nat → Prop) : Prop where
  /-- A party holds no connection but its own. -/
  party_of_holds : ∀ {peer party}, r.Holds peer party → r.party? peer = some party
  /-- No two connections are for one party. -/
  party_inj : ∀ {i j party}, r.party? i = some party → r.party? j = some party → i = j
  inOrder : ∀ {peer}, ¬ stray peer → r.InOrder peer

/-- Parties hold their own connections only, and every connection is in order. -/
def Accounted (r : Registry) : Prop := r.AccountedBut fun _ => False

theorem accounted_fresh : fresh.Accounted where
  party_of_holds {peer party} h := by
    cases party with
    | publisher broadcast id => exact absurd h (by simp [Holds, slot, fresh])
    | viewer id => exact absurd h (by simp [Holds, session?, fresh])
  party_inj {i j party} h := absurd h (by simp [party?, role?, fresh])
  inOrder _ p hp := absurd hp (by simp [fresh])

namespace AccountedBut

/-- The account depends on connections, slots and seats only. -/
theorem of_holds_iff (h : r.AccountedBut stray) (hpeers : r'.peers = r.peers)
    (hholds : ∀ peer party, r'.Holds peer party ↔ r.Holds peer party) : r'.AccountedBut stray where
  party_of_holds hp := by
    rw [party?, role?, hpeers]
    exact h.party_of_holds ((hholds _ _).mp hp)
  party_inj hi hj := by
    rw [party?, role?, hpeers] at hi hj
    exact h.party_inj hi hj
  inOrder hstray p hp := by
    rw [hpeers] at hp
    rw [hholds]
    exact h.inOrder hstray p hp

/-- More connections may be stray. -/
theorem mono {stray' : Nat → Prop} (h : r.AccountedBut stray) (hs : ∀ i, stray i → stray' i) :
    r.AccountedBut stray' :=
  { h with inOrder := fun hi => h.inOrder fun hstray => hi (hs _ hstray) }

/-! ## Steps that hold and release nothing -/

theorem streamOrCreate (h : r.AccountedBut stray) (now : UInt64) (key : String) :
    (r.streamOrCreate now key).1.AccountedBut stray := by
  refine h.of_holds_iff (peers_streamOrCreate r now key) fun peer party => ?_
  cases party with
  | publisher broadcast id => rw [Holds, slot_streamOrCreate, Holds]
  | viewer id => rw [Holds, session?_streamOrCreate, Holds]

theorem prune (h : r.AccountedBut stray) (key : String) : (r.prune key).AccountedBut stray :=
  h.of_holds_iff (peers_prune r key) fun _ _ => holds_prune

theorem modifyBroadcast (h : r.AccountedBut stray) (i : Nat) {f : Broadcast → Broadcast}
    (hf : ∀ b, (f b).publisher = b.publisher) : (r.modifyBroadcast i f).AccountedBut stray := by
  refine h.of_holds_iff rfl fun peer party => ?_
  cases party with
  | publisher broadcast id => rw [Holds, slot_modifyBroadcast_of_publisher r i hf, Holds]
  | viewer id => exact Iff.rfl

theorem modifySession (h : r.AccountedBut stray) (i : Nat) {f : Session → Session}
    (hf : ∀ s, (f s).peer = s.peer) : (r.modifySession i f).AccountedBut stray := by
  refine h.of_holds_iff rfl fun peer party => ?_
  cases party with
  | publisher broadcast id => exact Iff.rfl
  | viewer id => rw [holds_viewer_iff, map_session?_modifySession r i hf, holds_viewer_iff]

theorem mapSessions (h : r.AccountedBut stray) {f : Session → Session}
    (hf : ∀ s, (f s).peer = s.peer) :
    ({ r with sessions := r.sessions.map f } : Registry).AccountedBut stray := by
  refine h.of_holds_iff rfl fun peer party => ?_
  cases party with
  | publisher broadcast id => exact Iff.rfl
  | viewer id => rw [holds_viewer_iff, map_session?_mapSessions r hf, holds_viewer_iff]

/-! ## Beginnings -/

/-- A connection that is made is stray until its party holds it. -/
theorem openPeer (h : r.AccountedBut stray) (role : Role)
    (hnew : ∀ i, r.party? i ≠ some role.party) :
    (r.openPeer role).1.AccountedBut fun i => stray i ∨ i = r.peers.length := by
  have hparty : ∀ i, (r.openPeer role).1.party? i =
      if i = r.peers.length then some role.party else r.party? i := by
    intro i
    rw [party?, role?_openPeer]
    split <;> rfl
  refine ⟨fun {i q} hi => ?_, fun {i j q} hi hj => ?_, fun {i} hi p hp => ?_⟩
  · have hq : r.party? i = some q := h.party_of_holds hi
    rw [hparty, if_neg (lt_of_party? hq).ne, hq]
  · rw [hparty] at hi hj
    split at hi <;> split at hj
    · rename_i hi' hj'
      rw [hi', hj']
    · exact absurd (hj.trans hi.symm) (hnew j)
    · exact absurd (hi.trans hj.symm) (hnew i)
    · exact h.party_inj hi hj
  · obtain ⟨hstray, hne⟩ := not_or.mp hi
    refine h.inOrder hstray p ?_
    have hlt : i < r.peers.length := by
      have hle := (List.getElem?_eq_some_iff.mp hp).1
      simp only [Registry.openPeer, List.length_append, List.length_singleton] at hle
      omega
    simpa only [Registry.openPeer, List.getElem?_append_left hlt] using hp

/-- A party gets the connection made for it. Those that it ousts are left with a stray one. -/
theorem holding {ousts : Party → Prop} {i : Nat} {p : Peer} (h : r.AccountedBut (· = i))
    (hp : r.peers[i]? = some p) (hrunning : p.Running) (hpeers : r'.peers = r.peers)
    (hholds : ∀ j q, r'.Holds j q ↔ (q = p.role.party ∧ j = i) ∨ ¬ ousts q ∧ r.Holds j q) :
    r'.AccountedBut fun j => ∃ q, ousts q ∧ r.Holds j q := by
  have hparty : ∀ j, r'.party? j = r.party? j := fun j => by rw [party?, role?, hpeers]; rfl
  refine ⟨fun {j q} hj => ?_, fun {j k q} hj hk => ?_, fun {j} hj x hx => ?_⟩
  · rw [hparty]
    rcases (hholds j q).mp hj with ⟨rfl, rfl⟩ | ⟨-, hj⟩
    · exact party?_eq_some_iff.mpr ⟨p, hp, rfl⟩
    · exact h.party_of_holds hj
  · rw [hparty] at hj hk
    exact h.party_inj hj hk
  · rw [hpeers] at hx
    rw [hholds]
    by_cases hji : j = i
    · subst hji
      obtain rfl : p = x := Option.some.inj (hp.symm.trans hx)
      exact Or.inl ⟨hrunning, Or.inl ⟨rfl, rfl⟩⟩
    · rcases h.inOrder hji x hx with ⟨hrun, hheld⟩ | ⟨hend, hfree⟩
      · exact Or.inl ⟨hrun, Or.inr ⟨fun ho => hj ⟨_, ho, hheld⟩, hheld⟩⟩
      · exact Or.inr ⟨hend, fun hor => hor.elim (fun hi => hji hi.2) fun hi => hfree hi.2⟩

/-! ## Endings -/

/-- A connection ends and its party loses it: the connection is in order again. -/
theorem ending {i : Nat} (h : r.AccountedBut (· = i)) (hparty : r.party? i = some party)
    (hpeers : r'.peers = (r.finish i).peers)
    (hholds : ∀ j q, r'.Holds j q ↔ r.Holds j q ∧ q ≠ party) : r'.Accounted := by
  have hsame : ∀ j, r'.party? j = r.party? j := fun j => by
    rw [party?, role?, hpeers]
    exact congrArg _ ((role?_close _ i j).trans (role?_cancel r i j))
  have hown : ∀ {j}, ¬ j = i → ∀ {q}, r.Holds j q → q ≠ party := fun hne _ hj heq =>
    hne (h.party_inj (h.party_of_holds (heq ▸ hj)) hparty)
  refine ⟨fun {j q} hj => ?_, fun {j k q} hj hk => ?_, fun {j} _ x hx => ?_⟩
  · rw [hsame]
    exact h.party_of_holds ((hholds j q).mp hj).1
  · rw [hsame] at hj hk
    exact h.party_inj hj hk
  · rw [hpeers] at hx
    obtain ⟨p, hp, rfl⟩ := getElem?_finish hx
    by_cases hji : j = i
    · simp only [if_pos hji]
      refine Or.inr ⟨⟨rfl, rfl⟩, fun hheld => ?_⟩
      obtain ⟨hheld, hne⟩ := (hholds _ _).mp hheld
      exact hne (Option.some.inj ((h.party_of_holds hheld).symm.trans (hji ▸ hparty)))
    · simp only [if_neg hji]
      rw [hholds]
      rcases h.inOrder hji p hp with ⟨hrun, hheld⟩ | ⟨hend, hfree⟩
      · exact Or.inl ⟨hrun, hheld, hown hji hheld⟩
      · exact Or.inr ⟨hend, fun hor => hfree hor.1⟩

end AccountedBut

/-- A connection that is closed is finished by being cancelled. -/
theorem peers_cancel_of_isClosed {i : Nat} (h : r.isClosed i = true) :
    (r.cancel i).peers = (r.finish i).peers := by
  refine List.ext_getElem? fun j => ?_
  simp only [finish, cancel, close, List.getElem?_modify, isClosed] at h ⊢
  by_cases hij : i = j
  · subst hij
    cases hp : r.peers[i]? with
    | none => rfl
    | some p =>
      have hclosed : p.closed = true := by simpa [hp] using h
      simp [hclosed]
  · simp [hij]

/-- A party loses its connection, which is closed if that is still to be done. -/
theorem Accounted.close_if {i : Nat} {s : Registry} (h : r.Accounted)
    (hparty : r.party? i = some party) (hpeers : s.peers = (r.cancel i).peers)
    (hholds : ∀ j q, s.Holds j q ↔ r.Holds j q ∧ q ≠ party) {stillOpen : Bool}
    (hclosed : stillOpen = false → r.isClosed i = true) :
    (if stillOpen then s.close i else s).Accounted := by
  have hbut : r.AccountedBut (· = i) := AccountedBut.mono h fun _ => False.elim
  cases stillOpen with
  | true =>
    refine hbut.ending hparty ?_ hholds
    rw [if_pos rfl, close, hpeers]
    rfl
  | false =>
    exact hbut.ending hparty (hpeers.trans (peers_cancel_of_isClosed (hclosed rfl))) hholds

/-- A publisher that is retired, be it on air or not, loses its connection. -/
theorem Accounted.retirePublisher (h : r.Accounted) {peer broadcast : Nat} {id : String}
    (hparty : r.party? peer = some (.publisher broadcast id)) {stillOpen : Bool}
    (hclosed : stillOpen = false → r.isClosed peer = true) :
    (r.retirePublisher peer broadcast id stillOpen).Accounted := by
  have hcleared : ∀ j q, ((r.cancel peer).clearPublisher broadcast id).1.Holds j q ↔
      r.Holds j q ∧ q ≠ .publisher broadcast id := fun _ _ => holds_clearPublisher
  refine h.close_if hparty ?_ (fun j q => ?_) hclosed
  · split
    · exact peers_prune _ _
    · rfl
  · split
    · exact holds_prune.trans (hcleared j q)
    · exact hcleared j q

/-- A session that is retired, be it registered or not, loses its connection. -/
theorem Accounted.retireSession (h : r.Accounted) {peer : Nat} {id : String} (key : String)
    (hparty : r.party? peer = some (.viewer id)) {stillOpen : Bool}
    (hclosed : stillOpen = false → r.isClosed peer = true) :
    (r.retireSession peer id key stillOpen).Accounted := by
  have hremoved : ∀ j q, ((r.cancel peer).removeSession id).1.Holds j q ↔
      r.Holds j q ∧ q ≠ .viewer id := fun _ _ => holds_removeSession
  refine h.close_if hparty ?_ (fun j q => ?_) hclosed
  · split
    · exact peers_prune _ _
    · rfl
  · split
    · exact holds_prune.trans (hremoved j q)
    · exact hremoved j q

/-- A report ends the connection that it comes from, or finds it ended. -/
theorem Accounted.peerEvent (h : r.Accounted) {peer : Nat} {state : PeerState}
    (hclosed : state = .closed → r.isClosed peer = true) :
    (r.peerEvent peer state).Accounted := by
  unfold Registry.peerEvent
  split
  · exact h
  · rename_i hterminal
    have hopen : state.leavesOpen = false → r.isClosed peer = true := by
      intro hleaves
      refine hclosed ?_
      cases state <;> simp_all [PeerState.isTerminal, PeerState.leavesOpen]
    cases hp : r.peers[peer]? with
    | none => exact h
    | some p =>
      have hparty : r.party? peer = some p.role.party := party?_eq_some_iff.mpr ⟨p, hp, rfl⟩
      cases hrole : p.role with
      | publisher broadcast id =>
        simp only [hrole] at hparty ⊢
        exact h.retirePublisher hparty hopen
      | viewer id key =>
        simp only [hrole] at hparty ⊢
        exact h.retireSession key hparty hopen

/-! ## Packets -/

theorem Accounted.sendVideo (h : r.Accounted) (broadcast : Nat) (packets : List VideoPacket) :
    (r.sendVideo broadcast packets).Accounted := by
  refine AccountedBut.mapSessions h fun s => ?_
  split
  · exact Session.peer_of_core (Session.core_foldl_forwardVideo _ s)
  · rfl

theorem Accounted.sendAudio (h : r.Accounted) (broadcast count : Nat) :
    (r.sendAudio broadcast count).Accounted := by
  refine AccountedBut.mapSessions h fun s => ?_
  split <;> rfl

end Registry

end BroadcastRelay
