import BroadcastRelay.Proofs.Account
/-!
# Every connection is owned or ended

The registry owns a connection as that of the publisher of a registered broadcast or of a
registered session (`owned?`). Every operation keeps the account of connections as long as ids are
new and a connection reports that it is closed only when it is (`Operation.IsRegular`). So after
any run of operations every connection there ever was either runs and has exactly one owner, or has
ended and has none (`running_iff_owned_once`).
-/

namespace BroadcastRelay

open Registry

/-- An entry of the registry that can own a connection. -/
inductive Owner where
  /-- The broadcast registered under a key, for its publisher. -/
  | stream (key : String)
  /-- The session registered under an id. -/
  | session (id : String)
deriving DecidableEq, Repr

/-- Ids are new, and a connection reports that it is closed only when it is. -/
structure Operation.IsRegular (e : Engine) (op : Operation) : Prop where
  /-- A new session has an id that no connection of a viewer has had. -/
  isNew : op.IsNew e
  /-- A new publisher has an id that no connection of a publisher has had. -/
  publisher_new : ∀ {now key id course}, op = .ingest now key id course →
    ∀ peer broadcast, e.registry.role? peer ≠ some (.publisher broadcast id)
  /-- A connection that reports that it is closed has been closed. -/
  closed_of_report : ∀ {peer}, op = .report peer .closed → e.registry.isClosed peer = true

namespace Registry

variable {r : Registry} {party : Party}

/-! ## Owners -/

/-- The connection that an entry of the registry owns. -/
def owned? (r : Registry) : Owner → Option Nat
  | .stream key => ((r.stream? key).bind (·.publisher)).map (·.peer)
  | .session id => (r.session? id).map (·.peer)

theorem owned?_stream_eq_some_iff {key : String} {i : Nat} :
    r.owned? (.stream key) = some i ↔
      ∃ b id, r.streams.get? key = some b ∧ r.Holds i (.publisher b id) := by
  simp only [owned?, stream?, Option.bind_assoc, Option.map_eq_some_iff, Option.bind_eq_some_iff]
  constructor
  · rintro ⟨p, ⟨b, hb, x, hx, hp⟩, rfl⟩
    exact ⟨b, p.id, hb, by simp [Holds, slot, hx, hp]⟩
  · rintro ⟨b, id, hb, hheld⟩
    obtain ⟨x, hx, hp⟩ := Option.bind_eq_some_iff.mp hheld
    exact ⟨⟨id, i⟩, ⟨b, hb, x, hx, hp⟩, rfl⟩

theorem owned?_session_eq_some_iff {id : String} {i : Nat} :
    r.owned? (.session id) = some i ↔ r.Holds i (.viewer id) := holds_viewer_iff.symm

/-- What is owned is held by a party. -/
theorem exists_holds_of_owned? {owner : Owner} {i : Nat} (h : r.owned? owner = some i) :
    ∃ party, r.Holds i party := by
  cases owner with
  | stream key =>
    obtain ⟨b, id, -, hheld⟩ := owned?_stream_eq_some_iff.mp h
    exact ⟨_, hheld⟩
  | session id => exact ⟨_, owned?_session_eq_some_iff.mp h⟩

/-- What is held by a party is owned, since its broadcast or session is registered. -/
theorem exists_owned?_of_holds (hs : r.Settled) {i : Nat} (h : r.Holds i party) :
    ∃ owner, r.owned? owner = some i := by
  cases party with
  | publisher b id =>
    obtain ⟨key, hkey⟩ := hs.registered_of_slot h
    exact ⟨.stream key, owned?_stream_eq_some_iff.mpr ⟨b, id, hkey, h⟩⟩
  | viewer id => exact ⟨.session id, owned?_session_eq_some_iff.mpr h⟩

/-- A connection is owned by one entry of the registry at most. -/
theorem owner_unique (hw : r.WellFormed) (h : r.Accounted) {owner other : Owner} {i : Nat}
    (hi : r.owned? owner = some i) (hj : r.owned? other = some i) : owner = other := by
  have hsame : ∀ {p q}, r.Holds i p → r.Holds i q → p = q := fun hp hq =>
    Option.some.inj ((h.party_of_holds hp).symm.trans (h.party_of_holds hq))
  cases owner with
  | stream key =>
    obtain ⟨b, id, hkey, hheld⟩ := owned?_stream_eq_some_iff.mp hi
    cases other with
    | stream key' =>
      obtain ⟨c, x, hkey', hheld'⟩ := owned?_stream_eq_some_iff.mp hj
      obtain ⟨rfl, -⟩ := Party.publisher.inj (hsame hheld hheld')
      rw [hw.keys.key_unique hkey hkey']
    | session x =>
      exact absurd (hsame hheld (owned?_session_eq_some_iff.mp hj)) (by simp)
  | session id =>
    have hheld := owned?_session_eq_some_iff.mp hi
    cases other with
    | stream key' =>
      obtain ⟨c, x, -, hheld'⟩ := owned?_stream_eq_some_iff.mp hj
      exact absurd (hsame hheld hheld') (by simp)
    | session x => rw [Party.viewer.inj (hsame hheld (owned?_session_eq_some_iff.mp hj))]

end Registry

namespace Engine

variable {r r' : Registry} {e : Engine}

/-! ## Publishers -/

/-- The new publisher takes the slot, and the connection of the one before it is ended. -/
theorem accounted_dismiss {b i : Nat} {id : String} {x : Broadcast}
    (h : r.AccountedBut (· = i)) (hx : r.broadcasts[b]? = some x)
    (hp : r.peers[i]? = some ⟨.publisher b id, false, false⟩)
    (hother : ∀ q, r.slot b = some q → q.id ≠ id) :
    (dismiss (r.replacePublisher b ⟨id, i⟩).1 (r.replacePublisher b ⟨id, i⟩).2).Accounted := by
  have hput : (r.replacePublisher b ⟨id, i⟩).1.AccountedBut fun j =>
      ∃ q, (∃ other, q = .publisher b other) ∧ r.Holds j q :=
    h.holding hp ⟨rfl, rfl⟩ rfl fun _ _ => holds_replacePublisher hx
  have hprevious : (r.replacePublisher b ⟨id, i⟩).2 = r.slot b := rfl
  rw [hprevious]
  cases hslot : r.slot b with
  | none =>
    refine hput.mono ?_
    rintro j ⟨_, ⟨other, rfl⟩, hheld⟩
    exact absurd (hslot.symm.trans hheld) (by simp)
  | some q =>
    have hparty : r.party? q.peer = some (.publisher b q.id) := h.party_of_holds hslot
    refine (hput.mono ?_).ending hparty rfl fun j party => ?_
    · rintro j ⟨_, ⟨other, rfl⟩, hheld⟩
      exact congrArg Publisher.peer (Option.some.inj (hheld.symm.trans hslot))
    · refine (and_iff_left_of_imp fun hheld heq => ?_).symm
      rcases (holds_replacePublisher hx).mp hheld with ⟨rfl, -⟩ | ⟨hnot, -⟩
      · exact hother q hslot (Party.publisher.inj heq).2.symm
      · exact hnot ⟨q.id, heq⟩

/-- A publisher that is put on air gets a connection of its own, and the one before it loses
its own. -/
theorem accounted_install (hw : r.WellFormed) (h : r.Accounted) (now : UInt64) (key : String)
    {id : String} (hnew : ∀ peer b, r.role? peer ≠ some (.publisher b id)) :
    (install r now key id).1.Accounted := by
  have hkey := get?_streamOrCreate_self r now key
  obtain ⟨x, hx, -⟩ := (hw.streamOrCreate now key).keys.broadcast_at hkey
  have hlooked : (r.streamOrCreate now key).1.Accounted := AccountedBut.streamOrCreate h now key
  have hnew' : ∀ peer b, (r.streamOrCreate now key).1.party? peer ≠ some (.publisher b id) :=
    fun peer b hp =>
      hnew peer b (role?_streamOrCreate r now key peer ▸ role?_of_party?_publisher hp)
  have hopen := (hlooked.openPeer (.publisher (r.streamOrCreate now key).2 id)
    fun peer => hnew' peer _).mono fun i hi => hi.resolve_left not_false
  refine accounted_dismiss hopen hx List.getElem?_concat_length ?_
  rintro q hslot rfl
  exact hnew' q.peer _ (hlooked.party_of_holds hslot)

theorem party?_dismiss (r : Registry) (previous : Option Publisher) (peer : Nat) :
    (dismiss r previous).party? peer = r.party? peer := by
  cases previous with
  | none => rfl
  | some p => exact congrArg _ ((role?_close _ p.peer peer).trans (role?_cancel r p.peer peer))

theorem party?_install (r : Registry) (now : UInt64) (key id : String) :
    (install r now key id).1.party? (install r now key id).2.2 =
      some (.publisher (install r now key id).2.1 id) := by
  unfold install
  rw [party?_dismiss]
  exact party?_eq_some_iff.mpr ⟨_, List.getElem?_concat_length, rfl⟩

theorem accounted_withdrawPublisher (h : r.Accounted) {broadcast peer : Nat} {id : String}
    (hparty : r.party? peer = some (.publisher broadcast id)) (key : String) :
    (withdrawPublisher r broadcast peer key id).Accounted := by
  have hended : (((r.cancel peer).clearPublisher broadcast id).1.close peer).Accounted :=
    (AccountedBut.mono h fun _ => False.elim).ending hparty rfl fun _ _ => holds_clearPublisher
  exact AccountedBut.prune hended key

theorem accounted_ingestWith {α : Type} (hw : e.registry.WellFormed) (h : e.registry.Accounted)
    (now : UInt64) (key : String) {id : String}
    (hnew : ∀ peer b, e.registry.role? peer ≠ some (.publisher b id)) (course : Course α) :
    (e.ingestWith now key id course).1.registry.Accounted := by
  have hinstall := accounted_install hw h now key hnew
  have hwithdraw := accounted_withdrawPublisher hinstall (party?_install e.registry now key id) key
  rcases ingestWith_cases e now key id course with heq | heq | heq <;> rw [heq]
  · exact h
  · exact hinstall
  · exact hwithdraw

/-! ## Viewers -/

theorem accounted_withdrawSession {peer : Nat} {id : String} (h : r.AccountedBut (· = peer))
    (hparty : r.party? peer = some (.viewer id)) (key : String) :
    (withdrawSession r peer key id).Accounted := by
  have hended : (((r.cancel peer).removeSession id).1.close peer).Accounted :=
    h.ending hparty rfl fun _ _ => holds_removeSession (r := r.cancel peer)
  exact AccountedBut.prune hended key

/-- A session that is registered under a new id gets the connection that was made for it. -/
theorem accounted_insertSession {s : Session} {key : String} (hw : r.WellFormed)
    (h : r.AccountedBut (· = s.peer))
    (hp : r.peers[s.peer]? = some ⟨.viewer s.id key, false, false⟩)
    (hnone : r.session? s.id = none) : (r.insertSession s).1.Accounted := by
  have hseated : (r.insertSession s).1.AccountedBut fun j =>
      ∃ q, q = .viewer s.id ∧ r.Holds j q :=
    h.holding hp ⟨rfl, rfl⟩ rfl fun _ _ => holds_insertSession hw
  refine hseated.mono ?_
  rintro j ⟨_, rfl, x, hx, -⟩
  exact absurd (hnone.symm.trans hx) (by simp)

theorem accounted_egressWith {α : Type} (hw : e.registry.WellFormed) (h : e.registry.Accounted)
    (now : UInt64) (key : String) {id : String}
    (hnew : ∀ peer k, e.registry.role? peer ≠ some (.viewer id k)) (course : Course α) :
    (e.egressWith now key id course).1.registry.Accounted := by
  have hlooked : (e.registry.streamOrCreate now key).1.Accounted :=
    AccountedBut.streamOrCreate h now key
  have hnew' : ∀ peer, (e.registry.streamOrCreate now key).1.party? peer ≠ some (.viewer id) := by
    intro peer hp
    obtain ⟨k, hk⟩ := role?_of_party?_viewer hp
    exact hnew peer k (role?_streamOrCreate e.registry now key peer ▸ hk)
  have hwlooked := hw.streamOrCreate now key
  set looked := (e.registry.streamOrCreate now key).1
  have hnone : looked.session? id = none := by
    refine Option.eq_none_iff_forall_ne_some.mpr fun s hs => ?_
    exact hnew' s.peer (hlooked.party_of_holds ⟨s, hs, rfl⟩)
  have hopen := (hlooked.openPeer (.viewer id key) hnew').mono
    fun i hi => hi.resolve_left not_false
  have hparty : (looked.openPeer (.viewer id key)).1.party? looked.peers.length =
      some (.viewer id) := party?_eq_some_iff.mpr ⟨_, List.getElem?_concat_length, rfl⟩
  have hseated := accounted_insertSession
    (s := .fresh id key (e.registry.streamOrCreate now key).2 looked.peers.length)
    (hwlooked.openPeer _) hopen List.getElem?_concat_length hnone
  rcases egressWith_cases e now key id course with heq | heq | heq | heq <;> rw [heq]
  · exact AccountedBut.prune hlooked key
  · exact accounted_withdrawSession hopen hparty key
  · exact accounted_withdrawSession (AccountedBut.mono hseated fun _ => False.elim) hparty key
  · exact AccountedBut.modifySession hseated _ fun _ => rfl

/-! ## Shutting down -/

/-- The later registry has the same connections, and those that had ended have ended. -/
structure Winds (r r' : Registry) : Prop where
  role : ∀ i, r'.role? i = r.role? i
  ended : ∀ {i}, r.HasEnded i → r'.HasEnded i

theorem Winds.refl (r : Registry) : Winds r r := ⟨fun _ => rfl, fun h => h⟩

theorem Winds.trans {r'' : Registry} (h : Winds r r') (h' : Winds r' r'') : Winds r r'' :=
  ⟨fun i => (h'.role i).trans (h.role i), fun hi => h'.ended (h.ended hi)⟩

theorem winds_finish (r : Registry) (peer : Nat) : Winds r (r.finish peer) where
  role i := (role?_close _ peer i).trans (role?_cancel r peer i)
  ended {i} h p hp := by
    obtain ⟨x, hx, rfl⟩ := getElem?_finish hp
    split
    · exact ⟨rfl, rfl⟩
    · exact h x hx

theorem winds_takeOff (r : Registry) (b : Nat) : Winds r (takeOff r b) := by
  unfold takeOff
  split
  · rename_i p _
    have hsame : Winds r (r.modifyBroadcast b Broadcast.takePublisher) :=
      ⟨fun _ => rfl, fun h => h⟩
    exact hsame.trans (winds_finish _ p.peer)
  · exact .refl r

theorem hasEnded_finish (r : Registry) (peer : Nat) : (r.finish peer).HasEnded peer := by
  intro p hp
  obtain ⟨x, -, rfl⟩ := getElem?_finish hp
  rw [if_pos rfl]
  exact ⟨rfl, rfl⟩

theorem winds_foldl_finish (ss : List Session) (r : Registry) :
    Winds r (ss.foldl (fun d s => d.finish s.peer) r) ∧
      ∀ s ∈ ss, (ss.foldl (fun d s => d.finish s.peer) r).HasEnded s.peer := by
  induction ss generalizing r with
  | nil => exact ⟨.refl r, by simp⟩
  | cons s ss ih =>
    obtain ⟨hwinds, hended⟩ := ih (r.finish s.peer)
    refine ⟨(winds_finish r s.peer).trans hwinds, fun t ht => ?_⟩
    rcases List.mem_cons.mp ht with rfl | ht
    · exact hwinds.ended (hasEnded_finish r t.peer)
    · exact hended t ht

theorem winds_foldl_takeOff (bs : List Nat) (r : Registry) :
    Winds r (bs.foldl takeOff r) ∧
      ∀ b ∈ bs, ∀ p, r.slot b = some p → (bs.foldl takeOff r).HasEnded p.peer := by
  induction bs generalizing r with
  | nil => exact ⟨.refl r, by simp⟩
  | cons b bs ih =>
    obtain ⟨hwinds, hended⟩ := ih (takeOff r b)
    refine ⟨(winds_takeOff r b).trans hwinds, fun c hc p hp => ?_⟩
    by_cases hcb : c = b
    · subst hcb
      refine hwinds.ended ?_
      unfold takeOff
      split
      · rename_i q hq
        rw [Option.some.inj (hp.symm.trans hq)]
        exact hasEnded_finish _ q.peer
      · rename_i hnone
        exact absurd (hnone.symm.trans hp) (by simp)
    · refine hended c ((List.mem_cons.mp hc).resolve_left hcb) p ?_
      rw [slot_takeOff, if_neg hcb, hp]

/-- A shutdown makes no connections, and ends those that were held: they were registered. -/
theorem hasEnded_shutdown (hs : e.registry.Settled) (h : e.registry.Accounted) :
    (∀ i, e.shutdown.registry.role? i = e.registry.role? i) ∧
      ∀ i, e.shutdown.registry.HasEnded i := by
  set sessions := e.registry.viewers.values.filterMap (e.registry.sessions[·]?)
  set drained : Registry := { e.registry with streams := .empty, viewers := .empty }
  set left := sessions.foldl (fun d s => d.finish s.peer) drained
  have hleave : Winds drained left ∧ ∀ s ∈ sessions, left.HasEnded s.peer :=
    winds_foldl_finish sessions drained
  have htake : Winds left e.shutdown.registry ∧ ∀ b ∈ e.registry.streams.values, ∀ p,
      left.slot b = some p → e.shutdown.registry.HasEnded p.peer :=
    winds_foldl_takeOff e.registry.streams.values left
  have hslot : ∀ b, left.slot b = e.registry.slot b := fun b => by
    rw [slot, (foldl_finish sessions drained).2.2]
    rfl
  have hwinds : Winds e.registry e.shutdown.registry :=
    Winds.trans ⟨hleave.1.role, hleave.1.ended⟩ htake.1
  refine ⟨hwinds.role, fun i x hx => ?_⟩
  obtain ⟨p, hp, -⟩ := party?_eq_some_iff.mp
    ((congrArg _ (hwinds.role i).symm).trans (party?_eq_some_iff.mpr ⟨x, hx, rfl⟩))
  rcases h.inOrder not_false p hp with ⟨-, hheld⟩ | ⟨hend, -⟩
  -- What runs is held by a party that is registered, so the shutdown comes to it.
  · cases hparty : p.role.party with
    | publisher b id =>
      rw [hparty] at hheld
      have hb : b ∈ e.registry.streams.values :=
        hs.wellFormed.keys.ordered.mem_values.mpr (hs.registered_of_slot hheld)
      exact htake.2 b hb _ ((hslot b).trans hheld) x hx
    | viewer id =>
      rw [hparty] at hheld
      obtain ⟨s, hsess, rfl⟩ := hheld
      obtain ⟨k, hk, hs'⟩ := Option.bind_eq_some_iff.mp hsess
      have hmem : s ∈ sessions := List.mem_filterMap.mpr
        ⟨k, hs.wellFormed.ids.ordered.mem_values.mpr ⟨id, hk⟩, hs'⟩
      exact htake.1.ended (hleave.2 s hmem) x hx
  · refine hwinds.ended (fun y hy => ?_) x hx
    rwa [← Option.some.inj (hp.symm.trans hy)]

/-- Nobody holds a connection after a shutdown, and all have ended. -/
theorem accounted_shutdown (hs : e.registry.Settled) (h : e.registry.Accounted) :
    e.shutdown.registry.Accounted := by
  obtain ⟨hrole, hended⟩ := hasEnded_shutdown hs h
  have hparty : ∀ i, e.shutdown.registry.party? i = e.registry.party? i := fun i =>
    congrArg _ (hrole i)
  have hfree : ∀ {i party}, ¬ e.shutdown.registry.Holds i party := by
    intro i party hheld
    cases party with
    | publisher b id => exact absurd ((slot_shutdown hs b).symm.trans hheld) (by simp)
    | viewer id =>
      obtain ⟨s, hsess, -⟩ := hheld
      exact absurd hsess (by simp [session?, viewers_shutdown])
  refine ⟨fun hheld => absurd hheld hfree, fun {i j party} hi hj => ?_, fun {i} _ x hx => ?_⟩
  · rw [hparty] at hi hj
    exact h.party_inj hi hj
  · exact Or.inr ⟨hended i x hx, hfree⟩

/-! ## Runs -/

theorem accounted_apply (hs : e.registry.Settled) (h : e.registry.Accounted) {op : Operation}
    (hop : op.IsRegular e) : (e.apply op).registry.Accounted := by
  cases op with
  | ingest now key id course =>
    exact accounted_ingestWith hs.wellFormed h now key (hop.publisher_new rfl) course
  | egress now key id course =>
    exact accounted_egressWith hs.wellFormed h now key hop.isNew course
  | setLayer sessionId encodingId =>
    simp only [apply, setLayer]
    split
    · split
      · exact AccountedBut.modifySession h _ fun s =>
          Session.peer_of_core (s.core_switchLayer encodingId)
      · exact h
    · exact h
  | report peer state => exact h.peerEvent fun heq => hop.closed_of_report (heq ▸ rfl)
  | videoTrack broadcast rid ssrc codec => exact AccountedBut.modifyBroadcast h _ fun _ => rfl
  | audioTrack broadcast codec => exact AccountedBut.modifyBroadcast h _ fun _ => rfl
  | video broadcast handle packets =>
    have hcounted : (e.registry.modifyBroadcast broadcast
        (·.countVideo handle (UInt64.ofNat packets.length))).Accounted :=
      AccountedBut.modifyBroadcast h _ fun _ => rfl
    exact hcounted.sendVideo broadcast packets
  | audio broadcast count =>
    have hcounted : (e.registry.modifyBroadcast broadcast
        (·.countAudio (UInt64.ofNat count))).Accounted :=
      AccountedBut.modifyBroadcast h _ fun _ => rfl
    exact hcounted.sendAudio broadcast count
  | shutdown => exact accounted_shutdown hs h

/-- The engines that regular operations lead to. -/
inductive Regular : Engine → Prop
  /-- A new engine. -/
  | start (settings : EngineSettings) : Regular ⟨settings, .fresh⟩
  /-- One operation more. -/
  | step {e : Engine} (h : Regular e) (op : Operation) (hop : op.IsRegular e) :
    Regular (e.apply op)

theorem Regular.reachable (h : e.Regular) : e.Reachable := by
  induction h with
  | start settings => exact .start settings
  | step _ op hop ih => exact ih.step op hop.isNew

theorem Regular.accounted (h : e.Regular) : e.registry.Accounted := by
  induction h with
  | start settings => exact accounted_fresh
  | step h op hop ih => exact accounted_apply h.reachable.settled ih hop

/-- After any run of regular operations every connection ever made runs and is owned once, or is
closed and cancelled and owned by nobody; and after a shutdown none runs. -/
theorem running_iff_owned_once (h : e.Regular) :
    (∀ i p, e.registry.peers[i]? = some p →
      (p.closed = false ∧ p.cancelled = false ∧ ∃! owner, e.registry.owned? owner = some i) ∨
        (p.closed = true ∧ p.cancelled = true ∧ ∀ owner, e.registry.owned? owner ≠ some i)) ∧
    ∀ p ∈ e.shutdown.registry.peers, p.closed = true ∧ p.cancelled = true := by
  refine ⟨fun i p hp => ?_, fun p hp => ?_⟩
  · have hs := h.reachable.settled
    rcases h.accounted.inOrder not_false p hp with ⟨⟨hclosed, hcancelled⟩, hheld⟩ | ⟨hend, hfree⟩
    · obtain ⟨owner, howner⟩ := exists_owned?_of_holds hs hheld
      exact Or.inl ⟨hclosed, hcancelled, owner, howner,
        fun other hother => owner_unique hs.wellFormed h.accounted hother howner⟩
    · refine Or.inr ⟨hend.1, hend.2, fun owner howner => ?_⟩
      obtain ⟨party, hheld⟩ := exists_holds_of_owned? howner
      have hparty := party?_eq_some_iff.mp (h.accounted.party_of_holds hheld)
      obtain ⟨q, hq, rfl⟩ := hparty
      exact hfree (Option.some.inj (hp.symm.trans hq) ▸ hheld)
  · obtain ⟨i, hi⟩ := List.mem_iff_getElem?.mp hp
    exact (hasEnded_shutdown h.reachable.settled h.accounted).2 i p hi

/-- A publisher with a viewer is replaced: its connection has ended, and the other two run. -/
theorem running_iff_owned_once_replaced :
    let e := (((⟨.default, .fresh⟩ : Engine).apply (.ingest 0 "live" "p" (.answered ()))).apply
      (.egress 0 "live" "v" (.answered ()))).apply (.ingest 0 "live" "q" (.answered ()))
    (∀ owner, e.registry.owned? owner ≠ some 0) ∧
      (∃! owner, e.registry.owned? owner = some 1) ∧
      ∃! owner, e.registry.owned? owner = some 2 := by
  have hpublished := (Regular.start .default).step (.ingest 0 "live" "p" (.answered ()))
    ⟨trivial, fun _ _ _ h => absurd (mem_of_role? h) (List.not_mem_nil), by simp⟩
  have hwatched := hpublished.step (.egress 0 "live" "v" (.answered ()))
    ⟨fun _ key h => by
      have hmem : .viewer "v" key ∈ [Role.publisher 0 "p"] := mem_of_role? h
      simp at hmem, by simp, by simp⟩
  have hreplaced := hwatched.step (.ingest 0 "live" "q" (.answered ()))
    ⟨trivial, fun {_ _ id _} heq _ b h => by
      have hmem : .publisher b id ∈ [Role.publisher 0 "p", .viewer "v" "live"] := mem_of_role? h
      obtain ⟨-, -, rfl, -⟩ := Operation.ingest.inj heq
      simp at hmem, by simp⟩
  have hrun := (running_iff_owned_once hreplaced).1
  refine ⟨?_, ?_, ?_⟩
  · rcases hrun 0 ⟨.publisher 0 "p", true, true⟩ rfl with ⟨h, -⟩ | ⟨-, -, hfree⟩
    · exact absurd h (by simp)
    · exact hfree
  · rcases hrun 1 ⟨.viewer "v" "live", false, false⟩ rfl with ⟨-, -, howned⟩ | ⟨h, -⟩
    · exact howned
    · exact absurd h (by simp)
  · rcases hrun 2 ⟨.publisher 0 "q", false, false⟩ rfl with ⟨-, -, howned⟩ | ⟨h, -⟩
    · exact howned
    · exact absurd h (by simp)

end Engine

end BroadcastRelay
