import BroadcastRelay.Proofs.Handover
import BroadcastRelay.Proofs.Ownership
import BroadcastRelay.Proofs.Projection
/-!
# Reports in any order

A connection reports that it is at its end, and its publisher or session is retired. Such reports
come late, again and across one another, so what they leave should not hang on their order.

Each report takes its own party out and nothing else (`departed_peerEvent`), and several reports
take out the parties of all of them (`Departed.trans`). That says all but which keys stay
registered. Each handler prunes only if it has itself taken something out, but a settled registry
stays settled, so in the end a key is registered exactly if something on it is left
(`Settled.leftBy_after`). What is left is then a matter of which reports there were, and there is
only one registry that is what is left (`LeftBy.congr`, `LeftBy.unique`).
-/

namespace BroadcastRelay

/-- A connection reports a state. -/
structure Report where
  /-- The connection. -/
  peer : Nat
  /-- The state. -/
  state : PeerState
deriving DecidableEq, Repr

namespace Report

/-- Whether it reports the end of the connection. -/
def ends (x : Report) (peer : Nat) : Bool := x.peer == peer && x.state.isTerminal

/-- Whether it reports the end of the connection, which is still to be closed. -/
def closes (x : Report) (peer : Nat) : Bool := x.peer == peer && x.state.leavesOpen

theorem closes_eq_false {x : Report} {peer : Nat} (h : x.ends peer = false) :
    x.closes peer = false := by
  obtain ⟨i, s⟩ := x
  cases s <;> simp_all [ends, closes, PeerState.isTerminal, PeerState.leavesOpen]

theorem ends_of_ne {x : Report} {peer : Nat} (h : x.peer ≠ peer) : x.ends peer = false := by
  rw [ends, beq_false_of_ne h, Bool.false_and]

end Report

/-- A connection when the reports have been handled: what ran for it is stopped if it is reported to
be at its end, and it is closed if it was still to be. -/
def Peer.after (reports : List Report) (peer : Nat) (p : Peer) : Peer where
  role := p.role
  closed := p.closed || reports.any (·.closes peer)
  cancelled := p.cancelled || reports.any (·.ends peer)

theorem Peer.after_append (reports others : List Report) (peer : Nat) (p : Peer) :
    p.after (reports ++ others) peer = (p.after reports peer).after others peer := by
  simp only [Peer.after, List.any_append, Bool.or_assoc]

/-- Reports that do not end the connection leave it as it is. -/
theorem Peer.after_eq_self {reports : List Report} {peer : Nat}
    (h : ∀ x ∈ reports, x.ends peer = false) (p : Peer) : p.after reports peer = p := by
  have hends : reports.any (·.ends peer) = false := List.any_eq_false.mpr (by simpa using h)
  have hcloses : reports.any (·.closes peer) = false :=
    List.any_eq_false.mpr fun x hx => by simp [Report.closes_eq_false (h x hx)]
  rw [Peer.after, hends, hcloses, Bool.or_false, Bool.or_false]

namespace Broadcast

/-- A broadcast when its publisher has left if it is among the `retired`; its encodings leave with
it. -/
def vacated (retired : String → Bool) (x : Broadcast) : Broadcast :=
  if x.publisher.any fun p => retired p.id then { x with publisher := none, layers := [] } else x

theorem vacated_eq_self {retired : String → Bool} (h : ∀ id, retired id = false)
    (x : Broadcast) : x.vacated retired = x := by
  refine if_neg ?_
  cases x.publisher <;> simp [h]

theorem vacated_vacated (retired later : String → Bool) (x : Broadcast) :
    (x.vacated retired).vacated later = x.vacated fun id => retired id || later id := by
  unfold vacated
  cases hp : x.publisher with
  | none => simp [hp]
  | some p => cases hr : retired p.id <;> simp [hp, hr]

/-- Clearing the publisher of an id is the case of one that is retired. -/
theorem vacated_beq (id : String) (x : Broadcast) :
    x.vacated (· == id) = (x.clearPublisher id).1 := by
  unfold vacated clearPublisher isOnAir
  split <;> rfl

/-- A broadcast keeps a publisher that is not retired. -/
theorem publisher_vacated_eq_some_iff {retired : String → Bool} {x : Broadcast} {p : Publisher} :
    (x.vacated retired).publisher = some p ↔ x.publisher = some p ∧ retired p.id = false := by
  unfold vacated
  cases hp : x.publisher with
  | none => simp [hp]
  | some q =>
    cases hr : retired q.id with
    | false => simpa [hp, hr] using fun heq : q = p => heq ▸ hr
    | true => simpa [hp, hr] using fun heq : q = p => heq ▸ hr

end Broadcast

namespace Registry

variable {r r' r'' : Registry} {reports others : List Report}

/-- The registry when the reports have been handled one after the other. -/
def after (r : Registry) (reports : List Report) : Registry :=
  reports.foldl (fun r x => r.peerEvent x.peer x.state) r

/-- Whether one of the reports is of the end of a connection made for the party. -/
def retires (r : Registry) (reports : List Report) (party : Party) : Bool :=
  reports.any fun x => x.state.isTerminal && r.party? x.peer == some party

theorem retires_append (r : Registry) (reports others : List Report) (party : Party) :
    r.retires (reports ++ others) party = (r.retires reports party || r.retires others party) :=
  List.any_append

/-! ## Departures -/

/-- What the reports leave of everything but the registered streams, of which they leave some. -/
structure Departed (r : Registry) (reports : List Report) (r' : Registry) : Prop where
  peer_at : ∀ i, r'.peers[i]? = (r.peers[i]?).map (Peer.after reports i)
  /-- Publishers that are retired are off air, and nothing else happens to a broadcast. -/
  broadcast_at : ∀ b, r'.broadcasts[b]? =
    (r.broadcasts[b]?).map (Broadcast.vacated fun id => r.retires reports (.publisher b id))
  sessions_eq : r'.sessions = r.sessions
  /-- Sessions that are retired are forgotten. -/
  viewer_at : ∀ id, r'.viewers.get? id =
    if r.retires reports (.viewer id) then none else r.viewers.get? id
  /-- No stream is registered anew. -/
  registered : ∀ {key b}, r'.streams.get? key = some b → r.streams.get? key = some b

/-- Reports that end no connection and retire nobody leave everything. -/
theorem departed_self (hpeer : ∀ x ∈ reports, ∀ i p, r.peers[i]? = some p → x.ends i = false)
    (hparty : ∀ party, r.retires reports party = false) : r.Departed reports r where
  peer_at i := by
    cases hp : r.peers[i]? with
    | none => rfl
    | some p => exact congrArg some (Peer.after_eq_self (fun x hx => hpeer x hx i p hp) p).symm
  broadcast_at b := by
    have hself : Broadcast.vacated (fun id => r.retires reports (.publisher b id)) = id :=
      funext (Broadcast.vacated_eq_self fun _ => hparty _)
    rw [hself, Option.map_id, id_eq]
  sessions_eq := rfl
  viewer_at id := by rw [hparty, if_neg Bool.false_ne_true]
  registered h := h

theorem departed_nil (r : Registry) : r.Departed [] r :=
  departed_self (by simp) fun _ => rfl

namespace Departed

theorem party?_eq (h : r.Departed reports r') (i : Nat) : r'.party? i = r.party? i := by
  have hrole : r'.role? i = r.role? i := by
    rw [role?, h.peer_at, Option.map_map]
    rfl
  rw [party?, hrole, party?]

/-- Reports that come later find the parties that there were. -/
theorem retires_eq (h : r.Departed reports r') (others : List Report) (party : Party) :
    r'.retires others party = r.retires others party := by
  simp only [retires, h.party?_eq]

/-- Later reports take out what they name of what the earlier ones have left. -/
theorem trans (h : r.Departed reports r') (h' : r'.Departed others r'') :
    r.Departed (reports ++ others) r'' where
  peer_at i := by
    rw [h'.peer_at, h.peer_at, Option.map_map]
    exact congrArg (Option.map · r.peers[i]?)
      (funext fun p => (Peer.after_append reports others i p).symm)
  broadcast_at b := by
    rw [h'.broadcast_at, h.broadcast_at, Option.map_map]
    refine congrArg (Option.map · r.broadcasts[b]?) (funext fun x => ?_)
    simp only [Function.comp_apply, Broadcast.vacated_vacated, h.retires_eq, retires_append]
  sessions_eq := h'.sessions_eq.trans h.sessions_eq
  viewer_at id := by
    rw [h'.viewer_at, h.viewer_at, h.retires_eq, retires_append]
    cases r.retires reports (.viewer id) <;> cases r.retires others (.viewer id) <;> rfl
  registered hb := h.registered (h'.registered hb)

/-- A publisher is left in its slot exactly if it is not retired. -/
theorem slot_eq_some_iff (h : r.Departed reports r') {b : Nat} {p : Publisher} :
    r'.slot b = some p ↔ r.slot b = some p ∧ r.retires reports (.publisher b p.id) = false := by
  rw [slot, h.broadcast_at, slot]
  cases r.broadcasts[b]? with
  | none => simp
  | some x => exact Broadcast.publisher_vacated_eq_some_iff

/-- A session is left registered exactly if it is not retired. -/
theorem session?_eq_some_iff (h : r.Departed reports r') {id : String} {s : Session} :
    r'.session? id = some s ↔ r.session? id = some s ∧ r.retires reports (.viewer id) = false := by
  rw [session?, h.viewer_at, h.sessions_eq, session?]
  cases r.retires reports (.viewer id) <;> simp

end Departed

/-! ## One report -/

/-- The registry but for some streams that are no longer registered. -/
structure Pruned (r r' : Registry) : Prop where
  peers : r'.peers = r.peers
  broadcasts : r'.broadcasts = r.broadcasts
  sessions : r'.sessions = r.sessions
  viewers : r'.viewers = r.viewers
  registered : ∀ {key b}, r'.streams.get? key = some b → r.streams.get? key = some b

theorem Pruned.refl (r : Registry) : r.Pruned r := ⟨rfl, rfl, rfl, rfl, fun h => h⟩

theorem Pruned.close (h : r.Pruned r') (peer : Nat) : (r.close peer).Pruned (r'.close peer) :=
  ⟨by rw [Registry.close, h.peers, Registry.close], h.broadcasts, h.sessions, h.viewers,
    h.registered⟩

theorem pruned_prune (r : Registry) (key : String) : r.Pruned (r.prune key) := by
  unfold prune dropUnpublished
  split
  · exact .refl r
  · split
    · refine ⟨rfl, rfl, rfl, rfl, fun {k b} hb => ?_⟩
      rw [KeyMap.get?_erase] at hb
      split at hb
      · exact absurd hb (by simp)
      · exact hb
    · exact .refl r

/-- What runs for a connection is stopped, and the connection is closed if it is still to be. -/
def wound (r : Registry) (peer : Nat) (stillOpen : Bool) : Registry :=
  { r with
    peers := r.peers.modify peer fun p =>
      { p with cancelled := true, closed := p.closed || stillOpen } }

theorem close_cancel_if (r : Registry) (peer : Nat) (stillOpen : Bool) :
    (if stillOpen then (r.cancel peer).close peer else r.cancel peer) = r.wound peer stillOpen := by
  cases stillOpen <;> simp [wound, cancel, close, List.modify_modify_eq, Function.comp_def]

/-- What is taken out between the stop and the close of a connection might as well be taken out
after both. -/
theorem Pruned.of_cancel {f : Registry → Registry} {peer : Nat}
    (hcomm : ∀ s : Registry, (f s).close peer = f (s.close peer))
    (h : (f (r.cancel peer)).Pruned r') (stillOpen : Bool) :
    (f (r.wound peer stillOpen)).Pruned (if stillOpen then r'.close peer else r') := by
  rw [← close_cancel_if]
  cases stillOpen with
  | false => exact h
  | true => exact hcomm (r.cancel peer) ▸ h.close peer

/-- A publisher that is retired leaves its slot, and streams may be pruned. -/
theorem pruned_retirePublisher (r : Registry) (peer b : Nat) (id : String) (stillOpen : Bool) :
    ((r.wound peer stillOpen).clearPublisher b id).1.Pruned
      (r.retirePublisher peer b id stillOpen) := by
  refine Pruned.of_cancel (f := fun s => (s.clearPublisher b id).1) (fun _ => rfl) ?_ stillOpen
  split
  · exact pruned_prune _ _
  · exact .refl _

/-- A session that is retired is forgotten, and streams may be pruned. -/
theorem pruned_retireSession (r : Registry) (peer : Nat) (id key : String) (stillOpen : Bool) :
    ((r.wound peer stillOpen).removeSession id).1.Pruned
      (r.retireSession peer id key stillOpen) := by
  refine Pruned.of_cancel (f := fun s => (s.removeSession id).1) (fun _ => rfl) ?_ stillOpen
  split
  · exact pruned_prune _ _
  · exact .refl _

variable {x : Report}

theorem getElem?_peers_wound (r : Registry) (h : x.state.isTerminal = true) (i : Nat) :
    (r.wound x.peer x.state.leavesOpen).peers[i]? = (r.peers[i]?).map (Peer.after [x] i) := by
  rw [wound, List.getElem?_modify]
  refine congrArg (Option.map · r.peers[i]?) (funext fun p => ?_)
  by_cases hi : x.peer = i
  · simp [Peer.after, Report.ends, Report.closes, h, hi]
  · rw [if_neg hi, Peer.after_eq_self (by simpa using Report.ends_of_ne hi)]

/-- A report of an end retires the party of the connection and nobody else. -/
theorem retires_singleton (h : x.state.isTerminal = true) {party : Party}
    (hparty : r.party? x.peer = some party) (other : Party) :
    r.retires [x] other = decide (party = other) := by
  rw [retires, List.any_cons, List.any_nil, h, hparty, Bool.true_and, Bool.or_false,
    Option.some_beq_some]
  rfl

theorem departed_retirePublisher (h : x.state.isTerminal = true) {b : Nat} {id : String}
    (hparty : r.party? x.peer = some (.publisher b id)) :
    r.Departed [x] (r.retirePublisher x.peer b id x.state.leavesOpen) := by
  have hpruned := pruned_retirePublisher r x.peer b id x.state.leavesOpen
  have hretires := retires_singleton h hparty
  refine ⟨fun i => ?_, fun c => ?_, hpruned.sessions, fun other => ?_, hpruned.registered⟩
  · rw [hpruned.peers]
    exact getElem?_peers_wound r h i
  · rw [hpruned.broadcasts]
    refine (List.getElem?_modify _ _ _ _).trans
      (congrArg (Option.map · r.broadcasts[c]?) (funext fun y => ?_))
    by_cases hb : b = c
    · simp [hretires, hb, ← Broadcast.vacated_beq, Bool.beq_eq_decide_eq, eq_comm]
    · rw [if_neg hb, Broadcast.vacated_eq_self fun id => by simp [hretires, hb]]
  · rw [hpruned.viewers, hretires, if_neg (by simp)]
    rfl

theorem departed_retireSession (h : x.state.isTerminal = true) {id : String}
    (hparty : r.party? x.peer = some (.viewer id)) (key : String) :
    r.Departed [x] (r.retireSession x.peer id key x.state.leavesOpen) := by
  have hpruned := pruned_retireSession r x.peer id key x.state.leavesOpen
  have hretires := retires_singleton h hparty
  refine ⟨fun i => ?_, fun c => ?_, hpruned.sessions, fun other => ?_, hpruned.registered⟩
  · rw [hpruned.peers]
    exact getElem?_peers_wound r h i
  · rw [hpruned.broadcasts, funext fun id => hretires (.publisher c id)]
    have hself : Broadcast.vacated (fun other => decide (Party.viewer id = .publisher c other)) =
        fun y => y := funext (Broadcast.vacated_eq_self (by simp))
    rw [hself, Option.map_id']
    rfl
  · have hviewers : (r.retireSession x.peer id key x.state.leavesOpen).viewers =
        r.viewers.erase id := hpruned.viewers
    rw [hviewers, KeyMap.get?_erase, hretires]
    simp [eq_comm]

/-- One report takes out the party of the connection if the connection is at its end. -/
theorem departed_peerEvent (r : Registry) (x : Report) :
    r.Departed [x] (r.peerEvent x.peer x.state) := by
  unfold peerEvent
  split
  · rename_i hterm
    have hterm : x.state.isTerminal = false := by simpa using hterm
    refine departed_self (fun y hy i p _ => ?_) fun party => ?_
    · rw [List.mem_singleton.mp hy, Report.ends, hterm, Bool.and_false]
    · simp [retires, hterm]
  · rename_i hterm
    have hterm : x.state.isTerminal = true := by simpa using hterm
    cases hp : r.peers[x.peer]? with
    | none =>
      refine departed_self (fun y hy i p hi => Report.ends_of_ne ?_) fun party => ?_
      · rintro rfl
        rw [List.mem_singleton.mp hy, hp] at hi
        exact absurd hi (by simp)
      · simp [retires, party?, role?, hp]
    | some p =>
      have hparty : r.party? x.peer = some p.role.party := party?_eq_some_iff.mpr ⟨p, hp, rfl⟩
      cases hrole : p.role with
      | publisher b id =>
        simp only [hrole]
        exact departed_retirePublisher hterm (by rw [hparty, hrole, Role.party])
      | viewer id key =>
        simp only [hrole]
        exact departed_retireSession hterm (by rw [hparty, hrole, Role.party]) key

/-! ## Any reports -/

theorem departed_after (r : Registry) (reports : List Report) :
    r.Departed reports (r.after reports) := by
  induction reports generalizing r with
  | nil => exact departed_nil r
  | cons x reports ih => exact (departed_peerEvent r x).trans (ih (r.peerEvent x.peer x.state))

theorem Settled.after (h : r.Settled) (reports : List Report) : (r.after reports).Settled := by
  induction reports generalizing r with
  | nil => exact h
  | cons x reports ih => exact ih (h.peerEvent x.peer x.state)

/-- What the reports leave: publishers and sessions that are retired are gone, with the streams that
then have neither, and everything else is as it was. -/
structure LeftBy (r : Registry) (reports : List Report) (r' : Registry) : Prop
    extends r.Departed reports r' where
  streams_ordered : r'.streams.Ordered
  viewers_ordered : r'.viewers.Ordered
  /-- A stream stays registered exactly if its publisher or one of its viewers is not retired. -/
  stream_iff : ∀ {key b}, r'.streams.get? key = some b ↔ r.streams.get? key = some b ∧
    ((∃ p, r.slot b = some p ∧ r.retires reports (.publisher b p.id) = false) ∨
      ∃ id s, r.session? id = some s ∧ s.streamKey = key ∧ r.retires reports (.viewer id) = false)

/-- What is left of a settled registry is settled, and so its streams are those with someone left on
them. -/
theorem Departed.leftBy (h : r.Departed reports r') (hr : r.Settled) (hr' : r'.Settled) :
    r.LeftBy reports r' where
  toDeparted := h
  streams_ordered := hr'.wellFormed.keys.ordered
  viewers_ordered := hr'.wellFormed.ids.ordered
  stream_iff {key b} := by
    constructor
    · intro hb
      refine ⟨h.registered hb, ?_⟩
      rcases hr'.live_of_registered (fun hf => hf) hb with ⟨c, p, hc, hp⟩ | ⟨id, c, hseat⟩
      · obtain rfl := Option.some.inj (hb.symm.trans hc)
        exact Or.inl ⟨p, h.slot_eq_some_iff.mp hp⟩
      · obtain ⟨s, hs, hkey, -⟩ := seat?_eq_some_iff.mp hseat
        obtain ⟨hs, hid⟩ := h.session?_eq_some_iff.mp hs
        exact Or.inr ⟨id, s, hs, hkey, hid⟩
    · rintro ⟨hb, ⟨p, hp⟩ | ⟨id, s, hs, hkey, hid⟩⟩
      · obtain ⟨k, hk⟩ := hr'.registered_of_slot (h.slot_eq_some_iff.mpr hp)
        rwa [hr.wellFormed.keys.key_unique hb (h.registered hk)]
      · have hsession := h.session?_eq_some_iff.mpr ⟨hs, hid⟩
        obtain ⟨c, hc⟩ :=
          hr'.registered_of_seat (seat?_eq_some_iff.mpr ⟨s, hsession, hkey, rfl⟩)
        rwa [Option.some.inj (hb.symm.trans (h.registered hc))]

theorem Settled.leftBy_after (h : r.Settled) (reports : List Report) :
    r.LeftBy reports (r.after reports) :=
  (departed_after r reports).leftBy h (h.after reports)

namespace LeftBy

/-- Only what reports there are matters. -/
theorem congr (h : r.LeftBy reports r') (hsame : ∀ x, x ∈ reports ↔ x ∈ others) :
    r.LeftBy others r' := by
  have hany : ∀ f : Report → Bool, others.any f = reports.any f := fun f => by
    rw [Bool.eq_iff_iff, List.any_eq_true, List.any_eq_true]
    simp only [hsame]
  have hretires : ∀ party, r.retires others party = r.retires reports party := fun _ => hany _
  have hpeer : ∀ i, Peer.after others i = Peer.after reports i := fun i => funext fun p => by
    simp only [Peer.after, hany]
  exact {
    peer_at := fun i => hpeer i ▸ h.peer_at i
    broadcast_at := fun b => by simp only [hretires, h.broadcast_at]
    sessions_eq := h.sessions_eq
    viewer_at := fun id => hretires _ ▸ h.viewer_at id
    registered := h.registered
    streams_ordered := h.streams_ordered
    viewers_ordered := h.viewers_ordered
    stream_iff := fun {key b} => by simpa only [hretires] using @stream_iff _ _ _ h key b }

/-- There is only one registry that the reports leave. -/
theorem unique (h : r.LeftBy reports r') (h' : r.LeftBy reports r'') : r' = r'' := by
  have hstreams : ∀ key, r'.streams.get? key = r''.streams.get? key := fun key =>
    Option.ext fun b => h.stream_iff.trans h'.stream_iff.symm
  exact Registry.ext
    (List.ext_getElem? fun i => (h.peer_at i).trans (h'.peer_at i).symm)
    (List.ext_getElem? fun b => (h.broadcast_at b).trans (h'.broadcast_at b).symm)
    (h.sessions_eq.trans h'.sessions_eq.symm)
    (KeyMap.eq_of_get?_eq h.streams_ordered h'.streams_ordered hstreams)
    (KeyMap.eq_of_get?_eq h.viewers_ordered h'.viewers_ordered fun id =>
      (h.viewer_at id).trans (h'.viewer_at id).symm)

end LeftBy

end Registry

namespace Engine

variable {e : Engine}

/-- The engine when the connections have made the reports one after the other. -/
def hear (e : Engine) (reports : List Report) : Engine :=
  reports.foldl (fun e x => e.apply (.report x.peer x.state)) e

theorem hear_eq (e : Engine) (reports : List Report) :
    e.hear reports = e.withRegistry (e.registry.after reports) := by
  induction reports generalizing e with
  | nil => rfl
  | cons x reports ih => exact ih (e.apply (.report x.peer x.state))

/-- Whatever ends are reported after a run of operations, in whatever order and however often, the
retired publishers and sessions are gone and the streams with them that then have neither, and
nothing else has changed. So only what reports there are matters. -/
theorem hear_any_order (h : e.Reachable) :
    (∀ reports, e.registry.LeftBy reports (e.hear reports).registry) ∧
      ∀ reports others : List Report, (∀ x, x ∈ reports ↔ x ∈ others) →
        e.hear reports = e.hear others := by
  have hleft := h.settled.leftBy_after
  refine ⟨fun reports => hear_eq e reports ▸ hleft reports, fun reports others hsame => ?_⟩
  have hsame : ∀ x, x ∈ others ↔ x ∈ reports := fun x => (hsame x).symm
  rw [hear_eq, hear_eq, (hleft reports).unique ((hleft others).congr hsame)]

/-- The publisher and the only viewer of a stream leave, in either order and with one report come
again, and the stream is gone. -/
theorem hear_any_order_attended :
    attended.hear [⟨0, .failed⟩, ⟨1, .closed⟩] =
        attended.hear [⟨1, .closed⟩, ⟨0, .failed⟩, ⟨1, .closed⟩] ∧
      (attended.hear [⟨0, .failed⟩, ⟨1, .closed⟩]).registry.streams = .empty := by
  refine ⟨(hear_any_order reachable_attended).2 _ _ fun x => ?_, rfl⟩
  simp only [List.mem_cons, List.not_mem_nil]
  tauto

end Engine

end BroadcastRelay
