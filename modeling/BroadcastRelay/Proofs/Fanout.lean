import BroadcastRelay.Proofs.LiveStreams
import Mathlib.Data.List.Infix
/-!
# What every viewer of a broadcast gets

A broadcast is sent packet by packet to all sessions on it, while sessions select encodings and more
sessions join. `Engine.tape` is what is written to one session on the way, as the engine does it.
`due` says which packet a session should get at a moment, from what was published and what the
session itself selected until then: its layer is the last that it selected, or else the one it
began with, or else that of the first video packet (`layerAfter`). The two agree for every session,
and the other sessions have no part in it (`fan_out`).

What an event does to one session is `Session.hear`, so a run is looked at in two steps: in the
engine it changes the session by `hear` alone (`Attached.apply`), and `hear` along a list of events
keeps the layer and the count as `layerAfter` and the tape say.
-/

namespace BroadcastRelay

open Registry

namespace Fanout

variable {α : Type}

/-! ## Events -/

/-- A packet of a broadcast. What is in an audio packet does not matter. -/
inductive Packet (α : Type) where
  /-- A packet of video. -/
  | video (p : VideoPacket)
  /-- A packet of audio. -/
  | audio (a : α)
deriving DecidableEq, Repr

/-- A packet as it is written to a session. -/
inductive Write (α : Type) where
  /-- A packet of video, with the stamp it is given. -/
  | video (p : VideoPacket) (out : Stamp)
  /-- A packet of audio, unchanged. -/
  | audio (a : α)
deriving DecidableEq, Repr

/-- The packet that is written. -/
def Write.packet : Write α → Packet α
  | video p _ => .video p
  | audio a => .audio a

/-- What happens at a broadcast. -/
inductive Event (α : Type) where
  /-- The publisher sends a packet, video through the handle of its track. -/
  | packet (handle : Nat) (p : Packet α)
  /-- A session asks for an encoding. -/
  | setLayer (sessionId encodingId : String)
  /-- A session joins, be it this broadcast or another. -/
  | join (now : UInt64) (key id : String)
deriving DecidableEq, Repr

namespace Event

/-- The event as an operation of the engine. -/
def operation (b : Nat) : Event α → Operation
  | packet handle (.video p) => .video b handle [p]
  | packet _ (.audio _) => .audio b 1
  | setLayer sessionId encodingId => .setLayer sessionId encodingId
  | join now key id => .egress now key id (.answered ())

/-- Whether the event has to do with a session: a packet, or a request of its own. -/
def concerns (id : String) : Event α → Bool
  | packet _ _ => true
  | setLayer sessionId _ => sessionId = id
  | join _ _ _ => false

/-- The encoding that a session selects by an event, which has to be one on offer. -/
def choice? (offered : String → Bool) (id : String) : Event α → Option String
  | setLayer sessionId encodingId =>
    if sessionId = id ∧ offered encodingId then some encodingId else none
  | _ => none

/-- The encoding of a packet of video. -/
def rid? : Event α → Option String
  | packet _ (.video p) => some p.rid
  | _ => none

end Event

/-! ## What a session should get -/

/-- The layer of a session after some events: the last that it selected, or else the one that it
had, or else that of the first packet of video. -/
def layerAfter (offered : String → Bool) (id : String) (start : Option String)
    (past : List (Event α)) : Option String :=
  ((past.filterMap (·.choice? offered id)).getLast?.or start).or (past.filterMap (·.rid?)).head?

/-- The packet due to a session at the last of some events: any packet of audio, and a packet of
video if its encoding is the layer of the session at that moment. -/
def due (offered : String → Bool) (id : String) (start : Option String) (past : List (Event α)) :
    Option (Packet α) :=
  match past.getLast? with
  | some (.packet _ (.audio a)) => some (.audio a)
  | some (.packet _ (.video p)) =>
    if layerAfter offered id start past = some p.rid then some (.video p) else none
  | _ => none

/-- One more event: a selection goes before the layer until then, and that before the encoding of a
packet of video. -/
theorem layerAfter_concat (offered : String → Bool) (id : String) (start : Option String)
    (past : List (Event α)) (ev : Event α) :
    layerAfter offered id start (past ++ [ev]) =
      ((ev.choice? offered id).or (layerAfter offered id start past)).or ev.rid? := by
  have hchoice : ([ev].filterMap (·.choice? offered id)).getLast? = ev.choice? offered id := by
    cases h : ev.choice? offered id <;> simp [h]
  have hrid : ([ev].filterMap (·.rid?)).head? = ev.rid? := by
    cases h : ev.rid? <;> simp [h]
  simp only [layerAfter, List.filterMap_append, List.getLast?_append, List.head?_append, hchoice,
    hrid, Option.or_assoc]

end Fanout

open Fanout

variable {α : Type}

/-! ## One session -/

namespace Session

/-- What an event does to a session that it reaches. -/
def hear (offered : String → Bool) (s : Session) : Event α → Session
  | .packet _ (.video p) => (s.forwardVideo p).1
  | .packet _ (.audio _) => s.forwardAudio 1
  | .setLayer sessionId encodingId =>
    if sessionId = s.id ∧ offered encodingId then (s.switchLayer encodingId).1 else s
  | .join _ _ _ => s

/-- What is written to a session at an event. -/
def writes (s : Session) : Event α → Option (Write α)
  | .packet _ (.video p) => (s.forwardVideo p).2.map (.video p)
  | .packet _ (.audio a) => some (.audio a)
  | _ => none

/-- The session after some events. -/
def hearAll (offered : String → Bool) (s : Session) (events : List (Event α)) : Session :=
  events.foldl (hear offered) s

/-- What is written to a session along some events. -/
def recording (offered : String → Bool) (s : Session) : List (Event α) → List (Write α)
  | [] => []
  | ev :: events => (s.writes ev).toList ++ (s.hear offered ev).recording offered events

variable (offered : String → Bool)

theorem core_hear (s : Session) (ev : Event α) : (s.hear offered ev).core = s.core := by
  cases ev with
  | packet handle p =>
    cases p with
    | video p => exact core_forwardVideo s p
    | audio a => rfl
  | setLayer sessionId encodingId =>
    simp only [hear]
    split
    · exact core_switchLayer s encodingId
    · rfl
  | join now key id => rfl

theorem id_hear (s : Session) (ev : Event α) : (s.hear offered ev).id = s.id :=
  congrArg Prod.fst (identity_of_core (core_hear offered s ev))

theorem streamKey_hear (s : Session) (ev : Event α) :
    (s.hear offered ev).streamKey = s.streamKey :=
  congrArg (·.2.1) (identity_of_core (core_hear offered s ev))

theorem core_hearAll (s : Session) (events : List (Event α)) :
    (s.hearAll offered events).core = s.core := by
  induction events generalizing s with
  | nil => rfl
  | cons ev events ih => exact (ih _).trans (core_hear offered s ev)

theorem id_hearAll (s : Session) (events : List (Event α)) :
    (s.hearAll offered events).id = s.id :=
  congrArg Prod.fst (identity_of_core (core_hearAll offered s events))

theorem hearAll_concat (s : Session) (events : List (Event α)) (ev : Event α) :
    s.hearAll offered (events ++ [ev]) = (s.hearAll offered events).hear offered ev :=
  List.foldl_concat ..

theorem recording_append (s : Session) (events more : List (Event α)) :
    s.recording offered (events ++ more) =
      s.recording offered events ++ (s.hearAll offered events).recording offered more := by
  induction events generalizing s with
  | nil => rfl
  | cons ev events ih =>
    rw [List.cons_append, recording, ih, recording, List.append_assoc]
    rfl

theorem recording_concat (s : Session) (events : List (Event α)) (ev : Event α) :
    s.recording offered (events ++ [ev]) =
      s.recording offered events ++ ((s.hearAll offered events).writes ev).toList := by
  rw [recording_append, recording, recording, List.append_nil]

/-! ### Layers -/

/-- A packet of video gives a layer to a session that has none. -/
theorem layer_forwardVideo (s : Session) (p : VideoPacket) :
    (s.forwardVideo p).1.layer = s.layer.or (some p.rid) := by
  cases hlayer : s.layer with
  | none => simp [forwardVideo, accepts, hlayer, rewrite, recordWritten]
  | some layer =>
    rw [forwardVideo, accepts_of_layer hlayer]
    cases layer == p.rid <;> exact hlayer

/-- A packet of video is written exactly if its encoding is the layer that the session has then. -/
theorem isSome_forwardVideo (s : Session) (p : VideoPacket) :
    (s.forwardVideo p).2.isSome = ((s.forwardVideo p).1.layer == some p.rid) := by
  rw [layer_forwardVideo]
  cases hlayer : s.layer with
  | none => simp [forwardVideo, accepts, hlayer]
  | some layer =>
    rw [forwardVideo, accepts_of_layer hlayer, Option.some_or, Option.some_beq_some]
    cases layer == p.rid <;> rfl

theorem layer_hear (s : Session) (ev : Event α) :
    (s.hear offered ev).layer = ((ev.choice? offered s.id).or s.layer).or ev.rid? := by
  cases ev with
  | packet handle p =>
    cases p with
    | video p => exact layer_forwardVideo s p
    | audio a => exact (Option.or_none).symm
  | setLayer sessionId encodingId =>
    have hnone : (Event.setLayer sessionId encodingId : Event α).rid? = none := rfl
    rw [hnone, Option.or_none, hear, Event.choice?]
    split
    · rw [layer_switchLayer, Option.some_or]
    · rfl
  | join now key id => exact (Option.or_none).symm

/-- The layer of a session after a run is the one that its selections and the packets give. -/
theorem layer_hearAll (s : Session) (events : List (Event α)) :
    (s.hearAll offered events).layer = layerAfter offered s.id s.layer events := by
  induction events using List.reverseRecOn with
  | nil => simp [hearAll, layerAfter]
  | append_singleton events ev ih =>
    rw [hearAll_concat, layer_hear, id_hearAll, ih, layerAfter_concat]

/-! ### Packets -/

/-- What is written at an event is the packet that is due then. -/
theorem map_packet_writes (s : Session) (past : List (Event α)) (ev : Event α) :
    ((s.hearAll offered past).writes ev).map Write.packet =
      due offered s.id s.layer (past ++ [ev]) := by
  have hlayer := layer_hearAll offered s (past ++ [ev])
  rw [hearAll_concat] at hlayer
  rw [due, List.getLast?_concat]
  cases ev with
  | packet handle p =>
    cases p with
    | video p =>
      have hwritten := isSome_forwardVideo (s.hearAll offered past) p
      simp only [hear] at hlayer
      rw [hlayer] at hwritten
      simp only [writes]
      cases hout : ((s.hearAll offered past).forwardVideo p).2 with
      | none =>
        rw [hout, Option.isSome_none, eq_comm, beq_eq_false_iff_ne] at hwritten
        rw [if_neg hwritten]
        rfl
      | some out =>
        rw [hout, Option.isSome_some, eq_comm, beq_iff_eq] at hwritten
        rw [if_pos hwritten]
        rfl
    | audio a => rfl
  | setLayer sessionId encodingId => rfl
  | join now key id => rfl

/-- What is written to a session along a run are the packets that are due to it, one by one. -/
theorem map_packet_recording (s : Session) (events : List (Event α)) :
    (s.recording offered events).map Write.packet =
      events.inits.filterMap (due offered s.id s.layer) := by
  induction events using List.reverseRecOn with
  | nil => rfl
  | append_singleton events ev ih =>
    have hlast := map_packet_writes offered s events ev
    rw [recording_concat, List.map_append, ih, List.inits_append, List.filterMap_append]
    cases hout : (s.hearAll offered events).writes ev with
    | none =>
      rw [hout, Option.map_none] at hlast
      simp [← hlast]
    | some w =>
      rw [hout, Option.map_some] at hlast
      simp [← hlast]

theorem written_accepts (s : Session) (rid : String) : (s.accepts rid).1.written = s.written := by
  unfold accepts
  split <;> rfl

theorem written_switchLayer (s : Session) (rid : String) :
    (s.switchLayer rid).1.written = s.written := by
  unfold switchLayer
  split <;> rfl

theorem written_forwardVideo (s : Session) (p : VideoPacket) :
    (s.forwardVideo p).1.written =
      s.written + UInt64.ofNat (s.forwardVideo p).2.toList.length := by
  have haccepts := written_accepts s p.rid
  unfold forwardVideo
  rcases h : s.accepts p.rid with ⟨t, accepted⟩
  rw [h] at haccepts
  rw [← haccepts]
  cases accepted with
  | false => exact (UInt64.add_zero _).symm
  | true => rfl

theorem written_hear (s : Session) (ev : Event α) :
    (s.hear offered ev).written = s.written + UInt64.ofNat (s.writes ev).toList.length := by
  cases ev with
  | packet handle p =>
    cases p with
    | video p =>
      rw [hear, written_forwardVideo, writes, Option.length_toList, Option.length_toList]
      cases (s.forwardVideo p).2 <;> rfl
    | audio a => rfl
  | setLayer sessionId encodingId =>
    refine Eq.trans ?_ (UInt64.add_zero _).symm
    simp only [hear]
    split
    · exact written_switchLayer s encodingId
    · rfl
  | join now key id => exact (UInt64.add_zero _).symm

/-- A session counts what is written to it. -/
theorem written_hearAll (s : Session) (events : List (Event α)) :
    (s.hearAll offered events).written =
      s.written + UInt64.ofNat (s.recording offered events).length := by
  induction events generalizing s with
  | nil => simp [hearAll, recording]
  | cons ev events ih =>
    have hrest := ih (s.hear offered ev)
    rw [written_hear] at hrest
    rw [recording, List.length_append, UInt64.ofNat_add, ← UInt64.add_assoc]
    exact hrest

/-- An event that does not concern a session does nothing to it. -/
theorem hear_of_not_concerns {s : Session} {ev : Event α} (h : ¬ ev.concerns s.id) :
    s.writes ev = none ∧ s.hear offered ev = s := by
  cases ev with
  | packet handle p => exact absurd rfl h
  | setLayer sessionId encodingId =>
    have hne : sessionId ≠ s.id := by simpa [Event.concerns] using h
    refine ⟨rfl, if_neg ?_⟩
    rintro ⟨heq, -⟩
    exact hne heq
  | join now key id => exact ⟨rfl, rfl⟩

/-- A run is to a session what it is without the events that do not concern it. -/
theorem recording_filter (s : Session) (events : List (Event α)) :
    s.recording offered (events.filter (·.concerns s.id)) = s.recording offered events := by
  induction events generalizing s with
  | nil => rfl
  | cons ev events ih =>
    have hrest := ih (s.hear offered ev)
    rw [id_hear] at hrest
    by_cases hev : ev.concerns s.id
    · rw [List.filter_cons_of_pos hev, recording, hrest, recording]
    · obtain ⟨hnone, hsame⟩ := hear_of_not_concerns offered hev
      rw [hsame] at hrest
      rw [List.filter_cons_of_neg hev, recording, hnone, hsame, hrest]
      rfl

end Session

/-! ## A session in the registry -/

namespace Registry

variable {r r' : Registry} {b i : Nat} {s t : Session}

/-- Whether the broadcast registered under a key has an encoding. -/
def offers (r : Registry) (key rid : String) : Bool := (r.stream? key).any (·.hasLayer rid)

/-- The session at a place gets the packets of a broadcast, and its id alone leads to the place. -/
structure Attached (r : Registry) (b i : Nat) (s : Session) : Prop where
  session_at : r.sessions[i]? = some s
  id_iff : ∀ {id}, r.viewers.get? id = some i ↔ id = s.id
  receives : r.receives b s = true

theorem Attached.session? (h : r.Attached b i s) : r.session? s.id = some s := by
  rw [Registry.session?, h.id_iff.mpr rfl, Option.bind_some, h.session_at]

theorem exists_attached (hw : r.WellFormed) (hs : r.session? s.id = some s)
    (hb : r.receives b s = true) : ∃ i, r.Attached b i s := by
  obtain ⟨i, hi, hat⟩ := Option.bind_eq_some_iff.mp hs
  refine ⟨i, hat, fun {id} => ⟨fun hid => ?_, fun heq => heq ▸ hi⟩, hb⟩
  obtain ⟨t, ht, rfl⟩ := hw.ids.session_at hid
  rw [Option.some.inj (hat.symm.trans ht)]

/-- Who gets the packets is a matter of what forwarding and switching leave alone. -/
theorem receives_of_core (hcore : t.core = s.core) (b : Nat) : r.receives b t = r.receives b s := by
  have h : r.receives b t.core = r.receives b s.core := congrArg _ hcore
  exact h

/-- A session stays attached when it is changed but in its core, and when others are. -/
theorem Attached.of_core (h : r.Attached b i s) (hat : r'.sessions[i]? = some t)
    (hcore : t.core = s.core)
    (hviewers : ∀ id, r'.viewers.get? id = some i ↔ r.viewers.get? id = some i)
    (hcancelled : ∀ peer, r'.isCancelled peer = r.isCancelled peer) : r'.Attached b i t where
  session_at := hat
  id_iff {id} := by
    have hid : t.id = s.id := congrArg Prod.fst (Session.identity_of_core hcore)
    rw [hviewers, hid]
    exact h.id_iff
  receives := by
    have hsame : r'.receives b t = r.receives b t := by
      rw [Registry.receives, hcancelled, Registry.receives]
    rw [hsame, receives_of_core hcore, h.receives]

/-! ### Packets -/

/-- What all sessions of the broadcast get, an attached session gets. -/
theorem Attached.getElem?_map_receives (h : r.Attached b i s) (f : Session → Session) :
    (r.sessions.map fun s => if r.receives b s then f s else s)[i]? = some (f s) := by
  rw [List.getElem?_map, h.session_at, Option.map_some, if_pos h.receives]

/-- No packet is lost while no more come at once than can wait. -/
theorem latest_of_le {β : Type} {capacity : Nat} {packets : List β}
    (h : packets.length ≤ capacity) : latest capacity packets = packets := by
  rw [latest, Nat.sub_eq_zero_of_le h, List.drop_zero]

theorem sessions_sendVideo_one (r : Registry) (b : Nat) (p : VideoPacket) :
    (r.sendVideo b [p]).sessions =
      r.sessions.map fun s => if r.receives b s then (s.forwardVideo p).1 else s := by
  have hone : [p].length ≤ Broadcast.videoCapacity := by
    rw [List.length_singleton, Broadcast.videoCapacity]
    omega
  rw [sendVideo, latest_of_le hone]
  rfl

theorem sessions_sendAudio_one (r : Registry) (b : Nat) :
    (r.sendAudio b 1).sessions =
      r.sessions.map fun s => if r.receives b s then s.forwardAudio 1 else s := by
  have hone : min 1 Broadcast.audioCapacity = 1 := by
    rw [Broadcast.audioCapacity]
    omega
  rw [sendAudio, hone]
  rfl

/-! ### What is on offer -/

/-- A change of a broadcast that keeps its encodings. -/
theorem offers_modifyBroadcast (r : Registry) (b : Nat) {f : Broadcast → Broadcast}
    (hf : ∀ x, (f x).hasLayer = x.hasLayer) : (r.modifyBroadcast b f).offers = r.offers := by
  funext key rid
  simp only [offers, stream?, modifyBroadcast]
  cases r.streams.get? key with
  | none => rfl
  | some c =>
    simp only [Option.bind_some, List.getElem?_modify]
    cases r.broadcasts[c]? with
    | none => rfl
    | some x => by_cases hc : b = c <;> simp [hc, hf]

/-- What is asked of the element at a place is not changed by one more that does not have it. -/
theorem any_getElem?_concat {β : Type} {f : β → Bool} {a : β} (ha : f a = false) (l : List β)
    (i : Nat) : ((l ++ [a])[i]?).any f = (l[i]?).any f := by
  rcases Nat.lt_trichotomy i l.length with hlt | rfl | hgt
  · rw [List.getElem?_append_left hlt]
  · rw [List.getElem?_concat_length, List.getElem?_eq_none le_rfl, Option.any_some, ha,
      Option.any_none]
  · rw [List.getElem?_eq_none (by simp; omega), List.getElem?_eq_none hgt.le]

/-- Looking up a stream puts nothing on offer. -/
theorem offers_streamOrCreate (r : Registry) (now : UInt64) (key : String) :
    (r.streamOrCreate now key).1.offers = r.offers := by
  funext other rid
  cases hb : r.streams.get? key with
  | some b => rw [streamOrCreate_of_some now hb]
  | none =>
    have hmore := any_getElem?_concat (f := (·.hasLayer rid)) (a := .fresh key now) rfl r.broadcasts
    rw [streamOrCreate, hb]
    simp only [offers, stream?, KeyMap.get?_insert]
    split
    · rename_i heq
      rw [heq, hb, Option.bind_some, hmore, List.getElem?_eq_none le_rfl, Option.bind_none]
    · cases r.streams.get? other with
      | none => rfl
      | some c => exact hmore c

theorem hasLayer_countVideo (x : Broadcast) (handle : Nat) (n : UInt64) :
    (x.countVideo handle n).hasLayer = x.hasLayer := by
  funext rid
  simp only [Broadcast.hasLayer, Broadcast.countVideo, List.any_map]
  congr 1
  funext l
  simp only [Function.comp_apply]
  split <;> rfl

end Registry

/-! ## A session in a run -/

namespace Engine

variable {e : Engine} {b i : Nat} {s : Session}

/-- The engine after some events at a broadcast. -/
def play (e : Engine) (b : Nat) (events : List (Event α)) : Engine :=
  events.foldl (fun e ev => e.apply (ev.operation b)) e

/-- What is written to the session of an id at an event: nothing if the packets of the broadcast do
not go to it. -/
def writes (e : Engine) (b : Nat) (id : String) (ev : Event α) : Option (Write α) :=
  (e.registry.session? id).bind fun s => if e.registry.receives b s then s.writes ev else none

/-- What is written to the session of an id along some events at a broadcast. -/
def tape (e : Engine) (b : Nat) (id : String) : List (Event α) → List (Write α)
  | [] => []
  | ev :: events =>
    (e.writes b id ev).toList ++ (e.apply (ev.operation b)).tape b id events

/-- No event changes what is on offer. -/
theorem offers_apply (e : Engine) (b : Nat) (ev : Event α) :
    (e.apply (ev.operation b)).registry.offers = e.registry.offers := by
  cases ev with
  | packet handle p =>
    cases p with
    | video p => exact offers_modifyBroadcast e.registry b fun x => hasLayer_countVideo x handle _
    | audio a => exact offers_modifyBroadcast e.registry b fun x => rfl
  | setLayer sessionId encodingId =>
    simp only [Event.operation, apply, setLayer]
    split
    · split <;> rfl
    · rfl
  | join now key id => exact offers_streamOrCreate e.registry now key

/-- A request for an encoding reaches the session of its id, and no other. -/
theorem attached_setLayer (h : e.registry.Attached b i s) (sessionId encodingId : String) :
    (e.setLayer sessionId encodingId).1.registry.Attached b i
      (s.hear (α := α) (e.registry.offers s.streamKey) (.setLayer sessionId encodingId)) := by
  by_cases heq : sessionId = s.id
  · have hchoice : s.hear (α := α) (e.registry.offers s.streamKey)
        (.setLayer sessionId encodingId) =
        if (e.registry.stream? s.streamKey).any (·.hasLayer encodingId) then
          (s.switchLayer encodingId).1
        else s := by
      simp only [Session.hear, heq, true_and, offers]
    rw [hchoice, setLayer, heq, h.id_iff.mpr rfl, h.session?]
    by_cases hoff : (e.registry.stream? s.streamKey).any (·.hasLayer encodingId) = true
    · simp only [hoff, if_true]
      refine h.of_core ?_ (s.core_switchLayer encodingId) (fun _ => Iff.rfl) fun _ => rfl
      exact (List.getElem?_modify_eq _ _ _).trans (congrArg (Option.map _) h.session_at)
    · simp only [hoff]
      exact h
  · have hchoice : s.hear (α := α) (e.registry.offers s.streamKey)
        (.setLayer sessionId encodingId) = s := if_neg fun hboth => heq hboth.1
    rw [hchoice, setLayer]
    split
    · rename_i j _ hj _
      have hplace : j ≠ i := fun hji => heq (h.id_iff.mp (hji ▸ hj))
      split
      · refine h.of_core ?_ rfl (fun _ => Iff.rfl) fun _ => rfl
        exact (List.getElem?_modify_ne _ _ hplace).trans h.session_at
      · exact h
    · exact h

/-- What is there when a session has joined: a session and a connection more, and the id. -/
theorem registry_join (e : Engine) (now : UInt64) (key id : String) :
    let r := (e.apply (.egress now key id (.answered ()))).registry
    r.sessions = e.registry.sessions ++
        [{ Session.fresh id key (e.registry.streamOrCreate now key).2 e.registry.peers.length with
            subscribed := true }] ∧
      r.viewers = e.registry.viewers.insert id e.registry.sessions.length ∧
      r.peers = e.registry.peers ++ [⟨.viewer id key, false, false⟩] := by
  have hjoined : (e.apply (.egress now key id (.answered ()))).registry =
      subscribe (((e.registry.streamOrCreate now key).1.openPeer (.viewer id key)).1.insertSession
        (.fresh id key (e.registry.streamOrCreate now key).2
          (e.registry.streamOrCreate now key).1.peers.length)).1
        (e.registry.streamOrCreate now key).1.sessions.length := rfl
  simp only [hjoined, subscribe, modifySession, insertSession, openPeer, modify_concat, if_true,
    List.modify_eq_self le_rfl, sessions_streamOrCreate, viewers_streamOrCreate,
    peers_streamOrCreate, Session.fresh, and_self]

/-- A session that has joined gets the packets of the broadcast of its key. -/
theorem joined_session (e : Engine) (now : UInt64) (key id : String) :
    let r := (e.apply (.egress now key id (.answered ()))).registry
    let s := { Session.fresh id key (e.registry.streamOrCreate now key).2
      e.registry.peers.length with subscribed := true }
    r.session? id = some s ∧ r.receives (e.registry.streamOrCreate now key).2 s = true := by
  obtain ⟨hsessions, hviewers, hpeers⟩ := registry_join e now key id
  refine ⟨?_, ?_⟩
  · rw [Registry.session?, hviewers, KeyMap.get?_insert_self, Option.bind_some, hsessions,
      List.getElem?_concat_length]
  · rw [Registry.receives, isCancelled, hpeers, Session.fresh, List.getElem?_concat_length]
    simp

/-- A session that joins takes a place and a connection of its own. -/
theorem attached_join (h : e.registry.Attached b i s) {now : UInt64} {key id : String}
    (hnew : id ≠ s.id) :
    (e.apply (.egress now key id (.answered ()))).registry.Attached b i s := by
  have hlt : i < e.registry.sessions.length := (List.getElem?_eq_some_iff.mp h.session_at).1
  obtain ⟨hsessions, hviewers, hpeers⟩ := registry_join e now key id
  refine h.of_core ?_ rfl (fun other => ?_) fun peer => ?_
  · rw [hsessions, List.getElem?_append_left hlt, h.session_at]
  · rw [hviewers, KeyMap.get?_insert]
    split
    · rename_i heq
      rw [h.id_iff, heq, Option.some_inj]
      exact iff_of_false hlt.ne' hnew
    · exact Iff.rfl
  · rw [isCancelled, hpeers, any_getElem?_concat rfl, isCancelled]

/-- An event does to an attached session what the session hears, and leaves it attached. -/
theorem attached_apply (h : e.registry.Attached b i s) {ev : Event α}
    (hnew : ∀ now key, ev ≠ .join now key s.id) :
    (e.apply (ev.operation b)).registry.Attached b i
      (s.hear (e.registry.offers s.streamKey) ev) := by
  have hcore := s.core_hear (e.registry.offers s.streamKey) ev
  cases ev with
  | packet handle p =>
    cases p with
    | video p =>
      refine h.of_core ?_ hcore (fun _ => Iff.rfl) fun _ => rfl
      have hsessions := sessions_sendVideo_one (e.registry.modifyBroadcast b
        (·.countVideo handle (UInt64.ofNat [p].length))) b p
      exact (congrArg (·[i]?) hsessions).trans (h.getElem?_map_receives _)
    | audio a =>
      refine h.of_core ?_ hcore (fun _ => Iff.rfl) fun _ => rfl
      have hsessions := sessions_sendAudio_one (e.registry.modifyBroadcast b
        (·.countAudio (UInt64.ofNat 1))) b
      exact (congrArg (·[i]?) hsessions).trans (h.getElem?_map_receives _)
  | setLayer sessionId encodingId => exact attached_setLayer h sessionId encodingId
  | join now key id =>
    refine attached_join h ?_
    rintro rfl
    exact hnew now key rfl

/-- What is written to an attached session at an event is what the session writes. -/
theorem writes_of_attached (h : e.registry.Attached b i s) (ev : Event α) :
    e.writes b s.id ev = s.writes ev := by
  rw [writes, h.session?, Option.bind_some, if_pos h.receives]

/-- In a run an attached session changes as it does by itself, and is written what it is by
itself. -/
theorem run_of_attached (h : e.registry.Attached b i s) (events : List (Event α))
    (hnew : ∀ now key, .join now key s.id ∉ events) :
    (e.play b events).registry.Attached b i
        (s.hearAll (e.registry.offers s.streamKey) events) ∧
      e.tape b s.id events = s.recording (e.registry.offers s.streamKey) events := by
  induction events generalizing e s with
  | nil => exact ⟨h, rfl⟩
  | cons ev events ih =>
    have hstep := attached_apply h fun now key heq => hnew now key (heq ▸ List.mem_cons_self)
    -- The rest of the run goes by the id and the key of the session, which it has kept.
    have hid := s.id_hear (e.registry.offers s.streamKey) ev
    have hkey := s.streamKey_hear (e.registry.offers s.streamKey) ev
    have hrest := ih hstep fun now key hmem =>
      hnew now key (List.mem_cons_of_mem _ (hid ▸ hmem))
    rw [offers_apply, hid, hkey] at hrest
    refine ⟨hrest.1, ?_⟩
    rw [tape, hrest.2, writes_of_attached h, Session.recording]

/-- What a session gets along some events at its broadcast, and where that leaves it. -/
structure Serves (e : Engine) (b : Nat) (s : Session) (events : List (Event α)) : Prop where
  /-- It is written the packets that are due to it, in their order. -/
  packets : (e.tape b s.id events).map Write.packet =
    events.inits.filterMap (due (e.registry.offers s.streamKey) s.id s.layer)
  /-- Its layer is the one that the packets were due by, and it has counted what it was written. -/
  session : ∃ t, (e.play b events).registry.session? s.id = some t ∧
    t.layer = layerAfter (e.registry.offers s.streamKey) s.id s.layer events ∧
    t.status.packetsWritten =
      s.status.packetsWritten + UInt64.ofNat (e.tape b s.id events).length
  /-- It would have been written the same, stamps included, in any run that has the same events for
  it. -/
  alone : ∀ others : List (Event α), (∀ now key, .join now key s.id ∉ others) →
    others.filter (·.concerns s.id) = events.filter (·.concerns s.id) →
      e.tape b s.id others = e.tape b s.id events

/-- An attached session is served in every run. -/
theorem serves_of_attached (h : e.registry.Attached b i s) (events : List (Event α))
    (hnew : ∀ now key, .join now key s.id ∉ events) : e.Serves b s events := by
  obtain ⟨hattached, htape⟩ := run_of_attached h events hnew
  refine ⟨?_, ⟨_, ?_, s.layer_hearAll _ events, ?_⟩, fun others hothers hsame => ?_⟩
  · exact htape ▸ s.map_packet_recording _ events
  · have hsession := hattached.session?
    rwa [s.id_hearAll] at hsession
  · rw [htape]
    exact s.written_hearAll _ events
  · rw [htape, (run_of_attached h others hothers).2, ← s.recording_filter _ others, hsame,
      s.recording_filter]

/-- Every session on a broadcast gets, along any run of packets, requests for encodings and joins,
the packets that are due to it and no others: all audio, and the video of the encoding that is its
layer at the moment. The other sessions have no part in it. A session that joins begins without a
layer and with nothing counted. -/
theorem fan_out (h : e.Reachable) (b : Nat) :
    (∀ s (events : List (Event α)), e.registry.session? s.id = some s →
      e.registry.receives b s = true → (∀ now key, .join now key s.id ∉ events) →
        e.Serves b s events) ∧
    ∀ now key id, (∀ peer k, e.registry.role? peer ≠ some (.viewer id k)) →
      let e' := e.apply (.egress now key id (.answered ()))
      e'.registry.streams.get? key = some b →
        ∃ s, e'.registry.session? id = some s ∧ s.id = id ∧ s.layer = none ∧
          s.status.packetsWritten = 0 ∧ ∀ events : List (Event α),
            (∀ now key, .join now key id ∉ events) → e'.Serves b s events := by
  have hserves : ∀ {e : Engine}, e.Reachable → ∀ s (events : List (Event α)),
      e.registry.session? s.id = some s → e.registry.receives b s = true →
        (∀ now key, .join now key s.id ∉ events) → e.Serves b s events := by
    intro e h s events hs hb hnew
    obtain ⟨i, hi⟩ := exists_attached h.settled.wellFormed hs hb
    exact serves_of_attached hi events hnew
  refine ⟨hserves h, ?_⟩
  intro now key id hnew e' hkey
  obtain ⟨hsession, hreceives⟩ := joined_session e now key id
  have hplace : (e.registry.streamOrCreate now key).2 = b :=
    Option.some.inj ((get?_streamOrCreate_self e.registry now key).symm.trans hkey)
  rw [hplace] at hsession hreceives
  exact ⟨_, hsession, rfl, rfl, rfl, fun events =>
    hserves (h.step (.egress now key id (.answered ())) hnew) _ events hsession hreceives⟩

/-- A session joins and takes the encoding of the first packet of video, until it selects another.
It is written the packets of that one, and audio. -/
theorem fan_out_switched :
    let e := (((⟨.default, .fresh⟩ : Engine).apply (.ingest 0 "live" "p" (.answered ()))).apply
      (.videoTrack 0 "h" 1 .defaultVideo)).apply (.videoTrack 0 "l" 2 .defaultVideo)
    let events : List (Event Nat) := [.packet 0 (.video ⟨"h", ⟨1, 0⟩⟩), .packet 0 (.audio 5),
      .setLayer "v" "l", .packet 0 (.video ⟨"h", ⟨2, 0⟩⟩), .packet 1 (.video ⟨"l", ⟨9, 0⟩⟩),
      .join 0 "live" "w", .setLayer "w" "h", .packet 1 (.video ⟨"l", ⟨10, 0⟩⟩)]
    ((e.apply (.egress 0 "live" "v" (.answered ()))).tape 0 "v" events).map Write.packet =
      [.video ⟨"h", ⟨1, 0⟩⟩, .audio 5, .video ⟨"l", ⟨9, 0⟩⟩, .video ⟨"l", ⟨10, 0⟩⟩] := by
  have hpublished := (((Reachable.start .default).step
    (.ingest 0 "live" "p" (.answered ())) trivial).step (.videoTrack 0 "h" 1 .defaultVideo)
    trivial).step (.videoTrack 0 "l" 2 .defaultVideo) trivial
  obtain ⟨s, hs, -, -, -, hserves⟩ := (fan_out hpublished 0).2 0 "live" "v" (by
    intro peer k hrole
    have hmem : .viewer "v" k ∈ [Role.publisher 0 "p"] := mem_of_role? hrole
    simp at hmem) rfl
  obtain rfl := Option.some.inj hs
  exact (hserves _ (by simp)).packets.trans (by decide)

end Engine

end BroadcastRelay
