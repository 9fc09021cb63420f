import BroadcastRelay.Proofs.Fanout
import BroadcastRelay.Proofs.Forwarder
/-!
# Viewers across a handover

When a publisher replaces another on a broadcast, the encodings of the old one are forgotten, but the
sessions on the broadcast keep what they had: the selected encoding, and the offsets of their packet
numbers. What decides how packets are written to a session is its `Channel`, and of all that happens
to the session in a run (`Engine.story`) only its own packets and selections change that
(`tells_story`).

So a handover does not show in the packet numbers: the distances are those between the numbers of the
two sources, as if they were one, unless the viewer selected another encoding in between
(`stamp_across_handover`). And the viewer gets nothing from the new publisher unless that one sends
the encoding that the session had (`accepts_after_handover`).
-/

namespace BroadcastRelay

open Registry

/-! ## Channels -/

/-- What of a session decides how packets of video are written to it. -/
structure Channel where
  /-- The selected encoding. -/
  layer : Option String
  /-- What keeps the packet numbers continuous. -/
  rewriter : Rewriter
deriving DecidableEq, Repr

/-- What happens to a session. -/
inductive Occurrence where
  /-- A packet is written to it, with this stamp; it came from a publisher that was on air. -/
  | wrote (source : Option Publisher) (p : VideoPacket) (out : Stamp)
  /-- Another encoding is selected for it. -/
  | switched (rid : String)
  /-- The publisher of its broadcast is replaced by another one. -/
  | replaced (old new : Publisher)
deriving DecidableEq, Repr

namespace Channel

variable {c : Channel} {os more : List Occurrence}

/-- The channel of a session that has seen nothing yet. -/
def fresh : Channel := ⟨none, .fresh⟩

/-- Whether a packet can be written with this stamp. -/
def Admits (c : Channel) : Occurrence → Prop
  | .wrote _ p out =>
    (c.layer = none ∨ c.layer = some p.rid) ∧ out = (c.rewriter.rewrite p.stamp).2
  | _ => True

/-- The channel after an occurrence. -/
def after (c : Channel) : Occurrence → Channel
  | .wrote _ p _ => ⟨some p.rid, (c.rewriter.rewrite p.stamp).1⟩
  | .switched rid => ⟨some rid, c.rewriter.resync⟩
  | .replaced _ _ => c

/-- What happens is what the channel makes of it. -/
def Tells (c : Channel) : List Occurrence → Prop
  | [] => True
  | o :: os => c.Admits o ∧ (c.after o).Tells os

theorem tells_append : c.Tells (os ++ more) ↔ c.Tells os ∧ (os.foldl after c).Tells more := by
  induction os generalizing c with
  | nil => simp [Tells]
  | cons o os ih => simp only [List.cons_append, Tells, ih, List.foldl_cons, and_assoc]

/-- Where nothing is written the rewriter changes by selections only, and several are as good as
one. -/
theorem rewriter_foldl_after (h : ∀ x y z, .wrote x y z ∉ os) :
    ((∃ rid, .switched rid ∈ os) ∧ (os.foldl after c).rewriter = c.rewriter.resync) ∨
      ((∀ rid, .switched rid ∉ os) ∧ (os.foldl after c).rewriter = c.rewriter) := by
  induction os generalizing c with
  | nil => exact Or.inr ⟨by simp, rfl⟩
  | cons o os ih =>
    have hrest := ih (c := c.after o) fun x y z hm => h x y z (List.mem_cons_of_mem _ hm)
    cases o with
    | wrote x y z => exact absurd List.mem_cons_self (h x y z)
    | switched rid =>
      left
      refine ⟨⟨rid, List.mem_cons_self⟩, ?_⟩
      rcases hrest with ⟨-, hrewriter⟩ | ⟨-, hrewriter⟩
      · exact hrewriter
      · exact hrewriter
    | replaced old new => simpa [after] using hrest

/-- Without a selection the layer does not change once there is one, and only its packets are
written. -/
theorem Tells.rid_eq {l : String} (h : c.Tells os) (hlayer : c.layer = some l)
    (hno : ∀ rid, .switched rid ∉ os) {source : Option Publisher} {p : VideoPacket} {out : Stamp}
    (hp : .wrote source p out ∈ os) : p.rid = l := by
  induction os generalizing c with
  | nil => exact absurd hp (by simp)
  | cons o os ih =>
    have hno' : ∀ rid, .switched rid ∉ os := fun rid hm => hno rid (List.mem_cons_of_mem _ hm)
    cases o with
    | wrote x y z =>
      have hy : y.rid = l := by
        rcases h.1.1 with hnone | hsome
        · exact absurd (hnone.symm.trans hlayer) (by simp)
        · exact Option.some.inj (hsome.symm.trans hlayer)
      rcases List.mem_cons.mp hp with heq | hp
      · obtain ⟨-, rfl, -⟩ := Occurrence.wrote.inj heq
        exact hy
      · exact ih h.2 (congrArg some hy) hno' hp
    | switched rid => exact absurd List.mem_cons_self (hno rid)
    | replaced old new =>
      exact ih h.2 hlayer hno' ((List.mem_cons.mp hp).resolve_left (by simp))

/-- Two packets written one after the other: the second follows the first exactly if another
encoding was selected in between, or if the sources had them in line; without a selection the
distances of the sources are kept. -/
theorem Tells.next_wrote {pre mid post : List Occurrence} {source source' : Option Publisher}
    {p q : VideoPacket} {out b : Stamp}
    (h : c.Tells (pre ++ .wrote source p out :: (mid ++ .wrote source' q b :: post)))
    (hmid : ∀ x y z, .wrote x y z ∉ mid) :
    (b = out.next ↔ (∃ rid, .switched rid ∈ mid) ∨ q.stamp = p.stamp.next) ∧
      ((∀ rid, .switched rid ∉ mid) → out.distance b = p.stamp.distance q.stamp) := by
  obtain ⟨-, ⟨-, rfl⟩, hrest⟩ := tells_append.mp h
  obtain ⟨-, ⟨-, rfl⟩, -⟩ := tells_append.mp hrest
  obtain ⟨hresync, hdistance⟩ := (pre.foldl after c).rewriter.next_rewrite p.stamp q.stamp
  rcases rewriter_foldl_after (c := (pre.foldl after c).after (.wrote source p _)) hmid with
    ⟨hswitched, hrewriter⟩ | ⟨hnone, hrewriter⟩
  · rw [hrewriter]
    obtain ⟨rid, hrid⟩ := hswitched
    exact ⟨iff_of_true hresync (Or.inl ⟨rid, hrid⟩), fun hno => absurd hrid (hno rid)⟩
  · rw [hrewriter]
    refine ⟨?_, fun _ => hdistance⟩
    rw [or_iff_right (not_exists.mpr hnone), ← Stamp.distance_eq_iff, ← Stamp.distance_eq_iff]
    exact iff_of_eq (congrArg (· = _) hdistance)

end Channel

/-! ## What a session tells -/

namespace Session

/-- The channel of a session. -/
def channel (s : Session) : Channel := ⟨s.layer, s.rewriter⟩

/-- A packet of video is passed over, or it is of the session's encoding and is written. -/
theorem forwardVideo_cases (s : Session) (p : VideoPacket) :
    s.forwardVideo p = (s, none) ∨
      ((s.layer = none ∨ s.layer = some p.rid) ∧
        (s.forwardVideo p).2 = some (s.rewriter.rewrite p.stamp).2 ∧
        (s.forwardVideo p).1.channel = ⟨some p.rid, (s.rewriter.rewrite p.stamp).1⟩) := by
  cases hl : s.layer with
  | none =>
    exact Or.inr ⟨Or.inl rfl, by simp [forwardVideo, accepts, hl, rewrite],
      by simp [forwardVideo, accepts, hl, rewrite, recordWritten, channel]⟩
  | some l =>
    by_cases hp : l = p.rid
    · subst hp
      exact Or.inr ⟨Or.inr rfl, by simp [forwardVideo, accepts, hl, rewrite],
        by simp [forwardVideo, accepts, hl, rewrite, recordWritten, channel]⟩
    · have hne : (l == p.rid) = false := beq_eq_false_iff_ne.mpr hp
      exact Or.inl (by simp [forwardVideo, accepts, hl, hne])

/-- What packets of a source that come one after the other make happen to a session. -/
def forwarding (source : Option Publisher) (s : Session) : List VideoPacket → List Occurrence
  | [] => []
  | p :: packets =>
    ((s.forwardVideo p).2.map (.wrote source p)).toList ++
      (s.forwardVideo p).1.forwarding source packets

theorem tells_forwarding {source : Option Publisher} {s : Session} {packets : List VideoPacket}
    {later : List Occurrence}
    (h : (packets.foldl (fun s p => (s.forwardVideo p).1) s).channel.Tells later) :
    s.channel.Tells (s.forwarding source packets ++ later) := by
  induction packets generalizing s with
  | nil => exact h
  | cons p packets ih =>
    have hrest := ih (s := (s.forwardVideo p).1) h
    rcases s.forwardVideo_cases p with hpassed | ⟨hlayer, hout, hchannel⟩
    · rw [hpassed] at hrest
      rw [forwarding, hpassed]
      exact hrest
    · rw [hchannel] at hrest
      rw [forwarding, hout]
      exact ⟨⟨hlayer, rfl⟩, hrest⟩

theorem channel_switchLayer {s : Session} {rid : String} (h : (s.switchLayer rid).2 = true) :
    (s.switchLayer rid).1.channel = ⟨some rid, s.rewriter.resync⟩ := by
  unfold switchLayer at h ⊢
  split
  · rename_i hl
    simp [hl] at h
  · rfl

theorem switchLayer_of_eq_false {s : Session} {rid : String} (h : (s.switchLayer rid).2 = false) :
    (s.switchLayer rid).1 = s := by
  unfold switchLayer at h ⊢
  split
  · rfl
  · rename_i hl
    simp [hl] at h

end Session

/-! ## What happens to a session in a run -/

namespace Registry

variable {r r' : Registry} {i : Nat}

/-- The channel of the session at a place; a session that is still to come begins with a fresh
one. -/
def channel (r : Registry) (i : Nat) : Channel :=
  ((r.sessions[i]?).map Session.channel).getD .fresh

theorem channel_of_getElem? {s : Session} (h : r.sessions[i]? = some s) :
    r.channel i = s.channel := by
  rw [channel, h, Option.map_some, Option.getD_some]

theorem channel_congr (h : r'.sessions = r.sessions) : r'.channel i = r.channel i := by
  rw [channel, h, channel]

/-- A session that comes begins with a fresh channel. -/
theorem channel_concat {s : Session} (h : r'.sessions = r.sessions ++ [s])
    (hs : s.channel = .fresh) : r'.channel i = r.channel i := by
  rw [channel, h, channel]
  rcases Nat.lt_trichotomy i r.sessions.length with hlt | rfl | hgt
  · rw [List.getElem?_append_left hlt]
  · rw [List.getElem?_concat_length, List.getElem?_eq_none le_rfl, Option.map_some, hs]
    rfl
  · rw [List.getElem?_eq_none (by simp; omega), List.getElem?_eq_none hgt.le]

theorem channel_map {f : Session → Session} (h : r'.sessions = r.sessions.map f)
    (hf : ∀ s, (f s).channel = s.channel) : r'.channel i = r.channel i := by
  rw [channel, h, channel, List.getElem?_map, Option.map_map]
  congr 2
  exact funext hf

/-- The publisher that packets come from: the one on air, if the handle is that of one of its
tracks. -/
def source? (r : Registry) (broadcast handle : Nat) : Option Publisher :=
  (r.broadcasts[broadcast]?).bind fun b =>
    if b.layers.any (·.handle == handle) then b.publisher else none

/-- The handover on a broadcast between two moments, if there is one. -/
def handover? (r r' : Registry) (broadcast : Nat) : Option Occurrence :=
  match r.slot broadcast, r'.slot broadcast with
  | some old, some new => if old = new then none else some (.replaced old new)
  | _, _ => none

end Registry

namespace Engine

variable {e : Engine} {i : Nat}

/-- What an operation makes happen to the session at a place. -/
def occurrences (e : Engine) (i : Nat) (op : Operation) : List Occurrence :=
  match e.registry.sessions[i]? with
  | none => []
  | some s =>
    match op with
    | .video b handle packets =>
      if e.registry.receives b s then
        s.forwarding (e.registry.source? b handle) (latest Broadcast.videoCapacity packets)
      else []
    | .setLayer sessionId rid =>
      if e.registry.viewers.get? sessionId = some i ∧ e.registry.offers s.streamKey rid ∧
          (s.switchLayer rid).2 then [.switched rid]
      else []
    | .ingest _ _ _ _ => (e.registry.handover? (e.apply op).registry s.broadcast).toList
    | _ => []

/-- What happens to the session at a place in a run of operations. -/
def story (e : Engine) (i : Nat) : List Operation → List Occurrence
  | [] => []
  | op :: ops => e.occurrences i op ++ (e.apply op).story i ops

/-- A handover does nothing to a channel. -/
theorem tells_handover? {c : Channel} {later : List Occurrence} (h : c.Tells later)
    (r r' : Registry) (b : Nat) : c.Tells ((r.handover? r' b).toList ++ later) := by
  unfold Registry.handover?
  split
  · split
    · exact h
    · exact ⟨trivial, h⟩
  · exact h

theorem sessions_dismiss (r : Registry) (previous : Option Publisher) :
    (dismiss r previous).sessions = r.sessions := by cases previous <;> rfl

theorem sessions_install (r : Registry) (now : UInt64) (key id : String) :
    (install r now key id).1.sessions = r.sessions :=
  (sessions_dismiss _ _).trans (sessions_streamOrCreate r now key)

theorem sessions_ingestWith {α : Type} (e : Engine) (now : UInt64) (key id : String)
    (course : Course α) : (e.ingestWith now key id course).1.registry.sessions =
      e.registry.sessions := by
  have hinstall := sessions_install e.registry now key id
  have hwithdraw : (withdrawPublisher (install e.registry now key id).1
      (install e.registry now key id).2.1 (install e.registry now key id).2.2 key id).sessions =
      e.registry.sessions := (sessions_prune _ key).trans hinstall
  rcases ingestWith_cases e now key id course with heq | heq | heq <;> rw [heq]
  · exact hinstall
  · exact hwithdraw

theorem channel_egressWith {α : Type} (e : Engine) (now : UInt64) (key id : String)
    (course : Course α) : (e.egressWith now key id course).1.registry.channel i =
      e.registry.channel i := by
  have hlooked := sessions_streamOrCreate e.registry now key
  have hseated : (((e.registry.streamOrCreate now key).1.openPeer (.viewer id key)).1.insertSession
      (.fresh id key (e.registry.streamOrCreate now key).2
        (e.registry.streamOrCreate now key).1.peers.length)).1.sessions =
      e.registry.sessions ++ [.fresh id key (e.registry.streamOrCreate now key).2
        (e.registry.streamOrCreate now key).1.peers.length] := by
    rw [← hlooked]
    rfl
  rcases egressWith_cases e now key id course with heq | heq | heq | heq <;> rw [heq]
  · exact channel_congr ((sessions_prune _ key).trans hlooked)
  · exact channel_congr ((sessions_prune _ key).trans hlooked)
  · exact channel_concat ((sessions_prune _ key).trans hseated) rfl
  · exact channel_concat (registry_join e now key id).1 rfl

theorem sessions_peerEvent (r : Registry) (peer : Nat) (state : PeerState) :
    (r.peerEvent peer state).sessions = r.sessions := by
  have hclosed : ∀ (stillOpen : Bool) (r : Registry),
      (if stillOpen then r.close peer else r).sessions = r.sessions := by
    intro stillOpen r
    cases stillOpen <;> rfl
  unfold Registry.peerEvent
  split
  · rfl
  · split
    · rfl
    · split
      · simp only [retirePublisher, hclosed]
        split
        · exact sessions_prune _ _
        · rfl
      · simp only [retireSession, hclosed]
        split
        · exact sessions_prune _ _
        · rfl

theorem sessions_shutdown (e : Engine) : e.shutdown.registry.sessions = e.registry.sessions := by
  have hfinish : ∀ (ss : List Session) (r : Registry),
      (ss.foldl (fun d s => d.finish s.peer) r).sessions = r.sessions := by
    intro ss
    induction ss with
    | nil => exact fun r => rfl
    | cons s ss ih => exact fun r => ih (r.finish s.peer)
  have htake : ∀ (bs : List Nat) (r : Registry), (bs.foldl takeOff r).sessions = r.sessions := by
    intro bs
    induction bs with
    | nil => exact fun r => rfl
    | cons b bs ih =>
      intro r
      refine (ih (takeOff r b)).trans ?_
      unfold takeOff
      split <;> rfl
  exact (htake _ _).trans (hfinish _ _)

/-- The operations that leave all channels alone. -/
theorem channel_apply (e : Engine) (i : Nat) (op : Operation)
    (hvideo : ∀ b handle packets, op ≠ .video b handle packets)
    (hlayer : ∀ sessionId rid, op ≠ .setLayer sessionId rid) :
    (e.apply op).registry.channel i = e.registry.channel i := by
  cases op with
  | ingest now key id course => exact channel_congr (sessions_ingestWith e now key id course)
  | egress now key id course => exact channel_egressWith e now key id course
  | report peer state => exact channel_congr (sessions_peerEvent e.registry peer state)
  | shutdown => exact channel_congr (sessions_shutdown e)
  | videoTrack broadcast rid ssrc codec => exact channel_congr rfl
  | audioTrack broadcast codec => exact channel_congr rfl
  | audio broadcast count =>
    refine channel_map rfl fun s => ?_
    split <;> rfl
  | setLayer sessionId rid => exact absurd rfl (hlayer sessionId rid)
  | video b handle packets => exact absurd rfl (hvideo b handle packets)

theorem sessions_video (e : Engine) (b handle : Nat) (packets : List VideoPacket) :
    (e.apply (.video b handle packets)).registry.sessions =
      e.registry.sessions.map fun s =>
        if e.registry.receives b s then
          (latest Broadcast.videoCapacity packets).foldl (fun s p => (s.forwardVideo p).1) s
        else s := rfl

/-- A request for an encoding reaches the session at the place that its id leads to. -/
theorem getElem?_sessions_setLayer (e : Engine) (sessionId rid : String) (i : Nat) :
    (e.setLayer sessionId rid).1.registry.sessions[i]? =
      (e.registry.sessions[i]?).map fun s =>
        if e.registry.viewers.get? sessionId = some i ∧ e.registry.offers s.streamKey rid then
          (s.switchLayer rid).1
        else s := by
  unfold setLayer
  cases hv : e.registry.viewers.get? sessionId with
  | none => simp
  | some j =>
    have hsession : e.registry.session? sessionId = e.registry.sessions[j]? := by
      rw [session?, hv, Option.bind_some]
    rw [hsession]
    by_cases hij : j = i
    · subst hij
      cases hs : e.registry.sessions[j]? with
      | none => simp [hs]
      | some s =>
        simp only [offers, true_and, Option.map_some]
        split
        · exact (List.getElem?_modify_eq _ _ _).trans (congrArg (Option.map _) hs)
        · exact hs
    · have hnot : ¬ some j = some i := fun heq => hij (Option.some.inj heq)
      simp only [hnot, false_and, if_false, Option.map_id']
      split
      · split
        · exact List.getElem?_modify_ne _ _ (by simp_all)
        · rfl
      · rfl

/-- What an operation makes happen to a session is all that it does to its channel. -/
theorem tells_apply (e : Engine) (i : Nat) (op : Operation) {later : List Occurrence}
    (h : ((e.apply op).registry.channel i).Tells later) :
    (e.registry.channel i).Tells (e.occurrences i op ++ later) := by
  have hquiet := channel_apply e i op
  cases op with
  | video b handle packets =>
    rw [channel, sessions_video, List.getElem?_map] at h
    cases hs : e.registry.sessions[i]? with
    | none =>
      simp only [occurrences, channel, hs, Option.map_none] at h ⊢
      exact h
    | some s =>
      simp only [hs, Option.map_some, Option.getD_some] at h
      rw [channel_of_getElem? hs]
      simp only [occurrences, hs]
      generalize latest Broadcast.videoCapacity packets = waiting at h ⊢
      split
      · rename_i hreceives
        rw [if_pos hreceives] at h
        exact Session.tells_forwarding h
      · rename_i hreceives
        rw [if_neg hreceives] at h
        exact h
  | setLayer sessionId rid =>
    rw [channel, apply, getElem?_sessions_setLayer] at h
    cases hs : e.registry.sessions[i]? with
    | none =>
      simp only [occurrences, channel, hs, Option.map_none] at h ⊢
      exact h
    | some s =>
      simp only [hs, Option.map_some, Option.getD_some] at h
      rw [channel_of_getElem? hs]
      simp only [occurrences, hs]
      by_cases hreached : e.registry.viewers.get? sessionId = some i ∧
          e.registry.offers s.streamKey rid = true
      · rw [if_pos hreached] at h
        cases hswitched : (s.switchLayer rid).2 with
        | true =>
          rw [Session.channel_switchLayer hswitched] at h
          rw [if_pos ⟨hreached.1, hreached.2, rfl⟩]
          exact ⟨trivial, h⟩
        | false =>
          rw [Session.switchLayer_of_eq_false hswitched] at h
          rw [if_neg (by simp)]
          exact h
      · rw [if_neg hreached] at h
        rw [if_neg fun hall => hreached ⟨hall.1, hall.2.1⟩]
        exact h
  | ingest now key id course =>
    rw [hquiet (by simp) (by simp)] at h
    unfold occurrences
    split
    · exact h
    · exact tells_handover? h _ _ _
  | _ =>
    rw [hquiet (by simp) (by simp)] at h
    unfold occurrences
    split <;> exact h

/-- What happens to a session in a run is what its channel makes of it. -/
theorem tells_story (e : Engine) (i : Nat) (ops : List Operation) :
    (e.registry.channel i).Tells (e.story i ops) := by
  induction ops generalizing e with
  | nil => trivial
  | cons op ops ih => exact tells_apply e i op (ih (e.apply op))

/-! ## Packet numbers across a handover -/

/-- Two packets of video that are written to a session one after the other, be they of one publisher
or of two. The second follows the first exactly if another encoding was selected for the session in
between, or if the stamps that came in were in line already. Without that selection the distances
are those of the stamps that came in, whatever handovers lie in between. -/
theorem stamp_across_handover (e : Engine) (i : Nat) (ops : List Operation)
    {pre mid post : List Occurrence} {source source' : Option Publisher} {p q : VideoPacket}
    {out b : Stamp}
    (h : e.story i ops = pre ++ .wrote source p out :: (mid ++ .wrote source' q b :: post))
    (hmid : ∀ x y z, .wrote x y z ∉ mid) :
    (b = out.next ↔ (∃ rid, .switched rid ∈ mid) ∨ q.stamp = p.stamp.next) ∧
      ((∀ rid, .switched rid ∉ mid) → out.distance b = p.stamp.distance q.stamp) :=
  (h ▸ tells_story e i ops).next_wrote hmid

/-- An engine with a publisher of one encoding and a viewer who has seen nothing yet. -/
def attended : Engine :=
  (((⟨.default, .fresh⟩ : Engine).apply (.ingest 0 "live" "p" (.answered ()))).apply
    (.videoTrack 0 "h" 1 .defaultVideo)).apply (.egress 0 "live" "v" (.answered ()))

theorem reachable_attended : attended.Reachable := by
  refine (((Reachable.start .default).step (.ingest 0 "live" "p" (.answered ())) trivial).step
    (.videoTrack 0 "h" 1 .defaultVideo) trivial).step (.egress 0 "live" "v" (.answered ())) ?_
  intro peer key hrole
  have hmem : .viewer "v" key ∈ [Role.publisher 0 "p"] := mem_of_role? hrole
  simp at hmem

/-- A packet of the publisher, a handover, and a packet of the new publisher on the same encoding. -/
def relay : List Operation :=
  [.video 0 0 [⟨"h", ⟨100, 9000⟩⟩], .ingest 0 "live" "q" (.answered ()),
    .videoTrack 0 "h" 2 .defaultVideo, .video 0 1 [⟨"h", ⟨5000, 123456⟩⟩]]

/-- The stamp of the new publisher's first packet is passed on as it came. -/
theorem stamp_across_handover_relay :
    attended.story 0 relay = [] ++ .wrote (some ⟨"p", 0⟩) ⟨"h", ⟨100, 9000⟩⟩ ⟨100, 9000⟩ ::
      ([.replaced ⟨"p", 0⟩ ⟨"q", 2⟩] ++
        .wrote (some ⟨"q", 2⟩) ⟨"h", ⟨5000, 123456⟩⟩ ⟨5000, 123456⟩ :: []) ∧
    Stamp.distance ⟨100, 9000⟩ ⟨5000, 123456⟩ = (4900, 114456) := by
  refine (and_iff_left_of_imp fun hstory => ?_).mpr (by decide)
  exact ((stamp_across_handover attended 0 relay hstory (by simp)).2 (by simp)).trans (by decide)

/-- The packets of a new publisher need not follow those of the old one for a viewer who is
registered all the time. -/
theorem handover_jumps : ¬ ∀ (e : Engine) (i : Nat) (id : String) (ops : List Operation)
    (pre mid post : List Occurrence) (old new : Publisher) (p q : VideoPacket) (out b : Stamp),
    e.Reachable →
    (∀ past ∈ ops.inits, (past.foldl apply e).registry.viewers.get? id = some i) →
    e.story i ops = pre ++ .wrote (some old) p out :: (mid ++ .wrote (some new) q b :: post) →
    (∀ x y z, .wrote x y z ∉ mid) → .replaced old new ∈ mid → b = out.next := by
  intro h
  have hnext := h attended 0 "v" relay [] [.replaced ⟨"p", 0⟩ ⟨"q", 2⟩] [] ⟨"p", 0⟩ ⟨"q", 2⟩
    ⟨"h", ⟨100, 9000⟩⟩ ⟨"h", ⟨5000, 123456⟩⟩ ⟨100, 9000⟩ ⟨5000, 123456⟩ reachable_attended
    (by decide) (by decide) (by simp) (by simp)
  exact absurd hnext (by decide)

/-! ## Encodings across a handover -/

end Engine

/-- A video track that a publisher begins. -/
structure VideoTrack where
  /-- The encoding, empty if the publisher gives none. -/
  rid : String
  /-- The source of its packets. -/
  ssrc : UInt32
  /-- The codec. -/
  codec : Codec
deriving DecidableEq, Repr

namespace VideoTrack

/-- The encoding under which the track is listed. -/
def encoding (t : VideoTrack) : String := if t.rid = "" then Broadcast.defaultRid else t.rid

/-- The broadcast when the track has begun. -/
def begin (b : Broadcast) (t : VideoTrack) : Broadcast :=
  { (b.addLayer t.rid t.ssrc).1 with videoCodec := some t.codec }

theorem layers_begin (b : Broadcast) (t : VideoTrack) :
    (begin b t).layers =
      b.layers.filter (·.rid ≠ t.encoding) ++ [⟨t.encoding, t.ssrc, b.additions, 0⟩] := rfl

theorem hasLayer_begin {b : Broadcast} {t : VideoTrack} {rid : String} :
    (begin b t).hasLayer rid = true ↔ b.hasLayer rid = true ∨ t.encoding = rid := by
  simp only [Broadcast.hasLayer, layers_begin, List.any_append, List.any_cons, List.any_nil,
    Bool.or_false, Bool.or_eq_true, List.any_eq_true, List.mem_filter, beq_iff_eq,
    decide_eq_true_eq]
  by_cases heq : t.encoding = rid
  · simp only [heq, or_true]
  · simp only [heq, or_false]
    constructor
    · rintro ⟨l, ⟨hl, -⟩, hrid⟩
      exact ⟨l, hl, hrid⟩
    · rintro ⟨l, hl, rfl⟩
      exact ⟨l, ⟨hl, Ne.symm heq⟩, rfl⟩

/-- The encodings that are listed when some tracks have begun. -/
theorem hasLayer_foldl_begin {b : Broadcast} {tracks : List VideoTrack} {rid : String} :
    (tracks.foldl begin b).hasLayer rid = true ↔
      b.hasLayer rid = true ∨ ∃ t ∈ tracks, t.encoding = rid := by
  induction tracks generalizing b with
  | nil => simp
  | cons t tracks ih => simp [ih, hasLayer_begin, or_assoc]

theorem publisher_foldl_begin (b : Broadcast) (tracks : List VideoTrack) :
    (tracks.foldl begin b).publisher = b.publisher := by
  induction tracks generalizing b with
  | nil => rfl
  | cons t tracks ih => exact ih (begin b t)

end VideoTrack

namespace Engine

variable {e : Engine} {s : Session}

/-- The engine when some video tracks of a broadcast have begun. -/
def publish (e : Engine) (broadcast : Nat) (tracks : List VideoTrack) : Engine :=
  tracks.foldl (fun e t => e.apply (.videoTrack broadcast t.rid t.ssrc t.codec)) e

/-- The engine when a publisher has come on air and its video tracks have begun. -/
def handOver (e : Engine) (now : UInt64) (key id : String) (broadcast : Nat)
    (tracks : List VideoTrack) : Engine :=
  (e.apply (.ingest now key id (.answered ()))).publish broadcast tracks

/-- The tracks change their broadcast and nothing else. -/
theorem registry_publish (e : Engine) (broadcast : Nat) (tracks : List VideoTrack) :
    (e.publish broadcast tracks).registry =
      e.registry.modifyBroadcast broadcast (tracks.foldl VideoTrack.begin ·) := by
  induction tracks generalizing e with
  | nil =>
    have hid : (fun b : Broadcast => b) = id := rfl
    simp only [publish, List.foldl_nil, modifyBroadcast, hid, List.modify_id]
  | cons t tracks ih =>
    refine (ih _).trans ?_
    simp only [apply, withRegistry, modifyBroadcast, List.modify_modify_eq, List.foldl_cons]
    rfl

/-- When a publisher comes on air on a broadcast that is registered and has one already, then that
one is replaced, its media are forgotten, and sessions and keys stay as they are. -/
theorem registry_ingest (now : UInt64) {key : String} (id : String) {b : Nat} {x : Broadcast}
    (hkey : e.registry.streams.get? key = some b) (hx : e.registry.broadcasts[b]? = some x) :
    let r := (e.apply (.ingest now key id (.answered ()))).registry
    r.streams = e.registry.streams ∧ r.viewers = e.registry.viewers ∧
      r.sessions = e.registry.sessions ∧
      r.broadcasts[b]? = some (x.replacePublisher ⟨id, e.registry.peers.length⟩).1 := by
  have hinstalled : (e.apply (.ingest now key id (.answered ()))).registry =
      dismiss ((e.registry.openPeer (.publisher b id)).1.replacePublisher b
        ⟨id, e.registry.peers.length⟩).1 ((e.registry.broadcasts[b]?).bind (·.publisher)) := by
    simp only [apply, ingestWith, withRegistry, install, streamOrCreate_of_some now hkey]
    rfl
  have hframe : ∀ (r : Registry) (previous : Option Publisher),
      (dismiss r previous).streams = r.streams ∧ (dismiss r previous).viewers = r.viewers ∧
        (dismiss r previous).sessions = r.sessions ∧
        (dismiss r previous).broadcasts = r.broadcasts := by
    intro r previous
    cases previous <;> exact ⟨rfl, rfl, rfl, rfl⟩
  obtain ⟨hstreams, hviewers, hsessions, hbroadcasts⟩ := hframe
    ((e.registry.openPeer (.publisher b id)).1.replacePublisher b ⟨id, e.registry.peers.length⟩).1
    ((e.registry.broadcasts[b]?).bind (·.publisher))
  rw [hinstalled]
  refine ⟨hstreams, hviewers, hsessions, ?_⟩
  rw [hbroadcasts]
  exact (List.getElem?_modify_eq _ _ _).trans (congrArg (Option.map _) hx)

/-- A handover keeps the sessions, and lists the encodings of the new publisher only. -/
theorem registry_handOver (now : UInt64) {key : String} (id : String) {b : Nat} {x : Broadcast}
    (hkey : e.registry.streams.get? key = some b) (hx : e.registry.broadcasts[b]? = some x)
    (tracks : List VideoTrack) :
    let r := (e.handOver now key id b tracks).registry
    (∀ i, r.session? i = e.registry.session? i) ∧ ∃ y, r.stream? key = some y ∧
      y.publisher = some ⟨id, e.registry.peers.length⟩ ∧
      ∀ rid, y.hasLayer rid = true ↔ ∃ t ∈ tracks, t.encoding = rid := by
  obtain ⟨hstreams, hviewers, hsessions, hbroadcast⟩ := registry_ingest now id hkey hx
  simp only [handOver, registry_publish]
  refine ⟨fun i => ?_, tracks.foldl VideoTrack.begin
    (x.replacePublisher ⟨id, e.registry.peers.length⟩).1, ?_, ?_, fun rid => ?_⟩
  · simp only [session?, modifyBroadcast, hviewers, hsessions]
  · simp only [stream?, modifyBroadcast, hstreams, hkey, Option.bind_some,
      List.getElem?_modify_eq, hbroadcast, Option.map_some, Option.map_eq_map]
  · exact VideoTrack.publisher_foldl_begin _ tracks
  · rw [VideoTrack.hasLayer_foldl_begin]
    exact or_iff_right Bool.false_ne_true

/-- After a handover the session has the encoding that it had before. It accepts the packets of an
encoding that is on offer exactly if the new publisher sends that encoding, or if the session had
none and something is on offer. As long as none is selected for it, all packets of video that are
written to it are of the encoding that it had. -/
theorem accepts_after_handover {id : String} {old : Publisher}
    (hs : e.registry.session? id = some s)
    (hkey : e.registry.streams.get? s.streamKey = some s.broadcast)
    (hold : e.registry.slot s.broadcast = some old) (now : UInt64) (new : String)
    (tracks : List VideoTrack) :
    let e' := e.handOver now s.streamKey new s.broadcast tracks
    e'.registry.session? id = some s ∧
    (∃ x, e'.registry.stream? s.streamKey = some x ∧ x.publisher.map (·.id) = some new ∧
      (∀ rid, x.hasLayer rid = true ↔ ∃ t ∈ tracks, t.encoding = rid) ∧
      ((∃ l ∈ x.selectable, (s.accepts l.encodingId).2 = true) ↔
        (tracks ≠ [] ∧ s.layer = none) ∨ ∃ t ∈ tracks, s.layer = some t.encoding)) ∧
    ∀ layer i ops, s.layer = some layer → e'.registry.viewers.get? id = some i →
      (∀ rid, .switched rid ∉ e'.story i ops) →
        ∀ source p out, .wrote source p out ∈ e'.story i ops → p.rid = layer := by
  intro e'
  obtain ⟨y, hy, -⟩ := Option.bind_eq_some_iff.mp hold
  obtain ⟨hsessions, x, hx, hpublisher, hlayers⟩ := registry_handOver now new hkey hy tracks
  have hs' : e'.registry.session? id = some s := (hsessions id).trans hs
  refine ⟨hs', ⟨x, hx, by rw [hpublisher]; rfl, hlayers, ?_⟩, ?_⟩
  · have hoffered : (∃ l ∈ x.selectable, (s.accepts l.encodingId).2 = true) ↔
        ∃ t ∈ tracks, (s.accepts t.encoding).2 = true := by
      constructor
      · rintro ⟨l, hl, haccepts⟩
        obtain ⟨t, ht, heq⟩ := (hlayers l.encodingId).mp (Broadcast.hasLayer_iff.mpr ⟨l, hl, rfl⟩)
        exact ⟨t, ht, heq ▸ haccepts⟩
      · rintro ⟨t, ht, haccepts⟩
        obtain ⟨l, hl, heq⟩ := Broadcast.hasLayer_iff.mp ((hlayers t.encoding).mpr ⟨t, ht, rfl⟩)
        exact ⟨l, hl, heq ▸ haccepts⟩
    rw [hoffered]
    cases hlayer : s.layer with
    | none => cases tracks <;> simp [Session.accepts, hlayer]
    | some layer => simp [Session.accepts, hlayer]
  · intro layer i ops hlayer hi hno source p out hp
    have hat : e'.registry.sessions[i]? = some s := by
      rw [session?, hi, Option.bind_some] at hs'
      exact hs'
    have htells := tells_story e' i ops
    rw [channel_of_getElem? hat] at htells
    exact htells.rid_eq hlayer hno hp

/-- The viewer has taken the encoding of the first publisher, and the second sends another one. -/
theorem accepts_after_handover_other :
    let e := attended.apply (.video 0 0 [⟨"h", ⟨100, 9000⟩⟩])
    ∃ s x, e.registry.session? "v" = some s ∧
      (e.handOver 0 "live" "q" 0 [⟨"l", 2, .defaultVideo⟩]).registry.stream? "live" = some x ∧
      ¬ ∃ l ∈ x.selectable, (s.accepts l.encodingId).2 = true := by
  intro e
  obtain ⟨-, ⟨x, hx, -, -, haccepts⟩, -⟩ := @accepts_after_handover e _ "v" _ rfl (by rfl)
    (by rfl) 0 "q" [⟨"l", 2, .defaultVideo⟩]
  exact ⟨_, x, rfl, hx, fun h => absurd (haccepts.mp h) (by decide)⟩

/-- A viewer need not get anything from a new publisher, whatever that one sends. -/
theorem handover_starves : ¬ ∀ (e : Engine) (id : String) (s : Session) (old : Publisher),
    e.Reachable → e.registry.session? id = some s →
    e.registry.streams.get? s.streamKey = some s.broadcast →
    e.registry.slot s.broadcast = some old →
    ∀ (now : UInt64) (new : String) (tracks : List VideoTrack), tracks ≠ [] →
      let r := (e.handOver now s.streamKey new s.broadcast tracks).registry
      ∃ t x, r.session? id = some t ∧ r.stream? s.streamKey = some x ∧
        ∃ l ∈ x.selectable, (t.accepts l.encodingId).2 = true := by
  intro h
  obtain ⟨t, x, ht, hx, hstarved⟩ := h (attended.apply (.video 0 0 [⟨"h", ⟨100, 9000⟩⟩])) "v"
    _ _ (reachable_attended.step _ trivial) rfl (by rfl) (by rfl) 0 "q" [⟨"l", 2, .defaultVideo⟩]
    (by simp)
  obtain rfl := Option.some.inj ht
  obtain rfl := Option.some.inj hx
  exact absurd hstarved (by decide)

end Engine

end BroadcastRelay
