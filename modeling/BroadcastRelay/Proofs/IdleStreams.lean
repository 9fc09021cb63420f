import BroadcastRelay.Proofs.Orphans
/-!
# Idle streams under traffic

A registered stream is idle if nothing on its key is live. Within traffic there are idle streams: one
that has just been looked up, one that its last viewer has just left. Each of them is owed something
by an errand under way (`Chore.Owes`): to put a session or a publisher on the stream, or to prune its
key. So when all errands have come to rest, there is no idle stream (`Chores.live_at_rest`).

A prune is two steps here, since viewers and streams are looked at under different locks: the check
for viewers, and the removal if there is no publisher. A `Chore` is an errand that prunes so. Between
the two steps another party may leave. Of two that leave at once it is the later one that sees both
gone: what is owed for a stream is settled only at a moment when something on its key is live
(`Chore.owes_of_idle_step`).

A viewer that leaves says by its id which key to prune, so an id has to belong to one key.
-/

namespace BroadcastRelay

namespace Registry

variable {r r' r'' : Registry} {keyOf : String → String}

/-! ## What no step takes away -/

/-- The key of a broadcast. -/
def keyAt? (r : Registry) (b : Nat) : Option String := (r.broadcasts[b]?).map (·.key)

theorem keyAt?_eq_some_iff {b : Nat} {key : String} :
    r.keyAt? b = some key ↔ ∃ x, r.broadcasts[b]? = some x ∧ x.key = key := by
  simp [keyAt?]

theorem keyAt?_modifyBroadcast (r : Registry) (i : Nat) {f : Broadcast → Broadcast}
    (hf : ∀ x, (f x).key = x.key) (b : Nat) : (r.modifyBroadcast i f).keyAt? b = r.keyAt? b := by
  simp only [keyAt?, modifyBroadcast, List.getElem?_modify]
  cases r.broadcasts[b]? with
  | none => rfl
  | some x => by_cases h : i = b <;> simp [h, hf]

theorem keyAt?_streamOrCreate {b : Nat} {key : String} (h : r.keyAt? b = some key) (now : UInt64)
    (other : String) : (r.streamOrCreate now other).1.keyAt? b = some key := by
  obtain ⟨x, hx, hkey⟩ := keyAt?_eq_some_iff.mp h
  refine keyAt?_eq_some_iff.mpr ⟨x, ?_, hkey⟩
  unfold streamOrCreate
  split
  · exact hx
  · exact (List.getElem?_append_left (List.getElem?_eq_some_iff.mp hx).1).trans hx

/-- The registry is in order, and every id in it goes with the key that it was drawn for. -/
structure Told (keyOf : String → String) (r : Registry) : Prop where
  wellFormed : r.WellFormed
  key_of_seat : ∀ {id k b}, r.seat? id = some (k, b) → keyOf id = k
  key_of_role : ∀ {peer id k}, r.role? peer = some (.viewer id k) → keyOf id = k

/-- The later registry is in order too, and broadcasts are what they were of. -/
structure Grows (keyOf : String → String) (r r' : Registry) : Prop where
  told : r'.Told keyOf
  keyAt? : ∀ {b key}, r.keyAt? b = some key → r'.keyAt? b = some key

theorem Grows.trans (h : r.Grows keyOf r') (h' : r'.Grows keyOf r'') : r.Grows keyOf r'' :=
  ⟨h'.told, fun hb => h'.keyAt? (h.keyAt? hb)⟩

theorem told_fresh : fresh.Told keyOf where
  wellFormed := wellFormed_fresh
  key_of_seat h := absurd h (by simp [fresh, seat?, session?])
  key_of_role h := absurd h (by simp [fresh, role?])

namespace Told

variable (h : r.Told keyOf)
include h

/-- A step is harmless if it seats nobody, makes no connection and renames no broadcast. -/
theorem grows (hw : r'.WellFormed)
    (hseat : ∀ id seat, r'.seat? id = some seat → r.seat? id = some seat)
    (hrole : ∀ peer, r'.role? peer = r.role? peer)
    (hkey : ∀ b key, r.keyAt? b = some key → r'.keyAt? b = some key) : r.Grows keyOf r' where
  told := ⟨hw, fun hs => h.key_of_seat (hseat _ _ hs), fun hr => h.key_of_role (hrole _ ▸ hr)⟩
  keyAt? hb := hkey _ _ hb

theorem grows_refl : r.Grows keyOf r := ⟨h, id⟩

theorem grows_openPeer (role : Role) (hrole : ∀ id k, role = .viewer id k → keyOf id = k) :
    r.Grows keyOf (r.openPeer role).1 where
  told := by
    refine ⟨h.wellFormed.openPeer role, h.key_of_seat, fun {peer id k} hr => ?_⟩
    rw [role?_openPeer] at hr
    split at hr
    · exact hrole id k (Option.some.inj hr)
    · exact h.key_of_role hr
  keyAt? hb := hb

theorem grows_cancel (peer : Nat) : r.Grows keyOf (r.cancel peer) :=
  h.grows (h.wellFormed.cancel peer) (fun _ _ hs => hs) (role?_cancel r peer) fun _ _ hb => hb

theorem grows_close (peer : Nat) : r.Grows keyOf (r.close peer) :=
  h.grows (h.wellFormed.close peer) (fun _ _ hs => hs) (role?_close r peer) fun _ _ hb => hb

theorem grows_streamOrCreate (now : UInt64) (key : String) :
    r.Grows keyOf (r.streamOrCreate now key).1 :=
  h.grows (h.wellFormed.streamOrCreate now key)
    (fun id _ hs => (seat?_streamOrCreate r now key id) ▸ hs) (role?_streamOrCreate r now key)
    fun _ _ hb => keyAt?_streamOrCreate hb now key

theorem grows_modifyBroadcast (i : Nat) {f : Broadcast → Broadcast} (hf : ∀ x, (f x).key = x.key) :
    r.Grows keyOf (r.modifyBroadcast i f) :=
  h.grows (h.wellFormed.modifyBroadcast i hf) (fun _ _ hs => hs) (fun _ => rfl)
    fun b _ hb => (keyAt?_modifyBroadcast r i hf b).trans hb

theorem grows_clearPublisher (i : Nat) (id : String) :
    r.Grows keyOf (r.clearPublisher i id).1 :=
  h.grows_modifyBroadcast i fun x => key_clearPublisher x id

theorem grows_insertSession {s : Session} (hs : keyOf s.id = s.streamKey) :
    r.Grows keyOf (r.insertSession s).1 where
  told := by
    refine ⟨h.wellFormed.insertSession s, fun {id k b} hseat => ?_, h.key_of_role⟩
    rw [seat?_insertSession h.wellFormed] at hseat
    split at hseat
    · rename_i heq
      rw [heq, hs]
      exact (Prod.mk.inj (Option.some.inj hseat)).1
    · exact h.key_of_seat hseat
  keyAt? hb := hb

theorem grows_removeSession (id : String) : r.Grows keyOf (r.removeSession id).1 :=
  h.grows (h.wellFormed.removeSession id) (fun _ _ hs => seat?_of_removeSession hs) (fun _ => rfl)
    fun _ _ hb => hb

theorem grows_subscribe (session : Nat) : r.Grows keyOf (Engine.subscribe r session) :=
  h.grows (h.wellFormed.modifySession session fun _ => rfl)
    (fun id _ hs => seat?_modifySession r session
      (f := fun s => { s with subscribed := true }) (fun _ => ⟨rfl, rfl⟩) id ▸ hs)
    (fun _ => rfl) fun _ _ hb => hb

theorem grows_dismiss (previous : Option Publisher) : r.Grows keyOf (Engine.dismiss r previous) := by
  cases previous with
  | none => exact h.grows_refl
  | some p => exact (h.grows_cancel p.peer).trans ((h.grows_cancel p.peer).told.grows_close p.peer)

theorem grows_dropUnpublished (key : String) : r.Grows keyOf (r.dropUnpublished key) := by
  have hw := h.wellFormed.dropUnpublished key
  unfold dropUnpublished at hw ⊢
  split
  · rename_i hdrop
    rw [if_pos hdrop] at hw
    exact h.grows hw (fun _ _ hs => hs) (fun _ => rfl) fun _ _ hb => hb
  · exact h.grows_refl

theorem grows_prune (key : String) : r.Grows keyOf (r.prune key) := by
  unfold Registry.prune
  split
  · exact h.grows_refl
  · exact h.grows_dropUnpublished key

theorem grows_close? (peer : Option Nat) : r.Grows keyOf ((peer.map r.close).getD r) := by
  cases peer with
  | none => exact h.grows_refl
  | some peer => exact h.grows_close peer

end Told

/-! ## Idle streams -/

/-- The stream is registered under the key, and nothing on the key is live. -/
def Idle (r : Registry) (key : String) (b : Nat) : Prop :=
  r.streams.get? key = some b ∧ ¬ r.Live key

section Idle

variable {key k : String} {b c : Nat}

/-- Idleness is a matter of who is registered and who is in the slots. -/
theorem idle_congr (hstreams : r'.streams = r.streams) (hslot : ∀ b, r'.slot b = r.slot b)
    (hseat : ∀ id, r'.seat? id = r.seat? id) : r'.Idle k c ↔ r.Idle k c := by
  simp only [Idle, Live, hstreams, hslot, hseat]

theorem idle_subscribe (session : Nat) : (Engine.subscribe r session).Idle k c ↔ r.Idle k c :=
  idle_congr rfl (fun _ => rfl)
    (seat?_modifySession r session (f := fun s => { s with subscribed := true })
      fun _ => ⟨rfl, rfl⟩)

theorem idle_dismiss (previous : Option Publisher) :
    (Engine.dismiss r previous).Idle k c ↔ r.Idle k c := by
  cases previous <;> exact Iff.rfl

/-- A look-up makes idle at most the stream that it gives. -/
theorem idle_of_streamOrCreate {now : UInt64} (h : (r.streamOrCreate now key).1.Idle k c) :
    r.Idle k c ∨ (k = key ∧ c = (r.streamOrCreate now key).2) := by
  obtain ⟨hreg, hlive⟩ := h
  have hlive' : ¬ r.Live k := by
    rintro (⟨b, p, hb, hp⟩ | ⟨id, b, hs⟩)
    · exact hlive (Or.inl ⟨b, p, get?_streamOrCreate_of_some hb, (slot_streamOrCreate r now key b) ▸ hp⟩)
    · exact hlive (Or.inr ⟨id, b, (seat?_streamOrCreate r now key id) ▸ hs⟩)
  rw [get?_streamOrCreate] at hreg
  split at hreg
  · rename_i heq
    exact Or.inr ⟨heq, (Option.some.inj hreg).symm⟩
  · exact Or.inl ⟨hreg, hlive'⟩

/-- A stream whose slot is filled is not idle, and no other becomes idle. -/
theorem idle_of_replacePublisher {p : Publisher} (hb : r.keyAt? b = some key)
    (h : (r.replacePublisher b p).1.Idle k c) : r.Idle k c ∧ c ≠ b := by
  obtain ⟨hreg, hlive⟩ := h
  obtain ⟨x, hx, -⟩ := keyAt?_eq_some_iff.mp hb
  have hne : ∀ d, r.streams.get? k = some d → d ≠ b := by
    rintro d hd rfl
    exact hlive (Or.inl ⟨d, p, hd, slot_replacePublisher_self hx p⟩)
  refine ⟨⟨hreg, ?_⟩, hne c hreg⟩
  rintro (⟨d, q, hd, hq⟩ | hseat)
  · exact hlive (Or.inl ⟨d, q, hd, (slot_replacePublisher_of_ne r p (hne d hd)).trans hq⟩)
  · exact hlive (Or.inr hseat)

/-- Clearing makes idle at most the stream whose publisher it takes off. -/
theorem idle_of_clearPublisher {id : String} (h : (r.clearPublisher b id).1.Idle k c) :
    r.Idle k c ∨ (r.streams.get? k = some b ∧ (r.clearPublisher b id).2 = true) := by
  obtain ⟨hreg, hlive⟩ := h
  by_cases hlive' : r.Live k
  · right
    obtain ⟨d, q, hd, hq⟩ | hseat := hlive'
    · by_cases hdb : d = b
      · subst hdb
        refine ⟨hd, clearPublisher_eq_true_iff.mpr ⟨q, hq, ?_⟩⟩
        by_contra hid
        refine hlive (Or.inl ⟨d, q, hd, ?_⟩)
        rw [slot_clearPublisher_self, hq, Option.filter_some, if_pos (by simpa using hid)]
      · exact absurd (Or.inl ⟨d, q, hd, (slot_clearPublisher_of_ne r id hdb).trans hq⟩) hlive
    · exact absurd (Or.inr hseat) hlive
  · exact Or.inl ⟨hreg, hlive'⟩

/-- A key on which a session is registered is not idle, and no other becomes idle. -/
theorem idle_of_insertSession (ht : r.Told keyOf) {s : Session} (hs : keyOf s.id = s.streamKey)
    (h : (r.insertSession s).1.Idle k c) : r.Idle k c ∧ k ≠ s.streamKey := by
  obtain ⟨hreg, hlive⟩ := h
  have hne : k ≠ s.streamKey := by
    rintro rfl
    exact hlive (Or.inr ⟨s.id, s.broadcast, seat?_insertSession_self ht.wellFormed s⟩)
  refine ⟨⟨hreg, ?_⟩, hne⟩
  rintro (hslot | ⟨id, b, hseat⟩)
  · exact hlive (Or.inl hslot)
  · have hid : id ≠ s.id := by
      rintro rfl
      exact hne ((ht.key_of_seat hseat).symm.trans hs)
    exact hlive (Or.inr ⟨id, b, by rw [seat?_insertSession ht.wellFormed, if_neg hid, hseat]⟩)

/-- Forgetting a session makes idle at most its key. -/
theorem idle_of_removeSession (ht : r.Told keyOf) {id : String}
    (h : (r.removeSession id).1.Idle k c) :
    r.Idle k c ∨ (k = keyOf id ∧ (r.removeSession id).2 = true) := by
  obtain ⟨hreg, hlive⟩ := h
  by_cases hlive' : r.Live k
  · right
    obtain hslot | ⟨other, b, hseat⟩ := hlive'
    · exact absurd (Or.inl hslot) hlive
    · by_cases hid : other = id
      · subst hid
        exact ⟨(ht.key_of_seat hseat).symm,
          (removeSession_eq_true_iff ht.wellFormed).mpr ⟨k, b, hseat⟩⟩
      · refine absurd (Or.inr ⟨other, b, ?_⟩) hlive
        rw [seat?_removeSession, if_neg hid, hseat]
  · exact Or.inl ⟨hreg, hlive'⟩

/-- A key that is dropped if it has no publisher is not idle, and no other becomes idle. -/
theorem idle_of_dropUnpublished (hw : r.WellFormed) (h : (r.dropUnpublished key).Idle k c) :
    r.Idle k c ∧ k ≠ key := by
  unfold dropUnpublished at h
  split at h
  · obtain ⟨hreg, hlive⟩ := h
    rw [KeyMap.get?_erase] at hreg
    split at hreg
    · exact absurd hreg (by simp)
    · rename_i hne
      refine ⟨⟨hreg, ?_⟩, hne⟩
      rintro (⟨d, q, hd, hq⟩ | hseat)
      · refine hlive (Or.inl ⟨d, q, ?_, hq⟩)
        rw [KeyMap.get?_erase, if_neg hne, hd]
      · exact hlive (Or.inr hseat)
  · rename_i hpublished
    refine ⟨h, ?_⟩
    rintro rfl
    obtain ⟨x, hx, -⟩ := hw.keys.broadcast_at h.1
    have hpublisher : x.publisher ≠ none := by
      simpa [stream?, h.1, hx, Broadcast.hasPublisher] using hpublished
    obtain ⟨p, hp⟩ := Option.ne_none_iff_exists'.mp hpublisher
    exact h.2 (Or.inl ⟨c, p, h.1, by rw [slot, hx, Option.bind_some, hp]⟩)

/-- An idle stream has no viewers. -/
theorem Idle.hasViewers_eq_false (hw : r.WellFormed) (h : r.Idle k c) : r.hasViewers k = false := by
  rw [Bool.eq_false_iff]
  exact fun hv => h.2 (Or.inr ((hasViewers_iff hw).mp hv))

end Idle

end Registry

/-! ## What an errand knows -/

namespace Errand

variable {r : Registry} {keyOf : String → String} {e : Errand}

/-- The key and the id of the viewer that the errand is for. -/
def viewer? : Errand → Option (String × String)
  | egress key id _ | attach key id _ _ | answerViewer key id _ _ _ => some (key, id)
  | _ => none

/-- The viewer's id goes with its key, and so does the broadcast that was looked up. -/
structure Fits (keyOf : String → String) (r : Registry) (e : Errand) : Prop where
  key_of_viewer : ∀ {key id}, e.viewer? = some (key, id) → keyOf id = key
  key_of_held : ∀ {key b}, e.holds? = some (key, b) → r.keyAt? b = some key

theorem fits_of_none (hviewer : e.viewer? = none) (hholds : e.holds? = none) :
    e.Fits keyOf r where
  key_of_viewer h := absurd (hviewer.symm.trans h) (by simp)
  key_of_held h := absurd (hholds.symm.trans h) (by simp)

theorem Fits.mono {r' : Registry} (h : e.Fits keyOf r) (hg : r.Grows keyOf r') : e.Fits keyOf r' :=
  ⟨h.key_of_viewer, fun hb => hg.keyAt? (h.key_of_held hb)⟩

/-- An errand is for the same viewer from its beginning. -/
theorem viewer?_of_step {now : UInt64} {viewer : String × String}
    (h : (e.step now r).2.viewer? = some viewer) : e.viewer? = some viewer := by
  cases e with
  | egress key id failure => exact h
  | attach key id failure broadcast =>
    rcases failure with _ | _ | _ | _
    · exact h
    · exact absurd h (by simp [step, viewer?])
    · exact absurd h (by simp [step, leave, viewer?])
    · exact h
  | report peer state =>
    rcases report_snd now r peer state with hnext | ⟨k, open?, hnext⟩ <;> rw [hnext] at h <;>
      exact absurd h (by simp [viewer?])
  | answerViewer key id failure session peer =>
    cases failure <;> exact absurd h (by simp [step, leave, viewer?])
  | ingest key id failure =>
    rcases failure with _ | _ | _ | _ <;> exact absurd h (by simp [step, viewer?])
  | answerPublisher key id failure broadcast peer =>
    cases failure <;> exact absurd h (by simp [step, viewer?])
  | _ => exact absurd h (by simp [step, viewer?])

theorem grows_leave (h : r.Told keyOf) (key id : String) (peer : Nat) :
    r.Grows keyOf (leave r key id peer).1 := by
  have hcancel := h.grows_cancel peer
  have hremove := hcancel.trans (hcancel.told.grows_removeSession id)
  exact hremove.trans (hremove.told.grows_close peer)

theorem grows_retire (h : r.Told keyOf) (peer : Nat) (open? : Option Nat) (role : Role) :
    r.Grows keyOf (retire r peer open? role).1 := by
  have hcancel := h.grows_cancel peer
  cases role with
  | publisher broadcast id =>
    rw [retire_publisher_fst]
    exact hcancel.trans (hcancel.told.grows_clearPublisher broadcast id)
  | viewer id key => exact hcancel.trans (hcancel.told.grows_removeSession id)

/-- No step seats a viewer under the id of another key, or renames a broadcast. -/
theorem grows_step (h : r.Told keyOf) (now : UInt64) (hf : e.Fits keyOf r) :
    r.Grows keyOf (e.step now r).1 := by
  cases e with
  | egress key id failure => exact h.grows_streamOrCreate now key
  | attach key id failure broadcast =>
    have hid := hf.key_of_viewer rfl
    have hopen := h.grows_openPeer (.viewer id key) fun _ _ heq =>
      (Role.viewer.inj heq).1 ▸ (Role.viewer.inj heq).2 ▸ hid
    have hinsert := hopen.trans
      (hopen.told.grows_insertSession (s := .fresh id key broadcast r.peers.length) hid)
    rcases failure with _ | _ | _ | _
    · exact hinsert
    · exact h.grows_refl
    · exact hopen.trans (grows_leave hopen.told key id r.peers.length)
    · exact hinsert
  | answerViewer key id failure session peer =>
    cases failure with
    | none => exact h.grows_subscribe session
    | some step => exact grows_leave h key id peer
  | ingest key id failure =>
    rcases failure with _ | _ | _ | _
    · exact h.grows_streamOrCreate now key
    · exact h.grows_refl
    · exact h.grows_streamOrCreate now key
    · exact h.grows_streamOrCreate now key
  | install key id failure broadcast =>
    have hopen := h.grows_openPeer (.publisher broadcast id) (by simp)
    exact hopen.trans (hopen.told.grows_modifyBroadcast broadcast fun _ => rfl)
  | dismiss key id failure broadcast peer previous => exact h.grows_dismiss previous
  | answerPublisher key id failure broadcast peer =>
    cases failure with
    | none => exact h.grows_refl
    | some step =>
      have hcancel := h.grows_cancel peer
      have hclear := hcancel.trans (hcancel.told.grows_clearPublisher broadcast id)
      exact hclear.trans (hclear.told.grows_close peer)
  | published key id broadcast peer => exact h.grows_refl
  | report peer state =>
    simp only [step]
    split
    · exact grows_retire h peer _ _
    · exact h.grows_refl
  | rest key peer =>
    have hprune : r.Grows keyOf ((key.map r.prune).getD r) := by
      cases key with
      | none => exact h.grows_refl
      | some key => exact h.grows_prune key
    exact hprune.trans (hprune.told.grows_close? peer)
  | done => exact h.grows_refl

/-- An errand that fits goes on to one that fits. -/
theorem Fits.step (hf : e.Fits keyOf r) (h : r.Told keyOf) (now : UInt64) :
    (e.step now r).2.Fits keyOf (e.step now r).1 where
  key_of_viewer hv := hf.key_of_viewer (viewer?_of_step hv)
  key_of_held hb := by
    have hgrows := grows_step h now hf
    rcases holds_of_step hb with hbefore | hregistered
    · exact hgrows.keyAt? (hf.key_of_held hbefore)
    · exact Registry.keyAt?_eq_some_iff.mpr (hgrows.told.wellFormed.keys.broadcast_at hregistered)

end Errand

/-! ## Prunes in two steps -/

/-- An errand whose prune is two steps. -/
inductive Chore where
  /-- The errand. -/
  | errand (e : Errand)
  /-- The key had no viewers, and is to be dropped unless it has a publisher; after that a connection
  may have to be closed. -/
  | dropping (key : String) (peer : Option Nat)

namespace Chore

variable {r : Registry} {keyOf : String → String} {c : Chore} {k : String} {b : Nat}

/-- The next step. The check for viewers is one, the removal of the key another. -/
def step (now : UInt64) (r : Registry) : Chore → Registry × Chore
  | .errand (.rest (some key) peer) =>
    if r.hasViewers key then ((peer.map r.close).getD r, .errand .done)
    else (r, .dropping key peer)
  | .errand e => ((e.step now r).1, .errand (e.step now r).2)
  | .dropping key peer =>
    let r := r.dropUnpublished key
    ((peer.map r.close).getD r, .errand .done)

/-- The two steps of a prune that is alone come to the one of the errand. -/
theorem step_step_rest (now later : UInt64) (r : Registry) (key : String) (peer : Option Nat) :
    let (r', c) := step now r (.errand (.rest (some key) peer))
    (c.step later r').1 = (Errand.step now r (.rest (some key) peer)).1 := by
  simp only [step, Errand.step, Option.map_some, Option.getD_some, Registry.prune]
  by_cases hviewers : r.hasViewers key = true
  · simp [hviewers]
  · simp [hviewers]

/-- Whether nothing is left to be done. -/
def isAtRest : Chore → Bool
  | .errand (.published _ _ _ _) | .errand (.rest none none) | .errand .done => true
  | _ => false

/-- The errand is still to put a session or a publisher on the stream, or to prune its key. -/
def Owes (key : String) (broadcast : Nat) : Chore → Prop
  | .errand (.attach k _ _ _) => k = key
  | .errand (.install k _ _ b) => k = key ∧ b = broadcast
  | .errand (.rest (some k) _) => k = key
  | .dropping k _ => k = key
  | _ => False

theorem not_owes_of_isAtRest (h : c.isAtRest = true) : ¬ c.Owes k b := by
  unfold isAtRest at h
  split at h
  · exact not_false
  · exact not_false
  · exact not_false
  · exact absurd h (by simp)

/-- What the errand knows is right. -/
def Fits (keyOf : String → String) (r : Registry) : Chore → Prop
  | .errand e => e.Fits keyOf r
  | .dropping _ _ => True

theorem Fits.mono {r' : Registry} (h : c.Fits keyOf r) (hg : r.Grows keyOf r') :
    c.Fits keyOf r' := by
  cases c with
  | errand e => exact Errand.Fits.mono h hg
  | dropping key peer => trivial

/-- A step keeps the registry in order, and goes on to a chore that fits. -/
theorem grows_step (h : r.Told keyOf) (now : UInt64) (hf : c.Fits keyOf r) :
    r.Grows keyOf (c.step now r).1 ∧ (c.step now r).2.Fits keyOf (c.step now r).1 := by
  unfold step
  split
  · split
    · exact ⟨h.grows_close? _, Errand.fits_of_none rfl rfl⟩
    · exact ⟨h.grows_refl, trivial⟩
  · exact ⟨Errand.grows_step h now hf, Errand.Fits.step hf h now⟩
  · have hdrop := h.grows_dropUnpublished (by assumption)
    exact ⟨hdrop.trans (hdrop.told.grows_close? _), Errand.fits_of_none rfl rfl⟩

/-! ## What is owed for an idle stream -/

theorem owes_of_idle_leave (h : r.Told keyOf) {key id : String} (hid : keyOf id = key) {peer : Nat}
    (hidle : (Errand.leave r key id peer).1.Idle k b) : key = k ∨ r.Idle k b := by
  rcases Registry.idle_of_removeSession (h.grows_cancel peer).told hidle with hbefore | ⟨heq, -⟩
  · exact Or.inr hbefore
  · exact Or.inl (hid.symm.trans heq.symm)

/-- An idle stream whose key was pruned is owed that, or it was idle before. -/
theorem owes_of_idle_retire (h : r.Told keyOf) {peer : Nat} {open? : Option Nat} {role : Role}
    (hrole : r.role? peer = some role) (hidle : (Errand.retire r peer open? role).1.Idle k b) :
    (errand (Errand.retire r peer open? role).2).Owes k b ∨ r.Idle k b := by
  have hcancel := h.grows_cancel peer
  cases role with
  | publisher broadcast id =>
    have hclear := hcancel.trans (hcancel.told.grows_clearPublisher broadcast id)
    rw [Errand.retire_publisher_fst] at hidle
    rcases Registry.idle_of_clearPublisher hidle with hbefore | ⟨hreg, hcleared⟩
    · exact Or.inr hbefore
    · obtain ⟨x, hx, (hkey : x.key = k)⟩ := hclear.told.wellFormed.keys.broadcast_at hreg
      left
      simp only [Errand.retire, hcleared, hx]
      exact hkey
  | viewer id key =>
    rcases Registry.idle_of_removeSession hcancel.told hidle with hbefore | ⟨heq, hremoved⟩
    · exact Or.inr hbefore
    · left
      simp only [Errand.retire, hremoved, if_true]
      exact (h.key_of_role hrole).symm.trans heq.symm

/-- If a stream is idle after a step, then the errand owes it something now, or the stream was idle
before and the errand owed it nothing then. -/
theorem owes_of_idle_step (h : r.Told keyOf) (now : UInt64) (hf : c.Fits keyOf r)
    (hidle : (c.step now r).1.Idle k b) :
    (c.step now r).2.Owes k b ∨ (r.Idle k b ∧ ¬ c.Owes k b) := by
  cases c with
  | dropping key peer =>
    have hdropped : (r.dropUnpublished key).Idle k b := by
      cases peer <;> exact hidle
    obtain ⟨hbefore, hne⟩ := Registry.idle_of_dropUnpublished h.wellFormed hdropped
    exact Or.inr ⟨hbefore, fun heq => hne heq.symm⟩
  | errand e =>
    cases e with
    | egress key id failure =>
      rcases Registry.idle_of_streamOrCreate hidle with hbefore | ⟨rfl, -⟩
      · exact Or.inr ⟨hbefore, not_false⟩
      · exact Or.inl rfl
    | attach key id failure broadcast =>
      have hid := hf.key_of_viewer rfl
      have hopen := h.grows_openPeer (.viewer id key) fun _ _ heq =>
        (Role.viewer.inj heq).1 ▸ (Role.viewer.inj heq).2 ▸ hid
      have hinsert (hidle : ((r.openPeer (.viewer id key)).1.insertSession
          (.fresh id key broadcast r.peers.length)).1.Idle k b) : r.Idle k b ∧ ¬ key = k := by
        obtain ⟨hbefore, hne⟩ := Registry.idle_of_insertSession hopen.told hid hidle
        exact ⟨hbefore, fun heq => hne heq.symm⟩
      by_cases hkey : key = k
      · rcases failure with _ | _ | _ | _
        · exact absurd hkey (hinsert hidle).2
        · exact Or.inl hkey
        · exact Or.inl hkey
        · exact absurd hkey (hinsert hidle).2
      · rcases failure with _ | _ | _ | _
        · exact Or.inr (hinsert hidle)
        · exact Or.inr ⟨hidle, hkey⟩
        · exact Or.inr ⟨(owes_of_idle_leave hopen.told hid hidle).resolve_left hkey, hkey⟩
        · exact Or.inr (hinsert hidle)
    | answerViewer key id failure session peer =>
      cases failure with
      | none => exact Or.inr ⟨(Registry.idle_subscribe session).mp hidle, not_false⟩
      | some failed =>
        exact (owes_of_idle_leave h (hf.key_of_viewer rfl) hidle).imp_right fun hbefore =>
          ⟨hbefore, not_false⟩
    | ingest key id failure =>
      have hlooked (hidle : (r.streamOrCreate now key).1.Idle k b) :
          (key = k ∧ (r.streamOrCreate now key).2 = b) ∨ (r.Idle k b ∧ ¬ False) := by
        rcases Registry.idle_of_streamOrCreate hidle with hbefore | ⟨rfl, rfl⟩
        · exact Or.inr ⟨hbefore, not_false⟩
        · exact Or.inl ⟨rfl, rfl⟩
      rcases failure with _ | _ | _ | _
      · exact hlooked hidle
      · exact Or.inr ⟨hidle, not_false⟩
      · exact hlooked hidle
      · exact hlooked hidle
    | install key id failure broadcast =>
      obtain ⟨hbefore, hne⟩ := Registry.idle_of_replacePublisher
        (r := (r.openPeer (.publisher broadcast id)).1) (hf.key_of_held rfl) hidle
      exact Or.inr ⟨hbefore, fun heq => hne heq.2.symm⟩
    | dismiss key id failure broadcast peer previous =>
      exact Or.inr ⟨(Registry.idle_dismiss previous).mp hidle, not_false⟩
    | answerPublisher key id failure broadcast peer =>
      cases failure with
      | none => exact Or.inr ⟨hidle, not_false⟩
      | some failed =>
        rcases Registry.idle_of_clearPublisher (r := r.cancel peer) hidle with
          hbefore | ⟨hreg, -⟩
        · exact Or.inr ⟨hbefore, not_false⟩
        · -- The stream whose slot was cleared is the one of the errand's key.
          obtain ⟨x, hx, hkey⟩ := h.wellFormed.keys.broadcast_at hreg
          obtain ⟨y, hy, hheld⟩ := Registry.keyAt?_eq_some_iff.mp (hf.key_of_held rfl)
          left
          exact hheld.symm.trans ((Option.some.inj (hx.symm.trans hy)) ▸ hkey)
    | report peer state =>
      simp only [step, Errand.step] at hidle ⊢
      split at hidle
      · rename_i p hp
        exact (owes_of_idle_retire h (by rw [Registry.role?, hp]; rfl) hidle).imp_right
          fun hbefore => ⟨hbefore, not_false⟩
      · exact Or.inr ⟨hidle, not_false⟩
    | rest key peer =>
      cases key with
      | none =>
        refine Or.inr ⟨?_, not_false⟩
        cases peer <;> exact hidle
      | some key =>
        simp only [step] at hidle ⊢
        split
        · rename_i hviewers
          rw [if_pos hviewers] at hidle
          have hbefore : r.Idle k b := by
            cases peer <;> exact hidle
          refine Or.inr ⟨hbefore, ?_⟩
          -- A check that finds viewers settles nothing that was owed: the key was not idle.
          rintro rfl
          exact absurd hviewers (by simp [hbefore.hasViewers_eq_false h.wellFormed])
        · rename_i hviewers
          rw [if_neg hviewers] at hidle
          by_cases hkey : key = k
          · exact Or.inl hkey
          · exact Or.inr ⟨hidle, hkey⟩
    | published key id broadcast peer => exact Or.inr ⟨hidle, not_false⟩
    | done => exact Or.inr ⟨hidle, not_false⟩

end Chore

/-! ## Runs -/

/-- A registry and the errands under way, with prunes in two steps. -/
structure Chores where
  /-- The registry. -/
  registry : Registry
  /-- Every errand that was ever begun. -/
  chores : List Chore

namespace Chores

variable {keyOf : String → String} {t : Chores} {m : Move}

/-- An engine's registry before anything is asked of it. -/
def fresh : Chores := ⟨.fresh, []⟩

/-- One errand more. -/
def start (t : Chores) (errand : Errand) : Chores :=
  { t with chores := t.chores ++ [.errand errand] }

/-- The traffic after a move. -/
def move (t : Chores) : Move → Chores
  | .egress key id failure => t.start (.egress key id failure)
  | .ingest key id failure => t.start (.ingest key id failure)
  | .report peer state => t.start (.report peer state)
  | .advance i now =>
    match t.chores[i]? with
    | some chore => ⟨(chore.step now t.registry).1, t.chores.set i (chore.step now t.registry).2⟩
    | none => t

/-- The traffic after a list of moves. -/
def run (moves : List Move) : Chores := moves.foldl move fresh

theorem run_concat (moves : List Move) (m : Move) : run (moves ++ [m]) = (run moves).move m := by
  simp [run]

/-- Every idle stream is owed something. -/
structure Owed (keyOf : String → String) (t : Chores) : Prop where
  told : t.registry.Told keyOf
  fits : ∀ c ∈ t.chores, c.Fits keyOf t.registry
  owed : ∀ key b, t.registry.Idle key b → ∃ c ∈ t.chores, c.Owes key b

theorem owed_fresh : fresh.Owed keyOf :=
  ⟨Registry.told_fresh, by simp [fresh], fun _ _ h => absurd h.1 (by simp [fresh, Registry.fresh])⟩

theorem Owed.start (h : t.Owed keyOf) {errand : Errand} (hf : errand.Fits keyOf t.registry) :
    (t.start errand).Owed keyOf where
  told := h.told
  fits c hc := by
    rcases List.mem_append.mp hc with hc | hc
    · exact h.fits c hc
    · rw [List.mem_singleton.mp hc]
      exact hf
  owed key b hidle := by
    obtain ⟨c, hc, howes⟩ := h.owed key b hidle
    exact ⟨c, List.mem_append_left _ hc, howes⟩

/-- What is owed stays owed by the other errands, or becomes owed by the one that moves. -/
theorem Owed.move (h : t.Owed keyOf)
    (hids : ∀ key id failure, m = .egress key id failure → keyOf id = key) :
    (t.move m).Owed keyOf := by
  cases m with
  | egress key id failure =>
    have hid := hids key id failure rfl
    refine h.start ⟨fun hv => ?_, fun hb => absurd hb (by simp [Errand.holds?])⟩
    obtain ⟨rfl, rfl⟩ := Prod.mk.inj (Option.some.inj hv)
    exact hid
  | ingest key id failure => exact h.start (Errand.fits_of_none rfl rfl)
  | report peer state => exact h.start (Errand.fits_of_none rfl rfl)
  | advance i now =>
    unfold Chores.move
    cases hi : t.chores[i]? with
    | none => simpa only [hi] using h
    | some chore =>
      simp only [hi]
      obtain ⟨hlt, hat⟩ := List.getElem?_eq_some_iff.mp hi
      have hf := h.fits chore (List.mem_of_getElem? hi)
      obtain ⟨hgrows, hfits⟩ := Chore.grows_step h.told now hf
      refine ⟨hgrows.told, fun c hc => ?_, fun key b hidle => ?_⟩
      · rcases List.mem_or_eq_of_mem_set hc with hc | rfl
        · exact (h.fits c hc).mono hgrows
        · exact hfits
      · rcases Chore.owes_of_idle_step h.told now hf hidle with howes | ⟨hbefore, hnot⟩
        · exact ⟨_, List.mem_set hlt _, howes⟩
        · -- It was owed before, and not by the errand that moves, so by one that is still there.
          obtain ⟨c, hc, howes⟩ := h.owed key b hbefore
          obtain ⟨j, hj⟩ := List.mem_iff_getElem?.mp hc
          have hne : i ≠ j := by
            rintro rfl
            exact hnot (Option.some.inj (hi.symm.trans hj) ▸ howes)
          refine ⟨c, List.mem_iff_getElem?.mpr ⟨j, ?_⟩, howes⟩
          rw [List.getElem?_set_ne hne, hj]

/-- Along any run every idle stream is owed something. -/
theorem owed_run {moves : List Move}
    (hids : ∀ key id failure, .egress key id failure ∈ moves → keyOf id = key) :
    (run moves).Owed keyOf := by
  induction moves using List.reverseRecOn with
  | nil => exact owed_fresh
  | append_singleton moves m ih =>
    rw [run_concat]
    refine (ih fun key id failure hm => hids key id failure (List.mem_append_left _ hm)).move ?_
    rintro key id failure rfl
    exact hids key id failure (by simp)

/-- If no id is drawn for two keys, then each id goes with one key. -/
theorem exists_keyOf {moves : List Move}
    (hids : ∀ {k l id f g}, .egress k id f ∈ moves → .egress l id g ∈ moves → k = l) :
    ∃ keyOf : String → String,
      ∀ key id failure, .egress key id failure ∈ moves → keyOf id = key := by
  have hchoice : ∀ id : String, ∃ k : String, ∀ key failure, .egress key id failure ∈ moves →
      k = key := by
    intro id
    by_cases h : ∃ k f, .egress k id f ∈ moves
    · obtain ⟨k, f, hk⟩ := h
      exact ⟨k, fun key failure hkey => hids hk hkey⟩
    · exact ⟨"", fun key failure hkey => absurd ⟨key, failure, hkey⟩ h⟩
  choose keyOf hkeyOf using hchoice
  exact ⟨keyOf, fun key id failure => hkeyOf id key failure⟩

/-- At every point of a run an errand under way owes something for each idle stream. So once every
errand has come to rest, every registered stream has a publisher or a registered session. -/
theorem live_at_rest (moves : List Move)
    (hids : ∀ {k l id f g}, .egress k id f ∈ moves → .egress l id g ∈ moves → k = l) :
    (∀ key b, (run moves).registry.Idle key b → ∃ c ∈ (run moves).chores, c.Owes key b) ∧
    ((∀ c ∈ (run moves).chores, c.isAtRest = true) →
      ∀ key x, (run moves).registry.stream? key = some x →
        x.hasPublisher = true ∨
          ∃ id s, (run moves).registry.session? id = some s ∧ s.streamKey = key) := by
  obtain ⟨keyOf, hkeyOf⟩ := exists_keyOf hids
  have howed := owed_run hkeyOf
  refine ⟨howed.owed, fun hrest key x hx => ?_⟩
  obtain ⟨b, hb, hbx⟩ := Option.bind_eq_some_iff.mp hx
  have hlive : (run moves).registry.Live key := by
    by_contra hnot
    obtain ⟨c, hc, howes⟩ := howed.owed key b ⟨hb, hnot⟩
    exact Chore.not_owes_of_isAtRest (hrest c hc) howes
  rcases hlive with ⟨d, p, hd, hp⟩ | ⟨id, d, hseat⟩
  · left
    obtain rfl := Option.some.inj (hb.symm.trans hd)
    rw [Registry.slot, hbx, Option.bind_some] at hp
    rw [Broadcast.hasPublisher, hp, Option.isSome_some]
  · obtain ⟨s, hs, hkey, -⟩ := Registry.seat?_eq_some_iff.mp hseat
    exact Or.inr ⟨id, s, hs, hkey⟩

/-- A viewer and a publisher leave a stream at once while another viewer stays, and a viewer is
refused on another stream. -/
def crossing : List Move :=
  [.egress "live" "v" none, .advance 0 0, .advance 0 0, .advance 0 0,
    .egress "live" "w" none, .advance 1 0, .advance 1 0, .advance 1 0,
    .ingest "live" "p" (some .offer), .advance 2 0, .advance 2 0, .advance 2 0,
    .report 0 .failed, .advance 3 0, .advance 2 0, .advance 3 0, .advance 2 0,
    .egress "other" "u" (some .offer), .advance 4 0, .advance 4 0, .advance 4 0, .advance 4 0,
    .advance 4 0]

theorem live_at_rest_crossing : (∀ c ∈ (run crossing).chores, c.isAtRest = true) ∧
    ∃ x, (run crossing).registry.stream? "live" = some x ∧ (x.hasPublisher = true ∨
      ∃ id s, (run crossing).registry.session? id = some s ∧ s.streamKey = "live") := by
  have hrest : ∀ c ∈ (run crossing).chores, c.isAtRest = true := by decide
  refine ⟨hrest, _, rfl, (live_at_rest crossing ?_).2 hrest "live" _ rfl⟩
  intro k l id f g hk hl
  simp only [crossing, List.mem_cons, Move.egress.injEq, reduceCtorEq, List.not_mem_nil] at hk hl
  grind

end Chores

end BroadcastRelay
