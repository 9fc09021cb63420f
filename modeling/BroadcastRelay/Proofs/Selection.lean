import BroadcastRelay.Proofs.Handover
/-!
# Selecting an encoding

A viewer is told which layers there are (`Engine.layers`) and selects one of them
(`Engine.setLayer`). Both look the session up by its id, and then the broadcast by the key of the
session, each for itself. `setLayer_eq` says all that a selection can do. From it, a selection is
accepted exactly if it names a listed encoding, and it touches nothing but the session it is made for
(`setLayer_iff_listed`).
-/

namespace BroadcastRelay

open Registry

namespace Registry

variable {r : Registry} {id : String} {i : Nat}

theorem session?_modifySession_self (hi : r.viewers.get? id = some i) (f : Session → Session) :
    (r.modifySession i f).session? id = (r.session? id).map f := by
  have hsame : (r.modifySession i f).viewers.get? id = some i := hi
  rw [session?, hsame, session?, hi, Option.bind_some, Option.bind_some]
  exact List.getElem?_modify_eq _ _ _

/-- A change of the session of an id changes that of no other id. -/
theorem session?_modifySession_of_ne (hw : r.WellFormed) (hi : r.viewers.get? id = some i)
    (f : Session → Session) {other : String} (hne : other ≠ id) :
    (r.modifySession i f).session? other = r.session? other := by
  have hsame : (r.modifySession i f).viewers.get? other = r.viewers.get? other := rfl
  rw [session?, hsame, session?]
  cases hj : r.viewers.get? other with
  | none => rfl
  | some j =>
    have hplace : i ≠ j := by
      intro heq
      obtain ⟨s, hs, hid⟩ := hw.ids.session_at hi
      obtain ⟨t, ht, hother⟩ := hw.ids.session_at hj
      have hst : s = t := Option.some.inj (hs.symm.trans (heq ▸ ht))
      exact hne (hother.symm.trans (hst ▸ hid))
    exact List.getElem?_modify_ne _ _ hplace

/-- A session that is looked up has a place. -/
theorem exists_place {s : Session} (hs : r.session? id = some s) :
    ∃ i, r.viewers.get? id = some i ∧ r.sessions[i]? = some s :=
  Option.bind_eq_some_iff.mp hs

end Registry

/-- A session for which an encoding has been selected: its packet numbers are to be resynchronised
only if that is another encoding than before. -/
def Session.selecting (s : Session) (rid : String) : Session :=
  { s with
    layer := some rid
    rewriter := if s.layer = some rid then s.rewriter else s.rewriter.resync }

theorem Session.switchLayer_fst (s : Session) (rid : String) :
    (s.switchLayer rid).1 = s.selecting rid := by
  unfold switchLayer selecting
  by_cases h : s.layer = some rid
  · rw [if_pos h, if_pos h, ← h]
  · rw [if_neg h, if_neg h]

namespace Engine

variable {e : Engine} {id rid : String} {s : Session}

/-! ## Listing -/

/-- The layers listed for a registered session. -/
def listed (e : Engine) (s : Session) : List Layer :=
  ((e.registry.stream? s.streamKey).map Broadcast.selectable).getD []

theorem layers_of_none (h : e.registry.session? id = none) :
    e.layers id = .error (.sessionNotFound id) := by
  rw [layers, h]

theorem layers_of_some (h : e.registry.session? id = some s) : e.layers id = .ok (e.listed s) := by
  rw [layers, h, listed]

/-- The encodings that are listed for a session are those on offer under its key. -/
theorem mem_listed : (∃ l ∈ e.listed s, l.encodingId = rid) ↔
    e.registry.offers s.streamKey rid = true := by
  rw [offers, listed]
  cases e.registry.stream? s.streamKey with
  | none => simp
  | some b => exact Broadcast.hasLayer_iff.symm

/-! ## Selecting -/

theorem setLayer_of_none (h : e.registry.session? id = none) (rid : String) :
    e.setLayer id rid = (e, .error (.sessionNotFound id)) := by
  unfold setLayer
  rw [h]
  split
  · rename_i hs
    exact absurd hs (by simp)
  · rfl

/-- All that a selection for a registered session does. -/
theorem setLayer_eq {i : Nat} (hi : e.registry.viewers.get? id = some i)
    (hs : e.registry.sessions[i]? = some s) (rid : String) :
    e.setLayer id rid =
      if e.registry.offers s.streamKey rid then
        (e.withRegistry (e.registry.modifySession i (·.selecting rid)), .ok ())
      else (e, .error (.unknownLayer id rid)) := by
  have hsession : e.registry.session? id = some s := by
    rw [Registry.session?, hi, Option.bind_some, hs]
  have hswitch : (fun s : Session => (s.switchLayer rid).1) = (·.selecting rid) :=
    funext fun s => s.switchLayer_fst rid
  simp only [setLayer, hi, hsession, hswitch]
  rfl

/-- Nothing differs between two engines but the session of an id. -/
structure DifferAt (id : String) (e e' : Engine) : Prop where
  settings : e'.settings = e.settings
  peers : e'.registry.peers = e.registry.peers
  broadcasts : e'.registry.broadcasts = e.registry.broadcasts
  streams : e'.registry.streams = e.registry.streams
  viewers : e'.registry.viewers = e.registry.viewers
  session_of_ne : ∀ other, other ≠ id → e'.registry.session? other = e.registry.session? other
  /-- Sessions that are no longer registered are among those that do not differ. -/
  session_at : ∀ i, e.registry.viewers.get? id ≠ some i →
    e'.registry.sessions[i]? = e.registry.sessions[i]?

theorem DifferAt.refl (id : String) (e : Engine) : DifferAt id e e :=
  ⟨rfl, rfl, rfl, rfl, rfl, fun _ _ => rfl, fun _ _ => rfl⟩

theorem differAt_modifySession (hw : e.registry.WellFormed) {i : Nat}
    (hi : e.registry.viewers.get? id = some i) (f : Session → Session) :
    DifferAt id e (e.withRegistry (e.registry.modifySession i f)) where
  settings := rfl
  peers := rfl
  broadcasts := rfl
  streams := rfl
  viewers := rfl
  session_of_ne _ hne := session?_modifySession_of_ne hw hi f hne
  session_at j hj := by
    refine List.getElem?_modify_ne _ _ ?_
    rintro rfl
    exact hj hi

/-- A change of one session that keeps the keys of sessions changes no list of layers. -/
theorem layers_modifySession (e : Engine) (i : Nat) {f : Session → Session}
    (hf : ∀ s, (f s).streamKey = s.streamKey) (other : String) :
    (e.withRegistry (e.registry.modifySession i f)).layers other = e.layers other := by
  have hkey := map_session?_modifySession e.registry i hf other
  have hstream : ∀ key, (e.registry.modifySession i f).stream? key = e.registry.stream? key :=
    fun _ => rfl
  cases hs : e.registry.session? other with
  | none =>
    rw [hs, Option.map_none, Option.map_eq_none_iff] at hkey
    rw [layers_of_none hs, layers_of_none hkey]
  | some s =>
    rw [hs, Option.map_some] at hkey
    obtain ⟨t, ht, hst⟩ := Option.map_eq_some_iff.mp hkey
    rw [layers_of_some hs, layers_of_some ht, listed, listed, hst]
    exact congrArg _ (hstream s.streamKey ▸ rfl)

/-- Listing and selecting agree. For an id that is not registered both say so. For a session, a
selection is accepted exactly if the encoding is among those listed for it, and then the session has
that encoding, and its packet numbers are to be resynchronised only if it had another one; otherwise
the answer names the session and the encoding. Whatever is answered but success, nothing changes;
and in every case nothing changes but the session itself, the layers listed for anybody included. -/
theorem setLayer_iff_listed (h : e.Reachable) (id rid : String) :
    let found := (e.layers id).mapError TransportError.engine
    let answer := (e.setLayer id rid).2.mapError TransportError.engine
    let e' := (e.setLayer id rid).1
    (e.registry.session? id = none →
      found = .error (.sessionNotFound id) ∧ answer = .error (.sessionNotFound id)) ∧
    (∀ s, e.registry.session? id = some s → ∃ layers, found = .ok layers ∧
      (answer = .ok () ↔ rid ∈ layers.map (·.encodingId)) ∧
      (answer ≠ .ok () → answer = .error (.unknownLayer id rid)) ∧
      (answer = .ok () → e'.registry.session? id = some { s with
        layer := some rid
        rewriter := if s.layer = some rid then s.rewriter else s.rewriter.resync })) ∧
    (answer ≠ .ok () → e' = e) ∧ DifferAt id e e' ∧ ∀ other, e'.layers other = e.layers other := by
  intro found answer e'
  have hw : e.registry.WellFormed := h.settled.wellFormed
  cases hs : e.registry.session? id with
  | none =>
    have hset := setLayer_of_none hs rid
    have hanswer : answer = .error (.sessionNotFound id) :=
      congrArg (fun x => Except.mapError TransportError.engine x.2) hset
    have hsame : e' = e := congrArg Prod.fst hset
    have hfound : found = .error (.sessionNotFound id) :=
      congrArg (Except.mapError TransportError.engine) (layers_of_none hs)
    refine ⟨fun _ => ⟨hfound, hanswer⟩, fun s hsome => absurd hsome (by simp), fun _ => hsame, ?_⟩
    rw [hsame]
    exact ⟨.refl id e, fun _ => rfl⟩
  | some s =>
    obtain ⟨i, hi, hat⟩ := exists_place hs
    have hset := setLayer_eq hi hat rid
    have hfound : found = .ok (e.listed s) :=
      congrArg (Except.mapError TransportError.engine) (layers_of_some hs)
    have hmem : rid ∈ (e.listed s).map (·.encodingId) ↔
        e.registry.offers s.streamKey rid = true := by
      rw [← mem_listed, List.mem_map]
    by_cases hoffered : e.registry.offers s.streamKey rid = true
    · rw [if_pos hoffered] at hset
      have hanswer : answer = .ok () :=
        congrArg (fun x => Except.mapError TransportError.engine x.2) hset
      have he' : e' = e.withRegistry (e.registry.modifySession i (·.selecting rid)) :=
        congrArg Prod.fst hset
      refine ⟨fun hnone => absurd hnone (by simp), fun t ht => ?_, fun hno => absurd hanswer hno, ?_⟩
      · obtain rfl := Option.some.inj ht
        refine ⟨e.listed s, hfound, iff_of_true hanswer (hmem.mpr hoffered),
          fun hno => absurd hanswer hno, fun _ => ?_⟩
        rw [he']
        exact (session?_modifySession_self hi _).trans (congrArg (Option.map _) hs)
      · rw [he']
        exact ⟨differAt_modifySession hw hi _, layers_modifySession e i fun _ => rfl⟩
    · rw [if_neg hoffered] at hset
      have hanswer : answer = .error (.unknownLayer id rid) :=
        congrArg (fun x => Except.mapError TransportError.engine x.2) hset
      have hsame : e' = e := congrArg Prod.fst hset
      have hno : answer ≠ .ok () := by
        rw [hanswer]
        simp
      refine ⟨fun hnone => absurd hnone (by simp), fun t ht => ?_, fun _ => hsame, ?_⟩
      · obtain rfl := Option.some.inj ht
        exact ⟨e.listed s, hfound, iff_of_false hno (mt hmem.mp hoffered), fun _ => hanswer,
          fun hok => absurd hok hno⟩
      · rw [hsame]
        exact ⟨.refl id e, fun _ => rfl⟩

/-- A viewer who has seen nothing yet selects the one encoding of the publisher. -/
theorem setLayer_iff_listed_attended :
    (attended.setLayer "v" "h").2.mapError TransportError.engine = .ok () ∧
      (attended.setLayer "v" "l").1 = attended := by
  obtain ⟨-, hheard, -, -, -⟩ := setLayer_iff_listed reachable_attended "v" "h"
  obtain ⟨layers, hlayers, haccepted, -, -⟩ := hheard _ rfl
  obtain rfl := Except.ok.inj hlayers
  obtain ⟨-, -, hrefused, -, -⟩ := setLayer_iff_listed reachable_attended "v" "l"
  exact ⟨haccepted.mpr (by decide), hrefused (by decide)⟩

end Engine

end BroadcastRelay
