import BroadcastRelay.Proofs.Interleaving
import BroadcastRelay.Proofs.Registry
import Mathlib.Data.List.Induction
/-!
# Orphans

A session is an orphan if the broadcast that it was made on is not the one registered under its
key, and so is a publisher that was told that it is on air. Interleaved negotiations can make
orphans (`orphaned_viewer`): between the look-up of a broadcast and the registration of its session
the failure of another negotiation prunes the key.

That is the only way. What is not an orphan does not become one (`Registry.Keeps`), whatever the
other negotiations do, so a run is free of orphans exactly if at each registration the broadcast is
still the registered one (`sound_iff_timely`). A prune that spared the broadcasts that errands hold
would be enough (`sound_of_spares`).
-/

namespace BroadcastRelay

namespace Registry

variable {r r' r'' : Registry}

/-- Every session is on the broadcast registered under its key. -/
def Seated (r : Registry) : Prop :=
  ∀ id s, r.session? id = some s → r.streams.get? s.streamKey = some s.broadcast

/-- The publisher is on the broadcast registered under the key, if it is still in its slot. -/
def OnAir (r : Registry) (key : String) (broadcast : Nat) (p : Publisher) : Prop :=
  r.slot broadcast = some p → r.streams.get? key = some broadcast

theorem seated_iff :
    r.Seated ↔ ∀ id key b, r.seat? id = some (key, b) → r.streams.get? key = some b := by
  constructor
  · intro h id key b hseat
    obtain ⟨s, hs, rfl, rfl⟩ := seat?_eq_some_iff.mp hseat
    exact h id s hs
  · intro h id s hs
    exact h id s.streamKey s.broadcast (seat?_eq_some_iff.mpr ⟨s, hs, rfl, rfl⟩)

/-! ## What is no orphan does not become one -/

/-- The later registry has no orphans that the earlier one has not, new connections apart. -/
structure Keeps (r r' : Registry) : Prop where
  wellFormed : r'.WellFormed
  peers_le : r.peers.length ≤ r'.peers.length
  seated : r.Seated → r'.Seated
  onAir : ∀ {key b p}, p.peer < r.peers.length → r.OnAir key b p → r'.OnAir key b p

theorem Keeps.trans (h : r.Keeps r') (h' : r'.Keeps r'') : r.Keeps r'' where
  wellFormed := h'.wellFormed
  peers_le := h.peers_le.trans h'.peers_le
  seated hs := h'.seated (h.seated hs)
  onAir hp ho := h'.onAir (hp.trans_le h.peers_le) (h.onAir hp ho)

/-- A step makes no orphans if it unregisters nothing, seats nobody and fills no slot but for a new
connection. -/
theorem keeps_of_le (hw : r'.WellFormed) (hpeers : r.peers.length ≤ r'.peers.length)
    (hstream : ∀ key b, r.streams.get? key = some b → r'.streams.get? key = some b)
    (hseat : ∀ id seat, r'.seat? id = some seat → r.seat? id = some seat)
    (hslot : ∀ b p, p.peer < r.peers.length → r'.slot b = some p → r.slot b = some p) :
    r.Keeps r' where
  wellFormed := hw
  peers_le := hpeers
  seated hs := seated_iff.mpr fun id key b hk =>
    hstream key b (seated_iff.mp hs id key b (hseat id _ hk))
  onAir hp ho hb := hstream _ _ (ho (hslot _ _ hp hb))

namespace WellFormed

theorem keeps_refl (h : r.WellFormed) : r.Keeps r := ⟨h, le_rfl, id, fun _ ho => ho⟩

theorem keeps_openPeer (h : r.WellFormed) (role : Role) : r.Keeps (r.openPeer role).1 :=
  keeps_of_le (h.openPeer role) (by simp [Registry.openPeer]) (fun _ _ hb => hb) (fun _ _ hs => hs)
    fun _ _ _ hp => hp

theorem keeps_cancel (h : r.WellFormed) (peer : Nat) : r.Keeps (r.cancel peer) :=
  keeps_of_le (h.cancel peer) (by simp [Registry.cancel]) (fun _ _ hb => hb) (fun _ _ hs => hs)
    fun _ _ _ hp => hp

theorem keeps_close (h : r.WellFormed) (peer : Nat) : r.Keeps (r.close peer) :=
  keeps_of_le (h.close peer) (by simp [Registry.close]) (fun _ _ hb => hb) (fun _ _ hs => hs)
    fun _ _ _ hp => hp

theorem keeps_streamOrCreate (h : r.WellFormed) (now : UInt64) (key : String) :
    r.Keeps (r.streamOrCreate now key).1 := by
  refine keeps_of_le (h.streamOrCreate now key) (by rw [peers_streamOrCreate])
    (fun _ _ hb => get?_streamOrCreate_of_some hb) (fun id seat hs => ?_) fun b p _ hp => ?_
  · rwa [seat?_streamOrCreate] at hs
  · rwa [slot_streamOrCreate] at hp

/-- The slot gets a connection that is new. -/
theorem keeps_replacePublisher (h : r.WellFormed) (i : Nat) (id : String) :
    r.Keeps (((r.openPeer (.publisher i id)).1.replacePublisher i ⟨id, r.peers.length⟩).1) := by
  have hopen := h.keeps_openPeer (.publisher i id)
  refine keeps_of_le (hopen.wellFormed.replacePublisher i _) hopen.peers_le (fun _ _ hb => hb)
    (fun _ _ hs => hs) fun b p hp hslot => ?_
  by_cases hb : b = i
  · subst hb
    rw [eq_of_slot_replacePublisher_self hslot] at hp
    exact absurd hp (lt_irrefl _)
  · rwa [slot_replacePublisher_of_ne _ _ hb] at hslot

theorem keeps_clearPublisher (h : r.WellFormed) (i : Nat) (id : String) :
    r.Keeps (r.clearPublisher i id).1 :=
  keeps_of_le (h.clearPublisher i id) le_rfl (fun _ _ hb => hb) (fun _ _ hs => hs)
    fun _ _ _ hp => slot_of_clearPublisher hp

theorem keeps_removeSession (h : r.WellFormed) (id : String) : r.Keeps (r.removeSession id).1 :=
  keeps_of_le (h.removeSession id) le_rfl (fun _ _ hb => hb)
    (fun _ _ hs => seat?_of_removeSession hs) fun _ _ _ hp => hp

theorem keeps_subscribe (h : r.WellFormed) (session : Nat) :
    r.Keeps (Engine.subscribe r session) := by
  refine keeps_of_le (h.modifySession session fun _ => rfl) le_rfl (fun _ _ hb => hb)
    (fun id seat hs => ?_) fun _ _ _ hp => hp
  have hsame := seat?_modifySession r session (f := fun s => { s with subscribed := true })
    (fun _ => ⟨rfl, rfl⟩) id
  exact hsame.symm.trans hs

theorem keeps_dismiss (h : r.WellFormed) (previous : Option Publisher) :
    r.Keeps (Engine.dismiss r previous) := by
  cases previous with
  | none => exact h.keeps_refl
  | some p => exact (h.keeps_cancel p.peer).trans ((h.cancel p.peer).keeps_close p.peer)

/-- What is live is not pruned. -/
theorem keeps_prune (h : r.WellFormed) (key : String) : r.Keeps (r.prune key) where
  wellFormed := h.prune key
  peers_le := by rw [peers_prune]
  seated hs := by
    refine seated_iff.mpr fun id k b hseat => ?_
    rw [seat?_prune] at hseat
    exact (get?_prune h).mpr
      ⟨seated_iff.mp hs id k b hseat, fun heq => Or.inr ⟨id, b, heq ▸ hseat⟩⟩
  onAir {k b p} _ ho hslot := by
    rw [slot_prune] at hslot
    exact (get?_prune h).mpr ⟨ho hslot, fun heq => Or.inl ⟨b, p, heq ▸ ho hslot, hslot⟩⟩

/-- A session is no orphan if its broadcast is still registered when the session is. -/
theorem keeps_insertSession (h : r.WellFormed) {s : Session}
    (hs : r.streams.get? s.streamKey = some s.broadcast) : r.Keeps (r.insertSession s).1 where
  wellFormed := h.insertSession s
  peers_le := le_rfl
  seated hseated := by
    refine seated_iff.mpr fun id key b hseat => ?_
    rw [seat?_insertSession h] at hseat
    split at hseat
    · obtain ⟨rfl, rfl⟩ := Prod.mk.inj (Option.some.inj hseat)
      exact hs
    · exact seated_iff.mp hseated id key b hseat
  onAir _ ho := ho

end WellFormed

end Registry

/-! ## One step of an errand -/

namespace Errand

variable {r : Registry}

/-- If the errand is about to register a session, or to tell a publisher that it is on air, then its
broadcast is still the registered one. -/
def Timely (r : Registry) : Errand → Prop
  | attach key _ failure broadcast =>
    failure ≠ some .connection → failure ≠ some .tracks → r.streams.get? key = some broadcast
  | answerPublisher key id none broadcast peer => r.OnAir key broadcast ⟨id, peer⟩
  | _ => True

/-- The key that the errand is for and the broadcast that it has looked up under it. -/
def holds? : Errand → Option (String × Nat)
  | attach key _ _ b | install key _ _ b | dismiss key _ _ b _ _ | answerPublisher key _ _ b _ =>
    some (key, b)
  | _ => none

/-- The connection of a publisher that has been put into a slot. -/
def airing? : Errand → Option Nat
  | dismiss _ _ _ _ peer _ | answerPublisher _ _ _ _ peer | published _ _ _ peer => some peer
  | _ => none

theorem keeps_leave (h : r.WellFormed) (key id : String) (peer : Nat) :
    r.Keeps (leave r key id peer).1 := by
  have hcancel := h.keeps_cancel peer
  have hremove := hcancel.wellFormed.keeps_removeSession id
  exact (hcancel.trans hremove).trans (hremove.wellFormed.keeps_close peer)

theorem keeps_retire (h : r.WellFormed) (peer : Nat) (open? : Option Nat) (role : Role) :
    r.Keeps (retire r peer open? role).1 := by
  have hcancel := h.keeps_cancel peer
  cases role with
  | publisher broadcast id =>
    rw [retire_publisher_fst]
    exact hcancel.trans (hcancel.wellFormed.keeps_clearPublisher broadcast id)
  | viewer id key => exact hcancel.trans (hcancel.wellFormed.keeps_removeSession id)

/-- A timely step makes no orphans. -/
theorem keeps_step (h : r.WellFormed) (now : UInt64) {errand : Errand} (ht : errand.Timely r) :
    r.Keeps (errand.step now r).1 := by
  cases errand with
  | egress key id failure => exact h.keeps_streamOrCreate now key
  | attach key id failure broadcast =>
    have hopen := h.keeps_openPeer (.viewer id key)
    have hleave := hopen.trans (keeps_leave hopen.wellFormed key id r.peers.length)
    have hinsert (hb : r.streams.get? key = some broadcast) := hopen.trans
      (hopen.wellFormed.keeps_insertSession (s := .fresh id key broadcast r.peers.length) hb)
    rcases failure with _ | _ | _ | _
    · exact hinsert (ht (by simp) (by simp))
    · exact h.keeps_refl
    · exact hleave
    · exact hinsert (ht (by simp) (by simp))
  | answerViewer key id failure session peer =>
    cases failure with
    | none => exact h.keeps_subscribe session
    | some step => exact keeps_leave h key id peer
  | ingest key id failure =>
    rcases failure with _ | _ | _ | _
    · exact h.keeps_streamOrCreate now key
    · exact h.keeps_refl
    · exact h.keeps_streamOrCreate now key
    · exact h.keeps_streamOrCreate now key
  | install key id failure broadcast => exact h.keeps_replacePublisher broadcast id
  | dismiss key id failure broadcast peer previous => exact h.keeps_dismiss previous
  | answerPublisher key id failure broadcast peer =>
    cases failure with
    | none => exact h.keeps_refl
    | some step =>
      have hcancel := h.keeps_cancel peer
      have hclear := hcancel.trans (hcancel.wellFormed.keeps_clearPublisher broadcast id)
      exact hclear.trans (hclear.wellFormed.keeps_close peer)
  | published key id broadcast peer => exact h.keeps_refl
  | report peer state =>
    simp only [step]
    split
    · exact keeps_retire h peer _ _
    · exact h.keeps_refl
  | rest key peer =>
    have hprune : r.Keeps ((key.map r.prune).getD r) := by
      cases key with
      | none => exact h.keeps_refl
      | some key => exact h.keeps_prune key
    cases peer with
    | none => exact hprune
    | some peer => exact hprune.trans (hprune.wellFormed.keeps_close peer)
  | done => exact h.keeps_refl

/-- After a report no broadcast is held and no publisher is in a slot. -/
theorem report_step (now : UInt64) (r : Registry) (peer : Nat) (state : PeerState) :
    (Errand.step now r (.report peer state)).2.airing? = none ∧
      (Errand.step now r (.report peer state)).2.holds? = none := by
  rcases report_snd now r peer state with h | ⟨key, open?, h⟩ <;> rw [h] <;> exact ⟨rfl, rfl⟩

/-- A step puts a publisher into a slot only where it installs one. -/
theorem airing_of_step {now : UInt64} {errand : Errand} {i : Nat}
    (hi : (errand.step now r).2.airing? = some i) :
    errand.airing? = some i ∨ ∃ key id failure b, errand = install key id failure b ∧
      i = r.peers.length := by
  cases errand with
  | install key id failure broadcast =>
    exact Or.inr ⟨key, id, failure, broadcast, rfl, (Option.some.inj hi).symm⟩
  | dismiss key id failure broadcast peer previous => exact Or.inl hi
  | answerPublisher key id failure broadcast peer =>
    cases failure with
    | none => exact Or.inl hi
    | some step => exact absurd hi (by simp [Errand.step, airing?])
  | published key id broadcast peer => exact Or.inl hi
  | egress key id failure => exact absurd hi (by simp [step, airing?])
  | attach key id failure broadcast =>
    rcases failure with _ | _ | _ | _ <;> exact absurd hi (by simp [step, leave, airing?])
  | answerViewer key id failure session peer =>
    cases failure <;> exact absurd hi (by simp [step, leave, airing?])
  | ingest key id failure =>
    rcases failure with _ | _ | _ | _ <;> exact absurd hi (by simp [step, airing?])
  | report peer state => exact absurd ((report_step now r peer state).1.symm.trans hi) (by simp)
  | rest key peer => exact absurd hi (by simp [step, airing?])
  | done => exact absurd hi (by simp [step, airing?])

/-- The connection of a publisher in a slot has been made. -/
theorem airing_step (h : r.WellFormed) {now : UInt64} {errand : Errand} (ht : errand.Timely r)
    (hmade : ∀ i, errand.airing? = some i → i < r.peers.length) {i : Nat}
    (hi : (errand.step now r).2.airing? = some i) : i < (errand.step now r).1.peers.length := by
  rcases airing_of_step hi with hbefore | ⟨key, id, failure, b, rfl, rfl⟩
  · exact (hmade i hbefore).trans_le (keeps_step h now ht).peers_le
  · simp [step, Registry.replacePublisher, Registry.modifyBroadcast, Registry.openPeer]

/-- A publisher is told that it is on air by the answer to its offer. -/
theorem published_of_step {now : UInt64} {errand : Errand} {key id : String} {broadcast peer : Nat}
    (h : (errand.step now r).2 = published key id broadcast peer) :
    (errand.step now r).1 = r ∧ (errand = answerPublisher key id none broadcast peer ∨
      errand = published key id broadcast peer) := by
  have hi : (errand.step now r).2.airing? = some peer := by rw [h, airing?]
  rcases airing_of_step hi with hbefore | ⟨k, d, failure, b, rfl, -⟩
  · cases errand with
    | answerPublisher k d failure b p =>
      cases failure with
      | none =>
        obtain ⟨rfl, rfl, rfl, rfl⟩ := Errand.published.inj h
        exact ⟨rfl, Or.inl rfl⟩
      | some step => exact absurd h (by simp [Errand.step])
    | published k d b p => exact ⟨rfl, Or.inr h⟩
    | dismiss => exact absurd h (by simp [step])
    | _ => exact absurd hbefore (by simp [airing?])
  · exact absurd h (by simp [step])

/-- What an errand holds it held before, unless the step looked it up. -/
theorem holds_of_step {now : UInt64} {errand : Errand} {key : String} {b : Nat}
    (hb : (errand.step now r).2.holds? = some (key, b)) :
    errand.holds? = some (key, b) ∨ (errand.step now r).1.streams.get? key = some b := by
  have hlookup (k : String) (h : some (k, (r.streamOrCreate now k).2) = some (key, b)) :
      (r.streamOrCreate now k).1.streams.get? key = some b := by
    obtain ⟨rfl, rfl⟩ := Prod.mk.inj (Option.some.inj h)
    rw [Registry.get?_streamOrCreate, if_pos rfl]
  cases errand with
  | egress k id failure => exact Or.inr (hlookup k hb)
  | ingest k id failure =>
    rcases failure with _ | _ | _ | _
    · exact Or.inr (hlookup k hb)
    · exact absurd hb (by simp [step, holds?])
    · exact Or.inr (hlookup k hb)
    · exact Or.inr (hlookup k hb)
  | install k id failure broadcast => exact Or.inl hb
  | dismiss k id failure broadcast peer previous => exact Or.inl hb
  | answerPublisher k id failure broadcast peer =>
    cases failure with
    | none => exact absurd hb (by simp [step, holds?])
    | some step => exact absurd hb (by simp [Errand.step, holds?])
  | attach k id failure broadcast =>
    rcases failure with _ | _ | _ | _ <;> exact absurd hb (by simp [step, leave, holds?])
  | answerViewer k id failure session peer =>
    cases failure <;> exact absurd hb (by simp [step, leave, holds?])
  | report peer state => exact absurd ((report_step now r peer state).2.symm.trans hb) (by simp)
  | _ => exact absurd hb (by simp [step, holds?])

end Errand

/-! ## Runs -/

namespace Traffic

variable {t : Traffic} {m : Move}

/-- There are no orphans. -/
structure Sound (t : Traffic) : Prop where
  viewers : t.registry.Seated
  publishers : ∀ key id b peer, .published key id b peer ∈ t.errands →
    t.registry.OnAir key b ⟨id, peer⟩

/-- If the move registers something, then on the broadcast that is still the registered one. -/
def Timely (t : Traffic) : Move → Prop
  | .advance i _ => ∀ errand, t.errands[i]? = some errand → errand.Timely t.registry
  | _ => True

/-- What holds of all traffic as long as the moves are timely. -/
structure Orderly (t : Traffic) : Prop where
  wellFormed : t.registry.WellFormed
  /-- The connection of a publisher in a slot has been made. -/
  made : ∀ errand ∈ t.errands, ∀ i, errand.airing? = some i → i < t.registry.peers.length

theorem orderly_fresh : fresh.Orderly := ⟨Registry.wellFormed_fresh, by simp [fresh]⟩

theorem sound_fresh : fresh.Sound :=
  ⟨fun _ _ h => absurd h (by simp [fresh, Registry.fresh, Registry.session?]), by simp [fresh]⟩

theorem Orderly.start (h : t.Orderly) {errand : Errand} (hnone : errand.airing? = none) :
    (t.start errand).Orderly where
  wellFormed := h.wellFormed
  made e he i hi := by
    rcases List.mem_append.mp he with he | he
    · exact h.made e he i hi
    · rw [List.mem_singleton.mp he, hnone] at hi
      exact absurd hi (by simp)

theorem Sound.start (h : t.Sound) {errand : Errand} (hnone : errand.airing? = none) :
    (t.start errand).Sound where
  viewers := h.viewers
  publishers key id b peer hmem := by
    rcases List.mem_append.mp hmem with hmem | hmem
    · exact h.publishers key id b peer hmem
    · rw [← List.mem_singleton.mp hmem] at hnone
      exact absurd hnone (by simp [Errand.airing?])

theorem Orderly.move (h : t.Orderly) (ht : t.Timely m) : (t.move m).Orderly := by
  cases m with
  | egress key id failure => exact h.start rfl
  | ingest key id failure => exact h.start rfl
  | report peer state => exact h.start rfl
  | advance i now =>
    unfold Traffic.move
    cases hi : t.errands[i]? with
    | none => simpa only [hi] using h
    | some errand =>
      simp only [hi]
      have hkeeps := Errand.keeps_step h.wellFormed now (ht errand hi)
      refine ⟨hkeeps.wellFormed, fun e he j hj => ?_⟩
      rcases List.mem_or_eq_of_mem_set he with he | rfl
      · exact (h.made e he j hj).trans_le hkeeps.peers_le
      · exact Errand.airing_step h.wellFormed (ht errand hi)
          (h.made errand (List.mem_of_getElem? hi)) hj

/-- A timely move makes no orphans. -/
theorem Sound.move (hs : t.Sound) (h : t.Orderly) (ht : t.Timely m) : (t.move m).Sound := by
  cases m with
  | egress key id failure => exact hs.start rfl
  | ingest key id failure => exact hs.start rfl
  | report peer state => exact hs.start rfl
  | advance i now =>
    unfold Traffic.move
    cases hi : t.errands[i]? with
    | none => simpa only [hi] using hs
    | some errand =>
      simp only [hi]
      have hkeeps := Errand.keeps_step h.wellFormed now (ht errand hi)
      refine ⟨hkeeps.seated hs.viewers, fun key id b peer hmem => ?_⟩
      rcases List.mem_or_eq_of_mem_set hmem with hmem | heq
      · exact hkeeps.onAir (h.made _ hmem peer rfl) (hs.publishers key id b peer hmem)
      · obtain ⟨hsame, rfl | rfl⟩ := Errand.published_of_step heq.symm
        · rw [hsame]
          exact ht _ hi
        · exact hs.publishers key id b peer (List.mem_of_getElem? hi)

/-- A move that is not timely makes an orphan. -/
theorem timely_of_sound (h : t.Orderly) (hs : (t.move m).Sound) : t.Timely m := by
  cases m with
  | egress key id failure => trivial
  | ingest key id failure => trivial
  | report peer state => trivial
  | advance i now =>
    intro errand hi
    simp only [Traffic.move, hi] at hs
    cases errand with
    | attach key id failure broadcast =>
      intro hconnection htracks
      have hopen := h.wellFormed.openPeer (.viewer id key)
      have hseat := Registry.seat?_insertSession_self hopen
        (.fresh id key broadcast t.registry.peers.length)
      rcases failure with _ | _ | _ | _
      · exact Registry.seated_iff.mp hs.viewers id key broadcast hseat
      · exact absurd rfl hconnection
      · exact absurd rfl htracks
      · exact Registry.seated_iff.mp hs.viewers id key broadcast hseat
    | answerPublisher key id failure broadcast peer =>
      cases failure with
      | none =>
        refine hs.publishers key id broadcast peer ?_
        obtain ⟨hlt, -⟩ := List.getElem?_eq_some_iff.mp hi
        exact List.mem_set hlt _
      | some step => trivial
    | _ => trivial

/-- A run of timely moves ends without orphans. -/
theorem sound_run {moves : List Move}
    (h : ∀ pre m, pre ++ [m] <+: moves → (run pre).Timely m) :
    (run moves).Orderly ∧ (run moves).Sound := by
  induction moves using List.reverseRecOn with
  | nil => exact ⟨orderly_fresh, sound_fresh⟩
  | append_singleton moves m ih =>
    obtain ⟨horderly, hsound⟩ :=
      ih fun pre m' hpre => h pre m' (hpre.trans (List.prefix_append _ _))
    have ht := h moves m List.prefix_rfl
    rw [run_concat]
    exact ⟨horderly.move ht, hsound.move horderly ht⟩

/-- There are no orphans at any point of a run exactly if every move of it is timely. -/
theorem sound_iff_timely (moves : List Move) :
    (∀ pre, pre <+: moves → (run pre).Sound) ↔
      ∀ pre m, pre ++ [m] <+: moves → (run pre).Timely m := by
  constructor
  · intro hsound
    induction moves using List.reverseRecOn with
    | nil =>
      intro pre m hpre
      exact absurd (List.prefix_nil.mp hpre) (by simp)
    | append_singleton moves last ih =>
      have htimely := ih fun pre hpre => hsound pre (hpre.trans (List.prefix_append _ _))
      intro pre m hpre
      rcases List.prefix_concat_iff.mp hpre with heq | hbefore
      · obtain ⟨rfl, rfl⟩ := List.append_singleton_inj.mp heq
        have hlast := hsound _ List.prefix_rfl
        rw [run_concat] at hlast
        exact timely_of_sound (sound_run htimely).1 hlast
      · exact htimely pre m hbefore
  · intro htimely pre hpre
    exact (sound_run fun pre' m hpre' => htimely pre' m (hpre'.trans hpre)).2

/-- A negotiation that fails prunes the broadcast that another viewer has looked up, and the session
of that viewer is registered on it all the same. -/
theorem orphaned_viewer : ¬ ∀ moves, (run moves).Sound := by
  intro h
  have hsound := h [.egress "live" "a" none, .advance 0 0, .egress "live" "b" (some .offer),
    .advance 1 0, .advance 1 0, .advance 1 0, .advance 1 0, .advance 0 0]
  have hseat := hsound.viewers "a" _ rfl
  exact absurd hseat (by decide)

/-! ## What would prevent orphans -/

/-- Every broadcast that an errand holds is the one registered under its key. -/
def Spared (t : Traffic) : Prop :=
  ∀ errand ∈ t.errands, ∀ key b, errand.holds? = some (key, b) →
    t.registry.streams.get? key = some b

/-- The move takes no broadcast that an errand holds out of the registry. -/
def Spares (t : Traffic) (m : Move) : Prop :=
  ∀ errand ∈ t.errands, ∀ key b, errand.holds? = some (key, b) →
    t.registry.streams.get? key = some b → (t.move m).registry.streams.get? key = some b

theorem spared_fresh : fresh.Spared := by simp [Spared, fresh]

theorem Spared.timely (h : t.Spared) (m : Move) : t.Timely m := by
  cases m with
  | egress key id failure => trivial
  | ingest key id failure => trivial
  | report peer state => trivial
  | advance i now =>
    intro errand hi
    have hheld := h errand (List.mem_of_getElem? hi)
    cases errand with
    | attach key id failure broadcast => exact fun _ _ => hheld key broadcast rfl
    | answerPublisher key id failure broadcast peer =>
      cases failure with
      | none => exact fun _ => hheld key broadcast rfl
      | some step => trivial
    | _ => trivial

theorem Spared.start (h : t.Spared) {errand : Errand} (hnone : errand.holds? = none) :
    (t.start errand).Spared := by
  intro e he key b hholds
  rcases List.mem_append.mp he with he | he
  · exact h e he key b hholds
  · rw [List.mem_singleton.mp he, hnone] at hholds
    exact absurd hholds (by simp)

/-- What an errand holds stays registered over a move that spares it. -/
theorem Spared.move (h : t.Spared) (hm : t.Spares m) : (t.move m).Spared := by
  cases m with
  | egress key id failure => exact h.start rfl
  | ingest key id failure => exact h.start rfl
  | report peer state => exact h.start rfl
  | advance i now =>
    have hkept : ∀ e ∈ t.errands, ∀ key b, e.holds? = some (key, b) →
        (t.move (.advance i now)).registry.streams.get? key = some b :=
      fun e he key b hholds => hm e he key b hholds (h e he key b hholds)
    unfold Traffic.move at hkept ⊢
    cases hi : t.errands[i]? with
    | none => simpa only [hi] using h
    | some errand =>
      simp only [hi] at hkept ⊢
      intro e he key b hholds
      rcases List.mem_or_eq_of_mem_set he with he | rfl
      · exact hkept e he key b hholds
      · rcases Errand.holds_of_step hholds with hbefore | hregistered
        · exact hkept errand (List.mem_of_getElem? hi) key b hbefore
        · exact hregistered

/-- If no move takes a broadcast that an errand holds out of the registry, then there are no
orphans. -/
theorem sound_of_spares {moves : List Move}
    (h : ∀ pre m, pre ++ [m] <+: moves → (run pre).Spares m) : (run moves).Sound := by
  have hspared : ∀ pre, pre <+: moves → (run pre).Spared := by
    intro pre
    induction pre using List.reverseRecOn with
    | nil => exact fun _ => spared_fresh
    | append_singleton pre m ih =>
      intro hpre
      rw [run_concat]
      exact (ih ((List.prefix_append pre [m]).trans hpre)).move (h pre m hpre)
  exact (sound_run fun pre m hpre =>
    (hspared pre ((List.prefix_append pre [m]).trans hpre)).timely m).2

end Traffic

end BroadcastRelay
