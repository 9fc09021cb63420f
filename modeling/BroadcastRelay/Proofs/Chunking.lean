import BroadcastRelay.Proofs.Publishing
/-!
# How a body is cut does not matter

A body arrives in chunks, and where one ends and the next begins says nothing. What is read of it is
a function of its bytes taken together and of how it ends (`Body.read_eq`): a limit that is passed
inside a chunk, at the end of one or over empty ones is passed all the same, and a character cut by
the end of a chunk is whole again before anything is made of it (`readOffer_eq_ok_iff`).

So requests whose bodies have the same bytes (`Body.SameBytes`) are answered by the same dialogue,
which is to say with the same questions and the same response, and a body that breaks off or is too
long never gets as far as the engine (`answered_by_bytes`).
-/

namespace BroadcastRelay

/-- What a dialogue never asks is not asked in any run of it. -/
theorem Dialogue.Never.not_mem_calls {α σ : Type} {p : Call → Prop} {d : Dialogue α}
    (h : d.Never p) (answer : Backend σ) (s : σ) {c : Call} (hc : c ∈ (d.run answer s).calls) :
    ¬ p c := by
  induction d generalizing s with
  | done a => exact absurd hc List.not_mem_nil
  | call c' next ih =>
    rcases List.mem_cons.mp hc with rfl | hc
    · exact h.1
    · exact ih _ (h.2 _) _ hc

namespace Http.Body

/-- The body ends well and stays within the limit. -/
def Arrives (b : Body) (limit : Nat) : Prop :=
  b.failure = none ∧ b.chunks.flatten.length ≤ limit

/-- Two bodies have the same bytes, in whatever chunks, and end in the same way. -/
structure SameBytes (b b' : Body) : Prop where
  bytes_eq : b.chunks.flatten = b'.chunks.flatten
  failure_eq : b.failure = b'.failure

theorem SameBytes.read_eq {b b' : Body} (h : b.SameBytes b') (limit : Nat) :
    b.read limit = b'.read limit := by
  rw [Body.read_eq, Body.read_eq, h.bytes_eq, h.failure_eq]

theorem exists_read_of_not_arrives {b : Body} {limit : Nat} (h : ¬ b.Arrives limit) :
    ∃ text, b.read limit = .error text := by
  cases hread : b.read limit with
  | error text => exact ⟨text, rfl⟩
  | ok bytes =>
    obtain ⟨hfailure, hlength, -⟩ := read_eq_ok_iff.mp hread
    exact absurd ⟨hfailure, hlength⟩ h

end Http.Body

/-- What can be read is exactly what is well formed. -/
theorem Utf8.exists_decode?_iff {bytes : Bytes} :
    (∃ text, decode? bytes = some text) ↔ (ByteArray.mk bytes.toArray).IsValidUTF8 := by
  constructor
  · rintro ⟨text, htext⟩
    have hbytes : ByteArray.mk bytes.toArray = text.toByteArray := by
      rw [decode?_eq_some_iff.mp htext]
      simp [encode]
    exact hbytes ▸ text.isValidUTF8
  · intro h
    have hbytes : bytes = encode (String.ofByteArray ⟨bytes.toArray⟩ h) := by simp [encode]
    exact ⟨_, decode?_eq_some_iff.mpr hbytes⟩

namespace Gateway

open Http

/-! ## Reading -/

theorem readBody_of_arrives {b : Body} (h : b.Arrives maxBodyBytes) :
    readBody b = .ok b.chunks.flatten := by
  rw [readBody, Body.read_eq_ok_iff.mpr ⟨h.1, h.2, rfl⟩]
  rfl

theorem readBody_of_not_arrives {b : Body} (h : ¬ b.Arrives maxBodyBytes) :
    ∃ text, readBody b = .error (.bodyRead text) := by
  obtain ⟨text, htext⟩ := Body.exists_read_of_not_arrives h
  exact ⟨text, by rw [readBody, htext]; rfl⟩

theorem readLayerRequest_of_arrives {b : Body} (h : b.Arrives maxBodyBytes) :
    readLayerRequest b = (Json.decode LayerRequest.record.read b.chunks.flatten).mapError
      fun e => .decode e.message := by
  rw [readLayerRequest, readBody_of_arrives h]
  rfl

theorem readLayerRequest_of_not_arrives {b : Body} (h : ¬ b.Arrives maxBodyBytes) :
    ∃ text, readLayerRequest b = .error (.bodyRead text) := by
  obtain ⟨text, htext⟩ := readBody_of_not_arrives h
  exact ⟨text, by rw [readLayerRequest, htext]; rfl⟩

theorem readBody_congr {b b' : Body} (h : b.SameBytes b') : readBody b = readBody b' := by
  rw [readBody, readBody, h.read_eq]

theorem readOffer_congr {b b' : Body} (h : b.SameBytes b') : readOffer b = readOffer b' := by
  rw [readOffer, readOffer, readBody_congr h]

theorem readLayerRequest_congr {b b' : Body} (h : b.SameBytes b') :
    readLayerRequest b = readLayerRequest b' := by
  rw [readLayerRequest, readLayerRequest, readBody_congr h]

/-- An offer is the text of all the bytes, if they arrive and are a text. -/
theorem readOffer_eq_ok_iff {b : Body} {offer : String} :
    readOffer b = .ok offer ↔ b.Holds maxBodyBytes offer := by
  refine ⟨holds_of_readOffer, fun h => ?_⟩
  rcases readOffer_cases b with ⟨offer', hoffer, hholds⟩ | ⟨e, -, -, hnot⟩
  · rw [hoffer, hholds.unique h]
  · exact absurd h (hnot offer)

theorem exists_readOffer_iff {b : Body} :
    (∃ offer, readOffer b = .ok offer) ↔ b.failure = none ∧
      b.chunks.flatten.length ≤ maxBodyBytes ∧
      (ByteArray.mk b.chunks.flatten.toArray).IsValidUTF8 := by
  simp only [readOffer_eq_ok_iff, Body.Holds, exists_and_left, ← Utf8.exists_decode?_iff,
    Utf8.decode?_eq_some_iff]

/-- A body that is no offer is refused as one that cannot be read. -/
theorem bodyRead_of_readOffer {b : Body} {e : ApiError} (h : readOffer b = .error e) :
    ∃ text, e = .bodyRead text := by
  rcases error_of_bind h with h | ⟨bytes, h⟩
  · rw [readBody] at h
    cases hread : b.read maxBodyBytes with
    | error text =>
      rw [hread] at h
      exact ⟨text, (Except.error.inj h).symm⟩
    | ok bytes =>
      rw [hread] at h
      cases h
  · split at h
    · cases h
    · exact ⟨_, (Except.error.inj h).symm⟩

/-! ## Answering -/

variable {withStatus : Bool} {r : Request} {b b' : Body}

/-- What a resource does depends on the bytes of the body alone. -/
theorem act_congr (resource : Resource) (r : Request) (h : b.SameBytes b') :
    resource.act { r with body := b } = resource.act { r with body := b' } := by
  cases resource with
  | publishers => simp only [Resource.act, publish, readOffer_congr h]
  | viewers => simp only [Resource.act, subscribe, readOffer_congr h]
  | layer id => simp only [Resource.act, selectLayer, readLayerRequest_congr h]
  | events | streams | statuses | status | health => rfl

theorem respond_congr (withStatus : Bool) (r : Request) (h : b.SameBytes b') :
    respond withStatus { r with body := b } = respond withStatus { r with body := b' } := by
  have hanswer : ∀ resource? : Option Resource,
      answer resource? { r with body := b } = answer resource? { r with body := b' } := by
    intro resource?
    cases resource? with
    | none => rfl
    | some resource => simp only [answer, Resource.respond, act_congr resource r h]
  simp only [respond, hanswer]

/-! ## Bodies that do not arrive -/

/-- The engine is asked. -/
def IsEngine (c : Call) : Prop := c.isStore = false

theorem exists_error_of_not_arrives (h : ¬ b.Arrives maxBodyBytes) :
    ∃ e, readOffer b = .error e := by
  cases hread : readOffer b with
  | error e => exact ⟨e, rfl⟩
  | ok offer =>
    obtain ⟨hfailure, hlength, -⟩ := readOffer_eq_ok_iff.mp hread
    exact absurd ⟨hfailure, hlength⟩ h

theorem never_publish (h : ¬ r.body.Arrives maxBodyBytes) : (publish r).Never IsEngine := by
  obtain ⟨e, he⟩ := exists_error_of_not_arrives h
  unfold publish authorizePublisher
  rw [he]
  split
  · trivial
  · refine ⟨by simp [IsEngine, Call.isStore], fun found => ?_⟩
    match found with
    | .error e => trivial
    | .ok none => trivial
    | .ok (some streamer) => trivial

theorem never_subscribe (h : ¬ r.body.Arrives maxBodyBytes) : (subscribe r).Never IsEngine := by
  obtain ⟨e, he⟩ := exists_error_of_not_arrives h
  unfold subscribe
  rw [he]
  split <;> trivial

theorem never_selectLayer (h : ¬ r.body.Arrives maxBodyBytes) (id : String) :
    (selectLayer id r).Never IsEngine := by
  obtain ⟨text, htext⟩ := readLayerRequest_of_not_arrives h
  rw [selectLayer, htext]
  trivial

/-- Nothing that is posted gets to the engine without its body. -/
theorem never_respond_post (hpost : r.method = "POST") (h : ¬ r.body.Arrives maxBodyBytes) :
    (respond withStatus r).Never IsEngine := by
  rw [respond_of_ne_options (by simp [hpost])]
  refine Dialogue.Never.map ?_ _
  cases Resource.ofPath? withStatus r.uri.path with
  | none => trivial
  | some resource =>
    rw [answer, Resource.respond]
    split
    · rename_i hallowed
      refine Dialogue.Never.map ?_ _
      rw [hpost] at hallowed
      cases resource with
      | publishers =>
        rw [Resource.act, if_neg (by simp [hpost])]
        exact never_publish h
      | viewers => exact never_subscribe h
      | layer id =>
        rw [Resource.act, Resource.withParameter]
        split
        · exact never_selectLayer h _
        · trivial
      | events | streams | statuses | status | health =>
        exact absurd hallowed (by simp [Resource.methods])
    · trivial

/-- However a body is cut into chunks, an offer is read from it exactly if it ends well, holds at
most 1 MiB and is UTF-8 as a whole, and then the offer is the text that its bytes encode. Requests
that differ in how their bodies are cut have one dialogue: they ask the store and the engine the
same questions, and are answered alike whatever these say. A body that does not arrive keeps any
POST from the engine. -/
theorem answered_by_bytes (withStatus : Bool) :
    (∀ b : Body,
      ((∃ offer, readOffer b = .ok offer) ↔ b.failure = none ∧ b.chunks.flatten.length ≤ 1048576 ∧
        (ByteArray.mk b.chunks.flatten.toArray).IsValidUTF8) ∧
      (∀ offer, readOffer b = .ok offer → b.chunks.flatten = Utf8.encode offer) ∧
      ∀ e, readOffer b = .error e → ∃ text, e = .bodyRead text) ∧
    (∀ (r : Request) (b b' : Body), b.SameBytes b' →
      respond withStatus { r with body := b } = respond withStatus { r with body := b' }) ∧
    ∀ r : Request, r.method = "POST" →
      r.body.failure ≠ none ∨ 1048576 < r.body.chunks.flatten.length →
      ∀ {σ : Type} (backend : Backend σ) (s : σ),
        ∀ c ∈ ((respond withStatus r).run backend s).calls, c.isStore = true := by
  refine ⟨fun b => ⟨exists_readOffer_iff, fun offer h => (readOffer_eq_ok_iff.mp h).2.2,
    fun e h => bodyRead_of_readOffer h⟩, fun r b b' h => respond_congr withStatus r h, ?_⟩
  intro r hpost hbody σ backend s c hc
  have hnot : ¬ r.body.Arrives maxBodyBytes := by
    rintro ⟨hfailure, hlength⟩
    rcases hbody with hbody | hbody
    · exact hbody hfailure
    · exact absurd hlength (Nat.not_le.mpr hbody)
  simpa [IsEngine] using (never_respond_post hpost hnot).not_mem_calls backend s hc

/-- A character cut in two is read, and a publisher's offer that holds it is answered alike; an
offer that breaks off stays with the store. -/
theorem answered_by_bytes_cut :
    let cut : Body := ⟨[[0xC3], [], [0xA9]], none⟩
    let whole : Body := ⟨[[0xC3, 0xA9]], none⟩
    let post (b : Body) : Request :=
      ⟨"POST", ⟨none, none, "/api/whip"⟩, [field "authorization" "Bearer live;t"], b⟩
    let stores := StoreAnswers.mk Store.find Store.streamKeys
    readOffer cut = .ok "é" ∧ respond true (post cut) = respond true (post whole) ∧
      ∀ c ∈ ((respond true (post ⟨cut.chunks, some "reset"⟩)).run (Relay.backend stores 0 "p")
        ⟨.memory ⟨[⟨"ann", ["live"], "t"⟩]⟩, .hostOnly, .fresh⟩).calls, c.isStore = true := by
  intro cut whole post stores
  obtain ⟨hreads, hsame, hkept⟩ := answered_by_bytes true
  have hvalid : (ByteArray.mk cut.chunks.flatten.toArray).IsValidUTF8 :=
    Utf8.exists_decode?_iff.mp ⟨"é", by decide⟩
  obtain ⟨offer, hoffer⟩ := (hreads cut).1.mpr ⟨rfl, by decide, hvalid⟩
  have hdecoded := Utf8.decode?_eq_some_iff.mpr ((hreads cut).2.1 offer hoffer)
  have heq : offer = "é" := Option.some.inj (hdecoded.symm.trans (by decide))
  exact ⟨heq ▸ hoffer, hsame (post cut) cut whole ⟨rfl, rfl⟩,
    hkept (post ⟨cut.chunks, some "reset"⟩) rfl (Or.inl (by simp [post])) _ _⟩

end Gateway

end BroadcastRelay
