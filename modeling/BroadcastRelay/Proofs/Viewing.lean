import BroadcastRelay.Proofs.Links
/-!
# Who may view

A broadcast is public: a viewer's request names a stream key and brings an offer, and nobody but
the engine is asked about it. `StoreAnswers.beside` puts a store of any kind beside an engine of any
kind, so that a request can be answered with one store and with another one and the same engine.

A viewer's request goes one of three ways, by the first check that fails (`run_of_header`,
`run_of_body`, `run_of_offer`), and none of them asks the store. `Viewed` says what a viewer gets,
and `viewed_of_post` that it is what every viewer gets, whatever the store.
-/

namespace BroadcastRelay

/-- A store and an engine side by side: questions about credentials go to the one, all others to the
other. -/
def StoreAnswers.beside {σ ε : Type} (stores : StoreAnswers σ) (engine : Backend ε) :
    Backend (σ × ε) :=
  fun c w =>
    match c with
    | .findStreamer key token =>
      ((stores.find w.1 key token).1, (stores.find w.1 key token).2, w.2)
    | .streamKeys => ((stores.streamKeys w.1).1, (stores.streamKeys w.1).2, w.2)
    | c => ((engine c w.2).1, w.1, (engine c w.2).2)

namespace Relay

variable {σ α : Type}

/-- The answers of the engine of a relay. -/
def engineAnswers (now : UInt64) (id : String) : Backend Engine :=
  fun c e =>
    let stores : StoreAnswers Unit := ⟨fun s _ _ => (.ok none, s), fun s => (.ok [], s)⟩
    let answered := backend stores now id c ⟨(), e⟩
    (answered.1, answered.2.engine)

theorem backend_eq (stores : StoreAnswers σ) (now : UInt64) (id : String) (c : Call) (s : σ)
    (e : Engine) :
    backend stores now id c ⟨s, e⟩ =
      let answered := stores.beside (engineAnswers now id) c (s, e)
      (answered.1, ⟨answered.2.1, answered.2.2⟩) := by
  cases c <;> rfl

/-- A relay answers a dialogue as its store and its engine do side by side. -/
theorem run_backend (stores : StoreAnswers σ) (now : UInt64) (id : String) (d : Dialogue α) (s : σ)
    (e : Engine) :
    d.run (backend stores now id) ⟨s, e⟩ =
      let o := d.run (stores.beside (engineAnswers now id)) (s, e)
      ⟨o.result, o.calls, ⟨o.backend.1, o.backend.2⟩⟩ := by
  induction d generalizing s e with
  | done a => rfl
  | call c next ih => simp only [Dialogue.run, backend_eq, ih]

end Relay

/-- Only the first field counts. -/
theorem readViewKey_first? (h : Http.Headers) (name : String) :
    readViewKey (h.first? name).toList = readViewKey (h.all name) := by
  rw [Http.Headers.first?]
  cases h.all name <;> rfl

namespace Http

theorem isValue_encode_append (s t : String) :
    isValue (Utf8.encode (s ++ t)) = (isValue (Utf8.encode s) && isValue (Utf8.encode t)) := by
  rw [Utf8.encode_append, isValue, List.all_append, isValue, isValue]

end Http

namespace Gateway

open Http

variable {σ τ ε : Type} {stores : StoreAnswers σ} {engine : Backend ε} {r : Request}
  {key offer : String}

/-! ## The links of a session -/

/-- A session whose id may stand in a header field gets its links. -/
theorem welcome_of_isValue {a : ViewerAnswer} (h : isValue (Utf8.encode a.sessionId) = true) :
    welcome "/api/whep" a = created "/api/whep"
      [Link.events "/api/" a.sessionId, Link.layer "/api/" a.sessionId] a.sdp := by
  have hbase : Link.base "/api/whep" = "/api/" := by decide
  have hevents : isValue (Utf8.encode (Link.events "/api/" a.sessionId)) = true := by
    simp only [Link.events, isValue_encode_append, h]
    decide
  have hlayer : isValue (Utf8.encode (Link.layer "/api/" a.sessionId)) = true := by
    simp only [Link.layer, isValue_encode_append, h]
    decide
  rw [welcome]
  simp only [hbase, List.all_cons, List.all_nil, hevents, hlayer, Bool.and_self, if_true]

/-! ## The three ways of a request -/

/-- What a viewer is told when the engine has answered. -/
def engineReply : Except EngineError ViewerAnswer → Response
  | .error x => refuse (.ofEngine x)
  | .ok a => welcome "/api/whep" a

section

variable {withStatus : Bool} (hpost : r.method = "POST") (hpath : r.uri.path = "/api/whep")
include hpost hpath

theorem respond_viewer :
    respond withStatus r = (subscribe r).map (·.withHeaders openFields) := by
  have hroute : Resource.ofPath? withStatus r.uri.path = some .viewers := by
    rw [hpath]
    rfl
  exact respond_of_allowed hroute (by simp [Resource.methods, hpost]) (by simp [hpost])

/-- The header is refused, and the body is not looked at. -/
theorem run_of_header {x : ApiError} (hkey : readViewKey (r.headers.all "authorization") = .error x)
    (s : σ) (e : ε) : (respond withStatus r).run (stores.beside engine) (s, e) =
      ⟨(refuse x).withHeaders openFields, [], (s, e)⟩ := by
  rw [respond_viewer hpost hpath, Dialogue.run_map, subscribe, hkey]
  rfl

/-- The header names a stream key, and the body is refused. -/
theorem run_of_body {x : ApiError} (hkey : readViewKey (r.headers.all "authorization") = .ok key)
    (hoffer : readOffer r.body = .error x) (s : σ) (e : ε) :
    (respond withStatus r).run (stores.beside engine) (s, e) =
      ⟨(refuse x).withHeaders openFields, [], (s, e)⟩ := by
  rw [respond_viewer hpost hpath, Dialogue.run_map, subscribe, hkey]
  simp only [hoffer]
  rfl

/-- The engine is asked. -/
theorem run_of_offer (hkey : readViewKey (r.headers.all "authorization") = .ok key)
    (hoffer : readOffer r.body = .ok offer) (s : σ) (e : ε) :
    (respond withStatus r).run (stores.beside engine) (s, e) =
      ⟨(engineReply (engine (.egress key offer) e).1).withHeaders openFields, [.egress key offer],
        (s, (engine (.egress key offer) e).2)⟩ := by
  rw [respond_viewer hpost hpath, Dialogue.run_map, subscribe, hkey]
  simp only [hoffer, hpath, Dialogue.run, StoreAnswers.beside]
  cases (engine (.egress key offer) e).1 <;> rfl

end

/-! ## What a viewer gets -/

/-- What a viewer's request comes to, by its first `Authorization` field, its body and the
engine. -/
structure Viewed (engine : Backend ε) (s : σ) (e : ε) (r : Request)
    (o : Dialogue.Outcome Response (σ × ε)) : Prop where
  /-- The store is not asked. -/
  not_store : ∀ c ∈ o.calls, c.isStore = false
  /-- Nor is it changed. -/
  store_eq : o.backend.1 = s
  /-- The engine is asked once, or left alone. -/
  asks : o.calls = [] ∧ o.backend.2 = e ∨ ∃ key offer,
    o.calls = [.egress key offer] ∧ o.backend.2 = (engine (.egress key offer) e).2
  /-- It is asked exactly if the field names a stream key and the body is an offer. -/
  asks_iff : ∀ key offer, o.calls = [.egress key offer] ↔
    readViewKey (r.headers.first? "authorization").toList = .ok key ∧
      r.body.Holds maxBodyBytes offer
  /-- A field that names none is refused, whatever the body. -/
  of_header : ∀ x, readViewKey (r.headers.first? "authorization").toList = .error x →
    o.result = (refuse x).withHeaders openFields ∧ o.result.status = 400
  /-- A body that is no offer is refused. -/
  of_body : ∀ key, readViewKey (r.headers.first? "authorization").toList = .ok key →
    (∀ offer, ¬ r.body.Holds maxBodyBytes offer) → o.result.status = 400
  /-- A failure of the engine is passed on. -/
  of_failure : ∀ key offer x, o.calls = [.egress key offer] →
    (engine (.egress key offer) e).1 = .error x →
      o.result = (refuse (.ofEngine x)).withHeaders openFields ∧ o.result.status = 400
  /-- The answer of the engine is passed on, with the links of the session. -/
  of_answer : ∀ key offer a, o.calls = [.egress key offer] →
    (engine (.egress key offer) e).1 = .ok a → isValue (Utf8.encode a.sessionId) = true →
      o.result.status = 201 ∧ o.result.body = Utf8.encode a.sdp ∧
        o.result.headers.all "link" = [Utf8.encode (Link.events "/api/" a.sessionId),
          Utf8.encode (Link.layer "/api/" a.sessionId)]

variable {s : σ} {e : ε}

/-- A request that is refused before the engine is asked. -/
theorem viewed_refused {x : ApiError} (hstatus : x.status = 400)
    (hnot : ∀ key offer, ¬ (readViewKey (r.headers.first? "authorization").toList = .ok key ∧
      r.body.Holds maxBodyBytes offer))
    (hfirst : ∀ y, readViewKey (r.headers.first? "authorization").toList = .error y → y = x) :
    Viewed engine s e r ⟨(refuse x).withHeaders openFields, [], (s, e)⟩ where
  not_store _ hc := absurd hc List.not_mem_nil
  store_eq := rfl
  asks := Or.inl ⟨rfl, rfl⟩
  asks_iff key offer := iff_of_false (by simp) (hnot key offer)
  of_header y hy := by
    rw [hfirst y hy]
    exact ⟨rfl, hstatus⟩
  of_body _ _ _ := hstatus
  of_failure _ _ _ hcalls := absurd hcalls (by simp)
  of_answer _ _ _ hcalls := absurd hcalls (by simp)

/-- A request that the engine is asked about. -/
theorem viewed_asked
    (hkey : readViewKey (r.headers.first? "authorization").toList = .ok key)
    (hholds : r.body.Holds maxBodyBytes offer) :
    Viewed engine s e r ⟨(engineReply (engine (.egress key offer) e).1).withHeaders openFields,
      [.egress key offer], (s, (engine (.egress key offer) e).2)⟩ where
  not_store c hc := by
    rw [List.mem_singleton.mp hc]
    rfl
  store_eq := rfl
  asks := Or.inr ⟨key, offer, rfl, rfl⟩
  asks_iff key' offer' := by
    constructor
    · intro hcalls
      obtain ⟨rfl, rfl⟩ := Call.egress.inj (List.singleton_inj.mp hcalls)
      exact ⟨hkey, hholds⟩
    · rintro ⟨hkey', hholds'⟩
      rw [Except.ok.inj (hkey.symm.trans hkey'), hholds.unique hholds']
  of_header x hx := absurd (hkey.symm.trans hx) (by simp)
  of_body _ _ hnot := absurd hholds (hnot offer)
  of_failure key' offer' x hcalls hx := by
    obtain ⟨rfl, rfl⟩ := Call.egress.inj (List.singleton_inj.mp hcalls)
    rw [hx]
    exact ⟨rfl, ApiError.status_ofEngine x⟩
  of_answer key' offer' a hcalls ha hid := by
    obtain ⟨rfl, rfl⟩ := Call.egress.inj (List.singleton_inj.mp hcalls)
    rw [ha, engineReply, welcome_of_isValue hid]
    refine ⟨rfl, rfl, ?_⟩
    simp [created, Response.sized, Response.withHeaders, openFields, field, Headers.all]

/-- Every viewer's request is answered without a look at the store, and as it would be with any
other store: the engine is asked exactly if the first `Authorization` field names a stream key and
the body is an offer, and its answer, or else the first check that fails, decides what the viewer
gets. -/
theorem viewed_of_post (withStatus : Bool) (stores : StoreAnswers σ) (engine : Backend ε)
    (r : Request) (s : σ) (e : ε) (hpost : r.method = "POST") (hpath : r.uri.path = "/api/whep") :
    let o := (respond withStatus r).run (stores.beside engine) (s, e)
    Viewed engine s e r o ∧
      ∀ {τ : Type} (others : StoreAnswers τ) (t : τ),
        let p := (respond withStatus r).run (others.beside engine) (t, e)
        p.result = o.result ∧ p.calls = o.calls ∧ p.backend.2 = o.backend.2 := by
  intro o
  have hfirst := readViewKey_first? r.headers "authorization"
  cases hkey : readViewKey (r.headers.all "authorization") with
  | error x =>
    have ho : o = _ := run_of_header hpost hpath hkey s e
    rw [ho]
    refine ⟨viewed_refused (status_of_readViewKey hkey) ?_ ?_, fun others t => ?_⟩
    · rintro key offer ⟨hkey', -⟩
      exact absurd (hkey.symm.trans (hfirst.symm.trans hkey')) (by simp)
    · exact fun y hy => Except.error.inj (hy.symm.trans (hfirst.trans hkey))
    · rw [run_of_header hpost hpath hkey t e]
      exact ⟨rfl, rfl, rfl⟩
  | ok key =>
    rcases readOffer_cases r.body with ⟨offer, hoffer, hholds⟩ | ⟨x, hoffer, hstatus, hnot⟩
    · have ho : o = _ := run_of_offer hpost hpath hkey hoffer s e
      rw [ho]
      refine ⟨viewed_asked (hfirst.trans hkey) hholds, fun others t => ?_⟩
      rw [run_of_offer hpost hpath hkey hoffer t e]
      exact ⟨rfl, rfl, rfl⟩
    · have ho : o = _ := run_of_body hpost hpath hkey hoffer s e
      rw [ho]
      refine ⟨viewed_refused hstatus (fun _ offer h => hnot offer h.2) ?_, fun others t => ?_⟩
      · exact fun y hy => absurd (hy.symm.trans (hfirst.trans hkey)) (by simp)
      · rw [run_of_body hpost hpath hkey hoffer t e]
        exact ⟨rfl, rfl, rfl⟩

/-- The engine lets a viewer of `live` in, although the store knows no stream key. -/
theorem viewed_of_post_viewer :
    let o := (respond true viewerRequest).run
      (StoreAnswers.beside ⟨Store.find, Store.streamKeys⟩ (Relay.engineAnswers 0 "s-1"))
      (.memory ⟨[]⟩, ⟨.hostOnly, .fresh⟩)
    o.calls = [.egress "live" (Sdp.render [])] ∧ o.result.status = 201 := by
  intro o
  obtain ⟨hviewed, -⟩ := viewed_of_post true ⟨Store.find, Store.streamKeys⟩
    (Relay.engineAnswers 0 "s-1") viewerRequest (.memory ⟨[]⟩) ⟨.hostOnly, .fresh⟩ rfl rfl
  have hcalls : o.calls = [.egress "live" (Sdp.render [])] :=
    (hviewed.asks_iff "live" (Sdp.render [])).mpr ⟨rfl, rfl, by decide, by simp [viewerRequest]⟩
  exact ⟨hcalls, (hviewed.of_answer "live" (Sdp.render []) ⟨_, "s-1"⟩ hcalls rfl (by decide)).1⟩

end Gateway

end BroadcastRelay
