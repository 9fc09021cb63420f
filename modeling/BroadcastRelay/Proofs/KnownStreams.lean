import BroadcastRelay.Proofs.Advertised
import BroadcastRelay.Proofs.StoreHistory
import BroadcastRelay.Proofs.Viewing
/-!
# Which streams have a status

Two routes ask the store for its keys: one lists them, the other looks one key up among them before
it asks the engine. They agree on which streams there are (`status_fits_list`), whatever the store
says. A key is written in a path as the id of a session is (`NamesSession`), and what comes out of
the path is judged before the store is asked (`run_of_invalid`), the store before the engine
(`run_of_unknown`, `run_of_known`).

The empty segment names nothing, so a request for it is not refused as one for a bad key would be
(`empty_segment_not_found`).
-/

namespace BroadcastRelay

namespace Gateway

open Http

/-! ## Routes -/

namespace Resource

variable {segment : String}

theorem ofPath?_status (hne : segment ≠ "") (hslash : '/' ∉ segment.toList) :
    ofPath? true ("/api/status/" ++ segment) = some (.status segment) := by
  have hsegments := segments_below (by decide : '/' ∉ "status".toList) segment
  have hpath : "/api/status/" ++ segment = "/api/" ++ "status" ++ "/" ++ segment := rfl
  rw [ofPath?, hpath, hsegments, segments_of_not_mem hslash]
  simp [hne]

/-- Where the status is withheld, no path below it names anything. -/
theorem ofPath?_withheld (rest : String) : ofPath? false ("/api/status/" ++ rest) = none := by
  have hsegments := segments_below (by decide : '/' ∉ "status".toList) rest
  have hpath : "/api/status/" ++ rest = "/api/" ++ "status" ++ "/" ++ rest := rfl
  rw [ofPath?, hpath, hsegments]
  cases segments rest with
  | nil => rfl
  | cons x xs => cases xs <;> simp

end Resource

/-! ## Requests -/

/-- A request to get what is at a path. -/
structure Gets (r : Request) (path : String) : Prop where
  method_eq : r.method = "GET"
  path_eq : r.uri.path = path

variable {σ : Type} {backend : Backend σ} {s : σ} {withStatus : Bool} {r : Request}
  {segment k : String} {keys : List String}

theorem respond_streams (h : Gets r "/api/streams") :
    respond withStatus r = listStreams.map (·.withHeaders openFields) := by
  have hroute : Resource.ofPath? withStatus r.uri.path = some .streams := by
    rw [h.path_eq]
    rfl
  exact respond_of_allowed hroute (by simp [Resource.methods, h.method_eq]) (by simp [h.method_eq])

theorem respond_status (h : Gets r ("/api/status/" ++ segment))
    (hsegment : NamesSession segment k) :
    respond true r = (showStatus k).map (·.withHeaders openFields) := by
  have hroute : Resource.ofPath? true r.uri.path = some (.status segment) :=
    h.path_eq ▸ Resource.ofPath?_status hsegment.nonempty hsegment.not_slash
  rw [respond_of_allowed hroute (by simp [Resource.methods, h.method_eq]) (by simp [h.method_eq]),
    Resource.act, Resource.withParameter, hsegment.decoded]

/-- Where the status is withheld, a request for any of it asks nobody. -/
theorem respond_withheld (hget : r.method = "GET")
    (hpath : r.uri.path = "/api/status" ∨ ∃ rest, r.uri.path = "/api/status/" ++ rest) :
    respond false r = .done ((Response.bare 404 []).withHeaders openFields) := by
  have hroute : Resource.ofPath? false r.uri.path = none := by
    rcases hpath with hpath | ⟨rest, hpath⟩
    · rw [hpath]
      rfl
    · rw [hpath, Resource.ofPath?_withheld]
  rw [respond_of_ne_options (by simp [hget]), hroute]
  rfl

/-! ## Showing the status of one stream -/

/-- A text that is no stream key is refused, and nobody is asked. -/
theorem run_of_invalid (hk : StreamKey.isValid k = false) (s : σ) :
    (showStatus k).run backend s = ⟨refuse .invalidStreamKey, [], s⟩ := by
  rw [showStatus, hk]
  rfl

/-- The store does not answer. -/
theorem run_of_outage (hk : StreamKey.isValid k = true) {x : StoreError}
    (hkeys : (backend .streamKeys s).1 = .error x) :
    (showStatus k).run backend s =
      ⟨refuse (.store x), [.streamKeys], (backend .streamKeys s).2⟩ := by
  rw [showStatus, hk]
  simp [Dialogue.run, hkeys]

/-- The store does not list the key. -/
theorem run_of_unknown (hk : StreamKey.isValid k = true)
    (hkeys : (backend .streamKeys s).1 = .ok keys) (hmem : k ∉ keys) :
    (showStatus k).run backend s =
      ⟨refuse (.streamNotFound k), [.streamKeys], (backend .streamKeys s).2⟩ := by
  rw [showStatus, hk]
  simp [Dialogue.run, hkeys, hmem]

/-- The store lists the key, and the engine is asked. -/
theorem run_of_known (hk : StreamKey.isValid k = true)
    (hkeys : (backend .streamKeys s).1 = .ok keys) (hmem : k ∈ keys) :
    (showStatus k).run backend s =
      let answered := backend (.status k) (backend .streamKeys s).2
      ⟨.json 200 (answered.1.getD (.idle k)).toJson, [.streamKeys, .status k], answered.2⟩ := by
  rw [showStatus, hk]
  simp [Dialogue.run, hkeys, hmem]

/-! ## The list and the status -/

/-- The list of streams and the status of one key say the same of it, from what the store answers
when it is asked for its keys. -/
structure StatusFits (backend : Backend σ) (s : σ) (k : String)
    (listed shown : Dialogue.Outcome Response σ) : Prop where
  /-- If it fails, both requests are answered alike. -/
  of_failure : ∀ x, (backend .streamKeys s).1 = .error x →
    listed.calls = [.streamKeys] ∧ shown.calls = [.streamKeys] ∧
      shown.result = listed.result ∧
      listed.result.status = if x.isTransient then 503 else 500
  /-- What it answers is what is listed. -/
  listed_of_keys : ∀ keys, (backend .streamKeys s).1 = .ok keys →
    listed.calls = [.streamKeys] ∧ listed.result.status = 200 ∧
      Json.decode (Document.readList Document.readString) listed.result.body = .ok keys
  /-- A stream that is listed has a status: that of the engine, or an idle one. -/
  of_mem : ∀ keys, (backend .streamKeys s).1 = .ok keys → k ∈ keys →
    shown.calls = [.streamKeys, .status k] ∧ shown.result.status = 200 ∧
      shown.result.body = Utf8.encode
        ((backend (.status k) (backend .streamKeys s).2).1.getD (.idle k)).toJson.render
  /-- A stream that is not listed has none, and the engine is not asked. -/
  of_not_mem : ∀ keys, (backend .streamKeys s).1 = .ok keys → k ∉ keys →
    shown.calls = [.streamKeys] ∧ shown.result.status = 404

theorem statusFits_of_isValid (hk : StreamKey.isValid k = true) (backend : Backend σ) (s : σ) :
    StatusFits backend s k ((listStreams.map (·.withHeaders openFields)).run backend s)
      (((showStatus k).map (·.withHeaders openFields)).run backend s) where
  of_failure x hkeys := by
    rw [Dialogue.run_map, Dialogue.run_map, run_of_outage hk hkeys]
    simp [listStreams, Dialogue.run, hkeys, refuse, Response.json, Response.sized,
      Response.withHeaders, ApiError.status]
  listed_of_keys keys hkeys := by
    rw [Dialogue.run_map]
    simp [listStreams, Dialogue.run, hkeys, Response.json, Response.sized, Response.withHeaders,
      Json.readsBack_strings.decode_render]
  of_mem keys hkeys hmem := by
    rw [Dialogue.run_map, run_of_known hk hkeys hmem]
    exact ⟨rfl, rfl, rfl⟩
  of_not_mem keys hkeys hmem := by
    rw [Dialogue.run_map, run_of_unknown hk hkeys hmem]
    exact ⟨rfl, rfl⟩

/-- The list of streams and the status of one agree, whatever the store and the engine answer. A
path parameter that is no stream key is refused before anyone is asked, and where the status is
withheld nobody is asked at all. With a store in memory the streams that have a status are those
that some credential is for. -/
theorem status_fits_list :
    (∀ {σ : Type} (backend : Backend σ) (s : σ) (withStatus : Bool) (l r : Request)
      (segment k : String), Gets l "/api/streams" → Gets r ("/api/status/" ++ segment) →
      NamesSession segment k →
      (StreamKey.isValid k = true → StatusFits backend s k
        ((respond withStatus l).run backend s) ((respond true r).run backend s)) ∧
      (StreamKey.isValid k = false → ((respond true r).run backend s).result.status = 400 ∧
        ((respond true r).run backend s).calls = [])) ∧
    (∀ {σ : Type} (backend : Backend σ) (s : σ) (r : Request), r.method = "GET" →
      (r.uri.path = "/api/status" ∨ ∃ rest, r.uri.path = "/api/status/" ++ rest) →
      ((respond false r).run backend s).calls = []) ∧
    ∀ {ε : Type} (engine : Backend ε) (m : MemoryStore) (e : ε) (r : Request) (segment k : String),
      Gets r ("/api/status/" ++ segment) → NamesSession segment k → StreamKey.isValid k = true →
      (((respond true r).run (StoreAnswers.beside ⟨Store.find, Store.streamKeys⟩ engine)
          (.memory m, e)).result.status = 200 ↔ ∃ c ∈ m.credentials, k ∈ c.streamKeys) := by
  have hfits : ∀ {σ : Type} (backend : Backend σ) (s : σ) (withStatus : Bool) (l r : Request)
      (segment k : String), Gets l "/api/streams" → Gets r ("/api/status/" ++ segment) →
      NamesSession segment k → StreamKey.isValid k = true → StatusFits backend s k
        ((respond withStatus l).run backend s) ((respond true r).run backend s) := by
    intro σ backend s withStatus l r segment k hl hr hsegment hk
    rw [respond_streams hl, respond_status hr hsegment]
    exact statusFits_of_isValid hk backend s
  refine ⟨fun backend s withStatus l r segment k hl hr hsegment =>
    ⟨hfits backend s withStatus l r segment k hl hr hsegment, fun hk => ?_⟩,
    fun backend s r hget hpath => ?_, fun engine m e r segment k hr hsegment hk => ?_⟩
  · rw [respond_status hr hsegment, Dialogue.run_map, run_of_invalid hk]
    exact ⟨rfl, rfl⟩
  · rw [respond_withheld hget hpath]
    rfl
  · rw [← MemoryStore.mem_streamKeys, respond_status hr hsegment]
    have hfit := statusFits_of_isValid hk
      (StoreAnswers.beside ⟨Store.find, Store.streamKeys⟩ engine) (.memory m, e)
    by_cases hmem : k ∈ m.streamKeys
    · exact iff_of_true (hfit.of_mem m.streamKeys rfl hmem).2.1 hmem
    · refine iff_of_false (fun hok => ?_) hmem
      exact absurd (hok.symm.trans (hfit.of_not_mem m.streamKeys rfl hmem).2) (by decide)

/-- A request to get what is at a path, without a body. -/
def getRequest (path : String) : Request := ⟨"GET", ⟨none, none, path⟩, [], .empty⟩

/-- The one stream of a store has a status, written plainly or with a percent sign, and a text that
is no stream key is refused. -/
theorem status_fits_list_live :
    let backend := StoreAnswers.beside ⟨Store.find, Store.streamKeys⟩ (Relay.engineAnswers 0 "s-1")
    let w : Store × Engine := (.memory ⟨[⟨"ann", ["live"], "t"⟩]⟩, ⟨.hostOnly, .fresh⟩)
    ((respond true (getRequest "/api/status/live")).run backend w).result.status = 200 ∧
      ((respond true (getRequest "/api/status/l%69ve")).run backend w).calls =
        [.streamKeys, .status "live"] ∧
      ((respond true (getRequest "/api/status/a%2Fb")).run backend w).calls = [] ∧
      ((respond false (getRequest "/api/status/live")).run backend w).calls = [] := by
  intro backend w
  obtain ⟨hfits, hwithheld, hmemory⟩ := status_fits_list
  have hlive : NamesSession "live" "live" := namesSession_of_isValid (by decide)
  have hwritten : NamesSession "l%69ve" "live" := ⟨by decide, by decide, by decide⟩
  have hbad : NamesSession "a%2Fb" "a/b" := ⟨by decide, by decide, by decide⟩
  have hgets : ∀ path ∈ ["/api/streams", "/api/status/live", "/api/status/l%69ve",
      "/api/status/a%2Fb"], Gets (getRequest path) path := by
    have hpath : ∀ path ∈ ["/api/streams", "/api/status/live", "/api/status/l%69ve",
        "/api/status/a%2Fb"], (getRequest path).uri.path = path := by decide
    exact fun path hmem => ⟨rfl, hpath path hmem⟩
  have hlist := hgets "/api/streams" (by decide)
  refine ⟨?_, ?_, ?_, ?_⟩
  · exact (hmemory _ _ _ _ "live" "live" (hgets "/api/status/live" (by decide)) hlive
      (by decide)).mpr ⟨_, List.mem_cons_self, by decide⟩
  · have hfit := (hfits backend w true _ _ "l%69ve" "live" hlist
      (hgets "/api/status/l%69ve" (by decide)) hwritten).1 (by decide)
    exact (hfit.of_mem ["live"] rfl (by decide)).1
  · exact ((hfits backend w true _ _ "a%2Fb" "a/b" hlist
      (hgets "/api/status/a%2Fb" (by decide)) hbad).2 (by decide)).2
  · exact hwithheld backend w _ rfl (Or.inr ⟨"live", by decide⟩)

/-- The empty segment is no stream key either, but a request for it is told that nothing is
there. -/
theorem empty_segment_not_found : ¬ ∀ {σ : Type} (backend : Backend σ) (s : σ) (r : Request)
    (segment k : String), Gets r ("/api/status/" ++ segment) → '/' ∉ segment.toList →
    Utf8.decode? (percentDecode (Utf8.encode segment)) = some k → StreamKey.isValid k = false →
    ((respond true r).run backend s).result.status = 400 := by
  intro h
  have hstatus := h (StoreAnswers.beside ⟨Store.find, Store.streamKeys⟩
    (Relay.engineAnswers 0 "s-1")) (.memory ⟨[]⟩, ⟨.hostOnly, .fresh⟩) (getRequest "/api/status/")
    "" "" ⟨rfl, by decide⟩ (by decide) (by decide) (by decide)
  exact absurd hstatus (by decide)

end Gateway

end BroadcastRelay
