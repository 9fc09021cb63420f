import BroadcastRelay.Proofs.CrossOrigin
import BroadcastRelay.Proofs.LayerSwitch
/-!
# What a client is told of a failure

The store and the engine may fail with any text. The failures that a dialogue meets are read off its
run (`Dialogue.failures`). No handler goes on after one: what it answers is the refusal of the
request for it (`yields_act`), and the wrappers around the handlers leave that refusal alone but for
the body of an answer to HEAD (`yields_respond`).

What the refusal should say is written down for each kind of failure (`Failure.notice`). Its body is
JSON that represents just that, with the text of the failure as it is, since what is written as JSON
is read back (`failure_texts_reach_client`).
-/

namespace BroadcastRelay

/-- A failure of the store or of the engine. -/
inductive Failure where
  /-- The store failed. -/
  | store (e : StoreError)
  /-- The engine failed. -/
  | engine (e : EngineError)
deriving DecidableEq, Repr

/-- What a client is told of a failure. -/
structure Notice where
  /-- The status. -/
  status : Nat
  /-- The code for programs. -/
  code : String
  /-- The text. -/
  text : String
deriving DecidableEq, Repr

namespace Failure

/-- Why a request is refused that met the failure. -/
def apiError : Failure → ApiError
  | store e => .store e
  | engine e => .ofEngine e

/-- What a client has to be told of the failure. -/
def notice : Failure → Notice
  | store (.unavailable text) =>
    ⟨503, "store_unavailable", "credential store unavailable: " ++ text⟩
  | store (.query text) => ⟨500, "store_error", "credential query failed: " ++ text⟩
  | store (.duplicateStreamKey key) =>
    ⟨500, "store_error", "stream key " ++ key ++ " is assigned to more than one streamer"⟩
  | engine (.negotiation text) => ⟨400, "negotiation_failed", text⟩
  | engine (.sessionNotFound id) => ⟨400, "session_not_found", "Session " ++ id ++ " not found"⟩
  | engine (.unknownLayer sessionId encodingId) =>
    ⟨400, "unknown_layer",
      "layer " ++ encodingId ++ " is not available for session " ++ sessionId⟩
  | engine (.failure text) => ⟨400, "engine_error", text⟩

/-- The refusal says just that. -/
theorem notice_eq (x : Failure) :
    x.notice = ⟨x.apiError.status, x.apiError.code, x.apiError.message⟩ := by
  rcases x with (_ | _ | _) | (_ | _ | _ | _) <;> rfl

end Failure

/-- The failure that an answer is, if it is one. -/
def Call.failure? : (c : Call) → c.Answer → Option Failure
  | .findStreamer _ _, .error e => some (.store e)
  | .streamKeys, .error e => some (.store e)
  | .ingest _ _, .error e => some (.engine e)
  | .egress _ _, .error e => some (.engine e)
  | .layers _, .error e => some (.engine e)
  | .setLayer _ _, .error e => some (.engine e)
  | _, _ => none

namespace Dialogue

variable {α β σ : Type} {backend : Backend σ} {s : σ}

/-- The questions of the dialogue that fail, each with its failure, in order. -/
def failures (backend : Backend σ) : Dialogue α → σ → List (Call × Failure)
  | done _, _ => []
  | call c next, s =>
    let (answer, s) := backend c s
    (c.failure? answer).toList.map (c, ·) ++ (next answer).failures backend s

/-- A failure ends the dialogue, with a result that fits it. -/
def Yields (p : Failure → α → Prop) : Dialogue α → Prop
  | done _ => True
  | call c next => ∀ answer, (next answer).Yields p ∧
    ∀ x, c.failure? answer = some x → ∃ a, next answer = done a ∧ p x a

/-- An answer that is no failure, and what the dialogue goes on with. -/
theorem yields_of_answered {p : Failure → α → Prop} {c : Call} {reply : c.Answer} {d : Dialogue α}
    (hd : d.Yields p) (hreply : c.failure? reply = none) :
    d.Yields p ∧ ∀ x, c.failure? reply = some x → ∃ a, d = done a ∧ p x a :=
  ⟨hd, fun _ hx => absurd (hreply.symm.trans hx) (by simp)⟩

/-- An answer that is a failure, and the result that the dialogue ends with. -/
theorem yields_of_failure {p : Failure → α → Prop} {c : Call} {reply : c.Answer} {d : Dialogue α}
    {x : Failure} {a : α} (hreply : c.failure? reply = some x) (hd : d = done a) (hp : p x a) :
    d.Yields p ∧ ∀ y, c.failure? reply = some y → ∃ a, d = done a ∧ p y a := by
  subst hd
  refine ⟨trivial, fun y hy => ⟨a, rfl, ?_⟩⟩
  rwa [← Option.some.inj (hreply.symm.trans hy)]

theorem Yields.bind {p : Failure → α → Prop} {q : Failure → β → Prop} {d : Dialogue α}
    {f : α → Dialogue β} (h : d.Yields p) (hf : ∀ x a, p x a → ∃ b, f a = done b ∧ q x b)
    (hrest : ∀ a, (f a).Yields q) : (d.bind f).Yields q := by
  induction d with
  | done a => exact hrest a
  | call c next ih =>
    intro answer
    obtain ⟨hnext, hfail⟩ := h answer
    refine ⟨ih answer hnext, fun x hx => ?_⟩
    obtain ⟨a, hdone, hp⟩ := hfail x hx
    obtain ⟨b, hb, hq⟩ := hf x a hp
    refine ⟨b, ?_, hq⟩
    dsimp only
    rw [hdone, bind_done, hb]

theorem Yields.map {p : Failure → α → Prop} {q : Failure → β → Prop} {d : Dialogue α} {f : α → β}
    (h : d.Yields p) (hf : ∀ x a, p x a → q x (f a)) : (d.map f).Yields q :=
  h.bind (fun x a ha => ⟨f a, rfl, hf x a ha⟩) fun _ => trivial

/-- The dialogue meets the one failure and goes no further. -/
structure StoppedBy (d : Dialogue α) (backend : Backend σ) (s : σ) (c : Call) (x : Failure) :
    Prop where
  only : d.failures backend s = [(c, x)]
  last : (d.run backend s).calls.getLast? = some c

/-- A failure stops the dialogue, and the result fits it. -/
theorem Yields.run {p : Failure → α → Prop} {d : Dialogue α} (h : d.Yields p) {c : Call}
    {x : Failure} (hx : (c, x) ∈ d.failures backend s) :
    d.StoppedBy backend s c x ∧ p x (d.run backend s).result := by
  induction d generalizing s with
  | done a => exact absurd hx List.not_mem_nil
  | call c' next ih =>
    obtain ⟨hnext, hfail⟩ := h (backend c' s).1
    cases hfailed : c'.failure? (backend c' s).1 with
    | none =>
      have hrest : (call c' next).failures backend s =
          (next (backend c' s).1).failures backend (backend c' s).2 := by
        simp [failures, hfailed]
      obtain ⟨⟨honly, hlast⟩, hp⟩ := ih _ hnext (hrest ▸ hx)
      refine ⟨⟨hrest.trans honly, ?_⟩, hp⟩
      rw [Dialogue.run, List.getLast?_cons, hlast, Option.getD_some]
    | some y =>
      obtain ⟨a, hdone, hp⟩ := hfail y hfailed
      have hone : (call c' next).failures backend s = [(c', y)] := by
        simp [failures, hfailed, hdone]
      have hrun : (call c' next).run backend s = ⟨a, [c'], (backend c' s).2⟩ := by
        simp [Dialogue.run, hdone]
      obtain ⟨rfl, rfl⟩ := Prod.mk.inj (List.mem_singleton.mp (hone ▸ hx))
      exact ⟨⟨hone, hrun ▸ rfl⟩, hrun ▸ hp⟩

end Dialogue

namespace Gateway

open Http Dialogue

variable {σ : Type} {withStatus : Bool} {r : Request} {backend : Backend σ} {s : σ}

/-! ## Handlers -/

/-- The response refuses the request for the failure. -/
def RefusedFor (x : Failure) (response : Response) : Prop := response = refuse x.apiError

theorem yields_authorizePublisher (values : List Bytes) :
    (authorizePublisher values).Yields fun x found => found = .error x.apiError := by
  unfold authorizePublisher
  split
  · trivial
  · rintro (e | (- | streamer))
    · exact yields_of_failure rfl rfl rfl
    · exact yields_of_answered trivial rfl
    · exact yields_of_answered trivial rfl

theorem yields_publish (r : Request) : (publish r).Yields RefusedFor := by
  refine (yields_authorizePublisher _).bind ?_ ?_
  · rintro x _ rfl
    exact ⟨_, rfl, rfl⟩
  · rintro (e | streamer)
    · trivial
    · dsimp only
      split
      · trivial
      · rintro (e | answer)
        · exact yields_of_failure rfl rfl rfl
        · exact yields_of_answered trivial rfl

theorem yields_subscribe (r : Request) : (subscribe r).Yields RefusedFor := by
  unfold subscribe
  split
  · trivial
  · split
    · trivial
    · rintro (e | a)
      · exact yields_of_failure rfl rfl rfl
      · exact yields_of_answered trivial rfl

theorem yields_layerEvents (id : String) : (layerEvents id).Yields RefusedFor := by
  rintro (e | layers)
  · exact yields_of_failure rfl rfl rfl
  · exact yields_of_answered trivial rfl

theorem yields_selectLayer (id : String) (r : Request) : (selectLayer id r).Yields RefusedFor := by
  unfold selectLayer
  split
  · trivial
  · rintro (e | ⟨⟩)
    · exact yields_of_failure rfl rfl rfl
    · exact yields_of_answered trivial rfl

theorem yields_listStreams : listStreams.Yields RefusedFor := by
  rintro (e | keys)
  · exact yields_of_failure rfl rfl rfl
  · exact yields_of_answered trivial rfl

theorem yields_showStatus (key : String) : (showStatus key).Yields RefusedFor := by
  unfold showStatus
  split
  · trivial
  · rintro (e | keys)
    · exact yields_of_failure rfl rfl rfl
    · refine yields_of_answered ?_ rfl
      dsimp only
      split
      · trivial
      · exact fun status? => yields_of_answered trivial rfl

theorem yields_withParameter (name written : String) {next : String → Dialogue Response}
    (h : ∀ text, (next text).Yields RefusedFor) :
    (Resource.withParameter name written next).Yields RefusedFor := by
  unfold Resource.withParameter
  split
  · exact h _
  · trivial

/-- Whoever acts on a resource and meets a failure refuses the request for it. -/
theorem yields_act (resource : Resource) (r : Request) : (resource.act r).Yields RefusedFor := by
  cases resource with
  | publishers =>
    rw [Resource.act]
    split
    · trivial
    · exact yields_publish r
  | viewers => exact yields_subscribe r
  | events id => exact yields_withParameter _ _ yields_layerEvents
  | layer id => exact yields_withParameter _ _ fun text => yields_selectLayer text r
  | streams => exact yields_listStreams
  | statuses => exact fun statuses => yields_of_answered trivial rfl
  | status key => exact yields_withParameter _ _ yields_showStatus
  | health => trivial

/-! ## The client -/

/-- The response tells of the failure: it has the status, and its body is JSON, an object of the
code and the text and of nothing else. -/
structure Tells (x : Failure) (response : Response) : Prop where
  status_eq : response.status = x.notice.status
  type_eq : response.headers.all "content-type" = [Utf8.encode "application/json"]
  represents : Json.Represents response.body
    (.map [(some "error", .str x.notice.code), (some "message", .str x.notice.text)] .closed)

theorem tells_refuse (x : Failure) : Tells x (refuse x.apiError) where
  status_eq := by
    rw [x.notice_eq]
    rfl
  type_eq := rfl
  represents := by
    rw [x.notice_eq]
    exact Json.represents_render (v := x.apiError.toJson) rfl

/-- A response may have the fields for pages of any origin. -/
theorem Tells.withHeaders {x : Failure} {response : Response} (h : Tells x response) :
    Tells x (response.withHeaders openFields) where
  status_eq := h.status_eq
  type_eq := by
    rw [Response.withHeaders, Headers.all_append, h.type_eq]
    rfl
  represents := h.represents

/-- What is sent to a client: the response, without its body if the client asked for that. -/
def sent (r : Request) (response : Response) : Response :=
  if r.method = "HEAD" then response.headOnly else response

theorem yields_respond (withStatus : Bool) (r : Request) :
    (respond withStatus r).Yields fun x response =>
      ∃ told, Tells x told ∧ response = sent r told := by
  by_cases hoptions : r.method = "OPTIONS"
  · rw [respond_of_options hoptions]
    trivial
  rw [respond_of_ne_options hoptions]
  cases Resource.ofPath? withStatus r.uri.path with
  | none => trivial
  | some resource =>
    rw [answer, Resource.respond]
    split
    · refine ((yields_act resource r).map (q := fun x response => response =
        sent r (refuse x.apiError)) ?_).map ?_
      · rintro x _ rfl
        rfl
      · rintro x _ rfl
        refine ⟨_, (tells_refuse x).withHeaders, ?_⟩
        rw [sent, sent]
        split <;> rfl
    · trivial

/-- What a client is told of each failure: the status tells the failures of the store that may pass
from the other ones of the store, and both from those of the engine. -/
structure Graded (x : Failure) : Prop where
  of_apiError : x.notice = ⟨x.apiError.status, x.apiError.code, x.apiError.message⟩
  transient_iff : x.notice.status = 503 ↔ ∃ e, x = .store e ∧ e.isTransient = true
  permanent_iff : x.notice.status = 500 ↔ ∃ e, x = .store e ∧ e.isTransient = false
  engine_iff : x.notice.status = 400 ↔ ∃ e, x = .engine e

theorem graded (x : Failure) : Graded x where
  of_apiError := x.notice_eq
  transient_iff := by
    rcases x with (_ | _ | _) | (_ | _ | _ | _) <;> simp [Failure.notice, StoreError.isTransient]
  permanent_iff := by
    rcases x with (_ | _ | _) | (_ | _ | _ | _) <;> simp [Failure.notice, StoreError.isTransient]
  engine_iff := by
    rcases x with (_ | _ | _) | (_ | _ | _ | _) <;> simp [Failure.notice]

/-- Failure texts reach the client as they are. If a question fails, it is the last one, and whoever
acts on the resource answers with JSON that tells of the failure, whatever is in its text. The
client gets that answer from the gateway; a client that asks for HEAD gets it without the body. -/
theorem failure_texts_reach_client {c : Call} {x : Failure} :
    Graded x ∧
    (∀ resource : Resource, (c, x) ∈ (resource.act r).failures backend s →
      (resource.act r).StoppedBy backend s c x ∧
        Tells x ((resource.act r).run backend s).result) ∧
    ((c, x) ∈ (respond withStatus r).failures backend s →
      (respond withStatus r).StoppedBy backend s c x ∧ ∃ told, Tells x told ∧
        ((respond withStatus r).run backend s).result = sent r told) := by
  refine ⟨graded x, fun resource hx => ?_, fun hx => (yields_respond withStatus r).run hx⟩
  obtain ⟨hstopped, hrefused⟩ := (yields_act resource r).run hx
  exact ⟨hstopped, hrefused ▸ tells_refuse x⟩

/-- A store that cannot be reached and a session that is not there, with texts that JSON escapes. -/
theorem failure_texts_reach_client_escaped :
    let backend := Relay.backend ⟨fun s _ _ => (.error (.unavailable "\"\\\n"), s),
      fun s => (.error (.unavailable "\"\\\n"), s)⟩ 0 "p"
    let relay : Relay Unit := ⟨(), .hostOnly, .fresh⟩
    let o := (respond true ⟨"GET", ⟨none, none, "/api/streams"⟩, [], .empty⟩).run backend relay
    let p := (respond true ⟨"GET", ⟨none, none, "/api/sse/%22%0A"⟩, [], .empty⟩).run backend relay
    (o.result.status = 503 ∧ Json.Represents o.result.body
      (.map [(some "error", .str "store_unavailable"),
        (some "message", .str "credential store unavailable: \"\\\n")] .closed)) ∧
    p.result.status = 400 ∧ Json.Represents p.result.body
      (.map [(some "error", .str "session_not_found"),
        (some "message", .str "Session \"\n not found")] .closed) := by
  intro backend relay o p
  have hstore : (Call.streamKeys, Failure.store (.unavailable "\"\\\n")) ∈
      (respond true ⟨"GET", ⟨none, none, "/api/streams"⟩, [], .empty⟩).failures backend relay :=
    List.mem_singleton.mpr rfl
  have hengine : (Call.layers "\"\n", Failure.engine (.sessionNotFound "\"\n")) ∈
      (respond true ⟨"GET", ⟨none, none, "/api/sse/%22%0A"⟩, [], .empty⟩).failures backend relay :=
    List.mem_singleton.mpr rfl
  obtain ⟨-, told, htold, ho⟩ := failure_texts_reach_client.2.2 hstore
  obtain ⟨-, told', htold', hp⟩ := failure_texts_reach_client.2.2 hengine
  have ho : o.result = told := ho
  have hp : p.result = told' := hp
  rw [ho, hp]
  exact ⟨⟨htold.status_eq, htold.represents⟩, htold'.status_eq, htold'.represents⟩

end Gateway

end BroadcastRelay
