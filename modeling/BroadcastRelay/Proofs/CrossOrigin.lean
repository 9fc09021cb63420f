import BroadcastRelay.Credential.Store
import BroadcastRelay.Gateway.Relay
import BroadcastRelay.Proofs.Conversation
/-!
# Pages of any origin

The gateway lets pages of any origin use it by two wrappers around its resources. The outer one adds
a field to the answers that the inner one gives by itself, and the inner one adds fields to the
responses of all resources, so a field could be missing, or be there twice.

What a resource answers, whatever the store and the engine say, has only fields of its own
(`ends_act`), none of which the wrappers add. So every response has each field of the wrappers
exactly once, and a preflight is answered with all of them and without a question to anyone
(`open_to_any_origin`).
-/

namespace BroadcastRelay

namespace Http.Headers

theorem all_append (h more : Headers) (name : String) :
    all (h ++ more) name = all h name ++ all more name :=
  List.filterMap_append

theorem all_eq_nil {h : Headers} {name : String} (hname : ∀ f ∈ h, f.1 ≠ name) :
    all h name = [] :=
  List.filterMap_eq_nil_iff.mpr fun f hf => if_neg (hname f hf)

end Http.Headers

namespace Gateway

open Http

variable {σ : Type} {withStatus : Bool} {r : Request} {response : Response}

/-! ## Fields of a resource -/

/-- The names of the header fields that resources set themselves. -/
def ownNames : List String :=
  ["allow", "cache-control", "connection", "content-length", "content-type", "link", "location"]

/-- The response has only fields of the resource's own. -/
def Own (response : Response) : Prop :=
  ∀ name ∈ response.headers.map Prod.fst, name ∈ ownNames

theorem own_bare (status : Nat) : Own (.bare status []) :=
  (by decide : ∀ name ∈ ["content-length"], name ∈ ownNames)

theorem own_plain (status : Nat) (text : String) : Own (.plain status text) :=
  (by decide : ∀ name ∈ ["content-type", "content-length"], name ∈ ownNames)

theorem own_json (status : Nat) (v : Json.Value) : Own (.json status v) :=
  (by decide : ∀ name ∈ ["content-type", "content-length"], name ∈ ownNames)

theorem own_refuse (e : ApiError) : Own (refuse e) := own_json _ _

theorem own_created (location : String) (links : List String) (answer : String) :
    Own (created location links answer) := by
  intro name hname
  simp only [created, Response.sized, field, List.map_append, List.map_cons, List.map_nil,
    List.map_map, List.mem_append, List.mem_map, List.mem_cons, List.not_mem_nil, or_false,
    Function.comp] at hname
  rcases hname with ((rfl | rfl) | ⟨link, -, rfl⟩) | rfl <;> decide

theorem own_welcome (path : String) (a : ViewerAnswer) : Own (welcome path a) := by
  unfold welcome
  dsimp only
  split
  · exact own_created _ _ _
  · exact own_plain _ _

/-! ## What a resource answers -/

theorem ends_withParameter (name written : String) {next : String → Dialogue Response}
    (h : ∀ text, (next text).Ends Own) : (Resource.withParameter name written next).Ends Own := by
  unfold Resource.withParameter
  split
  · exact h _
  · exact own_plain _ _

theorem ends_publish (r : Request) : (publish r).Ends Own := by
  unfold publish
  have hauthorize : (authorizePublisher (r.headers.all "authorization")).Ends fun _ => True := by
    unfold authorizePublisher
    split
    · trivial
    · rintro (e | (- | streamer)) <;> trivial
  refine hauthorize.bind fun found _ => ?_
  cases found with
  | error e => exact own_refuse e
  | ok streamer =>
    dsimp only
    split
    · exact own_refuse _
    · rintro (e | answer)
      · exact own_refuse _
      · exact own_created _ _ _

theorem ends_subscribe (r : Request) : (subscribe r).Ends Own := by
  unfold subscribe
  split
  · exact own_refuse _
  · split
    · exact own_refuse _
    · rintro (e | a)
      · exact own_refuse _
      · exact own_welcome _ _

theorem ends_layerEvents (id : String) : (layerEvents id).Ends Own := by
  rintro (e | layers)
  · exact own_refuse _
  · exact (by decide : ∀ name ∈ ["content-type", "cache-control", "connection"], name ∈ ownNames)

theorem ends_selectLayer (id : String) (r : Request) : (selectLayer id r).Ends Own := by
  unfold selectLayer
  split
  · exact own_refuse _
  · rintro (e | ⟨⟩)
    · exact own_refuse _
    · exact own_bare 200

theorem ends_showStatus (key : String) : (showStatus key).Ends Own := by
  unfold showStatus
  split
  · exact own_refuse _
  · rintro (e | keys)
    · exact own_refuse _
    · dsimp only
      split
      · exact own_refuse _
      · exact fun status => own_json _ _

/-- Whatever the store and the engine say, the answer has only fields of the resource's own. -/
theorem ends_act (resource : Resource) (r : Request) : (resource.act r).Ends Own := by
  cases resource with
  | publishers =>
    rw [Resource.act]
    split
    · exact own_bare 200
    · exact ends_publish r
  | viewers => exact ends_subscribe r
  | events id => exact ends_withParameter _ _ ends_layerEvents
  | layer id => exact ends_withParameter _ _ fun text => ends_selectLayer text r
  | streams =>
    rintro (e | keys)
    · exact own_refuse _
    · exact own_json _ _
  | statuses => exact fun statuses => own_json _ _
  | status key => exact ends_withParameter _ _ ends_showStatus
  | health => exact own_plain _ _

theorem ends_answer (resource? : Option Resource) (r : Request) :
    (answer resource? r).Ends Own := by
  cases resource? with
  | none => exact own_bare 404
  | some resource =>
    rw [answer, Resource.respond]
    split
    · refine (ends_act resource r).map fun response hown => ?_
      split
      · exact hown
      · exact hown
    · exact (by decide : ∀ name ∈ ["allow", "content-length"], name ∈ ownNames)

/-! ## What the wrappers add -/

/-- The response has the field once, for all origins. -/
def OpenTo (response : Response) (name : String) : Prop :=
  response.headers.all name = [Utf8.encode "*"]

theorem Own.all_eq_nil (h : Own response) {name : String} (hname : name ∉ ownNames) :
    response.headers.all name = [] :=
  Headers.all_eq_nil fun _ hf heq => hname (heq ▸ h _ (List.mem_map_of_mem hf))

/-- A field of the inner wrapper is not there twice. -/
theorem Own.openTo (h : Own response) {name : String}
    (hname : name ∈ ["access-control-allow-origin", "access-control-expose-headers"]) :
    OpenTo (response.withHeaders openFields) name := by
  have hadded : Headers.all openFields name = [Utf8.encode "*"] ∧ name ∉ ownNames := by
    revert name
    decide
  rw [OpenTo, Response.withHeaders, Headers.all_append, h.all_eq_nil hadded.2, hadded.1,
    List.nil_append]

/-- The outer wrapper adds the field that the inner one leaves out. -/
theorem openTo_exposePreflight {name : String}
    (hname : name ∈ ["access-control-allow-origin", "access-control-allow-methods",
      "access-control-allow-headers", "access-control-expose-headers"]) :
    OpenTo (exposePreflight "OPTIONS" (.bare 200 preflightFields)) name := by
  unfold OpenTo
  revert name
  decide

/-- The list of methods is the only thing that is added, if any is. -/
theorem exists_listMethods_eq (resource? : Option Resource) (method : String)
    (response : Response) : ∃ more, listMethods resource? method response =
      response.withHeaders more ∧ ∀ f ∈ more, f.1 = "allow" := by
  have hself : response.withHeaders [] = response := by simp [Response.withHeaders]
  have hnone : ∀ f ∈ ([] : Headers), f.1 = "allow" := fun _ hf => absurd hf List.not_mem_nil
  cases resource? with
  | none => exact ⟨[], hself.symm, hnone⟩
  | some resource =>
    rw [listMethods, Response.withDefault]
    split
    · exact ⟨[], hself.symm, hnone⟩
    · split
      · exact ⟨[], hself.symm, hnone⟩
      · exact ⟨[resource.allow], rfl, fun f hf => List.mem_singleton.mp hf ▸ rfl⟩

/-- Every preflight is answered with all fields of the wrappers, each of them once, whatever its
path, its fields and its body are, and neither the store nor the engine is asked. Every other
response has the two fields for the pages that read it, each of them once, whoever made it. -/
theorem open_to_any_origin (withStatus : Bool) (r : Request) (backend : Backend σ) (s : σ) :
    let o := (respond withStatus r).run backend s
    (r.method = "OPTIONS" →
      o.result.status = 200 ∧ o.result.body = [] ∧ o.calls = [] ∧ o.backend = s ∧
        ∀ name ∈ ["access-control-allow-origin", "access-control-allow-methods",
          "access-control-allow-headers", "access-control-expose-headers"],
          o.result.headers.all name = [Utf8.encode "*"]) ∧
    (r.method ≠ "OPTIONS" →
      ∀ name ∈ ["access-control-allow-origin", "access-control-expose-headers"],
        o.result.headers.all name = [Utf8.encode "*"]) := by
  intro o
  refine ⟨fun hoptions => ?_, fun hoptions name hname => ?_⟩
  · obtain ⟨more, hlist, hmore⟩ := exists_listMethods_eq
      (Resource.ofPath? withStatus r.uri.path) r.method
      (exposePreflight r.method (.bare 200 preflightFields))
    have ho : o =
        ⟨(exposePreflight r.method (.bare 200 preflightFields)).withHeaders more, [], s⟩ := by
      rw [← hlist]
      exact congrArg (·.run backend s) (respond_of_options hoptions)
    rw [ho, hoptions]
    refine ⟨rfl, rfl, rfl, rfl, fun name hname => ?_⟩
    have hallow : ∀ f ∈ more, f.1 ≠ name := by
      intro f hf
      rw [hmore f hf]
      revert name
      decide
    rw [Response.withHeaders, Headers.all_append, openTo_exposePreflight hname,
      Headers.all_eq_nil hallow, List.append_nil]
  · have hends : (respond withStatus r).Ends (OpenTo · name) := by
      rw [respond_of_ne_options hoptions]
      exact (ends_answer _ r).map fun response hown => hown.openTo hname
    exact hends.result_run backend s

/-- A preflight for a path that is not routed, and a request that a handler refuses. -/
theorem open_to_any_origin_refused :
    let backend := Relay.backend ⟨Store.find, Store.streamKeys⟩ 0 "p"
    let s : Relay Store := ⟨.memory ⟨[]⟩, .hostOnly, .fresh⟩
    let o := (respond false ⟨"OPTIONS", ⟨none, none, "/api/status"⟩, [], .empty⟩).run backend s
    let p := (respond false ⟨"POST", ⟨none, none, "/api/whip"⟩, [], .empty⟩).run backend s
    (o.result.status = 200 ∧ o.calls = []) ∧ p.result.status = 400 ∧
      p.result.headers.all "access-control-allow-origin" = [Utf8.encode "*"] := by
  intro backend s o p
  obtain ⟨hstatus, -, hcalls, -⟩ := (open_to_any_origin false
    ⟨"OPTIONS", ⟨none, none, "/api/status"⟩, [], .empty⟩ backend s).1 rfl
  exact ⟨⟨hstatus, hcalls⟩, rfl, (open_to_any_origin false
    ⟨"POST", ⟨none, none, "/api/whip"⟩, [], .empty⟩ backend s).2 (by decide) _ (by decide)⟩

end Gateway

end BroadcastRelay
