import BroadcastRelay.Proofs.Chunking
import BroadcastRelay.Proofs.Links
import BroadcastRelay.Proofs.RecordWriting
import BroadcastRelay.Proofs.Selection
/-!
# What is advertised can be selected

The layers of a session are sent as one event, whose data is a list in JSON. A viewer takes an item of
that list and posts it as it is. The event stays one event whatever is in the ids of the layers, for
written JSON has no line ends (`lines_layersEvent`); the data is read back as the list
(`decode_layers`); and an item of it is read as a request for its encoding (`readLayerRequest_eq`),
which the engine grants, for it grants what it lists (`advertised_can_be_selected`).
-/

namespace BroadcastRelay

/-! ## Reading layers -/

namespace Layer

/-- A written layer is a request for it. -/
theorem read_request (l : Layer) :
    LayerRequest.record.read l.toJson.document = .ok ⟨l.mediaId, l.encodingId⟩ := rfl

/-- The data of the event that lists layers. -/
def data (layers : List Layer) : String := (Json.Value.list (layers.map toJson)).render

theorem decode_layers (layers : List Layer) :
    Json.decode (Document.readList record.read) (Utf8.encode (data layers)) = .ok layers :=
  readsBack.list.decode_render layers

/-- The data holds the text of each layer. -/
theorem toList_data (layers : List Layer) : (data layers).toList =
    '[' :: [','].intercalate (layers.map fun l => l.toJson.render.toList) ++ [']'] := by
  rw [data, Json.Value.render, String.toList_ofList, Json.chars_list, List.map_map]
  simp only [Json.Value.render, String.toList_ofList, Function.comp_def]

theorem uncontrolled_data (layers : List Layer) : Json.Uncontrolled (data layers).toList := by
  rw [data, Json.Value.render, String.toList_ofList]
  exact Json.uncontrolled_chars _

end Layer

/-! ## The event -/

namespace Gateway

open Http

/-- The lines of a text of events, cut at each of the characters that can end one. -/
def lines (text : String) : List String :=
  (split (fun c => c == '\n' || c == '\r') text.toList).map String.ofList

theorem lines_layersEvent (layers : List Layer) :
    lines (layersEvent layers) = ["event: layers", "data: " ++ Layer.data layers, "", ""] := by
  have hevent : (layersEvent layers).toList = "event: layers".toList ++ '\n' ::
      (("data: " ++ Layer.data layers).toList ++ '\n' :: ([] ++ '\n' :: [])) := by
    have hdata : layersEvent layers =
        "event: layers\ndata: " ++ Layer.data layers ++ "\n\n" := rfl
    rw [hdata]
    simp [String.toList_append]
  have hline : ∀ text : String, Json.Uncontrolled text.toList →
      split (fun c => c == '\n' || c == '\r') text.toList = [text.toList] := by
    intro text htext
    refine split_of_forall_not fun c hc => ?_
    have hvisible : 32 ≤ c.toNat := htext c hc
    rw [Bool.or_eq_false_iff, beq_eq_false_iff_ne, beq_eq_false_iff_ne]
    constructor <;> rintro rfl <;> exact absurd hvisible (by decide)
  have hfirst : Json.Uncontrolled "event: layers".toList := by decide
  have hsecond : Json.Uncontrolled ("data: " ++ Layer.data layers).toList := by
    rw [String.toList_append, Json.uncontrolled_append]
    exact ⟨by decide, Layer.uncontrolled_data layers⟩
  rw [lines, hevent, split_append_cons (by decide), split_append_cons (by decide),
    split_append_cons (by decide), hline _ hfirst, hline _ hsecond]
  simp only [split_nil, List.map_cons, List.map_nil, String.ofList_toList, List.cons_append,
    List.nil_append]

theorem readLayerRequest_eq {b : Body} {l : Layer} (h : b.Holds maxBodyBytes l.toJson.render) :
    readLayerRequest b = .ok ⟨l.mediaId, l.encodingId⟩ := by
  obtain ⟨hfailure, hlength, hbytes⟩ := h
  rw [readLayerRequest_of_arrives ⟨hfailure, hlength⟩, hbytes, Json.decode_render,
    Layer.read_request]
  rfl

/-! ## Asking and selecting -/

/-- A request for the layer events of a session. -/
structure AsksForLayers (r : Request) (segment : String) : Prop where
  method_eq : r.method = "GET"
  path_eq : r.uri.path = "/api/sse/" ++ segment

/-- A request that posts a text of a length that is allowed to the layer selection of a session. The
text may come in any chunks. -/
structure PostsLayer (r : Request) (segment text : String) : Prop where
  method_eq : r.method = "POST"
  path_eq : r.uri.path = "/api/layer/" ++ segment
  failure_eq : r.body.failure = none
  bytes_eq : r.body.chunks.flatten = Utf8.encode text
  length_le : (Utf8.encode text).length ≤ maxBodyBytes

/-- The session is asked for its layers, and the answer is one event whose data is the list of their
texts and is read back as them. -/
structure Advertises {σ : Type} (o : Dialogue.Outcome Response σ) (id : String)
    (layers : List Layer) : Prop where
  calls_eq : o.calls = [.layers id]
  status_eq : o.result.status = 200
  frame : ∃ body data, o.result.body = Utf8.encode body ∧
    lines body = ["event: layers", "data: " ++ data, "", ""] ∧
    data.toList = '[' :: [','].intercalate (layers.map fun l => l.toJson.render.toList) ++ [']'] ∧
    Json.decode (Document.readList Layer.record.read) (Utf8.encode data) = .ok layers

variable {σ : Type} {withStatus : Bool} {r : Request} {segment id : String} {backend : Backend σ}
  {s : σ}

/-- Whatever layers the engine reports are advertised. -/
theorem advertises_of_layers (hsegment : NamesSession segment id) (h : AsksForLayers r segment)
    {layers : List Layer} (hlayers : (backend (.layers id) s).1 = .ok layers) :
    Advertises ((respond withStatus r).run backend s) id layers := by
  have hcalls : ((respond withStatus r).run backend s).calls = [.layers id] :=
    calls_events hsegment h.method_eq h.path_eq backend s
  refine ⟨hcalls, ?_, layersEvent layers, Layer.data layers, ?_,
    lines_layersEvent layers, Layer.toList_data layers, Layer.decode_layers layers⟩
  · rw [respond_events hsegment h.method_eq h.path_eq, Dialogue.run_map]
    simp [layerEvents, Dialogue.run, hlayers, Response.withHeaders]
  · rw [respond_events hsegment h.method_eq h.path_eq, Dialogue.run_map]
    simp [layerEvents, Dialogue.run, hlayers, Response.withHeaders]

theorem PostsLayer.reads {l : Layer} (h : PostsLayer r segment l.toJson.render) :
    readLayerRequest r.body = .ok ⟨l.mediaId, l.encodingId⟩ :=
  readLayerRequest_eq ⟨h.failure_eq, h.bytes_eq ▸ h.length_le, h.bytes_eq⟩

end Gateway

/-! ## With the engine -/

/-- What is listed for a session can be selected for it. -/
theorem Engine.setLayer_of_layers {e : Engine} {id : String} {layers : List Layer}
    (hlayers : e.layers id = .ok layers) {l : Layer} (hl : l ∈ layers) :
    (e.setLayer id l.encodingId).2 = .ok () ∧
      ((e.setLayer id l.encodingId).1.registry.session? id).bind (·.layer) = some l.encodingId := by
  cases hs : e.registry.session? id with
  | none =>
    rw [layers_of_none hs] at hlayers
    exact absurd hlayers (by simp)
  | some s =>
    have hlisted : e.listed s = layers := Except.ok.inj ((layers_of_some hs).symm.trans hlayers)
    have hoffered : e.registry.offers s.streamKey l.encodingId = true :=
      mem_listed.mp ⟨l, hlisted ▸ hl, rfl⟩
    obtain ⟨i, hi, hat⟩ := Registry.exists_place hs
    have hset := setLayer_eq hi hat l.encodingId
    rw [if_pos hoffered] at hset
    rw [hset]
    refine ⟨rfl, ?_⟩
    have hsession := Registry.session?_modifySession_self hi (·.selecting l.encodingId)
    rw [hs, Option.map_some] at hsession
    exact congrArg (Option.bind · _) hsession

namespace Gateway

open Http

variable {σ : Type} {stores : StoreAnswers σ} {now : UInt64} {minted : String} {relay : Relay σ}
  {withStatus : Bool} {r : Request} {segment id : String}

/-- Listing layers changes nothing. -/
theorem backend_of_asks (hsegment : NamesSession segment id) (h : AsksForLayers r segment) :
    ((respond withStatus r).run (Relay.backend stores now minted) relay).backend = relay := by
  rw [respond_events hsegment h.method_eq h.path_eq, Dialogue.run_map, layerEvents]
  cases hlayers : (relay.engine.layers id).mapError TransportError.engine <;>
    simp [Dialogue.run, Relay.backend, hlayers]

/-- A selection that the engine grants is answered so, and the engine is as the selection left it. -/
theorem granted_of_posts (hsegment : NamesSession segment id) {l : Layer}
    (h : PostsLayer r segment l.toJson.render)
    (hgranted : (relay.engine.setLayer id l.encodingId).2 = .ok ()) :
    ((respond withStatus r).run (Relay.backend stores now minted) relay).result.status = 200 ∧
      ((respond withStatus r).run (Relay.backend stores now minted) relay).backend.engine =
        (relay.engine.setLayer id l.encodingId).1 := by
  have hanswer : (Relay.backend stores now minted (.setLayer id l.encodingId) relay).1 = .ok () :=
    congrArg (Except.mapError TransportError.engine) hgranted
  have hafter : (Relay.backend stores now minted (.setLayer id l.encodingId) relay).2.engine =
      (relay.engine.setLayer id l.encodingId).1 := rfl
  rw [respond_layer hsegment h.method_eq h.path_eq, Dialogue.run_map, selectLayer, h.reads]
  simp [Dialogue.run, hanswer, hafter, Response.withHeaders, Response.bare, Response.sized]

/-- What is advertised can be selected. Whatever layers an engine reports for a session are sent as
one event that is read back as them, and each of them, if its text is not too long for a body, is
posted as it is to have its encoding selected, and nothing else asked. With the engine of this
library, and nothing in between, the selection is granted and takes effect. -/
theorem advertised_can_be_selected {withStatus : Bool} {get : Request} {segment id : String}
    (hsegment : NamesSession segment id) (hget : AsksForLayers get segment) :
    (∀ {σ : Type} (backend : Backend σ) (s : σ) (layers : List Layer),
      (backend (.layers id) s).1 = .ok layers →
      Advertises ((respond withStatus get).run backend s) id layers ∧
      ∀ l ∈ layers, ∀ post, PostsLayer post segment l.toJson.render →
        ∀ {τ : Type} (later : Backend τ) (t : τ),
          ((respond withStatus post).run later t).calls = [.setLayer id l.encodingId]) ∧
    ∀ {σ : Type} (stores : StoreAnswers σ) (now now' : UInt64) (minted minted' : String)
      (relay : Relay σ) (layers : List Layer), relay.engine.layers id = .ok layers →
      let o := (respond withStatus get).run (Relay.backend stores now minted) relay
      Advertises o id layers ∧
      ∀ l ∈ layers, ∀ post, PostsLayer post segment l.toJson.render →
        let p := (respond withStatus post).run (Relay.backend stores now' minted') o.backend
        p.result.status = 200 ∧
          (p.backend.engine.registry.session? id).bind (·.layer) = some l.encodingId := by
  refine ⟨fun backend s layers hlayers => ⟨advertises_of_layers hsegment hget hlayers,
    fun l _ post hpost τ later t => ?_⟩, ?_⟩
  · exact calls_layer hsegment hpost.method_eq hpost.path_eq hpost.reads later t
  · intro σ stores now now' minted minted' relay layers hlayers o
    have hreported : (Relay.backend stores now minted (.layers id) relay).1 = .ok layers :=
      congrArg (Except.mapError TransportError.engine) hlayers
    refine ⟨advertises_of_layers hsegment hget hreported, ?_⟩
    intro l hl post hpost p
    have hafter : o.backend = relay := backend_of_asks hsegment hget
    obtain ⟨hgranted, hlayer⟩ := Engine.setLayer_of_layers hlayers hl
    rw [← hafter] at hgranted hlayer
    obtain ⟨hstatus, hengine⟩ := granted_of_posts hsegment hpost hgranted
    exact ⟨hstatus, hengine ▸ hlayer⟩

/-- A viewer who has seen nothing yet is told of the one encoding of the publisher, and posts it. -/
theorem advertised_can_be_selected_attended :
    let backend := Relay.backend ⟨Store.find, Store.streamKeys⟩ 0 "s"
    let o := (respond true ⟨"GET", ⟨none, none, "/api/sse/v"⟩, [], .empty⟩).run backend
      ⟨.memory ⟨[]⟩, Engine.attended⟩
    let p := (respond true ⟨"POST", ⟨none, none, "/api/layer/v"⟩, [],
      ⟨[Utf8.encode (Layer.mk "1" "h").toJson.render], none⟩⟩).run backend o.backend
    Advertises o "v" [⟨"1", "h"⟩] ∧ p.result.status = 200 ∧
      (p.backend.engine.registry.session? "v").bind (·.layer) = some "h" := by
  have hsegment : NamesSession "v" "v" := namesSession_of_isValid (by decide)
  have hget : AsksForLayers ⟨"GET", ⟨none, none, "/api/sse/v"⟩, [], .empty⟩ "v" := ⟨rfl, rfl⟩
  have hlayers : Engine.attended.layers "v" = .ok [⟨"1", "h"⟩] := rfl
  obtain ⟨hadvertised, hselected⟩ := (@advertised_can_be_selected true _ _ _ hsegment hget).2
    ⟨Store.find, Store.streamKeys⟩ 0 0 "s" "s" ⟨.memory ⟨[]⟩, Engine.attended⟩ _ hlayers
  exact ⟨hadvertised, hselected ⟨"1", "h"⟩ (by simp) _ ⟨rfl, rfl, rfl, by simp, by decide⟩⟩

end Gateway

end BroadcastRelay
