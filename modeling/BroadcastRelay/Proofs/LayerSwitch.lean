import BroadcastRelay.Proofs.Chunking
import BroadcastRelay.Proofs.CompleteDocuments
import BroadcastRelay.Proofs.JsonText
import BroadcastRelay.Proofs.Links
import BroadcastRelay.Proofs.RecordReading
/-!
# A layer is switched as the body asks

A post to the layer selection of a session is decoded before anything comes of it. What decodes is
said on the document of the body (`LayerRequest.WrittenAs`): a map in which each of two names stands
once, with a text, among any others, or a list of two texts; and the reader accepts just that
(`LayerRequest.read_eq_ok_iff`). The engine hears of such a request once and of no other post, and a
post succeeds exactly if the engine has done what it was asked (`switches_as_asked`).

The empty segment names no session. No route leads there, so a post to it is not even refused
(`empty_segment_switches_nothing`).
-/

namespace BroadcastRelay

/-! ## Decoding -/

namespace Json

/-- The bytes are JSON: the text of a document without a fault, and nothing after it. -/
def Represents (bytes : Bytes) (d : Document) : Prop := assemble bytes = (d, false) ∧ d.Complete

/-- A written value represents its document. -/
theorem represents_render {v : Value} (h : v.document.isWhole = true) :
    Represents (Utf8.encode v.render) v.document := by
  have hcomplete := (complete_assemble_iff (Utf8.encode v.render)).mpr
  rw [assemble_render] at hcomplete
  exact ⟨assemble_render v, hcomplete h⟩

/-- The names in an object are texts. -/
theorem Value.isSome_of_mem_memberDocuments :
    ∀ {ms : List (String × Value)}, ∀ m ∈ memberDocuments ms, m.1.isSome = true
  | (name, v) :: ms, m, hm => by
    rw [memberDocuments, List.mem_cons] at hm
    rcases hm with rfl | hm
    · rfl
    · exact isSome_of_mem_memberDocuments m hm

/-- A record is decoded from JSON whose document it is read from. -/
theorem decode_record_eq_ok_iff {α : Type} {r : Record α} {bytes : Bytes} {a : α} :
    decode r.read bytes = .ok a ↔ ∃ d, Represents bytes d ∧ r.read d = .ok a := by
  have hcomplete := complete_assemble_iff bytes
  rw [decode]
  cases hassemble : assemble bytes with
  | mk d trailing =>
    rw [hassemble] at hcomplete
    simp only [Represents, hassemble, bind_eq_ok_iff, Prod.mk.injEq]
    constructor
    · rintro ⟨a', hread, h⟩
      cases trailing with
      | true => cases h
      | false =>
        obtain rfl := Except.ok.inj h
        exact ⟨d, ⟨⟨rfl, rfl⟩, hcomplete.mpr (Record.isWhole_of_read hread)⟩, hread⟩
    · rintro ⟨d', ⟨⟨rfl, rfl⟩, -⟩, hread⟩
      exact ⟨a, hread, rfl⟩

end Json

theorem Document.readString_eq_ok_iff {d : Document} {s : String} :
    readString d = .ok s ↔ d = .str s := by
  cases d <;> simp [readString]

namespace LayerRequest

open Document

/-- How a wish is written: as a map in which each of two names stands once, with a text, and other
names with anything, or as a list of the two texts. -/
inductive WrittenAs (w : LayerRequest) : Document → Prop
  | named {members : List (Option String × Document)} (hnames : ∀ m ∈ members, m.1.isSome = true)
      (hmedia : under "mediaId" members = [.str w.mediaId])
      (hencoding : under "encodingId" members = [.str w.encodingId]) :
      WrittenAs w (.map members .closed)
  | listed : WrittenAs w (.list [.str w.mediaId, .str w.encodingId] .closed)

variable {members : List (Option String × Document)} {w : LayerRequest}

theorem mem_fields {g : Field LayerRequest} (hg : g ∈ record.fields) :
    g = .of "mediaId" true readString (fun v l => { l with mediaId := v }) ∨
      g = .of "encodingId" true readString (fun v l => { l with encodingId := v }) := by
  simpa [record] using hg

/-- What has been read from a map is what stands in it. -/
theorem under_of_foldlM {p : Record.Progress LayerRequest}
    (h : members.foldlM record.member (record.blank, []) = .ok p) :
    (under "mediaId" members = [] ∧ "mediaId" ∉ p.2 ∨
      "mediaId" ∈ p.2 ∧ under "mediaId" members = [.str p.1.mediaId]) ∧
    (under "encodingId" members = [] ∧ "encodingId" ∉ p.2 ∨
      "encodingId" ∈ p.2 ∧ under "encodingId" members = [.str p.1.encodingId]) := by
  have hmedia : record.field? "mediaId" =
      some (.of "mediaId" true readString fun v l => { l with mediaId := v }) := rfl
  have hencoding : record.field? "encodingId" =
      some (.of "encodingId" true readString fun v l => { l with encodingId := v }) := rfl
  -- Each field leaves what the other one has stored.
  have hmediaKept : ∀ g ∈ record.fields, g.name ≠ "mediaId" → ∀ d update, g.read d = .ok update →
      ∀ a, (update a).mediaId = a.mediaId := by
    intro g hg hne d update hread a
    rcases mem_fields hg with rfl | rfl
    · exact absurd rfl hne
    · obtain ⟨v, -, rfl⟩ := map_eq_ok_iff.mp hread
      rfl
  have hencodingKept : ∀ g ∈ record.fields, g.name ≠ "encodingId" → ∀ d update,
      g.read d = .ok update → ∀ a, (update a).encodingId = a.encodingId := by
    intro g hg hne d update hread a
    rcases mem_fields hg with rfl | rfl
    · obtain ⟨v, -, rfl⟩ := map_eq_ok_iff.mp hread
      rfl
    · exact absurd rfl hne
  constructor
  · rcases Record.under_of_foldlM_of mediaId hmedia hmediaKept (fun _ _ => rfl) h with
      hnone | ⟨hseen, d, hone, hread⟩
    · exact Or.inl hnone
    · exact Or.inr ⟨hseen, readString_eq_ok_iff.mp hread ▸ hone⟩
  · rcases Record.under_of_foldlM_of encodingId hencoding hencodingKept (fun _ _ => rfl) h with
      hnone | ⟨hseen, d, hone, hread⟩
    · exact Or.inl hnone
    · exact Or.inr ⟨hseen, readString_eq_ok_iff.mp hread ▸ hone⟩

theorem missing?_eq_none_iff {seen : List String} :
    record.missing? seen = none ↔ "mediaId" ∈ seen ∧ "encodingId" ∈ seen := by
  rw [Record.missing?_eq_none_iff]
  simp [record, Field.of]

theorem read_map_eq_ok_iff (hwhole : ∀ m ∈ members, m.2.isWhole = true) :
    record.read (.map members .closed) = .ok w ↔ (∀ m ∈ members, m.1.isSome = true) ∧
      under "mediaId" members = [.str w.mediaId] ∧
      under "encodingId" members = [.str w.encodingId] := by
  rw [Record.read_map_eq_ok_iff]
  simp only [missing?_eq_none_iff]
  constructor
  · rintro ⟨seen, hfold, hmedia, hencoding⟩
    obtain ⟨hm, he⟩ := under_of_foldlM hfold
    refine ⟨Record.isSome_of_foldlM hfold, ?_, ?_⟩
    · exact (hm.resolve_left fun h => h.2 hmedia).2
    · exact (he.resolve_left fun h => h.2 hencoding).2
  · rintro ⟨hnames, hmedia, hencoding⟩
    have honce : record.Once [] members := by
      intro name f hf
      obtain ⟨hmem, rfl⟩ := Record.name_of_field? hf
      rcases mem_fields hmem with rfl | rfl
      · exact Or.inr ⟨List.not_mem_nil, _, _, hmedia, rfl⟩
      · exact Or.inr ⟨List.not_mem_nil, _, _, hencoding, rfl⟩
    obtain ⟨⟨w', seen⟩, hfold⟩ := Record.exists_foldlM (p := (record.blank, [])) hnames hwhole honce
    obtain ⟨hm, he⟩ := under_of_foldlM hfold
    obtain ⟨hmseen, hm⟩ := hm.resolve_left fun h => by simp [hmedia] at h
    obtain ⟨heseen, he⟩ := he.resolve_left fun h => by simp [hencoding] at h
    have hw : w' = w := by
      obtain ⟨media, encoding⟩ := w
      obtain ⟨media', encoding'⟩ := w'
      simp_all
    exact ⟨seen, hw ▸ hfold, hmseen, heseen⟩

theorem read_list_eq_ok_iff {ds : List Document} :
    record.read (.list ds .closed) = .ok w ↔ ds = [.str w.mediaId, .str w.encodingId] := by
  constructor
  · intro h
    rcases ds with _ | ⟨d, _ | ⟨e, ds⟩⟩
    · cases h
    · obtain ⟨update, -, h⟩ := Record.items_cons_eq_ok_iff.mp h
      cases h
    · obtain ⟨update, hd, h⟩ := Record.items_cons_eq_ok_iff.mp h
      obtain ⟨update', he, h⟩ := Record.items_cons_eq_ok_iff.mp h
      obtain ⟨media, hmedia, rfl⟩ := map_eq_ok_iff.mp hd
      obtain ⟨encoding, hencoding, rfl⟩ := map_eq_ok_iff.mp he
      cases ds with
      | nil =>
        obtain rfl := Except.ok.inj h
        rw [readString_eq_ok_iff.mp hmedia, readString_eq_ok_iff.mp hencoding]
      | cons x ds => cases h
  · rintro rfl
    rfl

/-- A wish is read from the documents that it is written as, and from no others. -/
theorem read_eq_ok_iff {d : Document} (hd : d.Complete) :
    record.read d = .ok w ↔ w.WrittenAs d := by
  constructor
  · intro h
    cases hd with
    | list hitems =>
      rw [read_list_eq_ok_iff.mp h]
      exact .listed
    | map hmembers =>
      obtain ⟨hnames, hmedia, hencoding⟩ :=
        (read_map_eq_ok_iff fun m hm => (hmembers m hm).isWhole).mp h
      exact .named hnames hmedia hencoding
    | null | bool | unsigned | negative | float | str | unusable => cases h
  · intro h
    cases h with
    | named hnames hmedia hencoding =>
      cases hd with
      | map hmembers =>
        exact (read_map_eq_ok_iff fun m hm => (hmembers m hm).isWhole).mpr
          ⟨hnames, hmedia, hencoding⟩
    | listed => exact read_list_eq_ok_iff.mpr rfl

end LayerRequest

namespace Gateway

open Http

/-! ## The body of a post -/

/-- The body arrives, and it is JSON that the wish is written in. -/
def Wishes (b : Body) (w : LayerRequest) : Prop :=
  b.Arrives maxBodyBytes ∧ ∃ d, Json.Represents b.chunks.flatten d ∧ w.WrittenAs d

variable {b : Body} {w : LayerRequest}

/-- What decodes is a wish. -/
theorem decode_eq_ok_iff {bytes : Bytes} : Json.decode LayerRequest.record.read bytes = .ok w ↔
    ∃ d, Json.Represents bytes d ∧ w.WrittenAs d := by
  rw [Json.decode_record_eq_ok_iff]
  refine exists_congr fun d => and_congr_right fun h => ?_
  exact LayerRequest.read_eq_ok_iff h.2

theorem readLayerRequest_eq_ok_iff : readLayerRequest b = .ok w ↔ Wishes b w := by
  by_cases h : b.Arrives maxBodyBytes
  · rw [readLayerRequest_of_arrives h, Wishes, ← decode_eq_ok_iff]
    cases Json.decode LayerRequest.record.read b.chunks.flatten <;> simp [Except.mapError, h]
  · obtain ⟨text, htext⟩ := readLayerRequest_of_not_arrives h
    exact iff_of_false (by simp [htext]) fun hw => h hw.1

/-- What arrives and is no wish is refused as such. -/
theorem readLayerRequest_eq_error (h : b.Arrives maxBodyBytes) (hno : ∀ w, ¬ Wishes b w) :
    ∃ text, readLayerRequest b = .error (.decode text) := by
  cases hread : readLayerRequest b with
  | ok w => exact absurd (readLayerRequest_eq_ok_iff.mp hread) (hno w)
  | error e =>
    rw [readLayerRequest_of_arrives h] at hread
    cases hdecode : Json.decode LayerRequest.record.read b.chunks.flatten with
    | ok w => simp [hdecode, Except.mapError] at hread
    | error x =>
      rw [hdecode] at hread
      exact ⟨x.message, congrArg _ (Except.error.inj hread).symm⟩

/-! ## Answers -/

/-- The response refuses a request: its body is an object of a code and a text. -/
def Refuses (response : Response) (status : Nat) (code : String) : Prop :=
  response.status = status ∧ ∃ text, Json.Represents response.body
    (.map [(some "error", .str code), (some "message", .str text)] .closed)

theorem refuses_refuse (e : ApiError) :
    Refuses ((refuse e).withHeaders openFields) e.status e.code :=
  ⟨rfl, e.message, Json.represents_render (v := e.toJson) rfl⟩

/-- What a post to the layer selection of a session comes to, with whatever engine. -/
structure Switched {σ : Type} (backend : Backend σ) (s : σ) (r : Request) (id : String)
    (o : Dialogue.Outcome Response σ) : Prop where
  /-- The engine is asked once for the encoding that the body names, and nothing else is. -/
  of_wish : ∀ w, Wishes r.body w →
    o.calls = [.setLayer id w.encodingId] ∧ o.backend = (backend (.setLayer id w.encodingId) s).2
  /-- Without a wish nobody is asked. -/
  of_no_wish : (∀ w, ¬ Wishes r.body w) → o.calls = [] ∧ o.backend = s
  /-- A body that does not arrive is refused for that. -/
  of_no_body : ¬ r.body.Arrives maxBodyBytes → Refuses o.result 400 "body_read"
  /-- A body that arrives and does not decode is refused for that. -/
  of_undecoded : r.body.Arrives maxBodyBytes → (∀ w, ¬ Wishes r.body w) →
    Refuses o.result 400 "decode"
  /-- It succeeds exactly if the engine did what it was asked. -/
  ok_iff : o.result.status = 200 ↔ ∃ encodingId, o.calls = [.setLayer id encodingId] ∧
    (backend (.setLayer id encodingId) s).1 = .ok ()
  /-- Success has no body. -/
  body_eq : o.result.status = 200 → o.result.body = []
  /-- A failure of the engine is the request's. -/
  of_failure : ∀ encodingId x, o.calls = [.setLayer id encodingId] →
    (backend (.setLayer id encodingId) s).1 = .error x →
      Refuses o.result 400 (ApiError.ofEngine x).code

variable {σ : Type} {backend : Backend σ} {s : σ} {r : Request} {id : String}

/-- A post that is refused before the engine is asked. -/
theorem switched_refused {e : ApiError} (hread : readLayerRequest r.body = .error e)
    (hstatus : e.status = 400)
    (hcode : ¬ r.body.Arrives maxBodyBytes ∧ e.code = "body_read" ∨
      r.body.Arrives maxBodyBytes ∧ e.code = "decode") :
    Switched backend s r id ⟨(refuse e).withHeaders openFields, [], s⟩ where
  of_wish w hw := absurd (readLayerRequest_eq_ok_iff.mpr hw) (by simp [hread])
  of_no_wish _ := ⟨rfl, rfl⟩
  of_no_body hnot := by
    obtain ⟨-, hcode⟩ := hcode.resolve_right fun h => hnot h.1
    exact hstatus ▸ hcode ▸ refuses_refuse e
  of_undecoded harrives _ := by
    obtain ⟨-, hcode⟩ := hcode.resolve_left fun h => h.1 harrives
    exact hstatus ▸ hcode ▸ refuses_refuse e
  ok_iff := by
    refine iff_of_false (fun h => ?_) (by simp)
    exact absurd (hstatus.symm.trans h) (by decide)
  body_eq h := absurd (hstatus.symm.trans h) (by decide)
  of_failure _ _ hcalls := absurd hcalls (by simp)

/-- A post that the engine is asked about. -/
theorem switched_asked {w : LayerRequest} (hw : Wishes r.body w) {response : Response}
    (hok : (backend (.setLayer id w.encodingId) s).1 = .ok () →
      response.status = 200 ∧ response.body = [])
    (herror : ∀ x, (backend (.setLayer id w.encodingId) s).1 = .error x →
      Refuses response 400 (ApiError.ofEngine x).code) :
    Switched backend s r id ⟨response, [.setLayer id w.encodingId],
      (backend (.setLayer id w.encodingId) s).2⟩ where
  of_wish w' hw' := by
    have hread := readLayerRequest_eq_ok_iff.mpr hw
    have hread' := readLayerRequest_eq_ok_iff.mpr hw'
    rw [Except.ok.inj (hread.symm.trans hread')]
    exact ⟨rfl, rfl⟩
  of_no_wish hno := absurd hw (hno w)
  of_no_body hnot := absurd hw.1 hnot
  of_undecoded _ hno := absurd hw (hno w)
  ok_iff := by
    constructor
    · intro hstatus
      cases hanswer : (backend (.setLayer id w.encodingId) s).1 with
      | ok done => exact ⟨w.encodingId, rfl, hanswer⟩
      | error x => exact absurd (hstatus.symm.trans (herror x hanswer).1) (by decide)
    · rintro ⟨encodingId, hcalls, hanswer⟩
      obtain ⟨-, rfl⟩ := Call.setLayer.inj (List.singleton_inj.mp hcalls)
      exact (hok hanswer).1
  body_eq hstatus := by
    cases hanswer : (backend (.setLayer id w.encodingId) s).1 with
    | ok done => exact (hok hanswer).2
    | error x => exact absurd (hstatus.symm.trans (herror x hanswer).1) (by decide)
  of_failure encodingId x hcalls hanswer := by
    obtain ⟨-, rfl⟩ := Call.setLayer.inj (List.singleton_inj.mp hcalls)
    exact herror x hanswer

/-- What the layer selection of a session makes of a body. -/
theorem switched_selectLayer (backend : Backend σ) (s : σ) (r : Request) (id : String) :
    Switched backend s r id
      (((selectLayer id r).map (·.withHeaders openFields)).run backend s) := by
  rw [Dialogue.run_map, selectLayer]
  cases hread : readLayerRequest r.body with
  | ok w =>
    have hw := readLayerRequest_eq_ok_iff.mp hread
    cases hanswer : (backend (.setLayer id w.encodingId) s).1 with
    | ok done =>
      simp only [Dialogue.run, hanswer]
      exact switched_asked hw (fun _ => ⟨rfl, rfl⟩) fun x hx =>
        absurd (hanswer.symm.trans hx) (by simp)
    | error x =>
      simp only [Dialogue.run, hanswer]
      refine switched_asked hw (fun hok => absurd (hanswer.symm.trans hok) (by simp)) fun y hy => ?_
      rw [← Except.error.inj (hanswer.symm.trans hy), ← ApiError.status_ofEngine x]
      exact refuses_refuse _
  | error e =>
    by_cases harrives : r.body.Arrives maxBodyBytes
    · have hno : ∀ w, ¬ Wishes r.body w := fun w hw =>
        absurd (readLayerRequest_eq_ok_iff.mpr hw) (by simp [hread])
      obtain ⟨text, htext⟩ := readLayerRequest_eq_error harrives hno
      obtain rfl := Except.error.inj (hread.symm.trans htext)
      exact switched_refused hread rfl (Or.inr ⟨harrives, rfl⟩)
    · obtain ⟨text, htext⟩ := readLayerRequest_of_not_arrives harrives
      obtain rfl := Except.error.inj (hread.symm.trans htext)
      exact switched_refused hread rfl (Or.inl ⟨harrives, rfl⟩)

/-- A post to the layer selection of a session, which any segment but the empty one names by what it
stands for percent-decoded, is decoded before it is applied: whatever the body and the engine, the
engine is asked once, for the encoding that the body names, if the body is a wish, and is left alone
otherwise. The post succeeds exactly if the engine did so, and is refused for what went wrong if not.
No route leads to the empty segment. -/
theorem switches_as_asked {withStatus : Bool} {r : Request} {segment id : String}
    (hpost : r.method = "POST") (hpath : r.uri.path = "/api/layer/" ++ segment)
    (hslash : '/' ∉ segment.toList)
    (hdecoded : Utf8.decode? (percentDecode (Utf8.encode segment)) = some id) {σ : Type}
    (backend : Backend σ) (s : σ) :
    let o := (respond withStatus r).run backend s
    (segment ≠ "" → Switched backend s r id o) ∧
      (segment = "" → o.result.status = 404 ∧ o.calls = [] ∧ o.backend = s) := by
  intro o
  constructor
  · intro hne
    have hrespond : respond withStatus r = (selectLayer id r).map (·.withHeaders openFields) :=
      respond_layer ⟨hne, hslash, hdecoded⟩ hpost hpath
    have ho : o = ((selectLayer id r).map (·.withHeaders openFields)).run backend s :=
      congrArg (·.run backend s) hrespond
    rw [ho]
    exact switched_selectLayer backend s r id
  · rintro rfl
    have hroute : Resource.ofPath? withStatus r.uri.path = none := by
      rw [hpath]
      rfl
    have hrespond : respond withStatus r =
        .done ((Response.bare 404 []).withHeaders openFields) := by
      rw [respond_of_ne_options (by simp [hpost]), hroute]
      rfl
    have ho : o = ⟨(Response.bare 404 []).withHeaders openFields, [], s⟩ :=
      congrArg (·.run backend s) hrespond
    rw [ho]
    exact ⟨rfl, rfl, rfl⟩

/-- A session whose id has a space in it is switched by a body that says more than it has to, in
another order. -/
theorem switches_as_asked_spaced :
    let wish : Json.Value :=
      .object [("x", .list [.null]), ("encodingId", .str "h"), ("mediaId", .str "1")]
    let post : Request := ⟨"POST", ⟨none, none, "/api/layer/a%20b"⟩, [],
      ⟨[Utf8.encode wish.render], none⟩⟩
    let relay : Relay Store := ⟨.memory ⟨[]⟩, .hostOnly, .fresh⟩
    let o := (respond true post).run (Relay.backend ⟨Store.find, Store.streamKeys⟩ 0 "s") relay
    o.calls = [.setLayer "a b" "h"] ∧ Refuses o.result 400 "session_not_found" := by
  intro wish post relay o
  have hwritten : LayerRequest.WrittenAs ⟨"1", "h"⟩ wish.document :=
    .named Json.Value.isSome_of_mem_memberDocuments rfl rfl
  have hwish : Wishes post.body ⟨"1", "h"⟩ := by
    refine ⟨⟨rfl, by decide⟩, wish.document, ?_, hwritten⟩
    simpa [post] using Json.represents_render (v := wish) rfl
  have hpath : post.uri.path = "/api/layer/" ++ "a%20b" := by decide
  have hswitched : Switched _ relay post "a b" o :=
    (switches_as_asked rfl hpath (by decide) (by decide) _ relay).1 (by decide)
  have hcalls := (hswitched.of_wish _ hwish).1
  exact ⟨hcalls, hswitched.of_failure "h" (.sessionNotFound "a b") hcalls rfl⟩

/-- The empty segment is a segment as well and percent-decodes to the empty text, but a wish that is
posted there does not come to the engine. -/
theorem empty_segment_switches_nothing : ¬ ∀ {σ : Type} (backend : Backend σ) (s : σ) (r : Request)
    (segment id : String), r.method = "POST" → r.uri.path = "/api/layer/" ++ segment →
    '/' ∉ segment.toList → Utf8.decode? (percentDecode (Utf8.encode segment)) = some id →
    Switched backend s r id ((respond true r).run backend s) := by
  intro h
  let wish : Json.Value := .object [("mediaId", .str "1"), ("encodingId", .str "h")]
  let post : Request := ⟨"POST", ⟨none, none, "/api/layer/"⟩, [],
    ⟨[Utf8.encode wish.render], none⟩⟩
  let relay : Relay Store := ⟨.memory ⟨[]⟩, .hostOnly, .fresh⟩
  have hswitched := h (Relay.backend ⟨Store.find, Store.streamKeys⟩ 0 "s") relay post "" "" rfl
    (by decide) (by decide) (by decide)
  have hwritten : LayerRequest.WrittenAs ⟨"1", "h"⟩ wish.document :=
    .named Json.Value.isSome_of_mem_memberDocuments rfl rfl
  have hwish : Wishes post.body ⟨"1", "h"⟩ := by
    refine ⟨⟨rfl, by decide⟩, wish.document, ?_, hwritten⟩
    simpa [post] using Json.represents_render (v := wish) rfl
  have hcalls := (hswitched.of_wish _ hwish).1
  exact absurd hcalls (by decide)

end Gateway

end BroadcastRelay
