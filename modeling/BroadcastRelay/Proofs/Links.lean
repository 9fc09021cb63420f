import BroadcastRelay.Proofs.Publishing
import BroadcastRelay.Proofs.Utf8
import Mathlib.Data.List.TakeWhile
/-!
# The links of a session

A viewer whose offer is taken gets two links, and with them it comes back: the target of the first is
the path of the session's layer events, that of the second the path of its layer selection. A writer
(`Link.events`, `Link.layer`), a reader (`Link.target?`) and the routes of the gateway have to fit for
that. The reader cuts a link at every semicolon, also inside its target, so it is the quotes that keep
a target from passing for a parameter (`Link.target?_eq`). The routes decode what is written with
percent signs, so it matters that the ids of sessions are written without any
(`namesSession_of_isValid`). `links_lead_back` puts them together.
-/

namespace BroadcastRelay

/-! ## Reading links -/

namespace Link

theorem bracketed?_eq {inner : List Char} (h : '>' ∉ inner) (rest : List Char) :
    bracketed? ('<' :: (inner ++ '>' :: rest)) = some inner := by
  have hcontains : (inner ++ '>' :: rest).contains '>' = true := by simp
  have htake : (inner ++ '>' :: rest).takeWhile (· ≠ '>') = inner := by
    have hinner : ∀ c ∈ inner, (decide (c ≠ '>')) = true := by
      intro c hc
      have hne : c ≠ '>' := fun heq => h (heq ▸ hc)
      exact decide_eq_true hne
    rw [List.takeWhile_append_of_pos hinner, List.takeWhile_cons_of_neg (by simp), List.append_nil]
  rw [bracketed?, List.dropWhile_cons_of_neg (by simp)]
  dsimp only
  rw [if_pos hcontains, htake]

/-- A link has a relation exactly if a parameter after its target is that relation: a target without
quotes has no piece that passes for one. -/
theorem target?_eq {target : String} (hend : '>' ∉ target.toList) (hquote : '"' ∉ target.toList)
    (params rel : String) :
    target? ("<" ++ target ++ ">;" ++ params) rel =
      if (split (· == ';') params.toList).any fun p => trim p == ("rel=\"" ++ rel ++ "\"").toList
      then some target else none := by
  have hlink : ("<" ++ target ++ ">;" ++ params).toList =
      ('<' :: target.toList ++ ['>']) ++ ';' :: params.toList := by
    simp [String.toList_append]
  have hfront : (split (· == ';') ('<' :: target.toList ++ ['>'])).any
      (fun p => trim p == ("rel=\"" ++ rel ++ "\"").toList) = false := by
    rw [List.any_eq_false]
    intro p hp heq
    have hmem : '"' ∈ trim p := by
      rw [beq_iff_eq.mp heq]
      simp [String.toList_append]
    have hin := (mem_of_mem_split hp (mem_of_mem_trim hmem)).1
    simp [hquote] at hin
  have hbracketed : bracketed? (('<' :: target.toList ++ ['>']) ++ ';' :: params.toList) =
      some target.toList := by
    have heq := bracketed?_eq hend (';' :: params.toList)
    simpa using heq
  rw [target?, hlink, split_append_cons (by simp), List.any_append, hfront, Bool.false_or,
    hbracketed, Option.map_some, String.ofList_toList]

/-- The first link is found by the relation of events only, and the second by that of layers only. -/
structure Lead (first second events layer : String) : Prop where
  events_eq : target? first eventsRel = some events
  layer_none : target? first layerRel = none
  events_none : target? second eventsRel = none
  layer_eq : target? second layerRel = some layer

/-- The links of a session lead to what was written into them. -/
theorem lead_links {base id : String} (hbase : '>' ∉ base.toList ∧ '"' ∉ base.toList)
    (hid : '>' ∉ id.toList ∧ '"' ∉ id.toList) :
    Lead (events base id) (layer base id) (base ++ "sse/" ++ id) (base ++ "layer/" ++ id) := by
  have hfree : ∀ c below, c ∉ base.toList → c ∉ id.toList → c ∉ (below : String).toList →
      c ∉ (base ++ below ++ id).toList := by
    intro c below h₁ h₂ h₃
    simp [String.toList_append, h₁, h₂, h₃]
  have hevents : events base id = "<" ++ (base ++ "sse/" ++ id) ++ ">;" ++
      (" rel=\"" ++ eventsRel ++ "\"; events=\"layers\"") := by
    have hmark : ">; rel=\"" = ">;" ++ " rel=\"" := rfl
    simp only [events, hmark, String.append_assoc]
  have hlayer : layer base id = "<" ++ (base ++ "layer/" ++ id) ++ ">;" ++
      (" rel=\"" ++ layerRel ++ "\"") := by
    have hmark : ">; rel=\"" = ">;" ++ " rel=\"" := rfl
    simp only [layer, hmark, String.append_assoc]
  have hsse := target?_eq (hfree '>' "sse/" hbase.1 hid.1 (by decide))
    (hfree '"' "sse/" hbase.2 hid.2 (by decide)) (" rel=\"" ++ eventsRel ++ "\"; events=\"layers\"")
  have hselect := target?_eq (hfree '>' "layer/" hbase.1 hid.1 (by decide))
    (hfree '"' "layer/" hbase.2 hid.2 (by decide)) (" rel=\"" ++ layerRel ++ "\"")
  rw [hevents, hlayer]
  exact ⟨(hsse _).trans (if_pos (by decide)), (hsse _).trans (if_neg (by decide)),
    (hselect _).trans (if_neg (by decide)), (hselect _).trans (if_pos (by decide))⟩

end Link

/-! ## Ids -/

namespace StreamKey

/-- A character of a stream key is printable and has no meaning of its own in a path or a link. -/
theorem plain_of_isKeyChar {c : Char} (h : isKeyChar c = true) :
    Http.isPrintable c = true ∧ Http.Uri.isPathByte (UInt8.ofNat c.toNat) = true ∧
      c ∉ ['/', '>', '"', '%', '?', '#'] := by
  have hascii : c.toNat < 128 := by
    simp only [isKeyChar, Bool.or_eq_true, decide_eq_true_eq] at h
    rcases h with (((h | rfl) | rfl) | rfl) | rfl
    · have hranges : c.isAlphanum = ((decide (c.val ≥ 'A'.val ∧ c.val ≤ 'Z'.val) ||
          (decide (c.val ≥ 'a'.val) && decide (c.val ≤ 'z'.val))) ||
          (decide (c.val ≥ '0'.val) && decide (c.val ≤ '9'.val))) := rfl
      simp only [hranges, Bool.or_eq_true, Bool.and_eq_true, decide_eq_true_eq, ge_iff_le,
        UInt32.le_iff_toNat_le] at h
      change c.val.toNat < 128
      change ((65 ≤ c.val.toNat ∧ c.val.toNat ≤ 90) ∨ (97 ≤ c.val.toNat ∧ c.val.toNat ≤ 122)) ∨
        (48 ≤ c.val.toNat ∧ c.val.toNat ≤ 57) at h
      omega
    all_goals decide
  have hall : ∀ n : Nat, n < 128 → isKeyChar (Char.ofNat n) = true →
      Http.isPrintable (Char.ofNat n) = true ∧
        Http.Uri.isPathByte (UInt8.ofNat (Char.ofNat n).toNat) = true ∧
        Char.ofNat n ∉ ['/', '>', '"', '%', '?', '#'] := by
    decide
  have hc := hall c.toNat hascii
  rw [Char.ofNat_toNat] at hc
  exact hc h

variable {key : String}

theorem plain_of_isValid (h : isValid key = true) {c : Char} (hc : c ∈ key.toList) :
    Http.isPrintable c = true ∧ Http.Uri.isPathByte (UInt8.ofNat c.toNat) = true ∧
      c ∉ ['/', '>', '"', '%', '?', '#'] :=
  plain_of_isKeyChar ((isValid_iff.mp h).2 c hc)

theorem not_mem_of_isValid (h : isValid key = true) {c : Char}
    (hc : c ∈ ['/', '>', '"', '%', '?', '#']) : c ∉ key.toList :=
  fun hmem => (plain_of_isValid h hmem).2.2 hc

/-- A path parameter that is a stream key stands for itself. -/
theorem decode?_percentDecode (h : isValid key = true) :
    Utf8.decode? (Http.percentDecode (Utf8.encode key)) = some key := by
  have hpercent : (37 : UInt8) ∉ Utf8.encode key := by
    intro hmem
    exact not_mem_of_isValid h (by decide : '%' ∈ _) ((Utf8.mem_encode_iff (by decide)).mp hmem)
  rw [Http.percentDecode_of_not_mem hpercent, Utf8.decode?_encode]

end StreamKey

/-! ## Paths -/

namespace Http.Uri

variable {text : String}

theorem ne_of_isPathByte {b : UInt8} (h : isPathByte b = true) : b ≠ 35 ∧ b ≠ 63 := by
  constructor <;> rintro rfl <;> exact absurd h (by decide)

/-- Bytes that may stand in a path are read as the target that they are: neither the mark of a query
nor that of a fragment is one of them. -/
theorem readTarget_encode (h : ∀ b ∈ Utf8.encode text, isPathByte b = true) :
    readTarget (Utf8.encode text) = .ok text := by
  have hwhole : (Utf8.encode text).takeWhile (· ≠ 35) = Utf8.encode text := by
    rw [List.takeWhile_eq_self_iff]
    exact fun b hb => decide_eq_true (ne_of_isPathByte (h b hb)).1
  have hpath : (Utf8.encode text).takeWhile (· ≠ 63) = Utf8.encode text := by
    rw [List.takeWhile_eq_self_iff]
    exact fun b hb => decide_eq_true (ne_of_isPathByte (h b hb)).2
  have hquery : (Utf8.encode text).dropWhile (· ≠ 63) = [] := by
    rw [List.dropWhile_eq_nil_iff]
    exact fun b hb => decide_eq_true (ne_of_isPathByte (h b hb)).2
  have hall : (Utf8.encode text).all isPathByte = true := List.all_eq_true.mpr h
  unfold readTarget
  simp only [hwhole, hpath, hquery, hall, Utf8.decode?_encode, List.drop_nil, List.all_nil,
    Bool.and_self, Bool.not_true, Bool.false_eq_true, if_false]
  rfl

theorem parse_slash (bs : Bytes) :
    parse (47 :: bs) =
      if maxLength < (47 :: bs).length then .error .tooLong
      else (readTarget (47 :: bs)).map fun target => ⟨none, none, target⟩ := by
  cases bs <;> rfl

/-- Such a text that starts with a slash is a request target with itself as its path, unless it is
too long for any. -/
theorem parse_of_path {bs : Bytes} (hslash : Utf8.encode text = 47 :: bs)
    (h : ∀ b ∈ Utf8.encode text, isPathByte b = true)
    (hlength : (Utf8.encode text).length ≤ maxLength) :
    ∃ uri, parse (Utf8.encode text) = .ok uri ∧ uri.path = text := by
  refine ⟨⟨none, none, text⟩, ?_, ?_⟩
  · have hread := readTarget_encode h
    rw [hslash] at hread hlength ⊢
    rw [parse_slash, if_neg (Nat.not_lt.mpr hlength), hread]
    rfl
  · have hquestion : '?' ∉ text.toList := by
      intro hmem
      rw [← Utf8.mem_encode_iff (by decide)] at hmem
      exact (ne_of_isPathByte (h _ hmem)).2 rfl
    have hwritten : text.toList.takeWhile (· ≠ '?') = text.toList := by
      rw [List.takeWhile_eq_self_iff]
      exact fun c hc => decide_eq_true fun heq => hquestion (heq ▸ hc)
    have hnonempty : text.toList ≠ [] := by
      intro hempty
      rw [Utf8.encode_eq_flatMap, hempty] at hslash
      exact absurd hslash (by simp)
    rw [path]
    simp only [hwritten]
    rw [if_pos (by simpa using hnonempty), String.ofList_toList]

/-- A path that ends in a stream key can be asked for. -/
theorem parse_append_key (above : String) {key : String} {bs : Bytes}
    (hslash : Utf8.encode above = 47 :: bs) (habove : (Utf8.encode above).all isPathByte = true)
    (hkey : StreamKey.isValid key = true)
    (hlength : (Utf8.encode (above ++ key)).length ≤ maxLength) :
    ∃ uri, parse (Utf8.encode (above ++ key)) = .ok uri ∧ uri.path = above ++ key := by
  have hprintable : ∀ c ∈ key.toList, isPrintable c = true :=
    fun c hc => (StreamKey.plain_of_isValid hkey hc).1
  have hstart : Utf8.encode (above ++ key) = 47 :: (bs ++ Utf8.encode key) := by
    rw [Utf8.encode_append, hslash, List.cons_append]
  refine parse_of_path hstart (fun b hb => ?_) hlength
  rw [Utf8.encode_append, List.mem_append] at hb
  rcases hb with hb | hb
  · exact List.all_eq_true.mp habove b hb
  · rw [encode_of_printable hprintable] at hb
    obtain ⟨c, hc, rfl⟩ := List.mem_map.mp hb
    exact (StreamKey.plain_of_isValid hkey hc).2.1

end Http.Uri

namespace Gateway

open Http

namespace Resource

variable {withStatus : Bool} {collection id : String}

/-- What stands before a slash and what stands after it are segmented apart. -/
theorem segments_append_slash (s rest : String) :
    segments (s ++ "/" ++ rest) = segments s ++ segments rest := by
  have hpath : (s ++ "/" ++ rest).toList = s.toList ++ '/' :: rest.toList := by
    simp [String.toList_append]
  rw [segments, hpath, split_append_cons (by simp), List.map_append, segments, segments]

theorem segments_of_not_mem {s : String} (h : '/' ∉ s.toList) : segments s = [s] := by
  have hwhole : split (· == '/') s.toList = [s.toList] :=
    split_of_forall_not fun c hc => beq_eq_false_iff_ne.mpr fun heq => h (heq ▸ hc)
  rw [segments, hwhole, List.map_singleton, String.ofList_toList]

theorem segments_below (hcollection : '/' ∉ collection.toList) (rest : String) :
    segments ("/api/" ++ collection ++ "/" ++ rest) =
      "" :: "api" :: collection :: segments rest := by
  have hpath : "/api/" ++ collection = "" ++ "/" ++ ("api" ++ "/" ++ collection) := by
    simp [← String.toList_inj]
  rw [segments_append_slash, hpath, segments_append_slash, segments_append_slash,
    segments_of_not_mem hcollection, segments_of_not_mem (by decide : '/' ∉ "".toList),
    segments_of_not_mem (by decide : '/' ∉ "api".toList)]
  rfl

theorem ofPath?_events (hne : id ≠ "") (hid : '/' ∉ id.toList) :
    ofPath? withStatus ("/api/sse/" ++ id) = some (.events id) := by
  have hsegments := segments_below (by decide : '/' ∉ "sse".toList) id
  have hpath : "/api/sse/" ++ id = "/api/" ++ "sse" ++ "/" ++ id := rfl
  rw [ofPath?, hpath, hsegments, segments_of_not_mem hid]
  simp [hne]

theorem ofPath?_layer (hne : id ≠ "") (hid : '/' ∉ id.toList) :
    ofPath? withStatus ("/api/layer/" ++ id) = some (.layer id) := by
  have hsegments := segments_below (by decide : '/' ∉ "layer".toList) id
  have hpath : "/api/layer/" ++ id = "/api/" ++ "layer" ++ "/" ++ id := rfl
  rw [ofPath?, hpath, hsegments, segments_of_not_mem hid]
  simp [hne]

end Resource

end Gateway

/-! ## Dialogues -/

namespace Dialogue

variable {α β σ : Type}

/-- A changed result changes nothing else. -/
theorem run_map (answer : Backend σ) (d : Dialogue α) (f : α → β) (s : σ) :
    (d.map f).run answer s =
      ⟨f (d.run answer s).result, (d.run answer s).calls, (d.run answer s).backend⟩ := by
  rw [map, run_bind]
  simp only [run_done, List.append_nil]

end Dialogue

theorem status_of_readViewKey {values : List Bytes} {e : ApiError}
    (h : readViewKey values = .error e) : e.status = 400 := by
  rcases error_of_bind h with h | ⟨parts, h⟩
  · exact status_of_bearerToken h
  · dsimp only at h
    split at h
    · cases h
    · exact Except.error.inj h ▸ rfl

namespace Gateway

open Http

variable {σ : Type} {answer : Backend σ} {withStatus : Bool} {r : Request} {s : σ} {id : String}

/-- What a resource does by one of its methods is the answer, which pages of any origin may read. -/
theorem respond_of_allowed {resource : Resource}
    (hroute : Resource.ofPath? withStatus r.uri.path = some resource)
    (hmethod : r.method ∈ resource.methods) (hhead : r.method ≠ "HEAD") :
    respond withStatus r = (resource.act r).map (·.withHeaders openFields) := by
  have hoptions : r.method ≠ "OPTIONS" := by
    intro heq
    rw [heq] at hmethod
    cases resource <;> simp [Resource.methods] at hmethod
  have hallowed : resource.methods.contains r.method = true := by simpa using hmethod
  rw [respond_of_ne_options hoptions, hroute, BroadcastRelay.Gateway.answer, Resource.respond,
    if_pos hallowed]
  simp only [if_neg hhead]
  rw [Dialogue.map_id]

theorem calls_layerEvents (answer : Backend σ) (id : String) (s : σ) :
    ((layerEvents id).run answer s).calls = [.layers id] := by
  unfold layerEvents
  cases hanswer : (answer (.layers id) s).1 <;> simp [Dialogue.run, hanswer]

theorem calls_selectLayer {request : LayerRequest} (hbody : readLayerRequest r.body = .ok request)
    (answer : Backend σ) (id : String) (s : σ) :
    ((selectLayer id r).run answer s).calls = [.setLayer id request.encodingId] := by
  unfold selectLayer
  rw [hbody]
  cases hanswer : (answer (.setLayer id request.encodingId) s).1 <;> simp [Dialogue.run, hanswer]

/-! ## Coming to a session -/

/-- A path parameter that names a session: it is what the routes look for, and percent-decoded it is
the id of the session. -/
structure NamesSession (segment id : String) : Prop where
  nonempty : segment ≠ ""
  not_slash : '/' ∉ segment.toList
  decoded : Utf8.decode? (percentDecode (Utf8.encode segment)) = some id

/-- An id in the form of a stream key names its session as it is. -/
theorem namesSession_of_isValid (hid : StreamKey.isValid id = true) : NamesSession id id :=
  ⟨(StreamKey.isValid_iff.mp hid).1, StreamKey.not_mem_of_isValid hid (by decide),
    StreamKey.decode?_percentDecode hid⟩

variable {segment : String}

theorem respond_events (hsegment : NamesSession segment id) (hget : r.method = "GET")
    (hpath : r.uri.path = "/api/sse/" ++ segment) :
    respond withStatus r = (layerEvents id).map (·.withHeaders openFields) := by
  have hroute : Resource.ofPath? withStatus r.uri.path = some (.events segment) :=
    hpath ▸ Resource.ofPath?_events hsegment.nonempty hsegment.not_slash
  rw [respond_of_allowed hroute (by simp [Resource.methods, hget]) (by simp [hget]), Resource.act,
    Resource.withParameter, hsegment.decoded]

theorem respond_layer (hsegment : NamesSession segment id) (hpost : r.method = "POST")
    (hpath : r.uri.path = "/api/layer/" ++ segment) :
    respond withStatus r = (selectLayer id r).map (·.withHeaders openFields) := by
  have hroute : Resource.ofPath? withStatus r.uri.path = some (.layer segment) :=
    hpath ▸ Resource.ofPath?_layer hsegment.nonempty hsegment.not_slash
  rw [respond_of_allowed hroute (by simp [Resource.methods, hpost]) (by simp [hpost]), Resource.act,
    Resource.withParameter, hsegment.decoded]

/-- The engine is asked for the layers of the session that the path names, and for nothing else. -/
theorem calls_events (hsegment : NamesSession segment id) (hget : r.method = "GET")
    (hpath : r.uri.path = "/api/sse/" ++ segment) (answer : Backend σ) (s : σ) :
    ((respond withStatus r).run answer s).calls = [.layers id] := by
  rw [respond_events hsegment hget hpath, Dialogue.run_map]
  exact calls_layerEvents answer id s

/-- The engine is asked to select what the body names for the session that the path names, and for
nothing else. -/
theorem calls_layer (hsegment : NamesSession segment id) (hpost : r.method = "POST")
    (hpath : r.uri.path = "/api/layer/" ++ segment) {request : LayerRequest}
    (hbody : readLayerRequest r.body = .ok request) (answer : Backend σ) (s : σ) :
    ((respond withStatus r).run answer s).calls = [.setLayer id request.encodingId] := by
  rw [respond_layer hsegment hpost hpath, Dialogue.run_map]
  exact calls_selectLayer hbody answer id s

/-! ## Getting the links -/

/-- Only the engine can say yes to a viewer. -/
theorem subscribe_of_created (h : ((subscribe r).run answer s).result.status = 201) :
    ∃ streamKey offer a, ((subscribe r).run answer s).calls = [.egress streamKey offer] ∧
      (answer (.egress streamKey offer) s).1 = .ok a ∧
      ((subscribe r).run answer s).result = welcome r.uri.path a := by
  have hrefused : ∀ e : ApiError, e.status = 400 → (refuse e).status ≠ 201 := by
    intro e he
    simp [refuse, Response.json, Response.sized, he]
  unfold subscribe at h ⊢
  cases hkey : readViewKey (r.headers.all "authorization") with
  | error e =>
    rw [hkey] at h
    exact absurd h (hrefused e (status_of_readViewKey hkey))
  | ok streamKey =>
    rw [hkey] at h
    rcases readOffer_cases r.body with ⟨offer, hoffer, -⟩ | ⟨e, hoffer, he, -⟩
    · rw [hoffer] at h
      simp only [hoffer]
      cases hanswer : (answer (.egress streamKey offer) s).1 with
      | error e =>
        simp only [Dialogue.run, hanswer] at h
        exact absurd h (hrefused _ (ApiError.status_ofEngine e))
      | ok a => exact ⟨streamKey, offer, a, by simp [Dialogue.run, hanswer], hanswer,
          by simp [Dialogue.run, hanswer]⟩
    · rw [hoffer] at h
      exact absurd h (hrefused e he)

/-- The links of a session whose id is a stream key are printable. -/
theorem printable_links (hid : StreamKey.isValid id = true) :
    (∀ c ∈ (Link.events "/api/" id).toList, isPrintable c = true) ∧
      ∀ c ∈ (Link.layer "/api/" id).toList, isPrintable c = true := by
  have hkey : ∀ c ∈ id.toList, isPrintable c = true :=
    fun c hc => (StreamKey.plain_of_isValid hid hc).1
  have hparts : ∀ front back : String, front.toList.all isPrintable = true →
      back.toList.all isPrintable = true → ∀ c ∈ (front ++ id ++ back).toList, isPrintable c = true := by
    intro front back hfront hback c hc
    simp only [String.toList_append, List.mem_append] at hc
    rcases hc with (hc | hc) | hc
    · exact List.all_eq_true.mp hfront c hc
    · exact hkey c hc
    · exact List.all_eq_true.mp hback c hc
  have hevents : Link.events "/api/" id =
      "</api/sse/" ++ id ++ (">; rel=\"" ++ Link.eventsRel ++ "\"; events=\"layers\"") := by
    have hfront : "<" ++ "/api/" ++ "sse/" = "</api/sse/" := rfl
    simp only [Link.events, hfront, String.append_assoc]
  have hlayer : Link.layer "/api/" id =
      "</api/layer/" ++ id ++ (">; rel=\"" ++ Link.layerRel ++ "\"") := by
    have hfront : "<" ++ "/api/" ++ "layer/" = "</api/layer/" := rfl
    simp only [Link.layer, hfront, String.append_assoc]
  rw [hevents, hlayer]
  exact ⟨hparts _ _ (by decide) (by decide), hparts _ _ (by decide) (by decide)⟩

/-- A session whose id is a stream key gets its two links, and no other field is a link. -/
theorem links_of_welcome {a : ViewerAnswer} (hid : StreamKey.isValid a.sessionId = true) :
    ((welcome "/api/whep" a).withHeaders openFields).headers.all "link" =
      [Utf8.encode (Link.events "/api/" a.sessionId),
        Utf8.encode (Link.layer "/api/" a.sessionId)] := by
  have hbase : Link.base "/api/whep" = "/api/" := by decide
  obtain ⟨hevents, hlayer⟩ := printable_links hid
  rw [welcome]
  simp only [hbase, List.all_cons, List.all_nil, isValue_encode hevents, isValue_encode hlayer,
    Bool.and_self, if_true]
  simp [created, Response.sized, Response.withHeaders, openFields, field, Headers.all]

/-! ## There and back -/

/-- Requests for the two targets come to a session: a target can be asked for, unless it is too long
for any request, and whoever asks for it asks the engine about the session and nothing else. -/
structure LeadBack (events layer id : String) : Prop where
  events_askable : (Utf8.encode events).length ≤ Uri.maxLength →
    ∃ uri, Uri.parse (Utf8.encode events) = .ok uri ∧ uri.path = events
  layer_askable : (Utf8.encode layer).length ≤ Uri.maxLength →
    ∃ uri, Uri.parse (Utf8.encode layer) = .ok uri ∧ uri.path = layer
  get_events : ∀ {σ : Type} (answer : Backend σ) (withStatus : Bool) (r : Request) (s : σ),
    r.method = "GET" → r.uri.path = events →
      ((respond withStatus r).run answer s).calls = [.layers id]
  post_layer : ∀ {σ : Type} (answer : Backend σ) (withStatus : Bool) (r : Request) (s : σ)
    (request : LayerRequest), r.method = "POST" → r.uri.path = layer →
      readLayerRequest r.body = .ok request →
        ((respond withStatus r).run answer s).calls = [.setLayer id request.encodingId]

theorem leadBack_of_isValid (hid : StreamKey.isValid id = true) :
    LeadBack ("/api/" ++ "sse/" ++ id) ("/api/" ++ "layer/" ++ id) id where
  events_askable := Uri.parse_append_key "/api/sse/" rfl (by decide) hid
  layer_askable := Uri.parse_append_key "/api/layer/" rfl (by decide) hid
  get_events answer _ _ s hget hpath := calls_events (namesSession_of_isValid hid) hget hpath answer s
  post_layer answer _ _ s _ hpost hpath hbody :=
    calls_layer (namesSession_of_isValid hid) hpost hpath hbody answer s

/-- A viewer that is let in gets two links, if the id of its session has the form of a stream key. The
first link is found by the relation of layer events only and the second by that of layer selection
only, and requests for their targets ask the engine about that very session. And links with any other
base or id lead to what was written into them as well, as long as no bracket is closed and no quote
stands in either. -/
theorem links_lead_back {σ : Type} (answer : Backend σ) (withStatus : Bool) :
    (∀ (r : Request) (s : σ), r.method = "POST" → r.uri.path = "/api/whep" →
      ((respond withStatus r).run answer s).result.status = 201 →
      ∃ streamKey offer a, ((respond withStatus r).run answer s).calls = [.egress streamKey offer] ∧
        (answer (.egress streamKey offer) s).1 = .ok a ∧
        (StreamKey.isValid a.sessionId = true → ∃ first second events layer,
          (((respond withStatus r).run answer s).result.headers.all "link").map text? =
            [some first, some second] ∧
          Link.Lead first second events layer ∧ LeadBack events layer a.sessionId)) ∧
    ∀ base id : String, '>' ∉ base.toList ∧ '"' ∉ base.toList → '>' ∉ id.toList ∧ '"' ∉ id.toList →
      Link.Lead (Link.events base id) (Link.layer base id) (base ++ "sse/" ++ id)
        (base ++ "layer/" ++ id) := by
  refine ⟨fun r s hpost hpath hcreated => ?_, fun base id => Link.lead_links⟩
  have hroute : Resource.ofPath? withStatus r.uri.path = some .viewers := by
    rw [hpath]
    rfl
  have hrespond : respond withStatus r = (subscribe r).map (·.withHeaders openFields) :=
    respond_of_allowed hroute (by simp [Resource.methods, hpost]) (by simp [hpost])
  rw [hrespond, Dialogue.run_map] at hcreated ⊢
  obtain ⟨streamKey, offer, a, hcalls, hanswer, hresult⟩ := subscribe_of_created hcreated
  refine ⟨streamKey, offer, a, hcalls, hanswer, fun hid => ?_⟩
  obtain ⟨hevents, hlayer⟩ := printable_links hid
  have hfree : '>' ∉ a.sessionId.toList ∧ '"' ∉ a.sessionId.toList :=
    ⟨StreamKey.not_mem_of_isValid hid (by decide), StreamKey.not_mem_of_isValid hid (by decide)⟩
  have hheaders : (((subscribe r).run answer s).result.withHeaders openFields).headers.all "link" =
      [Utf8.encode (Link.events "/api/" a.sessionId),
        Utf8.encode (Link.layer "/api/" a.sessionId)] := by
    rw [hresult, hpath, links_of_welcome hid]
  refine ⟨_, _, _, _, ?_, Link.lead_links (by decide) hfree, leadBack_of_isValid hid⟩
  rw [hheaders, List.map_cons, List.map_singleton, text?_encode hevents, text?_encode hlayer]

/-- A viewer's request for the broadcast `live` with an offer of a secured connection. -/
def viewerRequest : Request :=
  ⟨"POST", ⟨none, none, "/api/whep"⟩, [field "authorization" "Bearer live"],
    ⟨[Utf8.encode (Sdp.render [])], none⟩⟩

/-- The engine lets the viewer in, and the links lead back to the session `s-1`. -/
theorem links_lead_back_of_viewer :
    let o := (respond true viewerRequest).run
      (Relay.backend ⟨Store.find, Store.streamKeys⟩ 0 "s-1") ⟨.memory ⟨[]⟩, .hostOnly, .fresh⟩
    ∃ first second events layer,
      (o.result.headers.all "link").map text? = [some first, some second] ∧
      Link.Lead first second events layer ∧ LeadBack events layer "s-1" := by
  obtain ⟨key, offer, a, -, hanswer, hlinks⟩ := (links_lead_back
    (Relay.backend ⟨Store.find, Store.streamKeys⟩ 0 "s-1") true).1 viewerRequest
      ⟨.memory ⟨[]⟩, .hostOnly, .fresh⟩ rfl rfl rfl
  have hnamed : ∀ sdp : Except EngineError String,
      sdp.map (fun text => ViewerAnswer.mk text "s-1") = .ok a → a.sessionId = "s-1" := by
    rintro (e | text) h
    · cases h
    · exact Except.ok.inj h ▸ rfl
  have hid : a.sessionId = "s-1" := hnamed _ hanswer
  rw [hid] at hlinks
  exact hlinks (by decide)

end Gateway

end BroadcastRelay
