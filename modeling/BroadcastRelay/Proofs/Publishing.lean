import BroadcastRelay.Credential.Store
import BroadcastRelay.Gateway.Relay
import BroadcastRelay.Proofs.Conversation
import Mathlib.Tactic.Set
/-!
# Who may publish

The engine is asked to take a publisher's offer for a request exactly if the request is a POST to
the path of publishers, its first `Authorization` field is a publish token, the store held exactly
one credential for that token when it was asked, and the body is an offer. Every other request to
that path is refused, by the first of these that fails (`ingest_iff_entitled`).

The invariant of `Conversation` reduces this to the dialogue of one request: `Progress` lists the
points at which the dialogue of a publisher can be, and no other dialogue asks the engine to take
a publisher's offer (`never_ingest`).
-/

namespace BroadcastRelay

/-! ## What a request presents -/

namespace MemoryStore

/-- How many credentials carry the token and own the stream key. -/
def owners (s : MemoryStore) (streamKey authToken : String) : Nat :=
  s.credentials.countP fun c => c.authToken = authToken ∧ streamKey ∈ c.streamKeys

theorem length_filter_covers (s : MemoryStore) (streamKey authToken : String) :
    (s.credentials.filter (·.covers streamKey authToken)).length =
      s.owners streamKey authToken := by
  rw [owners, List.countP_eq_length_filter]
  refine congrArg List.length (List.filter_congr fun c _ => ?_)
  by_cases h : c.authToken = authToken <;> simp [Credential.covers, h]

/-- The store finds a streamer for a token that exactly one credential is for. -/
theorem find_eq (s : MemoryStore) (streamKey authToken : String) :
    (s.owners streamKey authToken = 0 ∧ s.find streamKey authToken = .ok none) ∨
      (s.owners streamKey authToken = 1 ∧
        ∃ name, s.find streamKey authToken = .ok (some ⟨name, streamKey⟩)) ∨
      2 ≤ s.owners streamKey authToken ∧
        s.find streamKey authToken = .error (.duplicateStreamKey streamKey) := by
  rw [← length_filter_covers]
  unfold find
  generalize s.credentials.filter (·.covers streamKey authToken) = found
  match found with
  | [] => exact Or.inl ⟨rfl, rfl⟩
  | [c] => exact Or.inr (Or.inl ⟨rfl, c.name, rfl⟩)
  | _ :: _ :: _ => exact Or.inr (Or.inr ⟨by simp, rfl⟩)

end MemoryStore

namespace Http.Body

/-- The body arrives completely and within the limit, and is the text. -/
def Holds (b : Body) (limit : Nat) (text : String) : Prop :=
  b.failure = none ∧ b.chunks.flatten.length ≤ limit ∧ b.chunks.flatten = Utf8.encode text

theorem Holds.unique {b : Body} {limit : Nat} {text text' : String} (h : b.Holds limit text)
    (h' : b.Holds limit text') : text = text' := by
  have hdecode := Utf8.decode?_eq_some_iff.mpr (h.2.2.symm.trans h'.2.2)
  rw [Utf8.decode?_encode] at hdecode
  exact Option.some.inj hdecode

theorem collect_eq (limit : Nat) (done cs : List Bytes) :
    collect limit done cs =
      if cs.flatten.length ≤ limit then .ok (cs.reverse ++ done)
      else .error "length limit exceeded" := by
  induction cs generalizing limit done with
  | nil => simp [collect]
  | cons c cs ih =>
    rw [collect, ih, List.flatten_cons, List.length_append, List.reverse_cons, List.append_assoc,
      List.singleton_append]
    by_cases hc : limit < c.length
    · rw [if_pos hc, if_neg (by omega)]
    · have hfits : cs.flatten.length ≤ limit - c.length ↔
          c.length + cs.flatten.length ≤ limit := by omega
      simp only [if_neg hc, hfits]

/-- The limit is judged before the end of the body. -/
theorem read_eq (limit : Nat) (b : Body) :
    b.read limit =
      if b.chunks.flatten.length ≤ limit then
        match b.failure with
        | some text => .error text
        | none => .ok b.chunks.flatten
      else .error "length limit exceeded" := by
  rw [read, collect_eq, List.append_nil]
  split
  · simp only [bind, Except.bind, List.reverse_reverse]
    cases b.failure <;> rfl
  · rfl

theorem read_eq_ok_iff {limit : Nat} {b : Body} {bytes : Bytes} :
    b.read limit = .ok bytes ↔
      b.failure = none ∧ b.chunks.flatten.length ≤ limit ∧ bytes = b.chunks.flatten := by
  rw [read_eq]
  split
  · rename_i hle
    cases b.failure with
    | none => exact ⟨fun h => ⟨rfl, hle, (Except.ok.inj h).symm⟩, fun h => by rw [h.2.2]⟩
    | some text => exact iff_of_false (by simp) fun h => absurd h.1 (by simp)
  · rename_i hlong
    exact iff_of_false (by simp) fun h => hlong h.2.1

end Http.Body

/-- Only the first field counts. -/
theorem PublishToken.read_head (values : List Bytes) :
    PublishToken.read values = PublishToken.read values.head?.toList := by
  cases values <;> rfl

theorem error_of_bind {ε α β : Type} {x : Except ε α} {f : α → Except ε β} {e : ε}
    (h : (x >>= f) = .error e) : x = .error e ∨ ∃ a, f a = .error e := by
  cases x with
  | error d => exact Or.inl (congrArg _ (Except.error.inj h))
  | ok a => exact Or.inr ⟨a, h⟩

theorem status_of_bearerToken {values : List Bytes} {e : ApiError}
    (h : bearerToken values = .error e) : e.status = 400 := by
  rcases error_of_bind h with h | ⟨text, h⟩
  · unfold authorization at h
    split at h
    · exact Except.error.inj h ▸ rfl
    · split at h
      · exact Except.error.inj h ▸ rfl
      · split at h
        · exact Except.error.inj h ▸ rfl
        · cases h
  · split at h
    · cases h
    · exact Except.error.inj h ▸ rfl

/-- A header that is no publish token is the request's fault. -/
theorem PublishToken.status_of_read {values : List Bytes} {e : ApiError}
    (h : PublishToken.read values = .error e) : e.status = 400 := by
  rcases error_of_bind h with h | ⟨parts, h⟩
  · exact status_of_bearerToken h
  · split at h
    · split at h
      · cases h
      · exact Except.error.inj h ▸ rfl
    · exact Except.error.inj h ▸ rfl

namespace Gateway

open Http

/-- What reading an offer comes to. -/
theorem readOffer_cases (b : Body) :
    (∃ offer, readOffer b = .ok offer ∧ b.Holds maxBodyBytes offer) ∨
      ∃ e, readOffer b = .error e ∧ e.status = 400 ∧ ∀ offer, ¬ b.Holds maxBodyBytes offer := by
  cases hr : b.read maxBodyBytes with
  | error text =>
    have hbody : readBody b = .error (.bodyRead text) := by rw [readBody, hr]; rfl
    refine Or.inr ⟨.bodyRead text, by rw [readOffer, hbody]; rfl, rfl, fun offer h => ?_⟩
    exact absurd (hr.symm.trans (Body.read_eq_ok_iff.mpr ⟨h.1, h.2.1, rfl⟩)) (by simp)
  | ok bytes =>
    obtain ⟨hfailure, hle, rfl⟩ := Body.read_eq_ok_iff.mp hr
    have hbody : readBody b = .ok b.chunks.flatten := by rw [readBody, hr]; rfl
    unfold readOffer
    rw [hbody]
    simp only [bind, Except.bind]
    cases hd : Utf8.decode? b.chunks.flatten with
    | some offer =>
      exact Or.inl ⟨offer, rfl, hfailure, hle, Utf8.decode?_eq_some_iff.mp hd⟩
    | none =>
      refine Or.inr ⟨_, rfl, rfl, fun offer h => ?_⟩
      exact absurd (hd.symm.trans (Utf8.decode?_eq_some_iff.mpr h.2.2)) (by simp)

/-! ## The dialogue of a publisher -/

/-- The store has been asked for the token of the request. -/
structure LookedUp (r : Request) (token : PublishToken) (a : Asked) : Prop where
  token_eq : PublishToken.read (r.headers.all "authorization") = .ok token
  call_eq : a.call = .findStreamer token.streamKey token.authToken

/-- How far the dialogue of a publisher is, by what has been asked and what is left. -/
inductive Progress (r : Request) : List Asked → Dialogue Response → Prop
  /-- The header is refused. -/
  | refused {e : ApiError} (htoken : PublishToken.read (r.headers.all "authorization") = .error e) :
      Progress r [] (.done (refuse e))
  /-- The store is to be asked. -/
  | asks {token : PublishToken}
      (htoken : PublishToken.read (r.headers.all "authorization") = .ok token)
      (next : _ → Dialogue Response) :
      Progress r [] (.call (.findStreamer token.streamKey token.authToken) next)
  /-- The store had no answer. -/
  | failed {token : PublishToken} {a : Asked} {e : StoreError} (h : LookedUp r token a)
      (hfind : a.find token.streamKey token.authToken = .error e) :
      Progress r [a] (.done (refuse (.store e)))
  /-- The store knew no streamer. -/
  | unknown {token : PublishToken} {a : Asked} (h : LookedUp r token a)
      (hfind : a.find token.streamKey token.authToken = .ok none) :
      Progress r [a] (.done (refuse .unauthorized))
  /-- The body is refused. -/
  | unreadable {token : PublishToken} {a : Asked} {streamer : Streamer} {e : ApiError}
      (h : LookedUp r token a)
      (hfind : a.find token.streamKey token.authToken = .ok (some streamer))
      (hoffer : readOffer r.body = .error e) : Progress r [a] (.done (refuse e))
  /-- The engine is to be asked. -/
  | offers {token : PublishToken} {a : Asked} {streamer : Streamer} {offer : String}
      (h : LookedUp r token a)
      (hfind : a.find token.streamKey token.authToken = .ok (some streamer))
      (hoffer : readOffer r.body = .ok offer) (next : _ → Dialogue Response) :
      Progress r [a] (.call (.ingest streamer.streamKey offer) next)
  /-- The engine has answered. -/
  | answered {token : PublishToken} {a b : Asked} {streamer : Streamer} {offer : String}
      (h : LookedUp r token a)
      (hfind : a.find token.streamKey token.authToken = .ok (some streamer))
      (hoffer : readOffer r.body = .ok offer) (hingest : b.call = .ingest streamer.streamKey offer)
      (response : Response) : Progress r [a, b] (.done response)

theorem progress_of_leads {r : Request} {as : List Asked} {rest : Dialogue Response}
    (h : (publish r).Leads as rest) : Progress r as rest := by
  unfold publish authorizePublisher at h
  cases htoken : PublishToken.read (r.headers.all "authorization") with
  | error e =>
    rw [htoken] at h
    obtain ⟨rfl, rfl⟩ := Dialogue.leads_done.mp h
    exact .refused htoken
  | ok token =>
    rw [htoken] at h
    cases as with
    | nil =>
      rw [Dialogue.leads_nil.mp h]
      exact .asks htoken _
    | cons a as =>
      obtain ⟨hcall, found, hfound, h⟩ := h
      have hfind : found = a.find token.streamKey token.authToken := hfound
      subst hfind
      cases hfind : a.find token.streamKey token.authToken with
      | error e =>
        rw [hfind] at h
        obtain ⟨rfl, rfl⟩ := Dialogue.leads_done.mp h
        exact .failed ⟨htoken, hcall⟩ hfind
      | ok found =>
        rw [hfind] at h
        cases found with
        | none =>
          obtain ⟨rfl, rfl⟩ := Dialogue.leads_done.mp h
          exact .unknown ⟨htoken, hcall⟩ hfind
        | some streamer =>
          simp only [Dialogue.bind_done] at h
          cases hoffer : readOffer r.body with
          | error e =>
            rw [hoffer] at h
            obtain ⟨rfl, rfl⟩ := Dialogue.leads_done.mp h
            exact .unreadable ⟨htoken, hcall⟩ hfind hoffer
          | ok offer =>
            rw [hoffer] at h
            cases as with
            | nil =>
              rw [Dialogue.leads_nil.mp h]
              exact .offers ⟨htoken, hcall⟩ hfind hoffer _
            | cons b as =>
              obtain ⟨hingest, answer, -, h⟩ := h
              cases answer with
              | error e =>
                obtain ⟨rfl, rfl⟩ := Dialogue.leads_done.mp h
                exact .answered ⟨htoken, hcall⟩ hfind hoffer hingest _
              | ok answer =>
                obtain ⟨rfl, rfl⟩ := Dialogue.leads_done.mp h
                exact .answered ⟨htoken, hcall⟩ hfind hoffer hingest _

/-! ## The other dialogues -/

/-- The engine is to take the offer of a publisher. -/
def IsIngest (c : Call) : Prop := ∃ streamKey offer, c = .ingest streamKey offer

/-- Only publishers have the engine take the offer of a publisher. -/
theorem never_ingest {resource : Resource} (h : resource ≠ .publishers) (r : Request) :
    (resource.act r).Never IsIngest := by
  have hwith : ∀ name written next, (∀ text, (next text : Dialogue Response).Never IsIngest) →
      (Resource.withParameter name written next).Never IsIngest := by
    intro name written next hnext
    unfold Resource.withParameter
    split
    · exact hnext _
    · trivial
  have hother : ∀ c : Call, (∀ k o, c ≠ .ingest k o) → ¬ IsIngest c := by
    rintro c hc ⟨k, o, rfl⟩
    exact hc k o rfl
  cases resource with
  | publishers => exact absurd rfl h
  | viewers =>
    simp only [Resource.act, subscribe]
    split
    · trivial
    · split
      · trivial
      · refine ⟨hother _ (by simp), fun answer => ?_⟩
        cases answer <;> trivial
  | events id =>
    refine hwith _ _ _ fun text => ⟨hother _ (by simp), fun answer => ?_⟩
    cases answer <;> trivial
  | layer id =>
    refine hwith _ _ _ fun text => ?_
    unfold selectLayer
    split
    · trivial
    · refine ⟨hother _ (by simp), fun answer => ?_⟩
      cases answer <;> trivial
  | streams =>
    refine ⟨hother _ (by simp), fun answer => ?_⟩
    cases answer <;> trivial
  | statuses => exact ⟨hother _ (by simp), fun _ => trivial⟩
  | status key =>
    refine hwith _ _ _ fun text => ?_
    unfold showStatus
    split
    · trivial
    · refine ⟨hother _ (by simp), fun answer => ?_⟩
      cases answer with
      | error e => trivial
      | ok keys =>
        dsimp only
        split
        · trivial
        · exact ⟨hother _ (by simp), fun _ => trivial⟩
  | health => trivial

/-! ## The path of publishers -/

/-- The pieces of a list, put together again with the separator in between. -/
theorem intercalate_split {α : Type} [DecidableEq α] (s : α) (xs : List α) :
    [s].intercalate (split (· == s) xs) = xs := by
  induction xs with
  | nil => rfl
  | cons x xs ih =>
    rw [split_cons]
    obtain ⟨p, ps, hps⟩ := List.exists_cons_of_ne_nil (split_ne_nil (· == s) xs)
    rw [hps] at ih ⊢
    split
    · rename_i hx
      rw [List.intercalate_cons_cons, ih, beq_iff_eq.mp hx]
      rfl
    · cases ps with
      | nil => simpa [consPiece] using ih
      | cons q qs =>
        rw [consPiece, List.intercalate_cons_cons]
        rw [List.intercalate_cons_cons] at ih
        simpa using ih

theorem segments_injective {path path' : String}
    (h : Resource.segments path = Resource.segments path') : path = path' := by
  have hsplit : split (· == '/') path.toList = split (· == '/') path'.toList :=
    (List.map_inj_right fun _ _ h => String.ofList_injective h).mp h
  rw [← String.toList_inj, ← intercalate_split '/' path.toList, hsplit, intercalate_split]

theorem ofPath?_eq_publishers_iff {withStatus : Bool} {path : String} :
    Resource.ofPath? withStatus path = some .publishers ↔ path = "/api/whip" := by
  constructor
  · intro h
    have hwhip : Resource.segments "/api/whip" = ["", "api", "whip"] := by decide
    unfold Resource.ofPath? at h
    split at h
    · simp at h
    · rename_i hsegments
      exact segments_injective (hsegments.trans hwhip.symm)
    · simp at h
    · simp at h
    · split at h <;> simp at h
    · split at h
      · simp at h
      · split at h
        · simp at h
        · split at h
          · simp at h
          · split at h <;> simp at h
    · simp at h
  · rintro rfl
    rfl

/-! ## Runs -/

/-- A request that is not for publishing never has the engine take a publisher's offer. -/
theorem respond_never {withStatus : Bool} {r : Request}
    (h : ¬ (r.method = "POST" ∧ r.uri.path = "/api/whip")) :
    (respond withStatus r).Never IsIngest := by
  by_cases hoptions : r.method = "OPTIONS"
  · rw [respond_of_options hoptions]
    trivial
  · rw [respond_of_ne_options hoptions]
    refine Dialogue.Never.map ?_ _
    cases hpath : Resource.ofPath? withStatus r.uri.path with
    | none => trivial
    | some resource =>
      simp only [answer, Resource.respond]
      split
      · rename_i hallowed
        refine Dialogue.Never.map ?_ _
        by_cases hresource : resource = .publishers
        · subst hresource
          have hdelete : r.method = "DELETE" := by
            have hmethod : r.method = "POST" ∨ r.method = "DELETE" := by
              simpa [Resource.methods] using hallowed
            exact hmethod.resolve_left fun hpost =>
              h ⟨hpost, ofPath?_eq_publishers_iff.mp hpath⟩
          rw [Resource.act, if_pos hdelete]
          trivial
        · exact never_ingest hresource r
      · trivial

/-- A request for publishing is answered by the dialogue of a publisher. -/
theorem progress_of_respond {withStatus : Bool} {r : Request} {as : List Asked}
    {rest : Dialogue Response} (hmethod : r.method = "POST") (hpath : r.uri.path = "/api/whip")
    (h : (respond withStatus r).Leads as rest) :
    ∃ rest', Progress r as rest' ∧ ∀ response, rest = .done response →
      ∃ response', rest' = .done response' ∧ response.status = response'.status := by
  have hresource : Resource.ofPath? withStatus r.uri.path = some .publishers :=
    ofPath?_eq_publishers_iff.mpr hpath
  rw [respond_of_ne_options (by simp [hmethod]), hresource, answer, Resource.respond,
    if_pos (by simp [Resource.methods, hmethod]), Resource.act, if_neg (by simp [hmethod])] at h
  obtain ⟨rest', hrest', rfl⟩ := Dialogue.leads_map h
  obtain ⟨rest'', hrest'', rfl⟩ := Dialogue.leads_map hrest'
  refine ⟨rest'', progress_of_leads hrest'', fun response hdone => ?_⟩
  cases rest'' with
  | done x =>
    refine ⟨x, rfl, ?_⟩
    rw [← Dialogue.done.inj hdone]
    simp [hmethod, Response.withHeaders]
  | call c next => exact absurd hdone (by simp [Dialogue.map, Dialogue.bind])

/-- The request is a publisher's whom the store knew when it was asked: its token and its offer are
in order. -/
def Entitled (t : Talk) (streamKey offer : String) : Prop :=
  t.request.method = "POST" ∧ t.request.uri.path = "/api/whip" ∧ ∃ token,
    PublishToken.read (t.request.headers.first? "authorization").toList = .ok ⟨streamKey, token⟩ ∧
    (∃ a ∈ t.asked, a.call = .findStreamer streamKey token ∧ a.outage = none ∧
      a.store.owners streamKey token = 1) ∧
    t.request.body.Holds maxBodyBytes offer

/-- What a publisher's request has asked, and the status of its response, by the first check that
fails. -/
def InOrder (t : Talk) (status : Nat) : Prop :=
  match PublishToken.read (t.request.headers.first? "authorization").toList with
  | .error _ => t.asked = [] ∧ status = 400
  | .ok token =>
    ∃ a later, t.asked = a :: later ∧ a.call = .findStreamer token.streamKey token.authToken ∧
      match a.outage with
      | some (.unavailable _) => later = [] ∧ status = 503
      | some _ => later = [] ∧ status = 500
      | none =>
        let owners := a.store.owners token.streamKey token.authToken
        (owners = 0 → later = [] ∧ status = 403) ∧
        (2 ≤ owners → later = [] ∧ status = 500) ∧
        (owners = 1 → (∀ offer, ¬ t.request.body.Holds maxBodyBytes offer) →
          later = [] ∧ status = 400) ∧
        (owners = 1 → ∀ offer, t.request.body.Holds maxBodyBytes offer →
          later.map Asked.call = [.ingest token.streamKey offer])

theorem first?_toList (h : Headers) (name : String) :
    PublishToken.read (h.first? name).toList = PublishToken.read (h.all name) :=
  (PublishToken.read_head (h.all name)).symm

/-- What the store said, and what that says of its credentials. -/
theorem find_cases (a : Asked) (streamKey authToken : String) :
    (∃ e, a.outage = some e ∧ a.find streamKey authToken = .error e) ∨
      a.outage = none ∧
        ((a.store.owners streamKey authToken = 0 ∧ a.find streamKey authToken = .ok none) ∨
          (a.store.owners streamKey authToken = 1 ∧
            ∃ name, a.find streamKey authToken = .ok (some ⟨name, streamKey⟩)) ∨
          2 ≤ a.store.owners streamKey authToken ∧
            a.find streamKey authToken = .error (.duplicateStreamKey streamKey)) := by
  unfold Asked.find
  cases a.outage with
  | some e => exact Or.inl ⟨e, rfl, rfl⟩
  | none => exact Or.inr ⟨rfl, a.store.find_eq streamKey authToken⟩

theorem owners_of_find {a : Asked} {streamKey authToken : String} {streamer : Streamer}
    (h : a.find streamKey authToken = .ok (some streamer)) :
    a.outage = none ∧ a.store.owners streamKey authToken = 1 ∧ streamer.streamKey = streamKey := by
  rcases find_cases a streamKey authToken with
    ⟨e, -, hf⟩ | ⟨houtage, ⟨-, hf⟩ | ⟨hone, name, hf⟩ | ⟨-, hf⟩⟩ <;> rw [hf] at h
  · simp at h
  · simp at h
  · exact ⟨houtage, hone, Option.some.inj (Except.ok.inj h) ▸ rfl⟩
  · simp at h

theorem holds_of_readOffer {b : Body} {offer : String} (h : readOffer b = .ok offer) :
    b.Holds maxBodyBytes offer := by
  rcases readOffer_cases b with ⟨offer', h', hholds⟩ | ⟨e, h', -⟩
  · rwa [Except.ok.inj (h.symm.trans h')]
  · exact absurd (h.symm.trans h') (by simp)

theorem entitled_of_progress {t : Talk} {rest : Dialogue Response}
    (hmethod : t.request.method = "POST") (hpath : t.request.uri.path = "/api/whip")
    (h : Progress t.request t.asked rest) {b : Asked} (hb : b ∈ t.asked) {streamKey offer : String}
    (hcall : b.call = .ingest streamKey offer) : Entitled t streamKey offer := by
  obtain ⟨r, asked, rest⟩ := t
  have hlookup : ∀ {token a}, LookedUp r token a → ¬ a.call = .ingest streamKey offer := by
    intro token a hl hcall
    exact absurd (hl.call_eq.symm.trans hcall) (by simp)
  cases h with
  | refused | asks => exact absurd hb (by simp)
  | failed hl | unknown hl | unreadable hl | offers hl =>
    exact absurd hcall (List.mem_singleton.mp hb ▸ hlookup hl)
  | @answered token a _ streamer _ hl hfind hoffer hingest response =>
    obtain ⟨houtage, hone, hkey⟩ := owners_of_find hfind
    rcases List.mem_cons.mp hb with rfl | hb
    · exact absurd hcall (hlookup hl)
    · obtain rfl := List.mem_singleton.mp hb
      obtain ⟨rfl, rfl⟩ := Call.ingest.inj (hingest.symm.trans hcall)
      refine ⟨hmethod, hpath, token.authToken, ?_, ⟨a, List.mem_cons_self, ?_, houtage, ?_⟩,
        holds_of_readOffer hoffer⟩
      · rw [first?_toList, hl.token_eq, hkey]
      · rw [hl.call_eq, hkey]
      · rw [hkey, hone]

theorem inOrder_of_progress {t : Talk} {response : Response}
    (h : Progress t.request t.asked (.done response)) : InOrder t response.status := by
  obtain ⟨r, asked, rest⟩ := t
  unfold InOrder
  rw [first?_toList]
  cases h with
  | refused htoken =>
    rw [htoken]
    exact ⟨rfl, PublishToken.status_of_read htoken⟩
  | @failed token a e hl hfind =>
    rw [hl.token_eq]
    refine ⟨a, [], rfl, hl.call_eq, ?_⟩
    rcases find_cases a token.streamKey token.authToken with
      ⟨d, houtage, hf⟩ | ⟨houtage, ⟨-, hf⟩ | ⟨-, name, hf⟩ | ⟨hmany, hf⟩⟩ <;>
      rw [hf] at hfind <;> rw [houtage]
    · obtain rfl := Except.error.inj hfind
      cases d <;> exact ⟨rfl, rfl⟩
    · simp at hfind
    · simp at hfind
    · obtain rfl := Except.error.inj hfind
      refine ⟨fun hnone => ?_, fun _ => ⟨rfl, rfl⟩, fun hone => ?_, fun hone => ?_⟩ <;> omega
  | @unknown token a hl hfind =>
    rw [hl.token_eq]
    refine ⟨a, [], rfl, hl.call_eq, ?_⟩
    rcases find_cases a token.streamKey token.authToken with
      ⟨d, -, hf⟩ | ⟨houtage, ⟨hnone, hf⟩ | ⟨-, name, hf⟩ | ⟨-, hf⟩⟩ <;> rw [hf] at hfind
    · simp at hfind
    · rw [houtage]
      refine ⟨fun _ => ⟨rfl, rfl⟩, fun hmany => ?_, fun hone => ?_, fun hone => ?_⟩ <;> omega
    · simp at hfind
    · simp at hfind
  | @unreadable token a streamer e hl hfind hoffer =>
    rw [hl.token_eq]
    obtain ⟨houtage, hone, -⟩ := owners_of_find hfind
    refine ⟨a, [], rfl, hl.call_eq, ?_⟩
    rw [houtage]
    rcases readOffer_cases r.body with ⟨offer, hok, -⟩ | ⟨d, herror, hstatus, hunreadable⟩
    · exact absurd (hoffer.symm.trans hok) (by simp)
    · obtain rfl := Except.error.inj (hoffer.symm.trans herror)
      refine ⟨fun hnone => ?_, fun hmany => ?_, fun _ _ => ⟨rfl, hstatus⟩,
        fun _ offer hoffer => absurd hoffer (hunreadable offer)⟩ <;> omega
  | @answered token a b streamer offer hl hfind hoffer hingest response =>
    rw [hl.token_eq]
    obtain ⟨houtage, hone, hkey⟩ := owners_of_find hfind
    have hholds := holds_of_readOffer hoffer
    refine ⟨a, [b], rfl, hl.call_eq, ?_⟩
    rw [houtage]
    refine ⟨fun hnone => ?_, fun hmany => ?_,
      fun _ hunreadable => absurd hholds (hunreadable offer),
      fun _ offer' hoffer' => ?_⟩
    · omega
    · omega
    · rw [← hholds.unique hoffer', List.map_singleton, hingest, hkey]

/-- An entitled publisher's offer has gone to the engine once the request is answered. -/
theorem asked_of_entitled {t : Talk} {status : Nat} (h : InOrder t status)
    {streamKey offer : String} (he : Entitled t streamKey offer) :
    ∃ a ∈ t.asked, a.call = .ingest streamKey offer := by
  obtain ⟨-, -, token, htoken, ⟨a', ha', -, houtage', hone'⟩, hholds⟩ := he
  rw [InOrder, htoken] at h
  obtain ⟨a, later, hasked, -, h⟩ := h
  rw [hasked] at ha' ⊢
  -- Nothing else was asked in the cases that are refused, so the look-up is this one.
  have hsame : later = [] → a' = a := fun hl => List.mem_singleton.mp (hl ▸ ha')
  cases houtage : a.outage with
  | some e =>
    have hlater : later = [] := by
      rw [houtage] at h
      cases e <;> exact h.1
    rw [← hsame hlater, houtage'] at houtage
    exact absurd houtage (by simp)
  | none =>
    rw [houtage] at h
    obtain ⟨hnone, hmany, -, hone⟩ := h
    rcases Nat.lt_trichotomy (a.store.owners streamKey token) 1 with hlt | heq | hgt
    · have howners : a.store.owners streamKey token = 0 := by omega
      rw [hsame (hnone howners).1] at hone'
      omega
    · obtain ⟨b, hb⟩ : ∃ b, later = [b] := by
        have hlength := congrArg List.length (hone heq offer hholds)
        simpa [List.length_eq_one_iff] using hlength
      have hcall := hone heq offer hholds
      rw [hb, List.map_singleton] at hcall
      exact ⟨b, by simp [hb], (List.cons.inj hcall).1⟩
    · rw [hsame (hmany hgt).1] at hone'
      omega

/-- In every run, a publisher's offer goes to the engine for a request only if its publisher is
entitled to the stream key; and once the request is answered, exactly then. What else is answered to
a POST to the path of publishers, and what is asked for it, goes by the first check that fails. -/
theorem ingest_iff_entitled {σ : Type} {engine : Backend σ} {withStatus : Bool}
    {store : MemoryStore} {e : σ} {happenings : List Happening} {t : Talk}
    (ht : t ∈ (Desk.run engine withStatus store e happenings).talks) :
    (∀ streamKey offer, (∃ a ∈ t.asked, a.call = .ingest streamKey offer) →
      Entitled t streamKey offer) ∧
    ∀ response, t.rest = .done response →
      (∀ streamKey offer, Entitled t streamKey offer →
        ∃ a ∈ t.asked, a.call = .ingest streamKey offer) ∧
      (t.request.method = "POST" → t.request.uri.path = "/api/whip" →
        InOrder t response.status) := by
  have hleads := Desk.leads_of_mem_talks ht
  have hinOrder : ∀ response, t.rest = .done response → t.request.method = "POST" →
      t.request.uri.path = "/api/whip" → InOrder t response.status := by
    intro response hdone hmethod hpath
    obtain ⟨rest', hprogress, hstatus⟩ := progress_of_respond hmethod hpath hleads
    obtain ⟨response', rfl, hsame⟩ := hstatus response hdone
    rw [hsame]
    exact inOrder_of_progress hprogress
  refine ⟨?_, fun response hdone => ⟨fun streamKey offer he => ?_, hinOrder response hdone⟩⟩
  · rintro streamKey offer ⟨a, ha, hcall⟩
    by_cases hpublish : t.request.method = "POST" ∧ t.request.uri.path = "/api/whip"
    · obtain ⟨rest', hprogress, -⟩ := progress_of_respond hpublish.1 hpublish.2 hleads
      exact entitled_of_progress hpublish.1 hpublish.2 hprogress ha hcall
    · exact absurd ⟨streamKey, offer, hcall⟩ ((respond_never hpublish).not_asked hleads ha)
  · exact asked_of_entitled (hinOrder response hdone he.1 he.2.1) he

/-- A publisher whose credential is revoked between the look-up and the answer is put on air. -/
theorem ingest_iff_entitled_revoked : ∃ t ∈ (Desk.run
    (Relay.backend ⟨Store.find, Store.streamKeys⟩ 0 "p") true ⟨[]⟩ ⟨.memory ⟨[]⟩, .hostOnly, .fresh⟩
    [.insert ⟨"ann", ["live"], "t"⟩,
      .arrive ⟨"POST", ⟨none, none, "/api/whip"⟩, [field "authorization" "Bearer live;t"],
        ⟨[Utf8.encode "v=0"], none⟩⟩,
      .turn 0 none, .revoke "ann", .turn 0 none]).talks, Entitled t "live" "v=0" := by
  set d := Desk.run _ _ _ _ _
  have hcalls : (d.talks[0]?.map fun t => t.asked.map Asked.call) =
      some [.findStreamer "live" "t", .ingest "live" "v=0"] := rfl
  obtain ⟨t, ht, hasked⟩ := Option.map_eq_some_iff.mp hcalls
  have hmem : t ∈ d.talks := List.mem_of_getElem? ht
  have hingest : .ingest "live" "v=0" ∈ t.asked.map Asked.call := by simp [hasked]
  obtain ⟨a, ha, hcall⟩ := List.mem_map.mp hingest
  exact ⟨t, hmem, (ingest_iff_entitled hmem).1 "live" "v=0" ⟨a, ha, hcall⟩⟩

end Gateway

end BroadcastRelay
