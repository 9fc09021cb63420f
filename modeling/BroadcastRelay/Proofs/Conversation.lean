import BroadcastRelay.Credential.MemoryStore
import BroadcastRelay.Gateway.Router
/-!
# Requests that are answered side by side

A request is answered by a dialogue, and between two questions of it other requests ask theirs and
credentials come and go. A `Desk` is a store in memory and an engine with the requests that have
arrived; a `Happening` is one question of one request, or a change of the store. What each request
has asked is kept with what the store held at the time (`Asked`).

What a request has asked and what it still has to ask always fit its dialogue: every answer of the
store is one that the store gave as it was then, whatever happened since (`leads_of_mem_talks`). A
request that nothing comes between is answered as `Dialogue.run` has it (`turns_eq_run`).
-/

namespace BroadcastRelay

/-- A question that was asked. -/
structure Asked where
  /-- The question. -/
  call : Call
  /-- What the store held then. -/
  store : MemoryStore
  /-- Why the store could not answer then, if it could not. -/
  outage : Option StoreError

namespace Asked

/-- What the store said of a key with a token. -/
def find (a : Asked) (streamKey authToken : String) : Except StoreError (Option Streamer) :=
  match a.outage with
  | some e => .error e
  | none => a.store.find streamKey authToken

/-- What the store said of its keys. -/
def streamKeys (a : Asked) : Except StoreError (List String) :=
  match a.outage with
  | some e => .error e
  | none => .ok a.store.streamKeys

/-- The answer to a question: the store's, or else one that an engine gives. -/
def reply {σ : Type} (a : Asked) (engine : Backend σ) (c : Call) (e : σ) : c.Answer × σ :=
  match c with
  | .findStreamer streamKey authToken => (a.find streamKey authToken, e)
  | .streamKeys => (a.streamKeys, e)
  | c => engine c e

/-- Whether it can have been answered so: an engine may say anything. -/
def Allows (a : Asked) : (c : Call) → c.Answer → Prop
  | .findStreamer streamKey authToken, answer => answer = a.find streamKey authToken
  | .streamKeys, answer => answer = a.streamKeys
  | _, _ => True

theorem allows_reply {σ : Type} (a : Asked) (engine : Backend σ) (c : Call) (e : σ) :
    a.Allows c (a.reply engine c e).1 := by
  cases c <;> first | rfl | trivial

end Asked

/-! ## Along a dialogue -/

namespace Dialogue

variable {α β : Type}

/-- The questions asked lead from a dialogue to what is left of it. -/
def Leads : Dialogue α → List Asked → Dialogue α → Prop
  | d, [], rest => rest = d
  | done _, _ :: _, _ => False
  | call c next, a :: as, rest =>
    a.call = c ∧ ∃ answer, a.Allows c answer ∧ (next answer).Leads as rest

theorem leads_nil {d rest : Dialogue α} : d.Leads [] rest ↔ rest = d := by
  cases d <;> rfl

theorem leads_done {x : α} {as : List Asked} {rest : Dialogue α} :
    (done x).Leads as rest ↔ as = [] ∧ rest = done x := by
  cases as with
  | nil => simp [Leads]
  | cons a as => simp [Leads]

/-- A question more, and its answer. -/
theorem Leads.concat {d : Dialogue α} {as : List Asked} {c : Call} {next : c.Answer → Dialogue α}
    (h : d.Leads as (call c next)) {a : Asked} (ha : a.call = c) {answer : c.Answer}
    (hanswer : a.Allows c answer) : d.Leads (as ++ [a]) (next answer) := by
  induction as generalizing d with
  | nil =>
    obtain rfl := leads_nil.mp h
    exact ⟨ha, answer, hanswer, leads_nil.mpr rfl⟩
  | cons b as ih =>
    cases d with
    | done x => exact absurd h (by simp [Leads])
    | call c' next' =>
      obtain ⟨hb, answer', hanswer', h⟩ := h
      exact ⟨hb, answer', hanswer', ih h⟩

/-- A changed result changes no question. -/
theorem leads_map {d : Dialogue α} {f : α → β} {as : List Asked} {rest : Dialogue β}
    (h : (d.map f).Leads as rest) : ∃ rest', d.Leads as rest' ∧ rest = rest'.map f := by
  induction as generalizing d with
  | nil => exact ⟨d, leads_nil.mpr rfl, leads_nil.mp h⟩
  | cons a as ih =>
    cases d with
    | done x => exact absurd h (by simp [map, bind, Leads])
    | call c next =>
      obtain ⟨ha, answer, hanswer, h⟩ := h
      obtain ⟨rest', hrest', rfl⟩ := ih h
      exact ⟨rest', ⟨ha, answer, hanswer, hrest'⟩, rfl⟩

/-- No question of this kind is asked, whatever the answers. -/
def Never (p : Call → Prop) : Dialogue α → Prop
  | done _ => True
  | call c next => ¬ p c ∧ ∀ answer, (next answer).Never p

theorem Never.map {p : Call → Prop} {d : Dialogue α} (h : d.Never p) (f : α → β) :
    (d.map f).Never p := by
  induction d with
  | done x => trivial
  | call c next ih => exact ⟨h.1, fun answer => ih answer (h.2 answer)⟩

theorem Never.not_asked {p : Call → Prop} {d rest : Dialogue α} {as : List Asked} (h : d.Never p)
    (hleads : d.Leads as rest) {a : Asked} (ha : a ∈ as) : ¬ p a.call := by
  induction as generalizing d with
  | nil => exact absurd ha (by simp)
  | cons b as ih =>
    cases d with
    | done x => exact absurd hleads (by simp [Leads])
    | call c next =>
      obtain ⟨hb, answer, -, hleads⟩ := hleads
      rcases List.mem_cons.mp ha with rfl | ha
      · exact hb ▸ h.1
      · exact ih (h.2 answer) hleads ha

/-- Every result has the property, whatever the answers. -/
def Ends (p : α → Prop) : Dialogue α → Prop
  | done a => p a
  | call _ next => ∀ answer, (next answer).Ends p

theorem Ends.bind {p : α → Prop} {q : β → Prop} {d : Dialogue α} {f : α → Dialogue β}
    (h : d.Ends p) (hf : ∀ a, p a → (f a).Ends q) : (d.bind f).Ends q := by
  induction d with
  | done a => exact hf a h
  | call c next ih => exact fun answer => ih answer (h answer)

theorem Ends.map {p : α → Prop} {q : β → Prop} {d : Dialogue α} {f : α → β} (h : d.Ends p)
    (hf : ∀ a, p a → q (f a)) : (d.map f).Ends q :=
  h.bind hf

theorem Ends.result_run {σ : Type} {p : α → Prop} {d : Dialogue α} (h : d.Ends p)
    (answer : Backend σ) (s : σ) : p (d.run answer s).result := by
  induction d generalizing s with
  | done a => exact h
  | call c next ih => exact ih _ (h _) _

end Dialogue

/-! ## The desk -/

namespace Gateway

open Http

/-- A request that is being answered. -/
structure Talk where
  /-- The request. -/
  request : Request
  /-- What has been asked for it, in order. -/
  asked : List Asked
  /-- What is left to ask, or the response. -/
  rest : Dialogue Response

/-- A store, an engine and the requests that have arrived. -/
structure Desk (σ : Type) where
  /-- The store. -/
  store : MemoryStore
  /-- The engine. -/
  engine : σ
  /-- The requests, in the order they arrived. -/
  talks : List Talk

/-- What happens at a desk. -/
inductive Happening where
  /-- A request arrives. -/
  | arrive (r : Request)
  /-- A request has its next question asked, while the store may be unable to answer. -/
  | turn (talk : Nat) (outage : Option StoreError)
  /-- A credential is added. -/
  | insert (c : Credential)
  /-- The credentials of a name are removed. -/
  | revoke (name : String)

namespace Talk

variable {σ : Type}

/-- Asks the next question, if there is one, of a store and an engine. -/
def turn (answer : Backend σ) (store : MemoryStore) (outage : Option StoreError) (e : σ)
    (t : Talk) : Talk × σ :=
  match t.rest with
  | .done _ => (t, e)
  | .call c next =>
    let a : Asked := ⟨c, store, outage⟩
    (⟨t.request, t.asked ++ [a], next (a.reply answer c e).1⟩, (a.reply answer c e).2)

/-- Asks several questions with nothing in between. -/
def turns (answer : Backend σ) (store : MemoryStore) : Nat → σ → Talk → Talk × σ
  | 0, e, t => (t, e)
  | n + 1, e, t =>
    turns answer store n (t.turn answer store none e).2 (t.turn answer store none e).1

/-- With nothing in between a request is answered as if it were alone. -/
theorem turns_eq_run (answer : Backend σ) (store : MemoryStore) (r : Request) (asked : List Asked)
    (d : Dialogue Response) (e : σ) :
    let o := d.run (fun c e => (Asked.mk c store none).reply answer c e) e
    ∃ n, turns answer store n e ⟨r, asked, d⟩ =
      (⟨r, asked ++ o.calls.map (⟨·, store, none⟩), .done o.result⟩, o.backend) := by
  induction d generalizing asked e with
  | done x => exact ⟨0, by simp [turns]⟩
  | call c next ih =>
    obtain ⟨n, hn⟩ := ih ((Asked.mk c store none).reply answer c e).1
      (asked ++ [⟨c, store, none⟩]) ((Asked.mk c store none).reply answer c e).2
    refine ⟨n + 1, hn.trans ?_⟩
    simp only [List.append_assoc, List.singleton_append]
    rfl

end Talk

namespace Desk

variable {σ : Type}

/-- The desk after a happening; the engine answers by `answer`. -/
def step (answer : Backend σ) (withStatus : Bool) (d : Desk σ) : Happening → Desk σ
  | .arrive r => { d with talks := d.talks ++ [⟨r, [], respond withStatus r⟩] }
  | .turn i outage =>
    match d.talks[i]? with
    | none => d
    | some t =>
      ⟨d.store, (t.turn answer d.store outage d.engine).2,
        d.talks.set i (t.turn answer d.store outage d.engine).1⟩
  | .insert c => { d with store := d.store.insert c }
  | .revoke name => { d with store := (d.store.revoke name).1 }

/-- The desk after a list of happenings, with no request at the start. -/
def run (answer : Backend σ) (withStatus : Bool) (store : MemoryStore) (engine : σ)
    (happenings : List Happening) : Desk σ :=
  happenings.foldl (step answer withStatus) ⟨store, engine, []⟩

/-- What is asked and what is left fit the dialogue of the request. -/
def Fits (withStatus : Bool) (t : Talk) : Prop :=
  (respond withStatus t.request).Leads t.asked t.rest

theorem fits_turn {withStatus : Bool} {t : Talk} (h : Fits withStatus t) (answer : Backend σ)
    (store : MemoryStore) (outage : Option StoreError) (e : σ) :
    Fits withStatus (t.turn answer store outage e).1 := by
  obtain ⟨r, asked, rest⟩ := t
  cases rest with
  | done x => exact h
  | call c next => exact h.concat rfl (Asked.allows_reply ⟨c, store, outage⟩ answer c e)

theorem fits_step {answer : Backend σ} {withStatus : Bool} {d : Desk σ}
    (h : ∀ t ∈ d.talks, Fits withStatus t) (happening : Happening) :
    ∀ t ∈ (d.step answer withStatus happening).talks, Fits withStatus t := by
  cases happening with
  | arrive r =>
    intro t ht
    rcases List.mem_append.mp ht with ht | ht
    · exact h t ht
    · rw [List.mem_singleton.mp ht]
      exact Dialogue.leads_nil.mpr rfl
  | turn i outage =>
    unfold step
    cases hi : d.talks[i]? with
    | none => simpa only [hi] using h
    | some t =>
      intro t' ht'
      simp only [hi] at ht'
      rcases List.mem_or_eq_of_mem_set ht' with ht' | rfl
      · exact h t' ht'
      · exact fits_turn (h t (List.mem_of_getElem? hi)) answer d.store outage d.engine
  | insert c => exact h
  | revoke name => exact h

/-- Whatever happens, the questions of a request are those of its dialogue, answered by the store as
it was when they were asked. -/
theorem leads_of_mem_talks {answer : Backend σ} {withStatus : Bool} {store : MemoryStore} {e : σ}
    {happenings : List Happening} {t : Talk}
    (ht : t ∈ (run answer withStatus store e happenings).talks) :
    (respond withStatus t.request).Leads t.asked t.rest := by
  have hrun : ∀ (happenings : List Happening) (d : Desk σ), (∀ t ∈ d.talks, Fits withStatus t) →
      ∀ t ∈ (happenings.foldl (step answer withStatus) d).talks, Fits withStatus t := by
    intro happenings
    induction happenings with
    | nil => exact fun d hd => hd
    | cons happening happenings ih => exact fun d hd => ih _ (fits_step hd happening)
  exact hrun happenings _ (by simp) t ht

end Desk

end Gateway

end BroadcastRelay
