import BroadcastRelay.Credential.Basic
import BroadcastRelay.Media.Error
import BroadcastRelay.Media.Layer
import BroadcastRelay.Media.Status
/-!
# Dialogues with the store and the engine

A handler of the gateway asks the credential store and the media engine questions, one after the
other, and in the end has a result. A `Dialogue` is the tree of its questions with a branch for
every answer, so that what a handler asks is seen without running it. `run` holds the dialogue with
a backend and gives the result, the questions asked and the backend afterwards.
-/

namespace BroadcastRelay

/-- What the engine answers a viewer. -/
structure ViewerAnswer where
  /-- The session description. -/
  sdp : String
  /-- The id of the session. -/
  sessionId : String
deriving DecidableEq, Repr

/-- A question to the store or to the engine. -/
inductive Call where
  /-- Which streamer owns the key with the token? -/
  | findStreamer (streamKey authToken : String)
  /-- Which stream keys are there? -/
  | streamKeys
  /-- Take the offer of a publisher. -/
  | ingest (streamKey offer : String)
  /-- Take the offer of a viewer. -/
  | egress (streamKey offer : String)
  /-- Which layers can the session select? -/
  | layers (sessionId : String)
  /-- Select a layer for the session. -/
  | setLayer (sessionId encodingId : String)
  /-- How is the broadcast doing? -/
  | status (streamKey : String)
  /-- How are all broadcasts doing? -/
  | statuses
deriving DecidableEq, Repr

/-- Whether the question goes to the store. -/
def Call.isStore : Call → Bool
  | .findStreamer _ _ | .streamKeys => true
  | _ => false

/-- The type of the answer to a question. -/
abbrev Call.Answer : Call → Type
  | .findStreamer _ _ => Except StoreError (Option Streamer)
  | .streamKeys => Except StoreError (List String)
  | .ingest _ _ => Except EngineError String
  | .egress _ _ => Except EngineError ViewerAnswer
  | .layers _ => Except EngineError (List Layer)
  | .setLayer _ _ => Except EngineError Unit
  | .status _ => Option StreamStatus
  | .statuses => List StreamStatus

/-- The questions on the way to a result. -/
inductive Dialogue (α : Type) : Type where
  /-- The result. -/
  | done (a : α)
  /-- A question, and how it goes on with each answer. -/
  | call (c : Call) (next : c.Answer → Dialogue α)

/-- Something that answers every question and changes on the way. -/
abbrev Backend (σ : Type) := (c : Call) → σ → c.Answer × σ

namespace Dialogue

variable {α β σ : Type}

/-- Goes on with the result. -/
def bind (d : Dialogue α) (f : α → Dialogue β) : Dialogue β :=
  match d with
  | done a => f a
  | call c next => call c fun answer => (next answer).bind f

/-- Changes the result. -/
def map (f : α → β) (d : Dialogue α) : Dialogue β := d.bind fun a => done (f a)

/-- What a dialogue with a backend comes to. -/
structure Outcome (α σ : Type) where
  /-- The result. -/
  result : α
  /-- The questions asked, in order. -/
  calls : List Call
  /-- The backend afterwards. -/
  backend : σ

/-- Holds the dialogue with a backend. -/
def run (answer : Backend σ) : Dialogue α → σ → Outcome α σ
  | done a, s => ⟨a, [], s⟩
  | call c next, s =>
    let (a, s) := answer c s
    let o := run answer (next a) s
    { o with calls := c :: o.calls }

@[simp] theorem run_done (answer : Backend σ) (a : α) (s : σ) :
    (done a).run answer s = ⟨a, [], s⟩ := rfl

@[simp] theorem bind_done (a : α) (f : α → Dialogue β) : (done a).bind f = f a := rfl

theorem map_id (d : Dialogue α) : d.map (fun a => a) = d := by
  induction d with
  | done a => rfl
  | call c next ih => exact congrArg (call c) (funext ih)

/-- A dialogue that goes on asks the questions of both parts. -/
theorem run_bind (answer : Backend σ) (d : Dialogue α) (f : α → Dialogue β) (s : σ) :
    (d.bind f).run answer s =
      let o := d.run answer s
      let p := (f o.result).run answer o.backend
      ⟨p.result, o.calls ++ p.calls, p.backend⟩ := by
  induction d generalizing s with
  | done a => simp
  | call c next ih => simp only [bind, run, ih, List.cons_append]

end Dialogue

end BroadcastRelay
