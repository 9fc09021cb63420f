import BroadcastRelay.Gateway.Dialogue
import BroadcastRelay.Media.Engine
/-!
# What stands behind the gateway

A `Relay` is a credential store and a media engine. `Relay.backend` has each of them answer the
questions that are for it. The clock and the id of what a question brings about are given from
outside.
-/

namespace BroadcastRelay

/-- How stores of a type answer the two questions about credentials. -/
structure StoreAnswers (σ : Type) where
  /-- The streamer that owns a key with a token. -/
  find : σ → String → String → Except StoreError (Option Streamer) × σ
  /-- Every stream key. -/
  streamKeys : σ → Except StoreError (List String) × σ

/-- A store and an engine. -/
structure Relay (σ : Type) where
  /-- The store. -/
  store : σ
  /-- The engine. -/
  engine : Engine

namespace Relay

variable {σ : Type}

/-- The relay with its store changed, after an answer of the store. -/
def afterStore {α : Type} (r : Relay σ) (answer : α × σ) : α × Relay σ :=
  (answer.1, { r with store := answer.2 })

/-- The relay with its engine changed, after an answer of the engine. -/
def afterEngine {α : Type} (r : Relay σ) (answer : Engine × α) : α × Relay σ :=
  (answer.2, { r with engine := answer.1 })

/-- Answers a question at a time; `id` names the publisher or session that it brings about. -/
def backend (stores : StoreAnswers σ) (now : UInt64) (id : String) : Backend (Relay σ) :=
  fun c r =>
    match c with
    | .findStreamer key token => r.afterStore (stores.find r.store key token)
    | .streamKeys => r.afterStore (stores.streamKeys r.store)
    | .ingest key offer => r.afterEngine (r.engine.publisherAnswer now key id offer)
    | .egress key offer =>
      let (sdp, r) := r.afterEngine (r.engine.viewerAnswer now key id offer)
      (sdp.map fun sdp => ⟨sdp, id⟩, r)
    | .layers session => ((r.engine.layers session).mapError TransportError.engine, r)
    | .setLayer session encoding =>
      let (done, r) := r.afterEngine (r.engine.setLayer session encoding)
      (done.mapError TransportError.engine, r)
    | .status key => (r.engine.status key, r)
    | .statuses => (r.engine.statuses, r)

end Relay

end BroadcastRelay
