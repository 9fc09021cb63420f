import BroadcastRelay.Credential.Basic
import BroadcastRelay.Media.Error
/-!
# Failures of the gateway

`ApiError` is why a request is refused. Each cause has a text, a code for programs and a status.
Failures of the media engine are always the request's (`status_ofEngine`); failures of the store
never are (`status_store`).
-/

namespace BroadcastRelay

/-- Why a request is refused. -/
inductive ApiError where
  /-- No authorization was sent. -/
  | authMissing
  /-- The authorization cannot be read. -/
  | authMalformed (reason : String)
  /-- No streamer has the key and the token. -/
  | unauthorized
  /-- The body could not be read. -/
  | bodyRead (reason : String)
  /-- The body does not hold what it should. -/
  | decode (reason : String)
  /-- The path does not name a stream key. -/
  | invalidStreamKey
  /-- The engine could not answer the offer. -/
  | negotiation (text : String)
  /-- The engine has no such session. -/
  | sessionNotFound (id : String)
  /-- The broadcast has no such encoding. -/
  | unknownLayer (text : String)
  /-- The engine failed. -/
  | engine (text : String)
  /-- No streamer owns the stream key. -/
  | streamNotFound (key : String)
  /-- The credential store failed. -/
  | store (e : StoreError)
deriving DecidableEq, Repr

namespace ApiError

/-- The text of the failure. -/
def message : ApiError → String
  | authMissing => "Authorization was not set"
  | authMalformed reason => "Not a valid token: " ++ reason
  | unauthorized => "Not an authorized streamer"
  | bodyRead reason => "Failed to read request body: " ++ reason
  | decode reason => "Invalid request body: " ++ reason
  | invalidStreamKey => "Invalid stream key format"
  | negotiation text => text
  | sessionNotFound id => "Session " ++ id ++ " not found"
  | unknownLayer text => text
  | engine text => text
  | streamNotFound key => "Stream " ++ key ++ " not found"
  | store e => e.message

/-- The code of the failure. -/
def code : ApiError → String
  | authMissing => "auth_missing"
  | authMalformed _ => "auth_malformed"
  | unauthorized => "unauthorized"
  | bodyRead _ => "body_read"
  | decode _ => "decode"
  | invalidStreamKey => "invalid_stream_key"
  | negotiation _ => "negotiation_failed"
  | sessionNotFound _ => "session_not_found"
  | unknownLayer _ => "unknown_layer"
  | engine _ => "engine_error"
  | streamNotFound _ => "stream_not_found"
  | store e => if e.isTransient then "store_unavailable" else "store_error"

/-- The status of the response. -/
def status : ApiError → Nat
  | unauthorized => 403
  | streamNotFound _ => 404
  | store e => if e.isTransient then 503 else 500
  | _ => 400

/-- The failure of a request that met a failure of the engine. -/
def ofEngine : EngineError → ApiError
  | .negotiation text => negotiation text
  | .sessionNotFound id => sessionNotFound id
  | .unknownLayer sessionId encodingId =>
    unknownLayer (EngineError.unknownLayer sessionId encodingId).message
  | .failure text => engine text

/-- The body of the response. -/
def toJson (e : ApiError) : Json.Value :=
  .object [("error", .str e.code), ("message", .str e.message)]

/-- A failure of the engine is the request's own. -/
theorem status_ofEngine (e : EngineError) : (ofEngine e).status = 400 := by cases e <;> rfl

/-- A failure of the store is not the request's. -/
theorem status_store (e : StoreError) : 500 ≤ (store e).status := by
  cases e <;> simp [status, StoreError.isTransient]

end ApiError

end BroadcastRelay
