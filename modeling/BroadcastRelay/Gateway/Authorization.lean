import BroadcastRelay.Gateway.ApiError
import BroadcastRelay.Http.Header
import BroadcastRelay.StreamKey
import BroadcastRelay.Text.Split
/-!
# Authorization

A publisher presents a stream key and its token, divided by a semicolon; a viewer presents a stream
key alone, since a broadcast is public. `PublishToken.read` and `readViewKey` read the first
`Authorization` field of a request.
-/

namespace BroadcastRelay

/-- The pieces of a bearer token: what follows the scheme, cut at every semicolon. -/
def bearerParts? (value : String) : Option (List String) :=
  (dropStart? "Bearer ".toList value.toList).map fun token =>
    (split (· == ';') token).map String.ofList

/-- The first `Authorization` field as text. -/
def authorization (values : List Bytes) : Except ApiError String :=
  match values with
  | [] => .error .authMissing
  | value :: _ =>
    match Http.text? value with
    | none => .error (.authMalformed "header is not valid ASCII")
    | some text => if text = "" then .error .authMissing else .ok text

/-- The pieces of the bearer token of a request. -/
def bearerToken (values : List Bytes) : Except ApiError (List String) := do
  let text ← authorization values
  match bearerParts? text with
  | some parts => return parts
  | none => throw (.authMalformed "expected a Bearer token")

/-- What a publisher presents. -/
structure PublishToken where
  /-- The key of the broadcast. -/
  streamKey : String
  /-- The token of the streamer. -/
  authToken : String
deriving DecidableEq, Repr

/-- Reads what a publisher presents. -/
def PublishToken.read (values : List Bytes) : Except ApiError PublishToken := do
  match ← bearerToken values with
  | [streamKey, authToken] =>
    if StreamKey.isValid streamKey then return ⟨streamKey, authToken⟩
    else throw (.authMalformed "invalid stream key")
  | _ => throw (.authMalformed "expected <streamKey>;<authToken>")

/-- Reads the stream key that a viewer presents; what follows a semicolon is not looked at. -/
def readViewKey (values : List Bytes) : Except ApiError String := do
  let parts ← bearerToken values
  let streamKey := parts.headD ""
  if StreamKey.isValid streamKey then return streamKey
  else throw (.authMalformed "invalid stream key")

end BroadcastRelay
