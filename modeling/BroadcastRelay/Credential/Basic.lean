import BroadcastRelay.Document.Decode
import BroadcastRelay.Json.Value
/-!
# Credentials

A `Credential` lets one streamer publish under its stream keys with its token. A store finds the
streamer of a key and a token, and `StoreError` is how that can fail.
-/

namespace BroadcastRelay

/-- What entitles a streamer to publish. -/
structure Credential where
  /-- The name of the streamer. -/
  name : String
  /-- The stream keys the streamer owns. -/
  streamKeys : List String
  /-- The token the streamer presents. -/
  authToken : String
deriving DecidableEq, Repr

namespace Credential

/-- Whether the credential covers the stream key and carries the token. -/
def covers (c : Credential) (streamKey authToken : String) : Bool :=
  c.authToken == authToken && c.streamKeys.contains streamKey

/-- How a credential is read. -/
def record : Record Credential where
  name := "Credential"
  fields := [
    .of "name" true Document.readString fun v c => { c with name := v },
    .of "stream_keys" true (Document.readList Document.readString)
      fun v c => { c with streamKeys := v },
    .of "auth_token" true Document.readString fun v c => { c with authToken := v }]
  blank := ⟨"", [], ""⟩

/-- A credential as JSON. -/
def toJson (c : Credential) : Json.Value :=
  .object [("name", .str c.name), ("stream_keys", .strings c.streamKeys),
    ("auth_token", .str c.authToken)]

end Credential

/-- A streamer that was found, with the stream key it asked for. -/
structure Streamer where
  /-- The name of the streamer. -/
  name : String
  /-- The stream key. -/
  streamKey : String
deriving DecidableEq, Repr

/-- Why a store has no answer. -/
inductive StoreError where
  /-- The store cannot be reached at the moment. -/
  | unavailable (text : String)
  /-- The store could not carry out the request. -/
  | query (text : String)
  /-- Two streamers own the key with the same token. -/
  | duplicateStreamKey (key : String)
deriving DecidableEq, Repr

namespace StoreError

/-- The text of the failure. -/
def message : StoreError → String
  | unavailable text => "credential store unavailable: " ++ text
  | query text => "credential query failed: " ++ text
  | duplicateStreamKey key => "stream key " ++ key ++ " is assigned to more than one streamer"

/-- Whether another attempt may succeed. -/
def isTransient : StoreError → Bool
  | unavailable _ => true
  | _ => false

end StoreError

end BroadcastRelay
