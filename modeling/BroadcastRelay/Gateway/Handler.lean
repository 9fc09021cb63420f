import BroadcastRelay.Gateway.Authorization
import BroadcastRelay.Gateway.Dialogue
import BroadcastRelay.Gateway.Link
import BroadcastRelay.Http.Message
import BroadcastRelay.Json.Document
/-!
# Handlers of the gateway

One handler for each thing a client can ask for. A publisher is authorized before its offer is
read; a viewer needs a stream key and nothing else; a layer request is decoded before the engine
hears of it.
-/

namespace BroadcastRelay.Gateway

open Http

/-- The greatest length of a request body. -/
def maxBodyBytes : Nat := 1048576

/-- The response to a request that is refused. -/
def refuse (e : ApiError) : Response := .json e.status e.toJson

/-- The bytes of a request body. -/
def readBody (b : Body) : Except ApiError Bytes := (b.read maxBodyBytes).mapError .bodyRead

/-- A request body as an offer. -/
def readOffer (b : Body) : Except ApiError String := do
  match Utf8.decode? (← readBody b) with
  | some offer => return offer
  | none => throw (.bodyRead "SDP offer is not valid UTF-8")

/-- A request body as a layer request. -/
def readLayerRequest (b : Body) : Except ApiError LayerRequest := do
  let bytes ← readBody b
  (Json.decode LayerRequest.record.read bytes).mapError fun e => .decode e.message

/-- The response that carries the answer to an offer. -/
def created (location : String) (links : List String) (answer : String) : Response :=
  .sized 201
    ([field "location" location, field "content-type" "application/sdp"] ++
      links.map (field "link"))
    (Utf8.encode answer)

/-! ## Publishing -/

/-- Finds the streamer that a request speaks for. -/
def authorizePublisher (values : List Bytes) : Dialogue (Except ApiError Streamer) :=
  match PublishToken.read values with
  | .error e => .done (.error e)
  | .ok token =>
    .call (.findStreamer token.streamKey token.authToken) fun
      | .error e => .done (.error (.store e))
      | .ok none => .done (.error .unauthorized)
      | .ok (some streamer) => .done (.ok streamer)

/-- Takes the offer of a publisher. -/
def publish (r : Request) : Dialogue Response :=
  (authorizePublisher (r.headers.all "authorization")).bind fun
    | .error e => .done (refuse e)
    | .ok streamer =>
      match readOffer r.body with
      | .error e => .done (refuse e)
      | .ok offer =>
        .call (.ingest streamer.streamKey offer) fun
          | .error e => .done (refuse (.ofEngine e))
          | .ok answer => .done (created "/api/whip" [] answer)

/-- Acknowledges that a publisher leaves; the engine sees it by itself. -/
def unpublish : Dialogue Response := .done (.bare 200 [])

/-! ## Viewing -/

/-- The response to a viewer whose offer was answered. -/
def welcome (path : String) (a : ViewerAnswer) : Response :=
  let base := Link.base path
  let links := [Link.events base a.sessionId, Link.layer base a.sessionId]
  if links.all fun l => isValue (Utf8.encode l) then created "/api/whep" links a.sdp
  else .plain 500 "failed to parse header value"

/-- Takes the offer of a viewer. -/
def subscribe (r : Request) : Dialogue Response :=
  match readViewKey (r.headers.all "authorization") with
  | .error e => .done (refuse e)
  | .ok streamKey =>
    match readOffer r.body with
    | .error e => .done (refuse e)
    | .ok offer =>
      .call (.egress streamKey offer) fun
        | .error e => .done (refuse (.ofEngine e))
        | .ok answer => .done (welcome r.uri.path answer)

/-! ## Layers -/

/-- One event that lists layers: its name, one line of data and a blank line. -/
def layersEvent (layers : List Layer) : String :=
  "event: layers\ndata: " ++ (Json.Value.list (layers.map Layer.toJson)).render ++ "\n\n"

/-- Lists the layers that a session can select. -/
def layerEvents (sessionId : String) : Dialogue Response :=
  .call (.layers sessionId) fun
    | .error e => .done (refuse (.ofEngine e))
    | .ok layers =>
      .done ⟨200,
        [field "content-type" "text/event-stream", field "cache-control" "no-cache",
          field "connection" "keep-alive"],
        Utf8.encode (layersEvent layers)⟩

/-- Selects a layer for a session. -/
def selectLayer (sessionId : String) (r : Request) : Dialogue Response :=
  match readLayerRequest r.body with
  | .error e => .done (refuse e)
  | .ok request =>
    .call (.setLayer sessionId request.encodingId) fun
      | .error e => .done (refuse (.ofEngine e))
      | .ok () => .done (.bare 200 [])

/-! ## Streams and their status -/

/-- Lists the stream keys. -/
def listStreams : Dialogue Response :=
  .call .streamKeys fun
    | .error e => .done (refuse (.store e))
    | .ok keys => .done (.json 200 (.strings keys))

/-- Shows the status of every broadcast. -/
def showStatuses : Dialogue Response :=
  .call .statuses fun statuses => .done (.json 200 (.list (statuses.map StreamStatus.toJson)))

/-- Shows the status of the broadcast of a stream key that some streamer owns. -/
def showStatus (streamKey : String) : Dialogue Response :=
  if !StreamKey.isValid streamKey then .done (refuse .invalidStreamKey)
  else
    .call .streamKeys fun
      | .error e => .done (refuse (.store e))
      | .ok keys =>
        if !keys.contains streamKey then .done (refuse (.streamNotFound streamKey))
        else
          .call (.status streamKey) fun status? =>
            .done (.json 200 (status?.getD (.idle streamKey)).toJson)

/-- Says that the gateway is up. -/
def health : Dialogue Response := .done (.plain 200 "OK")

end BroadcastRelay.Gateway
