import BroadcastRelay.Document.Decode
import BroadcastRelay.Json.Value
/-!
# Layers

A publisher may send its video in several encodings. A `Layer` names one of them by the media
section it belongs to and its encoding id. `LayerRequest` is the body with which a viewer asks for
one.
-/

namespace BroadcastRelay

/-- A video encoding that a viewer can select. -/
structure Layer where
  /-- The media section. -/
  mediaId : String
  /-- The encoding within the media section. -/
  encodingId : String
deriving DecidableEq, Repr

namespace Layer

/-- How a layer is read. -/
def record : Record Layer where
  name := "SimulcastLayer"
  fields := [
    .of "mediaId" true Document.readString fun v l => { l with mediaId := v },
    .of "encodingId" true Document.readString fun v l => { l with encodingId := v }]
  blank := ⟨"", ""⟩

/-- A layer as JSON. -/
def toJson (l : Layer) : Json.Value :=
  .object [("mediaId", .str l.mediaId), ("encodingId", .str l.encodingId)]

end Layer

/-- A viewer's wish for a layer. -/
structure LayerRequest where
  /-- The media section. -/
  mediaId : String
  /-- The encoding within the media section. -/
  encodingId : String
deriving DecidableEq, Repr

/-- How a layer request is read. -/
def LayerRequest.record : Record LayerRequest where
  name := "LayerRequest"
  fields := [
    .of "mediaId" true Document.readString fun v l => { l with mediaId := v },
    .of "encodingId" true Document.readString fun v l => { l with encodingId := v }]
  blank := ⟨"", ""⟩

end BroadcastRelay
