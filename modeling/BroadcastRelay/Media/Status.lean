import BroadcastRelay.Document.Decode
import BroadcastRelay.Json.Value
/-!
# Status of broadcasts

`StreamStatus` is what the media engine reports about one broadcast: when it was first seen, what
arrived from the publisher, and what each viewer got.
-/

namespace BroadcastRelay

/-- What arrived on one video encoding. -/
structure VideoStatus where
  /-- The encoding. -/
  rid : String
  /-- The packets received on it. -/
  packetsReceived : UInt64
deriving DecidableEq, Repr

/-- What one viewer got. -/
structure SessionStatus where
  /-- The session of the viewer. -/
  id : String
  /-- The encoding the viewer gets, empty if it has none yet. -/
  currentLayer : String
  /-- The packets written to the viewer. -/
  packetsWritten : UInt64
deriving DecidableEq, Repr

/-- The status of one broadcast. -/
structure StreamStatus where
  /-- The key of the broadcast. -/
  streamKey : String
  /-- When the broadcast was first seen, in seconds of the epoch. -/
  firstSeenEpoch : UInt64
  /-- The audio packets received. -/
  audioPacketsReceived : UInt64
  /-- The video encodings. -/
  videoStreams : List VideoStatus
  /-- The viewers. -/
  sessions : List SessionStatus
deriving DecidableEq, Repr

/-- How the status of an encoding is read. -/
def VideoStatus.record : Record VideoStatus where
  name := "VideoStreamStatus"
  fields := [
    .of "rid" true Document.readString fun v s => { s with rid := v },
    .of "packetsReceived" true Document.readUInt64 fun v s => { s with packetsReceived := v }]
  blank := ⟨"", 0⟩

/-- The status of an encoding as JSON. -/
def VideoStatus.toJson (s : VideoStatus) : Json.Value :=
  .object [("rid", .str s.rid), ("packetsReceived", .number s.packetsReceived.toNat)]

/-- How the status of a viewer is read. -/
def SessionStatus.record : Record SessionStatus where
  name := "WhepSessionStatus"
  fields := [
    .of "id" true Document.readString fun v s => { s with id := v },
    .of "currentLayer" true Document.readString fun v s => { s with currentLayer := v },
    .of "packetsWritten" true Document.readUInt64 fun v s => { s with packetsWritten := v }]
  blank := ⟨"", "", 0⟩

/-- The status of a viewer as JSON. -/
def SessionStatus.toJson (s : SessionStatus) : Json.Value :=
  .object [("id", .str s.id), ("currentLayer", .str s.currentLayer),
    ("packetsWritten", .number s.packetsWritten.toNat)]

namespace StreamStatus

/-- The status of a broadcast that nothing is known about. -/
def idle (streamKey : String) : StreamStatus := ⟨streamKey, 0, 0, [], []⟩

/-- How a status is read. -/
def record : Record StreamStatus where
  name := "StreamStatus"
  fields := [
    .of "streamKey" true Document.readString fun v s => { s with streamKey := v },
    .of "firstSeenEpoch" true Document.readUInt64 fun v s => { s with firstSeenEpoch := v },
    .of "audioPacketsReceived" true Document.readUInt64
      fun v s => { s with audioPacketsReceived := v },
    .of "videoStreams" true (Document.readList VideoStatus.record.read)
      fun v s => { s with videoStreams := v },
    .of "whepSessions" true (Document.readList SessionStatus.record.read)
      fun v s => { s with sessions := v }]
  blank := idle ""

/-- A status as JSON. -/
def toJson (s : StreamStatus) : Json.Value :=
  .object [("streamKey", .str s.streamKey), ("firstSeenEpoch", .number s.firstSeenEpoch.toNat),
    ("audioPacketsReceived", .number s.audioPacketsReceived.toNat),
    ("videoStreams", .list (s.videoStreams.map VideoStatus.toJson)),
    ("whepSessions", .list (s.sessions.map SessionStatus.toJson))]

end StreamStatus

end BroadcastRelay
