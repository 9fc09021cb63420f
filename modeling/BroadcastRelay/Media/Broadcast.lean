import BroadcastRelay.Media.Codec
import BroadcastRelay.Media.Layer
import BroadcastRelay.Media.Status
/-!
# Broadcasts

A `Broadcast` is what the engine holds of one stream key: its publisher, the video encodings that
came from it and counters. Putting a publisher in and clearing one are made of two steps each, the
slot first and the media after it.
-/

namespace BroadcastRelay

/-- A publisher, by its id and its peer connection. -/
structure Publisher where
  /-- The id. -/
  id : String
  /-- The peer connection. -/
  peer : Nat
deriving DecidableEq, Repr

/-- A video encoding that came from the publisher. -/
structure VideoLayer where
  /-- The encoding. -/
  rid : String
  /-- The source of its packets. -/
  ssrc : UInt32
  /-- What tells this addition of the encoding from later ones. -/
  handle : Nat
  /-- The packets received. -/
  packets : UInt64
deriving DecidableEq, Repr

/-- What the engine holds of one stream key. -/
structure Broadcast where
  /-- The stream key. -/
  key : String
  /-- When the broadcast was first seen, in seconds of the epoch. -/
  firstSeen : UInt64
  /-- The audio packets received. -/
  audioPackets : UInt64
  /-- The encodings, the latest addition last. -/
  layers : List VideoLayer
  /-- How many encodings have been added. -/
  additions : Nat
  /-- The codec of the video. -/
  videoCodec : Option Codec
  /-- The codec of the audio. -/
  audioCodec : Option Codec
  /-- The publisher on air. -/
  publisher : Option Publisher
deriving DecidableEq, Repr

namespace Broadcast

/-- The encoding id of a publisher that sends one encoding without a name. -/
def defaultRid : String := "default"

/-- The media section of every video encoding. -/
def videoMediaId : String := "1"

/-- The greatest number of video packets that wait for a viewer. -/
def videoCapacity : Nat := 1024

/-- The greatest number of audio packets that wait for a viewer. -/
def audioCapacity : Nat := 256

/-- A broadcast of which nothing has come. -/
def fresh (key : String) (now : UInt64) : Broadcast :=
  ⟨key, now, 0, [], 0, none, none, none⟩

/-- The codecs of the tracks that a new viewer is offered. -/
def trackCodecs (b : Broadcast) : Codec × Codec :=
  (b.videoCodec.getD .defaultVideo, b.audioCodec.getD .defaultAudio)

/-! ## Publisher -/

/-- Whether a publisher is on air. -/
def hasPublisher (b : Broadcast) : Bool := b.publisher.isSome

/-- Puts a publisher into the slot, in place of another. -/
def putPublisher (b : Broadcast) (p : Publisher) : Broadcast := { b with publisher := some p }

/-- Forgets the encodings. -/
def clearLayers (b : Broadcast) : Broadcast := { b with layers := [] }

/-- Forgets encodings and codecs. -/
def clearMedia (b : Broadcast) : Broadcast :=
  { b.clearLayers with videoCodec := none, audioCodec := none }

/-- Puts a publisher on air and gives the one it replaces. -/
def replacePublisher (b : Broadcast) (p : Publisher) : Broadcast × Option Publisher :=
  ((b.putPublisher p).clearMedia, b.publisher)

/-- Whether the publisher on air has this id. -/
def isOnAir (b : Broadcast) (id : String) : Bool := b.publisher.any (·.id == id)

/-- Empties the slot. -/
def takePublisher (b : Broadcast) : Broadcast := { b with publisher := none }

/-- Takes the publisher with this id off air, if it is on. -/
def clearPublisher (b : Broadcast) (id : String) : Broadcast × Bool :=
  if b.isOnAir id then (b.takePublisher.clearLayers, true) else (b, false)

/-! ## Encodings -/

/-- Adds an encoding, in place of one of the same id, and gives its handle. -/
def addLayer (b : Broadcast) (rid : String) (ssrc : UInt32) : Broadcast × VideoLayer :=
  let rid := if rid = "" then defaultRid else rid
  let layer : VideoLayer := ⟨rid, ssrc, b.additions, 0⟩
  ({ b with layers := b.layers.filter (·.rid ≠ rid) ++ [layer], additions := b.additions + 1 },
    layer)

/-- Whether the encoding is among those received. -/
def hasLayer (b : Broadcast) (rid : String) : Bool := b.layers.any (·.rid == rid)

/-- The layers that viewers can select. -/
def selectable (b : Broadcast) : List Layer := b.layers.map fun l => ⟨videoMediaId, l.rid⟩

/-- What the status says of the encodings. -/
def videoStatuses (b : Broadcast) : List VideoStatus := b.layers.map fun l => ⟨l.rid, l.packets⟩

/-- Counts packets received through a handle. -/
def countVideo (b : Broadcast) (handle : Nat) (n : UInt64) : Broadcast :=
  { b with
    layers := b.layers.map fun l =>
      if l.handle = handle then { l with packets := l.packets + n } else l }

/-- Counts audio packets received. -/
def countAudio (b : Broadcast) (n : UInt64) : Broadcast :=
  { b with audioPackets := b.audioPackets + n }

theorem hasLayer_iff {b : Broadcast} {rid : String} :
    b.hasLayer rid = true ↔ ∃ l ∈ b.selectable, l.encodingId = rid := by
  simp only [hasLayer, selectable, List.any_eq_true, beq_iff_eq, List.mem_map]
  constructor
  · rintro ⟨l, hl, rfl⟩
    exact ⟨_, ⟨l, hl, rfl⟩, rfl⟩
  · rintro ⟨_, ⟨l, hl, rfl⟩, h⟩
    exact ⟨l, hl, h⟩

end Broadcast

end BroadcastRelay
