/-!
# Codecs

A `Codec` is what a track is announced with. Viewers that come before any media get the default
codecs.
-/

namespace BroadcastRelay

/-- How the media of a track are coded. -/
structure Codec where
  /-- The media type. -/
  mimeType : String
  /-- Clock ticks in a second. -/
  clockRate : UInt32
  /-- The number of audio channels. -/
  channels : UInt16
  /-- The parameters of the format. -/
  parameters : String
  /-- The kinds of feedback offered to the sender. -/
  feedback : List String
deriving DecidableEq, Repr

namespace Codec

/-- The codec of a video track before any video has come. -/
def defaultVideo : Codec where
  mimeType := "video/H264"
  clockRate := 90000
  channels := 0
  parameters := "level-asymmetry-allowed=1;packetization-mode=1;profile-level-id=42e01f"
  feedback := []

/-- The codec of an audio track before any audio has come. -/
def defaultAudio : Codec where
  mimeType := "audio/opus"
  clockRate := 48000
  channels := 2
  parameters := "minptime=10;useinbandfec=1"
  feedback := []

end Codec

end BroadcastRelay
