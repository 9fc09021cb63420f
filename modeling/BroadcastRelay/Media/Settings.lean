import BroadcastRelay.Document.Decode
import BroadcastRelay.Json.Value
import BroadcastRelay.Media.Error
import BroadcastRelay.Text.Split
/-!
# Settings of the media engine

`EngineSettings` says which STUN servers help to find a path, which public addresses stand in for
local ones, and how often a publisher is asked for a key frame. `EngineSettings.check` refuses what
the engine cannot work with.
-/

namespace BroadcastRelay

/-- The settings of the media engine. -/
structure EngineSettings where
  /-- The URLs of STUN servers. -/
  stunServers : List String
  /-- The public addresses to announce in place of local ones. -/
  natAddresses : List String
  /-- The time between two requests for a key frame, in milliseconds. -/
  keyframeIntervalMs : UInt64
deriving DecidableEq, Repr

namespace EngineSettings

/-- The settings that hold where nothing is said. -/
def default : EngineSettings := ⟨["stun:stun.l.google.com:19302"], [], 3000⟩

/-- The settings of an engine that uses local addresses only. -/
def hostOnly : EngineSettings := { default with stunServers := [] }

/-- Whether the text starts with the word. -/
def startsWith (word text : String) : Bool := (dropStart? word.toList text.toList).isSome

/-- Whether the text starts as the URL of a STUN server does. -/
def isStunUrl (url : String) : Bool := startsWith "stun:" url || startsWith "stuns:" url

/-- Refuses settings that the engine cannot work with. -/
def check (s : EngineSettings) : Except TransportError Unit :=
  match s.stunServers.find? (!isStunUrl ·) with
  | some url =>
    .error (.invalidConfig ("STUN server URL must start with stun: or stuns:, got " ++ url))
  | none =>
    if s.keyframeIntervalMs = 0 then
      .error (.invalidConfig "pli_interval_ms must be greater than zero")
    else .ok ()

/-- The lists of URLs that a peer connection is given: one for each server. -/
def iceUrls (s : EngineSettings) : List (List String) := s.stunServers.map fun url => [url]

/-- How the settings are read. -/
def record : Record EngineSettings where
  name := "EngineConfig"
  fields := [
    .of "stun_servers" false (Document.readList Document.readString)
      fun v s => { s with stunServers := v },
    .of "nat_1to1_ips" false (Document.readList Document.readString)
      fun v s => { s with natAddresses := v },
    .of "pli_interval_ms" false Document.readUInt64 fun v s => { s with keyframeIntervalMs := v }]
  blank := default

/-- The settings as JSON. -/
def toJson (s : EngineSettings) : Json.Value :=
  .object [("stun_servers", .strings s.stunServers), ("nat_1to1_ips", .strings s.natAddresses),
    ("pli_interval_ms", .number s.keyframeIntervalMs.toNat)]

end EngineSettings

end BroadcastRelay
