/-!
# Failures of the media side

`TransportError` is what can go wrong on a peer connection, `EngineError` what the media engine
tells its callers. A failed negotiation keeps its own text on the way (`TransportError.engine`).
-/

namespace BroadcastRelay

/-- A failure that the media engine reports. -/
inductive EngineError where
  /-- An offer could not be answered. -/
  | negotiation (text : String)
  /-- No session has this id. -/
  | sessionNotFound (id : String)
  /-- The session's broadcast has no such encoding. -/
  | unknownLayer (sessionId encodingId : String)
  /-- Anything else. -/
  | failure (text : String)
deriving DecidableEq, Repr

/-- The text of the failure. -/
def EngineError.message : EngineError → String
  | .negotiation text => text
  | .sessionNotFound id => "session not found: " ++ id
  | .unknownLayer sessionId encodingId =>
    "layer " ++ encodingId ++ " is not available for session " ++ sessionId
  | .failure text => "engine error: " ++ text

/-- A failure of a peer connection or of the engine's own bookkeeping. -/
inductive TransportError where
  /-- A setting is not acceptable. -/
  | invalidConfig (text : String)
  /-- The peer connection could not be set up. -/
  | setup (text : String)
  /-- Offer and answer could not be exchanged. -/
  | sdp (text : String)
  /-- No session has this id. -/
  | sessionNotFound (id : String)
  /-- The session's broadcast has no such encoding. -/
  | unknownLayer (sessionId encodingId : String)
  /-- No path to the peer was found. -/
  | iceFailed (text : String)
  /-- Something took too long. -/
  | timeout (text : String)
deriving DecidableEq, Repr

namespace TransportError

/-- The text of the failure. -/
def message : TransportError → String
  | invalidConfig text => "Invalid configuration: " ++ text
  | setup text => "WebRTC error: " ++ text
  | sdp text => "SDP negotiation error: " ++ text
  | sessionNotFound id => "Session not found: " ++ id
  | unknownLayer sessionId encodingId =>
    "Layer " ++ encodingId ++ " is not available for session " ++ sessionId
  | iceFailed text => "ICE connection failed: " ++ text
  | timeout text => "Operation timeout: " ++ text

/-- What the engine reports for the failure. -/
def engine : TransportError → EngineError
  | sdp text => .negotiation text
  | sessionNotFound id => .sessionNotFound id
  | unknownLayer sessionId encodingId => .unknownLayer sessionId encodingId
  | e => .failure e.message

end TransportError

end BroadcastRelay
