/-!
# States of a peer connection

A peer connection that has failed, is disconnected or is closed will carry no more media
(`isTerminal`). Of these only a closed one needs no closing (`leavesOpen`).
-/

namespace BroadcastRelay

/-- The state that a peer connection reports. -/
inductive PeerState where
  /-- Nothing is known. -/
  | unspecified
  /-- Just made. -/
  | new
  /-- Looking for a path. -/
  | connecting
  /-- Carrying media. -/
  | connected
  /-- The path is lost. -/
  | disconnected
  /-- No path was found. -/
  | failed
  /-- Closed. -/
  | closed
deriving DecidableEq, Repr

namespace PeerState

/-- The state of a name. -/
def ofName? (name : String) : Option PeerState :=
  match name with
  | "unspecified" => some unspecified
  | "new" => some new
  | "connecting" => some connecting
  | "connected" => some connected
  | "disconnected" => some disconnected
  | "failed" => some failed
  | "closed" => some closed
  | _ => none

/-- Whether the connection will carry no more media. -/
def isTerminal : PeerState → Bool
  | failed | disconnected | closed => true
  | _ => false

/-- Whether the connection is at its end and still has to be closed. -/
def leavesOpen : PeerState → Bool
  | failed | disconnected => true
  | _ => false

end PeerState

end BroadcastRelay
