import BroadcastRelay.Media.Rewriter
import BroadcastRelay.Media.Status
/-!
# Sessions of viewers

A `Session` gets one encoding of a broadcast at a time. A session without an encoding takes the
first it sees (`accepts`); `switchLayer` selects another and has the packet numbers go on from the
last ones sent.
-/

namespace BroadcastRelay

/-- A video packet, by the encoding it came on and its stamp. -/
structure VideoPacket where
  /-- The encoding. -/
  rid : String
  /-- The stamp given by the source. -/
  stamp : Stamp
deriving DecidableEq, Repr

/-- A viewer of a broadcast. -/
structure Session where
  /-- The id of the session. -/
  id : String
  /-- The key of the broadcast. -/
  streamKey : String
  /-- Which broadcast of that key the session belongs to. -/
  broadcast : Nat
  /-- The peer connection. -/
  peer : Nat
  /-- Whether packets of the broadcast are forwarded to it. -/
  subscribed : Bool
  /-- The selected encoding. -/
  layer : Option String
  /-- What keeps its packet numbers continuous. -/
  rewriter : Rewriter
  /-- The packets written so far. -/
  written : UInt64
deriving DecidableEq, Repr

namespace Session

/-- A session that has seen nothing yet. -/
def fresh (id streamKey : String) (broadcast peer : Nat) : Session :=
  ⟨id, streamKey, broadcast, peer, false, none, .fresh, 0⟩

/-- Whether a packet of the encoding goes to the viewer; the first encoding seen is adopted. -/
def accepts (s : Session) (rid : String) : Session × Bool :=
  match s.layer with
  | some layer => (s, layer == rid)
  | none => ({ s with layer := some rid }, true)

/-- Selects an encoding, and says whether that is a change. -/
def switchLayer (s : Session) (rid : String) : Session × Bool :=
  if s.layer = some rid then (s, false)
  else ({ s with layer := some rid, rewriter := s.rewriter.resync }, true)

/-- Rewrites the stamp of one packet. -/
def rewrite (s : Session) (stamp : Stamp) : Session × Stamp :=
  let (rewriter, out) := s.rewriter.rewrite stamp
  ({ s with rewriter }, out)

/-- Counts written packets. -/
def recordWritten (s : Session) (n : UInt64) : Session := { s with written := s.written + n }

/-- Forwards one video packet: the stamp it is written with, if it is. -/
def forwardVideo (s : Session) (p : VideoPacket) : Session × Option Stamp :=
  match s.accepts p.rid with
  | (s, false) => (s, none)
  | (s, true) =>
    let (s, out) := s.rewrite p.stamp
    (s.recordWritten 1, some out)

/-- Forwards audio packets, unchanged. -/
def forwardAudio (s : Session) (n : UInt64) : Session := s.recordWritten n

/-- What the status of the broadcast says of the session. -/
def status (s : Session) : SessionStatus := ⟨s.id, s.layer.getD "", s.written⟩

theorem accepts_of_layer {s : Session} {layer : String} (h : s.layer = some layer) (rid : String) :
    s.accepts rid = (s, layer == rid) := by simp [accepts, h]

@[simp] theorem layer_switchLayer (s : Session) (rid : String) :
    (s.switchLayer rid).1.layer = some rid := by
  unfold switchLayer
  split <;> simp_all

end Session

end BroadcastRelay
