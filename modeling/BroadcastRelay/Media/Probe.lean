import BroadcastRelay.Media.Engine
import BroadcastRelay.Text.Duration
/-!
# Probes

A `Probe` is a client that makes an offer of one video and one audio section, takes an answer and
waits for the connection. Whether media ever flow depends on the network, which is not part of this
library: here a probe waits in vain.
-/

namespace BroadcastRelay

/-- What a probe offers to do. -/
inductive ProbeRole where
  /-- To receive. -/
  | viewer
  /-- To send. -/
  | publisher
deriving DecidableEq, Repr

/-- A client that tries a connection. -/
structure Probe where
  /-- What it offers to do. -/
  role : ProbeRole
  /-- The settings of its peer connection. -/
  settings : EngineSettings
  /-- Whether it is closed. -/
  closed : Bool
deriving DecidableEq, Repr

namespace Probe

/-- Makes a probe. -/
def make (role : ProbeRole) (settings : EngineSettings) : Except TransportError Probe :=
  match settings.peerRefusal? with
  | some refusal => .error refusal
  | none => .ok ⟨role, settings, false⟩

/-- Closes a probe. -/
def close (p : Probe) : Probe := { p with closed := true }

/-- The sections that a probe offers. -/
def sections (role : ProbeRole) : List MediaSection :=
  let direction :=
    match role with
    | .viewer => Direction.receive
    | .publisher => Direction.send
  [⟨"video", direction⟩, ⟨"audio", direction⟩]

/-- Makes an offer. -/
def offer (p : Probe) : Except TransportError (List MediaSection) :=
  if p.closed || !p.settings.hasUsableAddresses then
    .error (.sdp "Failed to create offer: no connection can be made")
  else .ok (sections p.role)

/-- The text of an offer. -/
def offerText (p : Probe) : Except TransportError String := p.offer.map Sdp.render

/-- Takes an answer. -/
def applyAnswer (p : Probe) (answer : String) : Except TransportError Unit :=
  match Sdp.parse? answer with
  | none => .error (.sdp "Failed to parse answer: not a session description")
  | some d =>
    if d.isSecured && !p.closed then .ok ()
    else .error (.sdp "Failed to set remote description: no secured connection can be made")

/-- What a probe says that has waited in vain. -/
def waited (d : Duration) : TransportError :=
  .timeout ("ICE did not connect within " ++ d.render)

end Probe

end BroadcastRelay
