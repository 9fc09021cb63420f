import BroadcastRelay.Media.Registry
import BroadcastRelay.Media.Sdp
import BroadcastRelay.Media.Settings
import BroadcastRelay.Net.Url
/-!
# The media engine

The engine takes the offers of publishers and viewers and keeps the registry in step. Ids, the
clock and the course of a negotiation are arguments (`ingestWith`, `egressWith`); `ingest` and
`egress` get the course from the offer's text, and `publisherAnswer` and `viewerAnswer` give the
text that goes back to the client. A new publisher is put on air before its offer is judged, a new
session is registered before its offer is judged, and both are taken back if it fails.
-/

namespace BroadcastRelay

/-- The media engine. -/
structure Engine where
  /-- The settings. -/
  settings : EngineSettings
  /-- The broadcasts and sessions. -/
  registry : Registry
deriving Repr

/-! ## What a peer connection accepts -/

namespace EngineSettings

/-- Why no peer connection can be made, if none can. -/
def peerRefusal? (s : EngineSettings) : Option TransportError :=
  if s.stunServers.all Net.isStunServer then none
  else some (.setup "Failed to create peer connection: a server URL cannot be used")

/-- Whether the public addresses can stand in for local ones: one for each kind of address, or
pairs of a public and a local address of the same kind. -/
def hasUsableAddresses (s : EngineSettings) : Bool :=
  let parts := s.natAddresses.map fun text =>
    (split (· == '/') text.toList).map fun p => Net.IpAddress.parse? (String.ofList p)
  let isV4 : Net.IpAddress → Bool
    | .v4 _ _ _ _ => true
    | .v6 _ => false
  let sole (v4 : Bool) := parts.countP fun
    | [some a] => isV4 a == v4
    | _ => false
  let paired (v4 : Bool) := parts.countP fun
    | [some a, some b] => isV4 a == v4 && isV4 b == v4
    | _ => false
  (parts.all fun
    | [some _] => true
    | [some a, some b] => isV4 a == isV4 b
    | _ => false) &&
    [true, false].all fun v4 => sole v4 == 0 || (sole v4 == 1 && paired v4 == 0)

/-- The verdict on an offer: the media sections of the answer, or what is wrong. -/
def judge (s : EngineSettings) (offer : String) : Except TransportError (List MediaSection) :=
  match Sdp.parse? offer with
  | none => .error (.sdp "Failed to parse offer: not a session description")
  | some d =>
    if d.isSecured && s.hasUsableAddresses then .ok d.answer
    else .error (.sdp "Failed to set remote description: no secured connection can be made")

end EngineSettings

/-! ## How a negotiation goes -/

/-- A step of a negotiation that can fail. -/
inductive NegotiationStep where
  /-- The peer connection is made. -/
  | connection
  /-- The tracks of a viewer are added; a publisher has none to add. -/
  | tracks
  /-- The offer is answered. -/
  | offer
deriving DecidableEq, Repr

/-- How a negotiation goes: with an answer, or with a failure at one of its steps. -/
inductive Course (α : Type) where
  /-- The offer is answered. -/
  | answered (answer : α)
  /-- A step fails. -/
  | failed (step : NegotiationStep) (cause : TransportError)
deriving DecidableEq, Repr

/-- How the negotiation of an offer goes: adding a track never fails on a connection just made. -/
def EngineSettings.course (s : EngineSettings) (offer : String) : Course (List MediaSection) :=
  match s.peerRefusal? with
  | some refusal => .failed .connection refusal
  | none =>
    match s.judge offer with
    | .ok media => .answered media
    | .error e => .failed .offer e

namespace Engine

/-- An engine with checked settings and nothing on air. -/
def make (s : EngineSettings) : Except TransportError Engine := do
  s.check
  return ⟨s, .fresh⟩

/-- The engine with its registry changed. -/
def withRegistry (e : Engine) (r : Registry) : Engine := { e with registry := r }

/-! ## Publishers -/

/-- Ends the connection of a publisher that has been replaced. -/
def dismiss (r : Registry) : Option Publisher → Registry
  | none => r
  | some p => r.finish p.peer

/-- Puts a new publisher on air; gives the places of its broadcast and of its connection. -/
def install (r : Registry) (now : UInt64) (key id : String) : Registry × Nat × Nat :=
  let (r, broadcast) := r.streamOrCreate now key
  let (r, peer) := r.openPeer (.publisher broadcast id)
  let (r, previous) := r.replacePublisher broadcast ⟨id, peer⟩
  (dismiss r previous, broadcast, peer)

/-- Takes a publisher whose offer was refused off air again. -/
def withdrawPublisher (r : Registry) (broadcast peer : Nat) (key id : String) : Registry :=
  ((((r.cancel peer).clearPublisher broadcast id).1).close peer).prune key

/-- Puts a publisher on air once it has a connection, and takes it off again if its offer is
refused. -/
def ingestWith {α : Type} (e : Engine) (now : UInt64) (key id : String) (course : Course α) :
    Engine × Except TransportError α :=
  match course with
  | .failed .connection refusal => (e, .error refusal)
  | .failed _ refusal =>
    let (r, broadcast, peer) := install e.registry now key id
    (e.withRegistry (withdrawPublisher r broadcast peer key id), .error refusal)
  | .answered a => (e.withRegistry (install e.registry now key id).1, .ok a)

/-- Takes the offer of a publisher. -/
def ingest (e : Engine) (now : UInt64) (key id offer : String) :
    Engine × Except TransportError (List MediaSection) :=
  e.ingestWith now key id (e.settings.course offer)

/-! ## Viewers -/

/-- Forgets a session whose negotiation failed, whether or not it was registered. -/
def withdrawSession (r : Registry) (peer : Nat) (key id : String) : Registry :=
  ((((r.cancel peer).removeSession id).1).close peer).prune key

/-- Has packets forwarded to a session. -/
def subscribe (r : Registry) (session : Nat) : Registry :=
  r.modifySession session fun s => { s with subscribed := true }

/-- Registers a session once it has a connection and tracks, and forgets it again if its offer is
refused. The broadcast is looked up before anything can fail. -/
def egressWith {α : Type} (e : Engine) (now : UInt64) (key id : String) (course : Course α) :
    Engine × Except TransportError α :=
  let (r, broadcast) := e.registry.streamOrCreate now key
  match course with
  | .failed .connection refusal => (e.withRegistry (r.prune key), .error refusal)
  | .failed .tracks refusal =>
    let (r, peer) := r.openPeer (.viewer id key)
    (e.withRegistry (withdrawSession r peer key id), .error refusal)
  | .failed .offer refusal =>
    let (r, peer) := r.openPeer (.viewer id key)
    let (r, _) := r.insertSession (.fresh id key broadcast peer)
    (e.withRegistry (withdrawSession r peer key id), .error refusal)
  | .answered a =>
    let (r, peer) := r.openPeer (.viewer id key)
    let (r, session) := r.insertSession (.fresh id key broadcast peer)
    (e.withRegistry (subscribe r session), .ok a)

/-- Takes the offer of a viewer. -/
def egress (e : Engine) (now : UInt64) (key id offer : String) :
    Engine × Except TransportError (List MediaSection) :=
  e.egressWith now key id (e.settings.course offer)

/-! ## Answers -/

/-- What a negotiation comes to for the client: the text of the answer, or a failure, which is one of
the negotiation whatever its cause. -/
def outcome (verdict : Except TransportError (List MediaSection)) : Except EngineError String :=
  match verdict with
  | .ok media => .ok (Sdp.render media)
  | .error e => .error (.negotiation e.message)

/-- Answers the offer of a publisher. -/
def publisherAnswer (e : Engine) (now : UInt64) (key id offer : String) :
    Engine × Except EngineError String :=
  let (e, verdict) := e.ingest now key id offer
  (e, outcome verdict)

/-- Answers the offer of a viewer. -/
def viewerAnswer (e : Engine) (now : UInt64) (key id offer : String) :
    Engine × Except EngineError String :=
  let (e, verdict) := e.egress now key id offer
  (e, outcome verdict)

/-! ## Layers -/

/-- The layers that a session can select. -/
def layers (e : Engine) (sessionId : String) : Except TransportError (List Layer) :=
  match e.registry.session? sessionId with
  | none => .error (.sessionNotFound sessionId)
  | some s => .ok (((e.registry.stream? s.streamKey).map Broadcast.selectable).getD [])

/-- Selects a layer for a session. -/
def setLayer (e : Engine) (sessionId encodingId : String) :
    Engine × Except TransportError Unit :=
  match e.registry.viewers.get? sessionId, e.registry.session? sessionId with
  | some session, some s =>
    if (e.registry.stream? s.streamKey).any (·.hasLayer encodingId) then
      (e.withRegistry (e.registry.modifySession session fun s => (s.switchLayer encodingId).1),
        .ok ())
    else (e, .error (.unknownLayer sessionId encodingId))
  | _, _ => (e, .error (.sessionNotFound sessionId))

/-! ## Status -/

/-- The status of a broadcast. -/
def status (e : Engine) (key : String) : Option StreamStatus := e.registry.status key

/-- The status of every broadcast. -/
def statuses (e : Engine) : List StreamStatus := e.registry.statuses

/-! ## Shutting down -/

/-- Empties the slot of a broadcast and ends the connection of its publisher. -/
def takeOff (r : Registry) (broadcast : Nat) : Registry :=
  match (r.broadcasts[broadcast]?).bind (·.publisher) with
  | some p => (r.modifyBroadcast broadcast Broadcast.takePublisher).finish p.peer
  | none => r

/-- Forgets everything and ends every registered connection. -/
def shutdown (e : Engine) : Engine :=
  let r := e.registry
  let sessions := r.viewers.values.filterMap (r.sessions[·]?)
  let drained := { r with streams := .empty, viewers := .empty }
  let drained := sessions.foldl (fun d s => d.finish s.peer) drained
  e.withRegistry (r.streams.values.foldl takeOff drained)

end Engine

end BroadcastRelay
