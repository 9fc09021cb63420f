import BroadcastRelay.KeyMap
import BroadcastRelay.Media.Broadcast
import BroadcastRelay.Media.Error
import BroadcastRelay.Media.PeerState
import BroadcastRelay.Media.Session
/-!
# The registry of broadcasts and sessions

A `Registry` holds every peer connection, broadcast and session there ever was, each known by its
place, and two maps that say which broadcast is registered under a key and which session under an
id. Its operations are the single steps that requests are made of: a request keeps the place of a
broadcast between two steps, while other requests may take it out of the map.
-/

namespace BroadcastRelay

/-- Whose peer connection it is. -/
inductive Role where
  /-- That of a publisher of a broadcast. -/
  | publisher (broadcast : Nat) (id : String)
  /-- That of a viewer. -/
  | viewer (sessionId streamKey : String)
deriving DecidableEq, Repr

/-- A peer connection and the token that stops what runs for it. -/
structure Peer where
  /-- Whose connection it is. -/
  role : Role
  /-- Whether the connection is closed. -/
  closed : Bool
  /-- Whether what runs for it has been stopped. -/
  cancelled : Bool
deriving DecidableEq, Repr

/-- Broadcasts and sessions. -/
structure Registry where
  /-- Every peer connection. -/
  peers : List Peer
  /-- Every broadcast. -/
  broadcasts : List Broadcast
  /-- Every session. -/
  sessions : List Session
  /-- The broadcast registered under each stream key. -/
  streams : KeyMap Nat
  /-- The session registered under each id. -/
  viewers : KeyMap Nat
deriving Repr

namespace Registry

/-- The registry in which nothing has happened. -/
def fresh : Registry := ⟨[], [], [], .empty, .empty⟩

/-! ## Peer connections -/

/-- Makes a peer connection. -/
def openPeer (r : Registry) (role : Role) : Registry × Nat :=
  ({ r with peers := r.peers ++ [⟨role, false, false⟩] }, r.peers.length)

/-- Closes a peer connection. -/
def close (r : Registry) (peer : Nat) : Registry :=
  { r with peers := r.peers.modify peer fun p => { p with closed := true } }

/-- Stops what runs for a peer connection. -/
def cancel (r : Registry) (peer : Nat) : Registry :=
  { r with peers := r.peers.modify peer fun p => { p with cancelled := true } }

/-- Stops what runs for a peer connection and closes it. -/
def finish (r : Registry) (peer : Nat) : Registry := (r.cancel peer).close peer

/-- Whether what runs for a peer connection has been stopped. -/
def isCancelled (r : Registry) (peer : Nat) : Bool := r.peers[peer]?.any (·.cancelled)

/-- Whether a peer connection is closed. -/
def isClosed (r : Registry) (peer : Nat) : Bool := r.peers[peer]?.any (·.closed)

/-! ## Broadcasts -/

/-- The broadcast registered under a key. -/
def stream? (r : Registry) (key : String) : Option Broadcast :=
  (r.streams.get? key).bind (r.broadcasts[·]?)

/-- Changes a broadcast. -/
def modifyBroadcast (r : Registry) (broadcast : Nat) (f : Broadcast → Broadcast) : Registry :=
  { r with broadcasts := r.broadcasts.modify broadcast f }

/-- The place of the broadcast registered under a key; one is made if there is none. -/
def streamOrCreate (r : Registry) (now : UInt64) (key : String) : Registry × Nat :=
  match r.streams.get? key with
  | some broadcast => (r, broadcast)
  | none =>
    ({ r with
        broadcasts := r.broadcasts ++ [.fresh key now]
        streams := r.streams.insert key r.broadcasts.length },
      r.broadcasts.length)

/-- Puts a publisher on air and gives the one it replaces. -/
def replacePublisher (r : Registry) (broadcast : Nat) (p : Publisher) :
    Registry × Option Publisher :=
  (r.modifyBroadcast broadcast fun b => (b.replacePublisher p).1,
    (r.broadcasts[broadcast]?).bind (·.publisher))

/-- Takes the publisher with this id off air, if it is on. -/
def clearPublisher (r : Registry) (broadcast : Nat) (id : String) : Registry × Bool :=
  (r.modifyBroadcast broadcast fun b => (b.clearPublisher id).1,
    r.broadcasts[broadcast]?.any (·.isOnAir id))

/-! ## Sessions -/

/-- The session registered under an id. -/
def session? (r : Registry) (id : String) : Option Session :=
  (r.viewers.get? id).bind (r.sessions[·]?)

/-- Changes a session. -/
def modifySession (r : Registry) (session : Nat) (f : Session → Session) : Registry :=
  { r with sessions := r.sessions.modify session f }

/-- Registers a new session under its id. -/
def insertSession (r : Registry) (s : Session) : Registry × Nat :=
  ({ r with
      sessions := r.sessions ++ [s]
      viewers := r.viewers.insert s.id r.sessions.length },
    r.sessions.length)

/-- Forgets the session registered under an id, and says whether there was one. -/
def removeSession (r : Registry) (id : String) : Registry × Bool :=
  ({ r with viewers := r.viewers.erase id }, r.viewers.contains id)

/-- The registered sessions of a key, in the order of their ids. -/
def sessionsOf (r : Registry) (key : String) : List Session :=
  (r.viewers.values.filterMap (r.sessions[·]?)).filter (·.streamKey = key)

/-! ## Idle broadcasts -/

/-- Whether the key has viewers. -/
def hasViewers (r : Registry) (key : String) : Bool := !(r.sessionsOf key).isEmpty

/-- Unregisters the broadcast of a key if it has no publisher. -/
def dropUnpublished (r : Registry) (key : String) : Registry :=
  if (r.stream? key).any (!·.hasPublisher) then { r with streams := r.streams.erase key } else r

/-- Unregisters the broadcast of a key if it has neither viewers nor a publisher. -/
def prune (r : Registry) (key : String) : Registry :=
  if r.hasViewers key then r else r.dropUnpublished key

/-! ## Status -/

/-- The status of a broadcast. -/
def statusOf (r : Registry) (b : Broadcast) : StreamStatus :=
  ⟨b.key, b.firstSeen, b.audioPackets, b.videoStatuses, (r.sessionsOf b.key).map Session.status⟩

/-- The registered broadcasts, in the order of their keys. -/
def onAir (r : Registry) : List Broadcast := r.streams.values.filterMap (r.broadcasts[·]?)

/-- The status of the broadcast registered under a key. -/
def status (r : Registry) (key : String) : Option StreamStatus := (r.stream? key).map r.statusOf

/-- The status of every registered broadcast. -/
def statuses (r : Registry) : List StreamStatus := r.onAir.map r.statusOf

/-! ## Endings -/

/-- Ends a publisher: stops what runs for it, takes it off air and closes its connection if that
is still to be done. -/
def retirePublisher (r : Registry) (peer broadcast : Nat) (id : String) (stillOpen : Bool) :
    Registry :=
  let (r, cleared) := (r.cancel peer).clearPublisher broadcast id
  let r :=
    match cleared, r.broadcasts[broadcast]? with
    | true, some b => r.prune b.key
    | _, _ => r
  if stillOpen then r.close peer else r

/-- Ends a session: stops what runs for it, forgets it and closes its connection if that is still
to be done. -/
def retireSession (r : Registry) (peer : Nat) (id streamKey : String) (stillOpen : Bool) :
    Registry :=
  let (r, removed) := (r.cancel peer).removeSession id
  let r := if removed then r.prune streamKey else r
  if stillOpen then r.close peer else r

/-- What a peer connection does when it reports a state. -/
def peerEvent (r : Registry) (peer : Nat) (state : PeerState) : Registry :=
  if !state.isTerminal then r
  else
    match r.peers[peer]? with
    | none => r
    | some p =>
      match p.role with
      | .publisher broadcast id => r.retirePublisher peer broadcast id state.leavesOpen
      | .viewer id key => r.retireSession peer id key state.leavesOpen

/-- Closes a peer connection, which then reports that it is closed. -/
def shut (r : Registry) (peer : Nat) : Registry := (r.close peer).peerEvent peer .closed

/-! ## Packets -/

/-- Whether packets of a broadcast go to a session. -/
def receives (r : Registry) (broadcast : Nat) (s : Session) : Bool :=
  s.subscribed && s.broadcast == broadcast && !r.isCancelled s.peer

/-- The number of sessions that packets of a broadcast go to. -/
def receivers (r : Registry) (broadcast : Nat) : Nat := r.sessions.countP (r.receives broadcast)

/-- What is left of packets that came at once when no more than `capacity` of them can wait. -/
def latest {α : Type} (capacity : Nat) (packets : List α) : List α :=
  packets.drop (packets.length - capacity)

/-- Sends video packets that come at once to every session of a broadcast. -/
def sendVideo (r : Registry) (broadcast : Nat) (packets : List VideoPacket) : Registry :=
  let waiting := latest Broadcast.videoCapacity packets
  { r with
    sessions := r.sessions.map fun s =>
      if r.receives broadcast s then waiting.foldl (fun s p => (s.forwardVideo p).1) s else s }

/-- Sends audio packets that come at once to every session of a broadcast. -/
def sendAudio (r : Registry) (broadcast : Nat) (n : Nat) : Registry :=
  let waiting := min n Broadcast.audioCapacity
  { r with
    sessions := r.sessions.map fun s =>
      if r.receives broadcast s then s.forwardAudio (UInt64.ofNat waiting) else s }

end Registry

end BroadcastRelay
