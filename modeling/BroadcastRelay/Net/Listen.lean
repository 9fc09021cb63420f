import BroadcastRelay.Net.Address
/-!
# Listening

A `Network` is one host as a server meets it: the addresses that are taken. `Network.bind` takes one
more, if it is one of the host's own and does not overlap with another on the same port. An address
that stands for every interface overlaps with each of its kind.
-/

namespace BroadcastRelay.Net

/-- Why an address cannot be taken. -/
inductive BindError where
  /-- Somebody listens there. -/
  | inUse
  /-- It is not an address of this host. -/
  | notLocal
deriving DecidableEq, Repr

/-- The text of the error. -/
def BindError.message : BindError → String
  | inUse => "Address already in use (os error 98)"
  | notLocal => "Cannot assign requested address (os error 99)"

namespace IpAddress

/-- Whether the address stands for every interface. -/
def isAny : IpAddress → Bool
  | v4 a b c d => a == 0 && b == 0 && c == 0 && d == 0
  | v6 groups => groups.all (· == 0)

/-- Whether the address stays on the host. -/
def isLoopback : IpAddress → Bool
  | v4 a _ _ _ => a == 127
  | v6 groups => groups == [0, 0, 0, 0, 0, 0, 0, 1]

/-- Whether the address is one of four octets. -/
def isV4 : IpAddress → Bool
  | v4 _ _ _ _ => true
  | v6 _ => false

/-- Whether somebody who listens on one address gets what is sent to the other. -/
def overlaps (a b : IpAddress) : Bool :=
  a == b || (a.isAny && (!a.isV4 || b.isV4)) || (b.isAny && (!b.isV4 || a.isV4))

end IpAddress

/-- A host: the addresses on which somebody listens. -/
structure Network where
  /-- The addresses. -/
  taken : List SocketAddress
deriving DecidableEq, Repr

/-- Takes an address. On port zero a free port is found. -/
def Network.bind (n : Network) (a : SocketAddress) : Except BindError Network :=
  if !(a.ip.isAny || a.ip.isLoopback) then .error .notLocal
  else if a.port = 0 then .ok n
  else if n.taken.any fun b => a.port == b.port && a.ip.overlaps b.ip then .error .inUse
  else .ok ⟨a :: n.taken⟩

end BroadcastRelay.Net
