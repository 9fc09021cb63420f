import BroadcastRelay.Text.Scan
/-!
# Network addresses

`IpAddress` and `SocketAddress` with their texts. Reading takes four decimal numbers without
leading zeros, or up to eight hexadecimal groups of which one run of zeros may be left out and the
last two may be written as four decimal numbers. Writing leaves out the first longest run of two or
more zero groups.
-/

namespace BroadcastRelay.Net

/-- An internet address. -/
inductive IpAddress where
  /-- An address of four octets. -/
  | v4 (a b c d : UInt8)
  /-- An address of eight groups. -/
  | v6 (groups : List UInt16)
deriving DecidableEq, Repr

/-- An address with a port, and a scope where the address is of eight groups. -/
structure SocketAddress where
  /-- The address. -/
  ip : IpAddress
  /-- The scope, zero if there is none. -/
  scope : UInt32
  /-- The port. -/
  port : UInt16
deriving DecidableEq, Repr

/-! ## Numbers -/

/-- The value of a digit in a base of up to sixteen. -/
def digit? (base : Nat) (c : Char) : Option Nat :=
  let n :=
    if '0' ≤ c ∧ c ≤ '9' then c.toNat - 48
    else if 'a' ≤ c ∧ c ≤ 'f' then c.toNat - 87
    else if 'A' ≤ c ∧ c ≤ 'F' then c.toNat - 55
    else base
  if n < base then some n else none

/-- The digits at the front of a text and what follows them. -/
def digits (base : Nat) : List Char → List Nat × List Char
  | [] => ([], [])
  | c :: cs =>
    match digit? base c with
    | some d => let (ds, r) := digits base cs; (d :: ds, r)
    | none => ([], c :: cs)

/-- Reads a number below `bound` of at most `most` digits. -/
def readNumber (base bound : Nat) (most : Option Nat) : Scan Nat := fun cs =>
  let (ds, r) := digits base cs
  let n := ds.foldl (fun n d => n * base + d) 0
  if ds.isEmpty || most.any (· < ds.length) || bound ≤ n then none else some (n, r)

/-! ## Addresses of four octets -/

/-- Reads an octet; a zero stands in front only by itself. -/
def readOctet : Scan UInt8 := fun cs => do
  let (n, r) ← readNumber 10 256 (some 3) cs
  if cs.head? = some '0' ∧ cs.length - r.length ≠ 1 then none
  return (UInt8.ofNat n, r)

/-- Reads four octets. -/
def readV4 : Scan (UInt8 × UInt8 × UInt8 × UInt8) := fun cs => do
  let (a, cs) ← readOctet cs
  let (_, cs) ← Scan.char '.' cs
  let (b, cs) ← readOctet cs
  let (_, cs) ← Scan.char '.' cs
  let (c, cs) ← readOctet cs
  let (_, cs) ← Scan.char '.' cs
  let (d, cs) ← readOctet cs
  return ((a, b, c, d), cs)

/-! ## Addresses of eight groups -/

/-- Reads the colon in front of a group that is not the first. -/
def readColon (first : Bool) : Scan Unit := fun cs =>
  if first then some ((), cs) else Scan.char ':' cs

/-- Two groups from four octets. -/
def pairs (o : UInt8 × UInt8 × UInt8 × UInt8) : List UInt16 :=
  let (a, b, c, d) := o
  [UInt16.ofNat (a.toNat * 256 + b.toNat), UInt16.ofNat (c.toNat * 256 + d.toNat)]

/-- Reads at most `room` groups: the groups, whether the last two are octets, and what follows. -/
def readGroups (first : Bool) : Nat → List Char → List UInt16 × Bool × List Char
  | 0, cs => ([], false, cs)
  | room + 1, cs =>
    let octets? : Option (List UInt16 × List Char) := do
      if room = 0 then none
      let (_, cs) ← readColon first cs
      let (o, cs) ← readV4 cs
      return (pairs o, cs)
    match octets? with
    | some (gs, cs) => (gs, true, cs)
    | none =>
      let group? : Option (Nat × List Char) := do
        let (_, cs) ← readColon first cs
        readNumber 16 65536 (some 4) cs
      match group? with
      | some (g, cs) =>
        let (gs, octets, r) := readGroups false room cs
        (UInt16.ofNat g :: gs, octets, r)
      | none => ([], false, cs)

/-- Reads eight groups, one run of zeros left out or not. -/
def readV6 : Scan (List UInt16) := fun cs => do
  let (head, octets, cs) := readGroups true 8 cs
  if head.length = 8 then return (head, cs)
  if octets then none
  let (_, cs) ← Scan.char ':' cs
  let (_, cs) ← Scan.char ':' cs
  let (tail, _, cs) := readGroups true (7 - head.length) cs
  return (head ++ List.replicate (8 - head.length - tail.length) 0 ++ tail, cs)

/-! ## Whole texts -/

/-- Reads a port with its colon. -/
def readPort : Scan UInt16 := fun cs => do
  let (_, cs) ← Scan.char ':' cs
  let (n, cs) ← readNumber 10 65536 none cs
  return (UInt16.ofNat n, cs)

/-- Reads a scope with its percent sign, if there is one. -/
def readScope : Scan UInt32 := fun cs => do
  match Scan.char '%' cs with
  | none => return (0, cs)
  | some (_, cs) =>
    let (n, cs) ← readNumber 10 4294967296 none cs
    return (UInt32.ofNat n, cs)

/-- Reads an address of four octets with its port. -/
def readSocketV4 : Scan SocketAddress := fun cs => do
  let ((a, b, c, d), cs) ← readV4 cs
  let (port, cs) ← readPort cs
  return (⟨.v4 a b c d, 0, port⟩, cs)

/-- Reads an address of eight groups in brackets with its port. -/
def readSocketV6 : Scan SocketAddress := fun cs => do
  let (_, cs) ← Scan.char '[' cs
  let (groups, cs) ← readV6 cs
  let (scope, cs) ← readScope cs
  let (_, cs) ← Scan.char ']' cs
  let (port, cs) ← readPort cs
  return (⟨.v6 groups, scope, port⟩, cs)

/-- Reads an address. -/
def IpAddress.parse? (text : String) : Option IpAddress :=
  (Scan.whole readV4 text.toList).map (fun (a, b, c, d) => .v4 a b c d) |>.or ((Scan.whole readV6 text.toList).map .v6)

/-- Reads an address with its port. -/
def SocketAddress.parse? (text : String) : Option SocketAddress :=
  (Scan.whole readSocketV4 text.toList).or (Scan.whole readSocketV6 text.toList)

/-! ## Writing -/

/-- The text of four octets. -/
def renderV4 (a b c d : UInt8) : String :=
  ".".intercalate ([a, b, c, d].map fun o => toString o.toNat)

/-- The text of groups divided by colons. -/
def renderGroups (groups : List UInt16) : String :=
  ":".intercalate (groups.map fun g => String.ofList (Nat.toDigits 16 g.toNat))

/-- The number of zero groups at the front. -/
def zeros (groups : List UInt16) : Nat := (groups.takeWhile (· = 0)).length

/-- The first longest run of zero groups: where it starts and how long it is. -/
def longestRun : Nat → List UInt16 → Nat × Nat
  | i, [] => (i, 0)
  | i, g :: gs =>
    let here := zeros (g :: gs)
    let later := longestRun (i + 1) gs
    if later.2 ≤ here then (i, here) else later

/-- The text of eight groups. -/
def renderV6 (groups : List UInt16) : String :=
  match groups with
  | [0, 0, 0, 0, 0, 0xFFFF, h, l] =>
    "::ffff:" ++ renderV4 (UInt8.ofNat (h.toNat / 256)) (UInt8.ofNat (h.toNat % 256))
      (UInt8.ofNat (l.toNat / 256)) (UInt8.ofNat (l.toNat % 256))
  | _ =>
    let (start, length) := longestRun 0 groups
    if length < 2 then renderGroups groups
    else renderGroups (groups.take start) ++ "::" ++ renderGroups (groups.drop (start + length))

/-- The text of an address with its port. -/
def SocketAddress.render (s : SocketAddress) : String :=
  match s.ip with
  | .v4 a b c d => renderV4 a b c d ++ ":" ++ toString s.port.toNat
  | .v6 groups =>
    let scope := if s.scope = 0 then "" else "%" ++ toString s.scope.toNat
    "[" ++ renderV6 groups ++ scope ++ "]:" ++ toString s.port.toNat

end BroadcastRelay.Net
