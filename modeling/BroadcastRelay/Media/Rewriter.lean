/-!
# Packet numbers across a change of source

A viewer's player expects sequence numbers and timestamps that go on without a jump. A `Rewriter`
adds an offset to both; after `resync` it chooses the offsets anew, so that the next packet follows
the last one that was sent.
-/

namespace BroadcastRelay

/-- The numbers of a packet that depend on its source. -/
structure Stamp where
  /-- The sequence number. -/
  sequence : UInt16
  /-- The timestamp, in units of 90 kHz. -/
  timestamp : UInt32
deriving DecidableEq, Repr

/-- The distance in timestamps across a change of source: one frame at 30 frames a second. -/
def Stamp.gap : UInt32 := 3000

/-- The stamp that follows this one across a change of source. -/
def Stamp.next (s : Stamp) : Stamp := ⟨s.sequence + 1, s.timestamp + Stamp.gap⟩

/-- Keeps outgoing stamps continuous. -/
structure Rewriter where
  /-- What is added to sequence numbers. -/
  sequenceOffset : UInt16
  /-- What is added to timestamps. -/
  timestampOffset : UInt32
  /-- The last stamp sent. -/
  last : Option Stamp
  /-- Whether the offsets are to be chosen anew at the next packet. -/
  pending : Bool
deriving DecidableEq, Repr

namespace Rewriter

/-- A rewriter that has sent nothing. -/
def fresh : Rewriter := ⟨0, 0, none, false⟩

/-- Has the offsets chosen anew at the next packet. -/
def resync (r : Rewriter) : Rewriter := { r with pending := true }

/-- Chooses the offsets anew if that is due and something was sent before. -/
def anchor (r : Rewriter) (s : Stamp) : Rewriter :=
  match r.pending, r.last with
  | true, some l =>
    { r with
      sequenceOffset := l.next.sequence - s.sequence
      timestampOffset := l.next.timestamp - s.timestamp
      pending := false }
  | _, _ => { r with pending := false }

/-- The stamp shifted by the offsets. -/
def shift (r : Rewriter) (s : Stamp) : Stamp :=
  ⟨s.sequence + r.sequenceOffset, s.timestamp + r.timestampOffset⟩

/-- Rewrites the stamp of one packet. -/
def rewrite (r : Rewriter) (s : Stamp) : Rewriter × Stamp :=
  let r := r.anchor s
  let out := r.shift s
  ({ r with last := some out }, out)

/-- Until something is resynchronised, stamps pass unchanged. -/
theorem rewrite_fresh (s : Stamp) : (fresh.rewrite s).2 = s := by
  cases s
  simp [rewrite, fresh, anchor, shift]

/-- After a resynchronisation the next stamp follows the last one sent. -/
theorem rewrite_resync {r : Rewriter} {l : Stamp} (h : r.last = some l) (s : Stamp) :
    (r.resync.rewrite s).2 = l.next := by
  have hs : s.sequence + (l.next.sequence - s.sequence) = l.next.sequence := by
    rw [UInt16.add_comm, UInt16.sub_add_cancel]
  have ht : s.timestamp + (l.next.timestamp - s.timestamp) = l.next.timestamp := by
    rw [UInt32.add_comm, UInt32.sub_add_cancel]
  simp [rewrite, resync, anchor, shift, h, hs, ht]

end Rewriter

end BroadcastRelay
