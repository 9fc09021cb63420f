import BroadcastRelay.Credential.Basic
/-!
# Credentials kept in memory

A `MemoryStore` is the list of credentials in the order they came. `find` answers only when a
single credential covers the key with the token; `streamKeys` lists every key once, in order.
-/

namespace BroadcastRelay

/-- Credentials kept in memory. -/
structure MemoryStore where
  /-- The credentials in the order they came. -/
  credentials : List Credential
deriving DecidableEq, Repr

namespace MemoryStore

/-- Adds a credential. -/
def insert (s : MemoryStore) (c : Credential) : MemoryStore := ⟨s.credentials ++ [c]⟩

/-- Removes every credential of the name, and counts them. -/
def revoke (s : MemoryStore) (name : String) : MemoryStore × Nat :=
  (⟨s.credentials.filter (·.name ≠ name)⟩, s.credentials.countP (·.name = name))

/-- The streamer that owns the key with the token. -/
def find (s : MemoryStore) (streamKey authToken : String) : Except StoreError (Option Streamer) :=
  match s.credentials.filter (·.covers streamKey authToken) with
  | [] => .ok none
  | [c] => .ok (some ⟨c.name, streamKey⟩)
  | _ => .error (.duplicateStreamKey streamKey)

/-- Puts a text into an increasing list unless it is there. -/
def insertKey (key : String) : List String → List String
  | [] => [key]
  | k :: ks =>
    if key < k then key :: k :: ks else if key = k then k :: ks else k :: insertKey key ks

/-- Every stream key once, in increasing order. -/
def streamKeys (s : MemoryStore) : List String :=
  (s.credentials.flatMap (·.streamKeys)).foldr insertKey []

end MemoryStore

end BroadcastRelay
