import BroadcastRelay.Credential.DatabaseUrl
import BroadcastRelay.Credential.MemoryStore
/-!
# The store of a deployment

A deployment keeps its credentials in a database if it names one, and in memory otherwise. `Store`
is either of them, and `Store.make` makes the one that is asked for. A database need not be there
for that: its URL has to be one.
-/

namespace BroadcastRelay

/-- A store of credentials. -/
inductive Store where
  /-- In memory. -/
  | memory (store : MemoryStore)
  /-- In a database. -/
  | database (pool : DatabaseStore) (server : Database)
deriving DecidableEq, Repr

namespace Store

/-- The store in the database of a URL, or else of the given credentials. -/
def make (url? : Option String) (credentials : List Credential) (server : Database) :
    Except StoreError Store :=
  match url? with
  | none => .ok (.memory ⟨credentials⟩)
  | some url =>
    match DatabaseUrl.check url with
    | .ok () => .ok (.database .fresh server)
    | .error e => .error e.store

/-- The streamer that owns the key with the token, and the store afterwards. -/
def find (s : Store) (streamKey authToken : String) :
    Except StoreError (Option Streamer) × Store :=
  match s with
  | .memory m => (m.find streamKey authToken, s)
  | .database pool server =>
    let (pool, _, found) := pool.find server streamKey authToken
    (found, .database pool server)

/-- Every stream key, and the store afterwards. -/
def streamKeys (s : Store) : Except StoreError (List String) × Store :=
  match s with
  | .memory m => (.ok m.streamKeys, s)
  | .database pool server =>
    let (pool, _, keys) := pool.streamKeys server
    (keys, .database pool server)

end Store

end BroadcastRelay
