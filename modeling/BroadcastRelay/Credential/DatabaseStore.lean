import BroadcastRelay.Credential.Basic
/-!
# Credentials kept in a database

A `DatabaseStore` asks a database over a pool of connections. A statement is sent as text when a
connection meets it for the first time and by its parameters alone after that. A connection goes
back to the pool only while the next request is under way, so two connections serve requests that
follow one another. `Database` stands for the other side: it answers every statement with the same
rows, refuses every one, or cannot be reached.
-/

namespace BroadcastRelay

/-- A failure of the database or of the way to it. -/
inductive DatabaseError where
  /-- No connection became free in time. -/
  | poolTimedOut
  /-- The pool is closed. -/
  | poolClosed
  /-- Reading or writing failed. -/
  | io (text : String)
  /-- No secure connection could be made. -/
  | tls (text : String)
  /-- The worker behind the connection is gone. -/
  | workerCrashed
  /-- A row was expected and none came. -/
  | rowNotFound
  /-- The settings of the connection cannot be used. -/
  | configuration (text : String)
  /-- The other side broke the protocol. -/
  | protocol (text : String)
  /-- A type is unknown. -/
  | typeNotFound (name : String)
  /-- A column is unknown. -/
  | columnNotFound (name : String)
  /-- A value could not be decoded. -/
  | decode (text : String)
  /-- The database refused the statement. -/
  | database (text : String)
deriving DecidableEq, Repr

namespace DatabaseError

/-- The text of the failure. -/
def message : DatabaseError → String
  | poolTimedOut => "pool timed out while waiting for an open connection"
  | poolClosed => "attempted to acquire a connection on a closed pool"
  | io text => "error communicating with database: " ++ text
  | tls text => "error occurred while attempting to establish a TLS connection: " ++ text
  | workerCrashed => "attempted to communicate with a crashed background worker"
  | rowNotFound => "no rows returned by a query that expected to return at least one row"
  | configuration text => "error with configuration: " ++ text
  | protocol text => "encountered unexpected or invalid data: " ++ text
  | typeNotFound name => "type named " ++ name ++ " not found"
  | columnNotFound name => "no column found for name: " ++ name
  | decode text => "error occurred while decoding: " ++ text
  | database text => "error returned from database: " ++ text

/-- Whether the failure is one of the way to the database. -/
def isConnectivity : DatabaseError → Bool
  | poolTimedOut | poolClosed | io _ | tls _ | workerCrashed => true
  | _ => false

/-- What the store reports for the failure. -/
def store (e : DatabaseError) : StoreError :=
  if e.isConnectivity then .unavailable e.message else .query e.message

end DatabaseError

/-- The two statements that the store uses. -/
inductive Statement where
  /-- The names of at most two streamers that own a key with a token. -/
  | lookup
  /-- Every stream key once, in order. -/
  | listKeys
deriving DecidableEq, Repr

/-- The text of a statement. -/
def Statement.text : Statement → String
  | .lookup =>
    "SELECT name FROM streamers WHERE $1 = ANY(stream_key) AND auth_token = $2 LIMIT 2"
  | .listKeys =>
    "SELECT DISTINCT unnest(stream_key) AS stream_key FROM streamers ORDER BY stream_key"

/-- A connection, by the statements it has met. -/
structure Connection where
  /-- The statements that need not be sent as text again. -/
  prepared : List Statement
deriving DecidableEq, Repr

/-- What goes over the wire. -/
inductive Message where
  /-- The text of a statement. -/
  | statement (s : Statement)
  /-- The value of a parameter. -/
  | bind (value : String)
deriving DecidableEq, Repr

/-- The other side. -/
inductive Database where
  /-- Every statement is answered with these rows. -/
  | answers (rows : List String)
  /-- Every statement is refused with this text. -/
  | refuses (text : String)
  /-- No connection is made in time. -/
  | unreachable
deriving DecidableEq, Repr

/-- A store that asks a database over a pool of connections. -/
structure DatabaseStore where
  /-- The connections that wait in the pool. -/
  ready : List Connection
  /-- The connection that served last and is on its way back. -/
  returning : Option Connection
  /-- Whether the pool is closed. -/
  closed : Bool
deriving DecidableEq, Repr

namespace DatabaseStore

/-- A pool without connections. -/
def fresh : DatabaseStore := ⟨[], none, false⟩

/-- Closes the pool. -/
def close (s : DatabaseStore) : DatabaseStore := { s with closed := true }

/-- Runs a statement with its parameters: the pool afterwards, the messages sent and the rows. -/
def run (s : DatabaseStore) (db : Database) (statement : Statement) (parameters : List String) :
    DatabaseStore × List Message × Except StoreError (List String) :=
  if s.closed then (s, [], .error DatabaseError.poolClosed.store)
  else
    let connection := s.ready.headD ⟨[]⟩
    let known := statement ∈ connection.prepared
    let text := if known then [] else [Message.statement statement]
    let giveBack (c : Connection) : DatabaseStore :=
      { s with ready := s.ready.tail ++ s.returning.toList, returning := some c }
    match db with
    | .unreachable => (s, [], .error DatabaseError.poolTimedOut.store)
    | .refuses e => (giveBack connection, text, .error (DatabaseError.database e).store)
    | .answers rows =>
      (giveBack ⟨if known then connection.prepared else statement :: connection.prepared⟩,
        text ++ parameters.map Message.bind, .ok rows)

/-- What the rows of a look-up say. -/
def streamerOfRows (streamKey : String) : List String → Except StoreError (Option Streamer)
  | [] => .ok none
  | [name] => .ok (some ⟨name, streamKey⟩)
  | _ => .error (.duplicateStreamKey streamKey)

/-- The streamer that owns the key with the token. -/
def find (s : DatabaseStore) (db : Database) (streamKey authToken : String) :
    DatabaseStore × List Message × Except StoreError (Option Streamer) :=
  let (s, sent, rows) := s.run db .lookup [streamKey, authToken]
  (s, sent, rows.bind (streamerOfRows streamKey))

/-- Every stream key. -/
def streamKeys (s : DatabaseStore) (db : Database) :
    DatabaseStore × List Message × Except StoreError (List String) :=
  s.run db .listKeys []

end DatabaseStore

end BroadcastRelay
