import BroadcastRelay.Document.Basic
/-!
# Tables

A `Table` holds its members in the order in which they were first written. What a table may take in
later depends on its `Origin`: a table with a header of its own is closed to keys with points, one
that such a key made is closed to everything else. `Table.put` adds a member by its key,
`Table.define` adds a table by its header, and `Table.element` adds a table to a list of tables;
each of them gives nothing where the addition is not allowed.
-/

namespace BroadcastRelay.Toml

/-- What brought a table about. -/
inductive Origin where
  /-- A header of its own, braces of its own, or the start of the text. -/
  | header
  /-- A longer header. -/
  | path
  /-- A key of several parts. -/
  | dotted
deriving DecidableEq, Repr

mutual

/-- A table: what brought it about, and its members in order. -/
inductive Table where
  /-- A table with its members. -/
  | mk (origin : Origin) (members : List (String × Node))

/-- What a table may hold. -/
inductive Node where
  /-- A value. -/
  | value (d : Document)
  /-- A table. -/
  | table (t : Table)
  /-- A list of tables: the last of them, and those before it, last first. -/
  | tables (last : Table) (earlier : List Table)

end

namespace Table

/-- What brought the table about. -/
def origin : Table → Origin
  | mk o _ => o

/-- The members in order. -/
def members : Table → List (String × Node)
  | mk _ ms => ms

/-- A table without members. -/
def empty (o : Origin) : Table := mk o []

/-- The member of a name. -/
def get? (t : Table) (name : String) : Option Node := t.members.lookup name

/-- The table with a member behind the others. -/
def append (t : Table) (name : String) (n : Node) : Table := mk t.origin (t.members ++ [(name, n)])

/-- The table with another member in the place of the one of this name. -/
def replace (t : Table) (name : String) (n : Node) : Table :=
  mk t.origin (t.members.map fun m => if m.1 = name then (name, n) else m)

/-- The table without the member of a name. -/
def erase (t : Table) (name : String) : Table :=
  mk t.origin (t.members.filter fun m => m.1 != name)

/-- Applies `f` to the table at the end of a path. A table that is missing on the way is made, with
the given origin; a list of tables stands for its last. -/
def descend (made : Origin) (f : Table → Option Table) : List String → Table → Option Table
  | [], t => f t
  | name :: path, t =>
    match t.get? name with
    | none => (descend made f path (empty made)).map fun s => t.append name (.table s)
    | some (.value _) => none
    | some (.table s) =>
      if made = .dotted ∧ s.origin = .header then none
      else (descend made f path s).map fun s => t.replace name (.table s)
    | some (.tables s earlier) =>
      (descend made f path s).map fun s => t.replace name (.tables s earlier)

/-- Applies `f` to the last name of a path and the table in which it stands. -/
def atLast (made : Origin) (f : String → Table → Option Table) (path : List String) (t : Table) :
    Option Table :=
  path.getLast?.bind fun name => descend made (f name) path.dropLast t

/-- Adds a member. Its key may lead into tables that keys of several parts have made, and into no
others. -/
def put (t : Table) (m : List String × Document) : Option Table :=
  t |> atLast .dotted (fun name s =>
    let inside : Bool := 1 < m.1.length
    if inside != (s.origin = .dotted : Bool) || (s.get? name).isSome then none
    else some (s.append name (.value m.2))) m.1

/-- Adds the members below a header. A table that longer headers have made is continued, and goes
behind its neighbours; any other member of that name is in the way. -/
def define (t : Table) (path : List String) (ms : List (List String × Document)) : Option Table :=
  t |> atLast .path (fun name s => do
    let start ←
      match s.get? name with
      | none => some []
      | some (.table old) => if old.origin = .path then some old.members else none
      | some _ => none
    let body ← ms.foldlM put (mk .header start)
    return (s.erase name).append name (.table body)) path

/-- Adds the members below a header of an element: a new table at the end of a list of tables. -/
def element (t : Table) (path : List String) (ms : List (List String × Document)) : Option Table :=
  t |> atLast .path (fun name s => do
    let body ← ms.foldlM put (empty .header)
    match s.get? name with
    | none => some (s.append name (.tables body []))
    | some (.tables last earlier) => some (s.replace name (.tables body (last :: earlier)))
    | some _ => none) path

end Table

/-! ## Tables as documents -/

mutual

/-- The table as a document. -/
def Table.document : Table → Document
  | .mk _ ms => .map (documents ms) .closed

/-- What a table holds, as a document. -/
def Node.document : Node → Document
  | .value d => d
  | .table t => t.document
  | .tables last earlier => .list ((elements earlier).reverse ++ [last.document]) .lenient

/-- The members of a table as the members of a document. -/
def documents : List (String × Node) → List (Option String × Document)
  | [] => []
  | (name, n) :: ms => (some name, n.document) :: documents ms

/-- Tables as documents, in the same order. -/
def elements : List Table → List Document
  | [] => []
  | t :: ts => t.document :: elements ts

end

end BroadcastRelay.Toml
