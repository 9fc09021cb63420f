import BroadcastRelay.Http.Header
import BroadcastRelay.Http.Uri
import BroadcastRelay.Json.Value
/-!
# Requests and responses

A body arrives in chunks and may break off with an error. `Body.read` puts the chunks together as
long as they stay within a limit. A response has its whole body and names its length, unless it is
a stream of events.
-/

namespace BroadcastRelay.Http

/-- A request body as it arrives. -/
structure Body where
  /-- The chunks, in order. -/
  chunks : List Bytes
  /-- The error that the body ends with, if it does not end well. -/
  failure : Option String
deriving DecidableEq, Repr

namespace Body

/-- The body without bytes. -/
def empty : Body := ⟨[], none⟩

/-- The chunks together, last first, as long as they stay within `limit` bytes. -/
def collect (limit : Nat) (done : List Bytes) : List Bytes → Except String (List Bytes)
  | [] => .ok done
  | c :: cs =>
    if limit < c.length then .error "length limit exceeded"
    else collect (limit - c.length) (c :: done) cs

/-- The bytes of the body, or the text of what is wrong with it. -/
def read (limit : Nat) (b : Body) : Except String Bytes := do
  let chunks ← collect limit [] b.chunks
  match b.failure with
  | some text => throw text
  | none => return chunks.reverse.flatten

end Body

/-- A header field whose value is a text. -/
def field (name value : String) : String × Bytes := (name, Utf8.encode value)

/-- A request. -/
structure Request where
  /-- The method. -/
  method : String
  /-- The target. -/
  uri : Uri
  /-- The header fields. -/
  headers : Headers
  /-- The body. -/
  body : Body
deriving DecidableEq, Repr

/-- Makes a request out of parts that may break the rules of HTTP. -/
def Request.make? (method uri : Bytes) (headers : List (Bytes × Bytes)) (body : Body) :
    Option Request :=
  let ascii (bs : Bytes) := String.ofList (bs.map fun b => Char.ofNat b.toNat)
  match Uri.parse uri with
  | .error _ => none
  | .ok uri =>
    if isToken method && headers.all fun (n, v) => isToken n && isValue v then
      some ⟨ascii method, uri,
        headers.map fun (n, v) => (String.ofList ((ascii n).toList.map Char.toLower), v), body⟩
    else none

/-- A response. -/
structure Response where
  /-- The status. -/
  status : Nat
  /-- The header fields. -/
  headers : Headers
  /-- The body. -/
  body : Bytes
deriving DecidableEq, Repr

namespace Response

/-- A response with a body of known length. -/
def sized (status : Nat) (headers : Headers) (body : Bytes) : Response :=
  ⟨status, headers ++ [field "content-length" (toString body.length)], body⟩

/-- A response without a body. -/
def bare (status : Nat) (headers : Headers) : Response := sized status headers []

/-- A response with plain text. -/
def plain (status : Nat) (text : String) : Response :=
  sized status [field "content-type" "text/plain; charset=utf-8"] (Utf8.encode text)

/-- A response with JSON. -/
def json (status : Nat) (v : Json.Value) : Response :=
  sized status [field "content-type" "application/json"] (Utf8.encode v.render)

/-- The response with further header fields. -/
def withHeaders (r : Response) (headers : Headers) : Response :=
  { r with headers := r.headers ++ headers }

/-- The response with one more header field, unless it has a field of that name. -/
def withDefault (r : Response) (f : String × Bytes) : Response :=
  if r.headers.any fun g => g.1 = f.1 then r else r.withHeaders [f]

/-- The response without its body, as HEAD asks for. -/
def headOnly (r : Response) : Response := { r with body := [] }

end Response

end BroadcastRelay.Http
