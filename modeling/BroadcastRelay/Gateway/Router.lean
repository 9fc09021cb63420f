import BroadcastRelay.Gateway.Handler
import BroadcastRelay.Http.Percent
/-!
# Routes of the gateway

`Resource.ofPath?` says what a path names and `Resource.respond` how each method acts on it.
`respond` wraps that twice: `crossOrigin` answers a preflight without asking anyone
(`respond_of_options`) and has pages of any origin read everything else (`respond_of_ne_options`);
`exposePreflight` adds what it leaves out of the answer to a preflight.
-/

namespace BroadcastRelay.Gateway

open Http

/-- What a path of the gateway names. A parameter is kept as it was written. -/
inductive Resource where
  /-- Where publishers post their offers. -/
  | publishers
  /-- Where viewers post their offers. -/
  | viewers
  /-- The layer events of a session. -/
  | events (sessionId : String)
  /-- The layer selection of a session. -/
  | layer (sessionId : String)
  /-- The list of stream keys. -/
  | streams
  /-- The status of every broadcast. -/
  | statuses
  /-- The status of one broadcast. -/
  | status (streamKey : String)
  /-- Whether the gateway is up. -/
  | health
deriving DecidableEq, Repr

namespace Resource

/-- The segments of a path. -/
def segments (path : String) : List String :=
  (split (· == '/') path.toList).map String.ofList

/-- What the path names, if anything; the status of broadcasts can be withheld. -/
def ofPath? (withStatus : Bool) (path : String) : Option Resource :=
  match segments path with
  | ["", "health"] => some health
  | ["", "api", "whip"] => some publishers
  | ["", "api", "whep"] => some viewers
  | ["", "api", "streams"] => some streams
  | ["", "api", "status"] => if withStatus then some statuses else none
  | ["", "api", collection, parameter] =>
    if parameter = "" then none
    else if collection = "sse" then some (events parameter)
    else if collection = "layer" then some (layer parameter)
    else if collection = "status" && withStatus then some (status parameter)
    else none
  | _ => none

/-- The methods that the resource allows, besides a preflight. -/
def methods : Resource → List String
  | publishers => ["POST", "DELETE"]
  | viewers | layer _ => ["POST"]
  | _ => ["GET", "HEAD"]

/-- The header field that lists the methods of the resource. -/
def allow (r : Resource) : String × Bytes := field "allow" (",".intercalate r.methods)

/-- Goes on with the text of a path parameter. -/
def withParameter (name written : String) (next : String → Dialogue Response) :
    Dialogue Response :=
  match Utf8.decode? (percentDecode (Utf8.encode written)) with
  | some text => next text
  | none => .done (.plain 400 ("Invalid URL: Invalid UTF-8 in `" ++ name ++ "`"))

/-- Acts on the resource by a method that it allows. -/
def act (resource : Resource) (r : Request) : Dialogue Response :=
  match resource with
  | publishers => if r.method = "DELETE" then unpublish else publish r
  | viewers => subscribe r
  | events id => withParameter "session_id" id layerEvents
  | layer id => withParameter "session_id" id fun id => selectLayer id r
  | streams => listStreams
  | statuses => showStatuses
  | status key => withParameter "stream_key" key showStatus
  | health => Gateway.health

/-- Acts on the resource by any method but OPTIONS. -/
def respond (resource : Resource) (r : Request) : Dialogue Response :=
  if resource.methods.contains r.method then
    (resource.act r).map fun response =>
      if r.method = "HEAD" then response.headOnly else response
  else .done (.bare 405 [resource.allow])

end Resource

/-- The fields that let pages of any origin read a response. -/
def openFields : Headers :=
  [field "access-control-allow-origin" "*", field "access-control-expose-headers" "*",
    field "vary" "origin, access-control-request-method, access-control-request-headers"]

/-- The fields that let pages of any origin send any request. -/
def preflightFields : Headers :=
  [field "access-control-allow-origin" "*", field "access-control-allow-methods" "*",
    field "access-control-allow-headers" "*",
    field "vary" "origin, access-control-request-method, access-control-request-headers"]

/-- Answers a request that is no preflight. -/
def answer (resource? : Option Resource) (r : Request) : Dialogue Response :=
  match resource? with
  | some resource => resource.respond r
  | none => .done (.bare 404 [])

/-- Answers a preflight without asking anyone, and has pages of any origin read all else. -/
def crossOrigin (method : String) (inner : Dialogue Response) : Dialogue Response :=
  if method = "OPTIONS" then .done (.bare 200 preflightFields)
  else inner.map fun response => response.withHeaders openFields

/-- Has pages of any origin read the answer to a preflight, too. -/
def exposePreflight (method : String) (response : Response) : Response :=
  if method = "OPTIONS" then response.withDefault (field "access-control-expose-headers" "*")
  else response

/-- Lists the methods of the resource where the method is none of them. -/
def listMethods (resource? : Option Resource) (method : String) (response : Response) : Response :=
  match resource? with
  | some resource =>
    if resource.methods.contains method then response else response.withDefault resource.allow
  | none => response

/-- Answers a request. -/
def respond (withStatus : Bool) (r : Request) : Dialogue Response :=
  let resource? := Resource.ofPath? withStatus r.uri.path
  (crossOrigin r.method (answer resource? r)).map fun response =>
    listMethods resource? r.method (exposePreflight r.method response)

variable {withStatus : Bool} {r : Request}

/-- A preflight is answered at once. -/
theorem respond_of_options (h : r.method = "OPTIONS") :
    respond withStatus r = .done (listMethods (Resource.ofPath? withStatus r.uri.path) r.method
      (exposePreflight r.method (.bare 200 preflightFields))) := by
  rw [respond, crossOrigin, if_pos h]
  rfl

/-- Every other request is answered by its resource, for pages of any origin to read. -/
theorem respond_of_ne_options (h : r.method ≠ "OPTIONS") :
    respond withStatus r = (answer (Resource.ofPath? withStatus r.uri.path) r).map
      fun response => response.withHeaders openFields := by
  have hexpose : exposePreflight r.method = id := funext fun response => if_neg h
  rw [respond, crossOrigin, if_neg h, hexpose]
  cases Resource.ofPath? withStatus r.uri.path with
  | none => rfl
  | some resource =>
    simp only [answer, Resource.respond, listMethods, id]
    split
    · exact Dialogue.map_id _
    · simp [Dialogue.map, Response.withDefault, Response.bare, Response.sized, Response.withHeaders,
        Resource.allow, field]

end BroadcastRelay.Gateway
