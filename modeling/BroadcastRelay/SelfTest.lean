import BroadcastRelay.Gateway.Handler
import BroadcastRelay.Http.Reason
import BroadcastRelay.Media.Probe
import BroadcastRelay.Settings.Basic
import BroadcastRelay.Text.Quoted
/-!
# The self-test

Before the listeners open, a probe does what a viewer does: it sends an offer to the gateway, follows
the link to the layer events and waits for its connection. `SelfTest.exchange` is the part that asks
the gateway and `SelfTest.run` the whole. How long the connection takes to come about is given from
outside, since media do not flow in this library.
-/

namespace BroadcastRelay.SelfTest

open Http

/-! ## Failures -/

/-- What went wrong. -/
inductive Failure where
  /-- The probe could not be made, or made no offer. -/
  | probe (cause : TransportError)
  /-- A request could not be made or answered. -/
  | request (path text : String)
  /-- A response has another status than it should. -/
  | unexpectedStatus (path : String) (status : Nat) (body : String)
  /-- The answer to the offer has no link to the layer events. -/
  | missingLink
  /-- The layer events do not start with a list of layers. -/
  | badEvents (body : String)
  /-- The connection could not be made. -/
  | connection (cause : TransportError)
  /-- The time is over. -/
  | timeout (limit : Duration)
deriving DecidableEq, Repr

namespace Failure

/-- The text of the failure. -/
def message : Failure → String
  | probe cause => "probe setup failed: " ++ cause.message
  | request path text => "request to " ++ path ++ " failed: " ++ text
  | unexpectedStatus path status body => path ++ " returned " ++ statusText status ++ ": " ++ body
  | missingLink => "WHEP answer did not advertise a layer event link"
  | badEvents body =>
    "layer event stream did not start with a layers event: " ++ Quoted.encode body
  | connection cause => "media connection failed: " ++ cause.message
  | timeout limit => "self-test did not finish within " ++ limit.render

/-- Whether the test could not even start. -/
def isProbe : Failure → Bool
  | probe _ => true
  | _ => false

end Failure

/-- What a self-test comes to. -/
inductive Outcome where
  /-- The connection was made after a time. -/
  | passed (after : Duration)
  /-- Something went wrong. -/
  | failed (f : Failure)
deriving DecidableEq, Repr

/-- The text of the outcome. -/
def Outcome.message : Outcome → String
  | passed after => "passed in " ++ after.render
  | failed f => (if f.isProbe then "could not run: " else "failed: ") ++ f.message

/-! ## The gateway as a client sees it -/

/-- A response as it arrives. -/
structure Reply where
  /-- The status. -/
  status : Nat
  /-- The header fields. -/
  headers : Headers
  /-- The body. -/
  body : Body

/-- Something that replies to requests, or never does. -/
abbrev Server (σ : Type) := Request → σ → Option Reply × σ

/-- A response that arrives whole. -/
def Reply.ofResponse (r : Response) : Reply := ⟨r.status, r.headers, ⟨[r.body], none⟩⟩

/-- The greatest length of the body of a reply. -/
def maxReplyBytes : Nat := 1048576

/-- A reply that was read to its end. -/
structure Received where
  /-- The status. -/
  status : Nat
  /-- The header fields. -/
  headers : Headers
  /-- The body as text. -/
  body : String

variable {σ : Type}

/-- A part of the test: it asks a gateway, which changes on the way, and may fail. -/
abbrev Part (σ α : Type) := ExceptT Failure (StateM σ) α

/-- Reads the reply to a request to its end, or gives up where none comes. -/
def receive (limit : Duration) (r : Request) : Option Reply → Except Failure Received
  | none => .error (.timeout limit)
  | some reply =>
    match reply.body.read maxReplyBytes with
    | .error text => .error (.request r.uri.path text)
    | .ok bytes => .ok ⟨reply.status, reply.headers, Utf8.decodeLossy bytes⟩

/-- Sends a request and reads the reply to its end. -/
def send (server : Server σ) (limit : Duration) (r : Request) : Part σ Received :=
  ExceptT.mk fun s => (receive limit r (server r s).1, (server r s).2)

/-! ## The exchange -/

/-- The path that offers are sent to. -/
def offerPath : String := "/api/whep"

/-- The request that carries an offer. -/
def offerRequest (streamKey offer : String) : Except Failure Request :=
  let authorization := Utf8.encode ("Bearer " ++ streamKey)
  if isValue authorization then
    .ok ⟨"POST", ⟨none, none, offerPath⟩,
      [("authorization", authorization), field "content-type" "application/sdp"],
      ⟨[Utf8.encode offer], none⟩⟩
  else .error (.request offerPath "failed to parse header value")

/-- The target of the first link to layer events. -/
def eventsTarget? (h : Headers) : Option String :=
  ((h.all "link").filterMap text?).findSome? fun link => Link.target? link Link.eventsRel

/-- The request for layer events. -/
def eventsRequest (target : String) : Except Failure Request :=
  match Uri.parse (Utf8.encode target) with
  | .ok uri => .ok ⟨"GET", uri, [], .empty⟩
  | .error e => .error (.request target e.message)

/-- Whether a text starts with a list of layers. -/
def startsWithLayers (events : String) : Bool :=
  (dropStart? "event: layers\n".toList events.toList).isSome

/-- Sends an offer, follows the link and takes the answer. -/
def exchange (server : Server σ) (limit : Duration) (probe : Probe) (streamKey : String) :
    Part σ Unit := do
  let offer ← ofExcept (probe.offerText.mapError Failure.probe)
  let answer ← send server limit (← ofExcept (offerRequest streamKey offer))
  if answer.status ≠ 201 then throw (.unexpectedStatus offerPath answer.status answer.body)
  match eventsTarget? answer.headers with
  | none => throw .missingLink
  | some target =>
    let events ← send server limit (← ofExcept (eventsRequest target))
    if events.status ≠ 200 then throw (.unexpectedStatus target events.status events.body)
    if !startsWithLayers events.body then throw (.badEvents events.body)
    ofExcept ((probe.applyAnswer answer.body).mapError Failure.connection)

/-- Tests a gateway with a connection that comes about after a time, if it does. -/
def run (server : Server σ) (connects : Option Duration) (media : EngineSettings)
    (settings : SelfTestSettings) (s : σ) : Outcome × σ :=
  let limit := Duration.ofSeconds settings.timeoutSeconds.toNat
  match Probe.make .viewer media with
  | .error e => (.failed (.probe e), s)
  | .ok probe =>
    if limit.milliseconds = 0 then (.failed (.timeout limit), s)
    else
      match (exchange server limit probe settings.streamKey).run s, connects with
      | (.error f, s), _ => (.failed f, s)
      | (.ok (), s), some d =>
        (if d.milliseconds ≤ limit.milliseconds then .passed d else .failed (.timeout limit), s)
      | (.ok (), s), none => (.failed (.timeout limit), s)

end BroadcastRelay.SelfTest
