import BroadcastRelay.Text.Blank
import BroadcastRelay.Text.Split
/-!
# Session descriptions

Offers and answers are session descriptions: lines of a letter, an equals sign and a value, in a
fixed order. `Sdp.parse?` reads what matters here, the media sections with the direction in which
each flows and whether the keys of a secured connection are given; `Sdp.answer` turns every
direction around.
-/

namespace BroadcastRelay

/-- The direction in which the media of a section flow, as seen by the writer. -/
inductive Direction where
  /-- Both ways. -/
  | both
  /-- From the writer. -/
  | send
  /-- To the writer. -/
  | receive
  /-- Not at all. -/
  | inactive
deriving DecidableEq, Repr

namespace Direction

/-- The name of the direction. -/
def name : Direction → String
  | both => "sendrecv"
  | send => "sendonly"
  | receive => "recvonly"
  | inactive => "inactive"

/-- The direction of a name. -/
def ofName? (name : String) : Option Direction :=
  [both, send, receive, inactive].find? (·.name = name)

/-- The direction as seen by the other side. -/
def turn : Direction → Direction
  | both => both
  | send => receive
  | receive => send
  | inactive => inactive

@[simp] theorem turn_turn (d : Direction) : d.turn.turn = d := by cases d <;> rfl

end Direction

/-- A section of a session description. -/
structure MediaSection where
  /-- The kind of media. -/
  kind : String
  /-- The direction. -/
  direction : Direction
deriving DecidableEq, Repr

/-- A session description. -/
structure Sdp where
  /-- The names of the attributes that occur anywhere. -/
  attributes : List String
  /-- The media sections, in order. -/
  media : List MediaSection
deriving DecidableEq, Repr

namespace Sdp

/-! ## Lines -/

/-- A line: its letter and its value. -/
structure Line where
  /-- The letter. -/
  letter : Char
  /-- The value. -/
  value : List Char
deriving DecidableEq, Repr

/-- Reads a line. -/
def Line.parse? : List Char → Option Line
  | letter :: '=' :: value => some ⟨letter, value⟩
  | _ => none

/-- The lines of a text; blank lines are passed over. -/
def lines? (text : String) : Option (List Line) :=
  let pieces := (split (fun c => c == '\n' || c == '\r') text.toList).filter (!·.isEmpty)
  pieces.mapM fun p => Line.parse? (trimEnd p)

/-- The words of a value. -/
def words (value : List Char) : List String :=
  ((split (· == ' ') value).filter (!·.isEmpty)).map String.ofList

/-- Whether a text is a whole number of decimal digits. -/
def isNumber (s : String) : Bool := s ≠ "" && s.toList.all Char.isDigit

/-- Whether the value of the line that names the origin is well formed. -/
def isOrigin (value : List Char) : Bool :=
  match words value with
  | [_, session, version, network, kind, _] =>
    isNumber session && isNumber version && network == "IN" && (kind == "IP4" || kind == "IP6")
  | _ => false

/-- Whether the value of a line that names times is well formed. -/
def isTiming (value : List Char) : Bool :=
  match words value with
  | start :: stop :: _ => isNumber start && isNumber stop
  | _ => false

/-- The kinds of media. -/
def mediaKinds : List String := ["audio", "video", "text", "application", "message"]

/-- The parts of transport names. -/
def transports : List String :=
  ["UDP", "RTP", "AVP", "SAVP", "SAVPF", "TLS", "DTLS", "SCTP", "AVPF"]

/-- The kind of media that a line opens a section for. -/
def mediaKind? (value : List Char) : Option String :=
  match words value with
  | kind :: port :: transport :: _ :: _ =>
    let ports := (split (· == '/') port.toList).map String.ofList
    let parts := (split (· == '/') transport.toList).map String.ofList
    if mediaKinds.contains kind && ports.all isNumber && ports.length ≤ 2 &&
        parts.all transports.contains then some kind
    else none
  | _ => none

/-! ## Reading -/

/-- The order of lines before the first section. -/
def sessionRank? (letter : Char) : Option Nat :=
  ["v", "o", "s", "i", "u", "e", "p", "c", "b", "tr", "z", "k", "a"].findIdx?
    (·.toList.contains letter)

/-- The order of lines inside a section. -/
def sectionRank? (letter : Char) : Option Nat :=
  ["i", "c", "b", "k", "a"].findIdx? (·.toList.contains letter)

/-- Whether the letters come in the order that `rank?` lays down. -/
def inOrder (rank? : Char → Option Nat) : Nat → List Char → Bool
  | _, [] => true
  | least, c :: cs =>
    match rank? c with
    | some n => least ≤ n && inOrder rank? n cs
    | none => false

/-- Whether the lines before the first section are well formed. -/
def isHead (ls : List Line) : Bool :=
  match ls with
  | version :: origin :: name :: rest =>
    version == ⟨'v', ['0']⟩ && origin.letter == 'o' && isOrigin origin.value &&
      name.letter == 's' && inOrder sessionRank? 3 (rest.map (·.letter)) &&
      rest.any (·.letter == 't') && rest.all fun l => l.letter != 't' || isTiming l.value
  | _ => false

/-- The name of an attribute. -/
def attributeName (value : List Char) : String := String.ofList (value.takeWhile (· ≠ ':'))

/-- The attributes among lines. -/
def attributesOf (ls : List Line) : List String :=
  (ls.filter (·.letter == 'a')).map fun l => attributeName l.value

/-- The lines of each section, without those before the first. -/
def sections : List Line → List (List Line)
  | [] => []
  | l :: ls =>
    if l.letter = 'm' then (l :: ls.takeWhile (·.letter ≠ 'm')) :: sections ls else sections ls

/-- Reads a section. -/
def readSection? : List Line → Option MediaSection
  | [] => none
  | first :: rest => do
    let kind ← mediaKind? first.value
    if !inOrder sectionRank? 0 (rest.map (·.letter)) then none
    return ⟨kind, ((attributesOf rest).findSome? Direction.ofName?).getD .both⟩

/-- Reads a session description. -/
def parse? (text : String) : Option Sdp := do
  let ls ← lines? text
  if !isHead (ls.takeWhile (·.letter ≠ 'm')) then none
  return ⟨attributesOf ls, ← (sections ls).mapM readSection?⟩

/-- Whether the description gives the keys of a secured connection. -/
def isSecured (s : Sdp) : Bool :=
  ["ice-ufrag", "ice-pwd", "fingerprint"].all s.attributes.contains

/-! ## Answering -/

/-- The media sections of the answer: each direction turned around. -/
def answer (s : Sdp) : List MediaSection := s.media.map fun m => ⟨m.kind, m.direction.turn⟩

/-- The lines of a description of media sections, without their ends. -/
def renderLines (media : List MediaSection) : List String :=
  ["v=0", "o=- 0 0 IN IP4 0.0.0.0", "s=-", "t=0 0", "a=ice-ufrag:0", "a=ice-pwd:0",
    "a=fingerprint:sha-256 0"] ++
  media.flatMap fun m => ["m=" ++ m.kind ++ " 9 UDP/TLS/RTP/SAVPF 0", "a=" ++ m.direction.name]

/-- The text of a description of media sections. Keys and ports stand for those that a peer
connection would fill in. -/
def render (media : List MediaSection) : String :=
  String.join ((renderLines media).map (· ++ "\r\n"))

end Sdp

end BroadcastRelay
