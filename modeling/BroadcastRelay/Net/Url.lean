import BroadcastRelay.Net.Address
import BroadcastRelay.Text.Split
/-!
# URLs

`Url.parse` cuts a URL into its scheme, user information, host, port, path and query. It follows
the rules for schemes that browsers give no meaning of their own: a host is any text without
certain characters, or an address in brackets.
-/

namespace BroadcastRelay.Net

/-- Why a text is no URL. -/
inductive UrlError where
  /-- No scheme stands in front. -/
  | relativeWithoutBase
  /-- The host is empty where there has to be one. -/
  | emptyHost
  /-- The port is no number of sixteen bits. -/
  | invalidPort
  /-- The address in brackets is none. -/
  | invalidAddress
  /-- A character may not occur in a host. -/
  | invalidHostCharacter
deriving DecidableEq, Repr

/-- The text of the error. -/
def UrlError.message : UrlError → String
  | relativeWithoutBase => "relative URL without a base"
  | emptyHost => "empty host"
  | invalidPort => "invalid port number"
  | invalidAddress => "invalid IPv6 address"
  | invalidHostCharacter => "invalid domain character"

/-- A URL in parts. -/
structure Url where
  /-- The scheme, in lower case. -/
  scheme : String
  /-- The user information before the host. -/
  userInfo : String
  /-- The host, if there is one. -/
  host : Option String
  /-- The port, if there is one. -/
  port : Option UInt16
  /-- The path. -/
  path : String
  /-- The query, if there is one. -/
  query : Option String
deriving DecidableEq, Repr

namespace Url

/-- Whether the character is a control character or a space. -/
def isEdge (c : Char) : Bool := c.toNat ≤ 32

/-- Whether the character is passed over wherever it stands. -/
def isIgnored (c : Char) : Bool := c == '\t' || c == '\n' || c == '\r'

/-- The text without what is passed over. -/
def clean (text : String) : List Char :=
  let cs := text.toList.dropWhile isEdge
  ((cs.reverse.dropWhile isEdge).reverse).filter (!isIgnored ·)

/-- Whether the character may occur in a scheme. -/
def isSchemeChar (c : Char) : Bool := c.isAlphanum || c == '+' || c == '-' || c == '.'

/-- Reads the scheme and its colon. -/
def readScheme (cs : List Char) : Except UrlError (String × List Char) :=
  match cs with
  | [] => .error .relativeWithoutBase
  | c :: _ =>
    match c.isAlpha, cs.dropWhile isSchemeChar with
    | true, ':' :: r => .ok (String.ofList ((cs.takeWhile isSchemeChar).map Char.toLower), r)
    | _, _ => .error .relativeWithoutBase

/-- Whether the character ends an authority. -/
def endsAuthority (c : Char) : Bool := c == '/' || c == '?' || c == '#'

/-- Whether the character may not occur in a host. -/
def isForbidden (c : Char) : Bool :=
  c == Char.ofNat 0 || (" #/:<>?@[\\]^|".toList.contains c)

/-- The length of the host at the front of an authority: up to a colon outside of brackets. -/
def hostLength : Bool → List Char → Nat
  | _, [] => 0
  | inside, c :: cs =>
    if c = ':' ∧ !inside then 0
    else hostLength (if c = '[' then true else if c = ']' then false else inside) cs + 1

/-- Reads a host; an empty one is none. -/
def readHost (cs : List Char) : Except UrlError (Option String) :=
  match cs with
  | [] => .ok none
  | '[' :: r =>
    match dropEnd? [']'] r with
    | some inner =>
      match Scan.whole readV6 inner with
      | some groups => .ok (some ("[" ++ renderV6 groups ++ "]"))
      | none => .error .invalidAddress
    | none => .error .invalidAddress
  | _ => if cs.any isForbidden then .error .invalidHostCharacter else .ok (some (String.ofList cs))

/-- Reads the port after a host. -/
def readPortText (cs : List Char) : Except UrlError (Option UInt16) :=
  match cs with
  | ':' :: ds =>
    if ds.isEmpty then .ok none
    else
      match Scan.whole (readNumber 10 65536 none) ds with
      | some n => .ok (some (UInt16.ofNat n))
      | none => .error .invalidPort
  | _ => .ok none

/-- The user information of an authority, up to the last at sign, and what follows it. -/
def cutUserInfo (cs : List Char) : Option (List Char) × List Char :=
  if cs.contains '@' then
    let back := cs.reverse
    (some ((back.dropWhile (· ≠ '@')).drop 1).reverse, (back.takeWhile (· ≠ '@')).reverse)
  else (none, cs)

/-- Whether user information says nothing: it is empty, or a colon alone. -/
def isBlankUser (user : List Char) : Bool := user == [] || user == [':']

/-- Whether an authority has to have a host and has none. -/
def lacksHost (user? : Option (List Char)) (hostAndPort after : List Char) : Bool :=
  !hostAndPort.isEmpty || !isBlankUser (user?.getD []) || (user? == some [] && !after.isEmpty)

/-- Reads a URL. -/
def parse (text : String) : Except UrlError Url := do
  let (scheme, rest) ← readScheme (clean text)
  let path (cs : List Char) : String := String.ofList (cs.takeWhile fun c => c ≠ '?' ∧ c ≠ '#')
  let query (cs : List Char) : Option String :=
    match (cs.takeWhile (· ≠ '#')).dropWhile (· ≠ '?') with
    | [] => none
    | _ :: q => some (String.ofList q)
  match rest with
  | '/' :: '/' :: r =>
    let authority := r.takeWhile (!endsAuthority ·)
    let after := r.dropWhile (!endsAuthority ·)
    let (user?, hostAndPort) := cutUserInfo authority
    let n := hostLength false hostAndPort
    let host ← readHost (hostAndPort.take n)
    if host.isNone && lacksHost user? hostAndPort after then throw .emptyHost
    let port ← readPortText (hostAndPort.drop n)
    return ⟨scheme, String.ofList (user?.getD []), host, port, path after, query after⟩
  | _ => return ⟨scheme, "", none, none, path rest, query rest⟩

end Url

/-! ## STUN servers -/

/-- Whether a peer connection can be given the URL of a server: a host with an optional port and
no query, after one of the two schemes of STUN. -/
def isStunServer (text : String) : Bool :=
  let cs := text.toList
  let scheme := cs.takeWhile (· ≠ ':')
  match cs.dropWhile (· ≠ ':') with
  | [] => false
  | _ :: rest =>
    let doubled := (List.range cs.length).any fun i => (cs.drop i).take 2 == ['/', '/']
    if doubled then false
    else
      match Url.parse (String.ofList (scheme ++ "://".toList ++ rest)) with
      | .error _ => false
      | .ok u =>
        (u.scheme == "stun" || u.scheme == "stuns") && u.host.isSome &&
          u.query.all fun q => q.toList.all (· == '&')

end BroadcastRelay.Net
