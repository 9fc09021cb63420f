import BroadcastRelay.Text.Utf8
/-!
# Request targets

`Uri.parse` reads the target of a request in each of its four forms: a path with an optional query,
an absolute URI, an authority alone, and the asterisk. A fragment is dropped. `path` and
`pathAndQuery?` are the parts that a server looks at, and `render` writes the whole.
-/

namespace BroadcastRelay.Http

/-- The target of a request. -/
structure Uri where
  /-- The scheme, if one stands in front. -/
  scheme : Option String
  /-- The authority, if there is one. -/
  authority : Option String
  /-- The path and the query as they were written, without a fragment. -/
  target : String
deriving DecidableEq, Repr

/-- Why a text is no request target. -/
inductive UriError where
  /-- The text is empty. -/
  | empty
  /-- The text is too long. -/
  | tooLong
  /-- A character may not stand where it does. -/
  | invalidChar
  /-- The authority is not well formed. -/
  | invalidAuthority
  /-- The scheme is too long. -/
  | schemeTooLong
  /-- The parts do not fit together. -/
  | invalidFormat
deriving DecidableEq, Repr

/-- The text of the error. -/
def UriError.message : UriError → String
  | empty => "empty string"
  | tooLong => "uri too long"
  | invalidChar => "invalid uri character"
  | invalidAuthority => "invalid authority"
  | schemeTooLong => "scheme too long"
  | invalidFormat => "invalid format"

namespace Uri

/-- The greatest length of a request target. -/
def maxLength : Nat := 65534

/-- The greatest length of a scheme. -/
def maxSchemeLength : Nat := 64

/-! ## Scheme -/

/-- Whether the byte is an ASCII letter or digit. -/
def isAlphanumeric (b : UInt8) : Bool :=
  (48 ≤ b && b ≤ 57) || (65 ≤ b && b ≤ 90) || (97 ≤ b && b ≤ 122)

/-- Whether the byte may occur in a scheme. -/
def isSchemeByte (b : UInt8) : Bool :=
  isAlphanumeric b || b == 43 || b == 45 || b == 46 || b == 126

/-- ASCII bytes as text. -/
def asciiText (bs : Bytes) : String := String.ofList (bs.map fun b => Char.ofNat b.toNat)

/-- The text of a scheme. The two schemes of the web are the same in capitals. -/
def schemeText (bs : Bytes) : String :=
  let lower := String.ofList ((asciiText bs).toList.map Char.toLower)
  if lower = "http" ∨ lower = "https" then lower else asciiText bs

/-- The scheme that the bytes start with and what follows the mark after it, if there is one. -/
def readScheme? (bs : Bytes) : Except UriError (Option (String × Bytes)) :=
  let scheme := bs.takeWhile isSchemeByte
  match bs.dropWhile isSchemeByte with
  | 58 :: 47 :: 47 :: r =>
    if scheme.length ≤ maxSchemeLength then .ok (some (schemeText scheme, r))
    else .error .schemeTooLong
  | _ => .ok none

/-! ## Authority -/

/-- Whether the byte ends an authority. -/
def endsAuthority (b : UInt8) : Bool := b == 47 || b == 63 || b == 35

/-- Whether the byte may occur in an authority without a meaning of its own there. -/
def isAuthorityByte (b : UInt8) : Bool :=
  isAlphanumeric b || b == 33 || b == 36 || (38 ≤ b && b ≤ 46) || b == 59 || b == 61 || b == 95 ||
    b == 126

/-- What has been seen of an authority. -/
structure AuthorityScan where
  /-- The colons since the user information or the bracketed host. -/
  colons : Nat
  /-- Whether a bracket was opened. -/
  opened : Bool
  /-- Whether the bracket was closed. -/
  closed : Bool
  /-- Whether a percent sign stands outside the user information and the bracketed host. -/
  percent : Bool
  /-- Whether the last byte was an at sign. -/
  atEnd : Bool

/-- Takes one byte of an authority. -/
def AuthorityScan.step (s : AuthorityScan) (b : UInt8) : Except UriError AuthorityScan :=
  let s := { s with atEnd := false }
  if b = 58 then
    if 8 ≤ s.colons then .error .invalidAuthority else .ok { s with colons := s.colons + 1 }
  else if b = 91 then
    if s.percent || s.opened then .error .invalidAuthority else .ok { s with opened := true }
  else if b = 93 then
    if !s.opened || s.closed then .error .invalidAuthority
    else .ok { s with closed := true, colons := 0, percent := false }
  else if b = 64 then .ok { s with colons := 0, percent := false, atEnd := true }
  else if b = 37 then .ok { s with percent := true }
  else if isAuthorityByte b then .ok s
  else .error .invalidChar

/-- The authority at the front of the bytes, and what follows it. -/
def readAuthority (bs : Bytes) : Except UriError (Bytes × Bytes) := do
  let authority := bs.takeWhile (!endsAuthority ·)
  let s ← authority.foldlM AuthorityScan.step ⟨0, false, false, false, false⟩
  if s.opened != s.closed || 1 < s.colons || s.atEnd || s.percent then throw .invalidAuthority
  return (authority, bs.dropWhile (!endsAuthority ·))

/-! ## Path and query -/

/-- Whether the byte may occur in a path. Bytes beyond ASCII may if the whole is UTF-8. -/
def isPathByte (b : UInt8) : Bool :=
  b == 33 || b == 34 || (36 ≤ b && b ≤ 59) || b == 61 || (64 ≤ b && b ≤ 95) ||
    (97 ≤ b && b ≤ 126) || 128 ≤ b

/-- Whether the byte may occur in a query. Bytes beyond ASCII may if the whole is UTF-8. -/
def isQueryByte (b : UInt8) : Bool :=
  b == 33 || (36 ≤ b && b ≤ 59) || b == 61 || (63 ≤ b && b ≤ 126) || 128 ≤ b

/-- Reads a path and a query; a number sign ends both. -/
def readTarget (bs : Bytes) : Except UriError String := do
  let whole := bs.takeWhile (· ≠ 35)
  let path := whole.takeWhile (· ≠ 63)
  let query := (whole.dropWhile (· ≠ 63)).drop 1
  if !(path.all isPathByte && query.all isQueryByte) then throw .invalidChar
  match Utf8.decode? whole with
  | some text => return text
  | none => throw .invalidChar

/-! ## The whole -/

/-- Reads bytes that start with neither a slash nor an asterisk. -/
def readFull (bs : Bytes) : Except UriError Uri := do
  match ← readScheme? bs with
  | none =>
    let (authority, rest) ← readAuthority bs
    if rest.isEmpty then return ⟨none, some (asciiText authority), ""⟩
    else throw .invalidFormat
  | some (scheme, r) =>
    let (authority, rest) ← readAuthority r
    if authority.isEmpty then throw .invalidFormat
    return ⟨some scheme, some (asciiText authority), ← readTarget rest⟩

/-- Reads a request target. -/
def parse (bs : Bytes) : Except UriError Uri :=
  if maxLength < bs.length then .error .tooLong
  else
    match bs with
    | [] => .error .empty
    | [42] => .ok ⟨none, none, "*"⟩
    | 47 :: _ => (readTarget bs).map fun target => ⟨none, none, target⟩
    | [b] => if endsAuthority b then .error .invalidChar else readFull [b]
    | _ => readFull bs

/-! ## Parts -/

/-- The path. An absolute URI without one has the root. -/
def path (u : Uri) : String :=
  let written := u.target.toList.takeWhile (· ≠ '?')
  if !written.isEmpty then String.ofList written
  else if u.scheme.isSome || u.target ≠ "" then "/" else ""

/-- The path and the query; a target that is an authority alone has none. -/
def pathAndQuery? (u : Uri) : Option String :=
  if u.scheme.isSome || u.authority.isNone then some (if u.target = "" then "/" else u.target)
  else none

/-- The text of a request target. -/
def render (u : Uri) : String :=
  let query := u.target.toList.dropWhile (· ≠ '?')
  ((u.scheme.map (· ++ "://")).getD "") ++ u.authority.getD "" ++ u.path ++ String.ofList query

end Uri

end BroadcastRelay.Http
