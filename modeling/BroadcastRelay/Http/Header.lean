import BroadcastRelay.Text.Utf8
/-!
# Header fields

A header is a list of names and values in the order they were sent. Names are lower-case tokens;
a value is any bytes without control characters, and may or may not be text (`text?`).
-/

namespace BroadcastRelay.Http

/-- Whether the byte may occur in a method or a header name. -/
def isTokenByte (b : UInt8) : Bool :=
  (48 ≤ b && b ≤ 57) || (65 ≤ b && b ≤ 90) || (97 ≤ b && b ≤ 122) ||
    b == 33 || (35 ≤ b && b ≤ 39) || b == 42 || b == 43 || b == 45 || b == 46 ||
    b == 94 || b == 95 || b == 96 || b == 124 || b == 126

/-- Whether the bytes are a token, the form of methods and header names. -/
def isToken (bytes : Bytes) : Bool := !bytes.isEmpty && bytes.all isTokenByte

/-- Whether the byte may occur in a header value. -/
def isValueByte (b : UInt8) : Bool := b == 9 || (32 ≤ b && b != 127)

/-- Whether the bytes may be a header value. -/
def isValue (bytes : Bytes) : Bool := bytes.all isValueByte

/-- Whether the byte is visible ASCII, a space or a tab. -/
def isTextByte (b : UInt8) : Bool := b == 9 || (32 ≤ b && b < 127)

/-- The value as text, if it is ASCII. -/
def text? (value : Bytes) : Option String :=
  if value.all isTextByte then some (String.ofList (value.map fun b => Char.ofNat b.toNat)) else none

/-- Header fields in the order they were sent. -/
abbrev Headers := List (String × Bytes)

/-- The values of a field, in order. -/
def Headers.all (h : Headers) (name : String) : List Bytes :=
  h.filterMap fun (n, v) => if n = name then some v else none

/-- The first value of a field. -/
def Headers.first? (h : Headers) (name : String) : Option Bytes := (h.all name).head?

end BroadcastRelay.Http
