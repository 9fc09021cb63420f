/-!
# JSON values and their text

`Value.render` writes a value without white space, members in the order given. Inside a text the
quote, the backslash and the control characters below U+0020 are escaped and nothing else.
-/

namespace BroadcastRelay.Json

/-- A value to be written as JSON. -/
inductive Value where
  /-- The absent value. -/
  | null
  /-- A truth value. -/
  | bool (b : Bool)
  /-- A natural number. -/
  | number (n : Nat)
  /-- A text. -/
  | str (s : String)
  /-- A list. -/
  | list (items : List Value)
  /-- Named members in order. -/
  | object (members : List (String × Value))
deriving Repr, Inhabited

/-- The hexadecimal digit of a number below sixteen. -/
def hexDigit (n : Nat) : Char := if n < 10 then Char.ofNat (48 + n) else Char.ofNat (87 + n)

/-- The written form of a character inside a text. -/
def escape (c : Char) : List Char :=
  if c = '"' then ['\\', '"']
  else if c = '\\' then ['\\', '\\']
  else if c = Char.ofNat 8 then ['\\', 'b']
  else if c = Char.ofNat 12 then ['\\', 'f']
  else if c = '\n' then ['\\', 'n']
  else if c = '\r' then ['\\', 'r']
  else if c = '\t' then ['\\', 't']
  else if c.toNat < 32 then ['\\', 'u', '0', '0', hexDigit (c.toNat / 16), hexDigit (c.toNat % 16)]
  else [c]

/-- The written form of a text. -/
def quote (s : String) : List Char := '"' :: s.toList.flatMap escape ++ ['"']

namespace Value

mutual

/-- The written form of a value. -/
def chars : Value → List Char
  | null => ['n', 'u', 'l', 'l']
  | bool true => ['t', 'r', 'u', 'e']
  | bool false => ['f', 'a', 'l', 's', 'e']
  | number n => Nat.toDigits 10 n
  | str s => quote s
  | list [] => ['[', ']']
  | list (v :: vs) => '[' :: v.chars ++ itemChars vs
  | object [] => [Char.ofNat 0x7B, Char.ofNat 0x7D]
  | object ((name, v) :: ms) => Char.ofNat 0x7B :: quote name ++ ':' :: v.chars ++ memberChars ms

/-- The rest of a list after an item. -/
def itemChars : List Value → List Char
  | [] => [']']
  | v :: vs => ',' :: v.chars ++ itemChars vs

/-- The rest of an object after a member. -/
def memberChars : List (String × Value) → List Char
  | [] => [Char.ofNat 0x7D]
  | (name, v) :: ms => ',' :: quote name ++ ':' :: v.chars ++ memberChars ms

end

/-- The text of a value. -/
def render (v : Value) : String := String.ofList v.chars

/-- An optional text, absent as null. -/
def ofOption : Option String → Value
  | none => null
  | some s => str s

/-- A list of texts. -/
def strings (ss : List String) : Value := list (ss.map str)

end Value

end BroadcastRelay.Json
