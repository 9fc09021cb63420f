import BroadcastRelay.Text.Unprintable
/-!
# Quoted text

`Quoted.encode` writes a text between double quotes so that it stays on one line: the quote and the
backslash are preceded by a backslash, NUL, tab, line feed and carriage return have letters, and
every other character without a shape of its own is written by its number.
-/

namespace BroadcastRelay.Quoted

/-- The lower-case hexadecimal digits of a number. -/
def hex (n : Nat) : List Char := Nat.toDigits 16 n

/-- The written form of one character. -/
def encodeChar (c : Char) : List Char :=
  if c = '"' then ['\\', '"']
  else if c = '\\' then ['\\', '\\']
  else if c = Char.ofNat 0 then ['\\', '0']
  else if c = '\t' then ['\\', 't']
  else if c = '\n' then ['\\', 'n']
  else if c = '\r' then ['\\', 'r']
  else if isUnprintable c then ['\\', 'u', Char.ofNat 0x7B] ++ hex c.toNat ++ [Char.ofNat 0x7D]
  else [c]

/-- The text between double quotes, on one line. -/
def encode (s : String) : String :=
  String.ofList ('"' :: s.toList.flatMap encodeChar ++ ['"'])

end BroadcastRelay.Quoted
