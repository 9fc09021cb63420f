import BroadcastRelay.Text.Scan
/-!
# Words of TOML

White space, comments and line ends, strings and keys. A string stands between quotes: double ones
admit escapes, single ones take everything as it is. Three quotes in a row open a string of several
lines, where a line feed right after the opening quotes is dropped, every line end is read as a line
feed, and one or two quotes may stand between other characters and in front of the closing quotes.
-/

namespace BroadcastRelay.Toml

/-! ## Space -/

/-- Whether the character is a space or a tab. -/
def isSpace (c : Char) : Bool := c = ' ' || c = '\t'

/-- Spaces and tabs. -/
def space : Scan Unit := do
  let _ ← Scan.run isSpace

/-- The end of a line: a line feed, with or without a carriage return in front of it. -/
def newline : Scan Unit := Scan.char '\n' <|> Scan.word ['\r', '\n']

/-- Whether the character may stand in a comment or between quotes: a tab, or no control character. -/
def isPlain (c : Char) : Bool := c = '\t' || (' ' ≤ c && c.toNat != 0x7F)

/-- A comment, up to the end of its line. -/
def comment : Scan Unit := do
  Scan.char (Char.ofNat 0x23)
  let _ ← Scan.run isPlain

/-- What may follow the last word of a line, and the end of the line or of the text. -/
def lineEnd : Scan Unit := do
  space
  let _ ← optional comment
  newline <|> Scan.atEnd

/-- Space, comments and line ends, as they may stand between the items of a list. -/
def gap : Scan Unit := do
  let _ ← Scan.many ((do let _ ← Scan.run1 isSpace) <|> newline <|> comment)

/-! ## Escapes -/

/-- Whether the character is a hexadecimal digit. -/
def isHexDigit (c : Char) : Bool :=
  c.isDigit || ('a' ≤ c && c ≤ 'f') || ('A' ≤ c && c ≤ 'F')

/-- The value of a hexadecimal digit. -/
def hexValue (c : Char) : Nat :=
  if c.isDigit then c.toNat - 48 else if 'a' ≤ c then c.toNat - 87 else c.toNat - 55

/-- The number that digits write in a base. -/
def numberOf (base : Nat) (ds : List Char) : Nat := ds.foldl (fun n c => n * base + hexValue c) 0

/-- The character with the number that `count` hexadecimal digits write. -/
def numbered (count : Nat) : Scan Char := do
  let n := numberOf 16 (← Scan.exactly count isHexDigit)
  if n.isValidChar then return Char.ofNat n else failure

/-- The character that a letter after a backslash stands for. -/
def letter? (c : Char) : Option Char :=
  if c = 'b' then some (Char.ofNat 8)
  else if c = 't' then some '\t'
  else if c = 'n' then some '\n'
  else if c = 'f' then some (Char.ofNat 12)
  else if c = 'r' then some '\r'
  else if c = '"' || c = '\\' then some c
  else none

/-- An escape. -/
def escape : Scan Char := do
  Scan.char '\\'
  let c ← Scan.one fun _ => true
  if c = 'u' then numbered 4
  else if c = 'U' then numbered 8
  else letter? c

/-! ## Strings of one line -/

/-- Whether the character stands for itself between double quotes. -/
def isUnescaped (c : Char) : Bool := isPlain c && c != '"' && c != '\\'

/-- Whether the character may stand between single quotes. -/
def isLiteral (c : Char) : Bool := isPlain c && c != '\''

/-- A piece of a string between double quotes. -/
def piece : Scan (List Char) := Scan.run1 isUnescaped <|> (do return [← escape])

/-- A string between double quotes. -/
def basicString : Scan (List Char) := do
  Scan.char '"'
  let pieces ← Scan.many piece
  Scan.char '"'
  return pieces.flatten

/-- A string between single quotes. -/
def literalString : Scan (List Char) := do
  Scan.char '\''
  let cs ← Scan.run isLiteral
  Scan.char '\''
  return cs

/-! ## Strings of several lines -/

/-- One or two quotes with another character behind them. -/
def innerQuotes (quote : Char) : Scan (List Char) := fun cs =>
  let quotes := cs.takeWhile (· = quote)
  let rest := cs.dropWhile (· = quote)
  if 0 < quotes.length && quotes.length < 3 && !rest.isEmpty then some (quotes, rest) else none

/-- Three quotes that close a string, with up to two more in front that belong to it. -/
def closingQuotes (quote : Char) : Scan (List Char) := fun cs =>
  let quotes := cs.takeWhile (· = quote)
  if 3 ≤ quotes.length && quotes.length ≤ 5 then some (quotes.drop 3, cs.dropWhile (· = quote))
  else none

/-- A string of several lines between three quotes, made of the given pieces. -/
def severalLines (quote : Char) (piece : Scan (List Char)) : Scan (List Char) := do
  Scan.word [quote, quote, quote]
  let _ ← optional newline
  let pieces ← Scan.many (piece <|> (do newline; return ['\n']) <|> innerQuotes quote)
  return pieces.flatten ++ (← closingQuotes quote)

/-- A backslash at the end of a line, which hides the line end and the space after it. -/
def hiddenLineEnd : Scan Unit := do
  Scan.char '\\'
  space
  newline
  let _ ← Scan.many (newline <|> (do let _ ← Scan.run1 isSpace))

/-- A string of several lines between double quotes. -/
def basicLines : Scan (List Char) := severalLines '"' ((do hiddenLineEnd; return []) <|> piece)

/-- A string of several lines between single quotes. -/
def literalLines : Scan (List Char) := severalLines '\'' (Scan.run1 isLiteral)

/-- A string. -/
def string : Scan String := do
  return String.ofList (← basicLines <|> basicString <|> literalLines <|> literalString)

/-! ## Keys -/

/-- Whether the character may stand in a key without quotes. -/
def isBare (c : Char) : Bool := c.isAlphanum || c = '_' || c = '-'

/-- One part of a key. -/
def keyPart : Scan String := do
  return String.ofList (← Scan.run1 isBare <|> basicString <|> literalString)

/-- Values may stand inside one another, and the parts of a key behind one another, below this
count. -/
def depthLimit : Nat := 80

/-- The parts of a key, divided by points. -/
def key : Scan (List String) := do
  let parts ← Scan.separated (do space; let part ← keyPart; space; return part) (Scan.char '.')
  if parts.length < depthLimit then return parts else failure

end BroadcastRelay.Toml
