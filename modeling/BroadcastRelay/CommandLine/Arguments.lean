import BroadcastRelay.Text.Similarity
import BroadcastRelay.Text.Split
/-!
# Arguments

`Arguments.read` reads the words that the program is called with. There is one option with a value,
the settings file, and two that end everything at once: help and version. A value may stand in the
word of its option or in the next one, and words behind a double dash are never options. A
`UsageFault` says why a call cannot be understood.
-/

namespace BroadcastRelay

/-- An option of the program. -/
inductive Flag where
  /-- The settings file. -/
  | config
  /-- The help text. -/
  | help
  /-- The version. -/
  | version
deriving DecidableEq, Repr

namespace Flag

/-- The options, in the order in which they are listed. -/
def all : List Flag := [config, help, version]

/-- The long name, without its dashes. -/
def name : Flag → String
  | config => "config"
  | help => "help"
  | version => "version"

/-- The short name. -/
def letter : Flag → Char
  | config => 'c'
  | help => 'h'
  | version => 'V'

/-- The option as it is written, with a word for its value. -/
def render : Flag → String
  | config => "--config <CONFIG>"
  | f => "--" ++ f.name

/-- The option of a long name. -/
def ofName? (name : String) : Option Flag := all.find? (·.name = name)

/-- The option of a short name. -/
def ofLetter? (c : Char) : Option Flag := all.find? (·.letter = c)

end Flag

/-- Why a call cannot be understood. -/
inductive UsageFault where
  /-- Nothing is known by that word; an option may be like it, and others may have been seen. -/
  | unexpected (word : String) (similar : Option Flag) (seen : List Flag)
  /-- An option that takes no value was given one. -/
  | unexpectedValue (flag : Flag) (value : String) (seen : List Flag)
  /-- The settings file has no name. -/
  | missingValue
  /-- The settings file is named twice. -/
  | repeated
deriving DecidableEq, Repr

/-- What ends the reading before the last word. -/
inductive Stop where
  /-- Help is asked for. -/
  | help
  /-- The version is asked for. -/
  | version
  /-- The call cannot be understood. -/
  | fault (f : UsageFault)
deriving DecidableEq, Repr

/-- The value of an option that is being read. -/
inductive Pending where
  /-- No option is being read. -/
  | none
  /-- The value is still to come. -/
  | open
  /-- The value is there and has not been looked at. -/
  | value (v : String)
deriving DecidableEq, Repr

/-- What has been read. -/
structure Arguments where
  /-- The settings file. -/
  config : Option String
  /-- The value that is being read. -/
  pending : Pending
  /-- Whether a double dash was met. -/
  literal : Bool
deriving DecidableEq, Repr

namespace Arguments

/-- Nothing has been read. -/
def fresh : Arguments := ⟨none, .none, false⟩

/-- The options whose value has been looked at. -/
def settled (a : Arguments) : List Flag := if a.config.isSome then [.config] else []

/-- The options that have got a value. -/
def seen (a : Arguments) : List Flag :=
  match a.pending with
  | .value _ => [.config]
  | _ => a.settled

/-- Takes the value of the settings file. -/
def assign (a : Arguments) (value : String) : Except Stop Arguments :=
  if a.config.isSome then .error (.fault .repeated)
  else if value = "" then .error (.fault .missingValue)
  else .ok { a with config := some value, pending := .none }

/-- Brings the option that is being read to its end. -/
def settle (a : Arguments) : Except Stop Arguments :=
  match a.pending with
  | .none => .ok a
  | .open => .error (.fault .missingValue)
  | .value v => a.assign v

/-- Takes an option with the value in its own word, if there is one. -/
def takeFlag (a : Arguments) (flag : Flag) (value? : Option String) : Except Stop Arguments :=
  match flag, value? with
  | .config, some v => a.settle.bind (·.assign v)
  | .config, none => a.settle.map ({ · with pending := .open })
  | .help, none => a.settle.bind fun _ => .error .help
  | .version, none => a.settle.bind fun _ => .error .version
  | flag, some v => .error (.fault (.unexpectedValue flag v (a.settled ++ [flag])))

/-- The least likeness of an option that is worth a hint. -/
def leastLikeness : Similarity := ⟨7, 10⟩

/-- The option most like a long name. -/
def similar? (name : String) : Option Flag :=
  (Similarity.mostAlike? leastLikeness name (Flag.all.map (·.name))).bind Flag.ofName?

/-- Takes a word behind two dashes. -/
def takeLong (a : Arguments) (cs : List Char) : Except Stop Arguments :=
  let name := String.ofList (cs.takeWhile (· ≠ '='))
  let value? :=
    match cs.dropWhile (· ≠ '=') with
    | [] => none
    | _ :: v => some (String.ofList v)
  match Flag.ofName? name with
  | some flag => a.takeFlag flag value?
  | none =>
    let similar := similar? name
    let others := similar.toList.filter fun f => !a.seen.contains f
    .error (.fault (.unexpected ("--" ++ name) similar (a.seen ++ others)))

/-- Takes a word behind a single dash. -/
def takeShort (a : Arguments) (c : Char) (rest : List Char) : Except Stop Arguments :=
  match Flag.ofLetter? c with
  | some .config =>
    a.takeFlag .config
      (if rest.isEmpty then none else some (String.ofList ((dropStart? ['='] rest).getD rest)))
  | some flag => a.takeFlag flag none
  | none => .error (.fault (.unexpected (String.ofList ['-', c]) none []))

/-- Takes a word that is no option. -/
def takeWord (a : Arguments) (word : String) : Except Stop Arguments :=
  match a.literal, a.pending with
  | false, .open => .ok { a with pending := .value word }
  | _, _ => .error (.fault (.unexpected word none []))

/-- Takes one word. -/
def step (a : Arguments) (word : String) : Except Stop Arguments :=
  if a.literal then a.takeWord word
  else
    match word.toList with
    | ['-', '-'] => .ok { a with literal := true }
    | '-' :: '-' :: cs => a.takeLong cs
    | '-' :: c :: cs => a.takeShort c cs
    | _ => a.takeWord word

/-- Reads the words; a variable may name the settings file where no word does. -/
def read (words : List String) (fallback? : Option String) : Except Stop (Option String) := do
  let a ← words.foldlM step fresh
  let a ← a.settle
  match a.config, fallback? with
  | some file, _ => return some file
  | none, some "" => throw (.fault .missingValue)
  | none, file? => return file?

end Arguments

end BroadcastRelay
