import BroadcastRelay.CommandLine.Arguments
import BroadcastRelay.Startup
/-!
# The program

`Program.run` is the whole program on a host: it reads its arguments, loads the settings and starts
the relay. It ends with texts and a code, unless the relay has been started.
-/

namespace BroadcastRelay.Program

/-- The name of the program. -/
def name : String := "relaybox"

/-- The version of the program. -/
def version : String := "0.4.0"

/-- The variable that names the settings file where no argument does. -/
def configVariable : String := "RELAYBOX_CONFIG"

/-! ## Texts -/

/-- The line that shows how the program is called, with given options or with any. -/
def usage (flags : List Flag) : String :=
  "Usage: " ++ name ++ " " ++
    (if flags.isEmpty then "[OPTIONS]" else " ".intercalate (flags.map Flag.render))

/-- The help text; it shows the value of the variable. -/
def help (fallback? : Option String) : String :=
  "WHIP/WHEP broadcast relay\n\n" ++ usage [] ++ "\n\nOptions:\n" ++
    "  -c, --config <CONFIG>  TOML configuration file; environment variables override its values " ++
    "[env: " ++ configVariable ++ "=" ++ fallback?.getD "" ++ "]\n" ++
    "  -h, --help             Print help\n" ++
    "  -V, --version          Print version\n"

/-- The text of a fault of the call, without what it is led in by. -/
def faultText : UsageFault → String
  | .unexpected word similar seen =>
    let hint :=
      match similar with
      | some f => "\n\n  tip: a similar argument exists: '--" ++ f.name ++ "'"
      | none => ""
    "unexpected argument '" ++ word ++ "' found" ++ hint ++ "\n\n" ++ usage seen
  | .unexpectedValue flag value seen =>
    "unexpected value '" ++ value ++ "' for '" ++ flag.render ++
      "' found; no more were expected\n\n" ++ usage seen
  | .missingValue =>
    "a value is required for '" ++ Flag.config.render ++ "' but none was supplied"
  | .repeated =>
    "the argument '" ++ Flag.config.render ++ "' cannot be used multiple times\n\n" ++ usage []

/-- What is written about a fault of the call. -/
def faultReport (f : UsageFault) : String :=
  "error: " ++ faultText f ++ "\n\nFor more information, try '--help'.\n"

/-- A text with every line but the first set in. -/
def setIn (text : String) : String :=
  "\n    ".intercalate ((split (· == '\n') text.toList).map String.ofList)

/-- What is written about a failure: what was under way, and the reason. -/
def failureReport (context : String) (cause? : Option String) : String :=
  let reason :=
    match cause? with
    | some cause => "\n\nCaused by:\n    " ++ setIn cause
    | none => ""
  "Error: " ++ context ++ reason ++ "\n"

/-! ## The whole -/

/-- How the program ends. -/
structure Exit where
  /-- The code. -/
  code : Nat
  /-- The text on the standard output. -/
  output : String
  /-- The text on the standard error output. -/
  errors : String
deriving DecidableEq, Repr

/-- How the program ends where reading the arguments does. -/
def Exit.ofStop (fallback? : Option String) : Stop → Exit
  | .help => ⟨0, help fallback?, ""⟩
  | .version => ⟨0, name ++ " " ++ version ++ "\n", ""⟩
  | .fault f => ⟨2, "", faultReport f⟩

/-- How the program ends where something fails. -/
def Exit.ofFailure (context : String) (cause? : Option String) : Exit :=
  ⟨1, "", failureReport context cause?⟩

/-- Runs the program until the relay has been started, or fails. -/
def run (host : Host) (process : EnvFile.Environment) (words : List String) :
    Except Exit Startup.Started := do
  let fallback? := process configVariable
  let file? ← (Arguments.read words fallback?).mapError (Exit.ofStop fallback?)
  let settings ← (Settings.load host.files host.envFolders process file?).mapError fun e =>
    Exit.ofFailure "failed to load configuration" (some e.message)
  (Startup.start host settings).mapError fun e => Exit.ofFailure e.context e.cause?

end BroadcastRelay.Program
