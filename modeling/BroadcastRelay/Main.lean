import BroadcastRelay.CommandLine.Program
/-!
# The command

`main` runs the program on the machine it is called on. It reads the files and variables that the
program may ask for, and writes what the program ends with. Sockets are not part of this library: a
relay that could be started ends the program at once.
-/

namespace BroadcastRelay.Command

/-- Why a file cannot be read. -/
def fileError : IO.Error → FileError
  | .noFileOrDirectory _ _ _ => .notFound
  | .inappropriateType _ 20 _ => .notDirectory
  | .inappropriateType _ 21 _ => .isDirectory
  | e => .system (toString e)

/-- What reading a path gives. -/
def readPath (path : String) : IO (Except FileError Bytes) := do
  try
    return .ok (← IO.FS.readBinFile path).data.toList
  catch e =>
    return .error (fileError e)

/-- What reading each of the paths gives; there is no other file. -/
def snapshot (paths : List String) : IO Settings.Files := do
  let contents ← paths.mapM readPath
  return fun path => ((paths.zip contents).lookup path).getD (.error .notFound)

/-- The variables of a process, each a name, an equals sign and a value before a zero byte. -/
def readVariables (bytes : Bytes) : EnvFile.Environment := fun name =>
  let lead := Utf8.encode (name ++ "=")
  (split (· == 0) bytes).findSome? fun entry => (dropStart? lead entry).bind Utf8.decode?

/-- The variables of this process. -/
def environment : IO EnvFile.Environment := do
  match ← readPath "/proc/self/environ" with
  | .ok bytes => return readVariables bytes
  | .error _ => return fun _ => none

/-- The files that settings may come from. -/
def settingsPaths (words folders : List String) (process : EnvFile.Environment) : List String :=
  let named :=
    match Arguments.read words (process Program.configVariable) with
    | .ok file? => file?.toList
    | .error _ => []
  named ++ folders.map fun folder =>
    folder ++ "/" ++ Settings.envFileName (process "APP_ENV")

/-- The files of the certificate that the settings name. -/
def certificatePaths (files : Settings.Files) (folders : List String)
    (process : EnvFile.Environment) (named : Option String) : List String :=
  match Settings.load files folders process named with
  | .ok s => (s.tls.paths?.map fun (cert, key) => [cert, key]).getD []
  | .error _ => []

/-- The machine that the program is called on, with nobody listening and no database. -/
def hostOf (files : Settings.Files) (folders : List String) : Host :=
  ⟨files, folders, ⟨[]⟩, .unreachable, none, 0⟩

/-- Runs the program, and gives its code. -/
def run (words : List String) : IO UInt32 := do
  let process ← environment
  let folders := [".", (← IO.appDir).toString]
  let paths := settingsPaths words folders process
  let files ← snapshot paths
  let named := (Arguments.read words (process Program.configVariable)).toOption.getD none
  let files ← snapshot (paths ++ certificatePaths files folders process named)
  match Program.run (hostOf files folders) process words with
  | .ok _ => return 0
  | .error exit =>
    IO.print exit.output
    IO.eprint exit.errors
    return UInt32.ofNat exit.code

end BroadcastRelay.Command

/-- Runs the program. -/
def main (words : List String) : IO UInt32 := BroadcastRelay.Command.run words
