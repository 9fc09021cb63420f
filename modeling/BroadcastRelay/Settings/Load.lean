import BroadcastRelay.Settings.Overlay
import BroadcastRelay.Settings.Record
import BroadcastRelay.Toml.Document
/-!
# Settings from files and variables

`Settings.load` reads a settings file if one is named, and then puts variables over it. A variable
of the process stands before the same variable of the env file, even where it is empty. Which env
file counts is for a variable of the process alone to say.
-/

namespace BroadcastRelay.Settings

open EnvFile (Environment)

/-- What can be read: the content of a path, or why there is none. -/
abbrev Files := String → Except FileError Bytes

/-- Whether there is a file at the path. -/
def isFile (files : Files) (path : String) : Bool :=
  match files path with
  | .ok _ | .error (.system _) => true
  | .error _ => false

/-- Reads settings from a text. -/
def ofText (text : String) : Except SettingsError Settings :=
  (Toml.decode Settings.record.read text).mapError .document

/-- Reads settings from a file. -/
def ofFile (files : Files) (path : String) : Except SettingsError Settings :=
  match files path with
  | .error e => .error (.file path e)
  | .ok bs =>
    match Utf8.decode? bs with
    | none => .error (.file path .notText)
    | some text => ofText text

/-- The name of the env file for a kind of deployment. -/
def envFileName (deployment : Option String) : String :=
  if deployment = some "development" then ".env.development" else ".env.production"

/-- The env file in the first of the folders that has one. -/
def findEnvFile (files : Files) (folders : List String) (deployment : Option String) :
    Option String :=
  (folders.map (· ++ "/" ++ envFileName deployment)).find? (isFile files)

/-- The variables of the env file at a path. -/
def readEnvFile (files : Files) (process : Environment) (path : String) :
    Except SettingsError (KeyMap String) :=
  match files path with
  | .error e => .error (.file path e)
  | .ok bs => (EnvFile.entries process bs).mapError (.envFile path)

/-- Variables of the process, and behind them those of an env file. -/
def layered (process : Environment) (file : KeyMap String) : Environment := fun name =>
  (process name).or (file.get? name)

/-- The settings of a process that looks for an env file in the given folders. -/
def load (files : Files) (folders : List String) (process : Environment) (path : Option String) :
    Except SettingsError Settings := do
  let base ←
    match path with
    | some p => ofFile files p
    | none => .ok .default
  let defined ←
    match findEnvFile files folders (process "APP_ENV") with
    | some p => readEnvFile files process p
    | none => .ok .empty
  match overlay (layered process defined) base with
  | (s, none) => return s
  | (_, some e) => throw e

end BroadcastRelay.Settings
