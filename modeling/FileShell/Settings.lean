import FileShell.Environment
import FileShell.FileSystem.Disk
import FileShell.Json.Reader
import FileShell.Text.Blank
import FileShell.Text.Case

/-!
# Settings

The settings of the program are kept in a JSON file and may be overridden by variables of the
environment.  A file that is missing, cannot be read or holds no JSON gives the default settings;
members that are missing do so one by one.

* `Settings.load`: the settings that a file and the environment give.
* `Settings.save`: writes the settings to a file, making the directories above it if need be.
* `Settings.ofMembers`, `Settings.override`: what the members of the file and the variables decide.
-/

namespace FileShell

/-- What the user can set. -/
structure Settings where
  historyEnabled : Bool
  logLevel : Text
  promptColor : Text
  pathColor : Text
deriving DecidableEq, Repr

namespace Settings

/-- The settings that hold where nothing else is said. -/
def default : Settings := ⟨true, "WARNING", "white", "blue"⟩

instance : Inhabited Settings := ⟨default⟩

/-! ## Keys and variables -/

/-- The key of `historyEnabled`. -/
def historyKey : Text := "history_enabled"

/-- The key of `logLevel`. -/
def logLevelKey : Text := "log_level"

/-- The key of `promptColor`. -/
def promptColorKey : Text := "prompt_color"

/-- The key of `pathColor`. -/
def pathColorKey : Text := "path_color"

/-- The variable that overrides `historyEnabled`. -/
def historyVariable : Text := "PLUTOSH_HISTORY"

/-- The variable that overrides `logLevel`. -/
def logLevelVariable : Text := "PLUTOSH_LOG_LEVEL"

/-- The variable that overrides `promptColor`. -/
def promptColorVariable : Text := "PLUTOSH_PROMPT_COLOR"

/-- The variable that overrides `pathColor`. -/
def pathColorVariable : Text := "PLUTOSH_PATH_COLOR"

/-- The words that mean yes. -/
def yesWords : List Text := ["1", "true", "yes", "on"]

/-- Does a text mean yes?  Blanks around it and letter case do not matter. -/
def isYes (t : Text) : Bool := yesWords.contains (Text.lower (Text.trim t))

/-! ## Loading -/

/-- The settings that the members of a JSON object give. -/
def ofMembers (members : List (Text × Json)) : Settings :=
  let textOf (key fallback : Text) : Text := ((Json.member? key members).map Json.text).getD fallback
  { historyEnabled :=
      ((Json.member? historyKey members).map Json.isTrue).getD default.historyEnabled
    logLevel := textOf logLevelKey default.logLevel
    promptColor := textOf promptColorKey default.promptColor
    pathColor := textOf pathColorKey default.pathColor }

/-- The settings with what the variables of an environment say instead. -/
def override (env : Environment) (s : Settings) : Settings where
  historyEnabled := ((env.valueOf? historyVariable).map isYes).getD s.historyEnabled
  logLevel := (env.valueOf? logLevelVariable).getD s.logLevel
  promptColor := (env.valueOf? promptColorVariable).getD s.promptColor
  pathColor := (env.valueOf? pathColorVariable).getD s.pathColor

/-- The settings with the log level in capital letters. -/
def capitalized (s : Settings) : Settings := { s with logLevel := s.logLevel.upper }

/-- Does a path lead to anything?  Only a path that leads nowhere for good is taken to be missing;
one that is too long is a failure. -/
def isThere (files : FileSystem) (path : Text) : Except Failure Bool :=
  match files.locate .target path with
  | .ok (.taken _ _) => .ok true
  | .ok (.vacant _ _) => .ok false
  | .error (.fault .nameTooLong paths) => .error (.fault .nameTooLong paths)
  | .error _ => .ok false

/-- The bytes that a path leads to, if it leads to a file. -/
def bytesAt? (files : FileSystem) (path : Text) : Option Bytes :=
  match files.found? .target path with
  | some (_, .file bytes) => some bytes
  | _ => none

/-- The members that bytes hold; bytes that are no JSON document hold none. -/
def membersOf (levels : Nat) (bytes : Bytes) : Except Failure (List (Text × Json)) :=
  match Text.decodeStrict? bytes with
  | none => .ok []
  | some t =>
    match Json.parse levels t with
    | .error .malformed => .ok []
    | .error (.tooNested doing) => .error (.tooNested doing)
    | .ok (.object members) => .ok members
    | .ok other => .error (.notAnObject other.kindName)

/-- The members that the file at a path holds. -/
def membersAt (files : FileSystem) (path : Text) : Except Failure (List (Text × Json)) := do
  if ← isThere files path then
    match bytesAt? files path with
    | some bytes => membersOf (files.host.nesting .reading) bytes
    | none => return []
  else return []

/-- The file that is meant: the one that is given, or the one of the user. -/
def fileOf (env : Environment) (path : Option Text) : Except Failure Spelling :=
  match path with
  | some p => .ok (.ofText p)
  | none => env.configPath

/-- The settings that a file and an environment give. -/
def load (env : Environment) (files : FileSystem) (path : Option Text) : Except Failure Settings := do
  let file ← fileOf env path
  let members ← membersAt files (env.place file)
  return ((ofMembers members).override env).capitalized

/-! ## Saving -/

/-- The members that settings are written as. -/
def writtenMembers (s : Settings) : List (Text × Text) :=
  [(historyKey, if s.historyEnabled then "true" else "false"), (logLevelKey, Json.quoted s.logLevel),
    (promptColorKey, Json.quoted s.promptColor), (pathColorKey, Json.quoted s.pathColor)]

/-- Settings as a JSON document, one member on a line. -/
def document (s : Settings) : Text :=
  let line (m : Text × Text) : Text := "\n  " ++ Json.quoted m.1 ++ ": " ++ m.2
  "\x7b" ++ Text.joined "," (s.writtenMembers.map line) ++ "\n\x7d"

/-- Writes a text to a file in place of what it held. -/
def writeTo (path : Text) (t : Text) : Disk Unit := do
  let place ← Disk.openForWriting path true
  match t.encode with
  | .ok bytes => Disk.append place bytes
  | .error e => throw (.unencodable e)

/-- Writes settings to a file, and answers which one it was. -/
def save (env : Environment) (path : Option Text) (s : Settings) : Disk Text := do
  match fileOf env path with
  | .error e => throw e
  | .ok file =>
    Disk.ensureDirectory (env.place file.parent)
    writeTo (env.place file) s.document
    return file.toText

end Settings

end FileShell
