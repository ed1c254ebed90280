import FileShell.Failure
import FileShell.Path.Spelling

/-!
# Environments

What surrounds a shell when it starts: the variables, the directory that relative paths are seen
from, and the home directories of the accounts.  The places where the program keeps its own files
depend on nothing else.

* `Environment.expandTilde`: a tilde at the start of a path stands for a home directory.
* `Environment.configPath`, `Environment.historyPath`: where settings and history are kept.
-/

namespace FileShell

/-- What surrounds a shell when it starts. -/
structure Environment where
  bindings : List (Text × Text)
  directory : Text
  accounts : List (Text × Text)
  ownHome : Text
deriving DecidableEq, Repr

namespace Environment

/-- The value of a variable. -/
def valueOf? (env : Environment) (name : Text) : Option Text := env.bindings.lookup name

/-- The environment without a variable. -/
def unset (env : Environment) (name : Text) : Environment :=
  { env with bindings := env.bindings.filter fun v => v.1 ≠ name }

/-- The environment with a variable set. -/
def set (env : Environment) (name value : Text) : Environment :=
  { env with bindings := (name, value) :: (env.unset name).bindings }

/-- The home directory that a tilde followed by a name stands for; without a name it is the one of
the user. -/
def homeOf? (env : Environment) (name : Text) : Option Text :=
  if name = [] then some ((env.valueOf? "HOME").getD env.ownHome) else env.accounts.lookup name

/-- The path with a tilde at its start, and the name that follows it, replaced by a home directory.
A tilde with a name of no account stays. -/
def expandTilde (env : Environment) (path : Text) : Text :=
  match path with
  | .scalar '~' :: rest =>
    let name := rest.takeWhile (· ≠ .scalar '/')
    match env.homeOf? name with
    | none => path
    | some home =>
      let expanded := Path.withoutTrailingSlashes home ++ rest.drop name.length
      if expanded = [] then "/" else expanded
  | _ => path

/-- The spelling of the home directory; a home that itself starts with a tilde is of no use. -/
def home (env : Environment) : Except Failure Spelling :=
  let expanded := env.expandTilde "~"
  if expanded.head? = some (.scalar '~') then .error .noHome else .ok (.ofText expanded)

/-- The name of the directory in which the program keeps a file of its own. -/
def ownName : Text := "plutosh"

/-- The directory that a variable names, or the one below the home directory that stands in for it
when the variable is missing. -/
def baseDirectory (env : Environment) (name : Text) (below : List Text) :
    Except Failure Spelling := do
  let home ← env.home
  match env.valueOf? name with
  | some value => return .ofText value
  | none => return home.append below

/-- The directory of the settings. -/
def configDirectory (env : Environment) : Except Failure Spelling := do
  return (← env.baseDirectory "XDG_CONFIG_HOME" [".config"]).append [ownName]

/-- The file of the settings. -/
def configPath (env : Environment) : Except Failure Spelling := do
  return (← env.configDirectory).append ["config.json"]

/-- The file of the history. -/
def historyPath (env : Environment) : Except Failure Spelling := do
  return (← env.baseDirectory "XDG_DATA_HOME" [".local", "share"]).append [ownName, "history"]

/-- The path as it is seen from the directory of the process. -/
def place (env : Environment) (path : Spelling) : Text := Path.join env.directory path.toText

end Environment

end FileShell
