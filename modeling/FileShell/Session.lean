import FileShell.FileSystem.Transfer
import FileShell.Path.Resolve
import FileShell.Result

/-!
# Sessions and shells

A session is what one shell remembers between commands: its working directory and the home
directory, both absolute normalized paths.  A `Shell` is a session at work on a file system, and an
`Action` changes a shell and ends with a value or a failure; what it did before a failure stays.

* `Session.start`: the paths of a session are made absolute when it starts.
* `Action.changeDirectory`: the only way in which the working directory changes.
-/

namespace FileShell

/-- What a shell remembers between commands. -/
structure Session where
  cwd : Text
  home : Text
deriving DecidableEq, Repr

namespace Session

/-- A session whose paths are seen from a directory. -/
def start (directory cwd home : Text) : Session :=
  ⟨Path.absolute directory cwd, Path.absolute directory home⟩

/-- The path that a token names in a session. -/
def resolve (s : Session) (token : Text) : Text := Path.resolve token s.cwd s.home

/-- Would removing or moving the entry at a path take the working directory away?  Judged by the
texts of the two paths. -/
def standsIn (s : Session) (path : Text) : Bool := Path.isAtOrAbove path s.cwd

end Session

/-- A session at work on a file system. -/
structure Shell where
  session : Session
  files : FileSystem

/-- An action of a shell: what it changed before a failure stays changed. -/
abbrev Action := EStateM Failure Shell

namespace Action

/-- An action on the file system alone. -/
def onDisk {α : Type} (action : Disk α) : Action α := fun shell =>
  match action shell.files with
  | .ok a files => .ok a { shell with files := files }
  | .error e files => .error e { shell with files := files }

/-- The answer to a question about the file system. -/
def ask {α : Type} (question : FileSystem → α) : Action α := return question (← get).files

/-- The session at hand. -/
def session : Action Session := return (← get).session

/-- The path that a token names. -/
def resolve (token : Text) : Action Text := return (← session).resolve token

/-- Goes to the directory at a path, if there is one. -/
def changeDirectory (path : Text) : Action Bool := do
  if ← ask (·.isDirectory path) then
    modify fun shell => { shell with session := { shell.session with cwd := Path.normalize path } }
    return true
  else return false

/-- Goes to the directory at a path seen from a directory; the empty path leads nowhere. -/
def changeDirectoryFrom (directory path : Text) : Action Bool :=
  if path = [] then pure false else changeDirectory (Path.join directory path)

end Action

end FileShell
