import FileShell.Verb
import FileShell.Text.Blank

/-!
# Making directories and files

`mkdir` makes one directory with the missing ones above it, `touch` makes files or renews their
times.  `touch` works through its operands in order; a failure at one keeps the later ones from
being looked at.
-/

namespace FileShell

namespace Verb

/-- Makes the directory that the first argument names, seen from the directory that the second one
names, or from the working directory without a second one. -/
def runMkdir (arguments : List Text) : Action Result := do
  match arguments with
  | [] => return .failure .invalidArgument "Error: Invalid directory name."
  | name :: more =>
    if name.trim = [] then return .failure .invalidArgument "Error: Invalid directory name."
    else
      let session ← Action.session
      let base := match more with
        | second :: _ => session.resolve second
        | [] => session.cwd
      let target := Path.resolve name base session.home
      if ← Action.ask (·.isPresent target) then
        return .failure .alreadyExists "Error: Directory already exists."
      else
        Action.onDisk (Disk.makeDirectories target)
        return .success ("Directory '" ++ name ++ "' created at " ++ target)

/-- Renews the time of what an operand names, or makes an empty file. -/
def touchOne (name : Text) : Action Result := do
  let path ← Action.resolve name
  if ← Action.ask (·.isPresent path) then
    Action.onDisk (Disk.renewTime path)
    return .success ("File '" ++ name ++ "' updated successfully.")
  else
    let _ ← Action.onDisk (Disk.openForWriting path false)
    return .success ("File '" ++ name ++ "' created successfully.")

/-- Touches every operand. -/
def runTouch (arguments : List Text) : Action Result := do
  if arguments = [] then return .failure .missingOperand "touch: missing file operand"
  else return .combine (← arguments.mapM touchOne)

theorem runTouch_singleton (name : Text) : runTouch [name] = touchOne name := by
  simp [runTouch]

end Verb

end FileShell
