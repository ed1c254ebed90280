import FileShell.Verb

/-!
# Removing files and directories

`rm` removes files, links and, with `-r`, whole directories; `rmdir` removes an empty directory.
Neither removes the working directory or a directory above it, as far as the texts of the paths
tell: `rm` looks at all its operands before it removes any.
-/

namespace FileShell

namespace Verb

/-- Is an argument a flag?  The dash alone is none. -/
def isFlag (a : Text) : Bool := a.head? = some (.scalar '-') && a.length > 1

/-- What is said when a removal would take the working directory away. -/
def refusal (verb name : Text) : Result :=
  .failure .invalidArgument
    (verb ++ ": refusing to remove '" ++ name ++ "': it contains the working directory")

/-- Removes what one operand names. -/
def rmOne (recursive : Bool) (name : Text) : Action Result := do
  let path ← Action.resolve name
  let files := (← get).files
  if !files.hasEntry path then
    return .failure .notFound ("Error: " ++ name ++ " does not exist.")
  else if files.isDirectory path && !files.isLink path then
    if recursive then
      Action.onDisk (Disk.removeTree path)
      return .success ("Directory '" ++ name ++ "' deleted.")
    else return .failure .isADirectory ("Error: " ++ name ++ " is a directory.")
  else
    Action.onDisk (Disk.unlink path)
    return .success ("File '" ++ name ++ "' deleted.")

/-- Removes what the operands name. -/
def runRm (arguments : List Text) : Action Result := do
  let flags := arguments.filter isFlag
  let operands := arguments.filter (!isFlag ·)
  match flags.find? (· ≠ Text.ofString "-r") with
  | some flag => return .failure .unsupportedFlag ("rm: unsupported option '" ++ flag ++ "'")
  | none =>
    if operands = [] then return .failure .missingOperand "rm: missing operand"
    else
      let session ← Action.session
      match operands.find? fun name => session.standsIn (session.resolve name) with
      | some name => return refusal "rm" name
      | none => return .combine (← operands.mapM (rmOne (flags ≠ [])))

/-- Removes the empty directory that the first argument names. -/
def runRmdir (arguments : List Text) : Action Result := do
  match arguments with
  | [] => return .failure .missingOperand "rmdir: missing operand"
  | name :: _ =>
    let session ← Action.session
    let path := session.resolve name
    match ← Action.ask (·.found? .target path) with
    | none => return .failure .notFound "Error: Directory does not exist."
    | some (_, node) =>
      if !node.isDirectory then
        return .failure .notADirectory ("Error: " ++ name ++ " is not a directory.")
      else if session.standsIn path then return refusal "rmdir" name
      else if node.entries ≠ [] then return .failure .notEmpty "Error: Directory is not empty."
      else
        Action.onDisk (Disk.removeDirectory path)
        return .success ("Directory '" ++ name ++ "' deleted.")

end Verb

end FileShell
