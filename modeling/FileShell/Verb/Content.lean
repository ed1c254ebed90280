import FileShell.Verb

/-!
# Moving entries and showing contents

`mv` takes a file, a link or a directory elsewhere, `cat` shows files one after another, with a line
in place of an operand that is missing or a directory.
-/

namespace FileShell

namespace Verb

/-- Moves what the first argument names to where the second one says; into a directory it goes
under its own name. -/
def runMv (arguments : List Text) : Action Result := do
  match arguments with
  | sourceName :: targetName :: _ =>
    let session ← Action.session
    let source := session.resolve sourceName
    let target := session.resolve targetName
    let files := (← get).files
    if !files.hasEntry source then
      return .failure .notFound
        ("mv: cannot stat '" ++ sourceName ++ "': No such file or directory")
    else if session.standsIn source then
      return .failure .invalidArgument
        ("mv: refusing to move '" ++ sourceName ++ "': it contains the working directory")
    else
      let aimed :=
        if files.isDirectory target then Path.join target (Path.base source) else target
      Action.onDisk (Disk.move source aimed)
      return .success "File moved successfully and original file deleted."
  | _ => return .failure .missingOperand "mv: missing destination file operand"

/-- What one operand contributes to what `cat` shows. -/
def catOne (name : Text) : Action Result := do
  let path ← Action.resolve name
  if ← Action.ask (·.isDirectory path) then
    return .failure .isADirectory ("cat: " ++ name ++ ": Is a directory\n")
  else if !(← Action.ask (·.isPresent path)) then
    return .failure .notFound ("cat: " ++ name ++ ": No such file or directory\n")
  else return .success (Text.decode (← Action.onDisk (Disk.readFile path)))

/-- Shows the contents of the operands in order; the error is that of the first that has one. -/
def runCat (arguments : List Text) : Action Result := do
  if arguments = [] then return .failure .missingOperand "cat: missing file operand"
  else
    let shown ← arguments.mapM catOne
    return ⟨shown.flatMap Result.output, shown.findSome? Result.error⟩

end Verb

end FileShell
