import FileShell.Verb.Run
import FileShell.Line

/-!
# Redirections

A redirection runs the verb before the first arrow and puts what it shows into the file that the
token after the arrow names.  The file's path is fixed before the verb runs, so a change of
directory does not move it; a verb that fails leaves the file alone.
-/

namespace FileShell

namespace Redirect

/-- Is a token an arrow? -/
def isArrow (t : Text) : Bool :=
  t = RedirectMode.truncate.arrow || t = RedirectMode.append.arrow

/-- The tokens before the first arrow after the first token, and those after it. -/
def cutAtArrow? (tokens : List Text) : Option (List Text × List Text) :=
  match tokens with
  | [] => none
  | verb :: rest =>
    match rest.dropWhile (!isArrow ·) with
    | [] => none
    | _ :: after => some (verb :: rest.takeWhile (!isArrow ·), after)

/-- What is said when the tokens are not a command, an arrow and a file. -/
def shapeError (mode : RedirectMode) : Result :=
  .failure .badRedirect
    ("Error: Output redirection should be in the format: command " ++ mode.arrow ++ " file")

/-- Puts a text into the file at a path, instead of what it held or after it.  The file is made or
emptied before the text is encoded. -/
def writeOut (mode : RedirectMode) (path output : Text) : Disk Unit := do
  let place ← Disk.openForWriting path (mode = .truncate)
  match output.encode with
  | .ok bytes => Disk.append place bytes
  | .error e => throw (.unencodable e)

/-- What is said after a redirection. -/
def report (mode : RedirectMode) (fileName : Text) : Result :=
  .success <| match mode with
    | .append => "Output successfully appended to " ++ fileName
    | .truncate => "Output successfully written to " ++ fileName

/-- Runs the verb before the arrow and writes what it shows. -/
def run (mode : RedirectMode) (tokens : List Text) : Action Result := do
  if tokens.length < 3 then return shapeError mode
  else match cutAtArrow? tokens with
    | some (command, fileName :: _) =>
      match Verb.lookup? (command.head?.getD []) with
      | none => return .failure .unknownCommand "Error: Unknown command."
      | some verb =>
        let path ← Action.resolve fileName
        let result ← verb.run command
        if result.isOk then
          Action.onDisk (writeOut mode path result.output)
          return report mode fileName
        else return result
    | _ => return shapeError mode

/-- Runs a redirection on tokens that may be missing altogether. -/
def call (mode : RedirectMode) (tokens : Option (List Text)) : Action Result :=
  match tokens with
  | some ts => run mode ts
  | none => throw .noArguments

end Redirect

end FileShell
