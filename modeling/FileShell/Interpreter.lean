import FileShell.Redirect
import FileShell.Pipe

/-!
# Interpreting lines

`Interpreter.interpret` takes a line to its result: the line's shape decides whether a verb, a
redirection or a pipe runs.  Failures that come from the file system, and texts that cannot be
encoded, end as results of the kind `ioError`; the other failures leave the interpreter.

* `Interpreter.after`: the shell in which a line leaves things, whatever its outcome.
-/

namespace FileShell

namespace Interpreter

/-- Runs a line of a known shape. -/
def dispatch : Line → Action Result
  | .pipe left right => Pipe.run left right
  | .redirect mode tokens => Redirect.run mode tokens
  | .plain [] => return .success []
  | .plain (first :: rest) =>
    match Verb.lookup? (Line.verbName (first :: rest)) with
    | none =>
      return .failure .unknownCommand ("Unknown command: " ++ Line.verbName (first :: rest))
    | some verb => verb.run (first :: rest)

/-- Is a failure answered by a result? -/
def isReported : Failure → Bool
  | .fault _ _ => true
  | .move _ => true
  | .unencodable _ => true
  | _ => false

/-- The result that a reported failure becomes. -/
def reported (e : Failure) : Result := .failure .ioError ("Error: " ++ e.message)

/-- Interprets a line. -/
def interpret (line : Text) : Action Result :=
  tryCatch (dispatch (Line.classify line)) fun e =>
    if isReported e then pure (reported e) else throw e

/-- Interprets a line that may be missing altogether. -/
def call (line : Option Text) : Action Result :=
  match line with
  | some l => interpret l
  | none => throw .noLine

/-- The shell after a line. -/
def after (line : Text) (shell : Shell) : Shell :=
  match interpret line shell with
  | .ok _ s => s
  | .error _ s => s

end Interpreter

end FileShell
