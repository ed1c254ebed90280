import FileShell.Verb.Run
import FileShell.Line

/-!
# Pipes

The two stages of a pipe run one after the other, each on its own: nothing that the left one shows
reaches the right one.  The answer is that of the right stage, after the error text of the left one
if that failed.
-/

namespace FileShell

namespace Pipe

/-- Runs one stage. -/
def runStage (command : Text) : Action Result :=
  match command.words with
  | [] => return .failure .invalidArgument "Error: Empty command in pipe."
  | first :: rest =>
    match Verb.lookup? first with
    | none => return .failure .unknownCommand ("Unknown command in pipe: " ++ first.lower)
    | some verb => verb.run (first :: rest)

/-- A text without the line feeds at its end. -/
def withoutFinalNewlines (t : Text) : Text :=
  (t.reverse.dropWhile (· = .scalar '\n')).reverse

/-- The answer of a pipe from those of its stages. -/
def answer (first second : Result) : Result :=
  if first.isOk then second
  else
    ⟨Text.joined "\n" ([withoutFinalNewlines first.output, second.output].filter (· ≠ [])),
      second.error <|> first.error⟩

/-- Runs both stages. -/
def run (left right : Text) : Action Result := do
  let first ← runStage left
  let second ← runStage right
  return answer first second

/-- Runs a text as a pipe, or as a single stage if it has no bar. -/
def runLine (line : Text) : Action Result :=
  if line.contains Line.bar then run (Line.stages line).1 (Line.stages line).2
  else runStage line

end Pipe

end FileShell
