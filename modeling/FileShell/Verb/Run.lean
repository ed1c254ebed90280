import FileShell.Verb.Navigation
import FileShell.Verb.Creation
import FileShell.Verb.Removal
import FileShell.Verb.Content

/-!
# Running a verb

A verb is run on the tokens of its command; the first token, its own name, plays no part.
-/

namespace FileShell

namespace Verb

/-- Runs a verb on its arguments. -/
def runOn (v : Verb) (arguments : List Text) : Action Result :=
  match v with
  | cd => runCd arguments
  | pwd => runPwd
  | ls => runLs arguments
  | mkdir => runMkdir arguments
  | touch => runTouch arguments
  | rm => runRm arguments
  | rmdir => runRmdir arguments
  | mv => runMv arguments
  | cat => runCat arguments
  | help => return .success helpText

/-- Runs a verb on the tokens of its command. -/
def run (v : Verb) (tokens : List Text) : Action Result := v.runOn tokens.tail

/-- Runs a verb on tokens that may be missing altogether. -/
def call (v : Verb) (tokens : Option (List Text)) : Action Result :=
  match tokens with
  | some ts => v.run ts
  | none => throw .noArguments

end Verb

end FileShell
