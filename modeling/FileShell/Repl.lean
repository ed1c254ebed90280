import FileShell.Display
import FileShell.Interpreter
import FileShell.Prompt
import FileShell.Terminal

/-!
# Reading and answering lines

The shell asks for a line, answers it, and asks again, until the user says `exit` or has no more to
say.  What comes to the screen is a list of events, prompts and shown texts; it stays also when a
failure ends the run.

* `Repl.run`: the run of a shell with a terminal.
* `Run.printed`, `Run.prompts`: what is shown, and what is asked.
-/

namespace FileShell

/-- Something that comes to the screen. -/
inductive Event where
  | prompted (t : Text)
  | shown (t : Text)
deriving DecidableEq, Repr

namespace Event

/-- The text of a prompt. -/
def prompt? : Event → Option Text
  | prompted t => some t
  | shown _ => none

/-- The text that is shown as an answer. -/
def shown? : Event → Option Text
  | prompted _ => none
  | shown t => some t

/-- The text that comes to the screen. -/
def text : Event → Text
  | prompted t => t
  | shown t => t

end Event

/-- The run of a shell: what came to the screen, how it ended, in which state, and how many answers
the terminal had left. -/
structure Run where
  events : List Event
  ending : Except Failure Unit
  shell : Shell
  unread : Nat

namespace Run

/-- The run after some events. -/
def after (events : List Event) (r : Run) : Run := { r with events := events ++ r.events }

/-- Everything that came to the screen. -/
def screen (r : Run) : Text := r.events.flatMap Event.text

/-- The prompts. -/
def prompts (r : Run) : List Text := r.events.filterMap Event.prompt?

/-- What came to the screen besides the prompts. -/
def printed (r : Run) : Text := (r.events.filterMap Event.shown?).flatten

end Run

/-- What a line leads to. -/
inductive Response where
  | silence
  | farewell
  | display (t : Text)
deriving DecidableEq, Repr

namespace Repl

variable (console : Console)

/-- The line that ends a run. -/
def exitLine : Text := "exit"

/-- Interprets a line; answers whether it was carried out, and what is to be shown. -/
def answer (line : Text) : Action (Bool × Text) := do
  let result ← Interpreter.interpret line
  match Display.ofResult console false result with
  | .ok t => return (result.isOk, t)
  | .error e => throw e

/-- Answers a line; blanks at its ends do not matter. -/
def respond (line : Text) : Action Response := do
  let command := line.trim
  if command = [] then return .silence
  else if command = exitLine then return .farewell
  else return .display (← answer console command).2

/-- The prompt of a shell. -/
def promptOf (shell : Shell) : Event := .prompted (shell.session.cwd ++ Prompt.sign)

/-- Asks and answers while there are answers. -/
def runAnswers (console : Console) : List (Option Text) → Option History → Shell → Run
  | some line :: rest, history, shell =>
    match Action.onDisk (Terminal.recordAnswer history (some line)) shell with
    | .error e later => ⟨[promptOf shell], .error e, later, rest.length⟩
    | .ok recorded now =>
      match respond console line now with
      | .error e later => ⟨[promptOf shell], .error e, later, rest.length⟩
      | .ok .farewell later => ⟨[promptOf shell], .ok (), later, rest.length⟩
      | .ok .silence later => (runAnswers console rest recorded later).after [promptOf shell]
      | .ok (.display t) later =>
        (runAnswers console rest recorded later).after [promptOf shell, .shown t]
  | none :: rest, _, shell => ⟨[promptOf shell, .shown "\n"], .ok (), shell, rest.length⟩
  | [], _, shell => ⟨[promptOf shell, .shown "\n"], .ok (), shell, 0⟩

/-- The run of a shell with a terminal. -/
def run (terminal : Terminal) (shell : Shell) : Run :=
  runAnswers console terminal.answers terminal.history shell

end Repl

end FileShell
