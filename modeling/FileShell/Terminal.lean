import FileShell.History

/-!
# Where lines come from

A terminal answers each prompt with a line, or with nothing when the user has no more to say.  Lines
are read from a text, or typed key by key; the keys do not depend on what the shell shows, so that
all answers are known beforehand.  Typed lines are recorded in the history if there is one.

* `Terminal.ofText`: the lines of a text.
* `Terminal.ofKeys`: the lines that keys put together.
* `Terminal.prompt`: one answer, and the terminal after it.
-/

namespace FileShell

/-- What answers the prompts of a shell: the answers in their order (after the last one there is
nothing more), and the history of typed lines. -/
structure Terminal where
  answers : List (Option Text)
  history : Option History
deriving Repr

namespace Terminal

/-- The lines of a text; a line feed at the end starts no further line. -/
def linesOf (t : Text) : List Text :=
  let lines := Text.lines t
  if lines.getLast? = some [] then lines.dropLast else lines

/-- A terminal that reads a text and shows what it is told to. -/
def ofText (t : Text) : Terminal := ⟨(linesOf t).map some, none⟩

/-- A key that edits the line before the cursor or ends it. -/
inductive Key where
  | accept
  | erase
  | abandon
  | leave
  | insert (s : Symbol)
  | idle
deriving DecidableEq, Repr

/-- The key that sends a symbol: Enter, Backspace, Control-C, Control-D, or the symbol itself; other
controls do nothing to the line. -/
def Key.ofSymbol (s : Symbol) : Key :=
  let n := s.codePoint
  if n = 0x0D ∨ n = 0x0A then accept
  else if n = 0x7F ∨ n = 0x08 then erase
  else if n = 0x03 then abandon
  else if n = 0x04 then leave
  else if n < 0x20 then idle
  else insert s

/-- The answers that keys give; `typed` holds the line at hand, the last symbol first.  Leaving works
on an empty line only, and a line that is never accepted is no answer. -/
def answersFrom : (typed : Text) → List Key → List (Option Text)
  | _, [] => []
  | typed, .accept :: rest => some typed.reverse :: answersFrom [] rest
  | typed, .erase :: rest => answersFrom typed.tail rest
  | _, .abandon :: rest => none :: answersFrom [] rest
  | [], .leave :: rest => none :: answersFrom [] rest
  | typed, .leave :: rest => answersFrom typed rest
  | typed, .insert s :: rest => answersFrom (s :: typed) rest
  | typed, .idle :: rest => answersFrom typed rest

/-- The answers that the symbols of a text give when they are typed. -/
def typedAnswers (keys : Text) : List (Option Text) := answersFrom [] (keys.map Key.ofSymbol)

/-- A terminal with somebody typing at it. -/
def ofKeys (env : Environment) (keepsHistory : Bool) (stamp keys : Text) : Disk Terminal := do
  if keepsHistory then
    return ⟨typedAnswers keys, some (← History.start env stamp)⟩
  else return ⟨typedAnswers keys, none⟩

/-- The history after an answer. -/
def recordAnswer (history : Option History) (answer : Option Text) : Disk (Option History) :=
  match history, answer with
  | some h, some line => some <$> h.record line
  | _, _ => pure history

/-- Asks for one line. -/
def prompt (terminal : Terminal) : Disk (Option Text × Terminal) :=
  match terminal.answers with
  | [] => pure (none, terminal)
  | answer :: rest => do
    let history ← recordAnswer terminal.history answer
    return (answer, ⟨rest, history⟩)

/-- Asks for some lines, one after the other. -/
def promptTimes : (times : Nat) → Terminal → Disk (List (Option Text))
  | 0, _ => pure []
  | times + 1, terminal => do
    let (answer, after) ← terminal.prompt
    return answer :: (← promptTimes times after)

end Terminal

end FileShell
