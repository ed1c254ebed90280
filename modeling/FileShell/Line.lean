import FileShell.Text.Blank
import FileShell.Text.Case

/-!
# The shape of a line

A line is one of three shapes, and what decides is the line as it was typed, not its words: with a
bar it is a pipe, with an arrow it is a redirection, and otherwise it is plain.

* `Line.classify`: the bar counts before the arrows, the double arrow before the single one.
-/

namespace FileShell

/-- How a redirection treats its file. -/
inductive RedirectMode where
  | truncate
  | append
deriving DecidableEq, Repr

/-- The arrow that a mode is written with. -/
def RedirectMode.arrow : RedirectMode → Text
  | truncate => [.scalar '>']
  | append => [.scalar '>', .scalar '>']

/-- The shape of a line. -/
inductive Line where
  | pipe (left right : Text)
  | redirect (mode : RedirectMode) (tokens : List Text)
  | plain (tokens : List Text)
deriving DecidableEq, Repr

namespace Line

/-- The symbol between the stages of a pipe. -/
def bar : Symbol := .scalar '|'

/-- The stages of a pipe: what stands before the first bar and after it, without the blanks
around. -/
def stages (line : Text) : Text × Text :=
  (Text.trim (line.takeWhile (· ≠ bar)), Text.trim (line.dropWhile (· ≠ bar)).tail)

/-- Does the line hold two arrow heads in a row? -/
def hasDoubleArrow : Text → Bool
  | [] => false
  | s :: rest => (s = .scalar '>' && rest.head? = some (.scalar '>')) || hasDoubleArrow rest

/-- The shape of a line. -/
def classify (line : Text) : Line :=
  if line.contains bar then .pipe (stages line).1 (stages line).2
  else if hasDoubleArrow line then .redirect .append line.words
  else if line.contains (.scalar '>') then .redirect .truncate line.words
  else .plain line.words

/-- The verb name of a plain line's tokens, in lower case; empty without tokens. -/
def verbName (tokens : List Text) : Text := (tokens.head?.getD []).lower

end Line

end FileShell
