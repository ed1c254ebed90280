import FileShell.Text.Blank

/-!
# Consoles

A console is the library that texts are handed to for the screen.  What it brings along is not the
shell's own: the table of its emoji, the blanks that it cuts from the end of a line that is too
wide, and how it puts a stretch of text in red.  How it finds the codes of its emoji is described
here: a code stands between two colons with no blank in between, and a colon that has ended one code
does not begin another.

* `Console.replaceCodes`: a text with the known codes replaced.
* `Console.codes`: the codes of a text, known or not.
-/

namespace FileShell

/-- The code that starts red text. -/
def redCode : Text := .scalar '\x1b' :: Text.ofString "[31m"

/-- The code that ends coloured text. -/
def plainCode : Text := .scalar '\x1b' :: Text.ofString "[0m"

/-- What a console brings along. -/
structure Console where
  /-- What is shown for a code, if it is known. -/
  emoji? : Text → Option Text
  emoji_symbols : ∀ code shown, emoji? code = some shown →
    Symbol.scalar '\n' ∉ shown ∧ Symbol.scalar ':' ∉ shown
  /-- The greatest number of symbols in a line of which nothing is cut. -/
  width : Nat
  /-- What is left of a line. -/
  cut : Text → Text
  cut_blanks : ∀ line, ∃ blanks : Text, line = cut line ++ blanks ∧ ∀ s ∈ blanks, s.isBlank = true
  cut_narrow : ∀ line : Text, line.length ≤ width → cut line = line
  /-- A stretch of a line in red. -/
  red : Text → Text
  red_eq : ∀ t, red t = if t = [] then [] else redCode ++ t ++ plainCode

namespace Console

/-- A console without emoji that cuts nothing. -/
def bare : Console where
  emoji? _ := none
  emoji_symbols _ _ h := by cases h
  width := 0
  cut line := line
  cut_blanks line := ⟨[], (List.append_nil line).symm, fun _ h => absurd h List.not_mem_nil⟩
  cut_narrow _ _ := rfl
  red t := if t = [] then [] else redCode ++ t ++ plainCode
  red_eq _ := rfl

/-- A text with the known codes replaced; `pending` holds what has been read since a colon that may
begin a code. -/
def replaceFrom (emoji? : Text → Option Text) : (pending : Option Text) → Text → Text
  | none, [] => []
  | some body, [] => .scalar ':' :: body
  | none, s :: rest =>
    if s = .scalar ':' then replaceFrom emoji? (some []) rest
    else s :: replaceFrom emoji? none rest
  | some body, s :: rest =>
    if s = .scalar ':' then
      (emoji? body).getD (.scalar ':' :: body ++ [.scalar ':']) ++ replaceFrom emoji? none rest
    else if s.isBlank then .scalar ':' :: body ++ s :: replaceFrom emoji? none rest
    else replaceFrom emoji? (some (body ++ [s])) rest

/-- A text with the known codes replaced. -/
def replaceCodes (c : Console) (t : Text) : Text := replaceFrom c.emoji? none t

end Console

end FileShell
