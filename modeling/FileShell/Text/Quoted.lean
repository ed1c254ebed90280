import FileShell.Text.Printable
import FileShell.Text.Utf8

/-!
# Quoted texts

The form in which texts appear inside the text of a list or of a mapping: between quotes, with
escapes for what could not be shown.

* `quoted`: double quotes are used only around a text with a single quote and no double one.
-/

namespace FileShell

/-- A symbol as it is written between quotes of the given kind. -/
def Symbol.escaped (quote s : Symbol) : Text :=
  let n := s.codePoint
  if s = quote ∨ s = .scalar '\\' then [.scalar '\\', s]
  else if s = .scalar '\t' then "\\t"
  else if s = .scalar '\n' then "\\n"
  else if s = .scalar '\r' then "\\r"
  else if s.isPrintable then [s]
  else if n ≤ 0xFF then "\\x" ++ Text.hex 2 n
  else if n ≤ 0xFFFF then "\\u" ++ Text.hex 4 n
  else "\\U" ++ Text.hex 8 n

/-- A text between quotes. -/
def Text.quoted (t : Text) : Text :=
  let quote : Symbol :=
    if t.contains (.scalar '\'') && !t.contains (.scalar '"') then .scalar '"' else .scalar '\''
  quote :: (t.flatMap (Symbol.escaped quote) ++ [quote])

end FileShell
