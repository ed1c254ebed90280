import FileShell.Text.Symbol
import FileShell.Text.CaseTable

/-!
# Letter case

`Text.lower` and `Text.upper` are the full case mappings of Unicode: a letter may become several
code points, and a capital sigma at the end of a word becomes the final small sigma.
-/

namespace FileShell

namespace CaseTable

/-- Does a range of the list hold the code point? -/
def holds (ranges : List (Nat × Nat)) (n : Nat) : Bool := ranges.any fun r => r.1 ≤ n && n ≤ r.2

/-- The image of a code point under the first run that reaches it. -/
def map? (runs : List (Nat × Nat × Nat × Nat)) (n : Nat) : Option Nat :=
  (runs.find? fun r => r.1 ≤ n && n ≤ r.2.1 && (n - r.1) % r.2.2.1 == 0).map
    fun r => r.2.2.2 + (n - r.1)

end CaseTable

open CaseTable

namespace Symbol

/-- The symbol with a code point, or the given one if there is none. -/
def ofCodePointD (n : Nat) (fallback : Symbol) : Symbol := (ofCodePoint? n).getD fallback

/-- The small form of a symbol, without regard to its neighbours. -/
def lower (s : Symbol) : Text :=
  let n := s.codePoint
  if n < 0x80 then
    if 0x41 ≤ n ∧ n ≤ 0x5A then [ofCodePointD (n + 0x20) s] else [s]
  else if n = 0x130 then [.scalar 'i', .scalar '\u0307']
  else match map? lowerRuns n with
    | some m => [ofCodePointD m s]
    | none => [s]

/-- The capital form of a symbol. -/
def upper (s : Symbol) : Text :=
  let n := s.codePoint
  if n < 0x80 then
    if 0x61 ≤ n ∧ n ≤ 0x7A then [ofCodePointD (n - 0x20) s] else [s]
  else match upperExpansions.lookup n with
    | some ms => ms.map (ofCodePointD · s)
    | none =>
      match map? upperRuns n with
      | some m => [ofCodePointD m s]
      | none => [s]

/-- Has the symbol case, so that a sigma next to it is inside a word? -/
def isCased (s : Symbol) : Bool := holds casedRanges s.codePoint

/-- Is the symbol passed over when the neighbours of a sigma are looked for? -/
def isCaseIgnorable (s : Symbol) : Bool := holds ignorableRanges s.codePoint

end Symbol

namespace Text

/-- Is the first symbol that counts, from the given place on, one with case? -/
def casedNext (t : Text) : Bool :=
  match t.dropWhile Symbol.isCaseIgnorable with
  | [] => false
  | s :: _ => s.isCased

/-- The lower-case form of a text; `before` holds the symbols to its left, the nearest first. -/
def lowerAfter (before : Text) : Text → Text
  | [] => []
  | s :: rest =>
    (if s = .scalar 'Σ' then
      [.scalar (if casedNext before && !casedNext rest then 'ς' else 'σ')]
    else s.lower) ++ lowerAfter (s :: before) rest

/-- The lower-case form of a text. -/
def lower (t : Text) : Text := lowerAfter [] t

/-- The upper-case form of a text. -/
def upper (t : Text) : Text := t.flatMap Symbol.upper

end Text

end FileShell
