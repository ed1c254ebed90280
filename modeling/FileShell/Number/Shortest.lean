import FileShell.Number.Binary64
import FileShell.Text.Utf8

/-!
# The text of a binary number

A binary number is written with the fewest decimal digits that read back as the same number; of two
decimals with so few digits, the nearer one is taken.

* `Binary64.readsBack_shortest?`: what is found reads back.
* `Binary64.text`: positional notation where the point stands near the digits, exponents elsewhere.
-/

namespace FileShell

/-- The decimal `digits · 10 ^ exponent`. -/
structure Decimal where
  digits : Nat
  exponent : Int
deriving DecidableEq, Repr

namespace Binary64

/-- How many decimal digits a positive quotient has before the point; zeros behind the point count
negative. -/
def pointPosition (num den : Nat) : Int :=
  if den ≤ num then decimalWidth (num / den)
  else 1 - decimalWidth ((den + num - 1) / num - 1)

/-- Does a decimal read as the number with this mantissa and exponent? -/
def readsBack (mantissa : Nat) (exponent : Int) (d : Decimal) : Bool :=
  ofDecimal false d.digits d.exponent = finite false mantissa exponent

/-- The two neighbours of a quotient among the multiples of a power of ten, the nearer one first. -/
def neighbours (num den : Nat) (exponent : Int) : List Decimal :=
  let top := num * Nat.pow 10 (-exponent).toNat
  let bottom := den * Nat.pow 10 exponent.toNat
  let below : Decimal := ⟨top / bottom, exponent⟩
  let above : Decimal := ⟨top / bottom + 1, exponent⟩
  if roundHalfEven top bottom = top / bottom then [below, above] else [above, below]

/-- The first decimal that reads back, with `width` digits or up to `more` digits more. -/
def shortestFrom (mantissa : Nat) (exponent : Int) : (more width : Nat) → Option Decimal
  | 0, _ => none
  | more + 1, width =>
    let value := scaled mantissa 2 exponent
    let power := pointPosition value.1 value.2 - width
    match (neighbours value.1 value.2 power).find? (readsBack mantissa exponent) with
    | some d => some d
    | none => shortestFrom mantissa exponent more (width + 1)

/-- The decimal with the fewest digits that reads back. -/
def shortest? (mantissa : Nat) (exponent : Int) : Option Decimal :=
  shortestFrom mantissa exponent 17 1

theorem readsBack_shortestFrom {mantissa : Nat} {exponent : Int} {more width : Nat} {d : Decimal}
    (h : shortestFrom mantissa exponent more width = some d) : readsBack mantissa exponent d := by
  induction more generalizing width with
  | zero => simp [shortestFrom] at h
  | succ more ih =>
    simp only [shortestFrom] at h
    split at h
    · next found =>
      cases h
      exact List.find?_some found
    · exact ih h

/-- **What is written reads back** as the same number. -/
theorem readsBack_shortest? {mantissa : Nat} {exponent : Int} {d : Decimal}
    (h : shortest? mantissa exponent = some d) : readsBack mantissa exponent d :=
  readsBack_shortestFrom h

/-- Some zeros. -/
def zeros (n : Nat) : Text := List.replicate n (.scalar '0')

/-- Digits with the decimal point after `point` of them: written out in full from four zeros behind
the point up to sixteen digits before it, and otherwise with one digit before the point and an
exponent of ten. -/
def layOut (digits : Text) (point : Int) : Text :=
  if -4 < point ∧ point ≤ 16 then
    let before := digits.take point.toNat ++ zeros (point.toNat - digits.length)
    let behind := zeros (-point).toNat ++ digits.drop point.toNat
    (if before = [] then zeros 1 else before) ++ "." ++ (if behind = [] then zeros 1 else behind)
  else
    let power := (point - 1).natAbs
    digits.take 1 ++ (if digits.length ≤ 1 then [] else "." ++ digits.drop 1 : Text) ++
      (if point ≤ 0 then "e-" else "e+") ++ (if power < 10 then zeros 1 else []) ++
      Text.decimal power

/-- The text of a magnitude. -/
def magnitudeText (mantissa : Nat) (exponent : Int) : Text :=
  match shortest? mantissa exponent with
  | none => "0.0"
  | some d =>
    let written := Text.decimal d.digits
    let digits := (written.reverse.dropWhile (· = .scalar '0')).reverse
    layOut digits (written.length + d.exponent)

/-- The sign of a number. -/
def signText (negative : Bool) : Text := if negative then [.scalar '-'] else []

/-- The text of a number. -/
def text : Binary64 → Text
  | finite negative mantissa exponent =>
    signText negative ++ magnitudeText mantissa exponent
  | infinite negative => signText negative ++ "inf"
  | nan => "nan"

end Binary64

end FileShell
