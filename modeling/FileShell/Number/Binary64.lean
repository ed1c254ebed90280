/-!
# Binary numbers of 64 bits

A number with a fraction is kept as the nearest binary number with 53 bits: a mantissa times a power
of two, or an infinity when it is too large.  All arithmetic is exact, on naturals.

* `roundHalfEven`: a quotient rounded to the nearest natural.
* `Binary64.ofDecimal`: the binary number nearest to a decimal one; a tie goes to the even mantissa.
-/

namespace FileShell

/-- A quotient rounded to the nearest natural, to the even one of two. -/
def roundHalfEven (num den : Nat) : Nat :=
  let rest := num % den
  if 2 * rest < den then num / den
  else if den < 2 * rest then num / den + 1
  else if num / den % 2 = 0 then num / den else num / den + 1

/-- A natural times a power of a base, as a quotient of naturals. -/
def scaled (n base : Nat) (exponent : Int) : Nat × Nat :=
  (n * base.pow exponent.toNat, base.pow (-exponent).toNat)

/-- How many decimal digits a natural is written with. -/
def decimalWidth (n : Nat) : Nat := (Nat.toDigits 10 n).length

/-- A binary number of 64 bits: a sign with a mantissa and an exponent of two, an infinity, or no
number at all. -/
inductive Binary64 where
  | finite (negative : Bool) (mantissa : Nat) (exponent : Int)
  | infinite (negative : Bool)
  | nan
deriving DecidableEq, Repr

namespace Binary64

/-- Mantissas are below this bound. -/
def mantissaBound : Nat := Nat.pow 2 53

/-- The least exponent. -/
def leastExponent : Int := -1074

/-- The greatest exponent. -/
def greatestExponent : Int := 971

/-- The mantissa and exponent nearest to a quotient, if the exponents reach that far. -/
def nearest? (num den : Nat) : Option (Nat × Int) :=
  let magnitude : Int := num.log2 - den.log2
  let low := max (magnitude - 53) leastExponent
  let quotient (exponent : Int) : Nat × Nat :=
    (num * Nat.pow 2 (-exponent).toNat, den * Nat.pow 2 exponent.toNat)
  let exponent := if (quotient low).1 / (quotient low).2 < mantissaBound then low else low + 1
  let mantissa := roundHalfEven (quotient exponent).1 (quotient exponent).2
  let result :=
    if mantissa = mantissaBound then (mantissaBound / 2, exponent + 1) else (mantissa, exponent)
  if greatestExponent < result.2 then none else some result

/-- The binary number nearest to the decimal `digits · 10 ^ exponent`.  Decimals beyond the range of
all binary numbers are sorted out by their width alone. -/
def ofDecimal (negative : Bool) (digits : Nat) (exponent : Int) : Binary64 :=
  let width := decimalWidth digits + exponent
  if digits = 0 ∨ width < -330 then finite negative 0 leastExponent
  else if 310 < width then infinite negative
  else
    let value := scaled digits 10 exponent
    match nearest? value.1 value.2 with
    | some (mantissa, power) => finite negative mantissa power
    | none => infinite negative

/-- Is it a zero? -/
def isZero : Binary64 → Bool
  | finite _ mantissa _ => mantissa = 0
  | _ => false

end Binary64

end FileShell
