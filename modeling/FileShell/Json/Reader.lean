import FileShell.Json.Quoted
import FileShell.Json.Value

/-!
# Reading JSON documents

`Json.parse` reads a text that holds one value, with blanks around it and between its parts.
Besides the standard it accepts the numbers `NaN`, `Infinity` and `-Infinity`; it refuses integers
of more than `integerDigits` digits.  Lists and objects may stand in one another up to a number of
levels; the bracket that opens one more is refused in its own way.

The depth of a value is bounded by the length of its text, and so is the recursion.
-/

namespace FileShell

namespace Json

/-- Why a text is not read: it is no document, or its values stand too deep in one another. -/
inductive Refusal where
  | malformed
  | tooNested (doing : Text)
deriving DecidableEq, Repr

/-- What was read, or a malformed document. -/
def orMalformed {α : Type} : Option α → Except Refusal α
  | some a => .ok a
  | none => .error .malformed

/-- What is done at the bracket of a list that is one too many. -/
def readingList : Text := " while decoding a JSON array from a unicode string"

/-- What is done at the bracket of an object that is one too many. -/
def readingObject : Text := " while decoding a JSON object from a unicode string"

/-- The greatest number of digits of an integer. -/
def integerDigits : Nat := 4300

/-- May the symbol stand between the parts of a document? -/
def isGap (s : Symbol) : Bool := [0x20, 0x09, 0x0A, 0x0D].contains s.codePoint

/-- The text without the gap it starts with. -/
def skipGap (t : Text) : Text := t.dropWhile isGap

/-- Is it one of the digits from 0 to 9? -/
def isDigit (s : Symbol) : Bool := 0x30 ≤ s.codePoint && s.codePoint ≤ 0x39

/-- The natural that decimal digits stand for. -/
def digitsValue (digits : Text) : Nat := digits.foldl (fun n s => n * 10 + (s.codePoint - 0x30)) 0

/-- What stands after a text, if another one starts with it. -/
def after? (start t : Text) : Option Text :=
  if start.isPrefixOf t then some (t.drop start.length) else none

/-- The words that stand for a value. -/
def constants : List (Text × Json) :=
  [("null", null), ("true", bool true), ("false", bool false), ("NaN", float .nan),
    ("Infinity", float (.infinite false)), ("-Infinity", float (.infinite true))]

/-- Reads one of the words that stand for a value. -/
def readConstant (t : Text) : Option (Json × Text) :=
  constants.findSome? fun c => (after? c.1 t).map fun rest => (c.2, rest)

/-- The digits before the point: a zero alone, or digits that do not start with one. -/
def wholeDigits (t : Text) : Text :=
  if t.head? = some (.scalar '0') then t.take 1 else t.takeWhile isDigit

/-- The digits after a point, and what follows them; without a digit the point is left alone. -/
def readFraction (t : Text) : Text × Text :=
  match t with
  | .scalar '.' :: more =>
    let digits := more.takeWhile isDigit
    if digits = [] then ([], t) else (digits, more.drop digits.length)
  | _ => ([], t)

/-- The exponent after an `e`, and what follows it; without a digit the `e` is left alone. -/
def readExponent (t : Text) : Option Int × Text :=
  match t with
  | s :: more =>
    if s = .scalar 'e' ∨ s = .scalar 'E' then
      let signed := more.head? = some (.scalar '-') ∨ more.head? = some (.scalar '+')
      let body := if signed then more.tail else more
      let digits := body.takeWhile isDigit
      let value : Int := digitsValue digits
      if digits = [] then (none, t)
      else
        (some (if more.head? = some (.scalar '-') then -value else value), body.drop digits.length)
    else (none, t)
  | [] => (none, t)

/-- Reads a number: an integer, or a float if it has a fraction or an exponent. -/
def readNumber (t : Text) : Option (Json × Text) :=
  let negative : Bool := t.head? = some (.scalar '-')
  let body := if negative then t.tail else t
  let whole := wholeDigits body
  let (fraction, afterFraction) := readFraction (body.drop whole.length)
  let (exponent, rest) := readExponent afterFraction
  if whole = [] then none
  else if fraction = [] ∧ exponent = none then
    let value : Int := digitsValue whole
    if integerDigits < whole.length then none
    else some (integer (if negative then -value else value), rest)
  else
    let power := exponent.getD 0 - (fraction.length : Int)
    some (float (.ofDecimal negative (digitsValue (whole ++ fraction)) power), rest)

mutual

/-- Reads a value, in which lists and objects may be opened down to some levels. -/
def readValue : (depth levels : Nat) → Text → Except Refusal (Json × Text)
  | 0, _, _ => .error .malformed
  | depth + 1, levels, t =>
    match t with
    | .scalar '"' :: rest => (orMalformed (readString rest)).map fun r => (string r.1, r.2)
    | .scalar '[' :: rest =>
      match levels with
      | 0 => .error (.tooNested readingList)
      | levels + 1 =>
        match skipGap rest with
        | .scalar ']' :: more => .ok (array [], more)
        | start => (readItems depth levels start).map fun r => (array r.1, r.2)
    | .scalar '\x7b' :: rest =>
      match levels with
      | 0 => .error (.tooNested readingObject)
      | levels + 1 =>
        match skipGap rest with
        | .scalar '\x7d' :: more => .ok (object [], more)
        | start => (readMembers depth levels start).map fun r => (object (collect r.1), r.2)
    | _ => orMalformed (readConstant t <|> readNumber t)

/-- Reads the values of a list up to its end. -/
def readItems : (depth levels : Nat) → Text → Except Refusal (List Json × Text)
  | 0, _, _ => .error .malformed
  | depth + 1, levels, t =>
    match readValue depth levels t with
    | .error e => .error e
    | .ok (v, rest) =>
      match skipGap rest with
      | .scalar ']' :: more => .ok ([v], more)
      | .scalar ',' :: more =>
        (readItems depth levels (skipGap more)).map fun r => (v :: r.1, r.2)
      | _ => .error .malformed

/-- Reads the members of an object up to its end. -/
def readMembers : (depth levels : Nat) → Text → Except Refusal (List (Text × Json) × Text)
  | 0, _, _ => .error .malformed
  | depth + 1, levels, t =>
    match (after? "\"" t).bind readString with
    | none => .error .malformed
    | some (key, afterKey) =>
      match skipGap afterKey with
      | .scalar ':' :: more =>
        match readValue depth levels (skipGap more) with
        | .error e => .error e
        | .ok (v, rest) =>
          match skipGap rest with
          | .scalar '\x7d' :: more => .ok ([(key, v)], more)
          | .scalar ',' :: more =>
            (readMembers depth levels (skipGap more)).map fun r => ((key, v) :: r.1, r.2)
          | _ => .error .malformed
      | _ => .error .malformed

end

/-- The value that a text holds, down to some levels of lists and objects. -/
def parse (levels : Nat) (t : Text) : Except Refusal Json :=
  match readValue (2 * t.length + 2) levels (skipGap t) with
  | .error e => .error e
  | .ok (v, rest) => if skipGap rest = [] then .ok v else .error .malformed

end Json

end FileShell
