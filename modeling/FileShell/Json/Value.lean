import FileShell.Number.Shortest
import FileShell.Text.Quoted

/-!
# JSON values

A JSON document is a `Json`: a constant, a number, a text, a list, or members under keys.  Every key
of an object stands once; a member that is given again keeps its place and takes the new value.

* `Json.member?_put`: what putting a member changes.
* `Json.text`: the text of a value where a text is wanted.
* `Json.isTrue`: the truth of a value where yes or no is wanted.
-/

namespace FileShell

/-- A value of a JSON document. -/
inductive Json where
  | null
  | bool (b : Bool)
  | integer (n : Int)
  | float (x : Binary64)
  | string (t : Text)
  | array (items : List Json)
  | object (members : List (Text × Json))
deriving Repr

namespace Json

/-! ## Members -/

/-- The members with one of them put in: at its old place, or else at the end. -/
def put (key : Text) (value : Json) : List (Text × Json) → List (Text × Json)
  | [] => [(key, value)]
  | m :: rest => if m.1 = key then (key, value) :: rest else m :: put key value rest

/-- The value of the member with a key. -/
def member? (key : Text) (members : List (Text × Json)) : Option Json := members.lookup key

/-- **The last value given for a key counts**, and other keys are not touched. -/
theorem member?_put (key other : Text) (value : Json) (members : List (Text × Json)) :
    member? other (put key value members) =
      if other = key then some value else member? other members := by
  induction members with
  | nil => by_cases h : other = key <;> simp [member?, put, h]
  | cons m rest ih =>
    obtain ⟨k, v⟩ := m
    simp only [member?] at ih
    by_cases hk : k = key
    · subst hk
      by_cases h : other = k
      · simp [member?, put, h]
      · have hb : (other == k) = false := by simpa using h
        simp [member?, put, h, List.lookup_cons, hb]
    · by_cases ho : other = k
      · subst ho
        simp [member?, put, hk]
      · have hb : (other == k) = false := by simpa using ho
        simp [member?, put, hk, List.lookup_cons, hb, ih]

/-- The members that remain of a list in which keys may be repeated. -/
def collect (members : List (Text × Json)) : List (Text × Json) :=
  members.foldl (fun ms m => put m.1 m.2 ms) []

/-! ## Texts and truth of values -/

/-- The word for a truth value. -/
def truthWord (b : Bool) : Text := if b then Text.ofString "True" else Text.ofString "False"

mutual

/-- The text of a value inside a list. -/
def shown : Json → Text
  | null => "None"
  | bool b => truthWord b
  | integer n => Text.ofString n.repr
  | float x => x.text
  | string t => t.quoted
  | array items => "[" ++ Text.joined ", " (shownItems items) ++ "]"
  | object members => "\x7b" ++ Text.joined ", " (shownMembers members) ++ "\x7d"

/-- The texts of the values of a list. -/
def shownItems : List Json → List Text
  | [] => []
  | v :: rest => shown v :: shownItems rest

/-- The texts of the members of an object. -/
def shownMembers : List (Text × Json) → List Text
  | [] => []
  | (key, v) :: rest => (key.quoted ++ ": " ++ shown v) :: shownMembers rest

end

/-- The text of a value: a text is its own, the others are written as inside a list. -/
def text : Json → Text
  | string t => t
  | v => v.shown

/-- Is the value anything but null, false, a zero, or empty? -/
def isTrue : Json → Bool
  | null => false
  | bool b => b
  | integer n => n ≠ 0
  | float x => !x.isZero
  | string t => t ≠ []
  | array items => !items.isEmpty
  | object members => !members.isEmpty

/-- The name of the kind of a value. -/
def kindName : Json → Text
  | null => "NoneType"
  | bool _ => "bool"
  | integer _ => "int"
  | float _ => "float"
  | string _ => "str"
  | array _ => "list"
  | object _ => "dict"

end Json

end FileShell
