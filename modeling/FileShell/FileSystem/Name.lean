import FileShell.Text.Utf8

/-!
# Names of directory entries

A name is one to 255 bytes other than the slash and the zero byte, and neither `.` nor `..`, which
are steps of a path and name no entry.  A place in the tree is the list of names that lead to it
from the root.

* `Name.lt_irrefl`, `Name.lt_trans`, `Name.lt_or_eq_or_lt`: names are in strict byte order.
-/

namespace FileShell

/-- The byte of the slash. -/
def slashByte : UInt8 := 0x2F

/-- The byte of the full stop. -/
def dotByte : UInt8 := 0x2E

/-- The greatest number of bytes in a name. -/
def nameLimit : Nat := 255

/-- May the bytes name an entry of a directory? -/
def IsName (b : Bytes) : Prop :=
  b ≠ [] ∧ b ≠ [dotByte] ∧ b ≠ [dotByte, dotByte] ∧ b.length ≤ nameLimit ∧
    ∀ x ∈ b, x ≠ slashByte ∧ x ≠ 0

instance (b : Bytes) : Decidable (IsName b) :=
  have : Decidable (∀ x ∈ b, x ≠ slashByte ∧ x ≠ 0) := List.decidableBAll _ b
  inferInstanceAs (Decidable (_ ∧ _))

/-- The name of an entry in a directory. -/
structure Name where
  bytes : Bytes
  isName : IsName bytes
deriving DecidableEq

namespace Name

/-- The name with the given bytes, if they may name an entry. -/
def ofBytes? (b : Bytes) : Option Name := if h : IsName b then some ⟨b, h⟩ else none

/-- The text that a name is read as. -/
def toText (n : Name) : Text := Text.decode n.bytes

/-- Is the name hidden from plain listings? -/
def isHidden (n : Name) : Bool := n.bytes.head? = some dotByte

instance : LT Name := ⟨fun a b => a.bytes < b.bytes⟩

instance (a b : Name) : Decidable (a < b) := inferInstanceAs (Decidable (a.bytes < b.bytes))

theorem ext_bytes {a b : Name} (h : a.bytes = b.bytes) : a = b := by
  cases a
  cases b
  cases h
  rfl

theorem lt_irrefl (a : Name) : ¬ a < a := List.lt_irrefl a.bytes

theorem lt_trans {a b c : Name} (h : a < b) (h' : b < c) : a < c := List.lt_trans h h'

theorem lt_or_eq_or_lt (a b : Name) : a < b ∨ a = b ∨ b < a := by
  by_cases h : a.bytes < b.bytes
  · exact .inl h
  · by_cases h' : b.bytes < a.bytes
    · exact .inr (.inr h')
    · exact .inr (.inl (ext_bytes (List.le_antisymm (List.not_lt.1 h') (List.not_lt.1 h))))

end Name

/-- A place in the tree of directories: the names that lead to it from the root. -/
abbrev Location := List Name

end FileShell
