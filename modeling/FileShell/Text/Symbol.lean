/-!
# Symbols and texts

What a user types and what a command prints is a `Text`: a list of symbols, one per Unicode code
point.  Besides the scalar values (`Char`) there are the 2048 surrogate code points.  128 of them
stand for bytes that are no UTF-8 (see `FileShell.Text.Utf8`), the others cannot be written to a
file at all; both kinds travel through the shell untouched.

* `Symbol.ofCodePoint?_codePoint`: reading a code point back gives the symbol.
* `joinWith_cutAt`, `cutAt_joinWith`: cutting a list at a separator and joining with it undo each
  other.
-/

namespace FileShell

/-- A Unicode code point: a scalar value, or the surrogate `0xD800 + index`. -/
inductive Symbol where
  | scalar (c : Char)
  | surrogate (index : Fin 2048)
deriving DecidableEq, Repr, Inhabited

namespace Symbol

/-- The number of the code point. -/
def codePoint : Symbol → Nat
  | scalar c => c.toNat
  | surrogate k => 0xD800 + k.val

/-- The symbol with a given code point, if there is such a code point. -/
def ofCodePoint? (n : Nat) : Option Symbol :=
  if n.isValidChar then some (scalar (Char.ofNat n))
  else if h : 0xD800 ≤ n ∧ n < 0xE000 then some (surrogate ⟨n - 0xD800, by omega⟩)
  else none

theorem codePoint_scalar_not_surrogate (c : Char) : c.toNat < 0xD800 ∨ 0xE000 ≤ c.toNat := by
  have := c.valid
  simp only [UInt32.isValidChar, Nat.isValidChar] at this
  simp only [Char.toNat]
  omega

theorem codePoint_scalar_lt (c : Char) : c.toNat < 0x110000 := by
  have := c.valid
  simp only [UInt32.isValidChar, Nat.isValidChar] at this
  simp only [Char.toNat]
  omega

theorem ofCodePoint?_codePoint (s : Symbol) : ofCodePoint? s.codePoint = some s := by
  cases s with
  | scalar c =>
    have h : c.toNat.isValidChar := c.valid
    simp [ofCodePoint?, codePoint, h]
  | surrogate k =>
    have h : ¬ (0xD800 + k.val).isValidChar := by
      have := k.isLt
      simp only [Nat.isValidChar]
      omega
    have h' : 0xD800 + k.val < 0xE000 := by
      have := k.isLt
      omega
    simp [ofCodePoint?, codePoint, h, h']

instance : Coe Char Symbol := ⟨scalar⟩

end Symbol

/-- A text: the symbols from left to right. -/
abbrev Text := List Symbol

namespace Text

/-- The text of a literal. -/
def ofString (s : String) : Text := s.toList.map Symbol.scalar

instance : Coe String Text := ⟨ofString⟩

end Text

/-! ## Cutting at a separator -/

section Cut

variable {α : Type} [DecidableEq α]

/-- The stretches of a list between the occurrences of a separator, one more than there are. -/
def cutAt (separator : α) : List α → List (List α)
  | [] => [[]]
  | a :: rest =>
    if a = separator then [] :: cutAt separator rest
    else match cutAt separator rest with
      | [] => [[a]]
      | first :: more => (a :: first) :: more

/-- The lists in order with a separating list between each two of them. -/
def joinWith (separator : List α) : List (List α) → List α
  | [] => []
  | [l] => l
  | l :: m :: rest => l ++ separator ++ joinWith separator (m :: rest)

theorem cutAt_ne_nil (separator : α) (l : List α) : cutAt separator l ≠ [] := by
  cases l with
  | nil => simp [cutAt]
  | cons a rest =>
    simp only [cutAt]
    split
    · simp
    · split <;> simp

/-- **Nothing is lost by cutting**: joining the stretches with the separator gives the list. -/
theorem joinWith_cutAt (separator : α) (l : List α) :
    joinWith [separator] (cutAt separator l) = l := by
  induction l with
  | nil => rfl
  | cons a rest ih =>
    simp only [cutAt]
    cases h : cutAt separator rest with
    | nil => exact absurd h (cutAt_ne_nil separator rest)
    | cons first more =>
      rw [h] at ih
      split
      · next ha => simp [joinWith, ih, ha]
      · cases more with
        | nil => simpa [joinWith] using ih
        | cons second others => simpa [joinWith] using ih

/-- No stretch holds the separator. -/
theorem not_mem_of_mem_cutAt {separator : α} {l s : List α} (h : s ∈ cutAt separator l) :
    separator ∉ s := by
  induction l generalizing s with
  | nil => simp_all [cutAt]
  | cons a rest ih =>
    simp only [cutAt] at h
    split at h
    · rcases List.mem_cons.1 h with rfl | h
      · simp
      · exact ih h
    · next ha =>
      split at h
      · next he => exact absurd he (cutAt_ne_nil separator rest)
      · next first more he =>
        rcases List.mem_cons.1 h with rfl | h
        · have hf := ih (s := first) (by simp [he])
          simp only [List.mem_cons, not_or]
          exact ⟨fun e => ha e.symm, hf⟩
        · exact ih (by simp [he, h])

/-- Without separators there is one stretch. -/
theorem cutAt_of_not_mem {separator : α} {l : List α} (h : separator ∉ l) :
    cutAt separator l = [l] := by
  induction l with
  | nil => rfl
  | cons a rest ih =>
    simp only [List.mem_cons, not_or] at h
    simp [cutAt, Ne.symm h.1, ih h.2]

/-- A separator ends the stretch before it. -/
theorem cutAt_append_cons {separator : α} {l : List α} (h : separator ∉ l) (rest : List α) :
    cutAt separator (l ++ separator :: rest) = l :: cutAt separator rest := by
  induction l with
  | nil => simp [cutAt]
  | cons a more ih =>
    simp only [List.mem_cons, not_or] at h
    simp [cutAt, Ne.symm h.1, ih h.2]

/-- **Cutting undoes joining** when no stretch holds the separator. -/
theorem cutAt_joinWith {separator : α} {ls : List (List α)} (hne : ls ≠ [])
    (h : ∀ l ∈ ls, separator ∉ l) : cutAt separator (joinWith [separator] ls) = ls := by
  induction ls with
  | nil => exact absurd rfl hne
  | cons l rest ih =>
    cases rest with
    | nil => exact cutAt_of_not_mem (h l (by simp))
    | cons m more =>
      rw [joinWith, List.append_assoc, List.singleton_append, cutAt_append_cons (h l (by simp)),
        ih (by simp) fun x hx => h x (List.mem_cons_of_mem _ hx)]

end Cut

/-- The texts in order with a separating text between each two of them. -/
abbrev Text.joined (separator : Text) (ts : List Text) : Text := joinWith separator ts

/-- The lines of a text: the stretches between line feeds. -/
def Text.lines (t : Text) : List Text := cutAt (.scalar '\n') t

end FileShell
