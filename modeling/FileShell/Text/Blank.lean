import FileShell.Text.Symbol

/-!
# Blanks and words

Blank symbols separate the words of a line; no quoting or escaping exists.  The blanks are the
white space of Unicode together with the four information separators.

* `words_blank_append`, `words_append_blank`, `words_word_append`: how `words` meets the blanks
  and the words that a line is put together from.
* `Text.trim`: the text without the blanks at its two ends.
-/

namespace FileShell

/-- The code points that count as blank, as inclusive ranges in ascending order. -/
def blankRanges : List (Nat × Nat) :=
  [(0x09, 0x0D), (0x1C, 0x20), (0x85, 0x85), (0xA0, 0xA0), (0x1680, 0x1680), (0x2000, 0x200A),
   (0x2028, 0x2029), (0x202F, 0x202F), (0x205F, 0x205F), (0x3000, 0x3000)]

/-- Does the symbol separate words? -/
def Symbol.isBlank (s : Symbol) : Bool :=
  blankRanges.any fun r => r.1 ≤ s.codePoint && s.codePoint ≤ r.2

namespace Text

/-- The text without the blanks it starts with. -/
def trimStart (t : Text) : Text := t.dropWhile Symbol.isBlank

/-- The text without the blanks it ends with. -/
def trimEnd (t : Text) : Text := (t.reverse.dropWhile Symbol.isBlank).reverse

/-- The text without the blanks at its two ends. -/
def trim (t : Text) : Text := t.trimStart.trimEnd

/-- Puts a word in front of others, unless it is empty. -/
def consWord (word : Text) (others : List Text) : List Text :=
  if word = [] then others else word :: others

/-- The word with which a text starts (empty when it starts with a blank), and the words after it. -/
def splitFirst : Text → Text × List Text
  | [] => ([], [])
  | s :: rest =>
    let r := splitFirst rest
    if s.isBlank then ([], consWord r.1 r.2) else (s :: r.1, r.2)

/-- The words of a text: its longest stretches without blanks, from left to right. -/
def words (t : Text) : List Text := consWord (splitFirst t).1 (splitFirst t).2

/-- Does the text consist of blanks alone? -/
def IsBlank (t : Text) : Prop := ∀ s ∈ t, s.isBlank = true

/-- Is no symbol of the text a blank? -/
def IsBlankFree (t : Text) : Prop := ∀ s ∈ t, s.isBlank = false

instance (t : Text) : Decidable (IsBlank t) := inferInstanceAs (Decidable (∀ s ∈ t, _))

instance (t : Text) : Decidable (IsBlankFree t) := inferInstanceAs (Decidable (∀ s ∈ t, _))

@[simp] theorem words_nil : words [] = [] := rfl

theorem words_cons_blank {s : Symbol} (h : s.isBlank = true) (t : Text) :
    words (s :: t) = words t := by
  simp [words, splitFirst, h, consWord]

theorem words_blank_append {b : Text} (h : b.IsBlank) (t : Text) : words (b ++ t) = words t := by
  induction b with
  | nil => rfl
  | cons s rest ih =>
    have hs : s.isBlank = true := h s List.mem_cons_self
    rw [List.cons_append, words_cons_blank hs, ih fun x hx => h x (List.mem_cons_of_mem _ hx)]

theorem splitFirst_append {w : Text} (h : w.IsBlankFree) (t : Text) :
    splitFirst (w ++ t) = (w ++ (splitFirst t).1, (splitFirst t).2) := by
  induction w with
  | nil => rfl
  | cons s rest ih =>
    have hs : s.isBlank = false := h s List.mem_cons_self
    simp [splitFirst, hs, ih fun x hx => h x (List.mem_cons_of_mem _ hx)]

/-- A word that ends at a blank or at the end of the text is the first word. -/
theorem words_word_append {w t : Text} (hw : w.IsBlankFree) (hne : w ≠ [])
    (ht : t = [] ∨ ∃ s r, t = s :: r ∧ s.isBlank = true) : words (w ++ t) = w :: words t := by
  have h1 : (splitFirst t).1 = [] := by
    rcases ht with rfl | ⟨s, r, rfl, hs⟩
    · rfl
    · simp [splitFirst, hs]
  simp [words, splitFirst_append hw, h1, consWord, hne]

theorem words_append_blank (t : Text) {b : Text} (h : b.IsBlank) : words (t ++ b) = words t := by
  have key : splitFirst (t ++ b) = splitFirst t := by
    induction t with
    | nil =>
      induction b with
      | nil => rfl
      | cons s rest ih =>
        have hs : s.isBlank = true := h s List.mem_cons_self
        have ih' := ih fun x hx => h x (List.mem_cons_of_mem _ hx)
        simp only [List.nil_append] at ih' ⊢
        simp [splitFirst, hs, ih', consWord]
    | cons s rest ih => simp [splitFirst, ih]
  simp [words, key]

end Text

end FileShell
