import FileShell.Proofs.Text.Words

/-!
# Lines and their tokens

A line is its tokens with gaps between each two of them and blanks before and after.  This is said
without cutting the line: a token is not empty and holds no blank, a gap is not empty and holds
nothing else.  The words of a line are the only tokens that it can be taken for, so splitting undoes
joining, whichever blanks were chosen.

* `Text.Spaced`, `Text.IsLine`: tokens with gaps in between, and a line of tokens.
* `Text.words_of_isLine`: the words of a line of tokens are the tokens.
* `Text.IsLine.blank`, `IsLine.token`: what may be put before a line.
* `Text.isLine_words`: every text is a line of its words.
* `Text.words_eq_iff`: **the tokens of a line are its words**.
-/

namespace FileShell

namespace Text

variable {t w : Text} {ws : List Text}

/-- The text may be a token: it is not empty and holds no blank. -/
structure IsToken (w : Text) : Prop where
  ne_nil : w ≠ []
  free : w.IsBlankFree

/-- The text separates tokens: it is not empty and holds nothing but blanks. -/
structure IsGap (gap : Text) : Prop where
  ne_nil : gap ≠ []
  blank : gap.IsBlank

/-- The text consists of the tokens in their order, with a gap between each two neighbours. -/
inductive Spaced : List Text → Text → Prop
  | none : Spaced [] []
  | last {w : Text} : w.IsToken → Spaced [w] w
  | next {w gap v t : Text} {ws : List Text} : w.IsToken → gap.IsGap → Spaced (v :: ws) t →
      Spaced (w :: v :: ws) (w ++ gap ++ t)

/-- The text is a line of tokens: spaced tokens with blanks or nothing before and after. -/
def IsLine (ws : List Text) (t : Text) : Prop :=
  ∃ before core after : Text, before.IsBlank ∧ Spaced ws core ∧ after.IsBlank ∧
    t = before ++ core ++ after

/-! ## From the tokens to the line -/

theorem IsToken.words (hw : w.IsToken) : w.words = [w] := by
  rw [words_of_isBlankFree hw.free, consWord, if_neg hw.ne_nil]

theorem Spaced.words (h : Spaced ws t) : t.words = ws := by
  induction h with
  | none => rfl
  | last hw => exact hw.words
  | next hw hgap _ ih =>
    rw [words_append_gap hgap.blank hgap.ne_nil, hw.words, ih]
    rfl

/-- Splitting undoes joining. -/
theorem words_of_isLine (h : IsLine ws t) : t.words = ws := by
  obtain ⟨before, core, after, hbefore, hcore, hafter, rfl⟩ := h
  rw [words_append_blank _ hafter, words_blank_append hbefore, hcore.words]

/-! ## From the line to the tokens -/

theorem IsToken.not_endsWord (hw : w.IsToken) (t : Text) : ¬ EndsWord (w ++ t) := by
  obtain ⟨a, more, rfl⟩ := List.exists_cons_of_ne_nil hw.ne_nil
  rintro (hnil | ⟨s, rest, hcons, hs⟩)
  · cases hnil
  · have ha := hw.free a List.mem_cons_self
    obtain ⟨rfl, -⟩ := List.cons.inj hcons
    rw [hs] at ha
    cases ha

/-- No blank stands before the first token. -/
theorem Spaced.not_endsWord {v : Text} (h : Spaced (v :: ws) t) (after : Text) :
    ¬ EndsWord (t ++ after) := by
  cases h with
  | last hv => exact hv.not_endsWord after
  | next hv _ _ =>
    rw [List.append_assoc, List.append_assoc]
    exact hv.not_endsWord _

/-- Blanks alone are a line without tokens. -/
theorem isLine_of_isBlank (h : t.IsBlank) : IsLine [] t :=
  ⟨t, [], [], h, .none, by simp [IsBlank], by simp⟩

/-- A blank may be put before a line. -/
theorem IsLine.blank {s : Symbol} (h : IsLine ws t) (hs : s.isBlank = true) :
    IsLine ws (s :: t) := by
  obtain ⟨before, core, after, hbefore, hcore, hafter, rfl⟩ := h
  refine ⟨s :: before, core, after, ?_, hcore, hafter, rfl⟩
  intro x hx
  rcases List.mem_cons.1 hx with rfl | hx
  · exact hs
  · exact hbefore x hx

/-- A token may be put before a line that does not go on with it. -/
theorem IsLine.token (h : IsLine ws t) (hw : w.IsToken) (ht : t.EndsWord) :
    IsLine (w :: ws) (w ++ t) := by
  have hnone : IsBlank ([] : Text) := by simp [IsBlank]
  cases ws with
  | nil =>
    have hblank : t.IsBlank := (words_eq_nil_iff t).1 (words_of_isLine h)
    exact ⟨[], w, t, hnone, .last hw, hblank, rfl⟩
  | cons v ws =>
    obtain ⟨before, core, after, hbefore, hcore, hafter, rfl⟩ := h
    -- what stands before the next token is a gap, since the line ends the word
    have hgap : before ≠ [] := by
      rintro rfl
      exact hcore.not_endsWord after ht
    exact ⟨[], w ++ before ++ core, after, hnone, .next hw ⟨hgap, hbefore⟩ hcore, hafter, by simp⟩

/-- Every text is a line of its words. -/
theorem isLine_words (t : Text) : IsLine t.words t := by
  induction t using words_induction with
  | nil => exact isLine_of_isBlank (by simp [IsBlank])
  | blank s t hs ih =>
    rw [words_cons_blank hs]
    exact ih.blank hs
  | word w t hw hfree ht ih =>
    rw [words_word_append hfree hw ht]
    exact ih.token ⟨hw, hfree⟩ ht

/-- **The tokens of a line are its words**: a line has certain words exactly if it consists of them,
none empty and none with a blank in it, with a gap of blanks between each two neighbours and blanks
or nothing before and after.  Trimming the line first changes nothing. -/
theorem words_eq_iff (line : Text) (ws : List Text) :
    (line.words = ws ↔ IsLine ws line) ∧ line.trim.words = line.words := by
  refine ⟨⟨?_, words_of_isLine⟩, words_trim line⟩
  rintro rfl
  exact isLine_words line

example : words "\u001c touch\u3000a\u0085\u2003b\n" = (["touch", "a", "b"] : List Text) := by
  decide +kernel

end Text

end FileShell
