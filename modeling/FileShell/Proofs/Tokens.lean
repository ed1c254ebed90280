import FileShell.Proofs.Stages
import FileShell.Proofs.Text.Words

/-!
# A line is its tokens

The shape of a line is decided on the line as it was typed, and a pipe is cut there too.  Blanks play
no part in it all the same: neither a bar nor an arrow is a blank, two arrow heads in a row stand in
one token, and the stages of a pipe are run on their own tokens.  So two lines with the same tokens
do the same.

* `Line.mem_iff_of_words_eq`, `hasDoubleArrow_iff`: what the scans of a line find in its tokens.
* `Pipe.runStage_of_words_eq`: a stage of a pipe is its tokens.
* `Interpreter.interpret_of_words_eq`: a line is its tokens.
-/

namespace FileShell

variable {l m : Text}

/-! ## What the scans of a line find -/

namespace Line

theorem mem_iff_of_words_eq (h : l.words = m.words) {s : Symbol} (hs : s.isBlank = false) :
    s ∈ l ↔ s ∈ m := by
  rw [Text.mem_iff_exists_word hs, Text.mem_iff_exists_word hs, h]

/-- Two arrow heads in a row are the double arrow somewhere in the text. -/
theorem hasDoubleArrow_iff_occurs (t : Text) :
    hasDoubleArrow t = true ↔ RedirectMode.append.arrow <:+: t := by
  induction t with
  | nil => simp [hasDoubleArrow, RedirectMode.arrow]
  | cons s rest ih =>
    rw [List.infix_cons_iff, ← ih]
    cases rest with
    | nil => simp [hasDoubleArrow, RedirectMode.arrow, List.cons_prefix_cons]
    | cons a more =>
      have hs : Symbol.scalar '>' = s ↔ s = .scalar '>' := eq_comm
      have ha : Symbol.scalar '>' = a ↔ a = .scalar '>' := eq_comm
      simp [hasDoubleArrow, RedirectMode.arrow, List.cons_prefix_cons, hs, ha]

/-- **Two arrow heads in a row stand in one token.** -/
theorem hasDoubleArrow_iff (t : Text) :
    hasDoubleArrow t = true ↔ ∃ w ∈ t.words, RedirectMode.append.arrow <:+: w := by
  rw [hasDoubleArrow_iff_occurs]
  exact Text.infix_iff_exists_word (by decide) (by decide)

theorem hasDoubleArrow_of_words_eq (h : l.words = m.words) :
    hasDoubleArrow l = hasDoubleArrow m := by
  rw [Bool.eq_iff_iff, hasDoubleArrow_iff, hasDoubleArrow_iff, h]

/-- The tokens of the stages of a pipe come from those of the line. -/
theorem words_stages (t : Text) :
    (stages t).1.words = Text.wordsUpTo bar t.words ∧
      (stages t).2.words = Text.wordsPast bar t.words := by
  have hbar : bar.isBlank = false := by decide
  rw [stages, Text.words_trim, Text.words_trim, Text.words_takeWhile hbar, Text.words_dropWhile hbar]
  exact ⟨rfl, rfl⟩

end Line

/-! ## Running -/

theorem Pipe.runStage_of_words_eq (h : l.words = m.words) : runStage l = runStage m := by
  rw [runStage, runStage, h]

theorem Pipe.run_of_words_eq {l' m' : Text} (h : l.words = m.words) (h' : l'.words = m'.words) :
    run l l' = run m m' := by
  rw [run, run, runStage_of_words_eq h, runStage_of_words_eq h']

namespace Interpreter

/-- Lines with the same tokens have shapes that run alike. -/
theorem dispatch_of_words_eq (h : l.words = m.words) :
    dispatch (Line.classify l) = dispatch (Line.classify m) := by
  have hbar : l.contains Line.bar = m.contains Line.bar := by
    rw [Bool.eq_iff_iff]
    simpa using Line.mem_iff_of_words_eq h (by decide)
  have harrow : l.contains (Symbol.scalar '>') = m.contains (Symbol.scalar '>') := by
    rw [Bool.eq_iff_iff]
    simpa using Line.mem_iff_of_words_eq h (by decide)
  rw [Line.classify, Line.classify, hbar, Line.hasDoubleArrow_of_words_eq h, harrow, h]
  split
  · -- the texts of the stages may differ, but not their tokens
    obtain ⟨hl, hl'⟩ := Line.words_stages l
    obtain ⟨hm, hm'⟩ := Line.words_stages m
    rw [h] at hl hl'
    exact Pipe.run_of_words_eq (hl.trans hm.symm) (hl'.trans hm'.symm)
  · rfl

/-- **Only the tokens of a line matter.**  Two lines with the same tokens do the same in every shell
and end alike, with the same result or the same failure.  In particular blanks around a line are
nothing, and blanks within it do not depend on which they are and how many. -/
theorem interpret_of_words_eq :
    (∀ l m : Text, l.words = m.words → interpret l = interpret m) ∧
      (∀ before l after : Text, before.IsBlank → after.IsBlank →
        interpret (before ++ l ++ after) = interpret l) ∧
      ∀ l gap gap' r : Text, gap.IsBlank → gap'.IsBlank → gap ≠ [] → gap' ≠ [] →
        interpret (l ++ gap ++ r) = interpret (l ++ gap' ++ r) := by
  have hsame : ∀ l m : Text, l.words = m.words → interpret l = interpret m := by
    intro l m h
    rw [interpret, interpret, dispatch_of_words_eq h]
  refine ⟨hsame, ?_, ?_⟩
  · intro before l after hbefore hafter
    apply hsame
    rw [Text.words_append_blank _ hafter, Text.words_blank_append hbefore]
  · intro l gap gap' r hgap hgap' hne hne'
    apply hsame
    rw [Text.words_append_gap hgap hne, Text.words_append_gap hgap' hne']

/-- A bar in the middle of a token, between an ideographic space and a line feed. -/
theorem interpret_of_words_eq_bar :
    let l : Text := "touch a|touch b"
    let m : Text := "\ttouch\u3000a|touch\n b "
    l.words = m.words ∧ interpret l = interpret m := by
  intro l m
  have h : l.words = m.words := by decide +kernel
  exact ⟨h, interpret_of_words_eq.1 l m h⟩

end Interpreter

end FileShell
