import FileShell.Text.Blank

/-!
# Words and what a scan of the line finds

Some things are looked for in a line symbol by symbol, and everything else is done with its words.
The two agree: a stretch without blanks lies within one of the words, and what stands before a
symbol and after it has the words that come before it and after it.

* `Text.words_trim`: blanks at the ends do not matter.
* `Text.words_induction`: a text is empty, begins with a blank, or begins with a word.
* `Text.words_append_gap`: blanks in between do nothing but separate.
* `Text.infix_iff_exists_word`: what is found in a text is found in one of its words.
* `Text.words_takeWhile`, `words_dropWhile`: the words of the text before a symbol and after it.
-/

namespace FileShell

namespace Text

variable {s : Symbol} {t u w : Text}

/-! ## Blanks at the ends -/

/-- Only blanks have no words. -/
theorem words_eq_nil_iff (t : Text) : t.words = [] ↔ t.IsBlank := by
  constructor
  · intro h s hs
    induction t with
    | nil => exact absurd hs List.not_mem_nil
    | cons a rest ih =>
      by_cases ha : a.isBlank = true
      · rw [words_cons_blank ha] at h
        rcases List.mem_cons.1 hs with rfl | hs
        · exact ha
        · exact ih h hs
      · simp [words, splitFirst, ha, consWord] at h
  · intro h
    have := words_blank_append h []
    rwa [List.append_nil] at this

theorem exists_append_trimStart (t : Text) : ∃ b, b.IsBlank ∧ t = b ++ t.trimStart :=
  ⟨t.takeWhile Symbol.isBlank, List.all_eq_true.1 List.all_takeWhile,
    List.takeWhile_append_dropWhile.symm⟩

theorem exists_trimEnd_append (t : Text) : ∃ b, b.IsBlank ∧ t = t.trimEnd ++ b := by
  refine ⟨(t.reverse.takeWhile Symbol.isBlank).reverse, ?_, ?_⟩
  · intro s hs
    exact List.all_eq_true.1 List.all_takeWhile s (List.mem_reverse.1 hs)
  · rw [trimEnd, ← List.reverse_append, List.takeWhile_append_dropWhile, List.reverse_reverse]

/-- Blanks at the ends do not matter to the words. -/
theorem words_trim (t : Text) : t.trim.words = t.words := by
  obtain ⟨b, hb, ht⟩ := exists_append_trimStart t
  obtain ⟨c, hc, ht'⟩ := exists_trimEnd_append t.trimStart
  have hstart : t.words = t.trimStart.words := by
    conv => lhs; rw [ht]
    exact words_blank_append hb _
  have hend : t.trimStart.words = t.trim.words := by
    conv => lhs; rw [ht']
    exact words_append_blank _ hc
  rw [hstart, hend]

theorem trim_ne_nil {t : Text} (h : ¬ t.IsBlank) : t.trim ≠ [] := by
  intro hnil
  have hwords := words_trim t
  rw [hnil] at hwords
  exact h ((words_eq_nil_iff t).1 hwords.symm)

/-! ## A text word by word -/

/-- The text does not go on with the word that stands before it. -/
def EndsWord (t : Text) : Prop := t = [] ∨ ∃ s r, t = s :: r ∧ s.isBlank = true

theorem exists_word (t : Text) :
    ∃ w r : Text, t = w ++ r ∧ w.IsBlankFree ∧ r.EndsWord := by
  induction t with
  | nil => exact ⟨[], [], rfl, by simp [IsBlankFree], .inl rfl⟩
  | cons s rest ih =>
    by_cases hs : s.isBlank = true
    · exact ⟨[], s :: rest, rfl, by simp [IsBlankFree], .inr ⟨s, rest, rfl, hs⟩⟩
    · obtain ⟨w, r, rfl, hw, hr⟩ := ih
      refine ⟨s :: w, r, rfl, ?_, hr⟩
      intro x hx
      rcases List.mem_cons.1 hx with rfl | hx
      · simpa using hs
      · exact hw x hx

/-- **A text is empty, begins with a blank, or begins with a word** that ends there. -/
@[elab_as_elim]
theorem words_induction {motive : Text → Prop} (nil : motive [])
    (blank : ∀ s t, s.isBlank = true → motive t → motive (s :: t))
    (word : ∀ w t : Text, w ≠ [] → w.IsBlankFree → t.EndsWord → motive t → motive (w ++ t))
    (t : Text) : motive t := by
  induction h : t.length using Nat.strongRecOn generalizing t with
  | ind n ih =>
    subst h
    cases t with
    | nil => exact nil
    | cons s rest =>
      by_cases hs : s.isBlank = true
      · exact blank s rest hs (ih _ (Nat.lt_succ_self _) rest rfl)
      · -- the word goes as far as there are no blanks
        obtain ⟨more, others, hsplit, hmore, hends⟩ := exists_word rest
        have hfree : IsBlankFree (s :: more) := by
          intro x hx
          rcases List.mem_cons.1 hx with rfl | hx
          · simpa using hs
          · exact hmore x hx
        have hshort : others.length < (s :: rest).length := by
          rw [hsplit, List.length_cons, List.length_append]
          omega
        rw [hsplit, ← List.cons_append]
        exact word _ _ (List.cons_ne_nil _ _) hfree hends (ih _ hshort others rfl)

theorem words_of_isBlankFree (h : w.IsBlankFree) : words w = consWord w [] := by
  by_cases hw : w = []
  · subst hw
    rfl
  · have := words_word_append h hw (.inl rfl)
    rw [List.append_nil] at this
    rw [this, consWord, if_neg hw]
    rfl

theorem words_append (h : w.IsBlankFree) (ht : t.EndsWord) : words (w ++ t) = consWord w t.words := by
  by_cases hw : w = []
  · subst hw
    rfl
  · rw [words_word_append h hw ht, consWord, if_neg hw]

/-- **Blanks in between do nothing but separate.** -/
theorem words_append_gap {gap : Text} (hgap : gap.IsBlank) (hne : gap ≠ []) (l r : Text) :
    words (l ++ gap ++ r) = words l ++ words r := by
  have hends : ∀ x, EndsWord (gap ++ x) := by
    intro x
    cases gap with
    | nil => exact absurd rfl hne
    | cons s more => exact .inr ⟨s, more ++ x, rfl, hgap s List.mem_cons_self⟩
  rw [List.append_assoc]
  induction l using words_induction with
  | nil => exact words_blank_append hgap r
  | blank s t hs ih => rw [List.cons_append, words_cons_blank hs, words_cons_blank hs, ih]
  | word w t hw hfree ht ih =>
    have ht' : EndsWord (t ++ (gap ++ r)) := by
      rcases ht with rfl | ⟨s, x, rfl, hs⟩
      · exact hends r
      · exact .inr ⟨s, x ++ (gap ++ r), rfl, hs⟩
    rw [List.append_assoc, words_word_append hfree hw ht', words_word_append hfree hw ht, ih,
      List.cons_append]

/-! ## What is found in a text -/

/-- **What is found in a text is found in one of its words**, if it is not interrupted by blanks. -/
theorem infix_iff_exists_word (hu : u ≠ []) (hfree : u.IsBlankFree) :
    u <:+: t ↔ ∃ w ∈ t.words, u <:+: w := by
  obtain ⟨a, more, rfl⟩ := List.exists_cons_of_ne_nil hu
  have ha : a.isBlank = false := hfree a List.mem_cons_self
  induction t using words_induction with
  | nil => simp
  | blank s t hs ih =>
    have hne : a ≠ s := by
      rintro rfl
      exact Bool.false_ne_true (ha.symm.trans hs)
    rw [words_cons_blank hs, List.infix_cons_iff, List.cons_prefix_cons]
    simp only [hne, false_and, false_or, ih]
  | word w t hw hwfree ht ih =>
    rw [words_word_append hwfree hw ht, List.infix_append_iff_ne_nil]
    constructor
    · rintro (h | h | ⟨l, r, -, hr, hsplit, -, hrt⟩)
      · exact ⟨w, List.mem_cons_self, h⟩
      · obtain ⟨x, hx, hux⟩ := ih.1 h
        exact ⟨x, List.mem_cons_of_mem _ hx, hux⟩
      · -- it cannot go beyond the end of the word, where a blank stands
        exfalso
        obtain ⟨b, r, rfl⟩ := List.exists_cons_of_ne_nil hr
        rcases ht with rfl | ⟨s, x, rfl, hs⟩
        · exact absurd (List.prefix_nil.1 hrt) (List.cons_ne_nil b r)
        · have hbs : b = s := (List.cons_prefix_cons.1 hrt).1
          have hb := hfree b (by rw [hsplit]; simp)
          rw [hbs, hs] at hb
          cases hb
    · rintro ⟨x, hx, hux⟩
      rcases List.mem_cons.1 hx with rfl | hx
      · exact .inl hux
      · exact .inr (.inl (ih.2 ⟨x, hx, hux⟩))

theorem mem_iff_exists_word (hs : s.isBlank = false) : s ∈ t ↔ ∃ w ∈ t.words, s ∈ w := by
  have hfree : IsBlankFree [s] := by
    intro x hx
    rw [List.mem_singleton.1 hx, hs]
  have hmem : ∀ x : Text, s ∈ x ↔ [s] <:+: x := by
    intro x
    rw [List.mem_iff_append]
    constructor
    · rintro ⟨l, r, rfl⟩
      exact ⟨l, r, by simp⟩
    · rintro ⟨l, r, rfl⟩
      exact ⟨l, r, by simp⟩
  simp only [hmem]
  exact infix_iff_exists_word (List.cons_ne_nil _ _) hfree

/-! ## Before a symbol and after it -/

/-- The words before the first place where a symbol stands, from the words of the whole text. -/
def wordsUpTo (s : Symbol) : List Text → List Text
  | [] => []
  | w :: rest => if s ∈ w then consWord (w.takeWhile (· ≠ s)) [] else w :: wordsUpTo s rest

/-- The words after the first place where a symbol stands, from the words of the whole text. -/
def wordsPast (s : Symbol) : List Text → List Text
  | [] => []
  | w :: rest => if s ∈ w then consWord (w.dropWhile (· ≠ s)).tail rest else wordsPast s rest

theorem takeWhile_ne (h : s ∉ u) (r : Text) : (u ++ s :: r).takeWhile (· ≠ s) = u := by
  have hu : ∀ a ∈ u, decide (a ≠ s) = true := fun a ha => decide_eq_true fun e => h (e ▸ ha)
  rw [List.takeWhile_append_of_pos hu]
  simp

theorem dropWhile_ne (h : s ∉ u) (r : Text) : (u ++ s :: r).dropWhile (· ≠ s) = s :: r := by
  have hu : ∀ a ∈ u, decide (a ≠ s) = true := fun a ha => decide_eq_true fun e => h (e ▸ ha)
  rw [List.dropWhile_append_of_pos hu]
  simp

theorem EndsWord.takeWhile (h : t.EndsWord) (p : Symbol → Bool) : EndsWord (t.takeWhile p) := by
  rcases h with rfl | ⟨a, r, rfl, ha⟩
  · exact .inl rfl
  · rw [List.takeWhile_cons]
    split
    · exact .inr ⟨a, _, rfl, ha⟩
    · exact .inl rfl

theorem words_takeWhile (hs : s.isBlank = false) (t : Text) :
    words (t.takeWhile (· ≠ s)) = wordsUpTo s t.words := by
  induction t using words_induction with
  | nil => rfl
  | blank a t ha ih =>
    have hne : a ≠ s := by
      rintro rfl
      exact Bool.false_ne_true (hs.symm.trans ha)
    rw [List.takeWhile_cons_of_pos (by simpa using hne), words_cons_blank ha, words_cons_blank ha, ih]
  | word w t hw hfree ht ih =>
    rw [words_word_append hfree hw ht, wordsUpTo]
    by_cases hmem : s ∈ w
    · obtain ⟨l, r, rfl, hl⟩ := List.eq_append_cons_of_mem hmem
      have hlfree : IsBlankFree l := fun x hx => hfree x (List.mem_append_left _ hx)
      rw [if_pos hmem, List.append_assoc, List.cons_append, takeWhile_ne hl, takeWhile_ne hl,
        words_of_isBlankFree hlfree]
    · have hall : ∀ a ∈ w, decide (a ≠ s) = true := fun a ha =>
        decide_eq_true fun e => hmem (e ▸ ha)
      rw [if_neg hmem, List.takeWhile_append_of_pos hall,
        words_word_append hfree hw (ht.takeWhile _), ih]

theorem words_dropWhile (hs : s.isBlank = false) (t : Text) :
    words (t.dropWhile (· ≠ s)).tail = wordsPast s t.words := by
  induction t using words_induction with
  | nil => rfl
  | blank a t ha ih =>
    have hne : a ≠ s := by
      rintro rfl
      exact Bool.false_ne_true (hs.symm.trans ha)
    rw [List.dropWhile_cons_of_pos (by simpa using hne), words_cons_blank ha, ih]
  | word w t hw hfree ht ih =>
    rw [words_word_append hfree hw ht, wordsPast]
    by_cases hmem : s ∈ w
    · obtain ⟨l, r, rfl, hl⟩ := List.eq_append_cons_of_mem hmem
      have hrfree : IsBlankFree r := fun x hx =>
        hfree x (List.mem_append_right _ (List.mem_cons_of_mem _ hx))
      rw [if_pos hmem, List.append_assoc, List.cons_append, dropWhile_ne hl, dropWhile_ne hl,
        List.tail_cons, List.tail_cons, words_append hrfree ht]
    · have hall : ∀ a ∈ w, decide (a ≠ s) = true := fun a ha =>
        decide_eq_true fun e => hmem (e ▸ ha)
      rw [if_neg hmem, List.dropWhile_append_of_pos hall, ih]

end Text

end FileShell
