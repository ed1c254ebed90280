import FileShell.Json.Reader

/-!
# How deep a document is read

A document is refused for its nesting only where more lists and objects are open than there are
levels, so each level has taken one bracket of the text.  A text with no more brackets than levels
is never refused that way, whatever else is in it.

* `Json.Within`: what a reader leaves is the end of the text, and a refusal took brackets enough.
* `Json.readsWithin`: this holds of values, of the values of a list and of the members of an object.
* `Json.lt_openings_of_tooNested`: a refused text holds more brackets than there are levels.
-/

namespace FileShell

namespace Json

/-- Does the symbol open a list or an object? -/
def isOpening (s : Symbol) : Bool := s = .scalar '[' || s = .scalar '\x7b'

/-- The number of brackets that open a list or an object. -/
def openings (t : Text) : Nat := t.countP isOpening

theorem openings_le_of_suffix {t t' : Text} (h : t <:+ t') : openings t ≤ openings t' :=
  h.sublist.countP_le

/-- What is read from a text leaves its end, and what is refused for its nesting has more brackets
than there are levels. -/
def Within {α : Type} (levels : Nat) (t : Text) : Except Refusal (α × Text) → Prop
  | .ok r => r.2 <:+ t
  | .error .malformed => True
  | .error (.tooNested _) => levels < openings t

variable {α β : Type} {levels : Nat} {t t' rest : Text}

theorem Within.of_suffix {r : Except Refusal (α × Text)} (hr : Within levels t r) (h : t <:+ t') :
    Within levels t' r := by
  match r, hr with
  | .ok _, hr => exact hr.trans h
  | .error .malformed, _ => trivial
  | .error (.tooNested _), hr => exact Nat.lt_of_lt_of_le hr (openings_le_of_suffix h)

theorem Within.map {r : Except Refusal (α × Text)} (hr : Within levels t r) (f : α → β) :
    Within levels t (r.map fun r => (f r.1, r.2)) := by
  match r, hr with
  | .ok _, hr => exact hr
  | .error .malformed, _ => trivial
  | .error (.tooNested _), hr => exact hr

/-- A refusal is one whatever is read. -/
theorem Within.error {e : Refusal} (h : Within levels t (.error e : Except Refusal (α × Text))) :
    Within levels t (.error e : Except Refusal (β × Text)) := by
  cases e <;> exact h

theorem within_orMalformed {r : Option (α × Text)} (h : ∀ x ∈ r, x.2 <:+ t) :
    Within levels t (orMalformed r) := by
  cases r with
  | none => trivial
  | some x => exact h x rfl

/-- One more bracket leaves one level less. -/
theorem Within.open {r : Except Refusal (α × Text)} {s : Symbol} (hs : isOpening s = true)
    (hr : Within levels rest r) : Within (levels + 1) (s :: rest) r := by
  match r, hr with
  | .ok _, hr => exact List.IsSuffix.trans hr (List.suffix_cons s rest)
  | .error .malformed, _ => trivial
  | .error (.tooNested _), hr =>
    show levels + 1 < openings (s :: rest)
    rw [openings, List.countP_cons_of_pos hs]
    exact Nat.succ_lt_succ hr

theorem within_noLevel {s : Symbol} (hs : isOpening s = true) (doing : Text) :
    Within 0 (s :: rest) (.error (.tooNested doing) : Except Refusal (α × Text)) := by
  show 0 < openings (s :: rest)
  rw [openings, List.countP_cons_of_pos hs]
  exact Nat.succ_pos _

/-! ## What is left of the text -/

theorem skipGap_suffix (t : Text) : skipGap t <:+ t := List.dropWhile_suffix _

theorem readString_suffix {r : Text × Text} (h : readString t = some r) : r.2 <:+ t := by
  fun_induction readString t generalizing r with
  | case1 | case4 | case6 | case7 | case8 => cases h
  | case2 rest =>
    cases h
    exact List.suffix_cons _ rest
  | case3 a b c d more n found hmore _ _ ih =>
    cases h
    exact (ih hmore).trans ⟨[.scalar '\\', .scalar 'u', a, b, c, d], rfl⟩
  | case5 letter more _ c found hmore _ _ ih =>
    cases h
    exact (ih hmore).trans ⟨[.scalar '\\', .scalar letter], rfl⟩
  | case9 s rest _ _ _ ih =>
    obtain ⟨found, hfound, rfl⟩ := Option.map_eq_some_iff.1 h
    exact (ih hfound).trans (List.suffix_cons s rest)

theorem after?_suffix {start : Text} (h : after? start t = some rest) : rest <:+ t := by
  unfold after? at h
  split at h
  · cases h
    exact List.drop_suffix _ _
  · cases h

theorem readConstant_suffix {r : Json × Text} (h : readConstant t = some r) : r.2 <:+ t := by
  obtain ⟨c, -, hc⟩ := List.exists_of_findSome?_eq_some h
  obtain ⟨rest, hrest, rfl⟩ := Option.map_eq_some_iff.1 hc
  exact after?_suffix hrest

theorem readFraction_suffix (t : Text) : (readFraction t).2 <:+ t := by
  unfold readFraction
  split
  · dsimp only
    split
    · exact List.suffix_refl _
    · exact (List.drop_suffix _ _).trans (List.suffix_cons _ _)
  · exact List.suffix_refl _

theorem tail_suffix_if (signed : Prop) [Decidable signed] (t : Text) :
    (if signed then t.tail else t) <:+ t := by
  split
  · exact List.tail_suffix t
  · exact List.suffix_refl t

theorem readExponent_suffix (t : Text) : (readExponent t).2 <:+ t := by
  unfold readExponent
  split
  · next s more =>
    split
    · extract_lets signed body digits value
      have hbody : body <:+ more := tail_suffix_if _ more
      split
      · exact List.suffix_refl _
      · exact ((List.drop_suffix _ body).trans hbody).trans (List.suffix_cons s more)
    · exact List.suffix_refl _
  · exact List.suffix_refl _

theorem readNumber_suffix {r : Json × Text} (h : readNumber t = some r) : r.2 <:+ t := by
  unfold readNumber at h
  extract_lets negative body whole at h
  have hbody : body <:+ t := tail_suffix_if _ t
  have hrest := (((readExponent_suffix _).trans (readFraction_suffix _)).trans
    (List.drop_suffix whole.length body)).trans hbody
  dsimp only at h
  split at h
  · cases h
  split at h
  · split at h
    · cases h
    · cases h
      exact hrest
  · cases h
    exact hrest

/-! ## Reading -/

/-- What stands behind a symbol that ends a part is behind that part. -/
theorem suffix_of_skipGap {first : Text} {c : Char} (hfirst : first <:+ t)
    (h : skipGap first = .scalar c :: rest) : rest <:+ t := by
  have hgap : Symbol.scalar c :: rest <:+ first := h ▸ skipGap_suffix first
  exact ((List.suffix_cons _ rest).trans hgap).trans hfirst

/-- So is what stands behind the gap after that symbol. -/
theorem skipGap_suffix_of_skipGap {first : Text} {c : Char} (hfirst : first <:+ t)
    (h : skipGap first = .scalar c :: rest) : skipGap rest <:+ t :=
  (skipGap_suffix rest).trans (suffix_of_skipGap hfirst h)

/-- Values, items and members that are read down to a depth stay within their text. -/
def ReadsWithin (depth : Nat) : Prop :=
  ∀ levels t, Within levels t (readValue depth levels t) ∧
    Within levels t (readItems depth levels t) ∧ Within levels t (readMembers depth levels t)

section Deeper

variable {depth : Nat} (hparts : ReadsWithin depth) (levels : Nat) (t : Text)

include hparts

/-- A value hands the level that it opens on to its parts. -/
theorem within_readValue_succ : Within levels t (readValue (depth + 1) levels t) := by
  rw [readValue.eq_def]
  dsimp only
  split
  · next rest =>
    refine (within_orMalformed ?_).map _
    intro x hx
    exact (readString_suffix hx).trans (List.suffix_cons _ rest)
  · next rest =>
    cases levels with
    | zero => exact within_noLevel rfl _
    | succ levels =>
      dsimp only
      refine Within.open rfl ?_
      split
      · next more hmore => exact suffix_of_skipGap (List.suffix_refl rest) hmore
      · exact ((hparts levels _).2.1.map _).of_suffix (skipGap_suffix rest)
  · next rest =>
    cases levels with
    | zero => exact within_noLevel rfl _
    | succ levels =>
      dsimp only
      refine Within.open rfl ?_
      split
      · next more hmore => exact suffix_of_skipGap (List.suffix_refl rest) hmore
      · exact ((hparts levels _).2.2.map fun r => object (collect r)).of_suffix
          (skipGap_suffix rest)
  · refine within_orMalformed ?_
    intro x hx
    rcases Option.or_eq_some_iff.1 (by simpa using hx) with hx | ⟨-, hx⟩
    · exact readConstant_suffix hx
    · exact readNumber_suffix hx

/-- Each item starts where the one before it ended. -/
theorem within_readItems_succ : Within levels t (readItems (depth + 1) levels t) := by
  have hvalue := (hparts levels t).1
  rw [readItems.eq_def]
  dsimp only
  split
  · next e he =>
    rw [he] at hvalue
    exact hvalue.error
  · next v rest hv =>
    rw [hv] at hvalue
    split
    · next more hmore => exact suffix_of_skipGap hvalue hmore
    · next more hmore =>
      exact ((hparts levels _).2.1.map _).of_suffix (skipGap_suffix_of_skipGap hvalue hmore)
    · trivial

/-- Each member starts where the one before it ended, and its value behind its key. -/
theorem within_readMembers_succ : Within levels t (readMembers (depth + 1) levels t) := by
  rw [readMembers.eq_def]
  dsimp only
  split
  · trivial
  · next key afterKey hkey =>
    obtain ⟨start, hstart, hstring⟩ := Option.bind_eq_some_iff.1 hkey
    have hafter : afterKey <:+ t := (readString_suffix hstring).trans (after?_suffix hstart)
    split
    · next more hmore =>
      have hvalue := (hparts levels (skipGap more)).1.of_suffix
        (skipGap_suffix_of_skipGap hafter hmore)
      split
      · next e he =>
        rw [he] at hvalue
        exact hvalue.error
      · next v rest hv =>
        rw [hv] at hvalue
        split
        · next more hmore => exact suffix_of_skipGap hvalue hmore
        · next more hmore =>
          exact ((hparts levels _).2.2.map _).of_suffix (skipGap_suffix_of_skipGap hvalue hmore)
        · trivial
    · trivial

end Deeper

/-- **A refusal for the nesting took brackets enough**, by induction on the depth. -/
theorem readsWithin (depth : Nat) : ReadsWithin depth := by
  intro levels t
  induction depth generalizing levels t with
  | zero =>
    rw [readValue, readItems, readMembers]
    exact ⟨trivial, trivial, trivial⟩
  | succ depth ih =>
    exact ⟨within_readValue_succ ih levels t, within_readItems_succ ih levels t,
      within_readMembers_succ ih levels t⟩

/-- **A text that is refused for its nesting holds more brackets than there are levels.** -/
theorem lt_openings_of_tooNested {doing : Text}
    (h : parse levels t = .error (.tooNested doing)) : levels < openings t := by
  have hread := (readsWithin (2 * t.length + 2) levels (skipGap t)).1.of_suffix (skipGap_suffix t)
  unfold parse at h
  split at h
  · next e he =>
    cases h
    rw [he] at hread
    exact hread
  · split at h <;> cases h

theorem readValue_brackets (rest : Text) {depth : Nat} (hdepth : 2 * levels < depth) :
    readValue depth levels (List.replicate (levels + 1) (.scalar '[') ++ rest) =
      .error (.tooNested readingList) := by
  induction levels generalizing depth with
  | zero =>
    obtain ⟨depth, rfl⟩ := Nat.exists_eq_add_of_lt hdepth
    rfl
  | succ levels ih =>
    obtain ⟨depth, rfl⟩ : ∃ d, depth = d + 2 := ⟨depth - 2, by omega⟩
    have hinner := @ih depth (by omega)
    have hgap : ∀ t, skipGap (.scalar '[' :: t) = .scalar '[' :: t := fun _ => rfl
    rw [List.replicate_succ, List.cons_append] at hinner ⊢
    rw [List.replicate_succ, List.cons_append, readValue]
    simp only [hgap, readItems]
    split
    · next hclosed => exact absurd hclosed (by simp)
    · rw [hinner]
      rfl

/-- **Brackets alone are refused for their nesting**, whatever stands behind them. -/
theorem parse_brackets (levels : Nat) (rest : Text) :
    parse levels (List.replicate (levels + 1) (.scalar '[') ++ rest) =
      .error (.tooNested readingList) := by
  have hgap : skipGap (List.replicate (levels + 1) (.scalar '[') ++ rest) =
      List.replicate (levels + 1) (.scalar '[') ++ rest := rfl
  rw [parse, hgap, readValue_brackets rest]
  simp only [List.length_append, List.length_replicate]
  omega

end Json

end FileShell
