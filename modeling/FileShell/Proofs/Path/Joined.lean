import FileShell.Proofs.Path.Clean

/-!
# Paths put after other paths

A relative path is put after another path with one slash between them.  If the first path is
absolute, so is the whole, with the same anchor, and the parts of the second come after those of the
first; neither path has to be clean.

* `Path.join_eq_append`: the text of a relative path seen from another one.
* `Path.anchor_join`, `Spelling.parts_join_relative`: its anchor and its parts.
* `Spelling.ofText_join_relative`: its spelling.
-/

namespace FileShell

/-- A separator cuts a list in two. -/
theorem cutAt_append_separator {α : Type} [DecidableEq α] (separator : α) (l r : List α) :
    cutAt separator (l ++ separator :: r) = cutAt separator l ++ cutAt separator r := by
  induction l with
  | nil => simp [cutAt]
  | cons a more ih =>
    rw [List.cons_append, cutAt, cutAt, ih]
    split
    · rfl
    · cases hcut : cutAt separator more with
      | nil => exact absurd hcut (cutAt_ne_nil separator more)
      | cons first others => rfl

/-! ## Texts -/

namespace Path

variable {p q : Text}

/-- A relative path is put after another one with one slash between them. -/
theorem join_eq_append (hp : p ≠ []) (hq : isAbsolute q = false) :
    ∃ l, join p q = l ++ .scalar '/' :: q ∧ (p = l ∨ p = l ++ [.scalar '/']) := by
  unfold join
  simp only [hq, Bool.false_eq_true, if_false, hp, false_or]
  split
  · next hend =>
    rw [List.getLast?_eq_some_getLast hp, Option.some.injEq] at hend
    have hsplit := List.dropLast_concat_getLast hp
    rw [hend] at hsplit
    refine ⟨p.dropLast, ?_, .inr hsplit.symm⟩
    conv => lhs; rw [← hsplit]
    simp
  · exact ⟨p, rfl, .inl rfl⟩

end Path

/-! ## Parts -/

namespace Spelling

variable {p q : Text}

theorem parts_append_slash (p q : Text) :
    (ofText (p ++ .scalar '/' :: q)).parts = (ofText p).parts ++ (ofText q).parts := by
  simp only [ofText, cutAt_append_separator, List.filter_append]

/-- A text without slashes is a single part, unless it is empty or a dot. -/
theorem parts_singleton {t : Text} (hne : t ≠ []) (hhere : t ≠ Path.here)
    (hslash : Symbol.scalar '/' ∉ t) : (ofText t).parts = [t] := by
  simp [ofText, cutAt_of_not_mem hslash, hne, hhere]

/-- A slash at the end of a path adds no part. -/
theorem parts_append_slash_nil (p : Text) :
    (ofText (p ++ [.scalar '/'])).parts = (ofText p).parts := by
  rw [parts_append_slash]
  simp [ofText, cutAt]

/-- The parts of a relative path come after those of the path it is seen from. -/
theorem parts_join_relative (hp : p ≠ []) (hq : Path.isAbsolute q = false) :
    (ofText (Path.join p q)).parts = (ofText p).parts ++ (ofText q).parts := by
  obtain ⟨l, hjoin, hl⟩ := Path.join_eq_append hp hq
  rw [hjoin, parts_append_slash]
  rcases hl with rfl | rfl
  · rfl
  · rw [parts_append_slash_nil]

end Spelling

/-! ## Anchors -/

theorem Spelling.anchor_slashes_append {t : Text} {a : Anchor} (ha : a ≠ .relative)
    (ht : t.head? ≠ some (.scalar '/')) : Path.anchor (a.slashes ++ t) = a := by
  cases t with
  | nil =>
    cases a with
    | relative => exact absurd rfl ha
    | root => rfl
    | doubleRoot => rfl
  | cons x t =>
    have hx : x ≠ .scalar '/' := by simpa using ht
    cases a with
    | relative => exact absurd rfl ha
    | root => simp [Anchor.slashes, Path.anchor, hx]
    | doubleRoot => simp [Anchor.slashes, Path.anchor, hx]

namespace Path

variable {p q : Text}

theorem isAbsolute_of_not_mem (h : Symbol.scalar '/' ∉ p) : isAbsolute p = false := by
  rw [isAbsolute, decide_eq_false_iff_not]
  exact fun hhead => h (List.mem_of_mem_head? hhead)

theorem ne_nil_of_isAbsolute (h : isAbsolute p = true) : p ≠ [] := by
  rintro rfl
  cases h

/-- The anchor shows in the first three symbols of a path. -/
theorem anchor_append_of_length (h : 3 ≤ p.length) (q : Text) : anchor (p ++ q) = anchor p := by
  match p, h with
  | a :: b :: c :: p, _ =>
    by_cases ha : a = .scalar '/' <;> by_cases hb : b = .scalar '/' <;>
      by_cases hc : c = .scalar '/' <;> simp [anchor, ha, hb, hc]

/-- What is put behind an absolute path that is no root does not change its anchor. -/
theorem anchor_append_slash (habs : isAbsolute p = true) (hroot : ¬ IsRoot p) (q : Text) :
    anchor (p ++ .scalar '/' :: q) = anchor p := by
  match p with
  | [] => cases habs
  | [a] =>
    obtain rfl : a = .scalar '/' := by simpa [isAbsolute] using habs
    exact absurd (.inl rfl) hroot
  | [a, b] =>
    obtain rfl : a = .scalar '/' := by simpa [isAbsolute] using habs
    have hb : b ≠ .scalar '/' := fun h => hroot (.inr (by rw [h]))
    simp [anchor, hb]
  | a :: b :: c :: p => exact anchor_append_of_length (by simp) _

theorem isRoot_iff : IsRoot p ↔ ∃ a : Anchor, a ≠ .relative ∧ p = a.slashes := by
  constructor
  · rintro (rfl | rfl)
    · exact ⟨.root, by simp, rfl⟩
    · exact ⟨.doubleRoot, by simp, rfl⟩
  · rintro ⟨a, ha, rfl⟩
    cases a with
    | relative => exact absurd rfl ha
    | root => exact .inl rfl
    | doubleRoot => exact .inr rfl

theorem head?_ne_slash (h : isAbsolute q = false) : q.head? ≠ some (.scalar '/') := by
  simpa [isAbsolute] using h

/-- A relative path seen from a root is put right behind it. -/
theorem join_root (hp : IsRoot p) (hq : isAbsolute q = false) : join p q = p ++ q := by
  unfold join
  rw [if_neg (by simp [hq])]
  rcases hp with rfl | rfl
  · exact if_pos (.inr rfl)
  · exact if_pos (.inr rfl)

/-- An absolute path with a slash at its end is a root or not that short. -/
theorem length_of_getLast? (hp : isAbsolute p = true) (hroot : ¬ IsRoot p)
    (hend : p.getLast? = some (.scalar '/')) : 3 ≤ p.length := by
  match p with
  | [] => cases hp
  | [a] =>
    obtain rfl : a = .scalar '/' := by simpa [isAbsolute] using hp
    exact absurd (.inl rfl) hroot
  | [a, b] =>
    obtain rfl : a = .scalar '/' := by simpa [isAbsolute] using hp
    obtain rfl : b = .scalar '/' := by simpa using hend
    exact absurd (.inr rfl) hroot
  | _ :: _ :: _ :: _ => simp

/-- A relative path is seen from an absolute one with the same anchor. -/
theorem anchor_join (hp : isAbsolute p = true) (hq : isAbsolute q = false) :
    anchor (join p q) = anchor p := by
  by_cases hroot : IsRoot p
  · rw [join_root hroot hq]
    obtain ⟨a, ha, rfl⟩ := isRoot_iff.1 hroot
    rw [Spelling.anchor_slashes_append ha (head?_ne_slash hq)]
    cases a <;> rfl
  · unfold join
    rw [if_neg (by simp [hq])]
    split
    · next hend =>
      have hend' := hend.resolve_left (ne_nil_of_isAbsolute hp)
      exact anchor_append_of_length (length_of_getLast? hp hroot hend') q
    · exact anchor_append_slash hp hroot q

end Path

/-- **The spelling of a relative path seen from an absolute one** goes on with its parts. -/
theorem Spelling.ofText_join_relative {p q : Text} (hp : Path.isAbsolute p = true)
    (hq : Path.isAbsolute q = false) :
    ofText (Path.join p q) = (ofText p).append (ofText q).parts := by
  have hanchor : (ofText (Path.join p q)).anchor = (ofText p).anchor := Path.anchor_join hp hq
  have hparts := parts_join_relative (Path.ne_nil_of_isAbsolute hp) hq
  rw [append, ← hanchor, ← hparts]

end FileShell
