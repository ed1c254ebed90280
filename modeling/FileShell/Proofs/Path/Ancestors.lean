import FileShell.Proofs.Path.Joined

/-!
# Ancestors

Of normalized absolute paths one is an ancestor of another if its components begin those of the
other.  The guard of the working directory does not compare components: it writes down what the two
paths start with in common and compares the text with the first path, letter by letter.  For a path
with a single slash at its start this comes to the same, also if the working directory starts with
two; for a path with two it does not, since what is written down starts with one.

* `Path.components`: what stands between the slashes of a path.
* `Spelling.IsClean.components_toText`: the components of a clean path are its parts.
* `Path.IsSingleRooted`: absolute normalized paths that start with one slash.
* `Session.standsIn_iff_isPrefix`: what the guard compares, by components.
* `Session.standsIn_iff_ancestor`: **the guard's comparison is the ancestor relation.**
-/

namespace FileShell

namespace Path

variable {p q t : Text}

/-- The components of a path: what stands between its slashes, as far as anything stands there. -/
def components (p : Text) : List Text := (cutAt (.scalar '/') p).filter (· ≠ [])

theorem components_append_slash (p q : Text) :
    components (p ++ .scalar '/' :: q) = components p ++ components q := by
  rw [components, cutAt_append_separator, List.filter_append]
  rfl

theorem components_singleton (hne : t ≠ []) (hslash : Symbol.scalar '/' ∉ t) :
    components t = [t] := by
  simp [components, cutAt_of_not_mem hslash, hne]

end Path

namespace Spelling

variable {s : Spelling}

/-- The components of a clean path are its parts. -/
theorem IsClean.components_toText (hs : s.IsClean) : Path.components s.toText = s.parts := by
  have hjoined : Path.components (joinWith [.scalar '/'] s.parts) = s.parts := by
    by_cases hp : s.parts = []
    · simp [hp, Path.components, joinWith, cutAt]
    · rw [Path.components, cutAt_joinWith hp fun t ht => (hs.slashFree t ht).2,
        List.filter_eq_self]
      exact fun t ht => decide_eq_true (hs.slashFree t ht).1
  have hslashes : ∀ t, Path.components (s.anchor.slashes ++ t) = Path.components t := by
    intro t
    cases s.anchor <;> simp [Anchor.slashes, Path.components, cutAt]
  rw [hs.toText_eq, hslashes, hjoined]

/-- A clean path starts with two slashes or with one. -/
theorem IsClean.anchor_eq_root_iff (hs : s.IsClean) :
    s.anchor = .root ↔ ¬ Anchor.doubleRoot.slashes <+: s.toText := by
  rw [hs.toText_eq]
  cases hanchor : s.anchor with
  | relative => exact absurd hanchor hs.anchored
  | doubleRoot => simp
  | root =>
    rcases hs.joined_cases with ⟨hjoined, -⟩ | ⟨a, more, hjoined, ha⟩
    · simp [hjoined, Anchor.slashes]
    · simp [hjoined, Anchor.slashes, ha.symm]

/-- A path with letters put behind its last component names no ancestor of the longer path. -/
theorem IsClean.not_components_isPrefix (hs : s.IsClean) (hparts : s.parts ≠ []) {name : Text}
    (hname : name ≠ []) (hslash : Symbol.scalar '/' ∉ name) :
    ¬ Path.components s.toText <+: Path.components (s.toText ++ name) := by
  have hlast := hs.slashFree _ (List.getLast_mem hparts)
  obtain ⟨before, hsplit⟩ := hs.parent.exists_slash_last (s.parts.getLast hparts)
  rw [← eq_append_parent hparts] at hsplit
  have hlonger : Symbol.scalar '/' ∉ s.parts.getLast hparts ++ name := by
    rw [List.mem_append]
    exact fun h => h.elim hlast.2 hslash
  rw [hsplit, List.append_assoc, List.cons_append, Path.components_append_slash,
    Path.components_append_slash, Path.components_singleton hlast.1 hlast.2,
    Path.components_singleton (by simp [hname]) hlonger, List.prefix_append_right_inj,
    List.cons_prefix_cons]
  rintro ⟨hsame, -⟩
  exact hname (List.self_eq_append_right.1 hsame)

end Spelling

/-- The path is absolute and normalized, and starts with one slash and not with two. -/
def Path.IsSingleRooted (p : Text) : Prop :=
  isAbsolute p = true ∧ normalize p = p ∧ ¬ Text.ofString "//" <+: p

instance (p : Text) : Decidable (Path.IsSingleRooted p) := inferInstanceAs (Decidable (_ ∧ _))

theorem Path.IsSingleRooted.exists_clean {p : Text} (h : IsSingleRooted p) :
    ∃ u : Spelling, u.IsClean ∧ u.anchor = .root ∧ p = u.toText := by
  obtain ⟨habs, hnormal, hsingle⟩ := h
  obtain ⟨u, hu, rfl⟩ := exists_clean_iff.2 ⟨habs, hnormal⟩
  exact ⟨u, hu, hu.anchor_eq_root_iff.2 hsingle, rfl⟩

namespace Session

variable {s : Session} {p : Text}

/-- A path with a single slash at its start is compared by its components. -/
theorem standsIn_iff_isPrefix (hcwd : Path.isAbsolute s.cwd = true)
    (hnormal : Path.normalize s.cwd = s.cwd) (hp : Path.IsSingleRooted p) :
    s.standsIn p = true ↔ Path.components p <+: Path.components s.cwd := by
  obtain ⟨c, hc, hcwdText⟩ := Path.exists_clean_iff.2 ⟨hcwd, hnormal⟩
  obtain ⟨u, hu, hanchor, rfl⟩ := hp.exists_clean
  rw [standsIn, Spelling.isAtOrAbove_iff hu hcwd, hcwdText, Spelling.ofText_toText hc,
    hu.components_toText, hc.components_toText]
  exact and_iff_right hanchor

/-- **The guard's comparison is the ancestor relation.**  If the working directory is absolute and
normalized, a normalized path with a single slash at its start holds it exactly if the components of
the path begin those of the working directory.  So the root always does, and the working directory
itself if it starts with a single slash; a path that the working directory goes on from within a
component does not. -/
theorem standsIn_iff_ancestor (hcwd : Path.isAbsolute s.cwd = true)
    (hnormal : Path.normalize s.cwd = s.cwd) :
    (∀ p, Path.IsSingleRooted p →
        (s.standsIn p = true ↔ Path.components p <+: Path.components s.cwd)) ∧
      s.standsIn "/" = true ∧
      (Path.IsSingleRooted s.cwd → s.standsIn s.cwd = true) ∧
      ∀ p name, Path.IsSingleRooted p → p ≠ "/" → name ≠ [] → Symbol.scalar '/' ∉ name →
        s.cwd = p ++ name → s.standsIn p = false := by
  refine ⟨fun p hp => standsIn_iff_isPrefix hcwd hnormal hp, ?_, ?_, ?_⟩
  · apply (standsIn_iff_isPrefix hcwd hnormal (by decide)).2
    exact List.nil_prefix
  · intro hsingle
    apply (standsIn_iff_isPrefix hcwd hnormal hsingle).2
    exact List.prefix_refl _
  · intro p name hp hroot hname hslash hlonger
    rw [Bool.eq_false_iff, Ne, standsIn_iff_isPrefix hcwd hnormal hp, hlonger]
    obtain ⟨u, hu, -, rfl⟩ := hp.exists_clean
    apply hu.not_components_isPrefix _ hname hslash
    intro hparts
    rcases hu.isRoot_toText.2 hparts with h | h
    · exact hroot h
    · exact hp.2.2 (h ▸ List.prefix_refl _)

/-- A neighbour with a shorter name is no ancestor, and a second slash at the start of the working
directory hides none of its ancestors. -/
theorem standsIn_iff_ancestor_doubled :
    let s : Session := ⟨"/w/ab", "/"⟩
    let d : Session := ⟨"//w/ab", "/"⟩
    (Path.isAbsolute s.cwd = true ∧ Path.normalize s.cwd = s.cwd ∧ s.standsIn "/w/a" = false) ∧
      Path.isAbsolute d.cwd = true ∧ Path.normalize d.cwd = d.cwd ∧ d.standsIn "/w" = true ∧
      d.standsIn "/w/ab" = true ∧ d.standsIn "/w/a" = false ∧ d.standsIn d.cwd = false := by
  intro s d
  have hs : Path.isAbsolute s.cwd = true ∧ Path.normalize s.cwd = s.cwd := by decide +kernel
  have hd : Path.isAbsolute d.cwd = true ∧ Path.normalize d.cwd = d.cwd := by decide +kernel
  have hbeside := (standsIn_iff_ancestor hs.1 hs.2).2.2.2 "/w/a" "b" (by decide +kernel)
    (by decide) (by decide) (by decide) (by decide)
  have habove := (standsIn_iff_ancestor hd.1 hd.2).1
  refine ⟨⟨hs.1, hs.2, hbeside⟩, hd.1, hd.2, ?_, ?_, ?_, by decide +kernel⟩
  · exact (habove "/w" (by decide +kernel)).2 (by decide +kernel)
  · exact (habove "/w/ab" (by decide +kernel)).2 (by decide +kernel)
  · rw [Bool.eq_false_iff, Ne, habove "/w/a" (by decide +kernel)]
    decide +kernel

end Session

end FileShell
