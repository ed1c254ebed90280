import FileShell.Proofs.Path.Joined

/-!
# Canonical paths

A path is *canonical* if it starts with one slash or with two and, unless that is all of it, goes on
with parts between single slashes, none of them empty, `.` or `..`, and does not end in a slash.
This is said of the text alone.  The canonical paths are the absolute paths that are normalized
already, so what a token names is canonical, however the token, the working directory and the home
directory are written, and names itself wherever it is typed.

* `Path.IsCanonical`, `Path.isCanonical_toText`: canonical paths, and the texts of clean spellings.
* `Path.isCanonical_iff`: a path is canonical if it is absolute and normalized, and only then.
* `Path.canonical_resolve`: what a token names.
-/

namespace FileShell

namespace Path

/-- The path starts with one slash or with two, and unless it is a root the parts behind are not
empty and no steps, and no slash stands at its end. -/
structure IsCanonical (p : Text) : Prop where
  root : IsRoot (p.takeWhile (· = .scalar '/'))
  parts : ¬ IsRoot p → ∀ t ∈ cutAt (.scalar '/') (p.dropWhile (· = .scalar '/')),
    t ≠ [] ∧ t ≠ here ∧ t ≠ up
  trailing : ¬ IsRoot p → p.getLast? ≠ some (.scalar '/')

/-- The slashes of an anchor are what the path starts with. -/
theorem span_slashes {a : Anchor} {t : Text} (ht : t.head? ≠ some (.scalar '/')) :
    (a.slashes ++ t).takeWhile (· = .scalar '/') = a.slashes ∧
      (a.slashes ++ t).dropWhile (· = .scalar '/') = t := by
  have hslashes : ∀ x ∈ a.slashes, decide (x = .scalar '/') = true := by
    cases a <;> simp [Anchor.slashes]
  rw [List.takeWhile_append_of_pos hslashes, List.dropWhile_append_of_pos hslashes]
  cases t with
  | nil => simp
  | cons x t =>
    have hx : x ≠ .scalar '/' := by simpa using ht
    simp [hx]

variable {s : Spelling} {p : Text}

theorem isCanonical_toText (hs : s.IsClean) : IsCanonical s.toText := by
  have hhead : (joinWith [Symbol.scalar '/'] s.parts).head? ≠ some (.scalar '/') := by
    rcases hs.joined_cases with ⟨h, -⟩ | ⟨a, more, h, ha⟩
    · simp [h]
    · simp [h, ha]
  obtain ⟨htake, hdrop⟩ := span_slashes (a := s.anchor) hhead
  rw [← hs.toText_eq] at htake hdrop
  refine ⟨?_, ?_, ?_⟩
  · rw [htake]
    exact isRoot_iff.2 ⟨s.anchor, hs.anchored, rfl⟩
  · intro hroot t ht
    have hparts : s.parts ≠ [] := fun h => hroot (hs.isRoot_toText.2 h)
    rw [hdrop, cutAt_joinWith hparts fun x hx => (hs.slashFree x hx).2] at ht
    have hpart := hs.isPart t ht
    exact ⟨hpart.1, hpart.2.1, hpart.2.2.1⟩
  · intro hroot hend
    exact hroot (hs.isRoot_toText.2 (hs.getLast?_toText.1 hend))

theorem IsCanonical.exists_clean (h : IsCanonical p) : ∃ s : Spelling, s.IsClean ∧ p = s.toText := by
  obtain ⟨a, ha, hslashes⟩ := isRoot_iff.1 h.root
  by_cases hroot : IsRoot p
  · obtain ⟨b, hb, rfl⟩ := isRoot_iff.1 hroot
    have hclean : (⟨b, []⟩ : Spelling).IsClean := ⟨hb, by simp⟩
    exact ⟨⟨b, []⟩, hclean, by rw [hclean.toText_eq]; simp [joinWith]⟩
  · have hclean : (⟨a, cutAt (.scalar '/') (p.dropWhile (· = .scalar '/'))⟩ : Spelling).IsClean := by
      refine ⟨ha, ?_⟩
      intro t ht
      obtain ⟨hne, hhere, hup⟩ := h.parts hroot t ht
      exact ⟨hne, hhere, hup, not_mem_of_mem_cutAt ht⟩
    refine ⟨_, hclean, ?_⟩
    rw [hclean.toText_eq, joinWith_cutAt, ← hslashes, List.takeWhile_append_dropWhile]

/-- **The canonical paths are the absolute paths that are normalized already.** -/
theorem isCanonical_iff : IsCanonical p ↔ isAbsolute p = true ∧ normalize p = p := by
  rw [← exists_clean_iff]
  constructor
  · exact IsCanonical.exists_clean
  · rintro ⟨s, hs, rfl⟩
    exact isCanonical_toText hs

/-- **What a token names is canonical**, if the working directory and the home directory are
absolute; it is normalized, and typed as a token it names itself, wherever the shell stands. -/
theorem canonical_resolve (token : Text) {cwd home : Text} (hcwd : isAbsolute cwd = true)
    (hhome : isAbsolute home = true) :
    let path := resolve token cwd home
    IsCanonical path ∧ normalize path = path ∧
      ∀ elsewhere dwelling, resolve path elsewhere dwelling = path := by
  intro path
  obtain ⟨s, hs, hpath⟩ := exists_clean_resolve token hcwd hhome
  have hcanonical : IsCanonical path := by
    rw [show path = s.toText from hpath]
    exact isCanonical_toText hs
  refine ⟨hcanonical, (isCanonical_iff.1 hcanonical).2, ?_⟩
  intro elsewhere dwelling
  rw [show path = s.toText from hpath]
  exact resolve_toText hs elsewhere dwelling

/-- A home directory with two slashes keeps them, and a step up from the root stays there. -/
theorem canonical_resolve_past_root :
    let token : Text := "~/../../x//./y/"
    isAbsolute "///w" = true ∧ isAbsolute "//h/" = true ∧
      resolve token "///w" "//h/" = "//x/y" ∧ IsCanonical "//x/y" ∧
      normalize "//x/y" = "//x/y" ∧ resolve "//x/y" "/w" "/h" = "//x/y" := by
  intro token
  have hcwd : isAbsolute "///w" = true := by decide +kernel
  have hhome : isAbsolute "//h/" = true := by decide +kernel
  have hpath : resolve token "///w" "//h/" = "//x/y" := by decide +kernel
  have hspec := canonical_resolve token hcwd hhome
  rw [hpath] at hspec
  exact ⟨hcwd, hhome, hpath, hspec.1, hspec.2.1, hspec.2.2 "/w" "/h"⟩

end Path

end FileShell
