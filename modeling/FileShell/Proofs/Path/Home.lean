import FileShell.Proofs.Path.Joined

/-!
# Paths from the home directory

A token that starts with a tilde and a slash is seen from the home directory: what stands behind is
put after the home directory with one slash between the two.  The working directory plays no part,
and without a step up the path is the home directory or lies below it.  This is about tokens with a
relative path behind the tilde and its slash.

* `Path.normalize_append_slash`, `normalize_root_append_slash`: where a second slash makes a
  difference.
* `Path.resolve_tilde`: the path of a token that starts with a tilde and a slash.
-/

namespace FileShell

namespace Spelling

variable {s : Spelling}

/-- Parts that do not go up are left as they are. -/
theorem reduce_append (hs : s.anchor ≠ .relative) {ts : List Text} (h : ∀ t ∈ ts, t ≠ Path.up) :
    (s.append ts).reduce = s.reduce.append ts := by
  simp only [reduce, append, anchored_beq hs, List.foldl_append, foldl_push_of_parts h,
    List.reverse_append, List.reverse_reverse]

end Spelling

namespace Path

variable {home rest : Text}

/-- Behind a home directory that is no root it does not matter if there is one slash or two. -/
theorem normalize_append_slash (hhome : isAbsolute home = true) (hroot : ¬ IsRoot home)
    (hrest : isAbsolute rest = false) :
    normalize (home ++ .scalar '/' :: rest) = normalize (join home rest) := by
  have hspelling : Spelling.ofText (home ++ .scalar '/' :: rest) =
      Spelling.ofText (join home rest) := by
    rw [Spelling.ofText_join_relative hhome hrest, Spelling.append, ← Spelling.parts_append_slash]
    exact congrArg (Spelling.mk · _) (anchor_append_slash hhome hroot rest)
  rw [normalize, hspelling, normalize]

/-- Behind a root it does: a second slash makes one root the other. -/
theorem normalize_root_append_slash (hroot : IsRoot home) (hrest : isAbsolute rest = false) :
    normalize (home ++ rest) ≠ normalize (home ++ .scalar '/' :: rest) := by
  have hhead := head?_ne_slash hrest
  have habs : ∀ more, isAbsolute (home ++ more) = true := by
    intro more
    rcases hroot with rfl | rfl <;> rfl
  have hone : anchor (.scalar '/' :: rest) = .root :=
    Spelling.anchor_slashes_append (a := .root) (by simp) hhead
  have htwo : anchor (.scalar '/' :: .scalar '/' :: rest) = .doubleRoot :=
    Spelling.anchor_slashes_append (a := .doubleRoot) (by simp) hhead
  intro h
  -- normalized paths that are the same have the same anchor
  have hspelling := Spelling.toText_injective (Spelling.reduce_isClean (habs rest))
    (Spelling.reduce_isClean (habs _)) h
  have hanchor : anchor (home ++ rest) = anchor (home ++ .scalar '/' :: rest) :=
    congrArg Spelling.anchor hspelling
  rcases hroot with rfl | rfl
  · cases hone.symm.trans (hanchor.trans htwo)
  · cases htwo.symm.trans hanchor

/-- **The path of a token that starts with a tilde and a slash.**  It is the rest of the token put
behind the home directory, with a slash between them unless the home directory is a root and has
one already.  It is the same wherever the shell stands, and without a step up its parts are those of
the home directory and then those of the rest. -/
theorem resolve_tilde (hhome : isAbsolute home = true) (hrest : isAbsolute rest = false)
    (cwd : Text) :
    let path := resolve (tilde ++ .scalar '/' :: rest) cwd home
    (path = normalize (home ++ .scalar '/' :: rest) ↔ ¬ IsRoot home) ∧
      (IsRoot home → path = normalize (home ++ rest)) ∧
      (up ∉ (Spelling.ofText rest).parts → Spelling.ofText path =
        (Spelling.ofText (normalize home)).append (Spelling.ofText rest).parts) := by
  intro path
  have hpath : path = normalize (join home rest) := by
    show resolve (.scalar '~' :: .scalar '/' :: rest) cwd home = _
    unfold resolve
    rw [if_neg (by simp [tilde])]
    simp only [isAbsolute_join hhome, if_true]
  refine ⟨⟨?_, ?_⟩, ?_, ?_⟩
  · intro h hroot
    rw [hpath, join_root hroot hrest] at h
    exact normalize_root_append_slash hroot hrest h
  · intro hroot
    rw [hpath, normalize_append_slash hhome hroot hrest]
  · intro hroot
    rw [hpath, join_root hroot hrest]
  · intro hup
    have hnoup : ∀ t ∈ (Spelling.ofText rest).parts, t ≠ up := fun t ht h => hup (h ▸ ht)
    rw [hpath, normalize, normalize, Spelling.ofText_toText (Spelling.reduce_isClean hhome),
      Spelling.ofText_toText (Spelling.reduce_isClean (isAbsolute_join hhome)),
      Spelling.ofText_join_relative hhome hrest,
      Spelling.reduce_append (Spelling.anchor_ne_relative hhome) hnoup]

/-- A home directory at a root has its slash already, so that a second one would make another path;
and a slash of its own takes the rest away from the home directory. -/
theorem resolve_tilde_slashes :
    let cwd : Text := "/w"
    isAbsolute cwd = true ∧ isAbsolute "/" = true ∧ isAbsolute "/h" = true ∧
      resolve (tilde ++ .scalar '/' :: Text.ofString "x") cwd "/" = "/x" ∧
      normalize (Text.ofString "/" ++ .scalar '/' :: Text.ofString "x") = "//x" ∧
      resolve (tilde ++ .scalar '/' :: Text.ofString "/x") cwd "/h" = "/x" ∧
      normalize (Text.ofString "/h" ++ .scalar '/' :: Text.ofString "/x") = "/h/x" := by
  decide +kernel

/-- The rest of the token may have redundant slashes and dots. -/
theorem resolve_tilde_below_home :
    let home : Text := "/h/"
    let rest : Text := ".//a/b/"
    let path := resolve (tilde ++ .scalar '/' :: rest) "/w" home
    isAbsolute home = true ∧ isAbsolute rest = false ∧ path = "/h/a/b" ∧
      path = normalize (home ++ .scalar '/' :: rest) ∧
      Spelling.ofText path = (Spelling.ofText (normalize home)).append (["a", "b"] : List Text) := by
  intro home rest path
  have hhome : isAbsolute home = true := by decide +kernel
  have hrest : isAbsolute rest = false := by decide +kernel
  have hparts : (Spelling.ofText rest).parts = (["a", "b"] : List Text) := by decide +kernel
  have hspec := resolve_tilde hhome hrest "/w"
  rw [hparts] at hspec
  exact ⟨hhome, hrest, by decide +kernel, hspec.1.2 (by decide +kernel),
    hspec.2.2 (by decide +kernel)⟩

end Path

end FileShell
