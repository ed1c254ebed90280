import FileShell.Proofs.Path.Joined

/-!
# Step by step or at once

A token that neither starts with a slash nor stands for the home directory is seen from the working
directory.  What it names depends on its parts alone, and two such tokens seen one after the other,
the second from what the first names, name what the two with a slash between them name at once: what
is cancelled on the way to the first need not be kept for the second.

* `Path.IsLocal`: the tokens that are seen from the working directory.
* `Spelling.reduce_reduce_append`: steps may be cancelled in between.
* `Path.resolve_eq_reduce`: what such a token names, by its parts.
* `Path.resolve_resolve_local`: two tokens one after the other, and at once.
-/

namespace FileShell

namespace Spelling

variable {s : Spelling}

/-- **Steps may be cancelled before more parts are put at the end.** -/
theorem reduce_reduce_append (hs : s.reduce.IsClean) (ts : List Text) :
    (s.reduce.append ts).reduce = (s.append ts).reduce := by
  have hanchored : (s.anchor != .relative) = true := anchored_beq hs.anchored
  have hkept : ∀ t ∈ (s.parts.foldl (push true) []).reverse, t ≠ Path.up := by
    intro t ht
    rw [← hanchored] at ht
    exact (hs.isPart t ht).2.2.1
  -- what is left has no step up, so it makes the stack that it came from
  have hstack : (s.parts.foldl (push true) []).reverse.foldl (push true) [] =
      s.parts.foldl (push true) [] := by
    rw [foldl_push_of_parts hkept, List.reverse_reverse, List.append_nil]
  simp only [reduce, append, hanchored, List.foldl_append, hstack]

end Spelling

namespace Path

variable {a b token cwd : Text}

/-- The token is seen from the working directory: it does not start with a slash, and is neither the
tilde nor starts with a tilde and a slash. -/
def IsLocal (token : Text) : Prop :=
  isAbsolute token = false ∧ token ≠ tilde ∧ ¬ (tilde ++ [.scalar '/']) <+: token

instance (token : Text) : Decidable (IsLocal token) :=
  inferInstanceAs (Decidable (_ ∧ _ ∧ _))

theorem resolve_of_isLocal (h : IsLocal token) (cwd home : Text) :
    resolve token cwd home = normalize (join cwd token) := by
  obtain ⟨hrelative, htilde, hstart⟩ := h
  unfold resolve
  rw [if_neg htilde]
  dsimp only
  split
  · next rest => exact absurd (List.prefix_append _ rest) hstart
  · rw [if_neg (by simp [hrelative])]

/-- A part that is not the tilde is seen from the working directory. -/
theorem IsPart.isLocal (h : IsPart token) (htilde : token ≠ tilde) : IsLocal token := by
  refine ⟨isAbsolute_of_not_mem h.2.2.2, htilde, ?_⟩
  intro hstart
  exact h.2.2.2 (hstart.subset (by simp))

/-- A part that is not the tilde is put at the end of the working directory. -/
theorem resolve_part {s : Spelling} (hs : s.IsClean) (h : IsPart token) (htilde : token ≠ tilde)
    (home : Text) : resolve token s.toText home = (s.append [token]).toText := by
  rw [resolve_of_isLocal (h.isLocal htilde), Spelling.join_toText hs h,
    normalize_toText (hs.append_singleton h)]

/-- **What a token names depends on its parts alone**, if it is seen from the working directory. -/
theorem resolve_eq_reduce (hcwd : isAbsolute cwd = true) (h : IsLocal token) (home : Text) :
    resolve token cwd home =
      ((Spelling.ofText cwd).append (Spelling.ofText token).parts).reduce.toText := by
  rw [resolve_of_isLocal h, normalize, Spelling.ofText_join_relative hcwd h.1]

/-- With more behind it, a token is still seen from the working directory. -/
theorem IsLocal.append_slash (ha : IsLocal a) (hne : a ≠ []) (b : Text) :
    IsLocal (a ++ .scalar '/' :: b) := by
  obtain ⟨hrelative, htilde, hstart⟩ := ha
  match a, hne with
  | [x], _ =>
    have hx : x ≠ .scalar '~' := fun h => htilde (by rw [h]; rfl)
    have hslash : x ≠ .scalar '/' := by simpa [isAbsolute] using hrelative
    simp [IsLocal, isAbsolute, tilde, hslash, Ne.symm hx]
  | x :: y :: more, _ =>
    have hslash : x ≠ .scalar '/' := by simpa [isAbsolute] using hrelative
    have hhead : ¬ (Symbol.scalar '~' = x ∧ Symbol.scalar '/' = y) := by
      simpa [tilde] using hstart
    simpa [IsLocal, isAbsolute, tilde, hslash] using hhead

/-- **Step by step or at once**: a token seen from what another one names, and the two with a slash
between them. -/
theorem resolve_resolve_local (hcwd : isAbsolute cwd = true) (ha : IsLocal a) (hne : a ≠ [])
    (hb : IsLocal b) (home : Text) :
    resolve b (resolve a cwd home) home = resolve (a ++ .scalar '/' :: b) cwd home := by
  have hclean : (Spelling.ofText (join cwd a)).reduce.IsClean :=
    Spelling.reduce_isClean (isAbsolute_join hcwd)
  have hfirst : resolve a cwd home = (Spelling.ofText (join cwd a)).reduce.toText :=
    resolve_of_isLocal ha cwd home
  calc resolve b (resolve a cwd home) home
      = ((Spelling.ofText (join cwd a)).reduce.append (Spelling.ofText b).parts).reduce.toText := by
        rw [hfirst, resolve_eq_reduce hclean.isAbsolute_toText hb, Spelling.ofText_toText hclean]
    _ = ((Spelling.ofText (join cwd a)).append (Spelling.ofText b).parts).reduce.toText := by
        rw [Spelling.reduce_reduce_append hclean]
    _ = ((Spelling.ofText cwd).append
          (Spelling.ofText (a ++ .scalar '/' :: b)).parts).reduce.toText := by
        rw [Spelling.ofText_join_relative hcwd ha.1, Spelling.parts_append_slash, Spelling.append,
          Spelling.append, Spelling.append, List.append_assoc]
    _ = resolve (a ++ .scalar '/' :: b) cwd home := by
        rw [resolve_eq_reduce hcwd (ha.append_slash hne b)]

end Path

end FileShell
