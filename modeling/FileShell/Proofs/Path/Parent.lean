import FileShell.Proofs.FileSystem.Named
import FileShell.Proofs.Path.Joined

/-!
# One step up

There are two ways from a directory to the one above: the parent of its path, which is what stands
before the last slash, and the path that `..` names there, which is the path with a step up put at
its end and cancelled again.  For clean paths both are the path without its last part; the root is
above itself, and has no parent.  Where a path leads to a directory, so does the path above.

* `Spelling.ofText_join`: the spelling of a path with a part put at its end, be it a step up.
* `Path.resolve_up`, `Path.parent?_toText`: the two ways up.
* `FileSystem.Leads.exists_parent`: the directory above is there.
-/

namespace FileShell

namespace Spelling

variable {s : Spelling} {t : Text}

/-- The root is above itself. -/
theorem parent_eq_self (h : s.parts = []) : s.parent = s := by
  cases s
  cases h
  rfl

/-- **A part put at the end of a clean path is put at the end of its spelling**, also a step up. -/
theorem ofText_join (hs : s.IsClean) (hne : t ≠ []) (hhere : t ≠ Path.here)
    (hslash : Symbol.scalar '/' ∉ t) : ofText (Path.join s.toText t) = s.append [t] := by
  rw [ofText_join_relative hs.isAbsolute_toText (Path.isAbsolute_of_not_mem hslash),
    ofText_toText hs, parts_singleton hne hhere hslash]

end Spelling

namespace Path

variable {s : Spelling} (hs : s.IsClean)

include hs

/-- **What `..` names is the path without its last part.** -/
theorem resolve_up (home : Text) : resolve up s.toText home = s.parent.toText := by
  have hjoin : Spelling.ofText (join s.toText up) = s.append [up] :=
    Spelling.ofText_join hs (by decide) (by decide) (by decide)
  have hreduce : (s.append [up]).reduce = s.parent := by
    -- the step up takes the last part from the stack
    have hpush : (s.parts ++ [up]).foldl (Spelling.push true) [] = s.parts.reverse.tail := by
      rw [List.foldl_append,
        Spelling.foldl_push_of_parts fun t ht => (hs.isPart t ht).2.2.1, List.append_nil]
      cases hstack : s.parts.reverse with
      | nil => rfl
      | cons top below =>
        have htop : IsPart top := hs.isPart top (List.mem_reverse.1 (hstack ▸ List.mem_cons_self))
        simp [Spelling.push, htop.2.2.1]
    rw [Spelling.reduce, Spelling.append, Spelling.anchored_beq hs.anchored, hpush,
      Spelling.parent, List.tail_reverse, List.reverse_reverse]
  show normalize (join s.toText up) = _
  rw [normalize, hjoin, hreduce]

/-- **The parent of a path is the path without its last part**, and a root has none. -/
theorem parent?_toText :
    parent? s.toText = if s.parts = [] then none else some s.parent.toText := by
  rw [parent?, normalize_toText hs]
  by_cases hp : s.parts = []
  · have hroot : directory s.toText = s.toText := by
      rw [hs.toText_eq, hp]
      cases hanchor : s.anchor with
      | relative => exact absurd hanchor hs.anchored
      | root => rfl
      | doubleRoot => rfl
    rw [if_pos hp]
    simp only [hroot, or_true, if_true]
  · have habove : directory s.toText = s.parent.toText :=
      Spelling.directory_toText_parent hs hp
    have hshorter : s.parent.toText ≠ s.toText := by
      intro h
      have hparts := congrArg Spelling.parts (Spelling.toText_injective hs.parent hs h)
      have hlength := congrArg List.length hparts
      rw [Spelling.parent, List.length_dropLast] at hlength
      have hpos := List.length_pos_iff.2 hp
      omega
    rw [if_neg hp]
    simp only [habove, hs.parent.toText_ne_nil, hshorter, or_self, if_false]

end Path

/-- **Above a directory there is a directory**, by the text of its path as well. -/
theorem FileSystem.Leads.exists_parent {fs : FileSystem} {s : Spelling} {d : Location}
    (hs : s.IsClean) (h : fs.Leads s.toText d) : ∃ e, fs.Leads s.parent.toText e := by
  rcases FileSystem.approach_cases hs (FileSystem.found?_eq_some_iff.1 h) with
    hp | ⟨u, t, left, e, n, hu, -, rfl, happroach⟩
  · exact ⟨d, (Spelling.parent_eq_self hp).symm ▸ h⟩
  · have hparent : (u.append [t]).parent = u := by
      simp [Spelling.parent, Spelling.append]
    exact ⟨e, hparent.symm ▸ happroach.leads hu⟩

end FileShell
