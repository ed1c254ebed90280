import FileShell.Proofs.FileSystem.Named
import FileShell.Proofs.Path.Joined

/-!
# Ways that are spelled otherwise

Dots and repeated slashes do not change where a path leads, and neither does a second slash at its
start.  So an absolute path without steps up leads to the same directory as the clean path with its
parts, which may be the path's normal form or not.

* `FileSystem.Enters.undotted`: a way without the steps that stay.
* `Path.encode_parts`: the parts of a path are the steps of its route, without those that stay.
* `FileSystem.Leads.respelled`: **a clean path with the same parts leads to the same directory.**
-/

namespace FileShell

/-! ## Routes -/

namespace Path

/-- The stretches of a path are the stretches of its bytes. -/
theorem encode_cutAt {path : Text} {b : Bytes} (h : path.encode = .ok b) :
    (cutAt (.scalar '/') path).map Text.encode = (cutAt slashByte b).map Except.ok := by
  have hjoined := h
  rw [← joinWith_cutAt (Symbol.scalar '/') path] at hjoined
  obtain ⟨bs, hbs, rfl⟩ := Text.encode_joinWith hjoined
  have hne : bs ≠ [] := by
    rintro rfl
    exact cutAt_ne_nil _ path (List.map_eq_nil_iff.1 hbs)
  have hfree : ∀ c ∈ bs, slashByte ∉ c := by
    intro c hc
    obtain ⟨t, ht, htc⟩ := Text.mem_of_map_encode hbs hc
    rw [Text.slashByte_mem_iff htc]
    exact not_mem_of_mem_cutAt ht
  rw [hbs, cutAt_joinWith hne hfree]

/-- **The parts of a path are the steps of its route**, without those that stay. -/
theorem encode_parts {path : Text} {b : Bytes} (h : path.encode = .ok b) :
    (Spelling.ofText path).parts.map Text.encode =
      ((Route.ofBytes b).steps.filter (· ≠ [dotByte])).map Except.ok := by
  have hcut := encode_cutAt h
  rw [Spelling.ofText, Route.ofBytes]
  generalize cutAt (Symbol.scalar '/') path = ts at hcut
  generalize cutAt slashByte b = bs at hcut
  dsimp only
  induction ts generalizing bs with
  | nil =>
    rw [List.map_eq_nil_iff.1 hcut.symm]
    rfl
  | cons t ts ih =>
    obtain ⟨c, cs, rfl, hc, hcs⟩ := List.map_eq_cons_iff.1 hcut.symm
    have hrest := ih cs hcs.symm
    have hnil : t = [] ↔ c = [] := by
      constructor
      · rintro rfl
        exact Except.ok.inj hc
      · rintro rfl
        exact Text.encode_eq_nil hc.symm
    have hhere : t = here ↔ c = [dotByte] := by
      constructor
      · rintro rfl
        exact Except.ok.inj hc
      · rintro rfl
        exact Text.eq_of_encode_ascii hc.symm (by simp [dotByte])
    by_cases hdropped : t = [] ∨ t = here
    · have hdropped' : c = [] ∨ c = [dotByte] := hdropped.imp hnil.1 hhere.1
      rcases hdropped' with rfl | rfl <;> rcases hdropped with rfl | rfl <;> simpa using hrest
    · obtain ⟨hne, hdot⟩ := not_or.1 hdropped
      have hne' : c ≠ [] := fun h => hne (hnil.2 h)
      have hdot' : c ≠ [dotByte] := fun h => hdot (hhere.2 h)
      rw [List.filter_cons_of_pos (by simp [hne, hdot]), List.filter_cons_of_pos (by simp [hne']),
        List.filter_cons_of_pos (by simp [hdot']), List.map_cons, List.map_cons, hrest, hc]

/-- The path is not too long for the file system. -/
def IsShort (path : Text) : Prop := ∀ b, path.encode = .ok b → b.length ≤ pathLimit

/-- A path is not longer than the path of a name in the directory there. -/
theorem IsShort.of_join {p : Text} {n : Name} (h : IsShort (join p n.toText)) : IsShort p := by
  intro b hb
  obtain ⟨c, hc⟩ : ∃ c, (join p n.toText).encode = .ok (b ++ c) := by
    unfold join
    rw [if_neg (by simp [isAbsolute_of_not_mem n.isPart_toText.2.2.2])]
    split
    · exact ⟨_, Text.encode_append hb n.encode_toText⟩
    · exact ⟨_, Text.encode_append hb (Text.encode_append Text.slash_bytes n.encode_toText)⟩
  have hlength := h _ hc
  rw [List.length_append] at hlength
  omega

end Path

/-! ## Ways -/

namespace FileSystem

variable {fs : FileSystem} {links left : Nat} {here there : Location} {steps : List Bytes}

/-- **A way without the steps that stay** leads to the same directory. -/
theorem Enters.undotted (h : Enters fs links here steps left there) :
    Enters fs links here (steps.filter (· ≠ [dotByte])) left there := by
  -- a link puts its own steps before the others, and those keep their dots
  suffices hmore : ∀ a b, steps = a ++ b →
      Enters fs links here (a ++ b.filter (· ≠ [dotByte])) left there from hmore [] steps rfl
  induction h with
  | done =>
    intro a b hab
    obtain ⟨rfl, rfl⟩ := List.append_eq_nil_iff.1 hab.symm
    exact .done
  | stay _ ih =>
    intro a b hab
    rcases List.cons_eq_append_iff.1 hab with ⟨rfl, rfl⟩ | ⟨a', rfl, hrest⟩
    · rw [List.filter_cons_of_neg (by simp)]
      exact ih [] _ rfl
    · exact .stay (ih a' b hrest)
  | up _ ih =>
    intro a b hab
    rcases List.cons_eq_append_iff.1 hab with ⟨rfl, rfl⟩ | ⟨a', rfl, hrest⟩
    · exact .up (ih [] _ rfl)
    · exact .up (ih a' b hrest)
  | @into links left here there rest n hdir _ ih =>
    intro a b hab
    rcases List.cons_eq_append_iff.1 hab with ⟨rfl, rfl⟩ | ⟨a', rfl, hrest⟩
    · rw [List.filter_cons_of_pos (by simpa using n.bytes_ne_dot)]
      exact .into hdir (ih [] _ rfl)
    · exact .into hdir (ih a' b hrest)
  | @follow links left here there rest n target hlink _ ih =>
    intro a b hab
    rcases List.cons_eq_append_iff.1 hab with ⟨rfl, rfl⟩ | ⟨a', rfl, rfl⟩
    · rw [List.filter_cons_of_pos (by simpa using n.bytes_ne_dot)]
      exact .follow hlink (ih _ _ rfl)
    · have hmore := ih _ b (List.append_assoc _ a' b).symm
      rw [List.append_assoc] at hmore
      exact .follow hlink hmore

variable {path : Text} {d : Location} {s : Spelling}

/-- **A clean path with the same parts leads to the same directory**, if it is not too long. -/
theorem Leads.respelled (h : fs.Leads path d) (hs : s.IsClean)
    (hparts : s.parts = (Spelling.ofText path).parts)
    (hshort : Path.IsShort s.toText) : fs.Leads s.toText d := by
  obtain ⟨b, hb, hwalk⟩ := locate_eq_ok_iff.1 (found?_eq_some_iff.1 h)
  obtain ⟨left, henters⟩ := exists_enters_of_walk_directory hwalk
  have hsteps : s.parts.map Text.encode =
      ((Route.ofBytes b).steps.filter (· ≠ [dotByte])).map Except.ok := by
    rw [hparts]
    exact Path.encode_parts hb.encode
  have hbytes := hs.encode_toText.2 ⟨_, hsteps, rfl⟩
  have hzero : 0 ∉ s.anchor.bytes ++
      joinWith [slashByte] ((Route.ofBytes b).steps.filter (· ≠ [dotByte])) := by
    intro h0
    rcases List.mem_append.1 h0 with h0 | h0
    · cases hanchor : s.anchor <;> rw [hanchor] at h0 <;> exact absurd h0 (by decide)
    rcases mem_of_mem_joinWith h0 with h0 | ⟨step, hstep, h0⟩
    · exact absurd h0 (by decide)
    · have hcut := (List.mem_filter.1 (List.mem_filter.1 hstep).1).1
      exact hb.zeroFree (mem_of_mem_cutAt hcut h0)
  rw [Leads, found?_eq_some_iff, locate_eq_ok_iff]
  refine ⟨_, ⟨hbytes, hzero, ?_, hshort _ hbytes⟩, ?_⟩
  · exact fun hnil => hs.bytes_anchor_ne_nil (List.append_eq_nil_iff.1 hnil).1
  · rw [hs.steps_ofBytes hsteps]
    exact henters.undotted.walk_target _

end FileSystem

end FileShell
