import FileShell.Proofs.Arrows
import FileShell.Proofs.Boundary
import FileShell.Proofs.Frame

/-!
# What a failed redirection leaves behind

A redirection takes nothing back: what its verb did before stays done, whatever becomes of the
write.  The write itself leaves no trace if the file cannot be opened.  If it can, the text is
encoded after that, and a text without an encoding is noticed when the file has been made or
emptied already.

* `Disk.openForWriting_eq_error`, `Redirect.writeOut_eq_error`: how a write fails.
* `Redirect.stateAfter_runTo_cases`: what is left of a redirection that is not carried out.
* `Verb.cd_of_run`: the one way in which a verb changes the working directory.
* `Interpreter.untouched_by_redirect`: what a failed redirection leaves behind.
-/

namespace FileShell

open Effect FileSystem

/-! ## A write that fails -/

/-- A file that is not opened is left alone. -/
theorem Disk.openForWriting_eq_error {path : Text} {emptied : Bool} {fs later : FileSystem}
    {e : Failure} (h : openForWriting path emptied fs = .error e later) : later = fs := by
  rw [openForWriting] at h
  rcases bind_eq_error.1 h with h | ⟨spot, mid, hspot, h⟩
  · exact (locate_eq_error.1 h).2
  · obtain ⟨-, rfl⟩ := locate_eq_ok.1 hspot
    cases spot with
    | vacant p slash => cases h
    | taken p t =>
      cases t with
      | file old => cases emptied <;> cases h
      | directory es =>
        cases h
        rfl
      | link target =>
        cases h
        rfl

namespace Redirect

variable {mode : RedirectMode} {path output fileName : Text} {fs later : FileSystem} {e : Failure}

/-- **How a write fails.**  The file cannot be opened, and then nothing has changed, or the text has
no encoding, and then the file holds what is kept of it. -/
theorem writeOut_eq_error (h : writeOut mode path output fs = .error e later) :
    (later = fs ∧ ∀ p, ¬ fs.Opens path p) ∨
      ∃ p, fs.Opens path p ∧ ¬ output.Writable ∧ Writes p (kept mode (fs.content p)) fs later := by
  rw [writeOut] at h
  rcases bind_eq_error.1 h with h | ⟨p, mid, hopen, h⟩
  · refine .inl ⟨Disk.openForWriting_eq_error h, fun p hopens => ?_⟩
    obtain ⟨mid, hopen⟩ := Disk.exists_openForWriting hopens (mode = .truncate)
    cases hopen.symm.trans h
  · obtain ⟨hopens, hwrites⟩ := Disk.writes_of_openForWriting hopen
    cases hencode : output.encode with
    | ok bytes =>
      -- bytes go to the end of a file without fail
      rw [hencode] at h
      obtain ⟨last, happend, -⟩ := Disk.append_writes hwrites.file bytes
      cases happend.symm.trans h
    | error u =>
      rw [hencode] at h
      cases h
      refine .inr ⟨p, hopens, fun hwritable => ?_, ?_⟩
      · obtain ⟨bytes, hbytes⟩ := Text.writable_iff.1 hwritable
        cases hencode.symm.trans hbytes
      · cases mode <;> exact hwrites

variable {verb : Verb} {command : List Text} {shell : Shell}

/-- **What is left of a redirection that is not carried out** is what the verb left, and if what the
verb shows has no encoding, at most the file to be written is different from that. -/
theorem stateAfter_runTo_cases
    (hfailed : ∀ answer last, runTo mode verb command fileName shell = .ok answer last →
      answer.isOk = false) :
    let mid := stateAfter (verb.run command) shell
    let later := stateAfter (runTo mode verb command fileName) shell
    later = mid ∨
      ∃ result p, verb.run command shell = .ok result mid ∧ result.isOk = true ∧
        ¬ result.output.Writable ∧ mid.files.Opens (shell.session.resolve fileName) p ∧
        later.session = mid.session ∧
        Writes p (kept mode (mid.files.content p)) mid.files later.files := by
  intro mid later
  cases hrun : verb.run command shell with
  | error e last =>
    left
    have hbroken : runTo mode verb command fileName shell = .error e last :=
      (runTo_eq shell).trans (bind_of_error hrun)
    exact (stateAfter_of_error hbroken).trans (stateAfter_of_error hrun).symm
  | ok result last =>
    have hrest : runTo mode verb command fileName shell = _ :=
      (runTo_eq shell).trans (bind_of_ok hrun)
    obtain rfl : mid = last := stateAfter_of_ok hrun
    by_cases hok : result.isOk = true
    · rw [if_pos hok] at hrest
      cases hwrite : writeOut mode (shell.session.resolve fileName) result.output mid.files with
      | ok done files =>
        -- then it would have been carried out
        rw [bind_of_ok (Action.onDisk_eq_ok.2 ⟨files, hwrite, rfl⟩)] at hrest
        cases hfailed _ _ hrest
      | error e files =>
        rw [bind_of_error (Action.onDisk_eq_error.2 ⟨files, hwrite, rfl⟩)] at hrest
        have hlater : later = _ := stateAfter_of_error hrest
        rw [hlater]
        rcases writeOut_eq_error hwrite with ⟨rfl, -⟩ | ⟨p, hopens, hunwritable, hwrites⟩
        · exact .inl rfl
        · exact .inr ⟨result, p, rfl, hok, hunwritable, hopens, rfl, hwrites⟩
    · rw [if_neg hok] at hrest
      exact .inl (stateAfter_of_ok hrest)

end Redirect

/-- **The working directory changes only by a `cd` that succeeds.** -/
theorem Verb.cd_of_run {v : Verb} {tokens : List Text} {shell : Shell}
    (h : (stateAfter (v.run tokens) shell).session.cwd ≠ shell.session.cwd) :
    v = .cd ∧ ∃ result, v.run tokens shell = .ok result (stateAfter (v.run tokens) shell) ∧
      result.isOk = true := by
  by_cases hcd : v = .cd
  · subst hcd
    rcases run_cd_cases tokens shell with ⟨result, hrun⟩ | ⟨cwd, hrun⟩ <;>
      rw [stateAfter_of_ok hrun] at h ⊢
    · exact absurd rfl h
    · exact ⟨rfl, _, hrun, rfl⟩
  · rw [keeps_session_run hcd shell.session tokens shell rfl] at h
    exact absurd rfl h

namespace Interpreter

open Redirect

/-- **What a failed redirection leaves behind.**  A line without the right shape changes nothing.
Any other one leaves the session as its verb left it, so that the working directory is another one
only after a `cd` that succeeded; and the files are as the verb left them, unless the verb succeeded,
the file can be opened and what the verb shows cannot be encoded.  Then too every entry is as the
verb left it, if the text was to go to the end of a file that was there. -/
theorem untouched_by_redirect {line : Text} {mode : RedirectMode} {tokens : List Text}
    {shell later : Shell} {answer : Result} (hshape : Line.classify line = .redirect mode tokens)
    (hrun : interpret line shell = .ok answer later) (hfailed : answer.isOk = false) :
    ((tokens.length < 3 ∨ (∀ i, FirstArrow tokens i → tokens[i + 1]? = none) ∨
        Verb.lookup? (tokens.head?.getD []) = none) → later = shell) ∧
    ∀ i fileName verb, FirstArrow tokens i → tokens[i + 1]? = some fileName →
      Verb.lookup? (tokens.head?.getD []) = some verb →
      let mid := stateAfter (verb.run (tokens.take i)) shell
      later.session = mid.session ∧
      (later.session.cwd ≠ shell.session.cwd → verb = .cd ∧
        ∃ result, verb.run (tokens.take i) shell = .ok result mid ∧ result.isOk = true) ∧
      ((∀ result p, verb.run (tokens.take i) shell = .ok result mid → result.isOk = true →
          mid.files.Opens (shell.session.resolve fileName) p → result.output.Writable) →
        later.files = mid.files) ∧
      (mode = .append →
        (∀ p, mid.files.Opens (shell.session.resolve fileName) p → mid.files.node? p ≠ none) →
        ∀ r, later.files.bare? r = mid.files.bare? r) := by
  have hlater : stateAfter (Redirect.run mode tokens) shell = later := by
    have h := after_eq_stateAfter line shell
    rw [after, hrun, hshape] at h
    exact h.symm
  have hdispatch : ∀ result last, Redirect.run mode tokens shell = .ok result last →
      result.isOk = false := by
    intro result last h
    have h' : dispatch (Line.classify line) shell = .ok result last := by rw [hshape, dispatch, h]
    cases (interpret_of_ok h').symm.trans hrun
    exact hfailed
  constructor
  · intro hnone
    obtain ⟨result, h, -⟩ := @run_of_no_shape tokens mode hnone shell
    exact hlater.symm.trans (stateAfter_of_ok h)
  · intro i fileName verb harrow hfile hverb mid
    rw [run_of_shape harrow hfile hverb] at hlater hdispatch
    have hcases := stateAfter_runTo_cases hdispatch
    rw [hlater] at hcases
    rcases hcases with rfl | ⟨result, p, hran, hok, hnot, hopens, hsession, hwrites⟩
    · exact ⟨rfl, Verb.cd_of_run, fun _ => rfl, fun _ _ _ => rfl⟩
    · refine ⟨hsession, fun hmoved => Verb.cd_of_run (hsession ▸ hmoved), fun hwritable => ?_, ?_⟩
      · exact absurd (hwritable result p hran hok hopens) hnot
      · rintro rfl hthere r
        obtain ⟨bytes, hbytes⟩ := hwrites.before.resolve_left (hthere p hopens)
        rw [kept, content_of_file hbytes] at hwrites
        exact hwrites.bare?_eq hbytes r

/-- Two redirections that leave traces: one of a `cd` to a file that cannot be made, and one of a
text that has no encoding, which empties its file. -/
theorem traces_of_redirect :
    let d : Name := ⟨[0x64], by decide⟩
    let f : Name := ⟨[0x66], by decide⟩
    let files := (FileSystem.empty.create [d] (.directory []) Node.tidy_empty).create [f]
      (.file [0x61]) (.file _)
    let shell : Shell := ⟨⟨"/", "/"⟩, files⟩
    let line : Text := "cd d > x/y"
    let other : Text := Text.ofString "touch " ++ .surrogate 0 :: Text.ofString "/../x > f"
    Line.classify line = .redirect .truncate line.words ∧
      (match interpret line shell with
        | .ok answer later => some (answer.isOk, later.session.cwd)
        | .error _ _ => none) = some (false, Text.ofString "/d") ∧
      Line.classify other = .redirect .truncate other.words ∧
      (stateAfter (Verb.touch.run (other.words.take 2)) shell).files.node? [f] =
        some (.file [0x61]) ∧
      (match interpret other shell with
        | .ok answer later => some (answer.isOk, later.files.node? [f])
        | .error _ _ => none) = some (false, some (.file [])) := by
  decide +kernel

/-- The verb has made its file, and the missing directory of the other one is all that fails. -/
theorem untouched_by_redirect_of_touch :
    let shell : Shell := ⟨⟨"/", "/"⟩, FileSystem.empty⟩
    let line : Text := "touch x > d/y"
    Line.classify line = .redirect .truncate line.words ∧
      ∃ answer later, interpret line shell = .ok answer later ∧ answer.isOk = false ∧
        later.files.entries ≠ [] ∧
        later.files = (stateAfter (Verb.touch.run (line.words.take 2)) shell).files := by
  intro shell line
  have hshape : Line.classify line = .redirect .truncate line.words := by decide +kernel
  have hvalue : value? (interpret line) shell =
      some (.failure .ioError "Error: No such file or directory") := by decide +kernel
  obtain ⟨later, hrun⟩ := value?_eq_some_iff.1 hvalue
  obtain rfl : after line shell = later := by rw [after, hrun]
  have harrow : FirstArrow line.words 2 := firstArrow_cons_iff.2 (by decide +kernel)
  have hleft := (untouched_by_redirect hshape hrun rfl).2 2 "d/y" .touch harrow
    (by decide +kernel) (by decide +kernel)
  refine ⟨hshape, _, _, hrun, rfl, by decide +kernel, hleft.2.2.1 ?_⟩
  intro result p htouch _ _
  have hshown : value? (Verb.touch.run (line.words.take 2)) shell =
      some (.success "File 'x' created successfully.") := by decide +kernel
  cases hshown.symm.trans (value?_eq_some_iff.2 ⟨_, htouch⟩)
  exact Text.writable_ofString _

end Interpreter

end FileShell
