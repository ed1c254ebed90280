import FileShell.Proofs.FileSystem.Growth
import FileShell.Proofs.Stages
import FileShell.Proofs.Verbs

/-!
# What a plain line can change

A line without a bar and without an arrow runs at most one verb, and the verb sets the frame of what
can be different afterwards, whether the line succeeds, fails or breaks off.

* `Line.verb?`: the verb of a plain line.
* `Verb.run_cd_cases`, `run_rmdir_cases`: the two verbs that change one thing at the very end.
* `Interpreter.frame_plain`: the frame of each verb.
-/

namespace FileShell

open Effect FileSystem

variable {shell : Shell}

/-! ## Going elsewhere -/

/-- Either nothing changes, or the working directory does and the answer is yes. -/
theorem Action.changeDirectory_cases (path : Text) (shell : Shell) :
    changeDirectory path shell = .ok false shell ∨
      ∃ cwd, changeDirectory path shell =
        .ok true ⟨{ shell.session with cwd := cwd }, shell.files⟩ := by
  rw [changeDirectory, bind_of_ok (ask_eq _ shell)]
  by_cases hdir : shell.files.isDirectory path = true
  · simp only [hdir, if_true]
    exact .inr ⟨_, rfl⟩
  · simp only [hdir]
    exact .inl rfl

namespace Verb

/-- Whoever goes elsewhere is told of no error. -/
theorem run_cd_cases (tokens : List Text) (shell : Shell) :
    (∃ result, cd.run tokens shell = .ok result shell) ∨
      ∃ cwd, cd.run tokens shell =
        .ok (.success []) ⟨{ shell.session with cwd := cwd }, shell.files⟩ := by
  simp only [run, runOn]
  cases tokens.tail with
  | nil => exact .inl ⟨_, rfl⟩
  | cons target more =>
    rw [runCd]
    by_cases hup : target = Path.up
    · rw [if_pos hup, bind_of_ok (Action.session_eq shell)]
      cases Path.parent? shell.session.cwd with
      | none => exact .inl ⟨_, rfl⟩
      | some parent =>
        rcases Action.changeDirectory_cases parent shell with hstill | ⟨cwd, hmoved⟩
        · exact .inl ⟨_, bind_of_ok hstill⟩
        · exact .inr ⟨cwd, bind_of_ok hmoved⟩
    · rw [if_neg hup, bind_of_ok (Action.resolve_eq target shell)]
      rcases Action.changeDirectory_cases (shell.session.resolve target) shell with
        hstill | ⟨cwd, hmoved⟩
      · left
        rw [bind_of_ok hstill, if_neg Bool.false_ne_true, bind_of_ok (Action.ask_eq _ shell)]
        by_cases hpresent : shell.files.isPresent (shell.session.resolve target) = true <;>
          simp only [hpresent, if_true] <;> exact ⟨_, rfl⟩
      · exact .inr ⟨cwd, bind_of_ok hmoved⟩

/-- Nothing has changed after `rmdir`, or an empty directory is gone. -/
theorem run_rmdir_cases (tokens : List Text) (shell : Shell) :
    (stateAfter (rmdir.run tokens) shell).files = shell.files ∨
      LosesEmptyDirectory shell.files (stateAfter (rmdir.run tokens) shell).files := by
  simp only [run, runOn]
  cases tokens.tail with
  | nil => exact .inl rfl
  | cons name more =>
    rw [runRmdir, stateAfter_bind_of_ok (Action.session_eq shell),
      stateAfter_bind_of_ok (Action.ask_eq _ shell)]
    -- up to the request at the end the verb only looks
    split
    · exact .inl rfl
    split
    · exact .inl rfl
    split
    · exact .inl rfl
    split
    · exact .inl rfl
    · refine stateAfter_bind (I := fun later : Shell => later.files = shell.files ∨
        LosesEmptyDirectory shell.files later.files) ?_ fun _ _ _ h => h
      rw [Action.stateAfter_onDisk]
      exact Disk.removeDirectory_cases _ _

end Verb

/-! ## The frame of a line -/

/-- The verb of a plain line. -/
def Line.verb? (line : Text) : Option Verb := Verb.lookup? (verbName line.words)

/-- What a verb leaves of the files; a line without a verb changes nothing. -/
def Verb.Frame (verb? : Option Verb) (fs later : FileSystem) : Prop :=
  match verb? with
  | some mkdir => Grows (.directory []) fs later
  | some touch => Grows (.file []) fs later
  | some rmdir => later = fs ∨ LosesEmptyDirectory fs later
  | some rm | some mv => True
  | some cd | some pwd | some ls | some cat | some help | none => later = fs

/-- **A verb stays in its frame**, whether it ends with a result or with a failure. -/
theorem Verb.frame_run (v : Verb) (tokens : List Text) (shell : Shell) :
    Verb.Frame (some v) shell.files (stateAfter (v.run tokens) shell).files := by
  have hgrows : ∀ t, (v.RequestsKeep (Shell.Within shell.session (Grows t shell.files))) →
      Grows t shell.files (stateAfter (v.run tokens) shell).files := by
    intro t hrequests
    exact (keeps_run hrequests tokens shell ⟨rfl, Grows.refl t shell.files⟩).2
  have hstill : v.RequestsKeep (Shell.Within shell.session (· = shell.files)) →
      (stateAfter (v.run tokens) shell).files = shell.files := by
    intro hrequests
    exact (keeps_run hrequests tokens shell ⟨rfl, rfl⟩).2
  cases v with
  | rm | mv => trivial
  | rmdir => exact run_rmdir_cases tokens shell
  | pwd | ls | help => exact hstill trivial
  | cat => exact hstill fun path => Action.keeps_onDisk_within (Disk.keeps_readFile path) _
  | cd =>
    show (stateAfter (cd.run tokens) shell).files = shell.files
    rcases run_cd_cases tokens shell with ⟨result, hrun⟩ | ⟨cwd, hrun⟩ <;>
      rw [stateAfter_of_ok hrun]
  | mkdir =>
    exact hgrows _ fun path =>
      Action.keeps_onDisk_within (Disk.keeps_grows_makeDirectories path) _
  | touch =>
    exact hgrows _ ⟨fun path => Action.keeps_onDisk_within (Disk.keeps_grows_renewTime path) _,
      fun path => Action.keeps_onDisk_within (Disk.keeps_grows_openForWriting path) _⟩

namespace Interpreter

/-- **What a plain line can change.**  Whatever its outcome, its verb sets the frame for the files;
the home directory stays the same, and the working directory changes only by a `cd` that
succeeds. -/
theorem frame_plain {line : Text} (hbar : Line.bar ∉ line) (harrow : Symbol.scalar '>' ∉ line)
    (shell : Shell) :
    Verb.Frame (Line.verb? line) shell.files (after line shell).files ∧
      (after line shell).session.home = shell.session.home ∧
      ((after line shell).session.cwd ≠ shell.session.cwd →
        Line.verb? line = some .cd ∧ Succeeds line shell) := by
  have hclass := Line.classify_plain hbar harrow
  have hverb : Line.verb? line = Verb.lookup? (line.words.head?.getD []) := Verb.lookup?_lower _
  rw [after_eq_stateAfter, hclass, hverb]
  rcases dispatch_plain_cases line.words with ⟨result, hplain, hnone, -⟩ | ⟨v, hv, hplain⟩
  · rw [hplain, hnone]
    exact ⟨rfl, rfl, fun h => absurd rfl h⟩
  · rw [hplain, hv]
    refine ⟨Verb.frame_run v line.words shell, ?_⟩
    by_cases hcd : v = .cd
    · subst hcd
      rcases Verb.run_cd_cases line.words shell with ⟨result, hrun⟩ | ⟨cwd, hrun⟩
      · rw [stateAfter_of_ok hrun]
        exact ⟨rfl, fun h => absurd rfl h⟩
      · rw [stateAfter_of_ok hrun]
        rw [← hplain, ← hclass] at hrun
        exact ⟨rfl, fun _ => ⟨rfl, (succeeds_of_ok hrun).2 rfl⟩⟩
    · rw [Verb.keeps_session_run hcd shell.session line.words shell rfl]
      exact ⟨rfl, fun h => absurd rfl h⟩

/-- A `touch` that breaks off at its second operand has made the first file, and nothing else. -/
theorem frame_plain_broken_off :
    let shell : Shell := ⟨⟨"/", "/"⟩, FileSystem.empty⟩
    let line : Text := "touch x d/y z"
    BreaksOff line shell ∧ (after line shell).files.entries ≠ [] ∧
      Grows (.file []) shell.files (after line shell).files := by
  have hverb : Line.verb? "touch x d/y z" = some .touch := by decide +kernel
  have hbar : Line.bar ∉ Text.ofString "touch x d/y z" := by decide +kernel
  have harrow : Symbol.scalar '>' ∉ Text.ofString "touch x d/y z" := by decide +kernel
  have hframe := (frame_plain hbar harrow ⟨⟨"/", "/"⟩, FileSystem.empty⟩).1
  rw [hverb] at hframe
  exact ⟨by decide +kernel, by decide +kernel, hframe⟩

end Interpreter

end FileShell
