import FileShell.Proofs.Effects
import FileShell.Proofs.FileSystem.Named
import FileShell.Verb.Run

/-!
# The guard of the working directory

`rm -r`, `rmdir` and `mv` refuse what would take the working directory away.  They look at the texts
of the two paths alone: a path that starts with a single slash and whose parts begin those of the
working directory is refused, and no other is.  So the directory is protected under the very
spelling that the session has of it, and not when a link, a doubled slash or other symbols for the
same bytes lead there.

* `Session.standsIn_iff`: what the guard looks at.
* `Verb.refuses_runRm_iff`, `refuses_runRmdir_iff`, `refuses_runMv_iff`: when each verb refuses.
* `Verb.refuses_iff`: when they refuse something that is the working directory or lies above it.
-/

namespace FileShell

open FileSystem Effect

/-- The path starts with a single slash, and its parts begin those of the working directory. -/
def Session.ShowsAbove (s : Session) (path : Text) : Prop :=
  (Spelling.ofText path).anchor = .root ∧
    (Spelling.ofText path).parts <+: (Spelling.ofText s.cwd).parts

instance (s : Session) (path : Text) : Decidable (s.ShowsAbove path) :=
  inferInstanceAs (Decidable (_ ∧ _))

/-- **What the guard looks at.** -/
theorem Session.standsIn_iff {s : Session} (hcwd : Path.isAbsolute s.cwd = true)
    (hhome : Path.isAbsolute s.home = true) (token : Text) :
    s.standsIn (s.resolve token) = true ↔ s.ShowsAbove (s.resolve token) := by
  obtain ⟨u, hu, hpath⟩ := Path.exists_clean_resolve token hcwd hhome
  have hpath' : s.resolve token = u.toText := hpath
  rw [hpath', Session.standsIn, Session.ShowsAbove, Spelling.ofText_toText hu]
  exact Spelling.isAtOrAbove_iff hu hcwd

namespace Verb

/-- The action answers that an argument is invalid, and has changed nothing. -/
def Refuses (action : Action Result) (shell : Shell) : Prop :=
  ∃ result, action shell = .ok result shell ∧ result.error = some .invalidArgument

variable {shell : Shell}

/-- `mv` refuses what is there if the guard does. -/
theorem refuses_runMv_iff {source target : Text} {more : List Text}
    (hentry : shell.files.hasEntry (shell.session.resolve source) = true) :
    Refuses (runMv (source :: target :: more)) shell ↔
      shell.session.standsIn (shell.session.resolve source) = true := by
  rw [Refuses, runMv, bind_of_ok (Action.session_eq shell)]
  simp only
  rw [bind_of_ok (Action.get_eq shell)]
  simp only [hentry, Bool.not_true, Bool.false_eq_true, if_false]
  constructor
  · rintro ⟨result, hrun, herror⟩
    split at hrun
    · next hstands => exact hstands
    · obtain ⟨done, mid, -, hend⟩ := bind_eq_ok.1 hrun
      cases hend
      cases herror
  · intro hstands
    rw [if_pos hstands]
    exact ⟨_, rfl, rfl⟩

/-- `rmdir` refuses a directory if the guard does. -/
theorem refuses_runRmdir_iff {name : Text} {more : List Text}
    (hdir : shell.files.isDirectory (shell.session.resolve name) = true) :
    Refuses (runRmdir (name :: more)) shell ↔
      shell.session.standsIn (shell.session.resolve name) = true := by
  obtain ⟨d, hd⟩ := isDirectory_iff.1 hdir
  rw [Refuses, runRmdir, bind_of_ok (Action.session_eq shell)]
  rw [bind_of_ok (Action.ask_eq _ shell), hd]
  simp only [Node.isDirectory, Bool.not_true, Bool.false_eq_true, if_false]
  constructor
  · rintro ⟨result, hrun, herror⟩
    split at hrun
    · next hstands => exact hstands
    split at hrun
    · cases hrun
      cases herror
    · obtain ⟨done, mid, -, hend⟩ := bind_eq_ok.1 hrun
      cases hend
      cases herror
  · intro hstands
    rw [if_pos hstands]
    exact ⟨_, rfl, rfl⟩

/-- Removing one operand never ends with the answer that an argument is invalid. -/
theorem error_rmOne_ne {recursive : Bool} {name : Text} {later : Shell} {result : Result}
    (h : rmOne recursive name shell = .ok result later) :
    result.error ≠ some .invalidArgument := by
  rw [rmOne, bind_of_ok (Action.resolve_eq name shell), bind_of_ok (Action.get_eq shell)] at h
  split at h
  · cases h
    simp [Result.failure]
  split at h
  · split at h
    · obtain ⟨done, mid, -, hend⟩ := bind_eq_ok.1 h
      cases hend
      simp [Result.success]
    · cases h
      simp [Result.failure]
  · obtain ⟨done, mid, -, hend⟩ := bind_eq_ok.1 h
    cases hend
    simp [Result.success]

theorem find?_flag_eq_none_iff {arguments : List Text} :
    (arguments.filter isFlag).find? (· ≠ Text.ofString "-r") = none ↔
      ∀ a ∈ arguments, isFlag a = true → a = Text.ofString "-r" := by
  simp

theorem find?_operand_ne_none_iff {arguments : List Text} {f : Text → Bool} :
    (arguments.filter (!isFlag ·)).find? f ≠ none ↔
      ∃ a ∈ arguments, isFlag a = false ∧ f a = true := by
  simp

/-- `rm` refuses if it gets no flag but `-r` and the guard refuses an operand. -/
theorem refuses_runRm_iff {arguments : List Text} :
    Refuses (runRm arguments) shell ↔
      (∀ a ∈ arguments, isFlag a = true → a = Text.ofString "-r") ∧
        ∃ a ∈ arguments, isFlag a = false ∧
          shell.session.standsIn (shell.session.resolve a) = true := by
  rw [Refuses, runRm, ← find?_flag_eq_none_iff,
    ← find?_operand_ne_none_iff (f := fun a =>
      shell.session.standsIn (shell.session.resolve a))]
  cases (arguments.filter isFlag).find? (· ≠ Text.ofString "-r") with
  | some flag => exact ⟨by rintro ⟨result, ⟨⟩, ⟨⟩⟩, by rintro ⟨⟨⟩, -⟩⟩
  | none =>
    simp only [true_and]
    by_cases hoperands : arguments.filter (!isFlag ·) = []
    · rw [if_pos hoperands, hoperands]
      exact ⟨by rintro ⟨result, ⟨⟩, ⟨⟩⟩, fun h => absurd rfl h⟩
    rw [if_neg hoperands, bind_of_ok (Action.session_eq shell)]
    cases (arguments.filter (!isFlag ·)).find? fun name =>
        shell.session.standsIn (shell.session.resolve name) with
    | some name => exact ⟨fun _ => by simp, fun _ => ⟨_, rfl, rfl⟩⟩
    | none =>
      refine ⟨?_, fun h => absurd rfl h⟩
      rintro ⟨result, hrun, herror⟩
      obtain ⟨results, mid, hmapM, hend⟩ := bind_eq_ok.1 hrun
      cases hend
      obtain ⟨r, hr, hkind⟩ := List.exists_of_findSome?_eq_some herror
      obtain ⟨name, -, t, later, hone⟩ := exists_of_mem_mapM hmapM hr
      exact absurd hkind (error_rmOne_ne hone)

/-- **What the guard protects.**  If a token names the working directory or a directory above it,
however the two are spelled, `rmdir` and `mv` refuse the token exactly if its path shows it, and
`rm` refuses exactly if it gets no flag but `-r` and the path of an operand shows it. -/
theorem refuses_iff {token : Text} {p c : Location} {t : Node} {es : Entries}
    (hcwd : Path.isAbsolute shell.session.cwd = true)
    (hhome : Path.isAbsolute shell.session.home = true)
    (hc : shell.files.found? .target shell.session.cwd = some (c, .directory es))
    (hp : shell.files.found? .entry (shell.session.resolve token) = some (p, t)) (hpc : p <+: c) :
    (∀ verb arguments, Refuses (rm.run (verb :: arguments)) shell ↔
        (∀ a ∈ arguments, isFlag a = true → a = Text.ofString "-r") ∧
          ∃ a ∈ arguments, isFlag a = false ∧
            shell.session.ShowsAbove (shell.session.resolve a)) ∧
      (∀ verb more, Refuses (rmdir.run (verb :: token :: more)) shell ↔
        shell.session.ShowsAbove (shell.session.resolve token)) ∧
      ∀ verb target more, Refuses (mv.run (verb :: token :: target :: more)) shell ↔
        shell.session.ShowsAbove (shell.session.resolve token) := by
  simp only [← Session.standsIn_iff hcwd hhome]
  refine ⟨fun verb arguments => refuses_runRm_iff, ?_, ?_⟩
  · intro verb more
    -- above a directory there are only directories, and a path that names one leads there
    obtain ⟨u, hu, hpath⟩ := Path.exists_clean_resolve token hcwd hhome
    have hpath' : shell.session.resolve token = u.toText := hpath
    have hp' : shell.files.Names u.toText p :=
      names_of_taken (found?_eq_some_iff.1 (hpath' ▸ hp))
    have hdir : shell.files.IsDirectoryAt p :=
      isDirectoryAt_of_isPrefix hpc (isDirectoryAt_of_node? (node?_of_found? hc))
    show Refuses (runRmdir (token :: more)) shell ↔ _
    refine refuses_runRmdir_iff ?_
    rw [hpath']
    exact isDirectory_iff.2 ⟨p, hp'.leads hu hdir⟩
  · intro verb target more
    show Refuses (runMv (token :: target :: more)) shell ↔ _
    exact refuses_runMv_iff (hasEntry_iff.2 ⟨p, t, found?_eq_some_iff.1 hp⟩)

/-- The working directory was entered through the link `l`, and `../d` is the directory itself:
`rm -r` removes it. -/
theorem rm_removes_cwd_behind_link :
    let d : Name := ⟨[0x64], by decide⟩
    let l : Name := ⟨[0x6C], by decide⟩
    let files := (FileSystem.empty.create [d] (.directory []) Node.tidy_empty).create [l]
      (.link [0x64]) (.link _)
    let shell : Shell := ⟨⟨"/l", "/"⟩, files⟩
    files.found? .target shell.session.cwd = some ([d], .directory []) ∧
      files.found? .entry (shell.session.resolve "../d") = some ([d], .directory []) ∧
      (match rm.run ["rm", "-r", "../d"] shell with
        | .ok result later => some (result.isOk, later.files.entries)
        | .error _ _ => none) = some (true, [(l, .link [0x64])]) := by
  decide +kernel

/-- Under the spelling that the session has of it, the working directory is protected. -/
theorem refuses_iff_parent :
    let d : Name := ⟨[0x64], by decide⟩
    let shell : Shell := ⟨⟨"/d", "/"⟩, FileSystem.empty.create [d] (.directory []) Node.tidy_empty⟩
    shell.session.ShowsAbove (shell.session.resolve "../d") ∧
      Refuses (rmdir.run ["rmdir", "../d"]) shell := by
  intro d shell
  have hshows : shell.session.ShowsAbove (shell.session.resolve "../d") := by decide +kernel
  have hcwd : shell.files.found? .target shell.session.cwd = some ([d], .directory []) := by
    decide +kernel
  have htoken : shell.files.found? .entry (shell.session.resolve "../d") =
      some ([d], .directory []) := by
    decide +kernel
  have hguard := refuses_iff (by decide +kernel) (by decide +kernel) hcwd htoken
    (List.prefix_refl _)
  exact ⟨hshows, (hguard.2.1 "rmdir" []).2 hshows⟩

end Verb

end FileShell
