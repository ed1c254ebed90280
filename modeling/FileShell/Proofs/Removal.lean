import FileShell.Proofs.FileSystem.Emptying
import FileShell.Proofs.Guard
import FileShell.Proofs.Verbs

/-!
# What `rm` removes

`rm` looks at its flags and at all its operands before it removes anything, and what it removes is
one entry: a link at the end of the path is not followed, and neither are the links below a directory
that goes.  So an operand either goes as a whole, with nothing else, or nothing changes, with one
exception: a directory is emptied by its place and then removed under its path, and if the path goes
through a link that was in the directory, or if something stands too deep, then `rm` fails when part
of what was in the directory is gone already.

* `FileSystem.Without`: a file system without what stands at one place and below.
* `Verb.Declines`, `Verb.Removes`, `Verb.BreaksOff`: nothing has changed, one entry is gone with all
  below it, or some of what was in a directory is gone.
* `Verb.cases_rmOne`: what becomes of one operand.
* `Verb.removed_of_rm`: what `rm` removes, and when nothing changes.
-/

namespace FileShell

open FileSystem Effect

/-- What is left of a file system when a place is cleared with all that stands below it. -/
def FileSystem.Without (fs later : FileSystem) (p : Location) : Prop :=
  ∀ r, later.bare? r = if p <+: r then none else fs.bare? r

theorem FileSystem.without_discard {fs : FileSystem} {p : Location} {t : Node} (hp : p ≠ [])
    (ht : fs.node? p = some t) : fs.Without (fs.discard p) p :=
  bare?_discard hp (isDirectoryAt_dropLast hp (bare?_ne_none_of_node? ht))

/-- Without a request for whole trees directories stay. -/
theorem Disk.keeps_isDirectoryAt_unlink (d : Location) (path : Text) :
    Keeps (fun fs : FileSystem => fs.IsDirectoryAt d) (unlink path) := by
  intro fs hd
  rcases stateAfter_unlink path fs with hstill | ⟨p, t, ht, hfile, hlater⟩
  · rwa [hstill]
  · have hpd := hd.not_isPrefix_of_file ht hfile
    have hp : p ≠ [] := fun h0 => hpd (by simp [h0])
    rw [hlater, IsDirectoryAt, without_discard hp ht, if_neg hpd]
    exact hd

namespace Verb

/-- The action answers with an error, and has changed nothing. -/
def Declines (action : Action Result) (shell : Shell) : Prop :=
  ∃ result, action shell = .ok result shell ∧ result.isOk = false

/-- The action succeeds in one session, and has removed what the path names and all below it. -/
def Removes (action : Action Result) (shell : Shell) (p : Location) : Prop :=
  ∃ result files, action shell = .ok result ⟨shell.session, files⟩ ∧ result.isOk = true ∧
    shell.files.Without files p

/-- The action ends in a failure in one session, and some of what was in the directory at a place is
gone: all of it, unless something stood too deep. -/
def BreaksOff (action : Action Result) (shell : Shell) (p : Location) : Prop :=
  ∃ failure files, action shell = .error failure ⟨shell.session, files⟩ ∧
    shell.files.Thinned files p ∧
    (shell.files.Fits (shell.files.host.nesting .removal) p → files.entriesAt p = []) ∧
    (¬ shell.files.Fits (shell.files.host.nesting .removal) p → failure = .tooNested [])

variable {shell : Shell} {arguments : List Text} {name : Text} {p : Location} {t : Node}

/-! ## One operand -/

section RmOne

variable {recursive : Bool} {s : Spelling}

/-- A file or a link goes, and with it nothing but its place. -/
theorem rmOne_of_file (hs : s.IsClean) (hpath : shell.session.resolve name = s.toText)
    (hspot : shell.files.locate .entry s.toText = .ok (.taken p t)) (hfile : t.isDirectory = false) :
    rmOne recursive name shell =
      .ok (.success ("File '" ++ name ++ "' deleted.")) ⟨shell.session, shell.files.discard p⟩ := by
  have hreal := (names_of_taken hspot).isRealDirectory_eq hs (shows_of_locate hspot)
  have hremove := Disk.unlink_eq_ok.2 ⟨p, t, hspot, hfile, rfl⟩
  rw [rmOne, bind_of_ok (Action.resolve_eq name shell), bind_of_ok (Action.get_eq shell), hpath]
  simp only [hasEntry_iff.2 ⟨p, t, hspot⟩, hreal, hfile, Bool.not_true, Bool.false_eq_true, if_false]
  rw [bind_of_ok (Action.onDisk_eq_ok.2 ⟨_, hremove, rfl⟩)]
  rfl

/-- With `-r` it is up to the request for the whole tree what becomes of a directory. -/
theorem rmOne_of_directory (hs : s.IsClean) (hpath : shell.session.resolve name = s.toText)
    {es : Entries} (hspot : shell.files.locate .entry s.toText = .ok (.taken p (.directory es))) :
    rmOne true name shell = (do
      Action.onDisk (Disk.removeTree s.toText)
      return .success ("Directory '" ++ name ++ "' deleted.") : Action Result) shell := by
  have hreal := (names_of_taken hspot).isRealDirectory_eq hs (shows_of_locate hspot)
  rw [rmOne, bind_of_ok (Action.resolve_eq name shell), bind_of_ok (Action.get_eq shell), hpath]
  simp only [hasEntry_iff.2 ⟨p, _, hspot⟩, hreal, Node.isDirectory, Bool.not_true,
    Bool.false_eq_true, if_false, if_true]

/-- A directory goes, if it can be removed under its path. -/
theorem removes_rmOne_directory (hs : s.IsClean) (hpath : shell.session.resolve name = s.toText)
    {es : Entries} (hspot : shell.files.locate .entry s.toText = .ok (.taken p (.directory es)))
    (hremovable : shell.files.Removable s.toText p) : Removes (rmOne true name) shell p := by
  have hremove := (Disk.removeTree_eq_ok hs).2 ⟨p, es, hspot, hremovable, rfl⟩
  unfold Removes
  rw [rmOne_of_directory hs hpath hspot, bind_of_ok (Action.onDisk_eq_ok.2 ⟨_, hremove, rfl⟩)]
  exact ⟨_, _, rfl, rfl, without_discard hremovable.ne_nil (shows_of_locate hspot)⟩

/-- If it cannot, the removal breaks off. -/
theorem breaksOff_rmOne (hs : s.IsClean) (hpath : shell.session.resolve name = s.toText)
    {es : Entries} (hspot : shell.files.locate .entry s.toText = .ok (.taken p (.directory es)))
    (hremovable : ¬ shell.files.Removable s.toText p) : BreaksOff (rmOne true name) shell p := by
  obtain ⟨failure, files, hfail⟩ := Disk.exists_removeTree_eq_error hs hspot hremovable
  have herror := Action.onDisk_eq_error.2 ⟨files, hfail, rfl⟩
  refine ⟨failure, files, ?_, Disk.removeTree_eq_error hspot hfail⟩
  rw [rmOne_of_directory hs hpath hspot, bind_of_error herror]

/-- **What becomes of one operand**: nothing changes, or the entry that it names goes as a whole,
unless that is a directory that cannot be removed under its path. -/
theorem cases_rmOne (hs : s.IsClean) (hpath : shell.session.resolve name = s.toText)
    (hroot : s.parts ≠ []) (recursive : Bool) :
    Declines (rmOne recursive name) shell ∨
      ∃ p t, shell.files.found? .entry s.toText = some (p, t) ∧
        (t.isDirectory = true → recursive = true) ∧
        ((t.isDirectory = true → shell.files.Removable s.toText p) →
          Removes (rmOne recursive name) shell p) ∧
        (t.isDirectory = true → ¬ shell.files.Removable s.toText p →
          BreaksOff (rmOne recursive name) shell p) := by
  cases hentry : shell.files.hasEntry s.toText with
  | false =>
    left
    unfold Declines
    rw [rmOne, bind_of_ok (Action.resolve_eq name shell), bind_of_ok (Action.get_eq shell), hpath]
    simp only [hentry, Bool.not_false, if_true]
    exact ⟨_, rfl, rfl⟩
  | true =>
    obtain ⟨p, t, hspot⟩ := hasEntry_iff.1 hentry
    have hnames := names_of_taken hspot
    have ht := shows_of_locate hspot
    have hp : p ≠ [] := fun h0 => hroot ((hnames.eq_nil_iff hs).1 h0)
    cases hdir : t.isDirectory with
    | false =>
      refine .inr ⟨p, t, found?_eq_some_iff.2 hspot, by simp [hdir], fun _ => ?_, by simp [hdir]⟩
      exact ⟨_, _, rmOne_of_file hs hpath hspot hdir, rfl, without_discard hp ht⟩
    | true =>
      obtain ⟨es, rfl⟩ := Node.isDirectory_iff.1 hdir
      cases recursive with
      | true =>
        refine .inr ⟨p, _, found?_eq_some_iff.2 hspot, fun _ => rfl, fun hremovable => ?_,
          fun _ h => ?_⟩
        · exact removes_rmOne_directory hs hpath hspot (hremovable rfl)
        · exact breaksOff_rmOne hs hpath hspot h
      | false =>
        left
        have hreal := hnames.isRealDirectory_eq hs ht
        unfold Declines
        rw [rmOne, bind_of_ok (Action.resolve_eq name shell), bind_of_ok (Action.get_eq shell),
          hpath]
        simp only [hentry, hreal, hdir, Bool.not_true, Bool.false_eq_true, if_false, if_true]
        exact ⟨_, rfl, rfl⟩

end RmOne

/-! ## All arguments -/

/-- A flag other than `-r` is not supported, wherever it stands. -/
theorem declines_of_flag (h : ∃ a ∈ arguments, isFlag a = true ∧ a ≠ Text.ofString "-r") :
    Declines (runRm arguments) shell := by
  unfold Declines runRm
  cases hflags : (arguments.filter isFlag).find? (· ≠ Text.ofString "-r") with
  | some flag => exact ⟨_, rfl, rfl⟩
  | none =>
    obtain ⟨a, ha, hflag, hne⟩ := h
    exact absurd (find?_flag_eq_none_iff.1 hflags a ha hflag) hne

/-- One operand that the guard refuses is enough. -/
theorem declines_of_standsIn (h : ∃ a ∈ arguments, isFlag a = false ∧
    shell.session.standsIn (shell.session.resolve a) = true) :
    Declines (runRm arguments) shell := by
  by_cases hflags : ∀ a ∈ arguments, isFlag a = true → a = Text.ofString "-r"
  · obtain ⟨result, hrun, herror⟩ := refuses_runRm_iff.2 ⟨hflags, h⟩
    exact ⟨result, hrun, by simp [Result.isOk, herror]⟩
  · refine declines_of_flag ?_
    simpa using hflags

section Operands

variable (hflags : ∀ a ∈ arguments, isFlag a = true → a = Text.ofString "-r")

include hflags

/-- What is left to do for operands that the guard lets pass. -/
theorem runRm_of_operands (hoperands : arguments.filter (!isFlag ·) ≠ [])
    (hpass : ∀ a ∈ arguments.filter (!isFlag ·),
      shell.session.standsIn (shell.session.resolve a) = false) :
    runRm arguments shell =
      (return .combine (← (arguments.filter (!isFlag ·)).mapM
        (rmOne (Text.ofString "-r" ∈ arguments))) : Action Result) shell := by
  have hrecursive : arguments.filter isFlag ≠ [] ↔ Text.ofString "-r" ∈ arguments := by
    have hr : isFlag (Text.ofString "-r") = true := by decide
    constructor
    · intro hne
      obtain ⟨a, ha⟩ := List.exists_mem_of_ne_nil _ hne
      obtain ⟨hmem, hflag⟩ := List.mem_filter.1 ha
      exact hflags a hmem hflag ▸ hmem
    · exact fun hmem => List.ne_nil_of_mem (List.mem_filter.2 ⟨hmem, hr⟩)
  have hfind : (arguments.filter (!isFlag ·)).find? (fun name =>
      shell.session.standsIn (shell.session.resolve name)) = none :=
    List.find?_eq_none.2 fun a ha => by simp [hpass a ha]
  unfold runRm
  simp only [find?_flag_eq_none_iff.2 hflags, hrecursive]
  rw [if_neg hoperands, bind_of_ok (Action.session_eq shell), hfind]

/-- A single operand that the guard lets pass is removed. -/
theorem runRm_of_operand (hoperand : arguments.filter (!isFlag ·) = [name])
    (hpass : shell.session.standsIn (shell.session.resolve name) = false) :
    runRm arguments shell = rmOne (Text.ofString "-r" ∈ arguments) name shell := by
  rw [runRm_of_operands hflags (by simp [hoperand]) (by simp [hoperand, hpass]), hoperand]
  simp

end Operands

/-- **What `rm` removes.**  An unsupported flag, or one operand that the guard refuses, and nothing
changes.  Without `-r` no directory is removed.  A single operand that is not the root goes as a
whole, and nothing else does; or nothing changes.  Only a directory that cannot be removed under its
path loses some of what is in it, or all, when `rm` fails. -/
theorem removed_of_rm (verb : Text) (arguments : List Text)
    (hcwd : Path.isAbsolute shell.session.cwd = true)
    (hhome : Path.isAbsolute shell.session.home = true) :
    ((∃ a ∈ arguments, isFlag a = true ∧ a ≠ Text.ofString "-r") →
        Declines (rm.run (verb :: arguments)) shell) ∧
      ((∃ a ∈ arguments, isFlag a = false ∧
          shell.session.standsIn (shell.session.resolve a) = true) →
        Declines (rm.run (verb :: arguments)) shell) ∧
      (Text.ofString "-r" ∉ arguments → ∀ d, shell.files.IsDirectoryAt d →
        (stateAfter (rm.run (verb :: arguments)) shell).files.IsDirectoryAt d) ∧
      ∀ name, arguments.filter (!isFlag ·) = [name] →
        ¬ Path.IsRoot (shell.session.resolve name) →
          Declines (rm.run (verb :: arguments)) shell ∨
            ∃ p t, shell.files.found? .entry (shell.session.resolve name) = some (p, t) ∧
              (t.isDirectory = true → Text.ofString "-r" ∈ arguments) ∧
              ((t.isDirectory = true → shell.files.Removable (shell.session.resolve name) p) →
                Removes (rm.run (verb :: arguments)) shell p) ∧
              (t.isDirectory = true → ¬ shell.files.Removable (shell.session.resolve name) p →
                BreaksOff (rm.run (verb :: arguments)) shell p) := by
  change (_ → Declines (runRm arguments) shell) ∧ (_ → Declines (runRm arguments) shell) ∧
    (_ → ∀ d, _ → (stateAfter (runRm arguments) shell).files.IsDirectoryAt d) ∧
    ∀ name, _ → _ → Declines (runRm arguments) shell ∨ _
  refine ⟨declines_of_flag, declines_of_standsIn, ?_, ?_⟩
  · intro hr d hd
    have hunlink : ∀ path, Keeps (Shell.Within shell.session (·.IsDirectoryAt d))
        (Action.onDisk (Disk.unlink path)) := fun path =>
      Action.keeps_onDisk_within (Disk.keeps_isDirectoryAt_unlink d path) _
    exact (keeps_runRm hunlink (absurd · hr) shell ⟨rfl, hd⟩).2
  · intro name hoperand hroot
    by_cases hflag : ∃ a ∈ arguments, isFlag a = true ∧ a ≠ Text.ofString "-r"
    · exact .inl (declines_of_flag hflag)
    have hflags : ∀ a ∈ arguments, isFlag a = true → a = Text.ofString "-r" := by simpa using hflag
    cases hpass : shell.session.standsIn (shell.session.resolve name) with
    | true =>
      obtain ⟨hmem, hname⟩ := List.mem_filter.1 (hoperand ▸ List.mem_singleton_self name)
      exact .inl (declines_of_standsIn ⟨name, hmem, by simpa using hname, hpass⟩)
    | false =>
      obtain ⟨s, hs, hpath⟩ := Path.exists_clean_resolve name hcwd hhome
      change shell.session.resolve name = s.toText at hpath
      rw [hpath, hs.isRoot_toText] at hroot
      have hrun := runRm_of_operand hflags hoperand hpass
      have hcases := cases_rmOne hs hpath hroot (Text.ofString "-r" ∈ arguments)
      -- all three are about nothing but where the action ends
      simp only [Declines, Removes, BreaksOff, decide_eq_true_eq] at hcases ⊢
      change (∃ result, runRm arguments shell = _ ∧ _) ∨ ∃ p t, _ ∧ _ ∧
        (_ → ∃ result files, runRm arguments shell = _ ∧ _) ∧
        (_ → _ → ∃ failure files, runRm arguments shell = _ ∧ _)
      rwa [hrun, hpath]

/-- The directory `d` goes with the link in it; the file beside it, to which the link leads, is
still there. -/
theorem removed_of_rm_tree :
    let d : Name := ⟨[0x64], by decide⟩
    let l : Name := ⟨[0x6C], by decide⟩
    let x : Name := ⟨[0x78], by decide⟩
    let files := ((FileSystem.empty.create [x] (.file [0x31]) (.file _)).create [d] (.directory [])
      Node.tidy_empty).create [d, l] (.link [0x2E, 0x2E, 0x2F, 0x78]) (.link _)
    let shell : Shell := ⟨⟨"/", "/"⟩, files⟩
    files.found? .target "/d/l" = some ([x], .file [0x31]) ∧
      ∃ result later, rm.run ["rm", "d", "-r"] shell = .ok result ⟨shell.session, later⟩ ∧
        result.isOk = true ∧ later.bare? [d] = none ∧ later.bare? [x] = some (.file [0x31]) := by
  intro d l x files shell
  have hlink : files.found? .target "/d/l" = some ([x], .file [0x31]) := by decide +kernel
  have hfound : files.found? .entry (shell.session.resolve "d") =
      some ([d], .directory [(l, .link [0x2E, 0x2E, 0x2F, 0x78])]) := by decide +kernel
  have hgone : (stateAfter (rm.run ["rm", "d", "-r"]) shell).files.bare? [d] = none := by
    decide +kernel
  have hspec := @removed_of_rm shell "rm" ["d", "-r"] (by decide +kernel)
    (by decide +kernel)
  have hremovable : files.Removable (shell.session.resolve "d") [d] :=
    ⟨by decide, by decide +kernel, found?_eq_some_iff.1 (by decide +kernel)⟩
  refine ⟨hlink, ?_⟩
  rcases hspec.2.2.2 "d" (by decide +kernel) (by decide +kernel) with
    ⟨result, hdeclined, -⟩ | ⟨p, t, hp, -, hremoves, -⟩
  · rw [stateAfter_of_ok hdeclined] at hgone
    exact absurd hgone (by decide +kernel)
  · rw [hfound] at hp
    cases hp
    obtain ⟨result, later, hremoved, hok, hwithout⟩ := hremoves fun _ => hremovable
    refine ⟨result, later, hremoved, hok, ?_, ?_⟩
    · simp [hwithout [d]]
    · rw [hwithout [x], if_neg (by decide)]
      decide +kernel

/-- A path that goes through a link in the directory that it leads to: the directory is emptied, the
path leads nowhere then, and `rm` fails. -/
theorem rm_through_own_link :
    let d : Name := ⟨[0x64], by decide⟩
    let f : Name := ⟨[0x66], by decide⟩
    let up : Name := ⟨[0x75, 0x70], by decide⟩
    let files := ((FileSystem.empty.create [d] (.directory []) Node.tidy_empty).create [d, f]
      (.file []) (.file _)).create [d, up] (.link [0x2E, 0x2E]) (.link _)
    let shell : Shell := ⟨⟨"/", "/"⟩, files⟩
    files.bare? [d, f] = some (.file []) ∧
      (match rm.run ["rm", "-r", "d/up/d"] shell with
        | .ok _ _ => none
        | .error failure later => some (failure, later.files.bare? [d, f])) =
          some (.fault .noEntry ["/d/up/d"], none) := by
  decide +kernel

end Verb

end FileShell
