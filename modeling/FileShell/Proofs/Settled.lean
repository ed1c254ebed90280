import FileShell.Proofs.FileSystem.Standing
import FileShell.Proofs.Guard
import FileShell.Proofs.Navigation
import FileShell.Proofs.Verbs

/-!
# Settled shells

A shell is *settled* if its working directory exists, is spelled as the session spells paths, and no
link stands anywhere.  A verb leaves a settled shell settled, whatever its outcome, as long as the
guard recognizes what the verb would take away.  The guard compares texts, so it recognizes a path
that starts with a single slash, unless the path spells the bytes of the working directory, or of
one above it, with other symbols.

* `Shell.Settled`, `Session.Recognizes`: the invariant, and what it asks of the paths to be removed.
* `Disk.misses_of_recognizes`: what the guard lets pass misses the working directory.
* `Verb.settled_run`: a verb keeps a shell settled.
-/

namespace FileShell

open FileSystem Effect

/-- The working directory exists under an absolute normalized path, the home directory has an
absolute path, and no link stands anywhere. -/
structure Shell.Settled (shell : Shell) : Prop where
  linkFree : shell.files.LinkFree
  absoluteHome : Path.isAbsolute shell.session.home = true
  absoluteCwd : Path.isAbsolute shell.session.cwd = true
  normalCwd : Path.normalize shell.session.cwd = shell.session.cwd
  isDirectory : shell.files.isDirectory shell.session.cwd = true

/-- The path starts with a single slash, and if its bytes, part by part, begin those of the working
directory, then so do its symbols. -/
def Session.Recognizes (s : Session) (path : Text) : Prop :=
  (Spelling.ofText path).anchor = .root ∧
    ((Spelling.ofText path).parts.map Text.encode <+: (Spelling.ofText s.cwd).parts.map Text.encode →
      (Spelling.ofText path).parts <+: (Spelling.ofText s.cwd).parts)

instance (s : Session) (path : Text) : Decidable (s.Recognizes path) :=
  inferInstanceAs (Decidable (_ ∧ (_ → _)))

open Shell

variable {shell : Shell}

/-! ## The place of the working directory -/

theorem Shell.Settled.stands (h : shell.Settled) : shell.Stands :=
  ⟨h.absoluteHome, h.absoluteCwd, h.normalCwd, h.isDirectory⟩

theorem Shell.Stands.settled (h : shell.Stands) (hfiles : shell.files.LinkFree) : shell.Settled :=
  ⟨hfiles, h.absoluteHome, h.absoluteCwd, h.normalCwd, h.isDirectory⟩

/-- The working directory is a place, and the shell is settled as long as a directory stands there
and there is no link. -/
theorem Shell.Settled.exists_place (h : shell.Settled) :
    ∃ c, shell.files.Standing c ∧ Path.Spells shell.session.cwd c ∧
      ∀ later : FileSystem, later.Standing c → Settled ⟨shell.session, later⟩ := by
  obtain ⟨s, hs, hcwd⟩ := h.stands.exists_clean
  have hdir := h.isDirectory
  rw [hcwd] at hdir ⊢
  obtain ⟨c, hleads⟩ := isDirectory_iff.1 hdir
  have hspells := spells_of_names h.linkFree hs (hleads.names h.linkFree hs)
  obtain ⟨b, hb, -⟩ := locate_eq_ok_iff.1 (found?_eq_some_iff.1 hleads)
  refine ⟨c, ⟨h.linkFree, hleads.isDirectoryAt⟩, hspells, ?_⟩
  intro later hlater
  refine ⟨hlater.linkFree, h.absoluteHome, h.absoluteCwd, h.normalCwd, ?_⟩
  rw [hcwd]
  exact isDirectory_iff.2 ⟨c, leads_of_spells hs hb hspells hlater.isDirectory⟩

/-- **What the guard lets pass misses the working directory**, if the guard recognizes it. -/
theorem Disk.misses_of_recognizes {σ : Session} {c : Location} (hcwd : Path.isAbsolute σ.cwd = true)
    (hhome : Path.isAbsolute σ.home = true) (hc : Path.Spells σ.cwd c) {token : Text}
    (hrec : σ.Recognizes (σ.resolve token)) (hpass : σ.standsIn (σ.resolve token) = false) :
    Misses c (σ.resolve token) := by
  intro fs hfs p hp hpc
  obtain ⟨u, hu, hpath⟩ := Path.exists_clean_resolve token hcwd hhome
  have hpath' : σ.resolve token = u.toText := hpath
  have hspells : Path.Spells (σ.resolve token) p := by
    rw [hpath'] at hp ⊢
    exact spells_of_names hfs hu hp
  have hshows : σ.ShowsAbove (σ.resolve token) := by
    refine ⟨hrec.1, hrec.2 ?_⟩
    rw [hspells, hc]
    exact hpc.map _
  rw [(Session.standsIn_iff hcwd hhome token).2 hshows] at hpass
  cases hpass

/-- A session that starts in a directory is settled where there is no link. -/
theorem Shell.settled_start {files : FileSystem} (hfiles : files.LinkFree)
    {directory cwd home : Text} (hdirectory : Path.isAbsolute directory = true)
    (hdir : files.isDirectory (Session.start directory cwd home).cwd = true) :
    Settled ⟨Session.start directory cwd home, files⟩ :=
  (stands_start hdirectory hdir).settled hfiles

/-! ## Verbs that take nothing away -/

/-- What happens on the disk keeps the shell settled if it keeps every directory. -/
theorem Action.keeps_onDisk {α : Type} {action : Disk α}
    (h : ∀ c, Keeps (Standing c) action) : Keeps Settled (onDisk action) := by
  intro shell hshell
  obtain ⟨c, hfiles, -, hback⟩ := hshell.exists_place
  have hlater := h c shell.files hfiles
  rw [stateAfter, onDisk]
  cases hrun : action shell.files with
  | ok a files => exact hback files (stateAfter_of_ok hrun ▸ hlater)
  | error e files => exact hback files (stateAfter_of_error hrun ▸ hlater)

namespace Verb

/-- `cd` leads to a directory, or nowhere. -/
theorem keeps_settled_runCd (arguments : List Text) : Keeps Settled (runCd arguments) := by
  intro shell hshell
  cases arguments with
  | nil => exact hshell
  | cons token more =>
    have hstands := hshell.stands
    cases hdir : shell.files.isDirectory (shell.session.resolve token) with
    | true =>
      rw [stateAfter_of_ok (runCd_of_isDirectory hstands hdir more)]
      exact (hstands.goTo hdir).settled hshell.linkFree
    | false =>
      obtain ⟨output, hrun⟩ := runCd_of_not_isDirectory hstands hdir more
      rw [stateAfter_of_ok hrun]
      exact hshell

/-! ## Verbs that take something away -/

/-- The shell is at work in a session whose working directory stands at the place. -/
def AtWork (σ : Session) (c : Location) (shell : Shell) : Prop :=
  shell.session = σ ∧ shell.files.Standing c

variable {σ : Session} {c : Location}

theorem AtWork.settled (hback : ∀ later : FileSystem, later.Standing c → Settled ⟨σ, later⟩)
    (h : AtWork σ c shell) : shell.Settled := by
  obtain ⟨rfl, hfiles⟩ := h
  exact hback _ hfiles

theorem keeps_onDisk_atWork {α : Type} {action : Disk α} (h : Keeps (Standing c) action) :
    Keeps (AtWork σ c) (Action.onDisk action) := Action.keeps_onDisk_within h σ

theorem keeps_atWork_rmOne {name : Text} (h : Disk.Misses c (σ.resolve name)) (recursive : Bool) :
    Keeps (AtWork σ c) (rmOne recursive name) := by
  rintro shell ⟨rfl, hfiles⟩
  have hstart : AtWork shell.session c shell := ⟨rfl, hfiles⟩
  have hremove : Keeps (AtWork shell.session c)
      (Action.onDisk (Disk.removeTree (shell.session.resolve name))) :=
    keeps_onDisk_atWork (Disk.keeps_removeTree h)
  have hunlink : Keeps (AtWork shell.session c)
      (Action.onDisk (Disk.unlink (shell.session.resolve name))) :=
    keeps_onDisk_atWork (Disk.keeps_unlink _)
  refine stateAfter_bind (I := AtWork shell.session c) hstart ?_
  intro path later hrun _
  cases hrun
  refine stateAfter_bind (I := AtWork shell.session c) hstart ?_
  intro now later hrun _
  cases hrun
  dsimp only
  split
  · exact hstart
  split
  · split
    · exact keeps_bind hremove (fun _ => keeps_pure _) shell hstart
    · exact hstart
  · exact keeps_bind hunlink (fun _ => keeps_pure _) shell hstart

/-- The operands that a verb takes away. -/
def removals : Verb → List Text → List Text
  | rm, arguments => arguments.filter (!isFlag ·)
  | rmdir, name :: _ => [name]
  | mv, source :: _ :: _ => [source]
  | _, _ => []

theorem settled_runRm (h : shell.Settled) {arguments : List Text}
    (hrec : ∀ a ∈ removals rm arguments, shell.session.Recognizes (shell.session.resolve a)) :
    Settled (stateAfter (runRm arguments) shell) := by
  obtain ⟨c, hfiles, hc, hback⟩ := h.exists_place
  rw [runRm]
  split
  · exact h
  split
  · exact h
  refine stateAfter_bind h ?_
  intro session later hrun _
  cases hrun
  split
  · exact h
  next hnone =>
  -- every operand has passed the guard before the first one is removed
  have hpass : ∀ name ∈ removals rm arguments,
      Keeps (AtWork shell.session c) (rmOne (arguments.filter isFlag ≠ []) name) := by
    intro name hname
    refine keeps_atWork_rmOne ?_ _
    refine Disk.misses_of_recognizes h.absoluteCwd h.absoluteHome hc (hrec name hname) ?_
    simpa using List.find?_eq_none.1 hnone name hname
  have hlater : AtWork shell.session c (stateAfter (do
      let results ← (removals rm arguments).mapM (rmOne (arguments.filter isFlag ≠ []))
      return Result.combine results) shell) :=
    keeps_bind (keeps_mapM hpass) (fun _ => keeps_pure _) shell ⟨rfl, hfiles⟩
  exact hlater.settled hback

theorem settled_runRmdir (h : shell.Settled) {arguments : List Text}
    (hrec : ∀ a ∈ removals rmdir arguments, shell.session.Recognizes (shell.session.resolve a)) :
    Settled (stateAfter (runRmdir arguments) shell) := by
  obtain ⟨c, hfiles, hc, hback⟩ := h.exists_place
  cases arguments with
  | nil => exact h
  | cons name more =>
    refine stateAfter_bind h ?_
    intro session later hrun _
    cases hrun
    refine stateAfter_bind h ?_
    intro found later hrun _
    cases hrun
    split
    · exact h
    split
    · exact h
    split
    · exact h
    next hpass =>
    split
    · exact h
    have hmisses := Disk.misses_of_recognizes h.absoluteCwd h.absoluteHome hc
      (hrec name List.mem_cons_self) (by simpa using hpass)
    have hlater := keeps_bind (keeps_onDisk_atWork (Disk.keeps_removeDirectory hmisses))
      (fun _ => keeps_pure (Result.success ("Directory '" ++ name ++ "' deleted."))) shell
      ⟨rfl, hfiles⟩
    exact AtWork.settled hback hlater

theorem settled_runMv (h : shell.Settled) {arguments : List Text}
    (hrec : ∀ a ∈ removals mv arguments, shell.session.Recognizes (shell.session.resolve a)) :
    Settled (stateAfter (runMv arguments) shell) := by
  obtain ⟨c, hfiles, hc, hback⟩ := h.exists_place
  match arguments with
  | [] => exact h
  | [_] => exact h
  | sourceName :: targetName :: more =>
    refine stateAfter_bind h ?_
    intro session later hrun _
    cases hrun
    refine stateAfter_bind h ?_
    intro now later hrun _
    cases hrun
    dsimp only
    split
    · exact h
    split
    · exact h
    next hpass =>
    have hmisses := Disk.misses_of_recognizes h.absoluteCwd h.absoluteHome hc
      (hrec sourceName List.mem_cons_self) (by simpa using hpass)
    obtain ⟨s, hs, hsource⟩ := Path.exists_clean_resolve sourceName h.absoluteCwd h.absoluteHome
    obtain ⟨u, hu, htarget⟩ := Path.exists_clean_resolve targetName h.absoluteCwd h.absoluteHome
    have hsource' : shell.session.resolve sourceName = s.toText := hsource
    have htarget' : shell.session.resolve targetName = u.toText := htarget
    rw [hsource'] at hmisses
    rw [hsource', htarget']
    have hparts := hmisses.parts_ne_nil hs
    have hpart := hs.isPart _ (List.getLast_mem hparts)
    have hmove : ∀ v : Spelling, v.IsClean →
        Settled (stateAfter (do
          Action.onDisk (Disk.move s.toText v.toText)
          return Result.success "File moved successfully and original file deleted.") shell) :=
      fun v hv => AtWork.settled hback (keeps_bind
        (keeps_onDisk_atWork (Disk.keeps_move hs hv hmisses)) (fun _ => keeps_pure _) shell
        ⟨rfl, hfiles⟩)
    split
    · rw [Spelling.base_toText_getLast hs hparts, Spelling.join_toText hu hpart]
      exact hmove _ (hu.append_singleton hpart)
    · exact hmove u hu

/-- **A verb keeps a shell settled** if the guard recognizes what it takes away. -/
theorem settled_run (v : Verb) {tokens : List Text} (h : shell.Settled)
    (hrec : ∀ a ∈ v.removals tokens.tail, shell.session.Recognizes (shell.session.resolve a)) :
    Settled (stateAfter (v.run tokens) shell) := by
  cases v with
  | cd => exact keeps_settled_runCd _ shell h
  | pwd => exact h
  | ls => exact keeps_runLs _ shell h
  | mkdir =>
    have hmake := fun path =>
      Action.keeps_onDisk fun _ => Disk.keeps_makeDirectories Disk.keeps_makeDirectory path
    exact keeps_runMkdir hmake _ shell h
  | touch =>
    have hrenew := fun path => Action.keeps_onDisk fun c => Disk.keeps_renewTime (c := c) path
    have hopen := fun path =>
      Action.keeps_onDisk fun c => Disk.keeps_openForWriting (c := c) path false
    exact keeps_runTouch hrenew hopen _ shell h
  | rm => exact settled_runRm h hrec
  | rmdir => exact settled_runRmdir h hrec
  | mv => exact settled_runMv h hrec
  | cat =>
    exact keeps_runCat (fun path => Action.keeps_onDisk fun _ => Disk.keeps_readFile path) _ shell h
  | help => exact h

end Verb

end FileShell
