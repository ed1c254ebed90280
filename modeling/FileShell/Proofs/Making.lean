import FileShell.Proofs.Failing
import FileShell.Proofs.FileSystem.Missing
import FileShell.Proofs.Navigation

/-!
# What `mkdir` makes

`mkdir` looks whether its path leads to something, links followed, and if not makes the directory
and what is missing above it.  So if it succeeds, what is new are directories, one for each
beginning of the path that was missing, and the path leads to the last one; told the same again,
`mkdir` finds the directory and changes nothing.

* `Verb.made_of_takes`: what a `mkdir` that succeeds has asked for.
* `Verb.made_by_mkdir`: what it has made.
-/

namespace FileShell

open Effect FileSystem

variable {shell later : Shell}

namespace Verb

/-- The path of a `mkdir` is spelled as sessions spell theirs. -/
theorem exists_clean_of_creations {arguments : List Text} {path : Text}
    (hcwd : Path.isAbsolute shell.session.cwd = true)
    (hhome : Path.isAbsolute shell.session.home = true)
    (h : mkdir.creations shell.session arguments = [path]) :
    ∃ s : Spelling, s.IsClean ∧ path = s.toText := by
  cases arguments with
  | nil => cases h
  | cons name more =>
    cases h
    refine Path.exists_clean_resolve name ?_ hhome
    split
    · next second others => exact Path.isAbsolute_resolve second hcwd hhome
    · exact hcwd

/-- A `mkdir` whose name is not blank depends on what its path leads to. -/
theorem runMkdir_eq {name path : Text} {more : List Text} (hname : name.trim ≠ [])
    (hpath : mkdir.creations shell.session (name :: more) = [path]) :
    runMkdir (name :: more) shell =
      (if shell.files.isPresent path = true then
        return .failure .alreadyExists "Error: Directory already exists."
      else do
        Action.onDisk (Disk.makeDirectories path)
        return .success ("Directory '" ++ name ++ "' created at " ++ path) : Action Result)
      shell := by
  cases hpath
  rw [runMkdir, if_neg hname, bind_of_ok (Action.session_eq shell)]
  exact bind_of_ok (Action.ask_eq _ shell)

/-- **What a `mkdir` that succeeds has asked for**: its path led to nothing, and the request for the
directories was granted.  Where its path leads to something, it has nothing to ask for. -/
theorem made_of_takes {arguments : List Text}
    (h : Action.Takes (runMkdir arguments) shell later) :
    ∃ path, mkdir.creations shell.session arguments = [path] ∧
      shell.files.isPresent path = false ∧
      (∃ files, Disk.makeDirectories path shell.files = .ok () files ∧
        later = ⟨shell.session, files⟩) ∧
      ∀ files : FileSystem, files.isPresent path = true →
        ∃ again, runMkdir arguments ⟨shell.session, files⟩ = .ok again ⟨shell.session, files⟩ ∧
          again.error = some .alreadyExists := by
  obtain ⟨result, hrun, hok⟩ := h
  cases arguments with
  | nil =>
    cases hrun
    cases hok
  | cons name more =>
    by_cases hname : name.trim = []
    · rw [runMkdir, if_pos hname] at hrun
      cases hrun
      cases hok
    · obtain ⟨path, hpath⟩ : ∃ path, mkdir.creations shell.session (name :: more) = [path] :=
        ⟨_, rfl⟩
      rw [runMkdir_eq hname hpath] at hrun
      refine ⟨path, hpath, ?_⟩
      by_cases hpresent : shell.files.isPresent path = true
      · rw [if_pos hpresent] at hrun
        cases hrun
        cases hok
      · rw [if_neg hpresent] at hrun
        obtain ⟨done, last, hdisk, hend⟩ := bind_eq_ok.1 hrun
        cases hend
        refine ⟨by simpa using hpresent, Action.onDisk_eq_ok.1 hdisk, ?_⟩
        intro files hthere
        have hagain := @runMkdir_eq ⟨shell.session, files⟩ name path more hname hpath
        rw [if_pos hthere] at hagain
        exact ⟨_, hagain, rfl⟩

/-- **What `mkdir` makes.**  If it succeeds, its path led to nothing and leads to a directory now, and
what is new are directories, one for each beginning of the path that led to nothing.  The same
command once more is told that the directory exists, and changes nothing. -/
theorem made_by_mkdir {tokens : List Text} (hcwd : Path.isAbsolute shell.session.cwd = true)
    (hhome : Path.isAbsolute shell.session.home = true)
    (h : Action.Takes (mkdir.run tokens) shell later) :
    ∃ path, mkdir.creations shell.session tokens.tail = [path] ∧
      shell.files.isPresent path = false ∧ later.files.isDirectory path = true ∧
      later.session = shell.session ∧
      Fills shell.files later.files (Spelling.ofText path) ∧
      ∃ again, mkdir.run tokens later = .ok again later ∧ again.error = some .alreadyExists := by
  change Action.Takes (runMkdir tokens.tail) shell later at h
  obtain ⟨path, hpath, habsent, ⟨files, hmake, rfl⟩, hagain⟩ := made_of_takes h
  obtain ⟨s, hs, rfl⟩ := exists_clean_of_creations hcwd hhome hpath
  obtain ⟨q, -, hmade, hnames⟩ := Disk.makeDirectories_eq_ok hs hmake
  have hleads := hnames.leads hs hmade.isDirectory
  refine ⟨s.toText, hpath, habsent, isDirectory_iff.2 ⟨q, hleads⟩, rfl, ?_,
    hagain files hleads.isPresent⟩
  rw [Spelling.ofText_toText hs]
  exact Disk.fills_of_makeDirectories hs hmake

/-- The base is the link `l`, the path goes up to `l` again, and two directories are missing: they
are made in the directory `d` to which the link leads. -/
theorem made_by_mkdir_behind_link :
    let a : Name := ⟨[0x61], by decide⟩
    let b : Name := ⟨[0x62], by decide⟩
    let d : Name := ⟨[0x64], by decide⟩
    let l : Name := ⟨[0x6C], by decide⟩
    let files := (FileSystem.empty.create [d] (.directory []) Node.tidy_empty).create [l]
      (.link [0x64]) (.link _)
    let shell : Shell := ⟨⟨"/", "/"⟩, files⟩
    let tokens : List Text := ["mkdir", "../l/a/b", "l"]
    ∃ later, Action.Takes (mkdir.run tokens) shell later ∧
      later.files.entries =
        [(d, .directory [(a, .directory [(b, .directory [])])]), (l, .link [0x64])] ∧
      Fills files later.files (Spelling.ofText "/l/a/b") ∧
      ∃ again, mkdir.run tokens later = .ok again later ∧ again.error = some .alreadyExists := by
  intro a b d l files shell tokens
  have hvalue : value? (mkdir.run tokens) shell =
      some (.success "Directory '../l/a/b' created at /l/a/b") := by decide +kernel
  obtain ⟨later, hrun⟩ := value?_eq_some_iff.1 hvalue
  have hentries : (stateAfter (mkdir.run tokens) shell).files.entries =
      [(d, .directory [(a, .directory [(b, .directory [])])]), (l, .link [0x64])] := by
    decide +kernel
  rw [stateAfter_of_ok hrun] at hentries
  have hpath : mkdir.creations shell.session tokens.tail = [Text.ofString "/l/a/b"] := by
    decide +kernel
  have habs : Path.isAbsolute shell.session.cwd = true := by decide +kernel
  have htakes : Action.Takes (mkdir.run tokens) shell later := ⟨_, hrun, rfl⟩
  obtain ⟨path, hcreated, -, -, -, hfills, hagain⟩ := made_by_mkdir habs habs htakes
  cases hpath.symm.trans hcreated
  exact ⟨later, htakes, hentries, hfills, hagain⟩

end Verb

end FileShell
