import FileShell.Proofs.Effects
import FileShell.Proofs.Path.Parent
import FileShell.Proofs.Path.Steps
import FileShell.Verb.Run

/-!
# Going from directory to directory

A shell that stands in an existing directory goes with `cd` to the directory that the path of the
token leads to, and stays if that leads to none.  For the step up, which has a way of its own, this
is so because there is always a directory above.  So `cd` goes by paths alone: two steps may be made
at once, the step up may be spelled otherwise, and it undoes a step down.

* `Shell.Stands`: the working directory exists, and its path is spelled as sessions do.
* `Verb.run_cd_takes_iff`: when `cd` succeeds, and where it takes the shell.
* `Verb.run_cd_step_by_step`: two steps, and both at once.
* `Verb.run_cd_two_ways_up`: the two ways up, and up again after a step down.
-/

namespace FileShell

open Effect FileSystem

/-- The working directory exists under an absolute normalized path, and the home directory has an
absolute path. -/
structure Shell.Stands (shell : Shell) : Prop where
  absoluteHome : Path.isAbsolute shell.session.home = true
  absoluteCwd : Path.isAbsolute shell.session.cwd = true
  normalCwd : Path.normalize shell.session.cwd = shell.session.cwd
  isDirectory : shell.files.isDirectory shell.session.cwd = true

/-- The shell with another working directory. -/
def Shell.goTo (shell : Shell) (cwd : Text) : Shell :=
  ⟨{ shell.session with cwd := cwd }, shell.files⟩

variable {shell : Shell}

namespace Shell

theorem Stands.exists_clean (h : shell.Stands) :
    ∃ s : Spelling, s.IsClean ∧ shell.session.cwd = s.toText :=
  Path.exists_clean_iff.2 ⟨h.absoluteCwd, h.normalCwd⟩

/-- A session that starts in a directory stands there. -/
theorem stands_start {files : FileSystem} {directory cwd home : Text}
    (hdirectory : Path.isAbsolute directory = true)
    (hdir : files.isDirectory (Session.start directory cwd home).cwd = true) :
    Stands ⟨Session.start directory cwd home, files⟩ := by
  have habsolute : ∀ p, ∃ s : Spelling, s.IsClean ∧ Path.absolute directory p = s.toText := by
    intro p
    refine Path.exists_clean_normalize ?_
    split
    · next h => exact h
    · exact Path.isAbsolute_join hdirectory
  have hcwd := Path.exists_clean_iff.1 (habsolute cwd)
  exact ⟨(Path.exists_clean_iff.1 (habsolute home)).1, hcwd.1, hcwd.2, hdir⟩

/-- A shell stands in the directory that a token leads to. -/
theorem Stands.goTo (h : shell.Stands) {token : Text}
    (hdir : shell.files.isDirectory (shell.session.resolve token) = true) :
    (shell.goTo (shell.session.resolve token)).Stands := by
  have hcwd := Path.exists_clean_iff.1
    (Path.exists_clean_resolve token h.absoluteCwd h.absoluteHome)
  exact ⟨h.absoluteHome, hcwd.1, hcwd.2, hdir⟩

/-- There is a directory above. -/
theorem Stands.isDirectory_up (h : shell.Stands) :
    shell.files.isDirectory (shell.session.resolve Path.up) = true := by
  obtain ⟨s, hs, hcwd⟩ := h.exists_clean
  have hdir := h.isDirectory
  rw [hcwd] at hdir
  obtain ⟨d, hleads⟩ := isDirectory_iff.1 hdir
  rw [Session.resolve, hcwd, Path.resolve_up hs]
  exact isDirectory_iff.2 (hleads.exists_parent hs)

end Shell

/-! ## Where `cd` ends -/

namespace Action

/-- The action succeeds, and takes the shell to another one. -/
def Takes (x : Action Result) (shell later : Shell) : Prop :=
  ∃ result, x shell = .ok result later ∧ result.isOk = true

theorem changeDirectory_of_isDirectory {s : Spelling} (hs : s.IsClean)
    (h : shell.files.isDirectory s.toText = true) :
    changeDirectory s.toText shell = .ok true (shell.goTo s.toText) := by
  rw [changeDirectory, bind_of_ok (ask_eq _ shell), h, Path.normalize_toText hs]
  rfl

theorem changeDirectory_of_not_isDirectory {path : Text}
    (h : shell.files.isDirectory path = false) :
    changeDirectory path shell = .ok false shell := by
  rw [changeDirectory, bind_of_ok (ask_eq _ shell), h]
  rfl

end Action

namespace Verb

theorem runCd_up (h : shell.Stands) (more : List Text) :
    runCd (Path.up :: more) shell =
      .ok (.success []) (shell.goTo (shell.session.resolve Path.up)) := by
  have habove := h.isDirectory_up
  obtain ⟨s, hs, hcwd⟩ := h.exists_clean
  have hpath : shell.session.resolve Path.up = s.parent.toText := by
    rw [Session.resolve, hcwd]
    exact Path.resolve_up hs _
  rw [hpath] at habove ⊢
  rw [runCd, if_pos rfl, bind_of_ok (Action.session_eq shell), hcwd, Path.parent?_toText hs]
  by_cases hp : s.parts = []
  · -- the root has no parent, and is above itself
    rw [if_pos hp, Spelling.parent_eq_self hp, ← hcwd]
    rfl
  · rw [if_neg hp]
    dsimp only
    rw [bind_of_ok (Action.changeDirectory_of_isDirectory hs.parent habove)]
    rfl

/-- **Where the path of a token leads to a directory, `cd` goes there.** -/
theorem runCd_of_isDirectory (h : shell.Stands) {token : Text}
    (hdir : shell.files.isDirectory (shell.session.resolve token) = true) (more : List Text) :
    runCd (token :: more) shell =
      .ok (.success []) (shell.goTo (shell.session.resolve token)) := by
  by_cases hup : token = Path.up
  · rw [hup]
    exact runCd_up h more
  · obtain ⟨s, hs, hpath⟩ := Path.exists_clean_resolve token h.absoluteCwd h.absoluteHome
    change shell.session.resolve token = s.toText at hpath
    rw [hpath] at hdir
    rw [runCd, if_neg hup, bind_of_ok (Action.resolve_eq token shell), hpath,
      bind_of_ok (Action.changeDirectory_of_isDirectory hs hdir)]
    rfl

/-- Where it leads to none, `cd` stays, and its error tells if it leads to something else. -/
theorem runCd_of_not_isDirectory (h : shell.Stands) {token : Text}
    (hdir : shell.files.isDirectory (shell.session.resolve token) = false) (more : List Text) :
    ∃ output, runCd (token :: more) shell =
      .ok (.failure (if shell.files.isPresent (shell.session.resolve token) then .notADirectory
        else .notFound) output) shell := by
  have hup : token ≠ Path.up := by
    rintro rfl
    rw [h.isDirectory_up] at hdir
    cases hdir
  rw [runCd, if_neg hup, bind_of_ok (Action.resolve_eq token shell),
    bind_of_ok (Action.changeDirectory_of_not_isDirectory hdir), if_neg Bool.false_ne_true,
    bind_of_ok (Action.ask_eq _ shell)]
  split
  · exact ⟨_, rfl⟩
  · exact ⟨_, rfl⟩

/-- **When `cd` succeeds, and where it takes the shell**: the path of the token leads to a directory,
and is the path of the working directory afterwards. -/
theorem run_cd_takes_iff (h : shell.Stands) {verb token : Text} {more : List Text}
    {later : Shell} :
    Action.Takes (cd.run (verb :: token :: more)) shell later ↔
      shell.files.isDirectory (shell.session.resolve token) = true ∧
        later = shell.goTo (shell.session.resolve token) := by
  show (∃ result, runCd (token :: more) shell = .ok result later ∧ result.isOk = true) ↔ _
  cases hdir : shell.files.isDirectory (shell.session.resolve token) with
  | true =>
    rw [runCd_of_isDirectory h hdir]
    constructor
    · rintro ⟨result, ⟨⟩, -⟩
      exact ⟨rfl, rfl⟩
    · rintro ⟨-, rfl⟩
      exact ⟨_, rfl, rfl⟩
  | false =>
    obtain ⟨output, hrun⟩ := runCd_of_not_isDirectory h hdir more
    rw [hrun]
    constructor
    · rintro ⟨result, ⟨⟩, hok⟩
      cases hok
    · rintro ⟨⟨⟩, -⟩

/-! ## Two steps -/

/-- **Two steps may be made at once**, if the tokens are seen from the working directory.  The path
that the second names, seen from the path that the first names, is the path of the two with a slash
between them; so where `cd` succeeds with one after the other, it succeeds with the two at once, and
takes the shell to the same directory. -/
theorem run_cd_step_by_step (verb : Text) {a b : Text} (hne : a ≠ []) (ha : Path.IsLocal a)
    (hb : Path.IsLocal b) :
    (∀ cwd home : Text, Path.isAbsolute cwd = true →
      Path.resolve b (Path.resolve a cwd home) home =
        Path.resolve (a ++ .scalar '/' :: b) cwd home) ∧
      ∀ shell mid last : Shell, shell.Stands → Action.Takes (cd.run [verb, a]) shell mid →
        Action.Takes (cd.run [verb, b]) mid last →
          Action.Takes (cd.run [verb, a ++ .scalar '/' :: b]) shell last := by
  refine ⟨fun cwd home hcwd => Path.resolve_resolve_local hcwd ha hne hb home, ?_⟩
  intro shell mid last h hfirst hsecond
  obtain ⟨hmid, rfl⟩ := (run_cd_takes_iff h).1 hfirst
  obtain ⟨hlast, rfl⟩ := (run_cd_takes_iff (h.goTo hmid)).1 hsecond
  have hpath : (shell.goTo (shell.session.resolve a)).session.resolve b =
      shell.session.resolve (a ++ .scalar '/' :: b) :=
    Path.resolve_resolve_local h.absoluteCwd ha hne hb _
  rw [hpath] at hlast ⊢
  exact (run_cd_takes_iff h).2 ⟨hlast, rfl⟩

/-- Through the link `l` and up again: both ways the shell ends beside the link, not above the
directory to which it leads. -/
theorem run_cd_step_by_step_over_link :
    let d : Name := ⟨[0x64], by decide⟩
    let e : Name := ⟨[0x65], by decide⟩
    let l : Name := ⟨[0x6C], by decide⟩
    let files := ((FileSystem.empty.create [d] (.directory []) Node.tidy_empty).create [d, e]
      (.directory []) Node.tidy_empty).create [l] (.link [0x64, 0x2F, 0x65]) (.link _)
    let shell : Shell := ⟨⟨"/", "/"⟩, files⟩
    let a : Text := "l"
    let b : Text := "..//d"
    a ≠ [] ∧ Path.IsLocal a ∧ Path.IsLocal b ∧ shell.Stands ∧
      Action.Takes (cd.run ["cd", a]) shell (shell.goTo "/l") ∧
      Action.Takes (cd.run ["cd", b]) (shell.goTo "/l") (shell.goTo "/d") ∧
      Action.Takes (cd.run ["cd", a ++ .scalar '/' :: b]) shell (shell.goTo "/d") := by
  intro d e l files shell a b
  have hne : a ≠ [] := by decide
  have ha : Path.IsLocal a := by decide +kernel
  have hb : Path.IsLocal b := by decide +kernel
  have h : shell.Stands :=
    ⟨by decide +kernel, by decide +kernel, by decide +kernel, by decide +kernel⟩
  have hmid : shell.session.resolve a = "/l" := by decide +kernel
  have hlast : (shell.goTo "/l").session.resolve b = "/d" := by decide +kernel
  have hdir : shell.files.isDirectory (shell.session.resolve a) = true := by decide +kernel
  have hstands := h.goTo hdir
  rw [hmid] at hstands
  have hfirst : Action.Takes (cd.run ["cd", a]) shell (shell.goTo "/l") :=
    (run_cd_takes_iff h).2 ⟨hdir, by rw [hmid]⟩
  have hsecond : Action.Takes (cd.run ["cd", b]) (shell.goTo "/l") (shell.goTo "/d") :=
    (run_cd_takes_iff hstands).2 ⟨by decide +kernel, by rw [hlast]; rfl⟩
  exact ⟨hne, ha, hb, h, hfirst, hsecond,
    (run_cd_step_by_step "cd" hne ha hb).2 shell _ _ h hfirst hsecond⟩

/-! ## Up -/

/-- A stay before the step up makes no difference. -/
theorem resolve_here_up (h : shell.Stands) :
    shell.session.resolve "./.." = shell.session.resolve Path.up := by
  have hparts : (Spelling.ofText "./..").parts = (Spelling.ofText Path.up).parts := by
    decide +kernel
  have hstay : Path.IsLocal "./.." := by decide +kernel
  have hup : Path.IsLocal Path.up := by decide
  rw [Session.resolve, Session.resolve, Path.resolve_eq_reduce h.absoluteCwd hstay,
    Path.resolve_eq_reduce h.absoluteCwd hup, hparts]

/-- A step up takes back a step down. -/
theorem resolve_up_goTo (h : shell.Stands) {x : Text} (hx : Path.IsPart x) (htilde : x ≠ Path.tilde) :
    (shell.goTo (shell.session.resolve x)).session.resolve Path.up = shell.session.cwd := by
  obtain ⟨s, hs, hcwd⟩ := h.exists_clean
  have hpath : shell.session.resolve x = (s.append [x]).toText := by
    rw [Session.resolve, hcwd]
    exact Path.resolve_part hs hx htilde _
  have hparent : (s.append [x]).parent = s := by simp [Spelling.parent, Spelling.append]
  rw [hpath, hcwd]
  exact (Path.resolve_up (hs.append_singleton hx) _).trans (by rw [hparent])

/-- **The two ways up agree.**  The parent of an absolute normalized path is what `..` names there,
and only the roots have none.  `cd` goes up the one way and the other alike, also where the working
directory was entered through links; and after a step down by one part it goes back to where the
shell was. -/
theorem run_cd_two_ways_up :
    (∀ p home : Text, Path.isAbsolute p = true → Path.normalize p = p →
      (Path.parent? p = none ↔ Path.IsRoot p) ∧
        (¬ Path.IsRoot p → Path.parent? p = some (Path.resolve Path.up p home))) ∧
      ∀ (verb : Text) (shell : Shell), shell.Stands →
        (Action.Takes (cd.run [verb, ".."]) shell
            (shell.goTo (shell.session.resolve Path.up)) ∧
          Action.Takes (cd.run [verb, "./.."]) shell
            (shell.goTo (shell.session.resolve Path.up))) ∧
        ∀ (x : Text) (below : Shell), Path.IsPart x → x ≠ Path.tilde →
          Action.Takes (cd.run [verb, x]) shell below →
            Action.Takes (cd.run [verb, ".."]) below shell := by
  refine ⟨?_, ?_⟩
  · intro p home habs hnormal
    obtain ⟨s, hs, rfl⟩ := Path.exists_clean_iff.2 ⟨habs, hnormal⟩
    rw [Path.parent?_toText hs, hs.isRoot_toText, Path.resolve_up hs]
    constructor
    · split
      · next hroot => exact ⟨fun _ => hroot, fun _ => rfl⟩
      · next hroot => exact ⟨by rintro ⟨⟩, fun h => absurd h hroot⟩
    · intro hroot
      rw [if_neg hroot]
  · intro verb shell h
    refine ⟨⟨?_, ?_⟩, ?_⟩
    · exact (run_cd_takes_iff h).2 ⟨h.isDirectory_up, rfl⟩
    · rw [← resolve_here_up h]
      refine (run_cd_takes_iff h).2 ⟨?_, rfl⟩
      rw [resolve_here_up h]
      exact h.isDirectory_up
    · intro x below hx htilde hdown
      obtain ⟨hdir, rfl⟩ := (run_cd_takes_iff h).1 hdown
      have hback := resolve_up_goTo h hx htilde
      refine (run_cd_takes_iff (h.goTo hdir)).2 ⟨(h.goTo hdir).isDirectory_up, ?_⟩
      show shell = _
      rw [show Text.ofString ".." = Path.up from rfl, hback]
      rfl

/-- The shell stands behind the link `l`, below the root as its path tells, and goes down to `t`. -/
theorem run_cd_two_ways_up_behind_link :
    let d : Name := ⟨[0x64], by decide⟩
    let t : Name := ⟨[0x74], by decide⟩
    let l : Name := ⟨[0x6C], by decide⟩
    let files := ((FileSystem.empty.create [d] (.directory []) Node.tidy_empty).create [d, t]
      (.directory []) Node.tidy_empty).create [l] (.link [0x64]) (.link _)
    let shell : Shell := ⟨⟨"/l", "/"⟩, files⟩
    Path.isAbsolute "/l" = true ∧ Path.normalize "/l" = "/l" ∧ ¬ Path.IsRoot "/l" ∧
      Path.parent? "/l" = some (Path.resolve Path.up "/l" "/") ∧
      shell.Stands ∧ Path.IsPart "t" ∧ Text.ofString "t" ≠ Path.tilde ∧
      Action.Takes (cd.run ["cd", ".."]) shell (shell.goTo "/") ∧
      Action.Takes (cd.run ["cd", "./.."]) shell (shell.goTo "/") ∧
      Action.Takes (cd.run ["cd", "t"]) shell (shell.goTo "/l/t") ∧
      Action.Takes (cd.run ["cd", ".."]) (shell.goTo "/l/t") shell := by
  intro d t l files shell
  have habs : Path.isAbsolute "/l" = true := by decide +kernel
  have hnormal : Path.normalize "/l" = "/l" := by decide +kernel
  have hroot : ¬ Path.IsRoot "/l" := by decide +kernel
  have h : shell.Stands := ⟨by decide +kernel, habs, hnormal, by decide +kernel⟩
  have hpart : Path.IsPart "t" :=
    ⟨by decide +kernel, by decide +kernel, by decide +kernel, by decide +kernel⟩
  have htilde : Text.ofString "t" ≠ Path.tilde := by decide +kernel
  have hup : shell.session.resolve Path.up = "/" := by decide +kernel
  have hdown : shell.session.resolve "t" = "/l/t" := by decide +kernel
  have hbelow : Action.Takes (cd.run ["cd", "t"]) shell (shell.goTo "/l/t") :=
    (run_cd_takes_iff h).2 ⟨by decide +kernel, by rw [hdown]⟩
  have hways := run_cd_two_ways_up.2 "cd" shell h
  rw [hup] at hways
  exact ⟨habs, hnormal, hroot, (run_cd_two_ways_up.1 "/l" "/" habs hnormal).2 hroot, h, hpart,
    htilde, hways.1.1, hways.1.2, hbelow, hways.2 "t" _ hpart htilde hbelow⟩

end Verb

end FileShell
