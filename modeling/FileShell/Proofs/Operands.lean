import FileShell.Proofs.Contents
import FileShell.Proofs.Navigation
import FileShell.Proofs.Stages
import FileShell.Proofs.Verbs

/-!
# Operands and their paths

A verb uses an operand only to find a path.  Where it takes a token for a path, the absolute path
that the token names does as well: the verb ends in the same shell, with an error of the same kind
or with the same failure.  Only what it says may differ, for it says the operand as it was typed.

* `Verb.TakesPath`, `Verb.pathOf`: which tokens a verb takes for paths, and for which ones.
* `Verb.Alike`: two actions do the same and report the same kind of error.
* `Verb.alike_runCd`: the step up too, which is the one token that is not resolved.
* `Verb.error_run_pathOf`: a token and its path do the same.
-/

namespace FileShell

open FileSystem

/-! ## Absolute paths -/

namespace Path

variable {p : Text}

theorem head?_of_isAbsolute (h : isAbsolute p = true) : p.head? = some (.scalar '/') := by
  simpa [isAbsolute] using h

/-- A path that starts with a slash is not blank. -/
theorem not_isBlank_of_isAbsolute (h : isAbsolute p = true) : ¬ p.IsBlank := by
  intro hblank
  have hslash := hblank _ (List.mem_of_mem_head? (head?_of_isAbsolute h))
  revert hslash
  decide

end Path

namespace Verb

/-! ## Which tokens are paths -/

/-- Does a verb take a token for a path, after the arguments before it? -/
def TakesPath (v : Verb) (before : List Text) (token : Text) : Prop :=
  match v with
  | cd | rmdir => before = []
  | mkdir | mv => before.length < 2
  | touch | cat => True
  | ls => token.head? ≠ some (.scalar '-')
  | rm => isFlag token = false
  | pwd | help => False

instance (v : Verb) (before : List Text) (token : Text) : Decidable (v.TakesPath before token) :=
  match v with
  | cd | rmdir => inferInstanceAs (Decidable (before = []))
  | mkdir | mv => inferInstanceAs (Decidable (before.length < 2))
  | touch | cat => inferInstanceAs (Decidable True)
  | ls => inferInstanceAs (Decidable (token.head? ≠ some (.scalar '-')))
  | rm => inferInstanceAs (Decidable (isFlag token = false))
  | pwd | help => inferInstanceAs (Decidable False)

/-- The directory from which a verb sees a token: `mkdir` sees the directory to be made from the one
that is named after it, and all else is seen from the working directory. -/
def viewpoint (v : Verb) (σ : Session) (before after : List Text) : Text :=
  match v, before, after with
  | mkdir, [], base :: _ => σ.resolve base
  | _, _, _ => σ.cwd

/-- The path for which a verb takes a token between other arguments. -/
def pathOf (v : Verb) (σ : Session) (before : List Text) (token : Text) (after : List Text) :
    Text :=
  Path.resolve token (v.viewpoint σ before after) σ.home

open Effect

variable {shell : Shell}

/-- Two actions end in the same shell, with an error of the same kind or with the same failure. -/
abbrev Alike (x y : Action Result) (shell : Shell) : Prop := EndsLike Result.error x y shell

/-! ## One operand -/

section Operand

variable {token path : Text} (h : shell.session.resolve path = shell.session.resolve token)

include h

theorem alike_resolve_bind {f g : Text → Action Result}
    (hfg : Alike (f (shell.session.resolve token)) (g (shell.session.resolve token)) shell) :
    Alike (Action.resolve token >>= f) (Action.resolve path >>= g) shell := by
  have hpath : Action.resolve path shell = .ok (shell.session.resolve token) shell :=
    h ▸ Action.resolve_eq path shell
  exact endsLike_bind_of_ok (Action.resolve_eq token shell) hpath hfg

theorem alike_touchOne : Alike (touchOne token) (touchOne path) shell := by
  refine alike_resolve_bind h ?_
  refine endsLike_bind_same _ ?_
  intro present later
  split
  · exact endsLike_bind_same _ fun _ _ => endsLike_pure rfl
  · exact endsLike_bind_same _ fun _ _ => endsLike_pure rfl

theorem alike_rmOne (recursive : Bool) :
    Alike (rmOne recursive token) (rmOne recursive path) shell := by
  refine alike_resolve_bind h ?_
  refine endsLike_bind_same _ ?_
  intro now later
  dsimp only
  split
  · exact endsLike_pure rfl
  split
  · split
    · exact endsLike_bind_same _ fun _ _ => endsLike_pure rfl
    · exact endsLike_pure rfl
  · exact endsLike_bind_same _ fun _ _ => endsLike_pure rfl

theorem alike_runRmdir (after : List Text) :
    Alike (runRmdir (token :: after)) (runRmdir (path :: after)) shell := by
  refine endsLike_bind_of_ok (Action.session_eq shell) (Action.session_eq shell) ?_
  dsimp only
  rw [h]
  refine endsLike_bind_same _ ?_
  intro found later
  split
  · exact endsLike_pure rfl
  split
  · exact endsLike_pure rfl
  split
  · exact endsLike_pure rfl
  split
  · exact endsLike_pure rfl
  · exact endsLike_bind_same _ fun _ _ => endsLike_pure rfl

theorem alike_runMv_source (after : List Text) :
    Alike (runMv (token :: after)) (runMv (path :: after)) shell := by
  cases after with
  | nil => exact endsLike_refl _ _ _
  | cons target more =>
    refine endsLike_bind_of_ok (Action.session_eq shell) (Action.session_eq shell) ?_
    dsimp only
    rw [h]
    refine endsLike_bind_same _ ?_
    intro now later
    split
    · exact endsLike_pure rfl
    split
    · exact endsLike_pure rfl
    · exact endsLike_refl _ _ _

theorem alike_runMv_target (source : Text) (after : List Text) :
    Alike (runMv (source :: token :: after)) (runMv (source :: path :: after)) shell := by
  refine endsLike_bind_of_ok (Action.session_eq shell) (Action.session_eq shell) ?_
  dsimp only
  rw [h]
  exact endsLike_refl _ _ _

theorem alike_runMkdir_base (name : Text) (after : List Text) :
    Alike (runMkdir (name :: token :: after)) (runMkdir (name :: path :: after)) shell := by
  rw [runMkdir, runMkdir]
  split
  · exact endsLike_refl _ _ _
  refine endsLike_bind_of_ok (Action.session_eq shell) (Action.session_eq shell) ?_
  dsimp only
  rw [h]
  exact endsLike_refl _ _ _

end Operand

theorem alike_runMkdir_name {token path : Text} {after : List Text} (htoken : token.trim ≠ [])
    (hpath : path.trim ≠ [])
    (h : Path.resolve path (mkdir.viewpoint shell.session [] after) shell.session.home =
      Path.resolve token (mkdir.viewpoint shell.session [] after) shell.session.home) :
    Alike (runMkdir (token :: after)) (runMkdir (path :: after)) shell := by
  rw [runMkdir, runMkdir, if_neg htoken, if_neg hpath]
  refine endsLike_bind_of_ok (Action.session_eq shell) (Action.session_eq shell) ?_
  -- with and without a base, the directory is looked for and made at the one path
  cases after
  all_goals
    simp only [viewpoint] at h
    dsimp only
    rw [h]
    refine endsLike_bind_same _ ?_
    intro present later
    split
    · exact endsLike_pure rfl
    · exact endsLike_bind_same _ fun _ _ => endsLike_pure rfl

/-! ## Going elsewhere -/

theorem alike_runCd (h : shell.Stands) (token : Text) (after : List Text) :
    Alike (runCd (token :: after)) (runCd (shell.session.resolve token :: after)) shell := by
  have hpath : shell.session.resolve (shell.session.resolve token) = shell.session.resolve token :=
    Path.resolve_resolve token h.absoluteCwd h.absoluteHome _
  cases hdir : shell.files.isDirectory (shell.session.resolve token) with
  | true =>
    refine endsLike_of_eq ?_
    rw [runCd_of_isDirectory h hdir, runCd_of_isDirectory h (hpath.symm ▸ hdir), hpath]
  | false =>
    obtain ⟨output, hrun⟩ := runCd_of_not_isDirectory h hdir after
    obtain ⟨said, hpathRun⟩ := runCd_of_not_isDirectory h (hpath.symm ▸ hdir) after
    rw [Alike, EndsLike, map_run, map_run, hrun, hpathRun, hpath]
    rfl

/-! ## Many operands -/

section Operands

variable {token path : Text} {before after : List Text}

theorem findSome?_error_congr {results others : List Result}
    (h : results.map Result.error = others.map Result.error) :
    results.findSome? Result.error = others.findSome? Result.error := by
  rw [← Function.id_comp Result.error, ← List.findSome?_map, h, List.findSome?_map]

/-- The results of the operands are put together as their errors are. -/
theorem endsLike_combine {x y : Action (List Result)}
    (h : EndsLike (List.map Result.error) x y shell) :
    Alike (return .combine (← x)) (return .combine (← y)) shell := by
  refine endsLike_bind h ?_
  rintro results others later - herrors
  exact endsLike_pure (findSome?_error_congr herrors)

variable (h : shell.session.resolve path = shell.session.resolve token)

include h

/-- What is done to one operand after another is done alike with a token and with its path. -/
theorem alike_mapM {f : Text → Action Result}
    (hkeeps : ∀ t, Keeps (fun later => later.session = shell.session) (f t))
    (hf : ∀ later : Shell, later.session.resolve path = later.session.resolve token →
      Alike (f token) (f path) later) :
    EndsLike (List.map Result.error) ((before ++ token :: after).mapM f)
      ((before ++ path :: after).mapM f) shell := by
  refine endsLike_mapM before after hkeeps ?_ rfl
  intro later hlater
  exact hf later (hlater ▸ h)

theorem alike_runTouch :
    Alike (runTouch (before ++ token :: after)) (runTouch (before ++ path :: after)) shell := by
  rw [runTouch, runTouch, if_neg (by simp), if_neg (by simp)]
  have hkeeps := keeps_touchOne (fun _ => Action.keeps_session_onDisk _ shell.session)
    fun _ => Action.keeps_session_onDisk _ shell.session
  exact endsLike_combine (alike_mapM h hkeeps fun _ => alike_touchOne)

theorem alike_runCat :
    Alike (runCat (before ++ token :: after)) (runCat (before ++ path :: after)) shell := by
  have herror : (shell.contribution token).error = (shell.contribution path).error := by
    rw [Shell.contribution, Shell.contribution, h]
    split <;> rfl
  rw [Alike, EndsLike, map_run, map_run, runCat_eq (by simp), runCat_eq (by simp)]
  simp only [Shell.contents, List.findSome?_append, List.findSome?_cons, herror]

theorem alike_runRm (htoken : isFlag token = false) (hpath : isFlag path = false) :
    Alike (runRm (before ++ token :: after)) (runRm (before ++ path :: after)) shell := by
  have hkeeps := fun recursive => keeps_rmOne
    (fun _ => Action.keeps_session_onDisk _ shell.session) recursive
    fun _ _ => Action.keeps_session_onDisk _ shell.session
  simp only [runRm, List.filter_append, List.filter_cons, htoken, hpath, Bool.not_false,
    Bool.false_eq_true, if_false, if_true]
  split
  · exact endsLike_refl _ _ _
  rw [if_neg (by simp), if_neg (by simp)]
  refine endsLike_bind_of_ok (Action.session_eq shell) (Action.session_eq shell) ?_
  simp only [List.find?_append, List.find?_cons, h]
  generalize before.filter (fun x => !isFlag x) = others
  generalize after.filter (fun x => !isFlag x) = more
  cases others.find? fun name => shell.session.standsIn (shell.session.resolve name) with
  | some name => exact endsLike_refl _ _ _
  | none =>
    simp only [Option.none_or]
    cases shell.session.standsIn (shell.session.resolve token) with
    | true => exact endsLike_pure rfl
    | false =>
      dsimp only
      split
      · exact endsLike_refl _ _ _
      · exact endsLike_combine (alike_mapM h (hkeeps _) fun _ hlater => alike_rmOne hlater _)

theorem alike_listOrName (hidden recursive : Bool) (others more : List Text) :
    Alike (listOrName ⟨hidden, recursive, others ++ token :: more⟩)
      (listOrName ⟨hidden, recursive, others ++ path :: more⟩) shell := by
  simp only [listOrName, List.length_append, List.length_cons]
  split
  · exact endsLike_refl _ _ _
  cases others with
  | cons first rest => exact endsLike_refl _ _ _
  | nil =>
    simp only [List.nil_append, List.head?_cons]
    refine alike_resolve_bind h ?_
    refine endsLike_bind_same _ ?_
    intro present later
    split
    · exact endsLike_pure rfl
    refine endsLike_bind_same _ ?_
    intro isdir later
    split
    · exact endsLike_pure rfl
    · exact endsLike_refl _ _ _

theorem alike_runLs (htoken : token.head? ≠ some (.scalar '-'))
    (hpath : path.head? ≠ some (.scalar '-')) :
    Alike (runLs (before ++ token :: after)) (runLs (before ++ path :: after)) shell := by
  have hflags : ∀ flag : Text, flag.head? = some (.scalar '-') →
      (flag ∈ before ++ token :: after ↔ flag ∈ before ++ path :: after) := by
    intro flag hflag
    have hne : flag ≠ token := fun heq => htoken (heq ▸ hflag)
    have hne' : flag ≠ path := fun heq => hpath (heq ▸ hflag)
    simp [hne, hne']
  have hunknown : HasUnknownFlag (before ++ token :: after) ↔
      HasUnknownFlag (before ++ path :: after) := by
    simp [HasUnknownFlag, htoken, hpath, or_and_right, exists_or]
  by_cases hflag : HasUnknownFlag (before ++ token :: after)
  · rw [runLs_of_unknown hflag, runLs_of_unknown (hunknown.1 hflag)]
    exact endsLike_refl _ _ _
  · rw [runLs_of_known hflag, runLs_of_known (mt hunknown.2 hflag)]
    simp only [hflags (Text.ofString "-a") rfl, hflags (Text.ofString "-r") rfl, List.filter_append,
      List.filter_cons, htoken, hpath, ne_eq, decide_not, decide_false, Bool.not_false, if_true]
    exact alike_listOrName h _ _ _ _

end Operands

/-! ## All verbs -/

/-- **A token and its path do the same.**  If the working directory exists and a token that is not
blank is one that the verb takes for a path, then the verb ends in the same shell with the token and
with the path in its place, and either with the same failure or with an error of the same kind. -/
theorem error_run_pathOf {v : Verb} {before : List Text} {token : Text}
    (hhome : Path.isAbsolute shell.session.home = true)
    (hcwd : Path.isAbsolute shell.session.cwd = true)
    (hnormal : Path.normalize shell.session.cwd = shell.session.cwd)
    (hdir : shell.files.isDirectory shell.session.cwd = true) (hblank : ¬ token.IsBlank)
    (htakes : v.TakesPath before token) (word : Text) (after : List Text) :
    (Result.error <$> v.run (word :: (before ++ token :: after))) shell =
      (Result.error <$> v.run
        (word :: (before ++ v.pathOf shell.session before token after :: after))) shell := by
  have hview : Path.isAbsolute (v.viewpoint shell.session before after) = true := by
    unfold viewpoint
    split
    · exact Path.isAbsolute_resolve _ hcwd hhome
    · exact hcwd
  have hpath : Path.isAbsolute (v.pathOf shell.session before token after) = true :=
    Path.isAbsolute_resolve token hview hhome
  have hhead := Path.head?_of_isAbsolute hpath
  have hresolve : shell.session.resolve (shell.session.resolve token) =
      shell.session.resolve token := Path.resolve_resolve token hcwd hhome _
  cases v with
  | cd =>
    obtain rfl : before = [] := htakes
    exact alike_runCd ⟨hhome, hcwd, hnormal, hdir⟩ token after
  | pwd => exact htakes.elim
  | ls => exact alike_runLs hresolve htakes (by rw [hhead]; decide)
  | mkdir =>
    match before, htakes with
    | [], _ =>
      exact alike_runMkdir_name (Text.trim_ne_nil hblank)
        (Text.trim_ne_nil (Path.not_isBlank_of_isAbsolute hpath))
        (Path.resolve_resolve token hview hhome _)
    | [name], _ => exact alike_runMkdir_base hresolve name after
  | touch => exact alike_runTouch hresolve
  | rm => exact alike_runRm hresolve htakes (by simp [isFlag, hhead])
  | rmdir =>
    obtain rfl : before = [] := htakes
    exact alike_runRmdir hresolve after
  | mv =>
    match before, htakes with
    | [], _ => exact alike_runMv_source hresolve after
    | [source], _ => exact alike_runMv_target hresolve source after
  | cat => exact alike_runCat hresolve
  | help => exact htakes.elim

/-- The working directory was entered through the link `l`, and `mkdir` sees `x` from the directory
above, which is the one above the link. -/
theorem error_run_pathOf_base :
    let d : Name := ⟨[0x64], by decide⟩
    let l : Name := ⟨[0x6C], by decide⟩
    let files := (FileSystem.empty.create [d] (.directory []) Node.tidy_empty).create [l]
      (.link [0x64]) (.link _)
    let shell : Shell := ⟨⟨"/l", "/"⟩, files⟩
    shell.files.isDirectory shell.session.cwd = true ∧
      (Result.error <$> mkdir.run ["mkdir", "x", ".."]) shell =
        (Result.error <$> mkdir.run ["mkdir", "/x", ".."]) shell := by
  intro d l files shell
  have hdir : shell.files.isDirectory shell.session.cwd = true := by decide +kernel
  have hpath : mkdir.pathOf shell.session [] "x" [".."] = "/x" := by decide +kernel
  have hsame := error_run_pathOf (by decide +kernel) (by decide +kernel) (by decide +kernel) hdir
    (by decide) (show mkdir.TakesPath [] "x" from by decide) "mkdir" [".."]
  rw [hpath] at hsame
  exact ⟨hdir, hsame⟩

end Verb

end FileShell
