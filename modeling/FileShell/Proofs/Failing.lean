import FileShell.Proofs.Contents
import FileShell.Proofs.FileSystem.Failures
import FileShell.Proofs.Redirection
import FileShell.Proofs.Verbs

/-!
# How lines fail

A path comes to the file system without having been looked up before only where a verb or an arrow is
to make something: every other request of a line is about a path that leads somewhere already.  So
the failures of a line can be foreseen from the symbols of the paths at which it may make something,
and these come from the line and from the session.

* `Verb.creations`, `Line.MakesOnly`: the paths at which something may be made.
* `Verb.failure_of_run`, `Interpreter.failure_of_dispatch`: what the failures of a verb and of a line
  can be, by the symbols of these paths.
* `Interpreter.keeps_all_dispatch`, `Line.makesOnly_of_all`: where the symbols of these paths come
  from.
-/

namespace FileShell

open Effect FileSystem

variable {R : Symbol → Prop} {P : Failure → Prop} {shell later : Shell}

/-! ## Sessions -/

/-- The texts of the session are made of symbols with the property. -/
def Session.All (R : Symbol → Prop) (σ : Session) : Prop := σ.cwd.All R ∧ σ.home.All R

theorem Session.All.resolve {σ : Session} (h : σ.All R) (hslash : R (.scalar '/'))
    (hdot : R (.scalar '.')) {token : Text} (ht : token.All R) : (σ.resolve token).All R :=
  Path.all_resolve hslash hdot ht h.1 h.2

/-! ## Verbs -/

namespace Verb

/-- The paths at which a verb may make something. -/
def creations (σ : Session) : Verb → List Text → List Text
  | mkdir, name :: more =>
    let base := match more with
      | second :: _ => σ.resolve second
      | [] => σ.cwd
    [Path.resolve name base σ.home]
  | touch, names => names.map σ.resolve
  | mv, _ :: target :: _ => [σ.resolve target]
  | _, _ => []

theorem all_creations {σ : Session} (h : σ.All R) (hslash : R (.scalar '/'))
    (hdot : R (.scalar '.')) {arguments : List Text} (ht : ∀ t ∈ arguments, Text.All R t)
    (v : Verb) : ∀ path ∈ v.creations σ arguments, Text.All R path := by
  intro path hpath
  unfold creations at hpath
  split at hpath
  · next name more =>
    rw [List.mem_singleton.1 hpath]
    refine Path.all_resolve hslash hdot (ht _ List.mem_cons_self) ?_ h.2
    split
    · next second others =>
      exact h.resolve hslash hdot (ht _ (List.mem_cons_of_mem _ List.mem_cons_self))
    · exact h.1
  · obtain ⟨name, hname, rfl⟩ := List.mem_map.1 hpath
    exact h.resolve hslash hdot (ht name hname)
  · next target others =>
    rw [List.mem_singleton.1 hpath]
    exact h.resolve hslash hdot (ht _ (List.mem_cons_of_mem _ List.mem_cons_self))
  · exact absurd hpath List.not_mem_nil

/-! ### Verbs that only look -/

theorem failsWith_runCd (arguments : List Text) : FailsWith P (runCd arguments) := by
  have hgo : ∀ path, FailsWith P (Action.changeDirectory path) := by
    intro path
    refine Action.failsWith_ask_bind fun fs => ?_
    split
    · exact failsWith_bind (failsWith_modify _) fun _ => failsWith_pure _
    · exact failsWith_pure _
  cases arguments with
  | nil => exact failsWith_pure _
  | cons target more =>
    rw [runCd]
    split
    · refine failsWith_bind Action.failsWith_session ?_
      intro σ
      split
      · exact failsWith_bind (hgo _) fun _ => failsWith_pure _
      · exact failsWith_pure _
    · refine failsWith_bind (Action.failsWith_resolve target) ?_
      intro path
      refine failsWith_bind (hgo path) ?_
      intro moved
      split
      · exact failsWith_pure _
      · refine Action.failsWith_ask_bind fun fs => ?_
        split <;> exact failsWith_pure _

/-- `cat` asks before it reads, so it has no failures at all. -/
theorem failsWith_runCat (arguments : List Text) : FailsWith P (runCat arguments) := by
  intro shell e later hrun
  by_cases hne : arguments = []
  · rw [runCat, if_pos hne] at hrun
    cases hrun
  · rw [runCat_eq hne] at hrun
    cases hrun

/-! ### Verbs that make requests -/

section Requests

variable (h : Disk.Foresees R P) {σ : Session}

include h

/-- A listing goes on only where it has seen a directory. -/
theorem failsWith_below {l : Listing} (hroot : l.root.All R) {above : Text} (habove : above.All R)
    (levels : Nat) : FailsWith P (l.below levels above) := by
  induction levels generalizing above with
  | zero => exact failsWith_throw h.tooNested
  | succ levels ih =>
    rw [Listing.below_succ]
    have hpath : (l.pathOf above).All R := by
      unfold Listing.pathOf
      split
      · exact hroot
      · exact Path.all_join h.slash hroot habove
    refine failsWith_bind (h.listDirectory hpath) fun es => ?_
    refine failsWith_bind (failsWith_mapM es fun e => ?_) fun _ => failsWith_pure _
    have hentry : (Listing.extend above e.1).All R := by
      unfold Listing.extend
      split
      · exact h.name e.1
      · exact Path.all_join h.slash habove (h.name e.1)
    cases hhidden : !l.hidden && e.1.isHidden with
    | true =>
      rw [Listing.showEntry_of_hidden hhidden]
      exact failsWith_pure _
    | false =>
      intro fs failure later hrun
      rw [Listing.showEntry_eq hhidden] at hrun
      split at hrun
      · exact failsWith_bind (ih hentry) (fun _ => failsWith_pure _) fs failure later hrun
      · cases hrun

theorem failsWith_listOrName (request : Listing.Request) : FailsWith P (listOrName request) := by
  rw [listOrName]
  split
  · exact failsWith_pure _
  dsimp only
  split
  all_goals
    refine failsWith_bind (by rintro s e t ⟨⟩) fun path => ?_
    refine Action.failsWith_ask_bind fun fs => ?_
    split
    · exact failsWith_pure _
    intro shell failure later hrun
    rw [bind_of_ok (Action.ask_eq _ shell)] at hrun
    split at hrun
    · cases hrun
    · next hdir =>
      obtain ⟨d, hleads⟩ := isDirectory_iff.1 (by simpa using hdir)
      have hpath := h.located (found?_eq_some_iff.1 hleads)
      have hall : FailsWith P
          (Listing.all ⟨path, request.hidden, request.recursive⟩) :=
        failsWith_bind failsWith_get fun fs => failsWith_below h hpath Text.all_nil _
      exact failsWith_bind (Action.failsWith_onDisk hall) (fun _ => failsWith_pure _)
        shell failure later hrun

theorem failsWith_runLs (arguments : List Text) : FailsWith P (runLs arguments) := by
  rw [runLs]
  split
  · exact failsWith_pure _
  · exact failsWith_listOrName h _

theorem failsFrom_runMkdir {arguments : List Text}
    (hmade : ∀ path ∈ mkdir.creations σ arguments, Text.All R path) :
    FailsFrom (fun shell => shell.session = σ) P (runMkdir arguments) := by
  rintro shell rfl
  cases arguments with
  | nil => exact failsWith_pure _ shell
  | cons name more =>
    rw [runMkdir]
    split
    · exact failsWith_pure _ shell
    · intro e later hrun
      rw [bind_of_ok (Action.session_eq shell)] at hrun
      refine Action.failsWith_ask_bind (fun fs => ?_) shell e later hrun
      refine failsWith_ite (fun _ => failsWith_pure _) fun _ => ?_
      exact failsWith_bind (Action.failsWith_onDisk (h.makeDirectories (hmade _ List.mem_cons_self)))
        fun _ => failsWith_pure _

theorem failsFrom_touchOne {name : Text} (hmade : (σ.resolve name).All R) :
    FailsFrom (fun shell => shell.session = σ) P (touchOne name) := by
  rintro shell rfl e later hrun
  rw [touchOne, bind_of_ok (Action.resolve_eq name shell)] at hrun
  refine Action.failsWith_ask_bind (fun fs => ?_) shell e later hrun
  split
  · exact failsWith_bind (Action.failsWith_onDisk (h.renewTime hmade)) fun _ => failsWith_pure _
  · exact failsWith_bind (Action.failsWith_onDisk (h.openForWriting hmade _)) fun _ =>
      failsWith_pure _

theorem failsFrom_runTouch {arguments : List Text}
    (hmade : ∀ path ∈ touch.creations σ arguments, Text.All R path) :
    FailsFrom (fun shell => shell.session = σ) P (runTouch arguments) := by
  have hkeeps : ∀ name ∈ arguments, Keeps (fun shell => shell.session = σ) (touchOne name) :=
    fun name _ => keeps_touchOne (fun _ => Action.keeps_session_onDisk _ σ)
      (fun _ => Action.keeps_session_onDisk _ σ) name
  have hfails : ∀ name ∈ arguments, FailsFrom (fun shell => shell.session = σ) P (touchOne name) :=
    fun name hname => failsFrom_touchOne h (hmade _ (List.mem_map.2 ⟨name, hname, rfl⟩))
  rw [runTouch]
  split
  · exact (failsWith_pure _).failsFrom
  · exact failsFrom_bind (failsFrom_mapM hkeeps hfails) (keeps_mapM hkeeps) fun _ =>
      (failsWith_pure _).failsFrom

theorem failsWith_rmOne (recursive : Bool) (name : Text) :
    FailsWith P (rmOne recursive name) := by
  refine failsWith_bind (Action.failsWith_resolve name) ?_
  intro path
  refine failsWith_bind failsWith_get ?_
  intro shell
  dsimp only
  split
  · exact failsWith_pure _
  next hentry =>
  obtain ⟨p, t, hspot⟩ := hasEntry_iff.1 (by simpa using hentry)
  split
  · split
    · exact failsWith_bind (Action.failsWith_onDisk (h.removeTree (h.located hspot))) fun _ =>
        failsWith_pure _
    · exact failsWith_pure _
  · exact failsWith_bind (Action.failsWith_onDisk (h.unlink (h.located hspot))) fun _ =>
      failsWith_pure _

theorem failsWith_runRm (arguments : List Text) : FailsWith P (runRm arguments) := by
  rw [runRm]
  split
  · exact failsWith_pure _
  split
  · exact failsWith_pure _
  refine failsWith_bind Action.failsWith_session ?_
  intro σ
  split
  · exact failsWith_pure _
  · exact failsWith_bind (failsWith_mapM _ fun name => failsWith_rmOne h _ name) fun _ =>
      failsWith_pure _

theorem failsWith_runRmdir (arguments : List Text) : FailsWith P (runRmdir arguments) := by
  cases arguments with
  | nil => exact failsWith_pure _
  | cons name more =>
    refine failsWith_bind Action.failsWith_session ?_
    intro σ
    refine Action.failsWith_ask_bind fun fs => ?_
    split
    · exact failsWith_pure _
    next p node hfound =>
    have hpath := h.located (found?_eq_some_iff.1 hfound)
    split
    · exact failsWith_pure _
    split
    · exact failsWith_pure _
    split
    · exact failsWith_pure _
    · exact failsWith_bind (Action.failsWith_onDisk (h.removeDirectory hpath)) fun _ =>
        failsWith_pure _

theorem failsFrom_runMv {arguments : List Text}
    (hmade : ∀ path ∈ mv.creations σ arguments, Text.All R path) :
    FailsFrom (fun shell => shell.session = σ) P (runMv arguments) := by
  rintro shell rfl
  match arguments with
  | [] => exact failsWith_pure _ shell
  | [_] => exact failsWith_pure _ shell
  | sourceName :: targetName :: more =>
    have htarget := hmade _ List.mem_cons_self
    intro e later hrun
    rw [runMv, bind_of_ok (Action.session_eq shell), bind_of_ok (Action.get_eq shell)] at hrun
    dsimp only at hrun
    split at hrun
    · cases hrun
    next hentry =>
    obtain ⟨p, t, hspot⟩ := hasEntry_iff.1 (by simpa using hentry)
    have hsource := h.located hspot
    split at hrun
    · cases hrun
    · refine failsWith_bind (Action.failsWith_onDisk (h.move hsource ?_))
        (fun _ => failsWith_pure _) shell e later hrun
      split
      · exact Path.all_join h.slash htarget (Path.all_base hsource)
      · exact htarget

/-- **The failures of a verb** are foreseen from the paths at which it may make something. -/
theorem failure_of_run {v : Verb} {tokens : List Text}
    (hmade : ∀ path ∈ v.creations shell.session tokens.tail, Text.All R path) {e : Failure}
    (hrun : v.run tokens shell = .error e later) : P e := by
  cases v with
  | cd => exact failsWith_runCd _ shell e later hrun
  | pwd => cases hrun
  | ls => exact failsWith_runLs h _ shell e later hrun
  | mkdir => exact failsFrom_runMkdir h hmade shell rfl e later hrun
  | touch => exact failsFrom_runTouch h hmade shell rfl e later hrun
  | rm => exact failsWith_runRm h _ shell e later hrun
  | rmdir => exact failsWith_runRmdir h _ shell e later hrun
  | mv => exact failsFrom_runMv h hmade shell rfl e later hrun
  | cat => exact failsWith_runCat _ shell e later hrun
  | help => cases hrun

end Requests

end Verb

/-! ## Lines -/

/-- The paths at which a command may make something are made of symbols with the property. -/
def Shell.MakesOnly (R : Symbol → Prop) (shell : Shell) (command : List Text) : Prop :=
  ∀ v ∈ Verb.lookup? (command.head?.getD []),
    ∀ path ∈ v.creations shell.session command.tail, path.All R

/-- The paths at which a line may make something are made of symbols with the property; the right
side of a pipe is looked at from where the left one ends. -/
def Line.MakesOnly (R : Symbol → Prop) : Line → Shell → Prop
  | plain tokens, shell => shell.MakesOnly R tokens
  | redirect _ tokens, shell =>
    ∀ cut ∈ Redirect.cutAtArrow? tokens, shell.MakesOnly R cut.1 ∧
      ∀ fileName ∈ cut.2.head?, (shell.session.resolve fileName).All R
  | pipe left right, shell =>
    shell.MakesOnly R left.words ∧
      match Pipe.runStage left shell with
      | .ok _ later => later.MakesOnly R right.words
      | .error _ _ => True

/-- The words of the line are made of symbols with the property. -/
def Line.All (R : Symbol → Prop) : Line → Prop
  | plain tokens => ∀ t ∈ tokens, t.All R
  | redirect _ tokens => ∀ t ∈ tokens, t.All R
  | pipe left right => left.All R ∧ right.All R

theorem Line.all_classify {line : Text} (h : line.All R) : (classify line).All R := by
  unfold classify
  split
  · exact ⟨(h.of_subset (List.takeWhile_subset _)).trim,
      (h.of_subset fun _ hs => List.dropWhile_subset _ (List.mem_of_mem_tail hs)).trim⟩
  split
  · exact h.words
  split
  · exact h.words
  · exact h.words

section Lines

variable (h : Disk.Foresees R P)

include h

theorem Pipe.failure_of_runStage {command : Text} (hmade : shell.MakesOnly R command.words)
    {e : Failure} (hrun : Pipe.runStage command shell = .error e later) : P e := by
  rcases Pipe.runStage_cases command with ⟨result, hstage, -⟩ | ⟨verb, hverb, hstage⟩ <;>
    rw [hstage] at hrun
  · cases hrun
  · exact Verb.failure_of_run h (hmade verb hverb) hrun

theorem Redirect.failsWith_writeOut {path : Text} (hpath : path.All R) (mode : RedirectMode)
    (output : Text) : FailsWith P (Redirect.writeOut mode path output) := by
  refine failsWith_bind (h.openForWriting hpath _) ?_
  intro place
  split
  · exact Disk.failsWith_append _ _
  · exact failsWith_throw (h.unencodable _)

theorem Redirect.failure_of_run {mode : RedirectMode} {tokens : List Text}
    (hmade : (Line.redirect mode tokens).MakesOnly R shell) {e : Failure}
    (hrun : Redirect.run mode tokens shell = .error e later) : P e := by
  rcases Redirect.run_cases mode tokens with
    ⟨result, hredirect, -⟩ | ⟨cut, fileName, verb, -, hcut, hhead, hverb, hredirect⟩ <;>
    rw [hredirect] at hrun
  · cases hrun
  · obtain ⟨hcommand, hfile⟩ := hmade cut hcut
    rw [Redirect.runTo_eq] at hrun
    rcases bind_eq_error.1 hrun with hrun | ⟨result, mid, -, hrun⟩
    · exact Verb.failure_of_run h (hcommand verb hverb) hrun
    · have hwrite := Redirect.failsWith_writeOut h (hfile fileName hhead) mode result.output
      refine failsWith_ite (fun _ => ?_) (fun _ => failsWith_pure _) mid e later hrun
      exact failsWith_bind (Action.failsWith_onDisk hwrite) fun _ => failsWith_pure _

/-- **The failures of a line** are foreseen from the paths at which it may make something. -/
theorem Interpreter.failure_of_dispatch {line : Line} (hmade : line.MakesOnly R shell)
    {e : Failure} (hrun : dispatch line shell = .error e later) : P e := by
  cases line with
  | plain tokens =>
    rcases dispatch_plain_cases tokens with ⟨result, hplain, -⟩ | ⟨verb, hverb, hplain⟩ <;>
      rw [hplain] at hrun
    · cases hrun
    · exact Verb.failure_of_run h (hmade verb hverb) hrun
  | redirect mode tokens => exact Redirect.failure_of_run h hmade hrun
  | pipe left right =>
    rcases bind_eq_error.1 hrun with hrun | ⟨first, mid, hleft, hrun⟩
    · exact Pipe.failure_of_runStage h hmade.1 hrun
    · have hright := hmade.2
      rw [hleft] at hright
      rcases bind_eq_error.1 hrun with hrun | ⟨second, last, -, hrun⟩
      · exact Pipe.failure_of_runStage h hright hrun
      · cases hrun

end Lines

/-! ## The symbols of a session -/

section Sessions

variable (h : Disk.Foresees R P)

include h

/-- A directory that can be gone to has a path that can be handed to the file system. -/
theorem Action.keeps_all_changeDirectory (path : Text) :
    Keeps (fun shell => shell.session.All R) (changeDirectory path) := by
  intro shell hshell
  rw [changeDirectory, stateAfter_bind_of_ok (ask_eq _ shell)]
  split
  · next hdir =>
    obtain ⟨d, hleads⟩ := isDirectory_iff.1 hdir
    have hpath := h.located (found?_eq_some_iff.1 hleads)
    exact ⟨Path.all_normalize h.slash h.dot hpath, hshell.2⟩
  · exact hshell

theorem Verb.keeps_all_run (v : Verb) (tokens : List Text) :
    Keeps (fun shell => shell.session.All R) (v.run tokens) := by
  by_cases hcd : v = cd
  · subst hcd
    exact keeps_run (v := cd) (Action.keeps_all_changeDirectory h) tokens
  · intro shell hshell
    rwa [keeps_session_run hcd shell.session tokens shell rfl]

theorem Pipe.keeps_all_runStage (command : Text) :
    Keeps (fun shell => shell.session.All R) (Pipe.runStage command) := by
  rcases Pipe.runStage_cases command with ⟨result, hstage, -⟩ | ⟨verb, hverb, hstage⟩ <;>
    rw [hstage]
  · exact keeps_pure _
  · exact Verb.keeps_all_run h verb _

theorem Shell.makesOnly_of_all (hsession : shell.session.All R) {command : List Text}
    (hcommand : ∀ t ∈ command, Text.All R t) : shell.MakesOnly R command := by
  intro v _
  exact Verb.all_creations hsession h.slash h.dot
    (fun t ht => hcommand t (List.mem_of_mem_tail ht)) v

/-- What a line may make has paths with the symbols of the line and of the session. -/
theorem Line.makesOnly_of_all (hsession : shell.session.All R) {line : Line} (hline : line.All R) :
    line.MakesOnly R shell := by
  cases line with
  | plain tokens => exact Shell.makesOnly_of_all h hsession hline
  | redirect mode tokens =>
    intro cut hcut
    obtain ⟨hbefore, hafter⟩ := Redirect.subset_of_cutAtArrow? hcut
    refine ⟨Shell.makesOnly_of_all h hsession fun t ht => hline t (hbefore ht), ?_⟩
    intro fileName hfile
    exact hsession.resolve h.slash h.dot (hline _ (hafter (List.mem_of_mem_head? hfile)))
  | pipe left right =>
    refine ⟨Shell.makesOnly_of_all h hsession hline.1.words, ?_⟩
    split
    · next result later hrun =>
      have hlater := Pipe.keeps_all_runStage h left shell hsession
      rw [stateAfter_of_ok hrun] at hlater
      exact Shell.makesOnly_of_all h hlater hline.2.words
    · trivial

theorem Redirect.keeps_all_run (mode : RedirectMode) (tokens : List Text) :
    Keeps (fun shell => shell.session.All R) (Redirect.run mode tokens) := by
  have hdisk : ∀ {α : Type} (action : Disk α),
      Keeps (fun shell : Shell => shell.session.All R) (Action.onDisk action) := by
    intro α action shell hshell
    rwa [Action.keeps_session_onDisk action shell.session shell rfl]
  rcases Redirect.run_cases mode tokens with
    ⟨result, hredirect, -⟩ | ⟨cut, fileName, verb, -, -, -, -, hredirect⟩ <;> rw [hredirect]
  · exact keeps_pure _
  · refine keeps_bind (Action.keeps_resolve fileName) fun path => ?_
    refine keeps_bind (Verb.keeps_all_run h verb _) fun result => ?_
    split
    · exact keeps_bind (hdisk _) fun _ => keeps_pure _
    · exact keeps_pure _

/-- **A line leaves the session with the symbols that it had.** -/
theorem Interpreter.keeps_all_dispatch (line : Line) :
    Keeps (fun shell => shell.session.All R) (dispatch line) := by
  cases line with
  | plain tokens =>
    rcases dispatch_plain_cases tokens with ⟨result, hplain, -⟩ | ⟨verb, hverb, hplain⟩ <;>
      rw [hplain]
    · exact keeps_pure _
    · exact Verb.keeps_all_run h verb tokens
  | redirect mode tokens => exact Redirect.keeps_all_run h mode tokens
  | pipe left right =>
    refine keeps_bind (Pipe.keeps_all_runStage h left) fun first => ?_
    exact keeps_bind (Pipe.keeps_all_runStage h right) fun second => keeps_pure _

end Sessions

end FileShell
