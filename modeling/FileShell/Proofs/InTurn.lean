import FileShell.Proofs.Removal

/-!
# Several operands and several commands

`rm` and `touch` work through their operands in order.  A command with several operands does what
the commands with one operand each do, one after another, as long as each of these ends with a
result: the answer is then made of their answers.  The first of them that fails ends the whole
command.  That is an operand that `touch` can neither make nor renew, or a directory that `rm`
cannot remove under its path.

* `Effect.answersInTurn`, `Effect.afterEach`: an action on one input after another.
* `Effect.inTurn_eq`: two actions that do the same do the same in turn.
* `Effect.mapM_cases`: the run over a list is one of the runs in turn, or it ends at the first of
  them that fails.
* `Verb.run_rm_in_turn`: what `rm` does with several operands.
* `Verb.run_touch_in_turn`: what `touch` does with several operands.
-/

namespace FileShell

/-! ## One input after another -/

namespace Effect

variable {ε σ α β γ : Type} {f : α → EStateM ε σ β} {g : γ → EStateM ε σ β} {c : α → γ}
  {l before after : List α} {bs : List β} {s t : σ} {a : α} {e : ε} {I : σ → Prop}

/-- What an action answers on one input after another, each from where the one before it ended;
there is no answer where it fails. -/
def answersInTurn (f : α → EStateM ε σ β) : List α → σ → List (Option β)
  | [], _ => []
  | a :: rest, s => value? (f a) s :: answersInTurn f rest (stateAfter (f a) s)

/-- The state after an action on one input after another, whether it fails on some or not. -/
def afterEach (f : α → EStateM ε σ β) (l : List α) (s : σ) : σ :=
  l.foldl (fun s a => stateAfter (f a) s) s

theorem afterEach_cons (a : α) (l : List α) (s : σ) :
    afterEach f (a :: l) s = afterEach f l (stateAfter (f a) s) := rfl

theorem afterEach_append (l m : List α) (s : σ) :
    afterEach f (l ++ m) s = afterEach f m (afterEach f l s) := List.foldl_append

theorem keeps_afterEach (hkeeps : ∀ a ∈ l, Keeps I (f a)) (hs : I s) : I (afterEach f l s) := by
  induction l generalizing s with
  | nil => exact hs
  | cons a rest ih =>
    rw [afterEach_cons]
    exact ih (fun x hx => hkeeps x (List.mem_cons_of_mem _ hx)) (hkeeps a List.mem_cons_self s hs)

/-- Two actions that do the same, each on its own form of the inputs, do the same in turn. -/
theorem inTurn_eq (hkeeps : ∀ a ∈ l, Keeps I (f a))
    (hsame : ∀ a ∈ l, ∀ s, I s → g (c a) s = f a s) (hs : I s) :
    answersInTurn g (l.map c) s = answersInTurn f l s ∧
      afterEach g (l.map c) s = afterEach f l s := by
  induction l generalizing s with
  | nil => exact ⟨rfl, rfl⟩
  | cons a rest ih =>
    have hone := hsame a List.mem_cons_self s hs
    have hvalue : value? (g (c a)) s = value? (f a) s := by rw [value?, value?, hone]
    have hstate : stateAfter (g (c a)) s = stateAfter (f a) s := by
      rw [stateAfter, stateAfter, hone]
    obtain ⟨hanswers, hafter⟩ := ih (fun x hx => hkeeps x (List.mem_cons_of_mem _ hx))
      (fun x hx => hsame x (List.mem_cons_of_mem _ hx)) (hkeeps a List.mem_cons_self s hs)
    rw [List.map_cons, answersInTurn, answersInTurn, afterEach_cons, afterEach_cons, hvalue, hstate]
    exact ⟨by rw [hanswers], hafter⟩

/-- **A run over a list answers what the runs in turn answer**, if all do. -/
theorem mapM_of_answersInTurn (h : answersInTurn f l s = bs.map some) :
    l.mapM f s = .ok bs (afterEach f l s) := by
  induction l generalizing s bs with
  | nil =>
    obtain rfl : bs = [] := by simpa [answersInTurn] using h.symm
    rfl
  | cons a rest ih =>
    cases bs with
    | nil => simp [answersInTurn] at h
    | cons b bs =>
      rw [answersInTurn, List.map_cons, List.cons.injEq, value?_eq_some_iff] at h
      obtain ⟨⟨t, hone⟩, hrest⟩ := h
      rw [stateAfter_of_ok hone] at hrest
      rw [List.mapM_cons, bind_of_ok hone, bind_of_ok (ih hrest), afterEach_cons,
        stateAfter_of_ok hone]
      rfl

/-- Either all runs in turn answer, or one of them is the first that fails. -/
theorem answersInTurn_cases (f : α → EStateM ε σ β) (l : List α) (s : σ) :
    (∃ bs : List β, answersInTurn f l s = bs.map some) ∨
      ∃ before a after, ∃ bs : List β, ∃ e t, l = before ++ a :: after ∧
        answersInTurn f before s = bs.map some ∧ f a (afterEach f before s) = .error e t := by
  induction l generalizing s with
  | nil => exact .inl ⟨[], rfl⟩
  | cons a rest ih =>
    cases hone : f a s with
    | error e t => exact .inr ⟨[], a, rest, [], e, t, rfl, rfl, hone⟩
    | ok b t =>
      have hvalue : value? (f a) s = some b := value?_eq_some_iff.2 ⟨t, hone⟩
      have hstate : stateAfter (f a) s = t := stateAfter_of_ok hone
      rcases ih t with ⟨bs, hrest⟩ | ⟨before, x, after, bs, e, u, rfl, hbefore, hfails⟩
      · refine .inl ⟨b :: bs, ?_⟩
        rw [answersInTurn, hvalue, hstate, hrest, List.map_cons]
      · refine .inr ⟨a :: before, x, after, b :: bs, e, u, rfl, ?_, ?_⟩
        · rw [answersInTurn, hvalue, hstate, hbefore, List.map_cons]
        · rw [afterEach_cons, hstate]
          exact hfails

/-- It is broken off by the first input on which the action fails. -/
theorem mapM_of_brokenOff (h : answersInTurn f before s = bs.map some)
    (hfails : f a (afterEach f before s) = .error e t) :
    (before ++ a :: after).mapM f s = .error e t := by
  rw [List.mapM_append, bind_of_ok (mapM_of_answersInTurn h), List.mapM_cons]
  exact bind_of_error (bind_of_error hfails)

/-- **A run over a list and the runs in turn.**  Of two actions that do the same, one is run over a
list and the other on one input after another.  If all runs in turn answer, the run over the list
has their answers and ends where they end.  Otherwise it fails as the first of them that fails, and
the state is the one that all of them leave only if the later ones would change nothing. -/
theorem mapM_cases (hkeeps : ∀ a ∈ l, Keeps I (f a))
    (hsame : ∀ a ∈ l, ∀ s, I s → g (c a) s = f a s) (hs : I s) :
    (∃ bs : List β, answersInTurn g (l.map c) s = bs.map some ∧
        l.mapM f s = .ok bs (afterEach g (l.map c) s)) ∨
      ∃ before a after, ∃ bs : List β, ∃ e t, l = before ++ a :: after ∧
        answersInTurn g (before.map c) s = bs.map some ∧
        I (afterEach g (before.map c) s) ∧ g (c a) (afterEach g (before.map c) s) = .error e t ∧
        l.mapM f s = .error e t ∧
        (t = afterEach g (l.map c) s ↔ afterEach g (after.map c) t = t) := by
  obtain ⟨hanswers, hafter⟩ := inTurn_eq hkeeps hsame hs
  rcases answersInTurn_cases f l s with
    ⟨bs, hall⟩ | ⟨before, a, after, bs, e, t, rfl, hbefore, hfails⟩
  · exact .inl ⟨bs, hanswers.trans hall, by rw [hafter, mapM_of_answersInTurn hall]⟩
  · have hmem : ∀ x ∈ before, x ∈ before ++ a :: after := fun x hx => List.mem_append_left _ hx
    have hkeepsBefore := fun x hx => hkeeps x (hmem x hx)
    obtain ⟨hanswersBefore, hafterBefore⟩ :=
      inTurn_eq hkeepsBefore (fun x hx => hsame x (hmem x hx)) hs
    have hmid : I (afterEach f before s) := keeps_afterEach hkeepsBefore hs
    have hone : g (c a) (afterEach g (before.map c) s) = .error e t := by
      rw [hafterBefore, hsame a (by simp) _ hmid, hfails]
    refine .inr ⟨before, a, after, bs, e, t, rfl, hanswersBefore.trans hbefore,
      hafterBefore ▸ hmid, hone, mapM_of_brokenOff hbefore hfails, ?_⟩
    rw [List.map_append, List.map_cons, afterEach_append, afterEach_cons, stateAfter_of_error hone]
    exact eq_comm

end Effect

open Effect

namespace Verb

variable {shell : Shell} {arguments : List Text}

/-! ## Removing -/

/-- Only a directory that cannot be removed under its path makes the removal of an operand fail. -/
theorem not_removable_of_rmOne (hcwd : Path.isAbsolute shell.session.cwd = true)
    (hhome : Path.isAbsolute shell.session.home = true) {name : Text}
    (hroot : ¬ Path.IsRoot (shell.session.resolve name)) {recursive : Bool} {failure : Failure}
    {later : Shell} (h : rmOne recursive name shell = .error failure later) :
    recursive = true ∧ ∃ p es,
      shell.files.found? .entry (shell.session.resolve name) = some (p, .directory es) ∧
        ¬ shell.files.Removable (shell.session.resolve name) p := by
  obtain ⟨s, hs, hpath⟩ := Path.exists_clean_resolve name hcwd hhome
  change shell.session.resolve name = s.toText at hpath
  rw [hpath, hs.isRoot_toText] at hroot
  rw [hpath]
  rcases cases_rmOne hs hpath hroot recursive with
    ⟨result, hdeclined, -⟩ | ⟨p, t, hfound, hflag, hremoves, -⟩
  · cases hdeclined.symm.trans h
  · by_cases hcan : t.isDirectory = true → shell.files.Removable s.toText p
    · obtain ⟨result, files, hremoved, -⟩ := hremoves hcan
      cases hremoved.symm.trans h
    · obtain ⟨hdir, hnot⟩ := Classical.not_imp.1 hcan
      obtain ⟨es, rfl⟩ := Node.isDirectory_iff.1 hdir
      exact ⟨hflag hdir, p, es, hfound, hnot⟩

theorem keeps_session_rmOne (recursive : Bool) (name : Text) (σ : Session) :
    Keeps (fun shell : Shell => shell.session = σ) (rmOne recursive name) :=
  keeps_rmOne (fun _ => Action.keeps_session_onDisk _ σ) recursive
    (fun _ _ => Action.keeps_session_onDisk _ σ) name

/-- The root with one slash is refused, since it is above every directory. -/
theorem not_isRoot_of_pass (hcwd : Path.isAbsolute shell.session.cwd = true)
    (hhome : Path.isAbsolute shell.session.home = true) {name : Text}
    (hpass : shell.session.standsIn (shell.session.resolve name) = false)
    (hdouble : shell.session.resolve name ≠ "//") :
    ¬ Path.IsRoot (shell.session.resolve name) := by
  rintro (hroot | hroot)
  · have hshows : shell.session.ShowsAbove (shell.session.resolve name) := by
      rw [hroot]
      exact ⟨by decide, List.nil_prefix⟩
    rw [(Session.standsIn_iff hcwd hhome name).2 hshows] at hpass
    cases hpass
  · exact hdouble hroot

/-- A command with the same flags and one of the operands removes that operand. -/
theorem run_rm_alone (verb : Text)
    (hflags : ∀ a ∈ arguments, isFlag a = true → a = Text.ofString "-r") {name : Text}
    (hname : isFlag name = false)
    (hpass : shell.session.standsIn (shell.session.resolve name) = false) :
    rm.run (verb :: (arguments.filter isFlag ++ [name])) shell =
      rmOne (Text.ofString "-r" ∈ arguments) name shell := by
  have hdash : isFlag (Text.ofString "-r") = true := by decide
  have hne : Text.ofString "-r" ≠ name := by
    rintro rfl
    rw [hname] at hdash
    cases hdash
  have hr : Text.ofString "-r" ∈ arguments.filter isFlag ++ [name] ↔
      Text.ofString "-r" ∈ arguments := by simp [hdash, hne]
  have hoperand : (arguments.filter isFlag ++ [name]).filter (!isFlag ·) = [name] := by simp [hname]
  show runRm (arguments.filter isFlag ++ [name]) shell = _
  simp only [← hr]
  refine runRm_of_operand ?_ hoperand hpass
  intro a ha hflag
  rcases List.mem_append.1 ha with ha | ha
  · exact hflags a (List.mem_filter.1 ha).1 hflag
  · rw [List.mem_singleton.1 ha, hname] at hflag
    cases hflag

/-- **Several operands of `rm` are several commands until one fails.**  Let the flags be `-r`, no
operand by itself refused and none the root with two slashes.  If each of the commands with the same
flags and one operand, run in turn, ends with a result, so does `rm`: the files are those that they
leave, the output is made of theirs, and the error is that of the first that has one.  Otherwise
`rm` fails as the first of them that fails, at a directory that cannot be removed under its path
then, and says nothing of the operands before; the files are those that all commands leave only if
the later ones would change nothing. -/
theorem run_rm_in_turn (verb : Text) (hcwd : Path.isAbsolute shell.session.cwd = true)
    (hhome : Path.isAbsolute shell.session.home = true)
    (hflags : ∀ a ∈ arguments, isFlag a = true → a = Text.ofString "-r")
    (hoperands : arguments.filter (!isFlag ·) ≠ [])
    (hpass : ∀ a ∈ arguments.filter (!isFlag ·), ¬ Refuses (rm.run [verb, a]) shell)
    (hdouble : ∀ a ∈ arguments.filter (!isFlag ·), shell.session.resolve a ≠ "//") :
    let commandOf := fun a => verb :: (arguments.filter isFlag ++ [a])
    let commands := (arguments.filter (!isFlag ·)).map commandOf
    (∃ results : List Result, answersInTurn rm.run commands shell = results.map some ∧
        rm.run (verb :: arguments) shell =
          .ok ⟨Text.joined "\n" (results.map Result.output), results.findSome? Result.error⟩
            (afterEach rm.run commands shell)) ∨
      ∃ before a after, ∃ results : List Result, ∃ mid e later p es,
        arguments.filter (!isFlag ·) = before ++ a :: after ∧
        answersInTurn rm.run (before.map commandOf) shell = results.map some ∧
        mid = afterEach rm.run (before.map commandOf) shell ∧
        rm.run (commandOf a) mid = .error e later ∧ Text.ofString "-r" ∈ arguments ∧
        mid.files.found? .entry (shell.session.resolve a) = some (p, .directory es) ∧
        ¬ mid.files.Removable (shell.session.resolve a) p ∧
        rm.run (verb :: arguments) shell = .error e later ∧
        (stateAfter (rm.run (verb :: arguments)) shell = afterEach rm.run commands shell ↔
          afterEach rm.run (after.map commandOf) later = later) := by
  intro commandOf commands
  have hplain : ∀ a ∈ arguments.filter (!isFlag ·), isFlag a = false := by simp
  have hguard : ∀ a ∈ arguments.filter (!isFlag ·),
      shell.session.standsIn (shell.session.resolve a) = false := by
    intro a ha
    rw [← Bool.not_eq_true]
    intro hstands
    refine hpass a ha (refuses_runRm_iff.2 ⟨?_, a, by simp, hplain a ha, hstands⟩)
    simp [hplain a ha]
  -- the guard looks at the session alone, and that stays what it is
  have hkeeps : ∀ a ∈ arguments.filter (!isFlag ·),
      Keeps (fun later : Shell => later.session = shell.session)
        (rmOne (Text.ofString "-r" ∈ arguments) a) :=
    fun a _ => keeps_session_rmOne _ a _
  have halone : ∀ a ∈ arguments.filter (!isFlag ·), ∀ later : Shell,
      later.session = shell.session →
        rm.run (commandOf a) later = rmOne (Text.ofString "-r" ∈ arguments) a later := by
    intro a ha later hsession
    exact run_rm_alone verb hflags (hplain a ha) (hsession ▸ hguard a ha)
  have hrun := runRm_of_operands hflags hoperands hguard
  change _ ∨ ∃ before a after results mid e later p es, _ ∧ _ ∧ _ ∧ _ ∧ _ ∧ _ ∧ _ ∧
    runRm arguments shell = _ ∧ (stateAfter (runRm arguments) shell = _ ↔ _)
  rcases mapM_cases hkeeps halone rfl with
    ⟨results, hanswers, hall⟩ |
      ⟨before, a, after, results, e, later, hsplit, hanswers, hsession, hfails, hbroken, hlater⟩
  · refine .inl ⟨results, hanswers, ?_⟩
    show runRm arguments shell = _
    rw [hrun, bind_of_ok hall]
    rfl
  · have ha : a ∈ arguments.filter (!isFlag ·) := by simp [hsplit]
    have hfailure : runRm arguments shell = .error e later := by rw [hrun, bind_of_error hbroken]
    have hone := (halone a ha _ hsession).symm.trans hfails
    have hroot := not_isRoot_of_pass hcwd hhome (hguard a ha) (hdouble a ha)
    rw [← hsession] at hcwd hhome hroot
    obtain ⟨hr, p, es, hfound, hnot⟩ := not_removable_of_rmOne hcwd hhome hroot hone
    rw [hsession] at hfound hnot
    refine .inr ⟨before, a, after, results, _, e, later, p, es, hsplit, hanswers, rfl, hfails,
      by simpa using hr, hfound, hnot, hfailure, ?_⟩
    rw [stateAfter_of_error hfailure]
    exact hlater

/-- A file, the directory that it is in, and the directory once more: the last command finds nothing
and the others have removed all. -/
theorem run_rm_in_turn_nested :
    let d : Name := ⟨[0x64], by decide⟩
    let x : Name := ⟨[0x78], by decide⟩
    let files := (FileSystem.empty.create [d] (.directory []) Node.tidy_empty).create [d, x]
      (.file [0x31]) (.file _)
    let shell : Shell := ⟨⟨"/", "/"⟩, files⟩
    let commands : List (List Text) := [["rm", "-r", "d/x"], ["rm", "-r", "d"], ["rm", "-r", "d"]]
    (∃ results : List Result, answersInTurn rm.run commands shell = results.map some ∧
      rm.run ["rm", "d/x", "d", "-r", "d"] shell =
        .ok ⟨Text.joined "\n" (results.map Result.output), results.findSome? Result.error⟩
          (afterEach rm.run commands shell)) ∧
      (afterEach rm.run commands shell).files.entries = [] ∧
      (answersInTurn rm.run commands shell).map (Option.bind · Result.error) =
        [none, none, some .notFound] := by
  intro d x files shell commands
  have hguard : ∀ a ∈ (["d/x", "d", "d"] : List Text),
      shell.session.standsIn (shell.session.resolve a) = false := by decide +kernel
  have hends : (value? (rm.run ["rm", "d/x", "d", "-r", "d"]) shell).isSome = true := by
    decide +kernel
  have hpass : ∀ a ∈ (["d/x", "d", "d"] : List Text), ¬ Refuses (rm.run ["rm", a]) shell := by
    intro a ha hrefuses
    obtain ⟨-, b, hb, -, hstands⟩ := refuses_runRm_iff.1 hrefuses
    rw [List.mem_singleton.1 hb, hguard a ha] at hstands
    cases hstands
  refine ⟨?_, by decide +kernel, by decide +kernel⟩
  rcases @run_rm_in_turn shell ["d/x", "d", "-r", "d"] "rm" (by decide +kernel)
      (by decide +kernel) (by decide +kernel) (by decide +kernel) hpass (by decide +kernel) with
    hall | ⟨before, a, after, results, mid, e, later, p, es, -, -, -, -, -, -, -, hbroken, -⟩
  · exact hall
  · rw [value?, hbroken] at hends
    cases hends

/-- A path that goes through a link in the directory that it leads to, and a file: as commands of
their own the second removes the file, and together `rm` fails before it comes to it. -/
theorem rm_broken_off :
    let d : Name := ⟨[0x64], by decide⟩
    let up : Name := ⟨[0x75, 0x70], by decide⟩
    let z : Name := ⟨[0x7A], by decide⟩
    let files := ((FileSystem.empty.create [d] (.directory []) Node.tidy_empty).create [d, up]
      (.link [0x2E, 0x2E]) (.link _)).create [z] (.file []) (.file _)
    let shell : Shell := ⟨⟨"/", "/"⟩, files⟩
    (∀ a ∈ (["d/up/d", "z"] : List Text),
        shell.session.standsIn (shell.session.resolve a) = false ∧
          shell.session.resolve a ≠ "//") ∧
      (afterEach rm.run [["rm", "-r", "d/up/d"], ["rm", "-r", "z"]] shell).files.entries =
        [(d, .directory [])] ∧
      (stateAfter (rm.run ["rm", "-r", "d/up/d", "z"]) shell).files.entries =
        [(d, .directory []), (z, .file [])] ∧
      value? (rm.run ["rm", "-r", "d/up/d", "z"]) shell = none := by
  decide +kernel

/-! ## Making and renewing -/

theorem run_touch_alone (verb name : Text) : touch.run [verb, name] = touchOne name :=
  runTouch_singleton name

/-- What `touch` says about an operand is never an error. -/
theorem error_touchOne {name : Text} {later : Shell} {result : Result}
    (h : touchOne name shell = .ok result later) : result.error = none := by
  rw [touchOne, bind_of_ok (Action.resolve_eq name shell), bind_of_ok (Action.ask_eq _ shell)] at h
  split at h
  all_goals
    obtain ⟨done, mid, -, hend⟩ := bind_eq_ok.1 h
    cases hend
    rfl

/-- **Several operands of `touch` are several commands until one fails.**  If each of the commands
with one operand, run in turn, ends with a result, so does `touch`: the files are those that they
leave, and the output is made of theirs.  Otherwise `touch` fails as the first of them that fails,
and says nothing of the operands before; the files are those that all commands leave only if the
later ones would change nothing. -/
theorem run_touch_in_turn (verb : Text) {operands : List Text} (hoperands : operands ≠ []) :
    let commands := operands.map fun a => [verb, a]
    (∃ results : List Result, answersInTurn touch.run commands shell = results.map some ∧
        touch.run (verb :: operands) shell =
          .ok ⟨Text.joined "\n" (results.map Result.output), none⟩
            (afterEach touch.run commands shell)) ∨
      ∃ before command after, ∃ results : List Result, ∃ e later,
        commands = before ++ command :: after ∧
        answersInTurn touch.run before shell = results.map some ∧
        touch.run command (afterEach touch.run before shell) = .error e later ∧
        touch.run (verb :: operands) shell = .error e later ∧
        (stateAfter (touch.run (verb :: operands)) shell = afterEach touch.run commands shell ↔
          afterEach touch.run after later = later) := by
  intro commands
  have hrun : touch.run (verb :: operands) =
      (return .combine (← operands.mapM touchOne) : Action Result) := if_neg hoperands
  have halone : ∀ a ∈ operands, ∀ later : Shell, True →
      touch.run [verb, a] later = touchOne a later :=
    fun a _ later _ => congrFun (run_touch_alone verb a) later
  rcases mapM_cases (I := fun _ => True) (fun _ _ _ _ => trivial) halone (s := shell) trivial with
    ⟨results, hanswers, hall⟩ |
      ⟨before, a, after, results, e, later, hsplit, hanswers, -, hfails, hbroken, hlater⟩
  · refine .inl ⟨results, hanswers, ?_⟩
    have herror : results.findSome? Result.error = none := by
      refine List.findSome?_eq_none_iff.2 ?_
      intro result hresult
      obtain ⟨name, -, mid, last, hone⟩ := exists_of_mem_mapM hall hresult
      exact error_touchOne hone
    rw [hrun, bind_of_ok hall, ← herror]
    rfl
  · have hfailure : touch.run (verb :: operands) shell = .error e later := by
      rw [hrun, bind_of_error hbroken]
    have hcommands : commands =
        before.map (fun a => [verb, a]) ++ [verb, a] :: after.map fun a => [verb, a] := by
      simp [commands, hsplit]
    refine .inr ⟨_, _, _, results, e, later, hcommands, hanswers, hfails, hfailure, ?_⟩
    rw [stateAfter_of_error hfailure]
    exact hlater

/-- There is no directory `d`.  As commands of their own the operands leave the file `y`; together
they leave nothing in one order, and in the other the file without a word about it. -/
theorem touch_broken_off :
    let y : Name := ⟨[0x79], by decide⟩
    let shell : Shell := ⟨⟨"/", "/"⟩, FileSystem.empty⟩
    (afterEach touch.run [["touch", "d/x"], ["touch", "y"]] shell).files.entries =
        [(y, .file [])] ∧
      (stateAfter (touch.run ["touch", "d/x", "y"]) shell).files.entries = [] ∧
      (stateAfter (touch.run ["touch", "y", "d/x"]) shell).files.entries = [(y, .file [])] ∧
      value? (touch.run ["touch", "y", "d/x"]) shell = none := by
  decide +kernel

/-- One file is there and one is made. -/
theorem run_touch_in_turn_both :
    let x : Name := ⟨[0x78], by decide⟩
    let files := FileSystem.empty.create [x] (.file [0x31]) (.file _)
    let shell : Shell := ⟨⟨"/", "/"⟩, files⟩
    let commands : List (List Text) := [["touch", "x"], ["touch", "y"]]
    ∃ results : List Result, answersInTurn touch.run commands shell = results.map some ∧
      touch.run ["touch", "x", "y"] shell =
        .ok ⟨Text.joined "\n" (results.map Result.output), none⟩
          (afterEach touch.run commands shell) := by
  intro x files shell commands
  have hends : (value? (touch.run ["touch", "x", "y"]) shell).isSome = true := by decide +kernel
  rcases @run_touch_in_turn shell "touch" ["x", "y"] (by decide) with
    hall | ⟨before, command, after, results, e, later, -, -, -, hbroken, -⟩
  · exact hall
  · rw [value?, hbroken] at hends
    cases hends

end Verb

end FileShell
