import FileShell.Display
import FileShell.Proofs.Boundary

/-!
# What lines answer

What a line shows is put together from words of the program, from what was typed, and from names and
contents that were read from bytes.  If what was typed can be written, then so can the answer, be it
a result or a failure that is reported; the screen can show it.

* `Symbol.IsPlain`: what a path may hold on its way to the file system.
* `Listing.answers_below`: the names in a listing.
* `Interpreter.answered`: a plain line is answered, the answer can be shown, and the session stays
  plain.
-/

namespace FileShell

open Effect FileSystem

/-- The symbol can stand in a path that is handed to the file system. -/
def Symbol.IsPlain (s : Symbol) : Prop := s.IsWritable ∧ s ≠ Symbol.zero

theorem Text.All.writable {t : Text} (h : t.All Symbol.IsPlain) : t.Writable :=
  h.mono fun _ hs => hs.1

theorem Text.SurrogateFree.plain {t : Text} (h : t.SurrogateFree) (hzero : Symbol.zero ∉ t) :
    t.All Symbol.IsPlain := fun s hs => ⟨h.writable s hs, fun heq => hzero (heq ▸ hs)⟩

/-- The output of the result has an encoding. -/
def Result.IsWritable (r : Result) : Prop := r.output.Writable

namespace Result

@[simp] theorem isWritable_success {t : Text} : (success t).IsWritable ↔ t.Writable := Iff.rfl

@[simp] theorem isWritable_failure {kind : ErrorKind} {t : Text} :
    (failure kind t).IsWritable ↔ t.Writable := Iff.rfl

theorem isWritable_combine {rs : List Result} (h : ∀ r ∈ rs, r.IsWritable) :
    (combine rs).IsWritable := by
  refine Text.all_joinWith (Text.writable_ofString _) fun t ht => ?_
  obtain ⟨r, hr, rfl⟩ := List.mem_map.1 ht
  exact h r hr

end Result

/-! ## Listings -/

theorem Name.writable_toText (n : Name) : n.toText.Writable := (Path.inBytes_name n).writable

namespace Listing

variable {l : Listing}

theorem writable_extend {above : Text} (h : above.Writable) (n : Name) :
    (extend above n).Writable := by
  unfold extend
  split
  · exact n.writable_toText
  · exact Path.all_join ⟨_, rfl⟩ h n.writable_toText

/-- The names in a listing can be written. -/
theorem answers_below {above : Text} (h : above.Writable) (levels : Nat) :
    Answers (fun shown => ∀ e ∈ shown, Text.Writable e) (l.below levels above) := by
  induction levels generalizing above with
  | zero =>
    rintro fs shown later ⟨⟩
  | succ levels ih =>
    rw [below_succ]
    have hentry : ∀ e, Answers (fun shown => ∀ t ∈ shown, Text.Writable t)
        (l.showEntry levels above e) := by
      intro e
      have hself := writable_extend h e.1
      cases hhidden : !l.hidden && e.1.isHidden with
      | true =>
        rw [showEntry_of_hidden hhidden]
        exact answers_pure fun t ht => absurd ht List.not_mem_nil
      | false =>
        intro fs shown later hrun
        rw [showEntry_eq hhidden] at hrun
        split at hrun
        · obtain ⟨inner, mid, hinner, hend⟩ := bind_eq_ok.1 hrun
          cases hend
          exact List.forall_mem_cons.2 ⟨hself, ih hself fs inner _ hinner⟩
        · cases hrun
          exact List.forall_mem_cons.2 ⟨hself, fun t ht => absurd ht List.not_mem_nil⟩
    refine answers_bind fun es => answers_bind_of (answers_mapM fun e _ => hentry e) ?_
    intro shown hshown
    refine answers_pure fun t ht => ?_
    obtain ⟨ts, hts, ht⟩ := List.mem_flatten.1 ht
    exact hshown ts hts t ht

end Listing

/-! ## Verbs -/

namespace Verb

theorem answers_touchOne {name : Text} (hname : name.Writable) :
    Answers Result.IsWritable (touchOne name) := by
  refine answers_bind fun path => answers_bind fun present => answers_ite ?_ ?_ <;>
    exact answers_bind fun _ => answers_pure (by simp [hname])

theorem answers_rmOne (recursive : Bool) {name : Text} (hname : name.Writable) :
    Answers Result.IsWritable (rmOne recursive name) := by
  refine answers_bind fun path => answers_bind fun shell => ?_
  refine answers_ite (answers_pure (by simp [hname])) (answers_ite (answers_ite ?_ ?_) ?_)
  · exact answers_bind fun _ => answers_pure (by simp [hname])
  · exact answers_pure (by simp [hname])
  · exact answers_bind fun _ => answers_pure (by simp [hname])

theorem answers_catOne {name : Text} (hname : name.Writable) :
    Answers Result.IsWritable (catOne name) := by
  refine answers_bind fun path => answers_bind fun isdir => ?_
  refine answers_ite (answers_pure (by simp [hname])) (answers_bind fun present => ?_)
  refine answers_ite (answers_pure (by simp [hname])) (answers_bind fun bytes => ?_)
  exact answers_pure (Text.writable_decode bytes)

variable {arguments : List Text} (ht : ∀ t ∈ arguments, Text.Writable t)

include ht

theorem answers_runCd : Answers Result.IsWritable (runCd arguments) := by
  cases arguments with
  | nil => exact answers_pure Text.all_nil
  | cons target more =>
    have htarget := ht target List.mem_cons_self
    rw [runCd]
    split
    · refine answers_bind fun σ => ?_
      split
      · exact answers_bind fun _ => answers_pure Text.all_nil
      · exact answers_pure Text.all_nil
    · refine answers_bind fun path => answers_bind fun moved => ?_
      split
      · exact answers_pure Text.all_nil
      · refine answers_bind fun present => answers_ite ?_ ?_ <;>
          exact answers_pure (by simp [htarget])

omit ht in
theorem answers_listOrName {request : Listing.Request}
    (htargets : ∀ t ∈ request.targets, Text.Writable t) :
    Answers Result.IsWritable (listOrName request) := by
  have hname : (request.targets.head?.getD Path.here).Writable := by
    cases hhead : request.targets.head? with
    | none => exact Text.all_nil.cons ⟨_, rfl⟩
    | some target => exact htargets target (List.mem_of_mem_head? hhead)
  rw [listOrName]
  refine answers_ite (answers_pure (by simp)) ?_
  dsimp only
  generalize request.targets.head?.getD Path.here = name at hname ⊢
  split
  all_goals
    refine answers_bind fun path => answers_bind fun present => ?_
    refine answers_ite (answers_pure (by simp [hname])) (answers_bind fun isdir => ?_)
    refine answers_ite (answers_pure (by simp [hname])) ?_
    refine answers_bind_of (Action.answers_onDisk (answers_bind fun fs =>
      Listing.answers_below Text.all_nil _)) fun entries hentries => answers_pure ?_
    refine Text.all_flatMap fun e he => ?_
    simpa using hentries e he

theorem answers_runLs : Answers Result.IsWritable (runLs arguments) := by
  by_cases hunknown : HasUnknownFlag arguments
  · rw [runLs_of_unknown hunknown]
    exact answers_pure (by simp [lsUnsupported])
  · rw [runLs_of_known hunknown]
    exact answers_listOrName fun t h => ht t (List.mem_filter.1 h).1

theorem writable_runMkdir {shell later : Shell} (hsession : shell.session.All Symbol.IsWritable)
    {result : Result} (hrun : runMkdir arguments shell = .ok result later) :
    result.IsWritable := by
  cases arguments with
  | nil =>
    cases hrun
    simp
  | cons name more =>
    have htarget := all_creations hsession ⟨_, rfl⟩ ⟨_, rfl⟩ ht mkdir _ List.mem_cons_self
    have hname := ht name List.mem_cons_self
    rw [runMkdir] at hrun
    split at hrun
    · cases hrun
      simp
    · rw [bind_of_ok (Action.session_eq shell)] at hrun
      refine (answers_bind fun present => answers_ite ?_ ?_ : Answers Result.IsWritable _) shell
        result later hrun
      · exact answers_pure (by simp)
      · exact answers_bind fun _ => answers_pure (Text.All.append (by simp [hname]) htarget)

theorem answers_runTouch : Answers Result.IsWritable (runTouch arguments) := by
  rw [runTouch]
  refine answers_ite (answers_pure (by simp)) ?_
  refine answers_bind_of (answers_mapM fun name hname => answers_touchOne (ht name hname)) ?_
  intro rs hrs
  exact answers_pure (Result.isWritable_combine hrs)

theorem answers_runRm : Answers Result.IsWritable (runRm arguments) := by
  have hfilter : ∀ p : Text → Bool, ∀ t ∈ arguments.filter p, t.Writable :=
    fun p t h => ht t (List.mem_filter.1 h).1
  rw [runRm]
  split
  · next flag hflag =>
    have hwritable := hfilter _ flag (List.mem_of_find?_eq_some hflag)
    exact answers_pure (by simp [hwritable])
  refine answers_ite (answers_pure (by simp)) (answers_bind fun σ => ?_)
  split
  · next name hname =>
    have hwritable := hfilter _ name (List.mem_of_find?_eq_some hname)
    exact answers_pure (by simp [refusal, hwritable])
  · refine answers_bind_of
      (answers_mapM fun name hname => answers_rmOne _ (hfilter _ name hname)) ?_
    intro rs hrs
    exact answers_pure (Result.isWritable_combine hrs)

theorem answers_runRmdir : Answers Result.IsWritable (runRmdir arguments) := by
  cases arguments with
  | nil => exact answers_pure (by simp)
  | cons name more =>
    have hname := ht name List.mem_cons_self
    refine answers_bind fun σ => answers_bind fun found => ?_
    split
    · exact answers_pure (by simp)
    · refine answers_ite (answers_pure (by simp [hname])) ?_
      refine answers_ite (answers_pure (by simp [refusal, hname])) ?_
      refine answers_ite (answers_pure (by simp)) ?_
      exact answers_bind fun _ => answers_pure (by simp [hname])

theorem answers_runMv : Answers Result.IsWritable (runMv arguments) := by
  match arguments with
  | [] => exact answers_pure (by simp)
  | [_] => exact answers_pure (by simp)
  | sourceName :: targetName :: more =>
    have hname := ht sourceName List.mem_cons_self
    refine answers_bind fun σ => answers_bind fun shell => ?_
    refine answers_ite (answers_pure (by simp [hname])) ?_
    refine answers_ite (answers_pure (by simp [hname])) ?_
    exact answers_bind fun _ => answers_pure (by simp)

theorem answers_runCat : Answers Result.IsWritable (runCat arguments) := by
  rw [runCat]
  refine answers_ite (answers_pure (by simp)) ?_
  refine answers_bind_of (answers_mapM fun name hname => answers_catOne (ht name hname)) ?_
  intro rs hrs
  exact answers_pure (Text.all_flatMap fun r hr => hrs r hr)

end Verb

/-- What a verb answers can be written if its tokens and the session can. -/
theorem Verb.writable_run {shell later : Shell} (hsession : shell.session.All Symbol.IsWritable)
    {tokens : List Text} (ht : ∀ t ∈ tokens, Text.Writable t) {v : Verb} {result : Result}
    (hrun : v.run tokens shell = .ok result later) : result.IsWritable := by
  have hmem := fun t h => ht t (List.mem_of_mem_tail h)
  cases v with
  | cd => exact answers_runCd hmem shell result later hrun
  | pwd =>
    cases hrun
    exact hsession.1
  | ls => exact answers_runLs hmem shell result later hrun
  | mkdir => exact writable_runMkdir hmem hsession hrun
  | touch => exact answers_runTouch hmem shell result later hrun
  | rm => exact answers_runRm hmem shell result later hrun
  | rmdir => exact answers_runRmdir hmem shell result later hrun
  | mv => exact answers_runMv hmem shell result later hrun
  | cat => exact answers_runCat hmem shell result later hrun
  | help =>
    cases hrun
    exact (by decide +kernel : Text.Writable helpText)

/-! ## Lines -/

/-- A failure that is reported, with a wording that can be written. -/
def Failure.IsShown (e : Failure) : Prop := Interpreter.isReported e = true ∧ e.message.Writable

theorem Uncopied.writable_listText (us : List Uncopied) : (listText us).Writable := by
  have hquoted : ∀ t : Text, t.quoted.Writable := fun t => (Text.surrogateFree_quoted t).writable
  have hone : ∀ t ∈ us.map fun u : Uncopied => Text.ofString "(" ++
      Text.joined ", " [u.source.quoted, u.target.quoted, u.reason.quoted] ++ Text.ofString ")",
      Text.Writable t := by
    intro t ht
    obtain ⟨u, -, rfl⟩ := List.mem_map.1 ht
    have hparts : (Text.joined ", " [u.source.quoted, u.target.quoted, u.reason.quoted]).Writable :=
      Text.all_joinWith (Text.writable_ofString _) (by simp [hquoted])
    simpa using hparts
  have hjoined := Text.all_joinWith (Text.writable_ofString ", ") hone
  simpa [listText] using hjoined

theorem Unencodable.writable_message (u : Unencodable) : u.message.Writable := by
  have hdecimal : ∀ n, (Text.decimal n).Writable := fun n => (Text.surrogateFree_decimal n).writable
  have hhex : ∀ n, (Text.hex 4 n).Writable := fun n => (Text.surrogateFree_hex 4 n).writable
  unfold message
  split <;> simp [hdecimal, hhex]

theorem Fault.writable_message (f : Fault) : f.message.Writable := by
  cases f <;> exact Text.writable_ofString _

/-- **Failures over plain paths are shown**, but for a recursion that has gone too deep. -/
theorem Disk.foresees_shown :
    Foresees Symbol.IsPlain (fun e => e.IsShown ∨ e = .tooNested []) where
  fault f _ := .inl ⟨rfl, f.writable_message⟩
  unencodable u := .inl ⟨rfl, u.writable_message⟩
  zeroByte h := absurd rfl h.2
  targetTaken target h :=
    .inl ⟨rfl, by simpa [Failure.message, MoveRefusal.message] using h.writable⟩
  intoItself source target hs ht :=
    .inl ⟨rfl, by simpa [Failure.message, MoveRefusal.message] using ⟨hs.writable, ht.writable⟩⟩
  incomplete parts _ := .inl ⟨rfl, Uncopied.writable_listText parts⟩
  tooNested := .inr rfl
  handed path b h s hs := ⟨h.writable s hs, fun hzero => h.zero_not_mem (hzero ▸ hs)⟩

theorem Pipe.writable_answer {first second : Result} (hfirst : first.IsWritable)
    (hsecond : second.IsWritable) : (Pipe.answer first second).IsWritable := by
  unfold Pipe.answer
  split
  · exact hsecond
  · have htrimmed : (withoutFinalNewlines first.output).Writable :=
      Text.All.of_subset hfirst fun s hs =>
        List.mem_reverse.1 (List.dropWhile_subset _ (List.mem_reverse.1 hs))
    refine Text.all_joinWith (Text.writable_ofString _) fun t ht => ?_
    rcases List.mem_cons.1 (List.mem_filter.1 ht).1 with rfl | ht
    · exact htrimmed
    · rw [List.mem_singleton.1 ht]
      exact hsecond

section Lines

variable {shell later : Shell} (hsession : shell.session.All Symbol.IsPlain) {result : Result}

include hsession

theorem Pipe.writable_runStage {command : Text} (hcommand : command.Writable)
    (hrun : Pipe.runStage command shell = .ok result later) : result.IsWritable := by
  rcases Pipe.runStage_cases command with ⟨answer, hstage, hanswer⟩ | ⟨verb, -, hstage⟩ <;>
    rw [hstage] at hrun
  · cases hrun
    rcases hanswer with rfl | ⟨first, hfirst, rfl⟩
    · simp
    · simpa using Text.writable_lower (hcommand.words first hfirst)
  · exact Verb.writable_run ⟨hsession.1.writable, hsession.2.writable⟩ hcommand.words hrun

theorem Redirect.writable_run {mode : RedirectMode} {tokens : List Text}
    (ht : ∀ t ∈ tokens, Text.Writable t)
    (hrun : Redirect.run mode tokens shell = .ok result later) : result.IsWritable := by
  rcases Redirect.run_cases mode tokens with
    ⟨answer, hredirect, hanswer⟩ | ⟨cut, fileName, verb, -, hcut, hhead, -, hredirect⟩ <;>
    rw [hredirect] at hrun
  · cases hrun
    rcases hanswer with rfl | rfl
    · cases mode <;> simp [shapeError, RedirectMode.arrow]
    · simp
  · obtain ⟨hbefore, hafter⟩ := subset_of_cutAtArrow? hcut
    have hfile := ht fileName (hafter (List.mem_of_mem_head? hhead))
    rw [runTo_eq] at hrun
    obtain ⟨answer, mid, hverb, hrun⟩ := bind_eq_ok.1 hrun
    have hanswer := Verb.writable_run ⟨hsession.1.writable, hsession.2.writable⟩
      (fun t h => ht t (hbefore h)) hverb
    refine (answers_ite (answers_bind fun _ => answers_pure ?_) (answers_pure hanswer) :
      Answers Result.IsWritable _) mid result later hrun
    cases mode <;> simp [report, hfile]

theorem Interpreter.writable_dispatch {line : Line} (hline : line.All Symbol.IsPlain)
    (hrun : dispatch line shell = .ok result later) : result.IsWritable := by
  cases line with
  | plain tokens =>
    have hwords := fun t ht => (hline t ht).writable
    rcases dispatch_plain_cases tokens with ⟨answer, hplain, -, hanswer⟩ | ⟨verb, -, hplain⟩ <;>
      rw [hplain] at hrun
    · cases hrun
      have hname : (Line.verbName tokens).Writable := by
        refine Text.writable_lower ?_
        cases tokens with
        | nil => exact Text.all_nil
        | cons first rest => exact hwords first List.mem_cons_self
      rcases hanswer with rfl | rfl <;> simp [hname]
    · exact Verb.writable_run ⟨hsession.1.writable, hsession.2.writable⟩ hwords hrun
  | redirect mode tokens =>
    exact Redirect.writable_run hsession (fun t ht => (hline t ht).writable) hrun
  | pipe left right =>
    obtain ⟨first, mid, hleft, hrun⟩ := bind_eq_ok.1 hrun
    obtain ⟨second, last, hright, hrun⟩ := bind_eq_ok.1 hrun
    cases hrun
    have hmid := Pipe.keeps_all_runStage Disk.foresees_shown left shell hsession
    rw [stateAfter_of_ok hleft] at hmid
    exact Pipe.writable_answer (Pipe.writable_runStage hsession hline.1.writable hleft)
      (Pipe.writable_runStage hmid hline.2.writable hright)

/-- **A plain line is answered**, whatever happens, and the answer can be written, unless a
recursion goes too deep. -/
theorem Interpreter.exists_interpret {line : Text} (hline : line.All Symbol.IsPlain)
    (hshallow : IsShallow line shell) :
    ∃ result, interpret line shell = .ok result (after line shell) ∧ result.IsWritable := by
  have hall := Line.all_classify hline
  cases hrun : dispatch (Line.classify line) shell with
  | ok result later =>
    rw [after_of_ok hrun]
    exact ⟨result, interpret_of_ok hrun, writable_dispatch hsession hall hrun⟩
  | error e later =>
    have hmade := Line.makesOnly_of_all Disk.foresees_shown hsession hall
    rcases failure_of_dispatch Disk.foresees_shown hmade hrun with ⟨hreported, hmessage⟩ | rfl
    · rw [after_of_error hrun]
      refine ⟨reported e, ?_, by simpa [reported] using hmessage⟩
      rw [interpret_of_error hrun, if_pos hreported]
    · exact absurd (interpret_of_error hrun) (hshallow [] later)

/-- The session stays plain. -/
theorem Interpreter.all_after (line : Text) : (after line shell).session.All Symbol.IsPlain := by
  rw [after_eq_stateAfter]
  exact keeps_all_dispatch Disk.foresees_shown _ shell hsession

end Lines

/-- A result that can be written comes to the screen. -/
theorem Display.exists_ofResult {result : Result} (h : result.IsWritable) (console : Console)
    (coloured : Bool) : ∃ t, ofResult console coloured result = .ok t := by
  obtain ⟨b, hb⟩ := Text.writable_iff.1 h
  unfold ofResult
  rw [hb]
  split
  · exact ⟨_, rfl⟩
  · exact ⟨_, rfl⟩

end FileShell
