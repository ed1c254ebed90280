import FileShell.Interpreter
import FileShell.Proofs.Effects
import FileShell.Proofs.Text.SmallLetters
import FileShell.Proofs.Text.Words

/-!
# A pipe as two lines

A line with a bar runs its two sides one after the other, and so do two lines of their own.  The two
ways part where the left side ends in a failure instead of a result: the pipe is broken off there
and its right side never runs, while a line that failed is reported and the next one is read.

* `Pipe.runStage_trim_cases`: a side of a pipe and the line of its own do the same.
* `Interpreter.after_pipe`: what a pipe leaves behind and when it succeeds, compared with two lines.
* `Interpreter.after_pipe_broken_off`: a pipe whose left side fails, where the two ways part.
-/

namespace FileShell

/-! ## The shape of the three lines -/

namespace Line

theorem stages_bar {l : Text} (hl : bar ∉ l) (r : Text) :
    stages (l ++ bar :: r) = (l.trim, r.trim) := by
  rw [stages, Text.takeWhile_ne hl, Text.dropWhile_ne hl, List.tail_cons]

theorem classify_bar {l : Text} (hl : bar ∉ l) (r : Text) :
    classify (l ++ bar :: r) = .pipe l.trim r.trim := by
  have hbar : (l ++ bar :: r).contains bar = true := by simp
  rw [classify, if_pos hbar, stages_bar hl]

theorem hasDoubleArrow_of_not_mem {l : Text} (h : Symbol.scalar '>' ∉ l) :
    hasDoubleArrow l = false := by
  induction l with
  | nil => rfl
  | cons s rest ih =>
    simp only [List.mem_cons, not_or] at h
    simp [hasDoubleArrow, Ne.symm h.1, ih h.2]

theorem classify_plain {l : Text} (hbar : bar ∉ l) (harrow : Symbol.scalar '>' ∉ l) :
    classify l = .plain l.words := by
  have h : l.contains bar = false := by simpa using hbar
  have h' : l.contains (Symbol.scalar '>') = false := by simpa using harrow
  simp [classify, hbar, harrow, hasDoubleArrow_of_not_mem harrow]

end Line

/-! ## One verb -/

/-- A plain line runs its verb; without a verb it changes nothing. -/
theorem Interpreter.dispatch_plain_cases (tokens : List Text) :
    (∃ result : Result, dispatch (.plain tokens) = pure result ∧
        Verb.lookup? (tokens.head?.getD []) = none ∧
        (result = .success [] ∨
          result = .failure .unknownCommand ("Unknown command: " ++ Line.verbName tokens))) ∨
      ∃ v, Verb.lookup? (tokens.head?.getD []) = some v ∧
        dispatch (.plain tokens) = v.run tokens := by
  cases tokens with
  | nil => exact .inl ⟨_, rfl, by decide, .inl rfl⟩
  | cons first rest =>
    have hlook : Verb.lookup? (Line.verbName (first :: rest)) = Verb.lookup? first :=
      Verb.lookup?_lower first
    rw [dispatch, hlook]
    show (∃ result : Result, _ ∧ Verb.lookup? first = none ∧ _) ∨
      ∃ v, Verb.lookup? first = some v ∧ _
    cases Verb.lookup? first with
    | none => exact .inl ⟨_, rfl, rfl, .inr rfl⟩
    | some v => exact .inr ⟨v, rfl, rfl⟩

theorem Interpreter.dispatch_plain {first : Text} {verb : Verb}
    (h : Verb.lookup? first = some verb) (rest : List Text) :
    dispatch (.plain (first :: rest)) = verb.run (first :: rest) := by
  rcases dispatch_plain_cases (first :: rest) with ⟨result, -, hnone, -⟩ | ⟨v, hv, hrun⟩
  · cases hnone.symm.trans h
  · cases hv.symm.trans h
    exact hrun

/-- A side of a pipe runs its verb; without a verb it changes nothing. -/
theorem Pipe.runStage_cases (command : Text) :
    (∃ result : Result, runStage command = pure result ∧
        (result = .failure .invalidArgument "Error: Empty command in pipe." ∨
          ∃ first ∈ command.words,
            result = .failure .unknownCommand ("Unknown command in pipe: " ++ first.lower))) ∨
      ∃ v, Verb.lookup? (command.words.head?.getD []) = some v ∧
        runStage command = v.run command.words := by
  rw [runStage]
  cases command.words with
  | nil => exact .inl ⟨_, rfl, .inl rfl⟩
  | cons first rest =>
    show (∃ result : Result, _) ∨ ∃ v, Verb.lookup? first = some v ∧ _
    dsimp only
    cases Verb.lookup? first with
    | none => exact .inl ⟨_, rfl, .inr ⟨first, List.mem_cons_self, rfl⟩⟩
    | some v => exact .inr ⟨v, rfl, rfl⟩

/-! ## A side of a pipe is a line -/

/-- A side of a pipe does what the line of its own does; only the words for an unknown verb
differ. -/
theorem Pipe.runStage_trim_cases {l : Text} (hblank : ¬ l.IsBlank) (hbar : Line.bar ∉ l)
    (harrow : Symbol.scalar '>' ∉ l) (shell : Shell) :
    Pipe.runStage l.trim shell = Interpreter.dispatch (Line.classify l) shell ∨
      ∃ a b, Pipe.runStage l.trim shell = .ok a shell ∧
        Interpreter.dispatch (Line.classify l) shell = .ok b shell ∧
        a.isOk = false ∧ b.isOk = false := by
  rw [Line.classify_plain hbar harrow, Pipe.runStage, Text.words_trim]
  cases hw : l.words with
  | nil => exact absurd ((Text.words_eq_nil_iff l).1 hw) hblank
  | cons first rest =>
    have hlook : Verb.lookup? (Line.verbName (first :: rest)) = Verb.lookup? first :=
      Verb.lookup?_lower first
    cases hv : Verb.lookup? first with
    | some verb =>
      left
      simp only [Interpreter.dispatch, hlook, hv]
    | none =>
      right
      simp only [Interpreter.dispatch, hlook, hv]
      exact ⟨_, _, rfl, rfl, rfl, rfl⟩

theorem Pipe.runStage_trim_of_ok {l : Text} (hblank : ¬ l.IsBlank) (hbar : Line.bar ∉ l)
    (harrow : Symbol.scalar '>' ∉ l) {shell later : Shell} {result : Result}
    (h : Interpreter.dispatch (Line.classify l) shell = .ok result later) :
    ∃ a, Pipe.runStage l.trim shell = .ok a later ∧ a.isOk = result.isOk := by
  rcases runStage_trim_cases hblank hbar harrow shell with hsame | ⟨a, b, ha, hb, hna, hnb⟩
  · exact ⟨result, hsame.trans h, rfl⟩
  · rw [h] at hb
    cases hb
    exact ⟨a, ha, hna.trans hnb.symm⟩

theorem Pipe.runStage_trim_of_error {l : Text} (hblank : ¬ l.IsBlank) (hbar : Line.bar ∉ l)
    (harrow : Symbol.scalar '>' ∉ l) {shell later : Shell} {e : Failure}
    (h : Interpreter.dispatch (Line.classify l) shell = .error e later) :
    Pipe.runStage l.trim shell = .error e later := by
  rcases runStage_trim_cases hblank hbar harrow shell with hsame | ⟨a, b, -, hb, -, -⟩
  · exact hsame.trans h
  · rw [h] at hb
    cases hb

namespace Interpreter

/-- Does the line end with a result that reports no error? -/
def Succeeds (line : Text) (shell : Shell) : Prop :=
  ∃ result later, interpret line shell = .ok result later ∧ result.isOk = true

/-- Does the line end in a failure instead of a result of its own? -/
def BreaksOff (line : Text) (shell : Shell) : Prop :=
  ∃ e later, dispatch (Line.classify line) shell = .error e later

instance (line : Text) (shell : Shell) : Decidable (BreaksOff line shell) :=
  match h : dispatch (Line.classify line) shell with
  | .ok _ _ => isFalse fun hbroken => by
    obtain ⟨e, later, herror⟩ := hbroken
    rw [h] at herror
    cases herror
  | .error e later => isTrue ⟨e, later, h⟩

/-- The line does not end because a recursion has gone too deep. -/
def IsShallow (line : Text) (shell : Shell) : Prop :=
  ∀ doing later, interpret line shell ≠ .error (.tooNested doing) later

/-- A line that is answered is shallow. -/
theorem isShallow_of_isSome {line : Text} {shell : Shell}
    (h : (Effect.value? (interpret line) shell).isSome = true) : IsShallow line shell := by
  intro doing later herror
  rw [Effect.value?, herror] at h
  cases h

/-! ## Interpreting a line whose run is known -/

theorem interpret_of_ok {line : Text} {shell later : Shell} {result : Result}
    (h : dispatch (Line.classify line) shell = .ok result later) :
    interpret line shell = .ok result later := Effect.tryCatch_of_ok h

theorem after_eq_stateAfter (line : Text) (shell : Shell) :
    after line shell = Effect.stateAfter (dispatch (Line.classify line)) shell := by
  rw [after, interpret, Effect.stateAfter]
  cases h : dispatch (Line.classify line) shell with
  | ok result later => rw [Effect.tryCatch_of_ok h]
  | error e later =>
    rw [Effect.tryCatch_of_error h]
    -- whether it is reported or thrown again, the shell stays as it was left
    by_cases hreported : isReported e = true
    · simp only [hreported, if_true]
      rfl
    · simp only [hreported, Bool.false_eq_true, if_false]
      rfl

section Run

variable {line : Text} {shell later : Shell}

theorem after_of_ok {result : Result}
    (h : dispatch (Line.classify line) shell = .ok result later) : after line shell = later := by
  rw [after_eq_stateAfter, Effect.stateAfter_of_ok h]

theorem after_of_error {e : Failure} (h : dispatch (Line.classify line) shell = .error e later) :
    after line shell = later := by
  rw [after_eq_stateAfter, Effect.stateAfter_of_error h]

theorem not_breaksOff_of_ok {result : Result}
    (h : dispatch (Line.classify line) shell = .ok result later) : ¬ BreaksOff line shell := by
  rintro ⟨e, last, herror⟩
  rw [h] at herror
  cases herror

theorem succeeds_of_ok {result : Result}
    (h : dispatch (Line.classify line) shell = .ok result later) :
    Succeeds line shell ↔ result.isOk = true := by
  constructor
  · rintro ⟨result', last, hrun, hok⟩
    rw [interpret_of_ok h] at hrun
    cases hrun
    exact hok
  · intro hok
    exact ⟨result, later, interpret_of_ok h, hok⟩

theorem not_succeeds_of_error {e : Failure}
    (h : dispatch (Line.classify line) shell = .error e later) : ¬ Succeeds line shell := by
  rintro ⟨result, last, hrun, hok⟩
  rw [interpret, Effect.tryCatch_of_error h] at hrun
  split at hrun <;> cases hrun
  exact absurd hok (by simp [reported, Result.failure, Result.isOk])

end Run

end Interpreter

/-- The answer of a pipe reports no error exactly if neither side does. -/
theorem Pipe.answer_isOk (first second : Result) :
    (Pipe.answer first second).isOk = true ↔ first.isOk = true ∧ second.isOk = true := by
  rw [Pipe.answer]
  cases hf : first.isOk with
  | true => simp
  | false =>
    cases he : first.error with
    | none => rw [Result.isOk, he] at hf; cases hf
    | some kind =>
      simp only [Result.isOk, Bool.false_eq_true, if_false, false_and, iff_false]
      cases second.error <;> simp

namespace Interpreter

/-! ## The run of a pipe from those of its two lines -/

section Pipe

variable {l r : Text} {shell later last : Shell} (hl : ¬ l.IsBlank) (hr : ¬ r.IsBlank)
  (hlbar : Line.bar ∉ l) (hrbar : Line.bar ∉ r) (hlarrow : Symbol.scalar '>' ∉ l)
  (hrarrow : Symbol.scalar '>' ∉ r)

include hl hlbar hlarrow

theorem dispatch_bar_of_broken {e : Failure}
    (h : dispatch (Line.classify l) shell = .error e later) :
    dispatch (Line.classify (l ++ Line.bar :: r)) shell = .error e later := by
  rw [Line.classify_bar hlbar]
  exact Effect.bind_of_error (Pipe.runStage_trim_of_error hl hlbar hlarrow h)

include hr hrbar hrarrow

theorem dispatch_bar_of_right_broken {first : Result} {e : Failure}
    (h : dispatch (Line.classify l) shell = .ok first later)
    (h' : dispatch (Line.classify r) later = .error e last) :
    dispatch (Line.classify (l ++ Line.bar :: r)) shell = .error e last := by
  obtain ⟨a, ha, -⟩ := Pipe.runStage_trim_of_ok hl hlbar hlarrow h
  rw [Line.classify_bar hlbar]
  exact (Effect.bind_of_ok ha).trans
    (Effect.bind_of_error (Pipe.runStage_trim_of_error hr hrbar hrarrow h'))

theorem dispatch_bar_of_ok {first second : Result}
    (h : dispatch (Line.classify l) shell = .ok first later)
    (h' : dispatch (Line.classify r) later = .ok second last) :
    ∃ result, dispatch (Line.classify (l ++ Line.bar :: r)) shell = .ok result last ∧
      (result.isOk = true ↔ first.isOk = true ∧ second.isOk = true) := by
  obtain ⟨a, ha, hfirst⟩ := Pipe.runStage_trim_of_ok hl hlbar hlarrow h
  obtain ⟨b, hb, hsecond⟩ := Pipe.runStage_trim_of_ok hr hrbar hrarrow h'
  refine ⟨Pipe.answer a b, ?_, ?_⟩
  · rw [Line.classify_bar hlbar]
    exact (Effect.bind_of_ok ha).trans (Effect.bind_of_ok hb)
  · rw [Pipe.answer_isOk, hfirst, hsecond]

end Pipe

/-- **A pipe leaves behind what its two sides leave behind as lines of their own**, unless the left
one breaks off: then the right one is not run.  It succeeds exactly if both lines do. -/
theorem after_pipe {l r : Text} (hl : ¬ l.IsBlank) (hr : ¬ r.IsBlank)
    (hlbar : Line.bar ∉ l) (hrbar : Line.bar ∉ r)
    (hlarrow : Symbol.scalar '>' ∉ l) (hrarrow : Symbol.scalar '>' ∉ r) (shell : Shell) :
    (¬ BreaksOff l shell →
        after (l ++ Line.bar :: r) shell = after r (after l shell)) ∧
      (BreaksOff l shell → after (l ++ Line.bar :: r) shell = after l shell) ∧
      (Succeeds (l ++ Line.bar :: r) shell ↔ Succeeds l shell ∧ Succeeds r (after l shell)) := by
  cases hleft : dispatch (Line.classify l) shell with
  | error e later =>
    have hpipe := dispatch_bar_of_broken (r := r) hl hlbar hlarrow hleft
    refine ⟨fun h => absurd ⟨e, later, hleft⟩ h, fun _ => ?_, ?_⟩
    · rw [after_of_error hpipe, after_of_error hleft]
    · exact ⟨fun h => absurd h (not_succeeds_of_error hpipe),
        fun h => absurd h.1 (not_succeeds_of_error hleft)⟩
  | ok first later =>
    rw [after_of_ok hleft]
    -- the right side starts where the left one ended
    cases hright : dispatch (Line.classify r) later with
    | error e last =>
      have hpipe := dispatch_bar_of_right_broken hl hr hlbar hrbar hlarrow hrarrow hleft hright
      refine ⟨fun _ => ?_, fun h => absurd h (not_breaksOff_of_ok hleft), ?_⟩
      · rw [after_of_error hpipe, after_of_error hright]
      · exact ⟨fun h => absurd h (not_succeeds_of_error hpipe),
          fun h => absurd h.2 (not_succeeds_of_error hright)⟩
    | ok second last =>
      obtain ⟨result, hpipe, hresult⟩ :=
        dispatch_bar_of_ok hl hr hlbar hrbar hlarrow hrarrow hleft hright
      refine ⟨fun _ => ?_, fun h => absurd h (not_breaksOff_of_ok hleft), ?_⟩
      · rw [after_of_ok hpipe, after_of_ok hright]
      · rw [succeeds_of_ok hpipe, succeeds_of_ok hleft, succeeds_of_ok hright, hresult]

/-- A pipe whose left side stumbles over a missing directory: the file of the right side is not
made, and it is made by the two lines. -/
theorem after_pipe_broken_off :
    let shell : Shell := ⟨⟨"/", "/"⟩, FileSystem.empty⟩
    let l : Text := "touch d/x "
    let r : Text := " touch y"
    (after (l ++ Line.bar :: r) shell).files.entries = [] ∧
      (after r (after l shell)).files.entries ≠ [] := by
  decide +kernel

/-- The two ways agree on a left side that is refused with a result: `d` is no entry. -/
theorem after_pipe_refused :
    let shell : Shell := ⟨⟨"/", "/"⟩, FileSystem.empty⟩
    let l : Text := "rm d "
    let r : Text := " touch y"
    ¬ BreaksOff l shell ∧ after (l ++ Line.bar :: r) shell = after r (after l shell) := by
  have hleft : ¬ BreaksOff (Text.ofString "rm d ") ⟨⟨"/", "/"⟩, FileSystem.empty⟩ := by
    decide +kernel
  exact ⟨hleft, (after_pipe (by decide +kernel) (by decide +kernel) (by decide +kernel)
    (by decide +kernel) (by decide +kernel) (by decide +kernel) _).1 hleft⟩

end Interpreter

end FileShell
