import FileShell.Program
import FileShell.Proofs.Answers
import FileShell.Proofs.Runs

/-!
# A run as the run of its lines

A shell that reads a text interprets the lines of the text one after another, from each line in the
shell that the line before it left.  What is on the screen in the end tells of each line that was
read: where the shell stood, and what the line showed.

* `Terminal.linesOf_cases`: the lines of a text are what stands between its line feeds.
* `Repl.commands`, `Repl.linesRead`: which lines are interpreted, and which are read.
* `Repl.transcript`: what is on the screen in the end.
* `Repl.run_ofText`: the run of a shell that reads a text.
-/

namespace FileShell

open Effect

/-! ## The lines of a text -/

theorem joinWith_concat {α : Type} (separator last : List α) (ls : List (List α)) :
    joinWith separator (ls ++ [last]) = ls.flatMap (· ++ separator) ++ last := by
  induction ls with
  | nil => rfl
  | cons l rest ih =>
    cases rest with
    | nil => simp [joinWith]
    | cons m more =>
      rw [List.cons_append, List.cons_append, joinWith, ← List.cons_append, ih]
      simp

/-- The lines of a text end at its line feeds, except for one that the text ends with. -/
theorem Terminal.linesOf_cases (t : Text) :
    ∃ ls last, (∀ l ∈ last :: ls, Symbol.scalar '\n' ∉ l) ∧
      t = ls.flatMap (· ++ [Symbol.scalar '\n']) ++ last ∧
      linesOf t = ls ++ if last = [] then [] else [last] := by
  have hne : Text.lines t ≠ [] := cutAt_ne_nil (Symbol.scalar '\n') t
  have hjoin : joinWith [Symbol.scalar '\n'] (Text.lines t) = t := joinWith_cutAt _ t
  have hcut := List.dropLast_concat_getLast hne
  refine ⟨(Text.lines t).dropLast, (Text.lines t).getLast hne, ?_, ?_, ?_⟩
  · intro l hl
    refine not_mem_of_mem_cutAt (s := l) (l := t) ?_
    rcases List.mem_cons.1 hl with rfl | hl
    · exact List.getLast_mem hne
    · exact List.dropLast_subset _ hl
  · rw [← joinWith_concat]
    rw [hcut, hjoin]
  · rw [linesOf, List.getLast?_eq_some_getLast hne]
    simp only [Option.some.injEq]
    split
    · rw [List.append_nil]
    · exact hcut.symm

theorem Terminal.all_linesOf {P : Symbol → Prop} {t : Text} (h : t.All P) :
    ∀ l ∈ linesOf t, Text.All P l := by
  intro l hl
  have hmem : l ∈ Text.lines t := by
    rw [linesOf] at hl
    split at hl
    · exact List.dropLast_subset _ hl
    · exact hl
  exact fun s hs => h s (mem_of_mem_cutAt hmem hs)

namespace Repl

/-! ## What is interpreted, and what is shown -/

/-- The lines that are interpreted: without the blanks around them, without those that are blank
altogether, up to the one that ends the run. -/
def commands (lines : List Text) : List Text :=
  ((lines.map Text.trim).filter (· ≠ [])).takeWhile (· ≠ exitLine)

/-- Does one of the lines end the run? -/
def leaves (lines : List Text) : Bool := lines.any (·.trim = exitLine)

/-- The lines that are read: up to the one that ends the run, and with it. -/
def linesRead (lines : List Text) : List Text :=
  lines.take (lines.findIdx (·.trim = exitLine) + 1)

/-- What is shown for a line: what the console shows of its result if it is interpreted. -/
def shownFor (console : Console) (line : Text) (shell : Shell) : Text :=
  if line.trim = [] ∨ line.trim = exitLine then []
  else match Interpreter.interpret line.trim shell with
    | .ok result _ => (Display.ofResult console false result).toOption.getD []
    | .error _ _ => []

/-- The shell after some lines have been read. -/
def shellAfter (lines : List Text) (shell : Shell) : Shell :=
  Interpreter.runLines (commands lines) shell

/-- What is on the screen in the end: for each line that is read, the working directory of the shell
at that time and what is shown for the line; and if no line ends the run, a last prompt with a line
feed. -/
def transcript (console : Console) (lines : List Text) (shell : Shell) : Text :=
  (linesRead lines).zipIdx.flatMap (fun read =>
    (shellAfter (lines.take read.2) shell).session.cwd ++ Prompt.sign ++
      shownFor console read.1 (shellAfter (lines.take read.2) shell)) ++
  if leaves lines then []
  else (shellAfter lines shell).session.cwd ++ Prompt.sign ++ Text.ofString "\n"

/-! ## Line by line -/

variable {console : Console} {line : Text} {rest : List Text} {shell : Shell}

/-- The shell after one line that does not end the run. -/
def goOn (line : Text) (shell : Shell) : Shell :=
  if line.trim = [] then shell else Interpreter.after line.trim shell

theorem commands_of_exit (h : line.trim = exitLine) : commands (line :: rest) = [] := by
  have hne : exitLine ≠ [] := by decide
  simp [commands, h, hne]

theorem shellAfter_cons (h : line.trim ≠ exitLine) :
    shellAfter (line :: rest) shell = shellAfter rest (goOn line shell) := by
  unfold shellAfter commands goOn
  by_cases hblank : line.trim = []
  · simp [hblank]
  · simp [hblank, h, Interpreter.runLines]

theorem transcript_of_exit (h : line.trim = exitLine) :
    transcript console (line :: rest) shell = shell.session.cwd ++ Prompt.sign := by
  have hread : linesRead (line :: rest) = [line] := by
    simp [linesRead, List.findIdx_cons, h]
  have hleaves : leaves (line :: rest) = true := by simp [leaves, h]
  have hstart : shellAfter [] shell = shell := rfl
  simp [transcript, hread, hleaves, hstart, shownFor, h]

theorem transcript_cons (h : line.trim ≠ exitLine) :
    transcript console (line :: rest) shell =
      shell.session.cwd ++ Prompt.sign ++ shownFor console line shell ++
        transcript console rest (goOn line shell) := by
  have hread : linesRead (line :: rest) = line :: linesRead rest := by
    simp [linesRead, List.findIdx_cons, h]
  have hleaves : leaves (line :: rest) = leaves rest := by simp [leaves, h]
  have hstart : shellAfter [] shell = shell := rfl
  rw [transcript, hread, List.zipIdx_cons, List.zipIdx_succ, List.flatMap_cons, List.flatMap_map,
    hleaves, shellAfter_cons h, transcript]
  simp only [List.take_zero, hstart, List.take_succ_cons, shellAfter_cons h, List.append_assoc]

/-! ## The run -/

/-- No command ends because a recursion has gone too deep when its turn comes. -/
def AreShallow : List Text → Shell → Prop
  | [], _ => True
  | command :: rest, shell =>
    Interpreter.IsShallow command shell ∧ AreShallow rest (Interpreter.after command shell)

theorem AreShallow.append {before after : List Text} (h : AreShallow (before ++ after) shell) :
    AreShallow after (Interpreter.runLines before shell) := by
  induction before generalizing shell with
  | nil => exact h
  | cons command rest ih => exact ih h.2

/-- The first line is shallow, if it is interpreted, and so are the others after it. -/
theorem areShallow_cons (hexit : line.trim ≠ exitLine)
    (h : AreShallow (commands (line :: rest)) shell) :
    (line.trim ≠ [] → Interpreter.IsShallow line.trim shell) ∧
      AreShallow (commands rest) (goOn line shell) := by
  unfold goOn
  by_cases hblank : line.trim = []
  · have hcommands : commands (line :: rest) = commands rest := by simp [commands, hblank]
    rw [if_pos hblank, ← hcommands]
    exact ⟨fun hne => absurd hblank hne, h⟩
  · have hcommands : commands (line :: rest) = line.trim :: commands rest := by
      simp [commands, hblank, hexit]
    rw [hcommands] at h
    rw [if_neg hblank]
    exact ⟨fun _ => h.1, h.2⟩

section Run

variable (hsession : shell.session.All Symbol.IsPlain)

include hsession

/-- A line that is interpreted has a result, and the screen can show it. -/
theorem exists_answer (console : Console) {command : Text} (hcommand : command.All Symbol.IsPlain)
    (hshallow : Interpreter.IsShallow command shell) :
    ∃ result t, Interpreter.interpret command shell = .ok result (Interpreter.after command shell) ∧
      Display.ofResult console false result = .ok t := by
  obtain ⟨result, hrun, hwritable⟩ := Interpreter.exists_interpret hsession hcommand hshallow
  obtain ⟨t, ht⟩ := Display.exists_ofResult hwritable console false
  exact ⟨result, t, hrun, ht⟩

theorem all_goOn (line : Text) : (goOn line shell).session.All Symbol.IsPlain := by
  unfold goOn
  split
  · exact hsession
  · exact Interpreter.all_after hsession _

/-- What a plain line leads to. -/
theorem respond_cases (console : Console) (hline : line.All Symbol.IsPlain)
    (hexit : line.trim ≠ exitLine)
    (hshallow : line.trim ≠ [] → Interpreter.IsShallow line.trim shell) :
    (respond console line shell = .ok .silence (goOn line shell) ∧
        shownFor console line shell = []) ∨
      respond console line shell =
        .ok (.display (shownFor console line shell)) (goOn line shell) := by
  unfold respond goOn shownFor
  by_cases hblank : line.trim = []
  · left
    simp [hblank]
    rfl
  · right
    obtain ⟨result, t, hrun, ht⟩ := exists_answer hsession console hline.trim (hshallow hblank)
    have hanswer : answer console line.trim shell =
        .ok (result.isOk, t) (Interpreter.after line.trim shell) := by
      rw [answer, bind_of_ok hrun, ht]
      rfl
    simp only [hblank, hexit, or_self, if_false, hrun, ht]
    rw [bind_of_ok hanswer]
    rfl

omit hsession in
theorem respond_exit (console : Console) (hexit : line.trim = exitLine) :
    respond console line shell = .ok .farewell shell := by
  have hne : exitLine ≠ [] := by decide
  unfold respond
  simp [hexit, hne]
  rfl

/-- **The run over some lines**: it ends well, in the shell that the commands among the lines lead
to, and with their transcript on the screen. -/
theorem runAnswers_eq (console : Console) {lines : List Text}
    (hlines : ∀ l ∈ lines, Text.All Symbol.IsPlain l)
    (hshallow : AreShallow (commands lines) shell) :
    let r := runAnswers console (lines.map some) none shell
    r.ending = .ok () ∧ r.shell = shellAfter lines shell ∧
      r.screen = transcript console lines shell := by
  induction lines generalizing shell with
  | nil =>
    refine ⟨rfl, rfl, ?_⟩
    simp [transcript, linesRead, leaves, shellAfter, commands, Interpreter.runLines, runAnswers,
      Run.screen, promptOf, Event.text]
  | cons line rest ih =>
    have hnothing : Action.onDisk (Terminal.recordAnswer none (some line)) shell =
        .ok none shell := rfl
    rw [List.map_cons]
    by_cases hexit : line.trim = exitLine
    · rw [runAnswers, hnothing]
      simp only [respond_exit console hexit]
      refine ⟨trivial, ?_, ?_⟩
      · rw [shellAfter, commands_of_exit hexit]
        rfl
      · rw [transcript_of_exit hexit]
        simp [Run.screen, promptOf, Event.text]
    · have hline := hlines line List.mem_cons_self
      obtain ⟨hfirst, hlater⟩ := areShallow_cons hexit hshallow
      obtain ⟨hending, hshell, hscreen⟩ := ih (all_goOn hsession line)
        (fun l hl => hlines l (List.mem_cons_of_mem _ hl)) hlater
      rw [shellAfter_cons hexit, transcript_cons hexit, ← hshell, ← hscreen]
      rcases respond_cases hsession console hline hexit hfirst with ⟨hrespond, hshown⟩ | hrespond
      · rw [runAnswers, hnothing]
        simp only [hrespond, hshown]
        refine ⟨hending, rfl, ?_⟩
        simp [Run.after, Run.screen, promptOf, Event.text]
      · rw [runAnswers, hnothing]
        simp only [hrespond]
        refine ⟨hending, rfl, ?_⟩
        simp [Run.after, Run.screen, promptOf, Event.text]

theorem all_runLines (commands : List Text) :
    (Interpreter.runLines commands shell).session.All Symbol.IsPlain := by
  induction commands generalizing shell with
  | nil => exact hsession
  | cons command rest ih => exact ih (Interpreter.all_after hsession command)

end Run

theorem all_commands {P : Symbol → Prop} {lines : List Text}
    (hlines : ∀ l ∈ lines, Text.All P l) : ∀ command ∈ commands lines, Text.All P command := by
  intro command hcommand
  have hmem := (List.mem_filter.1 (List.takeWhile_subset _ hcommand)).1
  obtain ⟨l, hl, rfl⟩ := List.mem_map.1 hmem
  exact (hlines l hl).trim

open Terminal in
/-- **A shell that reads a text** interprets the commands among its lines one after another: each has
a result that can be shown, the run ends with the code 0 in the shell that the commands lead to, and
their transcript is on the screen.  The text and the paths of the session are texts without
surrogates, and hold no zero character, as is so with whatever comes from an environment; and no
command ends because a recursion has gone too deep. -/
theorem run_ofText (console : Console) {t : Text} {shell : Shell} (ht : t.SurrogateFree)
    (hzero : Symbol.zero ∉ t)
    (hcwd : shell.session.cwd.SurrogateFree) (hcwdZero : Symbol.zero ∉ shell.session.cwd)
    (hhome : shell.session.home.SurrogateFree) (hhomeZero : Symbol.zero ∉ shell.session.home)
    (hshallow : AreShallow (commands (linesOf t)) shell) :
    (∃ ls last, (∀ l ∈ last :: ls, Symbol.scalar '\n' ∉ l) ∧
      t = ls.flatMap (· ++ [Symbol.scalar '\n']) ++ last ∧
      linesOf t = ls ++ if last = [] then [] else [last]) ∧
    (∀ before command after, commands (linesOf t) = before ++ command :: after →
      ∃ result later shown,
        Interpreter.interpret command (Interpreter.runLines before shell) = .ok result later ∧
          Display.ofResult console false result = .ok shown) ∧
    (run console (ofText t) shell).shell = Interpreter.runLines (commands (linesOf t)) shell ∧
    Program.runText console t shell = ⟨transcript console (linesOf t) shell, .ok 0,
      (Interpreter.runLines (commands (linesOf t)) shell).files⟩ := by
  have hsession : shell.session.All Symbol.IsPlain :=
    ⟨hcwd.plain hcwdZero, hhome.plain hhomeZero⟩
  have hlines := all_linesOf (ht.plain hzero)
  obtain ⟨hending, hshell, hscreen⟩ := runAnswers_eq hsession console hlines hshallow
  refine ⟨linesOf_cases t, ?_, hshell, ?_⟩
  · intro before command after hcommands
    have hcommand : command ∈ commands (linesOf t) := by simp [hcommands]
    obtain ⟨result, shown, hrun, hshown⟩ :=
      exists_answer (all_runLines hsession before) console (all_commands hlines command hcommand)
        (hcommands ▸ hshallow).append.1
    exact ⟨result, _, shown, hrun, hshown⟩
  · have hrun : run console (ofText t) shell =
        runAnswers console ((linesOf t).map some) none shell := rfl
    rw [Program.runText, hrun, hending, hshell, hscreen]
    rfl

/-- The shell goes to `/d`, passes over a blank line, says where it is and leaves before the last
line. -/
theorem run_ofText_visit :
    let d : Name := ⟨[0x64], by decide⟩
    let shell : Shell := ⟨⟨"/", "/"⟩, FileSystem.empty.create [d] (.directory []) Node.tidy_empty⟩
    let t : Text := "cd d\n \n pwd\nexit\nrmdir /d"
    (Program.runText .bare t shell).ending = .ok 0 ∧
      (Program.runText .bare t shell).screen = "/ $ /d $ /d $ /d\n/d $ " := by
  intro d shell t
  have hfree : ∀ s : String, (Text.ofString s).SurrogateFree := Text.surrogateFree_ofString
  have hzero : Symbol.zero ∉ t := by decide +kernel
  have hcwd : shell.session.cwd.SurrogateFree := hfree "/"
  have hhome : shell.session.home.SurrogateFree := hfree "/"
  have hcommands : commands (Terminal.linesOf t) = (["cd d", "pwd"] : List Text) := by
    decide +kernel
  have hshallow : AreShallow (commands (Terminal.linesOf t)) shell := by
    rw [hcommands]
    exact ⟨Interpreter.isShallow_of_isSome (by decide +kernel),
      Interpreter.isShallow_of_isSome (by decide +kernel), trivial⟩
  have hrun := (run_ofText .bare (hfree _) hzero hcwd (by decide +kernel) hhome (by decide +kernel)
    hshallow).2.2.2
  rw [hrun]
  exact ⟨rfl, by decide +kernel⟩

end Repl

end FileShell
