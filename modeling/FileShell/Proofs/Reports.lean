import FileShell.Proofs.Boundary
import FileShell.Proofs.Frame

/-!
# What a pipe reports of its left side

The right side of a pipe runs whether or not the left one did what was asked, and what a left side
shows that failed is put ahead of what the right one shows.  There is one gap: a right side that
breaks off ends the pipe before the two texts are put together, and its own failure is all that is
answered.

* `Pipe.prefix_answer_output`: the answer of a pipe starts with the text of a left side that failed.
* `Interpreter.Reports`: a line is answered with an error whose text starts with a given one.
* `Interpreter.reports_pipe`: when the failure of a left side is reported.
-/

namespace FileShell

open Effect

/-! ## The texts of the two sides -/

theorem Text.prefix_joined (separator t : Text) (ts : List Text) :
    t <+: Text.joined separator (t :: ts) := by
  cases ts with
  | nil => exact List.prefix_refl t
  | cons u more =>
    rw [Text.joined, joinWith, List.append_assoc]
    exact List.prefix_append _ _

namespace Pipe

theorem withoutFinalNewlines_prefix (t : Text) : withoutFinalNewlines t <+: t := by
  have h := List.reverse_prefix.2 (List.dropWhile_suffix (l := t.reverse) (· = .scalar '\n'))
  rwa [List.reverse_reverse] at h

/-- The text of a left side that failed stands first, even if it is all that is shown. -/
theorem prefix_answer_output {first : Result} (hfailed : first.isOk = false) (second : Result) :
    withoutFinalNewlines first.output <+: (answer first second).output := by
  rw [answer, hfailed]
  show withoutFinalNewlines first.output <+:
    Text.joined "\n" ([withoutFinalNewlines first.output, second.output].filter (· ≠ []))
  by_cases hshown : withoutFinalNewlines first.output = []
  · rw [hshown]
    exact List.nil_prefix
  · rw [List.filter_cons_of_pos (by simpa using hshown)]
    exact Text.prefix_joined _ _ _

/-- A side with a verb of its own does what the line of its own does, to the word. -/
theorem runStage_trim {l : Text} {v : Verb} (hverb : Line.verb? l = some v)
    (hbar : Line.bar ∉ l) (harrow : Symbol.scalar '>' ∉ l) :
    runStage l.trim = Interpreter.dispatch (Line.classify l) := by
  rw [Line.classify_plain hbar harrow, runStage, Text.words_trim]
  rw [Line.verb?] at hverb
  cases hwords : l.words with
  | nil =>
    rw [hwords] at hverb
    cases hverb
  | cons first rest =>
    rw [hwords] at hverb
    have hlook : Verb.lookup? first = some v := (Verb.lookup?_lower first).symm.trans hverb
    rw [Interpreter.dispatch_plain hlook]
    simp only [hlook]

end Pipe

theorem Line.not_isBlank_of_verb? {l : Text} {v : Verb} (hverb : Line.verb? l = some v) :
    ¬ l.IsBlank := by
  intro hblank
  rw [verb?, (Text.words_eq_nil_iff l).2 hblank] at hverb
  cases hverb

namespace Interpreter

/-! ## Reports -/

/-- The line is answered with an error, and the text stands at the start of what is shown. -/
def Reports (line text : Text) (shell : Shell) : Prop :=
  ∃ result later, interpret line shell = .ok result later ∧ result.isOk = false ∧
    text <+: result.output

instance (line text : Text) (shell : Shell) : Decidable (Reports line text shell) :=
  match h : interpret line shell with
  | .ok result later =>
    decidable_of_iff (result.isOk = false ∧ text <+: result.output) <| by
      refine ⟨fun hreports => ⟨result, later, h, hreports⟩, ?_⟩
      rintro ⟨result', later', hrun, hreports⟩
      cases h.symm.trans hrun
      exact hreports
  | .error _ _ => isFalse <| by
      rintro ⟨result, later, hrun, -⟩
      cases h.symm.trans hrun

theorem reports_of_ok {line text : Text} {shell later : Shell} {result : Result}
    (h : interpret line shell = .ok result later) :
    Reports line text shell ↔ result.isOk = false ∧ text <+: result.output := by
  constructor
  · rintro ⟨result', later', hrun, hreports⟩
    cases h.symm.trans hrun
    exact hreports
  · exact fun hreports => ⟨result, later, h, hreports⟩

/-- Two lines that end alike report alike. -/
theorem reports_congr {line line' : Text} {shell shell' : Shell}
    (h : interpret line shell = interpret line' shell') (text : Text) :
    Reports line text shell ↔ Reports line' text shell' := by
  rw [Reports, h]
  rfl

theorem interpret_congr {line line' : Text} {shell shell' later : Shell} {e : Failure}
    (h : dispatch (Line.classify line) shell = .error e later)
    (h' : dispatch (Line.classify line') shell' = .error e later) :
    interpret line shell = interpret line' shell' := by
  rw [interpret_of_error h, interpret_of_error h']

/-- **When a pipe reports the failure of its left side.**  If the left line by itself is answered
with an error, what it shows stands at the start of what the pipe shows, and the pipe ends with an
error.  That is so whatever the right side answers; only if the left side gives a result and the
right one breaks off is the answer that of the right side alone. -/
theorem reports_pipe {l r : Text} {v : Verb} (hverb : Line.verb? l = some v) (hr : ¬ r.IsBlank)
    (hlbar : Line.bar ∉ l) (hrbar : Line.bar ∉ r)
    (hlarrow : Symbol.scalar '>' ∉ l) (hrarrow : Symbol.scalar '>' ∉ r)
    {shell mid : Shell} {first : Result} (hrun : interpret l shell = .ok first mid)
    (hfailed : first.isOk = false) :
    Reports (l ++ Line.bar :: r) (Pipe.withoutFinalNewlines first.output) shell ↔
      BreaksOff l shell ∨
        (BreaksOff r mid → Reports r (Pipe.withoutFinalNewlines first.output) mid) := by
  have hl := Line.not_isBlank_of_verb? hverb
  cases hleft : dispatch (Line.classify l) shell with
  | error e later =>
    -- the pipe ends where its left side does, with the same failure
    have hsame := interpret_congr (dispatch_bar_of_broken (r := r) hl hlbar hlarrow hleft) hleft
    refine iff_of_true ?_ (.inl ⟨e, later, hleft⟩)
    rw [reports_congr hsame, reports_of_ok hrun]
    exact ⟨hfailed, Pipe.withoutFinalNewlines_prefix _⟩
  | ok result later =>
    cases hrun.symm.trans (interpret_of_ok hleft)
    rw [or_iff_right (not_breaksOff_of_ok hleft)]
    cases hright : dispatch (Line.classify r) mid with
    | error e last =>
      have hpipe := dispatch_bar_of_right_broken hl hr hlbar hrbar hlarrow hrarrow hleft hright
      rw [reports_congr (interpret_congr hpipe hright)]
      exact ⟨fun h _ => h, fun h => h ⟨e, last, hright⟩⟩
    | ok second last =>
      -- both sides have a result, and the two texts are put together
      obtain ⟨b, hb, -⟩ := Pipe.runStage_trim_of_ok hr hrbar hrarrow hright
      have hpipe : dispatch (Line.classify (l ++ Line.bar :: r)) shell =
          .ok (Pipe.answer first b) last := by
        rw [Line.classify_bar hlbar]
        rw [← Pipe.runStage_trim hverb hlbar hlarrow] at hleft
        exact (bind_of_ok hleft).trans (bind_of_ok hb)
      refine iff_of_true ?_ fun hbroken => absurd hbroken (not_breaksOff_of_ok hright)
      rw [reports_of_ok (interpret_of_ok hpipe), ← Bool.not_eq_true, Pipe.answer_isOk, hfailed]
      exact ⟨by simp, Pipe.prefix_answer_output hfailed b⟩

/-- A right side that finds no directory breaks off, and nothing is said of the left one. -/
theorem reports_pipe_lost :
    let shell : Shell := ⟨⟨"/", "/"⟩, FileSystem.empty⟩
    let l : Text := "cat x "
    let r : Text := " touch d/y"
    let shown : Text := "cat: x: No such file or directory\n"
    Line.verb? l = some .cat ∧ Line.verb? r = some .touch ∧
      value? (interpret l) shell = some (.failure .notFound shown) ∧
      Pipe.withoutFinalNewlines shown ≠ [] ∧
      ¬ Reports (l ++ Line.bar :: r) (Pipe.withoutFinalNewlines shown) shell := by
  decide +kernel

/-- A right side that succeeds does not hide the failure of the left one. -/
theorem reports_pipe_pwd :
    let shell : Shell := ⟨⟨"/", "/"⟩, FileSystem.empty⟩
    let l : Text := "cat x "
    let r : Text := " pwd"
    Line.verb? l = some .cat ∧ ∃ first mid, interpret l shell = .ok first mid ∧
      first.isOk = false ∧
      Reports (l ++ Line.bar :: r) (Pipe.withoutFinalNewlines first.output) shell := by
  intro shell l r
  have hverb : Line.verb? l = some .cat := by decide +kernel
  have hvalue : value? (interpret l) shell =
      some (.failure .notFound "cat: x: No such file or directory\n") := by decide +kernel
  obtain ⟨mid, hrun⟩ := value?_eq_some_iff.1 hvalue
  obtain rfl : after l shell = mid := by rw [after, hrun]
  refine ⟨hverb, _, _, hrun, rfl, ?_⟩
  refine (reports_pipe hverb (by decide +kernel) (by decide +kernel) (by decide +kernel)
    (by decide +kernel) (by decide +kernel) hrun rfl).2 (.inr fun hbroken => ?_)
  exact absurd hbroken (by decide +kernel)

end Interpreter

end FileShell
