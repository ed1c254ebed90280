import FileShell.Proofs.Redirection
import FileShell.Proofs.Tokens

/-!
# Which arrow decides

The file of a redirection is the token after the first arrow, but the mode is that of the line: two
arrow heads in a row anywhere in it mean to append.  So a double arrow in front of the file always
appends, and a single one empties the file only if no other token of the line holds two arrow heads.

* `Line.mode_of_classify`: the mode is found in the tokens.
* `Redirect.CarriedOut`: a verb has run and what it shows has gone into a file.
* `Interpreter.arrow_of_interpret`: what the first arrow does to its file.
* `Interpreter.single_arrow_appends`: a single arrow whose file is not emptied.
-/

namespace FileShell

open Effect FileSystem

/-! ## The mode -/

namespace Line

variable {line : Text} {mode : RedirectMode} {tokens : List Text}

theorem tokens_of_classify (h : classify line = .redirect mode tokens) : tokens = line.words := by
  rw [classify] at h
  split at h
  · cases h
  split at h
  · cases h
    rfl
  split at h <;> cases h
  rfl

/-- **The mode is to append exactly if a token holds two arrow heads in a row.** -/
theorem mode_of_classify (h : classify line = .redirect mode tokens) :
    mode = .append ↔ ∃ t ∈ line.words, RedirectMode.append.arrow <:+: t := by
  rw [← hasDoubleArrow_iff]
  rw [classify] at h
  split at h
  · cases h
  split at h
  · next harrow =>
    cases h
    simp [harrow]
  · next harrow =>
    split at h <;> cases h
    simp [harrow]

end Line

namespace Redirect

/-! ## A redirection that is carried out -/

/-- The tokens before the arrow at the position have been run with success, and what they show has
gone into the file that the token after the arrow names. -/
def CarriedOut (mode : RedirectMode) (tokens : List Text) (i : Nat) (shell later : Shell) : Prop :=
  ∃ fileName verb result mid, tokens[i + 1]? = some fileName ∧
    Verb.lookup? (tokens.head?.getD []) = some verb ∧
    verb.run (tokens.take i) shell = .ok result mid ∧ result.isOk = true ∧
    later.session = mid.session ∧
    PutInto mode (shell.session.resolve fileName) result.output mid.files later.files

variable {mode : RedirectMode} {tokens : List Text} {shell later : Shell} {answer : Result}

/-- A redirection that answers without an error has been carried out. -/
theorem carriedOut_of_run (h : run mode tokens shell = .ok answer later)
    (hok : answer.isOk = true) :
    ∃ i, FirstArrow tokens i ∧ CarriedOut mode tokens i shell later := by
  rcases run_cases mode tokens with
    ⟨result, hrun, hresult⟩ | ⟨cut, fileName, verb, -, hcut, hhead, hverb, hrun⟩
  · rw [hrun] at h
    cases h
    rcases hresult with rfl | rfl <;> cases hok
  · obtain ⟨i, harrow, rfl⟩ := exists_firstArrow hcut
    rw [List.head?_drop] at hhead
    rw [harrow.head?_take] at hverb
    rw [hrun, runTo_eq] at h
    obtain ⟨result, mid, hverbRun, h⟩ := bind_eq_ok.1 h
    by_cases hresult : result.isOk = true
    · rw [if_pos hresult] at h
      obtain ⟨done, last, hdisk, hend⟩ := bind_eq_ok.1 h
      cases hend
      obtain ⟨files, hwrite, rfl⟩ := Action.onDisk_eq_ok.1 hdisk
      obtain ⟨p, bytes, hopens, hencode, hwrites⟩ := writeOut_eq_ok hwrite
      exact ⟨i, harrow, fileName, verb, result, mid, hhead, hverb, hverbRun, hresult, rfl, p, bytes,
        hencode, hopens.locate_target, hopens.found?_of_writes hwrites, hwrites⟩
    · rw [if_neg hresult] at h
      cases h
      exact absurd hok hresult

end Redirect

namespace Interpreter

open Redirect

variable {line : Text} {shell later : Shell} {answer : Result}

/-- A line that is answered without an error has not failed on the way. -/
theorem dispatch_of_interpret (h : interpret line shell = .ok answer later)
    (hok : answer.isOk = true) : dispatch (Line.classify line) shell = .ok answer later := by
  cases hrun : dispatch (Line.classify line) shell with
  | ok result mid => exact (interpret_of_ok hrun).symm.trans h
  | error e mid => exact absurd ⟨answer, later, h, hok⟩ (not_succeeds_of_error hrun)

/-- **What the first arrow does to its file.**  A double arrow extends the file that the next token
names.  A single arrow empties it before the write if no token of the line holds two arrow heads in
a row, and extends it if one does. -/
theorem arrow_of_interpret {mode : RedirectMode} {tokens : List Text}
    (hshape : Line.classify line = .redirect mode tokens)
    (hrun : interpret line shell = .ok answer later) (hok : answer.isOk = true) :
    ∃ i arrow, FirstArrow line.words i ∧ line.words[i]? = some arrow ∧
      (arrow = RedirectMode.append.arrow → CarriedOut .append line.words i shell later) ∧
      (arrow = RedirectMode.truncate.arrow →
        (∀ t ∈ line.words, ¬ RedirectMode.append.arrow <:+: t) →
        CarriedOut .truncate line.words i shell later) ∧
      (arrow = RedirectMode.truncate.arrow →
        (∃ t ∈ line.words, RedirectMode.append.arrow <:+: t) →
        CarriedOut .append line.words i shell later) := by
  have hdispatch := dispatch_of_interpret hrun hok
  obtain rfl := Line.tokens_of_classify hshape
  have hmode := Line.mode_of_classify hshape
  rw [hshape] at hdispatch
  obtain ⟨i, hfirst, hcarried⟩ := carriedOut_of_run hdispatch hok
  obtain ⟨arrow, harrow, -⟩ := hfirst.arrow
  have happend : (∃ t ∈ line.words, RedirectMode.append.arrow <:+: t) →
      CarriedOut .append line.words i shell later := fun h => hmode.2 h ▸ hcarried
  refine ⟨i, arrow, hfirst, harrow, ?_, ?_, fun _ => happend⟩
  · -- the double arrow itself holds two arrow heads
    intro hdouble
    exact happend ⟨arrow, List.mem_of_getElem? harrow, hdouble ▸ List.infix_rfl⟩
  · intro _ hnone
    have hne : mode ≠ .append := fun h => by
      obtain ⟨t, ht, hdouble⟩ := hmode.1 h
      exact hnone t ht hdouble
    cases mode with
    | truncate => exact hcarried
    | append => exact absurd rfl hne

/-- The first arrow is a single one and `y` is its file.  The double arrow after it, which plays no
other part, keeps the file from being emptied. -/
theorem single_arrow_appends :
    let y : Name := ⟨[0x79], by decide⟩
    let shell : Shell := ⟨⟨"/", "/"⟩, FileSystem.empty.create [y] (.file [0x61]) (.file _)⟩
    let line : Text := "pwd > y >> z"
    FirstArrow line.words 1 ∧ line.words[1]? = some RedirectMode.truncate.arrow ∧
      line.words[2]? = some (Text.ofString "y") ∧
      (match interpret line shell with
        | .ok answer later => some (answer.isOk, later.files.entries)
        | .error _ _ => none) = some (true, [(y, .file [0x61, 0x2F])]) := by
  intro y shell line
  have hfirst : FirstArrow line.words 1 := firstArrow_cons_iff.2 (by decide +kernel)
  exact ⟨hfirst, by decide +kernel, by decide +kernel, by decide +kernel⟩

/-- Alone on its line the single arrow empties the file. -/
theorem arrow_of_interpret_single :
    let y : Name := ⟨[0x79], by decide⟩
    let shell : Shell := ⟨⟨"/", "/"⟩, FileSystem.empty.create [y] (.file [0x61]) (.file _)⟩
    let line : Text := "pwd > y"
    Line.classify line = .redirect .truncate line.words ∧
      ∃ answer later i, interpret line shell = .ok answer later ∧ answer.isOk = true ∧
        FirstArrow line.words i ∧ CarriedOut .truncate line.words i shell later := by
  intro y shell line
  have hshape : Line.classify line = .redirect .truncate line.words := by decide +kernel
  have hvalue : value? (interpret line) shell = some (report .truncate "y") := by decide +kernel
  obtain ⟨later, hrun⟩ := value?_eq_some_iff.1 hvalue
  obtain ⟨i, arrow, hfirst, harrow, -, htruncate, -⟩ := arrow_of_interpret hshape hrun rfl
  have hsingle : arrow = RedirectMode.truncate.arrow := by
    obtain ⟨-, rfl⟩ := firstArrow_cons_iff.1 hfirst
    exact Option.some.inj (harrow.symm.trans (by decide +kernel))
  refine ⟨hshape, report .truncate "y", later, i, hrun, rfl, hfirst, htruncate hsingle ?_⟩
  decide +kernel

end Interpreter

end FileShell
