import FileShell.Proofs.FileSystem.Writing
import FileShell.Proofs.Stages
import FileShell.Redirect

/-!
# What a redirection does

A redirection is a verb's run followed by one write.  The arrow cuts the tokens, the path of the file
is fixed before the verb runs, and the file is looked for only when the verb is done: a directory that
the verb makes or takes away counts.

* `Redirect.FirstArrow`, `cutAtArrow?_of_firstArrow`: where the tokens are cut.
* `Redirect.writeOut_eq_ok`, `exists_writeOut`: when a text can be put into a file, and what that
  changes.
* `Redirect.run_cases`: nothing is run, or the verb before the arrow.
* `Redirect.redirection`: the law of redirections.
-/

namespace FileShell

open Effect FileSystem

namespace Redirect

variable {tokens : List Text} {i : Nat}

/-! ## The arrow -/

/-- The first arrow that is not the first token has the position. -/
structure FirstArrow (tokens : List Text) (i : Nat) : Prop where
  pos : 1 ≤ i
  arrow : ∃ t, tokens[i]? = some t ∧ isArrow t = true
  first : ∀ j t, 1 ≤ j → j < i → tokens[j]? = some t → isArrow t = false

theorem firstArrow_cons_iff {verb : Text} {rest : List Text} :
    FirstArrow (verb :: rest) i ↔
      rest.findIdx isArrow < rest.length ∧ i = rest.findIdx isArrow + 1 := by
  constructor
  · rintro ⟨hpos, ⟨t, ht, harrow⟩, hfirst⟩
    obtain ⟨k, rfl⟩ : ∃ k, i = k + 1 := ⟨i - 1, by omega⟩
    rw [List.getElem?_cons_succ] at ht
    obtain ⟨hk, rfl⟩ := List.getElem?_eq_some_iff.1 ht
    have hidx : rest.findIdx isArrow = k := by
      rw [List.findIdx_eq hk]
      refine ⟨harrow, fun j hj => ?_⟩
      refine hfirst (j + 1) _ (by omega) (by omega) ?_
      rw [List.getElem?_cons_succ, List.getElem?_eq_getElem]
    exact ⟨by omega, by omega⟩
  · rintro ⟨hlt, rfl⟩
    refine ⟨by omega, ⟨_, ?_, List.findIdx_getElem (w := hlt)⟩, ?_⟩
    · rw [List.getElem?_cons_succ, List.getElem?_eq_getElem hlt]
    · intro j t hj hji ht
      obtain ⟨k, rfl⟩ : ∃ k, j = k + 1 := ⟨j - 1, by omega⟩
      rw [List.getElem?_cons_succ] at ht
      obtain ⟨hk, rfl⟩ := List.getElem?_eq_some_iff.1 ht
      simpa using List.not_of_lt_findIdx (by omega : k < rest.findIdx isArrow)

theorem not_firstArrow_nil : ¬ FirstArrow [] i := by
  rintro ⟨-, ⟨t, ht, -⟩, -⟩
  simp at ht

/-- The tokens are cut at the first arrow. -/
theorem cutAtArrow?_of_firstArrow (h : FirstArrow tokens i) :
    cutAtArrow? tokens = some (tokens.take i, tokens.drop (i + 1)) := by
  cases tokens with
  | nil => exact absurd h not_firstArrow_nil
  | cons verb rest =>
    obtain ⟨hlt, rfl⟩ := firstArrow_cons_iff.1 h
    rw [cutAtArrow?, List.dropWhile_eq_drop_findIdx_not, List.takeWhile_eq_take_findIdx_not]
    simp only [Bool.not_not]
    rw [List.drop_eq_getElem_cons hlt]
    simp

theorem cutAtArrow?_eq_none (h : ∀ i, ¬ FirstArrow tokens i) : cutAtArrow? tokens = none := by
  cases tokens with
  | nil => rfl
  | cons verb rest =>
    have hnone : rest.length ≤ rest.findIdx isArrow :=
      Nat.le_of_not_lt fun hlt => h _ (firstArrow_cons_iff.2 ⟨hlt, rfl⟩)
    rw [cutAtArrow?, List.dropWhile_eq_drop_findIdx_not]
    simp only [Bool.not_not]
    rw [List.drop_eq_nil_of_le hnone]

theorem exists_firstArrow {cut : List Text × List Text} (h : cutAtArrow? tokens = some cut) :
    ∃ i, FirstArrow tokens i ∧ cut = (tokens.take i, tokens.drop (i + 1)) := by
  by_cases harrow : ∃ i, FirstArrow tokens i
  · obtain ⟨i, harrow⟩ := harrow
    exact ⟨i, harrow, Option.some.inj (h.symm.trans (cutAtArrow?_of_firstArrow harrow))⟩
  · cases (cutAtArrow?_eq_none (not_exists.1 harrow)).symm.trans h

/-- Both pieces come from the tokens. -/
theorem subset_of_cutAtArrow? {cut : List Text × List Text} (h : cutAtArrow? tokens = some cut) :
    cut.1 ⊆ tokens ∧ cut.2 ⊆ tokens := by
  obtain ⟨i, -, rfl⟩ := exists_firstArrow h
  exact ⟨List.take_subset _ _, List.drop_subset _ _⟩

/-- The command before the arrow starts with the first token. -/
theorem FirstArrow.head?_take (h : FirstArrow tokens i) :
    (tokens.take i).head? = tokens.head? := by
  have hpos := h.pos
  rw [List.head?_take, if_neg (by omega)]

/-! ## The write -/

/-- What of the bytes of a file stays in front of what is written. -/
def kept (mode : RedirectMode) (old : Bytes) : Bytes :=
  match mode with
  | .truncate => []
  | .append => old

variable {mode : RedirectMode} {path output : Text} {fs later : FileSystem}

/-- **A text is put into a file** if the file can be opened and the text encoded; after that the
file holds the text, after what is kept. -/
theorem writeOut_eq_ok (h : writeOut mode path output fs = .ok () later) :
    ∃ p bytes, fs.Opens path p ∧ output.encode = .ok bytes ∧
      Writes p (kept mode (fs.content p) ++ bytes) fs later := by
  rw [writeOut, bind_eq_ok] at h
  obtain ⟨p, mid, hopen, h⟩ := h
  obtain ⟨hopens, hmid⟩ := Disk.writes_of_openForWriting hopen
  cases hencode : output.encode with
  | error e =>
    rw [hencode] at h
    cases h
  | ok bytes =>
    rw [hencode] at h
    obtain ⟨last, happend, hlast⟩ := Disk.append_writes hmid.file bytes
    cases happend.symm.trans h
    refine ⟨p, bytes, hopens, rfl, ?_⟩
    cases mode <;> exact hmid.trans hlast

theorem exists_writeOut {p : Location} {bytes : Bytes} (hopens : fs.Opens path p)
    (hencode : output.encode = .ok bytes) (mode : RedirectMode) :
    ∃ later, writeOut mode path output fs = .ok () later := by
  obtain ⟨mid, hopen⟩ := Disk.exists_openForWriting hopens (mode = .truncate)
  obtain ⟨last, happend, -⟩ :=
    Disk.append_writes (Disk.writes_of_openForWriting hopen).2.file bytes
  refine ⟨last, ?_⟩
  rw [writeOut, bind_of_ok hopen, hencode]
  exact happend

/-- A text has gone into the file that a path leads to, links followed: the file may be new, it holds
what is kept and then the text, and nothing else is different. -/
def PutInto (mode : RedirectMode) (path output : Text) (fs later : FileSystem) : Prop :=
  ∃ p bytes, output.encode = .ok bytes ∧ fs.locate .target path = .ok (fs.spotAt p) ∧
    later.found? .target path = some (p, .file (kept mode (fs.content p) ++ bytes)) ∧
    Writes p (kept mode (fs.content p) ++ bytes) fs later

/-! ## The run -/

/-- The verb before the arrow runs, and if it is successful, what it shows is written. -/
def runTo (mode : RedirectMode) (verb : Verb) (command : List Text) (fileName : Text) :
    Action Result := do
  let path ← Action.resolve fileName
  let result ← verb.run command
  if result.isOk then
    Action.onDisk (writeOut mode path result.output)
    return report mode fileName
  else return result

theorem runTo_eq {verb : Verb} {command : List Text} {fileName : Text} (shell : Shell) :
    runTo mode verb command fileName shell =
      (verb.run command >>= fun result =>
        if result.isOk then do
          Action.onDisk (writeOut mode (shell.session.resolve fileName) result.output)
          return report mode fileName
        else return result) shell := by
  rw [runTo, bind_of_ok (Action.resolve_eq fileName shell)]

/-- Nothing is run, or the verb before the arrow. -/
theorem run_cases (mode : RedirectMode) (tokens : List Text) :
    (∃ result : Result, run mode tokens = pure result ∧
        (result = shapeError mode ∨ result = .failure .unknownCommand "Error: Unknown command.")) ∨
      ∃ cut fileName verb, 3 ≤ tokens.length ∧ cutAtArrow? tokens = some cut ∧
        cut.2.head? = some fileName ∧ Verb.lookup? (cut.1.head?.getD []) = some verb ∧
        run mode tokens = runTo mode verb cut.1 fileName := by
  rw [run]
  split
  · exact .inl ⟨_, rfl, .inl rfl⟩
  next hlength =>
  split
  · next command fileName more hcut =>
    cases hverb : Verb.lookup? (command.head?.getD []) with
    | none => exact .inl ⟨_, rfl, .inr rfl⟩
    | some verb => exact .inr ⟨_, fileName, verb, by omega, hcut, rfl, hverb, rfl⟩
  · exact .inl ⟨_, rfl, .inl rfl⟩

/-- What is run when the tokens have the right shape. -/
theorem run_of_shape {fileName : Text} {verb : Verb} (harrow : FirstArrow tokens i)
    (hfile : tokens[i + 1]? = some fileName)
    (hverb : Verb.lookup? (tokens.head?.getD []) = some verb) :
    run mode tokens = runTo mode verb (tokens.take i) fileName := by
  obtain ⟨hlt, rfl⟩ := List.getElem?_eq_some_iff.1 hfile
  have hpos := harrow.pos
  rw [run, if_neg (by omega), cutAtArrow?_of_firstArrow harrow, List.drop_eq_getElem_cons hlt]
  simp only [harrow.head?_take, hverb]
  rfl

/-- Without a command, an arrow and a file after it, or without a verb, nothing is run. -/
theorem run_of_no_shape
    (h : tokens.length < 3 ∨ (∀ i, FirstArrow tokens i → tokens[i + 1]? = none) ∨
      Verb.lookup? (tokens.head?.getD []) = none) (shell : Shell) :
    ∃ result, run mode tokens shell = .ok result shell ∧ result.isOk = false := by
  rcases run_cases mode tokens with
    ⟨result, hrun, hresult⟩ | ⟨cut, fileName, verb, hlength, hcut, hhead, hverb, -⟩
  · rw [hrun]
    refine ⟨result, rfl, ?_⟩
    rcases hresult with rfl | rfl <;> rfl
  · -- the tokens have the right shape
    obtain ⟨i, harrow, rfl⟩ := exists_firstArrow hcut
    rw [List.head?_drop] at hhead
    rw [harrow.head?_take] at hverb
    rcases h with h | h | h
    · omega
    · cases (h i harrow).symm.trans hhead
    · cases h.symm.trans hverb

/-- **The law of redirections.**  Without the right shape nothing happens.  Otherwise the verb is run
on the tokens before the first arrow: if it is not successful, that is all.  If it is, and its output
is encoded and put into the file, then the one file that the path leads to holds it afterwards, after
what the file held if the mode is to append; the path is the one seen from where the verb started,
followed in what the verb left behind. -/
theorem redirection (mode : RedirectMode) (tokens : List Text) (shell : Shell) :
    ((tokens.length < 3 ∨ (∀ i, FirstArrow tokens i → tokens[i + 1]? = none) ∨
        Verb.lookup? (tokens.head?.getD []) = none) →
      ∃ result, run mode tokens shell = .ok result shell ∧ result.isOk = false) ∧
    ∀ i fileName verb, FirstArrow tokens i → tokens[i + 1]? = some fileName →
      Verb.lookup? (tokens.head?.getD []) = some verb →
      (∀ result mid, verb.run (tokens.take i) shell = .ok result mid → result.isOk = false →
        run mode tokens shell = .ok result mid) ∧
      (∀ e mid, verb.run (tokens.take i) shell = .error e mid →
        run mode tokens shell = .error e mid) ∧
      (∀ answer later, run mode tokens shell = .ok answer later → answer.isOk = true →
        ∃ result mid, verb.run (tokens.take i) shell = .ok result mid ∧ result.isOk = true ∧
          later.session = mid.session ∧
          PutInto mode (shell.session.resolve fileName) result.output mid.files later.files) ∧
      (∀ result mid bytes p, verb.run (tokens.take i) shell = .ok result mid →
        result.isOk = true → result.output.encode = .ok bytes →
        mid.files.Opens (shell.session.resolve fileName) p →
        ∃ later, run mode tokens shell = .ok (report mode fileName) later) := by
  refine ⟨fun h => run_of_no_shape h shell, ?_⟩
  intro i fileName verb harrow hfile hverb
  rw [run_of_shape harrow hfile hverb, runTo_eq]
  refine ⟨?_, ?_, ?_, ?_⟩
  · intro result mid hrun hfailed
    rw [bind_of_ok hrun, hfailed]
    rfl
  · intro e mid hrun
    exact bind_of_error hrun
  · intro answer later h hok
    obtain ⟨result, mid, hrun, h⟩ := bind_eq_ok.1 h
    by_cases hresult : result.isOk = true
    · rw [if_pos hresult] at h
      obtain ⟨done, last, hdisk, hend⟩ := bind_eq_ok.1 h
      cases hend
      obtain ⟨files, hwrite, rfl⟩ := Action.onDisk_eq_ok.1 hdisk
      obtain ⟨p, bytes, hopens, hencode, hwrites⟩ := writeOut_eq_ok hwrite
      exact ⟨result, mid, hrun, hresult, rfl, p, bytes, hencode, hopens.locate_target,
        hopens.found?_of_writes hwrites, hwrites⟩
    · rw [if_neg hresult] at h
      cases h
      exact absurd hok hresult
  · intro result mid bytes p hrun hresult hencode hopens
    obtain ⟨files, hwrite⟩ := exists_writeOut hopens hencode mode
    refine ⟨⟨mid.session, files⟩, ?_⟩
    rw [bind_of_ok hrun, if_pos hresult, bind_of_ok (Action.onDisk_eq_ok.2 ⟨files, hwrite, rfl⟩)]
    rfl

/-- The file of a `cd` that is redirected stands in the directory that the `cd` leaves. -/
theorem redirection_of_cd :
    let d : Name := ⟨[0x64], by decide⟩
    let shell : Shell := ⟨⟨"/", "/"⟩, FileSystem.empty.create [d] (.directory []) Node.tidy_empty⟩
    let tokens : List Text := ["cd", "d", ">>", "y"]
    FirstArrow tokens 2 ∧ tokens[2 + 1]? = some (Text.ofString "y") ∧
      ∃ answer later, run .append tokens shell = .ok answer later ∧ answer.isOk = true ∧
        ∃ result mid, Verb.cd.run ["cd", "d"] shell = .ok result mid ∧ result.isOk = true ∧
          later.session = mid.session ∧
          PutInto .append "/y" result.output mid.files later.files := by
  intro d shell tokens
  have harrow : FirstArrow tokens 2 := firstArrow_cons_iff.2 (by decide +kernel)
  have hpath : shell.session.resolve "y" = "/y" := by decide +kernel
  have hvalue : value? (run .append tokens) shell = some (report .append "y") := by decide +kernel
  obtain ⟨later, hrun⟩ := value?_eq_some_iff.1 hvalue
  have hlaw := (redirection .append tokens shell).2 2 "y" .cd harrow rfl (by decide +kernel)
  refine ⟨harrow, rfl, report .append "y", later, hrun, rfl, ?_⟩
  rw [← hpath]
  exact hlaw.2.2.1 _ later hrun rfl

end Redirect

end FileShell
