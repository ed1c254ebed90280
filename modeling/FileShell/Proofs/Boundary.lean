import FileShell.Proofs.Failing

/-!
# What leaves the interpreter

A failure of the file system ends as a result, and so does a text that cannot be encoded.  What
leaves the interpreter is the failure of a path with the zero character, where something is to be
made at such a path, and that of a recursion that has gone too deep.

* `Interpreter.interpret_eq_error_iff`: only these failures leave the interpreter.
* `Line.ComesTo`: the line comes to where it makes something.
* `Interpreter.boundary`: which lines are answered.
-/

namespace FileShell

open Effect FileSystem

variable {shell later : Shell}

namespace Interpreter

/-- Whatever happens, nothing leaves the interpreter but the failures of a zero character and of a
recursion. -/
theorem foresees_any : Disk.Foresees (fun _ => True)
    (fun e => isReported e = true ∨ e = .zeroByte ∨ e = .tooNested []) where
  fault _ _ := .inl rfl
  unencodable _ := .inl rfl
  zeroByte _ := .inr (.inl rfl)
  targetTaken _ _ := .inl rfl
  intoItself _ _ _ _ := .inl rfl
  incomplete _ _ := .inl rfl
  tooNested := .inr (.inr rfl)
  handed _ _ _ _ _ := trivial

/-- Without a zero character, every failure but that of a recursion is answered. -/
theorem foresees_reported :
    Disk.Foresees (· ≠ Symbol.zero) (fun e => isReported e = true ∨ e = .tooNested []) where
  fault _ _ := .inl rfl
  unencodable _ := .inl rfl
  zeroByte h := absurd rfl h
  targetTaken _ _ := .inl rfl
  intoItself _ _ _ _ := .inl rfl
  incomplete _ _ := .inl rfl
  tooNested := .inr rfl
  handed _ _ h _ hs := fun hzero => h.zero_not_mem (hzero ▸ hs)

theorem interpret_of_error {line : Text} {e : Failure}
    (h : dispatch (Line.classify line) shell = .error e later) :
    interpret line shell = if isReported e then .ok (reported e) later else .error e later := by
  rw [interpret, tryCatch_of_error h]
  split <;> rfl

/-- A line is answered if all its failures are but that of a recursion, and it does not end in that
one. -/
theorem interpret_eq_ok_of_reported {line : Text}
    (h : ∀ e last, dispatch (Line.classify line) shell = .error e last →
      isReported e = true ∨ e = .tooNested [])
    (hshallow : IsShallow line shell) :
    ∃ result later, interpret line shell = .ok result later := by
  cases hrun : dispatch (Line.classify line) shell with
  | ok result later => exact ⟨result, later, interpret_of_ok hrun⟩
  | error e later =>
    rcases h e later hrun with hreported | rfl
    · refine ⟨reported e, later, ?_⟩
      rw [interpret_of_error hrun, if_pos hreported]
    · exact absurd (interpret_of_error hrun) (hshallow [] later)

/-- **Only the failures of a zero character and of a recursion leave the interpreter.** -/
theorem interpret_eq_error_iff {line : Text} {e : Failure} :
    interpret line shell = .error e later ↔
      (e = .zeroByte ∨ e = .tooNested []) ∧
        dispatch (Line.classify line) shell = .error e later := by
  constructor
  · intro h
    cases hrun : dispatch (Line.classify line) shell with
    | ok result last => cases (interpret_of_ok hrun).symm.trans h
    | error d last =>
      rw [interpret_of_error hrun] at h
      have hmade : (Line.classify line).MakesOnly (fun _ => True) shell :=
        Line.makesOnly_of_all foresees_any ⟨fun _ _ => trivial, fun _ _ => trivial⟩
          (Line.all_classify fun _ _ => trivial)
      rcases failure_of_dispatch foresees_any hmade hrun with hreported | rfl | rfl
      · rw [if_pos hreported] at h
        cases h
      · cases h
        exact ⟨.inl rfl, rfl⟩
      · cases h
        exact ⟨.inr rfl, rfl⟩
  · rintro ⟨rfl | rfl, h⟩
    · exact interpret_of_error h
    · exact interpret_of_error h

end Interpreter

/-! ## Where something is to be made -/

theorem Action.exists_onDisk_eq_error {α : Type} {action : Disk α} {e : Failure} :
    (∃ later, onDisk action shell = .error e later) ↔
      ∃ files, action shell.files = .error e files := by
  simp only [onDisk_eq_error]
  exact ⟨fun ⟨_, files, h, _⟩ => ⟨files, h⟩, fun ⟨files, h⟩ => ⟨_, files, h, rfl⟩⟩

/-- Nothing is there under a path with the zero character. -/
theorem FileSystem.isPresent_of_zero_mem {path : Text} (h : Symbol.zero ∈ path) (fs : FileSystem) :
    fs.isPresent path = false := by
  rw [← Bool.not_eq_true]
  intro hpresent
  obtain ⟨p, t, hspot⟩ := isPresent_iff.1 hpresent
  exact absurd rfl (Interpreter.foresees_reported.located hspot _ h)

namespace Verb

variable {first path : Text}

/-- A verb that may make something at one path only can end in the failure of a zero character only
if that path holds one. -/
theorem run_eq_zeroByte_iff {v : Verb} {tokens : List Text}
    (hmade : v.creations shell.session tokens.tail = [path])
    (h : Symbol.zero ∈ path →
      ((∃ later, v.run tokens shell = .error .zeroByte later) ↔ path.Writable)) :
    (∃ later, v.run tokens shell = .error .zeroByte later) ↔
      path.Writable ∧ Symbol.zero ∈ path := by
  by_cases hzero : Symbol.zero ∈ path
  · rw [h hzero, and_iff_left hzero]
  · refine iff_of_false ?_ fun h => hzero h.2
    rintro ⟨later, hrun⟩
    have hfree : ∀ p ∈ v.creations shell.session tokens.tail, Text.All (· ≠ Symbol.zero) p := by
      intro p hp s hs hs'
      rw [hmade, List.mem_singleton] at hp
      exact hzero (hp ▸ hs' ▸ hs)
    rcases failure_of_run Interpreter.foresees_reported hfree hrun with hreported | hnested
    · cases hreported
    · cases hnested

theorem run_mkdir_eq_zeroByte_iff {name : Text} (hname : name.trim ≠ [])
    (habove : shell.files.isPresent
      (Spelling.ofText (shell.session.resolve name)).parent.toText = true) :
    (∃ later, mkdir.run [first, name] shell = .error .zeroByte later) ↔
      (shell.session.resolve name).Writable ∧ Symbol.zero ∈ shell.session.resolve name := by
  refine run_eq_zeroByte_iff rfl fun hzero => ?_
  have habsent : shell.files.isPresent
    (Path.resolve name shell.session.cwd shell.session.home) = false := isPresent_of_zero_mem hzero _
  have hrun : mkdir.run [first, name] shell = (do
      Action.onDisk (Disk.makeDirectories (shell.session.resolve name))
      return Result.success ("Directory '" ++ name ++ "' created at " ++
        shell.session.resolve name)) shell := by
    show runMkdir [name] shell = _
    rw [runMkdir, if_neg hname, bind_of_ok (Action.session_eq shell)]
    refine (bind_of_ok (Action.ask_eq _ shell)).trans ?_
    simp only [habsent, Bool.false_eq_true, if_false]
    rfl
  simp only [hrun, bind_pure_eq_error, Action.exists_onDisk_eq_error]
  rw [Disk.makeDirectories_eq_zeroByte_iff habove, and_iff_left hzero]

theorem run_touch_eq_zeroByte_iff {token : Text} :
    (∃ later, touch.run [first, token] shell = .error .zeroByte later) ↔
      (shell.session.resolve token).Writable ∧ Symbol.zero ∈ shell.session.resolve token := by
  refine run_eq_zeroByte_iff rfl fun hzero => ?_
  have hrun : touch.run [first, token] = touchOne token := runTouch_singleton token
  rw [hrun, touchOne, bind_of_ok (Action.resolve_eq token shell), bind_of_ok (Action.ask_eq _ shell)]
  simp only [isPresent_of_zero_mem hzero, Bool.false_eq_true, if_false, bind_pure_eq_error,
    Action.exists_onDisk_eq_error]
  rw [Disk.openForWriting_eq_zeroByte_iff, and_iff_left hzero]

theorem run_mv_eq_zeroByte_iff {source target : Text}
    (hsource : shell.files.hasEntry (shell.session.resolve source) = true)
    (hpass : shell.session.standsIn (shell.session.resolve source) = false) :
    (∃ later, mv.run [first, source, target] shell = .error .zeroByte later) ↔
      (shell.session.resolve target).Writable ∧ Symbol.zero ∈ shell.session.resolve target := by
  refine run_eq_zeroByte_iff rfl fun hzero => ?_
  have hnodir : shell.files.isDirectory (shell.session.resolve target) = false := by
    refine isDirectory_eq_false_iff.2 fun d hleads => ?_
    cases (isPresent_of_zero_mem hzero shell.files).symm.trans hleads.isPresent
  have hrun : mv.run [first, source, target] shell = (do
      Action.onDisk (Disk.move (shell.session.resolve source) (shell.session.resolve target))
      return Result.success "File moved successfully and original file deleted.") shell := by
    show runMv [source, target] shell = _
    rw [runMv, bind_of_ok (Action.session_eq shell), bind_of_ok (Action.get_eq shell)]
    simp only [hsource, hpass, hnodir, Bool.not_true, Bool.false_eq_true, if_false]
  simp only [hrun, bind_pure_eq_error, Action.exists_onDisk_eq_error]
  exact Disk.move_eq_zeroByte_iff hsource hzero

end Verb

theorem Redirect.run_eq_zeroByte_iff {mode : RedirectMode} {tokens : List Text} {i : Nat}
    {fileName : Text} {verb : Verb} {result : Result} {mid : Shell} (harrow : FirstArrow tokens i)
    (hfile : tokens[i + 1]? = some fileName)
    (hverb : Verb.lookup? (tokens.head?.getD []) = some verb)
    (hrun : verb.run (tokens.take i) shell = .ok result mid) (hok : result.isOk = true) :
    (∃ later, run mode tokens shell = .error .zeroByte later) ↔
      (shell.session.resolve fileName).Writable ∧ Symbol.zero ∈ shell.session.resolve fileName := by
  rw [run_of_shape harrow hfile hverb, runTo_eq, bind_of_ok hrun, if_pos hok,
    ← Disk.openForWriting_eq_zeroByte_iff mid.files _ (mode = .truncate)]
  simp only [bind_pure_eq_error, Action.exists_onDisk_eq_error]
  constructor
  · rintro ⟨files, h⟩
    rcases bind_eq_error.1 h with h | ⟨place, opened, -, h⟩
    · exact ⟨files, h⟩
    · cases hencode : result.output.encode with
      | error u =>
        rw [hencode] at h
        cases h
      | ok bytes =>
        rw [hencode] at h
        exact absurd rfl (Disk.failsWith_append (P := (· ≠ .zeroByte)) place bytes opened _ files h)
  · rintro ⟨files, h⟩
    exact ⟨files, bind_of_error h⟩

/-- The line comes to where it makes something at the path, and nothing is in the way before. -/
inductive Line.ComesTo (shell : Shell) : Line → Text → Prop
  | mkdir {first name : Text} (verb : Verb.lookup? first = some .mkdir) (named : name.trim ≠ [])
      (above : shell.files.isPresent
        (Spelling.ofText (shell.session.resolve name)).parent.toText = true) :
      ComesTo shell (.plain [first, name]) (shell.session.resolve name)
  | touch {first token : Text} (verb : Verb.lookup? first = some .touch) :
      ComesTo shell (.plain [first, token]) (shell.session.resolve token)
  | mv {first source target : Text} (verb : Verb.lookup? first = some .mv)
      (present : shell.files.hasEntry (shell.session.resolve source) = true)
      (passed : shell.session.standsIn (shell.session.resolve source) = false) :
      ComesTo shell (.plain [first, source, target]) (shell.session.resolve target)
  | redirect {mode : RedirectMode} {tokens : List Text} {i : Nat} {fileName : Text} {v : Verb}
      {result : Result} {mid : Shell} (arrow : Redirect.FirstArrow tokens i)
      (file : tokens[i + 1]? = some fileName)
      (verb : Verb.lookup? (tokens.head?.getD []) = some v)
      (ran : v.run (tokens.take i) shell = .ok result mid) (succeeded : result.isOk = true) :
      ComesTo shell (.redirect mode tokens) (shell.session.resolve fileName)

namespace Interpreter

/-- **There the failure of a zero character comes from the path.** -/
theorem dispatch_eq_zeroByte_iff {line : Line} {path : Text} (h : line.ComesTo shell path) :
    (∃ later, dispatch line shell = .error .zeroByte later) ↔
      path.Writable ∧ Symbol.zero ∈ path := by
  cases h with
  | mkdir verb named above =>
    rw [dispatch_plain verb]
    exact Verb.run_mkdir_eq_zeroByte_iff named above
  | touch verb =>
    rw [dispatch_plain verb]
    exact Verb.run_touch_eq_zeroByte_iff
  | mv verb present passed =>
    rw [dispatch_plain verb]
    exact Verb.run_mv_eq_zeroByte_iff present passed
  | redirect arrow file verb ran succeeded =>
    exact Redirect.run_eq_zeroByte_iff arrow file verb ran succeeded

/-- **Which lines are answered.**  A line is answered, whatever happens on the file system, if no path
at which it may make something holds the zero character; so is any line without a zero character, in
a session with none in its home directory.  Nothing but the failure of a zero character leaves the
interpreter, and where a line comes to make something, it does so exactly if the path could be
written but for its zero character.  Lines that end because a recursion has gone too deep are left
out of account. -/
theorem boundary (line : Text) (shell : Shell)
    (hshallow : IsShallow line shell) :
    ((Line.classify line).MakesOnly (· ≠ Symbol.zero) shell →
      ∃ result later, interpret line shell = .ok result later) ∧
    (Symbol.zero ∉ line → Symbol.zero ∉ shell.session.home →
      shell.files.isDirectory shell.session.cwd = true →
      ∃ result later, interpret line shell = .ok result later) ∧
    (∀ e later, interpret line shell = .error e later → e = .zeroByte) ∧
    ∀ path, (Line.classify line).ComesTo shell path →
      ((∃ e later, interpret line shell = .error e later) ↔
        path.Writable ∧ Symbol.zero ∈ path) := by
  have hanswered : (Line.classify line).MakesOnly (· ≠ Symbol.zero) shell →
      ∃ result later, interpret line shell = .ok result later := fun hmade =>
    interpret_eq_ok_of_reported (fun e last hrun =>
      failure_of_dispatch foresees_reported hmade hrun)
      hshallow
  have honly : ∀ e later, interpret line shell = .error e later → e = .zeroByte := by
    intro e later h
    rcases (interpret_eq_error_iff.1 h).1 with rfl | rfl
    · rfl
    · exact absurd h (hshallow [] later)
  refine ⟨hanswered, ?_, honly, ?_⟩
  · intro hline hhome hcwd
    obtain ⟨d, hleads⟩ := isDirectory_iff.1 hcwd
    have hsession : shell.session.All (· ≠ Symbol.zero) :=
      ⟨foresees_reported.located (found?_eq_some_iff.1 hleads), fun s hs hzero => hhome (hzero ▸ hs)⟩
    exact hanswered <| Line.makesOnly_of_all foresees_reported hsession <|
      Line.all_classify fun s hs hzero => hline (hzero ▸ hs)
  · intro path hpath
    rw [← dispatch_eq_zeroByte_iff hpath]
    constructor
    · rintro ⟨e, later, h⟩
      obtain rfl := honly e later h
      exact ⟨later, (interpret_eq_error_iff.1 h).2⟩
    · rintro ⟨later, h⟩
      exact ⟨_, later, interpret_eq_error_iff.2 ⟨.inl rfl, h⟩⟩

/-- The failure of `touch` over a zero character is not answered. -/
theorem boundary_zero_character :
    let shell : Shell := ⟨⟨"/", "/"⟩, FileSystem.empty⟩
    let line : Text := Text.ofString "touch a" ++ Symbol.zero :: Text.ofString "b"
    shell.files.isDirectory shell.session.cwd = true ∧
      ¬ ∃ result later, interpret line shell = .ok result later := by
  intro shell line
  have hvalue : value? (interpret line) shell = none := by decide +kernel
  refine ⟨by decide +kernel, ?_⟩
  rintro ⟨result, later, hrun⟩
  cases hvalue.symm.trans (value?_eq_some_iff.2 ⟨later, hrun⟩)

/-- A zero character does no harm where nothing is to be made. -/
theorem boundary_cat :
    let shell : Shell := ⟨⟨"/", "/"⟩, FileSystem.empty⟩
    let line : Text := Text.ofString "cat a" ++ Symbol.zero :: Text.ofString "b"
    Symbol.zero ∈ line ∧ (Line.classify line).MakesOnly (· ≠ Symbol.zero) shell ∧
      ∃ result later, interpret line shell = .ok result later := by
  intro shell line
  have hshallow : IsShallow line shell := isShallow_of_isSome (by decide +kernel)
  have hclass : Line.classify line = .plain ["cat", Text.ofString "a" ++
      Symbol.zero :: Text.ofString "b"] := by decide +kernel
  have hcat : Verb.lookup? (Text.ofString "cat") = some .cat := by decide +kernel
  have hmade : (Line.classify line).MakesOnly (· ≠ Symbol.zero) shell := by
    rw [hclass]
    intro v hv path hpath
    cases hv.symm.trans hcat
    exact absurd hpath List.not_mem_nil
  exact ⟨by decide +kernel, hmade, (boundary line shell hshallow).1 hmade⟩

end Interpreter

end FileShell
