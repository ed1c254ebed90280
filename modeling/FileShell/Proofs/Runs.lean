import FileShell.Proofs.Removal
import FileShell.Proofs.Settled
import FileShell.Proofs.Stages

/-!
# Runs of lines

Every line leaves a settled shell settled, whatever its outcome, as long as the guard recognizes
what the line would take away, and so does a run of lines.  Of a path that starts with a single
slash no less can be asked: `rm -r` of one that the guard does not recognize takes the working
directory away.

* `Verb.not_settled_runRm`: what `rm -r` does to a path that the guard does not recognize.
* `Line.Recognized`, `Interpreter.RunRecognized`: the guard recognizes what is taken away.
* `Interpreter.settled_after`, `settled_runLines`: a line and a run keep a shell settled.
-/

namespace FileShell

open FileSystem Effect Shell

variable {shell : Shell}

namespace Verb

/-! ## What the guard does not recognize -/

/-- A path whose bytes begin those of the working directory leads to it, or above it. -/
theorem exists_leads_above (h : shell.Settled) {u : Spelling} (hu : u.IsClean)
    (hroot : u.anchor = .root)
    (hpre : u.parts.map Text.encode <+: (Spelling.ofText shell.session.cwd).parts.map Text.encode) :
    ∃ p c, p <+: c ∧ Path.Spells shell.session.cwd c ∧ shell.files.Leads u.toText p := by
  obtain ⟨s, hs, hcwd⟩ := h.stands.exists_clean
  obtain ⟨c, hfiles, hc, -⟩ := h.exists_place
  obtain ⟨d, hd⟩ := isDirectory_iff.1 h.isDirectory
  obtain ⟨b, hb, -⟩ := locate_eq_ok_iff.1 (found?_eq_some_iff.1 hd)
  have hpre' := hpre
  rw [hcwd, Spelling.ofText_toText hs] at hpre'
  obtain ⟨a, ha⟩ := hu.inBytes_of_isPrefix hroot hs (hcwd ▸ hb) hpre'
  rw [Path.Spells] at hc
  rw [hc, List.prefix_map_iff] at hpre
  obtain ⟨p, hpc, hp⟩ := hpre
  have hdir := isDirectoryAt_of_isPrefix hpc hfiles.isDirectory
  refine ⟨p, c, hpc, hc, leads_of_spells hu ha ?_ hdir⟩
  rw [Path.Spells, Spelling.ofText_toText hu, hp]

/-- **A path with the bytes of the working directory, or of one above it, that the guard does not
recognize**: `rm -r` removes it, unless something stands too deep, and the shell is no longer
settled. -/
theorem not_settled_runRm (h : shell.Settled) {token : Text} (hflag : isFlag token = false)
    (hroot : (Spelling.ofText (shell.session.resolve token)).anchor = .root)
    (hrec : ¬ shell.session.Recognizes (shell.session.resolve token))
    (hshallow : ∀ doing later,
      runRm [Text.ofString "-r", token] shell ≠ .error (.tooNested doing) later) :
    ¬ Settled (stateAfter (runRm [Text.ofString "-r", token]) shell) := by
  obtain ⟨u, hu, hpath⟩ := Path.exists_clean_resolve token h.absoluteCwd h.absoluteHome
  have hpath' : shell.session.resolve token = u.toText := hpath
  have hpass : shell.session.standsIn (shell.session.resolve token) = false := by
    rw [← Bool.not_eq_true, Session.standsIn_iff h.absoluteCwd h.absoluteHome]
    exact fun hshows => hrec ⟨hroot, fun _ => hshows.2⟩
  rw [Session.Recognizes, hpath', Spelling.ofText_toText hu] at hrec
  rw [hpath', Spelling.ofText_toText hu] at hroot
  have hpre : u.parts.map Text.encode <+:
      (Spelling.ofText shell.session.cwd).parts.map Text.encode :=
    Classical.byContradiction fun hnot => hrec ⟨hroot, fun hpre => absurd hpre hnot⟩
  obtain ⟨p, c, hpc, hc, hleads⟩ := exists_leads_above h hu hroot hpre
  have hnames := hleads.names h.linkFree hu
  have hp : p ≠ [] := by
    intro hnil
    rw [(hnames.eq_nil_iff hu).1 hnil] at hrec
    exact hrec ⟨hroot, fun _ => List.nil_prefix⟩
  have hspot : shell.files.locate .entry u.toText =
      .ok (.taken p (.directory (shell.files.entriesAt p))) := by
    rw [hnames, spotAt_of_node? (isDirectoryAt_iff.1 hleads.isDirectoryAt)]
  have hdash : isFlag (Text.ofString "-r") = true := by decide
  have hone : runRm [Text.ofString "-r", token] shell = rmOne true token shell := by
    rw [runRm_of_operand (by simp [hflag]) (by simp [hflag, hdash]) hpass]
    simp
  by_cases hfits : shell.files.Fits (shell.files.host.nesting .removal) p
  case neg =>
    obtain ⟨failure, files, hbreaks, -, -, hdeep⟩ :=
      breaksOff_rmOne hu hpath' hspot fun hremovable => hfits hremovable.fits
    exact absurd (hone.trans hbreaks) (hdeep hfits ▸ hshallow [] _)
  have hremovable := Disk.removable_of_linkFree h.linkFree hu hleads hp hfits
  obtain ⟨result, files, hremoved, -, hwithout⟩ :=
    removes_rmOne_directory hu hpath' hspot hremovable
  rw [stateAfter_of_ok (hone.trans hremoved)]
  intro hlater
  -- the working directory would still be where it was
  obtain ⟨c', hstanding, hc', -⟩ := hlater.exists_place
  obtain rfl := hc'.unique hc
  have hgone := hwithout c'
  rw [if_pos hpc] at hgone
  cases hgone.symm.trans hstanding.isDirectory

end Verb

/-! ## Lines -/

/-- The guard recognizes whatever the verb of a command would take away. -/
def Shell.Recognizes (shell : Shell) (command : List Text) : Prop :=
  ∀ v ∈ Verb.lookup? (command.head?.getD []),
    ∀ a ∈ v.removals command.tail, shell.session.Recognizes (shell.session.resolve a)

instance (shell : Shell) (command : List Text) : Decidable (shell.Recognizes command) :=
  inferInstanceAs (Decidable (∀ v ∈ _, ∀ a ∈ _, _))

/-- The guard recognizes whatever a line would take away; the right side of a pipe is looked at from
where the left one ends. -/
def Line.Recognized : Line → Shell → Prop
  | plain tokens, shell => shell.Recognizes tokens
  | redirect _ tokens, shell => ∀ cut ∈ Redirect.cutAtArrow? tokens, shell.Recognizes cut.1
  | pipe left right, shell =>
    shell.Recognizes left.words ∧
      match Pipe.runStage left shell with
      | .ok _ later => later.Recognizes right.words
      | .error _ _ => True

instance (line : Line) (shell : Shell) : Decidable (line.Recognized shell) :=
  match line with
  | .plain _ => inferInstanceAs (Decidable (Shell.Recognizes _ _))
  | .redirect _ _ => inferInstanceAs (Decidable (∀ cut ∈ _, _))
  | .pipe left right =>
    match h : Pipe.runStage left shell with
    | .ok _ later =>
      decidable_of_iff (shell.Recognizes left.words ∧ later.Recognizes right.words)
        (by rw [Line.Recognized, h])
    | .error _ _ =>
      decidable_of_iff (shell.Recognizes left.words ∧ True) (by rw [Line.Recognized, h])

theorem Pipe.settled_runStage (h : shell.Settled) {command : Text}
    (hrec : shell.Recognizes command.words) :
    Settled (stateAfter (Pipe.runStage command) shell) := by
  rcases Pipe.runStage_cases command with ⟨result, hstage, -⟩ | ⟨verb, hverb, hstage⟩ <;> rw [hstage]
  · exact h
  · exact Verb.settled_run verb h (hrec verb hverb)

theorem Disk.keeps_writeOut {c : Location} (mode : RedirectMode) (path output : Text) :
    Keeps (Standing c) (Redirect.writeOut mode path output) := by
  refine keeps_bind (Disk.keeps_openForWriting path _) ?_
  intro place
  split
  · exact Disk.keeps_append place _
  · exact keeps_throw _

theorem Redirect.settled_run (h : shell.Settled) {mode : RedirectMode} {tokens : List Text}
    (hrec : ∀ cut ∈ Redirect.cutAtArrow? tokens, shell.Recognizes cut.1) :
    Settled (stateAfter (Redirect.run mode tokens) shell) := by
  rw [Redirect.run]
  split
  · exact h
  split
  · next command fileName more hcut =>
    split
    · exact h
    · next verb hverb =>
      refine stateAfter_bind h ?_
      intro path later hrun _
      cases hrun
      have hverbRun := Verb.settled_run verb h (hrec _ hcut verb hverb)
      refine stateAfter_bind hverbRun ?_
      intro result later _ hlater
      split
      · exact keeps_bind (Action.keeps_onDisk fun c => Disk.keeps_writeOut _ _ _)
          (fun _ => keeps_pure _) later hlater
      · exact hlater
  · exact h

namespace Interpreter

theorem settled_dispatch (h : shell.Settled) {line : Line} (hrec : line.Recognized shell) :
    Settled (stateAfter (dispatch line) shell) := by
  cases line with
  | plain tokens =>
    rcases dispatch_plain_cases tokens with ⟨result, hplain, -⟩ | ⟨verb, hverb, hplain⟩ <;>
      rw [hplain]
    · exact h
    · exact Verb.settled_run verb h (hrec verb hverb)
  | redirect mode tokens => exact Redirect.settled_run h hrec
  | pipe left right =>
    refine stateAfter_bind (Pipe.settled_runStage h hrec.1) ?_
    intro first later hrun hlater
    have hright := hrec.2
    rw [hrun] at hright
    exact stateAfter_bind (Pipe.settled_runStage hlater hright) fun _ _ _ h => h

/-- **A line keeps a shell settled**, whatever its outcome, if the guard recognizes what it takes
away. -/
theorem settled_after (h : shell.Settled) {line : Text}
    (hrec : (Line.classify line).Recognized shell) : Settled (after line shell) := by
  rw [after_eq_stateAfter]
  exact settled_dispatch h hrec

/-- The shell after a run of lines. -/
def runLines (lines : List Text) (shell : Shell) : Shell :=
  lines.foldl (fun shell line => after line shell) shell

/-- The guard recognizes whatever a run of lines would take away. -/
def RunRecognized : List Text → Shell → Prop
  | [], _ => True
  | line :: rest, shell =>
    (Line.classify line).Recognized shell ∧ RunRecognized rest (after line shell)

instance decidableRunRecognized : (lines : List Text) → (shell : Shell) →
    Decidable (RunRecognized lines shell)
  | [], _ => inferInstanceAs (Decidable True)
  | line :: rest, shell =>
    have := decidableRunRecognized rest (after line shell)
    inferInstanceAs (Decidable (_ ∧ _))

theorem settled_take (h : shell.Settled) {lines : List Text} (hrec : RunRecognized lines shell)
    (k : Nat) : Settled (runLines (lines.take k) shell) := by
  -- along the run, each line from where the one before it ended
  induction lines generalizing shell k with
  | nil =>
    rw [List.take_nil]
    exact h
  | cons line rest ih =>
    cases k with
    | zero => exact h
    | succ k => exact ih (settled_after h hrec.1) hrec.2 k

/-- **A run of lines leaves a settled shell settled after each line**, if the guard recognizes what
the lines take away.  Of a path that starts with a single slash this is all that is needed: `rm -r`
of it leaves the shell settled exactly if the guard recognizes it, unless it goes too deep. -/
theorem settled_runLines (h : shell.Settled) :
    (∀ lines, RunRecognized lines shell → ∀ k, Settled (runLines (lines.take k) shell)) ∧
      ∀ line token, Line.classify line = .plain [Text.ofString "rm", Text.ofString "-r", token] →
        Verb.isFlag token = false →
        (Spelling.ofText (shell.session.resolve token)).anchor = .root →
        IsShallow line shell →
        (Settled (after line shell) ↔ shell.session.Recognizes (shell.session.resolve token)) := by
  refine ⟨fun lines hrec k => settled_take h hrec k, ?_⟩
  intro line token hline hflag hroot hshallow
  have hverb : Verb.lookup? (Text.ofString "rm") = some .rm := by decide +kernel
  constructor
  · intro hafter
    rw [after_eq_stateAfter, hline, dispatch_plain hverb] at hafter
    refine Classical.byContradiction fun hnot =>
      Verb.not_settled_runRm h hflag hroot hnot (fun doing later hrun => ?_) hafter
    refine hshallow doing later ?_
    rw [interpret, tryCatch_of_error (by rw [hline, dispatch_plain hverb]; exact hrun)]
    rfl
  · intro hrec
    refine settled_after h ?_
    rw [hline]
    intro v hv a ha
    cases hv.symm.trans hverb
    obtain ⟨hmem, hoperand⟩ := List.mem_filter.1 ha
    rcases List.mem_cons.1 hmem with rfl | hmem
    · cases hoperand
    · rwa [List.mem_singleton.1 hmem]

/-- The working directory is `/é`, and the operand spells its two bytes with two surrogates: the
guard lets it pass, and the working directory is gone. -/
theorem settled_runLines_spelled_otherwise :
    let d : Name := ⟨[0xC3, 0xA9], by decide⟩
    let shell : Shell := ⟨⟨"/é", "/"⟩, FileSystem.empty.create [d] (.directory []) Node.tidy_empty⟩
    let token : Text := Text.ofString "../" ++ [.surrogate 0x4C3, .surrogate 0x4A9]
    let last := after (Text.ofString "rm -r " ++ token) shell
    (Spelling.ofText (shell.session.resolve token)).anchor = .root ∧
      shell.files.isDirectory shell.session.cwd = true ∧
      last.session.cwd = shell.session.cwd ∧ last.files.isDirectory last.session.cwd = false := by
  decide +kernel

/-- The sibling `a` is made and removed again, and the shell then leaves for the root. -/
theorem settled_runLines_sibling :
    let d : Name := ⟨[0x64], by decide⟩
    let shell : Shell := ⟨⟨"/d", "/"⟩, FileSystem.empty.create [d] (.directory []) Node.tidy_empty⟩
    let lines : List Text := ["mkdir ../a", "rm -r ../a | touch x", "cd .. > y"]
    Settled (runLines lines shell) := by
  intro d shell lines
  have hfiles : shell.files.Standing [] := FileSystem.standing_empty.create Node.tidy_empty
    (List.cons_ne_nil d []) isDirectoryAt_root (by decide +kernel) FileSystem.at?_empty_ne_link
  have hstart : shell.Settled :=
    ⟨hfiles.linkFree, by decide +kernel, by decide +kernel, by decide +kernel, by decide +kernel⟩
  exact (settled_runLines hstart).1 lines (by decide +kernel) 3

end Interpreter

end FileShell
