import FileShell.Proofs.Looking

/-!
# Flags anywhere

Flags may stand before the operands, behind them and between them.  `ls` looks at its flags and at
its names apart, asks of the flags only which there are, and takes no more than one name; so its
arguments may stand in any order.  `rm` names the first flag that it does not know and works through
its operands in turn; so the flags have an order and the operands have one, but where the flags
stand among the operands does not matter.

* `Interleaving`: two lists put together to one, each in its order.
* `Interleaving.filter_eq`: what was put together can be told apart again.
* `Verb.runLs_of_surplus`: what `ls` complains about if no flag is unknown.
* `Verb.run_flags_anywhere`: the arguments of `ls` and `rm` in another order.
-/

namespace FileShell

section Interleaving

variable {α : Type} {l m n : List α} {p : α → Bool}

/-- The third list is put together from the two others, the members of each in their order. -/
inductive Interleaving : List α → List α → List α → Prop
  | nil : Interleaving [] [] []
  | left {l m n : List α} (a : α) : Interleaving l m n → Interleaving (a :: l) m (a :: n)
  | right {l m n : List α} (a : α) : Interleaving l m n → Interleaving l (a :: m) (a :: n)

/-- **What was put together can be told apart again**, if a test holds of the members of one list
and fails on those of the other. -/
theorem Interleaving.filter_eq (h : Interleaving l m n) (hl : ∀ a ∈ l, p a = true)
    (hm : ∀ a ∈ m, p a = false) : n.filter p = l ∧ n.filter (!p ·) = m := by
  induction h with
  | nil => exact ⟨rfl, rfl⟩
  | left a _ ih =>
    have ha : p a = true := hl a List.mem_cons_self
    have hrest := ih (fun x hx => hl x (List.mem_cons_of_mem _ hx)) hm
    simp [ha, hrest]
  | right a _ ih =>
    have ha : p a = false := hm a List.mem_cons_self
    have hrest := ih hl fun x hx => hm x (List.mem_cons_of_mem _ hx)
    simp [ha, hrest]

/-- A list put together anew from those of its members that pass a test and those that do not. -/
theorem Interleaving.filter_eq_filter (h : Interleaving (l.filter p) (l.filter (!p ·)) n) :
    n.filter p = l.filter p ∧ n.filter (!p ·) = l.filter (!p ·) :=
  h.filter_eq (fun _ ha => (List.mem_filter.1 ha).2) fun a ha => by
    simpa using (List.mem_filter.1 ha).2

/-- Two lists with the same members and no more than one of them are the same. -/
theorem eq_of_perm_of_length_le_one (h : l.Perm m) (hl : l.length ≤ 1) : l = m := by
  match l, hl with
  | [], _ => exact h.nil_eq
  | [a], _ => exact h.singleton_eq

end Interleaving

namespace Verb

variable {arguments rearranged : List Text}

/-- The second name is one too many, if no flag is unknown. -/
theorem runLs_of_surplus (h : ¬ HasUnknownFlag arguments)
    (hnames : 1 < (arguments.filter fun a => a.head? ≠ some (.scalar '-')).length) (shell : Shell) :
    runLs arguments shell =
      .ok (.failure .invalidArgument "Error: ls accepts at most one directory.\n") shell := by
  rw [runLs_of_known h, listOrName, if_pos hnames]
  rfl

/-- The order of its arguments means nothing to `ls`. -/
theorem runLs_of_perm (h : arguments.Perm rearranged) : runLs arguments = runLs rearranged := by
  have hunknown : HasUnknownFlag arguments ↔ HasUnknownFlag rearranged := by
    simp only [HasUnknownFlag, h.mem_iff]
  have hnames := h.filter fun a => a.head? ≠ some (.scalar '-')
  by_cases hflag : HasUnknownFlag arguments
  · rw [runLs_of_unknown hflag, runLs_of_unknown (hunknown.1 hflag)]
  rw [runLs_of_known hflag, runLs_of_known (mt hunknown.2 hflag)]
  simp only [h.mem_iff]
  by_cases hmany : 1 < (arguments.filter fun a => a.head? ≠ some (.scalar '-')).length
  · rw [listOrName, if_pos hmany, listOrName, if_pos (hnames.length_eq ▸ hmany)]
  · rw [eq_of_perm_of_length_le_one hnames (Nat.le_of_not_lt hmany)]

/-- `rm` looks at its flags and at its operands apart. -/
theorem runRm_of_filter_eq (hflags : rearranged.filter isFlag = arguments.filter isFlag)
    (hoperands : rearranged.filter (!isFlag ·) = arguments.filter (!isFlag ·)) :
    runRm rearranged = runRm arguments := by
  rw [runRm, runRm, hflags, hoperands]

/-- **Flags may stand anywhere.**  `ls` does the same with its arguments in any order, and `rm` does
the same when its flags and its operands are put together in another way, the flags in their order
and the operands in theirs.  What `ls` complains about does not show the order either: one unknown
flag comes before everything else, and if there is none, a second name does. -/
theorem run_flags_anywhere (verb : Text) :
    (∀ arguments rearranged, arguments.Perm rearranged →
        ls.run (verb :: arguments) = ls.run (verb :: rearranged)) ∧
      (∀ arguments rearranged,
        Interleaving (arguments.filter isFlag) (arguments.filter (!isFlag ·)) rearranged →
        rm.run (verb :: arguments) = rm.run (verb :: rearranged)) ∧
      (∀ arguments shell, HasUnknownFlag arguments →
        ls.run (verb :: arguments) shell = .ok (.failure .unsupportedFlag lsUnsupported) shell) ∧
      ∀ arguments shell, ¬ HasUnknownFlag arguments →
        1 < (arguments.filter fun a => a.head? ≠ some (.scalar '-')).length →
        ls.run (verb :: arguments) shell =
          .ok (.failure .invalidArgument "Error: ls accepts at most one directory.\n") shell := by
  refine ⟨?_, ?_, ?_, ?_⟩
  · intro arguments rearranged h
    exact runLs_of_perm h
  · intro arguments rearranged h
    obtain ⟨hflags, hoperands⟩ := h.filter_eq_filter
    exact (runRm_of_filter_eq hflags hoperands).symm
  · intro arguments shell h
    exact congrFun (runLs_of_unknown h) shell
  · intro arguments shell h hnames
    exact runLs_of_surplus h hnames shell

/-- The dash alone is a flag to `ls`, which does not know it, and an operand to `rm`. -/
theorem run_flags_anywhere_dash :
    let d : Name := ⟨[0x64], by decide⟩
    let shell : Shell := ⟨⟨"/", "/"⟩, FileSystem.empty.create [d] (.directory []) Node.tidy_empty⟩
    let listed : List Text := ["d", "-r", "-", "d", "-a"]
    let listedAnew : List Text := ["-", "-a", "-r", "d", "d"]
    let removed : List Text := ["-r", "d", "-r", "-"]
    let removedAnew : List Text := ["d", "-", "-r", "-r"]
    (listed.Perm listedAnew ∧ ls.run ("ls" :: listed) shell = ls.run ("ls" :: listedAnew) shell ∧
      HasUnknownFlag listed ∧
      ls.run ("ls" :: listed) shell = .ok (.failure .unsupportedFlag lsUnsupported) shell) ∧
      Interleaving (removed.filter isFlag) (removed.filter (!isFlag ·)) removedAnew ∧
      rm.run ("rm" :: removed) shell = rm.run ("rm" :: removedAnew) shell ∧
      (match rm.run ("rm" :: removed) shell with
        | .ok result later => some (result.error, later.files.entries)
        | .error _ _ => none) = some (some .notFound, []) := by
  intro d shell listed listedAnew removed removedAnew
  have hperm : listed.Perm listedAnew := by decide +kernel
  have hunknown : HasUnknownFlag listed := ⟨"-", by decide⟩
  have hanew : Interleaving (removed.filter isFlag) (removed.filter (!isFlag ·)) removedAnew :=
    .right _ (.right _ (.left _ (.left _ .nil)))
  obtain ⟨hany, -, hflag, -⟩ := run_flags_anywhere "ls"
  obtain ⟨-, hrm, -, -⟩ := run_flags_anywhere "rm"
  refine ⟨⟨hperm, ?_, hunknown, hflag listed shell hunknown⟩, hanew, ?_, by decide +kernel⟩
  · exact congrFun (hany listed listedAnew hperm) shell
  · exact congrFun (hrm removed removedAnew hanew) shell

end Verb

end FileShell
