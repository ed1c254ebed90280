import FileShell.Proofs.FileSystem.Requests
import FileShell.Verb.Run

/-!
# What `ls` is asked for

`ls` goes through its arguments from the left and stops at the first flag that it does not know.
What comes of that depends only on which flags there are and on the names among them, in their
order.

* `Listing.Request.read_of_known`: the flags and the names can be told apart beforehand.
* `Listing.below_succ`: a listing takes the entries of a directory one by one.
* `Listing.keeps_all`: it changes nothing, however far it gets.
-/

namespace FileShell

open Effect

variable {arguments : List Text}

/-! ## Requests -/

/-- `ls` is given a flag that it does not know; the dash alone is one. -/
def Verb.HasUnknownFlag (arguments : List Text) : Prop :=
  ∃ a ∈ arguments, a.head? = some (.scalar '-') ∧ a ≠ Text.ofString "-a" ∧ a ≠ Text.ofString "-r"

theorem Verb.hasUnknownFlag_cons {a : Text} :
    HasUnknownFlag (a :: arguments) ↔
      (a.head? = some (.scalar '-') ∧ a ≠ Text.ofString "-a" ∧ a ≠ Text.ofString "-r") ∨
        HasUnknownFlag arguments := by
  simp [HasUnknownFlag]

namespace Listing.Request

open Verb (HasUnknownFlag hasUnknownFlag_cons)

/-- One unknown flag is enough, wherever it stands. -/
theorem read_of_unknown (h : HasUnknownFlag arguments) (r : Request) : r.read arguments = none := by
  induction arguments generalizing r with
  | nil => simp [HasUnknownFlag] at h
  | cons a rest ih =>
    rw [read]
    rcases hasUnknownFlag_cons.1 h with ⟨hdash, ha, hr⟩ | hrest
    · rw [if_neg ha, if_neg hr, if_pos hdash]
    · repeat' split
      all_goals first | exact ih hrest _ | rfl

/-- **What is asked for if no flag is unknown**: whatever flags there are, and all the names. -/
theorem read_of_known (h : ¬ HasUnknownFlag arguments) (r : Request) :
    r.read arguments =
      some ⟨r.hidden || decide (Text.ofString "-a" ∈ arguments),
        r.recursive || decide (Text.ofString "-r" ∈ arguments),
        r.targets ++ arguments.filter fun a => a.head? ≠ some (.scalar '-')⟩ := by
  induction arguments generalizing r with
  | nil => simp [read]
  | cons a rest ih =>
    rw [hasUnknownFlag_cons, not_or] at h
    obtain ⟨hfirst, hrest⟩ := h
    rw [read]
    by_cases ha : a = Text.ofString "-a"
    · have hne : Text.ofString "-r" ≠ Text.ofString "-a" := by decide
      have hdash : (Text.ofString "-a").head? = some (.scalar '-') := rfl
      rw [ha, if_pos rfl, ih hrest]
      simp [hdash, hne]
    rw [if_neg ha]
    by_cases hr : a = Text.ofString "-r"
    · have hne : Text.ofString "-a" ≠ Text.ofString "-r" := by decide
      have hdash : (Text.ofString "-r").head? = some (.scalar '-') := rfl
      rw [hr, if_pos rfl, ih hrest]
      simp [hdash, hne]
    have hname : a.head? ≠ some (.scalar '-') := fun hdash => hfirst ⟨hdash, ha, hr⟩
    rw [if_neg hr, if_neg hname, ih hrest]
    simp [hname, Ne.symm ha, Ne.symm hr]

end Listing.Request

namespace Verb

theorem runLs_of_known (h : ¬ HasUnknownFlag arguments) :
    runLs arguments =
      listOrName ⟨Text.ofString "-a" ∈ arguments, Text.ofString "-r" ∈ arguments,
        arguments.filter fun a => a.head? ≠ some (.scalar '-')⟩ := by
  rw [runLs, Listing.Request.read_of_known h]
  simp only [Bool.false_or, List.nil_append]

/-- One unknown flag is enough, wherever it stands and whatever else is wrong. -/
theorem runLs_of_unknown (h : HasUnknownFlag arguments) :
    runLs arguments = pure (.failure .unsupportedFlag lsUnsupported) := by
  rw [runLs, Listing.Request.read_of_unknown h]

end Verb

/-! ## Listings step by step -/

namespace Listing

/-- What a listing shows of one entry. -/
def showEntry (l : Listing) (levels : Nat) (above : Text) (e : Name × Node) : Disk (List Text) := do
  if !l.hidden && e.1.isHidden then return []
  else
    let entry := extend above e.1
    let path := Path.join l.root entry
    if l.recursive && (← Disk.ask (·.isDirectory path)) && !(← Disk.ask (·.isLink path)) then
      return entry :: (← l.below levels entry)
    else return [entry]

theorem below_succ (l : Listing) (levels : Nat) (above : Text) :
    l.below (levels + 1) above = (do
      let es ← Disk.listDirectory (l.pathOf above)
      return (← es.mapM (l.showEntry levels above)).flatten) := rfl

/-- Hidden names are passed over. -/
theorem showEntry_of_hidden {l : Listing} {e : Name × Node} (h : (!l.hidden && e.1.isHidden) = true)
    (levels : Nat) (above : Text) : l.showEntry levels above e = pure [] := by
  rw [showEntry, if_pos h]

/-- What leads to a directory and is no link is listed with what is below it. -/
theorem showEntry_eq {l : Listing} {e : Name × Node} (h : (!l.hidden && e.1.isHidden) = false)
    (levels : Nat) (above : Text) (fs : FileSystem) :
    l.showEntry levels above e fs =
      (if l.recursive && (fs.isDirectory (Path.join l.root (extend above e.1)) &&
          !fs.isLink (Path.join l.root (extend above e.1))) then do
        return extend above e.1 :: (← l.below levels (extend above e.1))
      else return [extend above e.1] : Disk (List Text)) fs := by
  rw [showEntry, h]
  simp only [Bool.false_eq_true, if_false]
  rw [bind_of_ok (Disk.ask_eq _), bind_of_ok (Disk.ask_eq _), Bool.and_assoc]

variable {F : FileSystem → Prop}

/-- **A listing only looks**, however far it gets. -/
theorem keeps_below (l : Listing) (levels : Nat) (above : Text) :
    Keeps F (l.below levels above) := by
  induction levels generalizing above with
  | zero => exact keeps_throw _
  | succ levels ih =>
    rw [below_succ]
    refine keeps_bind (Disk.keeps_listDirectory _) fun es => ?_
    refine keeps_bind (keeps_mapM fun e _ fs hfs => ?_) fun _ => keeps_pure _
    cases hhidden : !l.hidden && e.1.isHidden with
    | true =>
      rw [showEntry_of_hidden hhidden]
      exact hfs
    | false =>
      rw [stateAfter_congr (showEntry_eq hhidden levels above fs)]
      split
      · exact keeps_bind (ih _) (fun _ => keeps_pure _) fs hfs
      · exact hfs

theorem keeps_all (l : Listing) : Keeps F l.all :=
  keeps_get_bind fun fs hfs => l.keeps_below _ _ fs hfs

end Listing

end FileShell
