import FileShell.FileSystem.Tree

/-!
# Hosts

A host is what a shell finds different from one machine to the next, and nothing that the shell does
changes it: the order in which a directory is enumerated, how deep the interpreter goes down a tree
or into a document before it gives up, and what a move makes of a link that leads to the directory
it is moved to.

* `Host.arranged`: the entries of a directory as they are enumerated, in any order.
* `Host.nesting`: how many levels each kind of recursion may have.
-/

namespace FileShell

/-- The recursions that go down level by level. -/
inductive Descent where
  | listing
  | removal
  | copying
  | reading
deriving DecidableEq, Repr

/-- What differs from one machine to the next. -/
structure Host where
  /-- The entries of a directory in the order in which they are enumerated. -/
  arranged : Location → Entries → Entries
  arranged_perm : ∀ p es, (arranged p es).Perm es
  /-- The greatest number of levels that a recursion may have. -/
  nesting : Descent → Nat
  nesting_pos : ∀ d, 0 < nesting d
  /-- Is a link renamed to the directory it leads to, when it is moved there?  Later versions of the
  move put it into that directory instead. -/
  renamesLinks : Bool

namespace Host

/-- A host that enumerates directories in the order of the names. -/
def usual : Host where
  arranged _ es := es
  arranged_perm _ es := .refl es
  nesting _ := 950
  nesting_pos _ := by decide
  renamesLinks := false

variable {h : Host} {p : Location} {es : Entries}

@[simp]
theorem mem_arranged {e : Name × Node} : e ∈ h.arranged p es ↔ e ∈ es :=
  (h.arranged_perm p es).mem_iff

@[simp]
theorem arranged_eq_nil : h.arranged p es = [] ↔ es = [] := by
  constructor
  · intro hnil
    exact (hnil ▸ h.arranged_perm p es).nil_eq.symm
  · rintro rfl
    exact (h.arranged_perm p []).eq_nil

end Host

end FileShell
