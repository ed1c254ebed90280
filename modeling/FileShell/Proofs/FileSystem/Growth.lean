import FileShell.Proofs.FileSystem.Requests

/-!
# File systems that grow

A request that makes something puts a bare node at a vacant place.  Everything that was there stays
as it was, and whatever is new is of the one kind that the request makes; so it stays through any
number of such requests, whatever their outcome.

* `FileSystem.Grows`: nothing is lost or changed, and everything new is of one kind.
* `Disk.keeps_grows_makeDirectories`, `keeps_grows_openForWriting`: requests that make something.
* `FileSystem.LosesEmptyDirectory`, `Disk.removeDirectory_cases`: what `rmdir` comes down to.
-/

namespace FileShell

open Effect

namespace FileSystem

/-- Everything that was there is still there as it was, and everything new is the one bare node. -/
structure Grows (t : Node) (fs later : FileSystem) : Prop where
  kept : ∀ r u, fs.bare? r = some u → later.bare? r = some u
  added : ∀ r, fs.bare? r = none → later.bare? r = none ∨ later.bare? r = some t

variable {fs mid later : FileSystem} {t : Node} {p : Location}

theorem Grows.refl (t : Node) (fs : FileSystem) : Grows t fs fs :=
  ⟨fun _ _ h => h, fun _ h => .inl h⟩

theorem Grows.of_entries (h : Grows t fs mid) (hentries : later.entries = mid.entries) :
    Grows t fs later := by
  have hsame : ∀ r, later.bare? r = mid.bare? r := by
    intro r
    simp only [bare?, node?, hentries]
  constructor
  · intro r u hr
    rw [hsame]
    exact h.kept r u hr
  · intro r hr
    rw [hsame]
    exact h.added r hr

/-- What is put at a vacant place is new, and nothing else changes. -/
theorem Grows.create (h : Grows t fs mid) (ht : t.Tidy) (hempty : t.entries = [])
    (hp : p ≠ []) (hdir : mid.IsDirectoryAt p.dropLast) (hvacant : mid.bare? p = none) :
    Grows t fs (mid.create p t ht) := by
  have hbare : t.bare = t := by
    cases t with
    | directory es => exact congrArg Node.directory hempty.symm
    | file bytes => rfl
    | link target => rfl
  constructor
  · intro r u hr
    have hmid := h.kept r u hr
    have hpr : ¬ p <+: r := by
      intro hpre
      rw [bare?_eq_none_of_isPrefix hpre hvacant] at hmid
      cases hmid
    rw [bare?_create ht hp hdir, if_neg hpr, hmid]
  · intro r hr
    rw [bare?_create ht hp hdir]
    by_cases hpr : p <+: r
    · obtain ⟨x, rfl⟩ := hpr
      rw [if_pos ⟨x, rfl⟩, List.drop_left]
      by_cases hx : x = []
      · simp [hx, Node.at?, hbare]
      · simp [Node.at?_of_entries_eq_nil hempty hx]
    · rw [if_neg hpr]
      exact h.added r hr

/-- One place is vacant that held an empty directory, and nothing else has changed. -/
def LosesEmptyDirectory (fs later : FileSystem) : Prop :=
  ∃ p, p ≠ [] ∧ fs.node? p = some (.directory []) ∧ later.bare? p = none ∧
    ∀ r, r ≠ p → later.bare? r = fs.bare? r

theorem losesEmptyDirectory_discard (hp : p ≠ []) (hempty : fs.node? p = some (.directory [])) :
    LosesEmptyDirectory fs (fs.discard p) := by
  have hdir := isDirectoryAt_dropLast hp (bare?_ne_none_of_node? hempty)
  refine ⟨p, hp, hempty, ?_, ?_⟩
  · rw [bare?_discard hp hdir, if_pos (List.prefix_refl p)]
  · intro r hr
    rw [bare?_discard hp hdir]
    by_cases hpr : p <+: r
    · -- nothing stands below an empty directory
      obtain ⟨x, rfl⟩ := hpr
      have hx : x ≠ [] := by
        rintro rfl
        exact hr (List.append_nil p)
      rw [if_pos ⟨x, rfl⟩, bare?, node?_append, hempty, Option.bind_some,
        Node.at?_of_entries_eq_nil rfl hx, Option.map_none]
    · rw [if_neg hpr]

end FileSystem

namespace Disk

open FileSystem

variable {fs : FileSystem}

theorem keeps_grows_makeDirectory (path : Text) :
    Keeps (Grows (.directory []) fs) (makeDirectory path) := by
  refine keeps_locate_bind ?_
  intro mid spot hmid hspot
  cases spot with
  | taken p t => exact hmid
  | vacant p slash =>
    obtain ⟨hp, hdir, hvacant⟩ := shows_of_locate hspot
    exact hmid.create Node.tidy_empty rfl hp hdir hvacant

theorem keeps_grows_makeDirectories (path : Text) :
    Keeps (Grows (.directory []) fs) (makeDirectories path) :=
  keeps_makeDirectories keeps_grows_makeDirectory path

theorem keeps_grows_openForWriting (path : Text) :
    Keeps (Grows (.file []) fs) (openForWriting path false) := by
  refine keeps_locate_bind ?_
  intro mid spot hmid hspot
  cases spot with
  | taken p t => cases t <;> exact hmid
  | vacant p slash =>
    obtain ⟨hp, hdir, hvacant⟩ := shows_of_locate hspot
    exact hmid.create (.file []) rfl hp hdir hvacant

theorem keeps_grows_renewTime {t : Node} (path : Text) :
    Keeps (Grows t fs) (renewTime path) := by
  refine keeps_locate_bind ?_
  intro mid spot hmid hspot
  cases spot with
  | taken p u => exact hmid.of_entries rfl
  | vacant p slash => exact hmid

/-- Of a request to remove a directory nothing comes, or an empty directory goes. -/
theorem removeDirectory_cases (path : Text) (fs : FileSystem) :
    stateAfter (removeDirectory path) fs = fs ∨
      LosesEmptyDirectory fs (stateAfter (removeDirectory path) fs) := by
  unfold removeDirectory
  cases hspot : locate .entry path fs with
  | error e later =>
    rw [stateAfter_of_error (bind_of_error hspot)]
    exact .inl (locate_eq_error.1 hspot).2
  | ok spot later =>
    obtain ⟨hfound, rfl⟩ := locate_eq_ok.1 hspot
    rw [stateAfter, bind_of_ok hspot]
    cases spot with
    | vacant p slash => exact .inl rfl
    | taken p t =>
      by_cases hp : p = []
      · subst hp
        exact .inl rfl
      cases t with
      | file bytes => cases p <;> exact .inl rfl
      | link target => cases p <;> exact .inl rfl
      | directory es =>
        by_cases hes : es = []
        · subst hes
          right
          cases p with
          | nil => exact absurd rfl hp
          | cons n p => exact losesEmptyDirectory_discard hp (shows_of_locate hfound)
        · left
          cases p with
          | nil => rfl
          | cons n p => simp only [hes, if_false]; rfl

end Disk

end FileShell
