import FileShell.FileSystem.Host

/-!
# File systems

A file system is a tidy tree below a root directory, together with the modification times that were
set explicitly; an entry without one carries the time of its last change, which nothing here shows.
That the tree is tidy makes it the same for the same contents; in which order a directory is
enumerated is up to the host that the file system is used on.  The functions of this module change
one place and leave the host alone; `FileShell.FileSystem.Walk` says which place a path means,
`FileShell.FileSystem.Disk` which requests are granted.

* `FileSystem.node?`: the view of a file system, the node at a location.
* `create`, `write`, `discard`, `relocate`: the changes, each with the modification times it resets.
-/

namespace FileShell

/-- The modification times that were set explicitly, in seconds. -/
abbrev Times := List (Location × Nat)

namespace Times

/-- The times without that of one place. -/
def forget (p : Location) (times : Times) : Times := times.filter fun t => t.1 ≠ p

/-- The times without those of a place and everything below it. -/
def forgetBelow (p : Location) (times : Times) : Times := times.filter fun t => !p.isPrefixOf t.1

/-- The times after what was at one place, with all below it, went to another. -/
def relocate (source target : Location) (times : Times) : Times :=
  times.map fun t =>
    if source.isPrefixOf t.1 then (target ++ t.1.drop source.length, t.2) else t

end Times

/-- A root directory with everything below it, the times that were set explicitly, and the host. -/
structure FileSystem where
  entries : Entries
  times : Times
  host : Host
  tidy : entries.Tidy

namespace FileSystem

/-- The file system with an empty root directory on the usual host. -/
def empty : FileSystem := ⟨[], [], .usual, Node.tidy_empty⟩

instance : Inhabited FileSystem := ⟨empty⟩

/-- The node at a location. -/
def node? (fs : FileSystem) (p : Location) : Option Node := fs.entries.node? p

theorem tidy_of_node? {fs : FileSystem} {p : Location} {t : Node} (h : fs.node? p = some t) :
    t.Tidy := fs.tidy.at? h

/-- The entries of the directory at a location; nothing if there is none. -/
def entriesAt (fs : FileSystem) (p : Location) : Entries := ((fs.node? p).map Node.entries).getD []

/-- The entries of the directory at a location in the order in which they are enumerated. -/
def enumerated (fs : FileSystem) (p : Location) : Entries := fs.host.arranged p (fs.entriesAt p)

/-- Is there a time set explicitly at a place? -/
def time? (fs : FileSystem) (p : Location) : Option Nat := fs.times.lookup p

/-- The file system with the time of a place set. -/
def setTime (fs : FileSystem) (p : Location) (seconds : Nat) : FileSystem :=
  { fs with times := (p, seconds) :: fs.times.forget p }

/-- The file system with the time of a place renewed. -/
def renew (fs : FileSystem) (p : Location) : FileSystem := { fs with times := fs.times.forget p }

/-- The file system with a node put at a place; its directory changes. -/
def create (fs : FileSystem) (p : Location) (t : Node) (ht : t.Tidy) : FileSystem where
  entries := fs.entries.update (some t) p
  times := (fs.times.forgetBelow p).forget p.dropLast
  host := fs.host
  tidy := Entries.update_tidy (by rintro _ ⟨⟩; exact ht) p fs.tidy

/-- The file system with the bytes of the file at a place replaced. -/
def write (fs : FileSystem) (p : Location) (bytes : Bytes) : FileSystem where
  entries := fs.entries.update (some (.file bytes)) p
  times := fs.times.forget p
  host := fs.host
  tidy := Entries.update_tidy (by rintro _ ⟨⟩; exact .file bytes) p fs.tidy

/-- The file system without what is at a place; its directory changes. -/
def discard (fs : FileSystem) (p : Location) : FileSystem where
  entries := fs.entries.update none p
  times := (fs.times.forgetBelow p).forget p.dropLast
  host := fs.host
  tidy := Entries.update_tidy (by rintro _ ⟨⟩) p fs.tidy

/-- The file system with what is at one place taken to another, where it replaces what was there.
It keeps its times; the two directories change. -/
def relocate (fs : FileSystem) (source target : Location) : FileSystem :=
  match h : fs.node? source with
  | none => fs
  | some t =>
    { entries := (fs.entries.update none source).update (some t) target
      times := (((fs.times.forgetBelow target).relocate source target).forget source.dropLast).forget
        target.dropLast
      host := fs.host
      tidy := Entries.update_tidy (by rintro _ ⟨⟩; exact tidy_of_node? h) target
        (Entries.update_tidy (by rintro _ ⟨⟩) source fs.tidy) }

end FileSystem

end FileShell
