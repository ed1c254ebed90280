import FileShell.Proofs.FileSystem.LinkFree
import FileShell.Proofs.FileSystem.Emptying

/-!
# Directories that stay

In a file system without links nothing but a removal or a renaming can take a directory away, and
only if its path names that directory or one above it.  So a directory stays through every request
whose paths miss it, and no request brings in a link where there was none.

* `FileSystem.Standing`: there is no link, and a directory stands at the place.
* `Standing.of_change`, `create`, `discard`, `relocate`: the changes that keep it so.
* `Disk.Misses`: a path that names neither the place nor one above it.
* `Disk.keeps_removeTree`, `keeps_copyTree`, `keeps_move` and so on: the requests that keep it so.
-/

namespace FileShell

open Effect

namespace FileSystem

/-- There is no link, and a directory stands at the place. -/
structure Standing (c : Location) (fs : FileSystem) : Prop where
  linkFree : fs.LinkFree
  isDirectory : fs.IsDirectoryAt c

variable {fs later : FileSystem} {c p q : Location}

/-! ## Changes -/

theorem Standing.of_entries (h : fs.Standing c) (hentries : later.entries = fs.entries) :
    later.Standing c := by
  have hsame : ∀ r, later.bare? r = fs.bare? r := by
    intro r
    rw [bare?, bare?, node?, node?, hentries]
  constructor
  · intro r target
    rw [hsame]
    exact h.linkFree r target
  · rw [IsDirectoryAt, hsame]
    exact h.isDirectory

/-- What changes only at or below one place brings no link if there is none in what is new, and
leaves the directory alone if that stands apart or is new itself. -/
theorem Standing.of_change (h : fs.Standing c) {new : Location → Option Node}
    (hlater : ∀ r, later.bare? r = if q <+: r then new r else fs.bare? r)
    (hnew : ∀ r, q <+: r → ∀ target, new r ≠ some (.link target))
    (hc : q <+: c → new c = some (.directory [])) : later.Standing c := by
  constructor
  · intro r target
    rw [hlater]
    by_cases hr : q <+: r
    · rw [if_pos hr]
      exact hnew r hr target
    · rw [if_neg hr]
      exact h.linkFree r target
  · rw [IsDirectoryAt, hlater]
    by_cases hqc : q <+: c
    · rw [if_pos hqc]
      exact hc hqc
    · rw [if_neg hqc]
      exact h.isDirectory

theorem Standing.create (h : fs.Standing c) {t : Node} (ht : t.Tidy) (hq : q ≠ [])
    (hdir : fs.IsDirectoryAt q.dropLast) (hvacant : fs.bare? q = none)
    (hlinks : ∀ x target, (t.at? x).map Node.bare ≠ some (.link target)) :
    (fs.create q t ht).Standing c := by
  have hcq : ¬ q <+: c := by
    intro hpre
    have hnone := bare?_eq_none_of_isPrefix hpre hvacant
    rw [h.isDirectory] at hnone
    cases hnone
  refine h.of_change (bare?_create ht hq hdir) ?_ (absurd · hcq)
  intro r hr target
  exact hlinks _ target

/-- Below a file there is nothing, and at it no link. -/
theorem at?_file_ne_link (bytes : Bytes) (x : Location) (target : Bytes) :
    ((Node.file bytes).at? x).map Node.bare ≠ some (.link target) := by
  cases x with
  | nil => simp [Node.at?, Node.bare]
  | cons n x => simp [Node.at?_cons, Node.entries, Entries.find?]

theorem at?_empty_ne_link (x : Location) (target : Bytes) :
    ((Node.directory []).at? x).map Node.bare ≠ some (.link target) := by
  cases x with
  | nil => simp [Node.at?, Node.bare]
  | cons n x => simp [Node.at?_cons, Node.entries, Entries.find?]

/-- In the empty file system the root stands. -/
theorem standing_empty : FileSystem.empty.Standing [] := by
  refine ⟨?_, isDirectoryAt_root⟩
  intro p target
  cases p with
  | nil => exact isDirectoryAt_root.ne_link target
  | cons n p =>
    rw [bare?, node?]
    exact at?_empty_ne_link (n :: p) target

theorem Standing.write (h : fs.Standing c) {old : Bytes} (hfile : fs.node? q = some (.file old))
    (bytes : Bytes) : (fs.write q bytes).Standing c := by
  have hq : q ≠ [] := by
    rintro rfl
    cases hfile
  have htaken := bare?_ne_none_of_node? hfile
  have hdir := isDirectoryAt_dropLast hq htaken
  have hcq : ¬ q <+: c := by
    intro hpre
    have hqdir := isDirectoryAt_of_isPrefix hpre h.isDirectory
    rw [isDirectoryAt_iff.1 hqdir] at hfile
    cases hfile
  refine h.of_change (bare?_write hq hdir) ?_ (absurd · hcq)
  intro r hr target
  exact at?_file_ne_link bytes _ target

theorem Standing.discard (h : fs.Standing c) {t : Node} (ht : fs.node? p = some t) (hp : p ≠ [])
    (hpc : ¬ p <+: c) : (fs.discard p).Standing c := by
  have htaken := bare?_ne_none_of_node? ht
  have hdir := isDirectoryAt_dropLast hp htaken
  refine h.of_change (bare?_discard hp hdir) ?_ (absurd · hpc)
  intro r hr target
  simp

/-- A directory loses some of what is in it. -/
theorem Standing.thinned (h : fs.Standing c) (hthin : Thinned fs later p) (hpc : ¬ p <+: c) :
    later.Standing c := by
  constructor
  · intro r target hlink
    exact h.linkFree r target (hthin.kept r _ hlink)
  · exact (hthin.outside c fun hpre => absurd hpre hpc).trans h.isDirectory

/-- A relocation takes something away and puts it elsewhere: what replaces the directory or stands
below it afterwards was somewhere before. -/
theorem Standing.relocate (h : fs.Standing c) {t : Node} (ht : fs.node? p = some t) (hp : p ≠ [])
    (hq : q ≠ []) (hdir : fs.IsDirectoryAt q.dropLast) (hpq : ¬ p <+: q) (hpc : ¬ p <+: c)
    (hqc : q <+: c → q = c ∧ t.isDirectory = true) : (fs.relocate p q).Standing c := by
  have htaken := isDirectoryAt_dropLast hp (bare?_ne_none_of_node? ht)
  have hchange : ∀ r, (fs.relocate p q).bare? r =
      if q <+: r then (t.at? (r.drop q.length)).map Node.bare else (fs.discard p).bare? r := by
    intro r
    rw [bare?_relocate ht hp hq hdir hpq, bare?_discard hp htaken]
  refine (h.discard ht hp hpc).of_change hchange ?_ ?_
  · rintro r ⟨x, rfl⟩ target hlink
    rw [List.drop_left] at hlink
    refine h.linkFree (p ++ x) target ?_
    rw [bare?, node?_append, ht]
    exact hlink
  · intro hpre
    obtain ⟨rfl, htdir⟩ := hqc hpre
    rw [List.drop_length]
    cases t with
    | directory es => rfl
    | file bytes => cases htdir
    | link target => cases htdir

end FileSystem

namespace Disk

open FileSystem

variable {c : Location} {fs : FileSystem} {s u : Spelling}

/-! ## Requests that take nothing away -/

theorem keeps_makeDirectory (path : Text) : Keeps (Standing c) (makeDirectory path) := by
  refine keeps_locate_bind ?_
  intro fs spot hfs hspot
  cases spot with
  | taken p t => exact hfs
  | vacant p slash =>
    obtain ⟨hp, hdir, hvacant⟩ := shows_of_locate hspot
    exact hfs.create Node.tidy_empty hp hdir hvacant at?_empty_ne_link

theorem keeps_openForWriting (path : Text) (emptied : Bool) :
    Keeps (Standing c) (openForWriting path emptied) := by
  refine keeps_locate_bind ?_
  intro fs spot hfs hspot
  cases spot with
  | taken p t =>
    cases t with
    | directory es => exact hfs
    | link target => exact hfs
    | file old =>
      cases emptied with
      | false => exact hfs
      | true => exact hfs.write (shows_of_locate hspot) []
  | vacant p slash =>
    obtain ⟨hp, hdir, hvacant⟩ := shows_of_locate hspot
    exact hfs.create (.file []) hp hdir hvacant (at?_file_ne_link [])

theorem keeps_append (p : Location) (bytes : Bytes) : Keeps (Standing c) (append p bytes) := by
  unfold append
  split
  · refine keeps_get_bind ?_
    intro fs hfs
    split
    · next old hfile => exact hfs.write hfile _
    · exact hfs
  · exact keeps_pure _

theorem keeps_renewTime (path : Text) : Keeps (Standing c) (renewTime path) := by
  refine keeps_locate_bind ?_
  intro fs spot hfs hspot
  cases spot with
  | taken p t => exact hfs.of_entries rfl
  | vacant p slash => exact hfs

/-- Whatever is not a directory can be removed. -/
theorem keeps_unlink (path : Text) : Keeps (Standing c) (unlink path) := by
  intro fs hfs
  rcases stateAfter_unlink path fs with hstill | ⟨p, t, ht, hfile, hlater⟩
  · rwa [hstill]
  · rw [hlater]
    refine hfs.discard ht ?_ (hfs.isDirectory.not_isPrefix_of_file ht hfile)
    rintro rfl
    exact isDirectoryAt_root.not_isPrefix_of_file ht hfile (List.prefix_refl [])

theorem keeps_copyFile (source target : Text) : Keeps (Standing c) (copyFile source target) := by
  refine keeps_bind (keeps_ask _) ?_
  intro inside
  refine keeps_bind (keeps_readFile _) ?_
  intro bytes
  refine keeps_bind (keeps_openForWriting _ _) ?_
  intro p
  exact keeps_bind (keeps_append _ _) fun _ => keeps_copyTimeOf (fun _ _ h hfs => hfs.of_entries h) _ _

/-- Copying a directory makes no link, as there is none to copy. -/
theorem keeps_copyTree (depth : Nat) (source target : Text) :
    Keeps (Standing c) (copyTree depth source target) := by
  induction depth generalizing source target with
  | zero => exact keeps_throw _
  | succ depth ih =>
    refine keeps_bind_of (keeps_listDirectory source) ?_
    intro fs es later hfs hlist
    obtain ⟨⟨p, -, rfl⟩, rfl⟩ := listDirectory_eq_ok.1 hlist
    have hnolink : ∀ e ∈ later.enumerated p, ∀ target, e.2 ≠ .link target := by
      rintro ⟨n, t⟩ he target rfl
      exact hfs.linkFree (p ++ [n]) target (bare?_of_node? (mem_enumerated_iff.1 he))
    refine keeps_bind (I := Standing c) (keeps_makeDirectories keeps_makeDirectory target)
      (fun _ => ?_) _ hfs
    refine keeps_bind (keeps_mapM fun e he => keeps_collect ?_ _ _) fun failed => ?_
    · split
      · next target' heq => exact absurd heq (hnolink e he target')
      · exact ih _ _
      · exact keeps_copyFile _ _
    · refine keeps_bind (keeps_collect (keeps_copyTimeOf (fun _ _ h hfs => hfs.of_entries h) _ _) _ _) ?_
      intro last
      simp only
      split
      · exact keeps_throw _
      · exact keeps_pure _

/-! ## Requests that take something away -/

/-- In a file system without links the path names neither the place nor one above it. -/
def Misses (c : Location) (path : Text) : Prop :=
  ∀ fs : FileSystem, fs.LinkFree → ∀ p, fs.Names path p → ¬ p <+: c

theorem Misses.parts_ne_nil (h : Misses c s.toText) (hs : s.IsClean) : s.parts ≠ [] :=
  fun hroot => h FileSystem.empty standing_empty.linkFree [] (names_root hs hroot) List.nil_prefix

/-- A path that misses the place is not the root's. -/
theorem Misses.of_taken {path : Text} (h : Misses c path) (hfs : fs.Standing c) {p : Location}
    {t : Node} (hspot : fs.locate .entry path = .ok (.taken p t)) : p ≠ [] ∧ ¬ p <+: c := by
  have hpc := h fs hfs.linkFree p (names_of_taken hspot)
  exact ⟨fun h0 => hpc (h0 ▸ List.nil_prefix), hpc⟩

theorem keeps_removeDirectory {path : Text} (h : Misses c path) :
    Keeps (Standing c) (removeDirectory path) := by
  refine keeps_locate_bind ?_
  intro fs spot hfs hspot
  cases spot with
  | vacant p slash => exact hfs
  | taken p t =>
    obtain ⟨hp, hpc⟩ := h.of_taken hfs hspot
    cases p with
    | nil => exact absurd rfl hp
    | cons n p =>
      cases t with
      | directory es =>
        show Standing c (stateAfter (if es = [] then _ else _) fs)
        split
        · exact hfs.discard (shows_of_locate hspot) hp hpc
        · exact hfs
      | file bytes => exact hfs
      | link target => exact hfs

/-- Without links a path still leads to a directory when that is empty. -/
theorem removable_of_linkFree (hfs : fs.LinkFree) (hs : s.IsClean) {p : Location}
    (hleads : fs.Leads s.toText p) (hp : p ≠ []) (hfits : fs.Fits (fs.host.nesting .removal) p) :
    fs.Removable s.toText p := by
  have hdir := hleads.isDirectoryAt
  have hbare := bare?_emptied hp hdir
  have hempty : (fs.emptied p).IsDirectoryAt p := by rw [IsDirectoryAt, hbare, if_pos rfl]
  have hnil : (fs.emptied p).entriesAt p = [] := by
    refine entriesAt_eq_nil_iff.2 fun x hx => ?_
    rw [hbare, if_neg (by simpa using hx), if_pos (List.prefix_append p x)]
  have hfree : (fs.emptied p).LinkFree := by
    intro r target
    rw [hbare]
    split
    · simp
    split
    · simp
    · exact hfs r target
  obtain ⟨b, hb, -⟩ := locate_eq_ok_iff.1 (found?_eq_some_iff.1 hleads)
  have hspells := spells_of_names hfs hs (hleads.names hfs hs)
  have hnames := (leads_of_spells hs hb hspells hempty).names hfree hs
  refine ⟨hp, hfits, ?_⟩
  rw [hnames, spotAt_of_node? (isDirectoryAt_iff.1 hempty), hnil]

theorem keeps_removeTree {path : Text} (h : Misses c path) :
    Keeps (Standing c) (removeTree path) := by
  refine keeps_locate_bind ?_
  intro fs spot hfs hspot
  cases spot with
  | vacant p slash => exact hfs
  | taken p t =>
    obtain ⟨-, hpc⟩ := h.of_taken hfs hspot
    cases t with
    | directory es =>
      have hthin := thinned_emptyDirectory (fs.host.nesting .removal) p fs
      refine stateAfter_bind (x := get) hfs fun _ mid hget hmid => ?_
      cases hget
      exact stateAfter_bind (hfs.thinned hthin hpc) fun _ later _ => keeps_removeDirectory h later
    | file bytes => exact hfs
    | link target => exact hfs

/-- A renaming takes away only what is renamed: it replaces no directory that holds anything. -/
theorem keeps_rename (hs : s.IsClean) (hu : u.IsClean) (h : Misses c s.toText) :
    Keeps (Standing c) (rename s.toText u.toText) := by
  intro fs hfs
  cases hrun : rename s.toText u.toText fs with
  | error e later =>
    rw [stateAfter_of_error hrun, rename_eq_error hrun]
    exact hfs
  | ok a later =>
    rw [stateAfter_of_ok hrun]
    obtain ⟨p, t, q, hp, ht, hp0, hq, hq0, hdone⟩ := exists_of_rename_eq_ok hs hu hrun
    rcases hdone with ⟨-, rfl⟩ | ⟨htakes, rfl⟩
    · exact hfs
    · refine hfs.relocate ht hp0 hq0 (hq.isDirectoryAt_dropLast hu hq0) htakes.1
        (h fs hfs.linkFree p hp) ?_
      intro hqc
      -- a directory at the place is replaced only if it is empty, and then by a directory
      exact ⟨(htakes.eq_of_taken hqc hfs.isDirectory.ne_none).symm,
        htakes.isDirectory (isDirectoryAt_of_isPrefix hqc hfs.isDirectory)⟩

theorem keeps_moveByCopy {source : Text} (h : Misses c source) (aimed target : Text) :
    Keeps (Standing c) (moveByCopy source aimed target) := by
  intro fs hfs
  have hlink : fs.isLink source = false := by
    unfold isLink
    split
    · next p t hfound =>
      cases t with
      | link bytes => exact absurd (bare?_of_node? (node?_of_found? hfound)) (hfs.linkFree p bytes)
      | file bytes => rfl
      | directory es => rfl
    · rfl
  rw [moveByCopy, stateAfter, bind_of_ok (ask_eq _), hlink]
  refine keeps_bind (I := Standing c) (keeps_ask _) (fun isdir => ?_) fs hfs
  split
  · have hrest : Keeps (Standing c) (do
        copyTree ((← get).host.nesting .copying) source target
        removeTree source) :=
      keeps_get_bind fun fs hfs =>
        keeps_bind (keeps_copyTree _ _ _) (fun _ => keeps_removeTree h) fs hfs
    split
    · exact keeps_bind (keeps_throw _) fun _ => hrest
    · exact hrest
  · exact keeps_bind (keeps_copyFile _ _) fun _ => keeps_unlink _

theorem keeps_renameOrCopy (hs : s.IsClean) (hu : u.IsClean) (h : Misses c s.toText)
    (aimed : Text) : Keeps (Standing c) (renameOrCopy s.toText aimed u.toText) := by
  refine keeps_tryCatch (keeps_rename hs hu h) ?_
  intro e
  split
  · exact keeps_moveByCopy h _ _
  · exact keeps_throw e

/-- **A move takes no directory away** that its source misses. -/
theorem keeps_move (hs : s.IsClean) (hu : u.IsClean) (h : Misses c s.toText) :
    Keeps (Standing c) (move s.toText u.toText) := by
  have hparts := h.parts_ne_nil hs
  have hpart := hs.isPart _ (List.getLast_mem hparts)
  refine keeps_bind (keeps_ask _) ?_
  intro isdir
  split
  · refine keeps_bind (keeps_ask _) ?_
    intro same
    split
    · exact keeps_rename hs hu h
    · rw [Spelling.withoutTrailingSlashes_toText hs hparts, Spelling.base_toText_getLast hs hparts,
        Spelling.join_toText hu hpart]
      refine keeps_bind (keeps_ask _) ?_
      intro present
      have hrest := keeps_renameOrCopy hs (hu.append_singleton hpart) h u.toText
      split
      · exact keeps_bind (keeps_throw _) fun _ => hrest
      · exact hrest
  · exact keeps_renameOrCopy hs hu h _

end Disk

end FileShell
