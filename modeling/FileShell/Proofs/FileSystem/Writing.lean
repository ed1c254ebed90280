import FileShell.Proofs.FileSystem.Requests

/-!
# Writing to what a path leads to

A request for a file to write to follows links like any other one, and where its way ends at a vacant
place it makes the file there.  Either way the path leads to that file afterwards, since nothing on
the way to it has changed.

* `FileSystem.Writes`: a file at one place holds new bytes, and nothing else is different.
* `walk_target_of_creation`, `walk_creation_of_target`: the way to a file that may have to be made is
  the way to the file.
* `Disk.openForWriting_writes`, `Disk.append_writes`: the two requests that write.
-/

namespace FileShell

/-! ## Times -/

namespace Times

theorem lookup_filter {times : Times} {keep : Location × Nat → Bool} {r : Location}
    (h : ∀ seconds, keep (r, seconds) = true) : (times.filter keep).lookup r = times.lookup r := by
  induction times with
  | nil => rfl
  | cons t rest ih =>
    obtain ⟨q, seconds⟩ := t
    by_cases hq : r = q
    · subst hq
      simp [h]
    · have hne : (r == q) = false := by simpa using hq
      by_cases hkeep : keep (q, seconds) = true <;> simp [hkeep, List.lookup_cons, hne, ih]

theorem lookup_forget {times : Times} {p r : Location} (h : r ≠ p) :
    (times.forget p).lookup r = times.lookup r :=
  lookup_filter fun _ => by simpa using h

theorem lookup_forgetBelow {times : Times} {p r : Location} (h : ¬ p <+: r) :
    (times.forgetBelow p).lookup r = times.lookup r :=
  lookup_filter fun _ => by simpa [← Bool.not_eq_true, List.isPrefixOf_iff_prefix] using h

end Times

namespace FileSystem

variable {fs mid later : FileSystem} {p : Location} {bytes old : Bytes}

/-- A file stands at the place, or nothing. -/
def HoldsFile (fs : FileSystem) (p : Location) : Prop :=
  fs.node? p = none ∨ ∃ bytes, fs.node? p = some (.file bytes)

/-- What the file at a place holds; nothing if there is none. -/
def content (fs : FileSystem) (p : Location) : Bytes :=
  match fs.node? p with
  | some (.file bytes) => bytes
  | _ => []

theorem content_of_file (h : fs.node? p = some (.file bytes)) : fs.content p = bytes := by
  rw [content, h]

theorem content_of_vacant (h : fs.bare? p = none) : fs.content p = [] := by
  rw [content, bare?_eq_none_iff.1 h]

theorem HoldsFile.not_isDirectoryAt (h : fs.HoldsFile p) : ¬ fs.IsDirectoryAt p := by
  intro hdir
  rw [isDirectoryAt_iff] at hdir
  rcases h with hnone | ⟨bytes, hfile⟩
  · rw [hnone] at hdir
    cases hdir
  · rw [hfile] at hdir
    cases hdir

theorem HoldsFile.bare?_ne_link (h : fs.HoldsFile p) (target : Bytes) :
    fs.bare? p ≠ some (.link target) := by
  rw [Ne, bare?_eq_link_iff]
  rcases h with hnone | ⟨bytes, hfile⟩
  · simp [hnone]
  · simp [hfile]

/-! ## Changing one file -/

/-- A file at the place holds the bytes, where a file or nothing was before, and everything else is
as it was; at most the directory shows another time. -/
structure Writes (p : Location) (bytes : Bytes) (fs later : FileSystem) : Prop where
  before : fs.HoldsFile p
  file : later.node? p = some (.file bytes)
  others : ∀ r, r ≠ p → later.bare? r = fs.bare? r
  times : ∀ r, ¬ p <+: r → r ≠ p.dropLast → later.time? r = fs.time? r

theorem writes_of_file (h : fs.node? p = some (.file bytes)) : Writes p bytes fs fs :=
  ⟨.inr ⟨bytes, h⟩, h, fun _ _ => rfl, fun _ _ _ => rfl⟩

/-- A file that is written as it was is all that was written. -/
theorem Writes.bare?_eq (h : Writes p bytes fs later) (hsame : fs.node? p = some (.file bytes))
    (r : Location) : later.bare? r = fs.bare? r := by
  by_cases hr : r = p
  · rw [hr, bare?_of_node? h.file, bare?_of_node? hsame]
  · exact h.others r hr

theorem Writes.trans (h : Writes p old fs mid) (h' : Writes p bytes mid later) :
    Writes p bytes fs later where
  before := h.before
  file := h'.file
  others r hr := (h'.others r hr).trans (h.others r hr)
  times r hr hr' := (h'.times r hr hr').trans (h.times r hr hr')

/-- Below a file there is nothing, before it is written and afterwards. -/
theorem writes_of_update (h : fs.HoldsFile p) (hfile : later.node? p = some (.file bytes))
    (hlater : ∀ r, later.bare? r =
      if p <+: r then ((Node.file bytes).at? (r.drop p.length)).map Node.bare else fs.bare? r)
    (htimes : ∀ r, ¬ p <+: r → r ≠ p.dropLast → later.time? r = fs.time? r) :
    Writes p bytes fs later := by
  refine ⟨h, hfile, fun r hr => ?_, htimes⟩
  rw [hlater]
  by_cases hpr : p <+: r
  · obtain ⟨x, rfl⟩ := hpr
    have hx : x ≠ [] := by
      rintro rfl
      exact hr (List.append_nil p)
    rw [if_pos ⟨x, rfl⟩, List.drop_left, Node.at?_of_entries_eq_nil rfl hx]
    refine (Classical.byContradiction fun hne => ?_ : none = fs.bare? (p ++ x))
    exact h.not_isDirectoryAt (isDirectoryAt_of_below hx (Ne.symm hne))
  · rw [if_neg hpr]

theorem writes_create (hp : p ≠ []) (hdir : fs.IsDirectoryAt p.dropLast)
    (hvacant : fs.bare? p = none) : Writes p [] fs (fs.create p (.file []) (.file [])) := by
  refine writes_of_update (.inl (bare?_eq_none_iff.1 hvacant)) (node?_create _ hp hdir)
    (bare?_create _ hp hdir) ?_
  intro r hr hr'
  exact (Times.lookup_forget hr').trans (Times.lookup_forgetBelow hr)

theorem writes_write (h : fs.node? p = some (.file old)) (bytes : Bytes) :
    Writes p bytes fs (fs.write p bytes) := by
  have hp : p ≠ [] := by
    rintro rfl
    cases h
  have hdir := isDirectoryAt_dropLast hp (bare?_ne_none_of_node? h)
  refine writes_of_update (.inr ⟨old, h⟩) (node?_write hp hdir) (bare?_write hp hdir) ?_
  intro r hr hr'
  refine Times.lookup_forget ?_
  rintro rfl
  exact hr (List.prefix_refl r)

/-! ## The way to a file -/

variable {links : Nat} {here : Location} {steps : List Bytes} {slash : Bool} {spot : Spot}

/-- The spot is a file at the place, or the place is vacant. -/
def IsFileSpot (p : Location) : Spot → Prop
  | .taken q (.file _) => q = p
  | .taken _ _ => False
  | .vacant q _ => q = p

/-- **The way to a file that may have to be made is the way to the file**, be it there or not, as
long as nothing else changes. -/
theorem walk_target_of_creation (hlater : later.HoldsFile p)
    (hothers : ∀ r, r ≠ p → later.bare? r = fs.bare? r) (hfs : fs.HoldsFile p)
    (h : fs.walk .creation links here steps slash = .ok spot) (hspot : IsFileSpot p spot) :
    later.walk .target links here steps slash = .ok (later.spotAt p) := by
  -- where the walk ends, the place is found as it is then
  have hend : ∀ links here n, here ++ [n] = p →
      later.walk .target links here [n.bytes] false = .ok (later.spotAt p) := by
    rintro links here n rfl
    exact walk_last (.inr hlater.bare?_ne_link)
  induction finds_of_walk h with
  | done => exact absurd hspot id
  | stay hrest ih =>
    rw [walk_stay]
    exact ih hrest.walk hspot
  | up hrest ih =>
    rw [walk_up]
    exact ih hrest.walk hspot
  | @into links here rest slash spot n _ hdir hrest ih =>
    have hne : here ++ [n] ≠ p := by
      rintro rfl
      exact hfs.not_isDirectoryAt hdir
    rw [walk_name (by simp), isDirectoryAt_iff.1 ((hothers _ hne).trans hdir)]
    exact ih hrest.walk hspot
  | @vacant links here slash n hcreation _ =>
    obtain rfl : slash = false := by simpa using hcreation
    exact hend links here n hspot
  | @file links here n bytes _ => exact hend links here n hspot
  | link hentry => cases hentry
  | @follow links here rest slash spot n target _ _ hlink hrest ih =>
    have hne : here ++ [n] ≠ p := by
      rintro rfl
      exact hfs.bare?_ne_link target hlink
    rw [walk_name (by simp), bare?_eq_link_iff.1 ((hothers _ hne).trans hlink)]
    simp only [reduceCtorEq, and_false, if_false]
    exact ih hrest.walk hspot

/-- Behind a slash there is a directory or nothing. -/
theorem Finds.behind_slash {aim : Aim} (h : Finds fs aim links here steps slash spot)
    (hslash : slash = true) :
    (∃ q es, spot = .taken q (.directory es)) ∨ ∃ q, spot = .vacant q true := by
  induction h with
  | done => exact .inl ⟨_, _, rfl⟩
  | stay _ ih => exact ih hslash
  | up _ ih => exact ih hslash
  | into _ _ _ ih => exact ih hslash
  | vacant => exact .inr ⟨_, by rw [hslash]⟩
  | file => cases hslash
  | link => cases hslash
  | follow _ _ _ _ ih => exact ih (by simp [hslash])

theorem HoldsFile.spotAt_cases (h : fs.HoldsFile p) :
    fs.spotAt p = .vacant p false ∨ ∃ bytes, fs.spotAt p = .taken p (.file bytes) := by
  rcases h with hnone | ⟨bytes, hfile⟩
  · exact .inl (spotAt_of_vacant hnone)
  · exact .inr ⟨bytes, spotAt_of_node? hfile⟩

/-- **The way to a file is the way to one that may have to be made**: it does not end in a slash. -/
theorem walk_creation_of_target (hfs : fs.HoldsFile p)
    (h : fs.walk .target links here steps slash = .ok (fs.spotAt p)) :
    fs.walk .creation links here steps slash = .ok (fs.spotAt p) := by
  have hslash : ∀ links here steps slash,
      Finds fs .target links here steps slash (fs.spotAt p) → ¬ slash = true := by
    intro links here steps slash hfinds htrue
    rcases hfs.spotAt_cases with hspot | ⟨bytes, hspot⟩ <;>
      rw [hspot] at hfinds <;>
      rcases hfinds.behind_slash htrue with ⟨q, es, hq⟩ | ⟨q, hq⟩ <;> cases hq
  have hfinds := finds_of_walk h
  clear h
  suffices hcreation : Finds fs .creation links here steps slash (fs.spotAt p) from hcreation.walk
  generalize hspot : fs.spotAt p = spot at hfinds hslash ⊢
  induction hfinds with
  | done =>
    rcases hfs.spotAt_cases with h | ⟨bytes, h⟩ <;> rw [h] at hspot <;> cases hspot
  | stay _ ih => exact .stay (ih hspot hslash)
  | up _ ih => exact .up (ih hspot hslash)
  | into hnot hdir hrest ih =>
    have hopen := hslash _ _ _ _ (.into hnot hdir hrest)
    exact .into (by simp [hopen]) hdir (ih hspot hslash)
  | @vacant links here slash n hnot hnone =>
    have hopen := hslash links _ _ _ (.vacant hnot hnone)
    exact .vacant (by simp [hopen]) hnone
  | file hfile => exact .file hfile
  | link hentry => cases hentry
  | follow hnot hlast hlink hrest ih =>
    have hopen := hslash _ _ _ _ (.follow hnot hlast hlink hrest)
    exact .follow (by simp [hopen]) (by simp) hlink (ih hspot hslash)

/-- What is at a place for a file, once it is found. -/
theorem holdsFile_of_shows (hshows : fs.Shows spot) (hspot : IsFileSpot p spot) :
    fs.HoldsFile p := by
  cases spot with
  | taken q t =>
    cases t with
    | file bytes =>
      obtain rfl : q = p := hspot
      exact .inr ⟨bytes, hshows⟩
    | directory es => exact absurd hspot id
    | link target => exact absurd hspot id
  | vacant q slash =>
    obtain rfl : q = p := hspot
    exact .inl (bare?_eq_none_iff.1 hshows.2.2)

variable {path : Text}

theorem locate_target_of_creation (hlater : later.HoldsFile p)
    (hothers : ∀ r, r ≠ p → later.bare? r = fs.bare? r)
    (h : fs.locate .creation path = .ok spot) (hspot : IsFileSpot p spot) :
    later.locate .target path = .ok (later.spotAt p) := by
  obtain ⟨b, hb, hwalk⟩ := locate_eq_ok_iff.1 h
  have hfs := holdsFile_of_shows (shows_of_locate h) hspot
  exact locate_eq_ok_iff.2 ⟨b, hb, walk_target_of_creation hlater hothers hfs hwalk hspot⟩

/-- The path leads to the place of a file or, if nothing is there, of one that can be made. -/
def Opens (fs : FileSystem) (path : Text) (p : Location) : Prop :=
  ∃ spot, fs.locate .creation path = .ok spot ∧ IsFileSpot p spot

theorem Opens.locate_target (h : fs.Opens path p) :
    fs.locate .target path = .ok (fs.spotAt p) := by
  obtain ⟨spot, hlocate, hspot⟩ := h
  exact locate_target_of_creation (holdsFile_of_shows (shows_of_locate hlocate) hspot)
    (fun _ _ => rfl) hlocate hspot

/-- **What can be opened for writing** is a place to which the path leads, links followed, and at
which a file stands or nothing. -/
theorem opens_iff :
    fs.Opens path p ↔ fs.HoldsFile p ∧ fs.locate .target path = .ok (fs.spotAt p) := by
  constructor
  · intro h
    have htarget := h.locate_target
    obtain ⟨spot, hlocate, hspot⟩ := h
    exact ⟨holdsFile_of_shows (shows_of_locate hlocate) hspot, htarget⟩
  · rintro ⟨hfs, hlocate⟩
    obtain ⟨b, hb, hwalk⟩ := locate_eq_ok_iff.1 hlocate
    refine ⟨fs.spotAt p, locate_eq_ok_iff.2 ⟨b, hb, walk_creation_of_target hfs hwalk⟩, ?_⟩
    rcases hfs.spotAt_cases with hspot | ⟨bytes, hspot⟩ <;> rw [hspot] <;> rfl

/-- The file that has been written is the one that the path leads to afterwards. -/
theorem Opens.found?_of_writes (h : fs.Opens path p) (hwrites : Writes p bytes fs later) :
    later.found? .target path = some (p, .file bytes) := by
  obtain ⟨spot, hlocate, hspot⟩ := h
  have htarget := locate_target_of_creation (.inr ⟨bytes, hwrites.file⟩) hwrites.others hlocate hspot
  rw [spotAt_of_node? hwrites.file] at htarget
  exact found?_eq_some_iff.2 htarget

end FileSystem

namespace Disk

open FileSystem Effect

variable {fs later : FileSystem} {path : Text} {p : Location} {bytes : Bytes}

/-- **A file that is opened for writing** is the one that the path leads to, emptied or not. -/
theorem writes_of_openForWriting {emptied : Bool} (h : openForWriting path emptied fs = .ok p later) :
    fs.Opens path p ∧ Writes p (if emptied = true then [] else fs.content p) fs later := by
  rcases openForWriting_eq_ok.1 h with ⟨old, hlocate, rfl⟩ | ⟨slash, hlocate, rfl⟩
  · have hfile : fs.node? p = some (.file old) := shows_of_locate hlocate
    refine ⟨⟨_, hlocate, rfl⟩, ?_⟩
    rw [content_of_file hfile]
    cases emptied with
    | true => exact writes_write hfile []
    | false => exact writes_of_file hfile
  · obtain ⟨hp, hdir, hvacant⟩ := shows_of_locate hlocate
    refine ⟨⟨_, hlocate, rfl⟩, ?_⟩
    rw [content_of_vacant hvacant, ite_self]
    exact writes_create hp hdir hvacant

/-- Whatever can be opened is opened. -/
theorem exists_openForWriting (h : fs.Opens path p) (emptied : Bool) :
    ∃ later, openForWriting path emptied fs = .ok p later := by
  obtain ⟨spot, hlocate, hspot⟩ := h
  cases spot with
  | taken q t =>
    cases t with
    | file old =>
      obtain rfl : q = p := hspot
      exact ⟨_, openForWriting_eq_ok.2 (.inl ⟨old, hlocate, rfl⟩)⟩
    | directory es => exact absurd hspot id
    | link target => exact absurd hspot id
  | vacant q slash =>
    obtain rfl : q = p := hspot
    exact ⟨_, openForWriting_eq_ok.2 (.inr ⟨slash, hlocate, rfl⟩)⟩

/-- Bytes put at the end of a file come after what it holds. -/
theorem append_writes (h : fs.node? p = some (.file bytes)) (more : Bytes) :
    ∃ later, append p more fs = .ok () later ∧ Writes p (bytes ++ more) fs later := by
  refine ⟨_, append_of_file h, ?_⟩
  by_cases hmore : more = []
  · simp only [hmore, if_true, List.append_nil]
    exact writes_of_file h
  · simp only [hmore, if_false]
    exact writes_write h _

end Disk

end FileShell
