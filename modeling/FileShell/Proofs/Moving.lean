import FileShell.Proofs.FileSystem.Copying
import FileShell.Verb.Run

/-!
# What a move moves

A move that succeeds has renamed the source or has copied it and removed it then.  In both cases
what stood at the source stands in the end where the destination lands, and every other file is
still there, with one exception: a directory that is copied into itself, to a place that its path
does not show to be inside it, is removed with its copy.

* `FileSystem.Carried`: the ways in which a move that succeeds goes.
* `FileSystem.Moved`: what a move from one place to another has done.
* `Disk.carried_of_move`, `Disk.moved_of_move`: a move goes in one of these ways, and so it moves.
* `Verb.moved_of_mv`: so does `mv`, if it succeeds.
-/

namespace FileShell

open FileSystem Effect

namespace FileSystem

/-- What has become of the node at one place when it was moved to another.  It has arrived unless
the second place lies inside the first; then it is gone. -/
structure Moved (fs later : FileSystem) (p q : Location) (t : Node) : Prop where
  arrives : later.node? q = some t ↔ p = q ∨ ¬ p <+: q
  leaves : p ≠ q → later.node? p = none
  others : ∀ r u, fs.node? r = some u → u.isDirectory = false → ¬ p <+: r → r ≠ q →
    later.node? r = some u

variable {fs later : FileSystem} {p q : Location} {t : Node}

theorem moved_self (ht : fs.node? p = some t) : Moved fs fs p p t where
  arrives := ⟨fun _ => .inl rfl, fun _ => ht⟩
  leaves h := absurd rfl h
  others _ _ hu _ _ _ := hu

/-- A renaming moves. -/
theorem moved_relocate (ht : fs.node? p = some t) (hp : p ≠ []) (hq : q ≠ [])
    (hdir : fs.IsDirectoryAt q.dropLast) (htakes : Disk.TakesFrom fs p t q) :
    Moved fs (fs.relocate p q) p q t := by
  have hpq := htakes.1
  have hqp : ¬ q <+: p := by
    rcases htakes.2 with hvacant | ⟨hqp, -⟩
    · exact not_isPrefix_of_vacant hvacant ht
    · exact hqp
  refine ⟨⟨fun _ => .inr hpq, fun _ => node?_relocate ht hp hq hdir hpq⟩, ?_, ?_⟩
  · intro _
    rw [← bare?_eq_none_iff, bare?_relocate ht hp hq hdir hpq, if_neg hqp,
      if_pos (List.prefix_refl p)]
  · intro r u hu hfile hpr hrq
    have hqr : ¬ q <+: r := fun hpre =>
      hrq (htakes.eq_of_taken hpre (bare?_ne_none_of_node? hu))
    rw [← bare?_eq_iff_of_file hfile, bare?_relocate ht hp hq hdir hpq, if_neg hqr, if_neg hpr,
      bare?_eq_iff_of_file hfile]
    exact hu

/-- A copy that is followed by the removal of the source moves, if the copy is not inside it. -/
theorem moved_discard {mid : FileSystem} {source : Text} {es : Entries}
    (ht : fs.node? p = some (.directory es)) (hp : p ≠ []) (hnames : fs.Names source p)
    (hcopied : Copied fs mid source (.directory es) q) :
    Moved fs (mid.discard p) p q (.directory es) := by
  have hmidp : mid.bare? p = some (.directory []) := hcopied.grown.kept p _ (bare?_of_node? ht)
  have hpdir : mid.IsDirectoryAt p.dropLast :=
    isDirectoryAt_dropLast hp (IsDirectoryAt.ne_none hmidp)
  have hqp := not_isPrefix_of_vacant hcopied.vacant ht
  refine ⟨⟨?_, ?_⟩, ?_, ?_⟩
  · intro harrived
    refine .inr ?_
    intro hpq
    have hgone := bare?_discard hp hpdir q
    rw [if_pos hpq, bare?_of_node? harrived] at hgone
    cases hgone
  · rintro (rfl | hpq)
    · exact absurd (List.prefix_refl p) hqp
    · have hsame : (mid.discard p).node? q = mid.node? q :=
        node?_eq_of_bare fun x => by
          rw [bare?_discard hp hpdir, if_neg (Apart.not_isPrefix ⟨hqp, hpq⟩ x)]
      rw [hsame]
      exact hcopied.faithful p (fun p' hp' => hp'.unique hnames) ⟨hpq, hqp⟩ ht
  · intro _
    rw [← bare?_eq_none_iff, bare?_discard hp hpdir, if_pos (List.prefix_refl p)]
  · intro r u hu hfile hpr _
    rw [← bare?_eq_iff_of_file hfile, bare?_discard hp hpdir, if_neg hpr]
    exact hcopied.grown.kept r u ((bare?_eq_iff_of_file hfile).2 hu)

/-- The ways in which a move that succeeds takes a node from one place to another: there is nothing
to do, it is renamed, or it is a directory that is copied and removed then.  It is not copied if the
path that the move was asked for is inside the source by its text. -/
inductive Carried (fs later : FileSystem) (source aimed : Text) (p q : Location) (t : Node) :
    Prop where
  | stayed (hpq : p = q) (hlater : later = fs)
  | renamed (hq : q ≠ []) (hdir : fs.IsDirectoryAt q.dropLast) (htakes : Disk.TakesFrom fs p t q)
      (hlater : later = fs.relocate p q)
  | copied (mid : FileSystem) (hinside : Path.isInside source aimed = false)
      (hdir : t.isDirectory = true) (hcopied : Copied fs mid source t q)
      (hlater : later = mid.discard p)

/-- **In each of these ways the node is moved.** -/
theorem Carried.moved {source aimed : Text} (h : Carried fs later source aimed p q t)
    (hnames : fs.Names source p) (hp : p ≠ []) (ht : fs.node? p = some t) :
    Moved fs later p q t := by
  cases h with
  | stayed hpq hlater =>
    rw [← hpq, hlater]
    exact moved_self ht
  | renamed hq hdir htakes hlater =>
    rw [hlater]
    exact moved_relocate ht hp hq hdir htakes
  | copied mid hinside hdir hcopied hlater =>
    rw [hlater]
    cases t with
    | directory es => exact moved_discard ht hp hnames hcopied
    | file bytes => cases hdir
    | link target => cases hdir

end FileSystem

namespace Disk

variable {fs later : FileSystem} {p : Location} {t : Node} {s u : Spelling}

/-! ## Renaming and copying -/

theorem carried_of_rename (hs : s.IsClean) (hu : u.IsClean) (aimed : Text)
    (hp : fs.Names s.toText p) (ht : fs.node? p = some t)
    (h : rename s.toText u.toText fs = .ok () later) :
    ∃ q, fs.landing? u.toText = some q ∧ Carried fs later s.toText aimed p q t := by
  obtain ⟨p', t', q, hp', ht', -, hq, hq0, hdone⟩ := exists_of_rename_eq_ok hs hu h
  obtain rfl := hp'.unique hp
  rw [ht] at ht'
  cases ht'
  refine ⟨q, hq.landing? hu, ?_⟩
  rcases hdone with ⟨hpq, hlater⟩ | ⟨htakes, hlater⟩
  · exact .stayed hpq hlater
  · exact .renamed hq0 (hq.isDirectoryAt_dropLast hu hq0) htakes hlater

section MoveByCopy

variable {source aimed target : Text}

theorem moveByCopy_of_link (hlink : fs.isLink source = true) :
    moveByCopy source aimed target fs =
      (do makeLink (← readLink source) target; unlink source : Disk Unit) fs := by
  unfold moveByCopy
  rw [bind_of_ok (ask_eq _), hlink]
  rfl

theorem moveByCopy_of_directory (hlink : fs.isLink source = false)
    (hdir : fs.isDirectory source = true) :
    moveByCopy source aimed target fs =
      (if Path.isInside source aimed then throw (.move (.intoItself source aimed))
        else do copyTree (fs.host.nesting .copying) source target; removeTree source : Disk Unit)
        fs := by
  unfold moveByCopy
  rw [bind_of_ok (ask_eq _), hlink]
  simp only [Bool.false_eq_true, if_false]
  rw [bind_of_ok (ask_eq _), hdir]
  simp only [if_true]
  split <;> rfl

theorem moveByCopy_of_file (hlink : fs.isLink source = false)
    (hdir : fs.isDirectory source = false) :
    moveByCopy source aimed target fs =
      (do copyFile source target; unlink source : Disk Unit) fs := by
  unfold moveByCopy
  rw [bind_of_ok (ask_eq _), hlink]
  simp only [Bool.false_eq_true, if_false]
  rw [bind_of_ok (ask_eq _), hdir]
  rfl

/-- A directory is copied only if its path is not above the path that the move was asked for, and
then it is removed. -/
theorem eq_ok_of_moveByCopy_directory (hlink : fs.isLink source = false)
    (hdir : fs.isDirectory source = true)
    (h : moveByCopy source aimed target fs = .ok () later) :
    Path.isInside source aimed = false ∧ ∃ mid,
      copyTree (fs.host.nesting .copying) source target fs = .ok () mid ∧
        removeTree source mid = .ok () later := by
  rw [moveByCopy_of_directory hlink hdir] at h
  split at h
  · cases h
  · next hinside =>
    obtain ⟨done, mid, hcopy, hremove⟩ := bind_eq_ok.1 h
    exact ⟨by simpa using hinside, mid, hcopy, hremove⟩

end MoveByCopy

/-- A directory that could not be renamed is copied and removed. -/
theorem carried_of_moveByCopy_directory (hs : s.IsClean) (hu : u.IsClean) (aimed : Text)
    {es : Entries} (hp : fs.Names s.toText p) (ht : fs.node? p = some (.directory es))
    (h : moveByCopy s.toText aimed u.toText fs = .ok () later) :
    ∃ q, fs.landing? u.toText = some q ∧
      Carried fs later s.toText aimed p q (.directory es) := by
  obtain ⟨hinside, mid, hcopy, hremove⟩ := eq_ok_of_moveByCopy_directory (hp.isLink_eq ht)
    (hp.isDirectory_eq hs ht rfl) h
  obtain ⟨q, hlanding, hcopied⟩ := copyTree_eq_ok _ hs hu hcopy
  obtain ⟨p', es', htaken, -, hlater⟩ := (removeTree_eq_ok hs).1 hremove
  -- copying has not changed what the source names
  obtain rfl := (names_of_taken htaken).unique (hp.mono hs (hcopied es).grown.kept)
  exact ⟨q, hlanding, .copied mid hinside rfl (hcopied es) hlater⟩

/-- Where no file can be opened, no file is copied to, and nothing changes. -/
theorem copyFile_eq_error (source : Text) {target : Text} (hfree : fs.isDirectory target = false)
    (hnowhere : ∀ spot, fs.locate .creation target ≠ .ok spot) :
    ∃ e, copyFile source target fs = .error e fs := by
  rw [copyFile, bind_of_ok (ask_eq _), hfree]
  simp only [Bool.false_eq_true, if_false]
  have hsame := keeps_readFile (I := (· = fs)) source fs rfl
  cases hread : readFile source fs with
  | error e read =>
    rw [stateAfter_of_error hread] at hsame
    exact ⟨e, by rw [bind_of_error hread, hsame]⟩
  | ok bytes read =>
    rw [stateAfter_of_ok hread] at hsame
    rw [bind_of_ok hread, hsame]
    cases hlocate : fs.locate .creation target with
    | ok spot => exact absurd hlocate (hnowhere spot)
    | error e =>
      have hopen : openForWriting target true fs = .error e fs :=
        bind_of_error (locate_eq_error.2 ⟨hlocate, rfl⟩)
      exact ⟨e, bind_of_error hopen⟩

/-- A file that cannot be renamed cannot be copied either, and nothing changes. -/
theorem moveByCopy_file_eq_error (hs : s.IsClean) (hu : u.IsClean) (aimed : Text) {bytes : Bytes}
    (hp : fs.Names s.toText p) (ht : fs.node? p = some (.file bytes))
    (hfree : fs.isDirectory u.toText = false) {e : Failure} {after : FileSystem}
    (hrename : rename s.toText u.toText fs = .error e after) :
    ∃ e', moveByCopy s.toText aimed u.toText fs = .error e' fs := by
  have hlink : fs.isLink s.toText = false := hp.isLink_eq ht
  have hdir : fs.isDirectory s.toText = false := hp.isDirectory_eq hs ht rfl
  have hnodir : ∀ q, fs.Names u.toText q → ¬ fs.IsDirectoryAt q := by
    intro q hq hqdir
    exact isDirectory_eq_false_iff.1 hfree q (hq.leads hu hqdir)
  obtain ⟨e', hcopy⟩ := copyFile_eq_error s.toText hfree
    (locate_ne_ok_of_rename_eq_error hs hu hp ht rfl hnodir hrename)
  exact ⟨e', (moveByCopy_of_file hlink hdir).trans (bind_of_error hcopy)⟩

/-- A link that cannot be renamed cannot be made anew either. -/
theorem moveByCopy_link_ne_ok {source aimed target : Text} {bytes : Bytes} {e : Failure}
    {after : FileSystem} (hp : fs.Names source p) (ht : fs.node? p = some (.link bytes))
    (hrename : rename source target fs = .error e after) :
    moveByCopy source aimed target fs ≠ .ok () later := by
  intro h
  rw [moveByCopy_of_link (hp.isLink_eq ht)] at h
  obtain ⟨read, mid, hread, hrest⟩ := bind_eq_ok.1 h
  obtain ⟨-, rfl⟩ := readLink_eq_ok.1 hread
  obtain ⟨done, made, hmake, -⟩ := bind_eq_ok.1 hrest
  obtain ⟨q, hq, -⟩ := makeLink_eq_ok.1 hmake
  obtain ⟨-, hdir, hvacant⟩ := shows_of_locate hq
  have htaken : mid.locate .entry source = .ok (.taken p (.link bytes)) := by
    rw [hp, spotAt_of_node? ht]
  -- the place of the new link is vacant, and nothing stands below the old one
  have hnodir : ¬ mid.IsDirectoryAt p := fun hpdir =>
    hpdir.not_isPrefix_of_file ht rfl (List.prefix_refl p)
  have hpq : ¬ p <+: q := by
    intro hpre
    by_cases heq : p = q
    · exact bare?_ne_none_of_node? ht (heq ▸ hvacant)
    · exact hnodir (isDirectoryAt_of_properPrefix hpre heq hdir)
  have hp0 : p ≠ [] := fun h0 => hnodir (h0 ▸ isDirectoryAt_root)
  have hgranted := (rename_to_vacant htaken hq).2 ⟨hp0, by simp, hpq, rfl⟩
  rw [hrename] at hgranted
  cases hgranted

/-- **What a renaming or a copy carries.** -/
theorem carried_of_renameOrCopy (hs : s.IsClean) (hu : u.IsClean) (aimed : Text)
    (hp : fs.Names s.toText p) (ht : fs.node? p = some t) (hfree : fs.isDirectory u.toText = false)
    (h : renameOrCopy s.toText aimed u.toText fs = .ok () later) :
    ∃ q, fs.landing? u.toText = some q ∧ Carried fs later s.toText aimed p q t := by
  rw [renameOrCopy, tryCatch_eq_ok] at h
  rcases h with h | ⟨e, after, hrename, h⟩
  · exact carried_of_rename hs hu aimed hp ht h
  obtain rfl := rename_eq_error hrename
  split at h
  · cases t with
    | directory es => exact carried_of_moveByCopy_directory hs hu aimed hp ht h
    | file bytes =>
      obtain ⟨e', herror⟩ := moveByCopy_file_eq_error hs hu aimed hp ht hfree hrename
      rw [herror] at h
      cases h
    | link target => exact absurd h (moveByCopy_link_ne_ok hp ht hrename)
  · cases h

/-! ## The root -/

/-- The root is not renamed. -/
theorem rename_root_ne_ok (hs : s.IsClean) (hroot : s.parts = []) (target : Text) :
    rename s.toText target fs ≠ .ok () later := by
  intro h
  rw [rename, bind_locateAmong_eq_ok] at h
  obtain ⟨a, ha, h⟩ := h
  rw [bind_locateAmong_eq_ok] at h
  obtain ⟨b, hb, h⟩ := h
  rw [locate_root hs hroot, spotAt_of_node? rfl] at ha
  cases ha
  cases h

/-- The root is not removed, and so it is not moved. -/
theorem renameOrCopy_root_ne_ok (hs : s.IsClean) (hroot : s.parts = []) (aimed target : Text) :
    renameOrCopy s.toText aimed target fs ≠ .ok () later := by
  intro h
  rw [renameOrCopy, tryCatch_eq_ok] at h
  rcases h with h | ⟨e, after, -, h⟩
  · exact rename_root_ne_ok hs hroot target h
  split at h
  · have hnames : after.Names s.toText [] := names_root hs hroot
    obtain ⟨-, mid, -, hremove⟩ := eq_ok_of_moveByCopy_directory (hnames.isLink_eq rfl)
      (hnames.isDirectory_eq hs rfl rfl) h
    obtain ⟨p, es, htaken, hremovable, -⟩ := (removeTree_eq_ok hs).1 hremove
    exact hremovable.ne_nil ((names_of_taken htaken).unique (names_root hs hroot))
  · cases h

/-! ## Moving -/

/-- The path that a move goes to: into another directory it goes under the source's name. -/
def goal (fs : FileSystem) (source target : Text) : Text :=
  if fs.isDirectory target && !renamesInPlace source target fs then
    Path.join target (Path.base (Path.withoutTrailingSlashes source))
  else target

theorem goal_eq_target {source target : Text}
    (h : fs.isDirectory target = false ∨ renamesInPlace source target fs = true) :
    goal fs source target = target := by
  rcases h with hdir | hsame
  · simp [goal, hdir]
  · simp [goal, hsame]

theorem goal_eq_join {source target : Text} (hdir : fs.isDirectory target = true)
    (hsame : renamesInPlace source target fs = false) :
    goal fs source target = Path.join target (Path.base (Path.withoutTrailingSlashes source)) := by
  simp [goal, hdir, hsame]

theorem not_isDirectory_of_not_isPresent {path : Text} (h : fs.isPresent path = false) :
    fs.isDirectory path = false := by
  refine isDirectory_eq_false_iff.2 ?_
  intro d hleads
  rw [hleads.isPresent] at h
  cases h

theorem move_root_ne_ok (hs : s.IsClean) (hroot : s.parts = []) (target : Text) :
    move s.toText target fs ≠ .ok () later := by
  intro h
  rw [move, bind_ask_eq_ok] at h
  split at h
  · rw [bind_ask_eq_ok] at h
    split at h
    · exact rename_root_ne_ok hs hroot _ h
    · rw [bind_ask_eq_ok] at h
      split at h
      · cases h
      · exact renameOrCopy_root_ne_ok hs hroot _ _ h
  · exact renameOrCopy_root_ne_ok hs hroot _ _ h

/-- **What a move carries.** -/
theorem carried_of_move (hs : s.IsClean) (hu : u.IsClean) (hp : fs.Names s.toText p)
    (ht : fs.node? p = some t) (hroot : s.parts ≠ [])
    (h : move s.toText u.toText fs = .ok () later) :
    ∃ q, fs.landing? (goal fs s.toText u.toText) = some q ∧
      Carried fs later s.toText u.toText p q t := by
  rw [move, bind_ask_eq_ok] at h
  cases hdir : fs.isDirectory u.toText with
  | false =>
    simp only [hdir, Bool.false_eq_true, if_false] at h
    rw [goal_eq_target (.inl hdir)]
    exact carried_of_renameOrCopy hs hu _ hp ht hdir h
  | true =>
    simp only [hdir, if_true] at h
    rw [bind_ask_eq_ok] at h
    cases hsame : renamesInPlace s.toText u.toText fs with
    | true =>
      simp only [hsame, if_true] at h
      rw [goal_eq_target (.inr hsame)]
      exact carried_of_rename hs hu _ hp ht h
    | false =>
      simp only [hsame, Bool.false_eq_true, if_false] at h
      rw [bind_ask_eq_ok] at h
      split at h
      · cases h
      next hpresent =>
      have hpart := hs.isPart _ (List.getLast_mem hroot)
      rw [goal_eq_join hdir hsame]
      rw [Spelling.withoutTrailingSlashes_toText hs hroot, Spelling.base_toText_getLast hs hroot,
        Spelling.join_toText hu hpart] at h hpresent ⊢
      exact carried_of_renameOrCopy hs (hu.append_singleton hpart) _ hp ht
        (not_isDirectory_of_not_isPresent (by simpa using hpresent)) h

/-- **A move moves** what it is asked to move. -/
theorem moved_of_move (hs : s.IsClean) (hu : u.IsClean) (hp : fs.Names s.toText p)
    (ht : fs.node? p = some t) (hroot : s.parts ≠ [])
    (h : move s.toText u.toText fs = .ok () later) :
    ∃ q, fs.landing? (goal fs s.toText u.toText) = some q ∧ Moved fs later p q t := by
  obtain ⟨q, hlanding, hcarried⟩ := carried_of_move hs hu hp ht hroot h
  exact ⟨q, hlanding, hcarried.moved hp (fun h0 => hroot ((hp.eq_nil_iff hs).1 h0)) ht⟩

end Disk

namespace Verb

variable {shell later : Shell} {result : Result}

/-- The path that `mv` goes to: into a directory it goes under the source's name. -/
def destination (fs : FileSystem) (source target : Text) : Text :=
  Disk.goal fs source
    (if fs.isDirectory target then Path.join target (Path.base source) else target)

/-- Into a directory or not, the path that `mv` asks a move for is clean and starts as the second
argument does. -/
theorem exists_clean_aimed {s u : Spelling} (hs : s.IsClean) (hroot : s.parts ≠ [])
    (hu : u.IsClean) (fs : FileSystem) :
    ∃ v : Spelling, v.IsClean ∧ v.anchor = u.anchor ∧ (if fs.isDirectory u.toText then
      Path.join u.toText (Path.base s.toText) else u.toText) = v.toText := by
  split
  · have hpart := hs.isPart _ (List.getLast_mem hroot)
    rw [Spelling.base_toText_getLast hs hroot, Spelling.join_toText hu hpart]
    exact ⟨_, hu.append_singleton hpart, rfl, rfl⟩
  · exact ⟨u, hu, rfl, rfl⟩

/-- `mv` turns its source down and changes nothing, or it asks for a move of something. -/
theorem runMv_cases (shell : Shell) (sourceName targetName : Text) (more : List Text) :
    let source := shell.session.resolve sourceName
    let target := shell.session.resolve targetName
    (∃ result, runMv (sourceName :: targetName :: more) shell = .ok result shell ∧
        result.isOk = false) ∨
      shell.files.hasEntry source = true ∧
        runMv (sourceName :: targetName :: more) shell =
          (do
            Action.onDisk (Disk.move source
              (if shell.files.isDirectory target then Path.join target (Path.base source)
                else target))
            return .success "File moved successfully and original file deleted." : Action Result)
            shell := by
  intro source target
  rw [runMv, bind_of_ok (Action.session_eq shell)]
  simp only
  rw [bind_of_ok (Action.get_eq shell)]
  split
  · exact .inl ⟨_, rfl, rfl⟩
  next hentry =>
  split
  · exact .inl ⟨_, rfl, rfl⟩
  · exact .inr ⟨by simpa using hentry, rfl⟩

/-- When `mv` succeeds, its source is there and a move has succeeded. -/
theorem exists_move_of_runMv {sourceName targetName : Text} {more : List Text}
    (h : runMv (sourceName :: targetName :: more) shell = .ok result later)
    (hok : result.isOk = true) :
    shell.files.hasEntry (shell.session.resolve sourceName) = true ∧
      ∃ files, Disk.move (shell.session.resolve sourceName)
          (if shell.files.isDirectory (shell.session.resolve targetName) then
            Path.join (shell.session.resolve targetName)
              (Path.base (shell.session.resolve sourceName))
          else shell.session.resolve targetName) shell.files = .ok () files ∧
        later = ⟨shell.session, files⟩ := by
  rcases runMv_cases shell sourceName targetName more with ⟨refused, hrun, hfails⟩ | ⟨hentry, hrun⟩
  · rw [hrun] at h
    cases h
    rw [hok] at hfails
    cases hfails
  · rw [hrun] at h
    obtain ⟨done, mid, hmove, hend⟩ := bind_eq_ok.1 h
    cases hend
    exact ⟨hentry, Action.onDisk_eq_ok.1 hmove⟩

/-- When `mv` succeeds, both paths are clean, the first is not the root and names something, and a
move of that has succeeded. -/
theorem exists_spellings_of_runMv {sourceName targetName : Text} {more : List Text}
    (hcwd : Path.isAbsolute shell.session.cwd = true)
    (hhome : Path.isAbsolute shell.session.home = true)
    (h : runMv (sourceName :: targetName :: more) shell = .ok result later)
    (hok : result.isOk = true) :
    ∃ s u : Spelling, s.IsClean ∧ u.IsClean ∧ s.parts ≠ [] ∧
      shell.session.resolve sourceName = s.toText ∧ shell.session.resolve targetName = u.toText ∧
      ∃ p t files, shell.files.locate .entry s.toText = .ok (.taken p t) ∧
        Disk.move s.toText (if shell.files.isDirectory u.toText then
          Path.join u.toText (Path.base s.toText) else u.toText) shell.files = .ok () files ∧
        later = ⟨shell.session, files⟩ := by
  obtain ⟨hentry, files, hmove, hlater⟩ := exists_move_of_runMv h hok
  obtain ⟨s, hs, hsource⟩ := Path.exists_clean_resolve sourceName hcwd hhome
  obtain ⟨u, hu, htarget⟩ := Path.exists_clean_resolve targetName hcwd hhome
  change shell.session.resolve sourceName = s.toText at hsource
  change shell.session.resolve targetName = u.toText at htarget
  rw [hsource] at hentry
  rw [hsource, htarget] at hmove
  obtain ⟨p, t, htaken⟩ := hasEntry_iff.1 hentry
  have hroot : s.parts ≠ [] := fun hnil => Disk.move_root_ne_ok hs hnil _ hmove
  exact ⟨s, u, hs, hu, hroot, hsource, htarget, p, t, files, htaken, hmove, hlater⟩

/-- **`mv` loses nothing but a directory that it copies into itself.**  If it succeeds on something
that is no link, that has arrived where the destination lands unless that place lies inside it, and
every other file is still there except one that stood at that place. -/
theorem moved_of_mv {verb sourceName targetName : Text} {more : List Text}
    (hcwd : Path.isAbsolute shell.session.cwd = true)
    (hhome : Path.isAbsolute shell.session.home = true)
    (h : mv.run (verb :: sourceName :: targetName :: more) shell = .ok result later)
    (hok : result.isOk = true) :
    ∃ p t, shell.files.found? .entry (shell.session.resolve sourceName) = some (p, t) ∧
      (t.isLink = false →
        ∃ q, shell.files.landing? (destination shell.files (shell.session.resolve sourceName)
            (shell.session.resolve targetName)) = some q ∧
          Moved shell.files later.files p q t) := by
  have hrun : runMv (sourceName :: targetName :: more) shell = .ok result later := h
  obtain ⟨s, u, hs, hu, hroot, hsource, htarget, p, t, files, htaken, hmove, rfl⟩ :=
    exists_spellings_of_runMv hcwd hhome hrun hok
  have hp := names_of_taken htaken
  have ht : shell.files.node? p = some t := shows_of_locate htaken
  rw [hsource, htarget]
  refine ⟨p, t, found?_eq_some_iff.2 htaken, ?_⟩
  intro _
  have hpart := hs.isPart _ (List.getLast_mem hroot)
  rw [destination]
  split at hmove
  · next hdir =>
    rw [Spelling.base_toText_getLast hs hroot, Spelling.join_toText hu hpart] at hmove
    rw [if_pos hdir, Spelling.base_toText_getLast hs hroot, Spelling.join_toText hu hpart]
    exact Disk.moved_of_move hs (hu.append_singleton hpart) hp ht hroot hmove
  · next hdir =>
    rw [if_neg hdir]
    exact Disk.moved_of_move hs hu hp ht hroot hmove

/-- A directory is moved to a path that enters it through a link: `mv` succeeds, and nothing is
left of the directory and its file. -/
theorem mv_into_itself_by_link :
    let a : Name := ⟨[0x61], by decide⟩
    let x : Name := ⟨[0x78], by decide⟩
    let l : Name := ⟨[0x6C], by decide⟩
    let files := ((FileSystem.empty.create [a] (.directory []) Node.tidy_empty).create [a, x]
      (.file [0x31]) (.file _)).create [l] (.link [0x61]) (.link _)
    files.node? [a, x] = some (.file [0x31]) ∧
      (match mv.run ["mv", "a", "l/b"] ⟨⟨"/", "/"⟩, files⟩ with
        | .ok result later => some (result.isOk, later.files.entries)
        | .error _ _ => none) = some (true, [(l, .link [0x61])]) := by
  decide +kernel

/-- A file is moved to another name. -/
theorem moved_of_mv_renamed :
    let x : Name := ⟨[0x78], by decide⟩
    let files := FileSystem.empty.create [x] (.file [0x31]) (.file _)
    let shell : Shell := ⟨⟨"/", "/"⟩, files⟩
    ∃ result later, mv.run ["mv", "x", "y"] shell = .ok result later ∧ result.isOk = true ∧
      ∃ p t, files.found? .entry (shell.session.resolve "x") = some (p, t) ∧
        (t.isLink = false →
          ∃ q, files.landing? (destination files (shell.session.resolve "x")
              (shell.session.resolve "y")) = some q ∧ Moved files later.files p q t) := by
  intro x files shell
  have hrun : (match mv.run ["mv", "x", "y"] shell with
      | .ok result _ => result.isOk
      | .error _ _ => false) = true := by decide +kernel
  cases h : mv.run ["mv", "x", "y"] shell with
  | ok result later =>
    rw [h] at hrun
    exact ⟨result, later, rfl, hrun,
      moved_of_mv (by decide +kernel) (by decide +kernel) h hrun⟩
  | error e later =>
    rw [h] at hrun
    cases hrun

end Verb

end FileShell
