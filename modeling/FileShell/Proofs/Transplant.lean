import FileShell.Proofs.FileSystem.Standing
import FileShell.Proofs.Moving

/-!
# Moving a directory as one change of the tree

Where there are no links a directory is moved as if it were cut off and put back elsewhere, whether
it was renamed or copied and removed: what stood below it stands below its new place, the missing
directories above that place are made, and nothing else changes.  There is one exception.  The
fallback tells by the texts of the two paths alone whether a directory would go into itself, so it
is taken in by a path that spells the bytes of the directory with other symbols.

* `FileSystem.Transplanted`: a subtree was cut off at one place and put back at another.
* `FileSystem.Carried.transplanted_iff`: this is what a move has done, but into itself.
* `FileSystem.spells_of_landing`: without links a path lands at the place that it spells.
* `Verb.transplanted_of_mv`: what `mv` has done to a directory.
-/

namespace FileShell

open FileSystem Effect

namespace FileSystem

variable {fs mid later : FileSystem} {p q r : Location} {t : Node} {source aimed : Text}

/-! ## Cutting off and putting back -/

/-- What stands at one place and below was cut off there and put back at another place.  Above that
place the missing directories have been made, and all else is as it was. -/
structure Transplanted (fs later : FileSystem) (p q : Location) (t : Node) : Prop where
  stays : p = q → later = fs
  attached : later.node? q = some t
  elsewhere : p ≠ q → ∀ r, ¬ q <+: r → later.bare? r =
    if p <+: r then none
    else if r <+: q ∧ fs.bare? r = none then some (.directory [])
    else fs.bare? r

/-- Above the copy there are directories, and elsewhere nothing is new. -/
theorem Copied.bare?_elsewhere (h : Copied fs mid source t q) (hnames : fs.Names source p)
    (ht : fs.node? p = some t) (hqr : ¬ q <+: r) (hpr : ¬ p <+: r) :
    mid.bare? r = if r <+: q ∧ fs.bare? r = none then some (.directory []) else fs.bare? r := by
  by_cases hrq : r <+: q
  · cases hr : fs.bare? r with
    | some u => simpa [hrq] using h.grown.kept r u hr
    | none =>
      -- the place is above the copy, which is not inside the source then
      have hpq : ¬ p <+: q := by
        intro hpq
        rcases List.prefix_or_prefix_of_prefix hpq hrq with hpre | hpre
        · exact hpr hpre
        · exact not_isPrefix_of_vacant hr ht hpre
      have hq := h.faithful p (fun p' hp' => hp'.unique hnames)
        ⟨hpq, not_isPrefix_of_vacant h.vacant ht⟩ ht
      obtain ⟨x, rfl⟩ := hrq
      have hx : x ≠ [] := by
        rintro rfl
        exact hqr (by simp)
      have habove : mid.bare? r = some (.directory []) :=
        isDirectoryAt_of_below hx (bare?_ne_none_of_node? hq)
      simpa using habove
  · simpa [hrq] using h.grown.apart r hrq hqr

/-- **What a move leaves elsewhere**: nothing where the source was, new directories above the
destination, and the rest as it was. -/
theorem Carried.bare?_elsewhere (h : Carried fs later source aimed p q t)
    (hnames : fs.Names source p) (hp : p ≠ []) (ht : fs.node? p = some t) (hpq : p ≠ q)
    (hqr : ¬ q <+: r) :
    later.bare? r = if p <+: r then none
      else if r <+: q ∧ fs.bare? r = none then some (.directory []) else fs.bare? r := by
  cases h with
  | stayed heq hlater => exact absurd heq hpq
  | renamed hq hdir htakes hlater =>
    have habove : ¬ (r <+: q ∧ fs.bare? r = none) := by
      rintro ⟨hrq, hnone⟩
      have hrdir := isDirectoryAt_of_properPrefix hrq (fun heq => hqr (by simp [heq])) hdir
      exact hrdir.ne_none hnone
    rw [hlater, bare?_relocate ht hp hq hdir htakes.1, if_neg hqr, if_neg habove]
  | copied mid hinside hdir hcopied hlater =>
    have hmid := hcopied.grown.kept p _ (bare?_of_node? ht)
    rw [hlater, bare?_discard hp (isDirectoryAt_dropLast hp (by simp [hmid]))]
    split
    · rfl
    · next hpr => exact hcopied.bare?_elsewhere hnames ht hqr hpr

/-- **A move transplants** what it moves, unless it moves a directory into itself. -/
theorem Carried.transplanted_iff (h : Carried fs later source aimed p q t)
    (hnames : fs.Names source p) (hp : p ≠ []) (ht : fs.node? p = some t) :
    Transplanted fs later p q t ↔ p = q ∨ ¬ p <+: q := by
  have harrives := (h.moved hnames hp ht).arrives
  constructor
  · exact fun htrans => harrives.1 htrans.attached
  · intro hplaces
    refine ⟨?_, harrives.2 hplaces, ?_⟩
    · intro hpq
      cases h with
      | stayed heq hlater => exact hlater
      | renamed hq hdir htakes hlater => exact absurd (by simp [hpq]) htakes.1
      | copied mid hinside hdir hcopied hlater =>
        exact absurd (by simp [hpq]) (not_isPrefix_of_vacant hcopied.vacant ht)
    · exact fun hpq r hqr => h.bare?_elsewhere hnames hp ht hpq hqr

/-! ## Where paths land without links -/

theorem landingUp?_cons_eq_some {anchor : Anchor} {part : Text} {above : List Text}
    (h : fs.landingUp? anchor (part :: above) = some q) :
    ∃ d n, q = d ++ [n] ∧ Name.ofText? part = some n ∧
      (fs.Leads (Spelling.toText ⟨anchor, above.reverse⟩) d ∨
        fs.landingUp? anchor above = some d) := by
  rw [landingUp?] at h
  cases hat : fs.directoryAt? (Spelling.toText ⟨anchor, above.reverse⟩) with
  | some d =>
    cases hpart : Name.ofText? part with
    | some n =>
      simp only [hat, hpart, Option.some.injEq] at h
      exact ⟨d, n, h.symm, rfl, .inl (directoryAt?_eq_some_iff.1 hat)⟩
    | none => simp [hat, hpart] at h
  | none =>
    cases hup : fs.landingUp? anchor above with
    | some d =>
      cases hpart : Name.ofText? part with
      | some n =>
        simp only [hat, hup, hpart, Option.some.injEq] at h
        exact ⟨d, n, h.symm, rfl, .inr rfl⟩
      | none => simp [hat, hup, hpart] at h
    | none => simp [hat, hup] at h

/-- **Without links a path lands at the place that it spells.** -/
theorem spells_of_landing (hfs : fs.LinkFree) {s : Spelling} (hs : s.IsClean)
    (h : fs.landing? s.toText = some q) : Path.Spells s.toText q := by
  obtain ⟨anchor, parts⟩ := s
  rw [landing?_toText hs] at h
  rw [Path.Spells, Spelling.ofText_toText hs]
  -- on the parts, the last one first, as the place is looked up
  rw [← List.reverse_reverse parts] at hs ⊢
  simp only at h ⊢
  generalize parts.reverse = parts at hs h ⊢
  induction parts generalizing q with
  | nil =>
    cases h
    rfl
  | cons part above ih =>
    obtain ⟨habove, -⟩ := Disk.isClean_above hs
    obtain ⟨d, n, rfl, hpart, hd⟩ := landingUp?_cons_eq_some h
    have hspells : above.reverse.map Text.encode = d.map fun n => .ok n.bytes := by
      rcases hd with hleads | hup
      · have hnames := spells_of_names hfs habove (hleads.names hfs habove)
        rwa [Path.Spells, Spelling.ofText_toText habove] at hnames
      · exact ih habove hup
    simp [hspells, Name.encode_of_ofText? hpart]

end FileSystem

namespace Disk

variable {fs later : FileSystem} {p q : Location} {t : Node} {s u : Spelling}

/-- A move goes to the path that it is asked for, or to the source's name in that directory. -/
theorem exists_clean_goal (hs : s.IsClean) (hroot : s.parts ≠ []) (hu : u.IsClean)
    (fs : FileSystem) :
    ∃ g : Spelling, g.IsClean ∧ goal fs s.toText u.toText = g.toText ∧
      (g = u ∨ g = u.append [Path.base s.toText] ∧
        g.toText = Path.join u.toText (Path.base s.toText)) := by
  have hpart := hs.isPart _ (List.getLast_mem hroot)
  unfold goal
  rw [Spelling.withoutTrailingSlashes_toText hs hroot, Spelling.base_toText_getLast hs hroot,
    Spelling.join_toText hu hpart]
  split
  · exact ⟨_, hu.append_singleton hpart, rfl, .inr ⟨rfl, rfl⟩⟩
  · exact ⟨u, hu, rfl, .inl rfl⟩

/-- **Without links a directory is moved into itself only** by a path that spells its bytes with
other symbols, or from the other spelling of the root. -/
theorem apart_of_carried {g : Spelling} (hs : s.IsClean) (hu : u.IsClean)
    (hanchor : s.anchor = u.anchor) (hg : g.IsClean)
    (hgoal : g = u ∨ g = u.append [Path.base s.toText])
    (h : Carried fs later s.toText u.toText p q t) (hp : Path.Spells s.toText p)
    (hq : Path.Spells g.toText q) (halike : Path.SpelledAlike s.toText g.toText) :
    p = q ∨ ¬ p <+: q := by
  cases h with
  | stayed hpq hlater => exact .inl hpq
  | renamed hq' hdir htakes hlater => exact .inr htakes.1
  | copied mid hinside hdir hcopied hlater =>
    by_cases hpq : p <+: q
    · left
      have hparts : s.parts <+: g.parts := by
        have hmap := halike (by rw [hp, hq]; exact hpq.map _)
        rwa [Spelling.ofText_toText hs, Spelling.ofText_toText hg] at hmap
      have hnot : ¬ s.parts <+: u.parts := by
        intro hpre
        rw [Path.isInside_of_isPrefix hs hu hanchor hpre] at hinside
        cases hinside
      rcases hgoal with rfl | rfl
      · exact absurd hparts hnot
      rcases List.prefix_concat_iff.1 hparts with heq | hpre
      · -- the path that the move goes to is the source's own path
        have hsame : u.append [Path.base s.toText] = s := by
          rw [Spelling.append, ← hanchor, ← heq]
        rw [hsame] at hq
        exact hp.unique hq
      · exact absurd hpre hnot
    · exact .inr hpq

end Disk

namespace Verb

variable {shell later : Shell} {result : Result}

/-- **What `mv` does to a directory where there are no links.**  It goes to the path that was named,
or to its own name below it, once or twice.  It is transplanted there if and only if that place is
its own or not inside it; and so it is if both paths start with a single slash and the second does
not spell the bytes of the first with other symbols. -/
theorem transplanted_of_mv {verb sourceName targetName : Text} {more : List Text}
    (hlinks : shell.files.LinkFree) (hcwd : Path.isAbsolute shell.session.cwd = true)
    (hhome : Path.isAbsolute shell.session.home = true)
    (h : mv.run (verb :: sourceName :: targetName :: more) shell = .ok result later)
    (hok : result.isOk = true)
    (hdir : shell.files.isDirectory (shell.session.resolve sourceName) = true) :
    let source := shell.session.resolve sourceName
    let target := shell.session.resolve targetName
    let base := Path.base source
    later.session = shell.session ∧
      ∃ path ∈ [target, Path.join target base, Path.join (Path.join target base) base],
        ∃ p q es, Path.Spells source p ∧ Path.Spells path q ∧
          shell.files.node? p = some (.directory es) ∧
          (Transplanted shell.files later.files p q (.directory es) ↔ p = q ∨ ¬ p <+: q) ∧
          (Path.anchor source = .root → Path.anchor target = .root →
            Path.SpelledAlike source path →
              Transplanted shell.files later.files p q (.directory es)) := by
  intro source target base
  have hrun : runMv (sourceName :: targetName :: more) shell = .ok result later := h
  obtain ⟨s, u, hs, hu, hroot, hs', hu', -, -, files, -, hmove, rfl⟩ :=
    exists_spellings_of_runMv hcwd hhome hrun hok
  refine ⟨rfl, ?_⟩
  change source = s.toText at hs'
  change target = u.toText at hu'
  change shell.files.isDirectory source = true at hdir
  obtain ⟨v, hv, hanchor, haimed⟩ := exists_clean_aimed hs hroot hu shell.files
  obtain ⟨g, hg, hgoal, hway⟩ := Disk.exists_clean_goal hs hroot hv shell.files
  rw [haimed] at hmove
  rw [← hs', ← hu'] at haimed
  -- the directory stands at the place that its path spells
  obtain ⟨p, hleads⟩ := isDirectory_iff.1 hdir
  rw [hs'] at hleads
  have hp := hleads.names hlinks hs
  have ht := isDirectoryAt_iff.1 hleads.isDirectoryAt
  obtain ⟨q, hlanding, hcarried⟩ := Disk.carried_of_move hs hv hp ht hroot hmove
  rw [hgoal] at hlanding
  have hpspells := spells_of_names hlinks hs hp
  have hqspells := spells_of_landing hlinks hg hlanding
  have hiff := hcarried.transplanted_iff hp (fun h0 => hroot ((hp.eq_nil_iff hs).1 h0)) ht
  refine ⟨g.toText, ?_, p, q, _, hs' ▸ hpspells, hqspells, ht, hiff, ?_⟩
  · rcases hway with rfl | ⟨-, hjoin⟩
    · rw [← haimed]
      split <;> simp [base]
    · rw [hjoin, ← haimed]
      split <;> simp [base, hs']
  · intro hsource htarget halike
    rw [hs', hs.anchor_toText] at hsource
    rw [hu', hu.anchor_toText, ← hanchor] at htarget
    rw [hs'] at halike
    exact hiff.2 (Disk.apart_of_carried hs hv (hsource.trans htarget.symm) hg
      (hway.imp_right And.left) hcarried hpspells hqspells halike)

/-- The directory `é` is moved to a path below the two surrogates that spell its two bytes: `mv`
succeeds, and nothing is left of the directory and its file. -/
theorem mv_into_itself_spelled_otherwise :
    let d : Name := ⟨[0xC3, 0xA9], by decide⟩
    let x : Name := ⟨[0x78], by decide⟩
    let files := (FileSystem.empty.create [d] (.directory []) Node.tidy_empty).create [d, x]
      (.file [0x31]) (.file _)
    let shell : Shell := ⟨⟨"/", "/"⟩, files⟩
    let target : Text := [.surrogate 0x4C3, .surrogate 0x4A9, .scalar '/', .scalar 'b']
    files.entries = [(d, .directory [(x, .file [0x31])])] ∧
      Path.anchor (shell.session.resolve "é") = .root ∧
      Path.anchor (shell.session.resolve target) = .root ∧
      files.isDirectory (shell.session.resolve "é") = true ∧
      (match mv.run ["mv", "é", target] shell with
        | .ok result later => some (result.isOk, later.files.entries)
        | .error _ _ => none) = some (true, []) := by
  decide +kernel

/-- The directory `a` goes to a place whose parent is missing, so that it is copied. -/
theorem transplanted_of_mv_copied :
    let a : Name := ⟨[0x61], by decide⟩
    let x : Name := ⟨[0x78], by decide⟩
    let files := (FileSystem.empty.create [a] (.directory []) Node.tidy_empty).create [a, x]
      (.file [0x31]) (.file _)
    let shell : Shell := ⟨⟨"/", "/"⟩, files⟩
    ∃ result later, mv.run ["mv", "a", "b/c"] shell = .ok result later ∧ result.isOk = true ∧
      ∃ path ∈ (["/b/c", "/b/c/a", "/b/c/a/a"] : List Text), ∃ p q es, Path.Spells "/a" p ∧
        Path.Spells path q ∧ Transplanted files later.files p q (.directory es) := by
  intro a x files shell
  have hfiles : files.Standing [] :=
    (FileSystem.standing_empty.create Node.tidy_empty (List.cons_ne_nil a []) isDirectoryAt_root
      (by decide +kernel) FileSystem.at?_empty_ne_link).create (.file [0x31])
      (List.cons_ne_nil a [x])
      (isDirectoryAt_of_node? (node?_create Node.tidy_empty (List.cons_ne_nil a [])
        isDirectoryAt_root)) (by decide +kernel) (FileSystem.at?_file_ne_link [0x31])
  have hrun : (value? (mv.run ["mv", "a", "b/c"]) shell).map Result.isOk = some true := by
    decide +kernel
  obtain ⟨result, hvalue, hok⟩ := Option.map_eq_some_iff.1 hrun
  obtain ⟨later, h⟩ := value?_eq_some_iff.1 hvalue
  have htext : shell.session.resolve "a" = "/a" := by decide +kernel
  obtain ⟨-, path, hpath, p, q, es, hp, hq, -, -, hmoved⟩ :=
    transplanted_of_mv hfiles.linkFree (by decide +kernel) (by decide +kernel) h hok
      (by decide +kernel)
  have halike : ∀ path ∈ (["/b/c", "/b/c/a", "/b/c/a/a"] : List Text),
      Path.SpelledAlike (shell.session.resolve "a") path := by decide +kernel
  have hplaces : (["/b/c", "/b/c/a", "/b/c/a/a"] : List Text) =
      let target := shell.session.resolve "b/c"
      let base := Path.base (shell.session.resolve "a")
      [target, Path.join target base, Path.join (Path.join target base) base] := by decide +kernel
  rw [← hplaces] at hpath
  exact ⟨result, later, h, hok, path, hpath, p, q, es, htext ▸ hp, hq,
    hmoved (by decide +kernel) (by decide +kernel) (halike path hpath)⟩

end Verb

end FileShell
