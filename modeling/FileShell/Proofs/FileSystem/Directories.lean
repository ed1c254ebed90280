import FileShell.Proofs.FileSystem.Requests

/-!
# Making the directories above a place

`Disk.makeDirectories` makes a directory and those above it that are missing.  If it succeeds, the
new directories are the ones on one way down from a directory that was there, and where that way
ends could be told beforehand: it is the place where the path *lands*.

* `FileSystem.landing?`: the place that a path would lead to once the directories above are made.
* `FileSystem.Grown`: a file system holds what another one holds, and more on one way down.
* `Disk.makeDirectories_eq_ok`: what making directories has made.
-/

namespace FileShell

/-- The name that a part of a path is encoded to. -/
def Name.ofText? (t : Text) : Option Name :=
  match t.encode with
  | .ok b => ofBytes? b
  | .error _ => none

theorem Name.ofText?_of_encode {t : Text} {n : Name} (h : t.encode = .ok n.bytes) :
    ofText? t = some n := by
  rw [ofText?, h]
  exact ofBytes?_bytes n

theorem Name.encode_of_ofText? {t : Text} {n : Name} (h : ofText? t = some n) :
    t.encode = .ok n.bytes := by
  unfold ofText? at h
  split at h
  · next b hb => rw [hb, bytes_of_ofBytes? h]
  · cases h

namespace FileSystem

/-! ## Landing -/

/-- The directory that a path leads to. -/
def directoryAt? (fs : FileSystem) (path : Text) : Option Location :=
  match fs.found? .target path with
  | some (d, .directory _) => some d
  | _ => none

/-- The place of the path with the given parts (the last part first), once the directories above it
are made. -/
def landingUp? (fs : FileSystem) (anchor : Anchor) : List Text → Option Location
  | [] => some []
  | part :: above =>
    let d? := match fs.directoryAt? (Spelling.toText ⟨anchor, above.reverse⟩) with
      | some d => some d
      | none => landingUp? fs anchor above
    match d?, Name.ofText? part with
    | some d, some n => some (d ++ [n])
    | _, _ => none

/-- The place of a path, once the directories above it are made. -/
def landing? (fs : FileSystem) (path : Text) : Option Location :=
  let s := Spelling.ofText path
  fs.landingUp? s.anchor s.parts.reverse

variable {fs later : FileSystem} {path : Text} {d q r : Location}

theorem directoryAt?_eq_some_iff : fs.directoryAt? path = some d ↔ fs.Leads path d := by
  rw [leads_iff_exists]
  unfold directoryAt?
  constructor
  · intro h
    split at h
    · next e es hfound =>
      cases h
      exact ⟨es, hfound⟩
    · cases h
  · rintro ⟨es, h⟩
    rw [h]

theorem landing?_toText {s : Spelling} (hs : s.IsClean) :
    fs.landing? s.toText = fs.landingUp? s.anchor s.parts.reverse := by
  rw [landing?, Spelling.ofText_toText hs]

/-- In an existing directory a path lands under its last part. -/
theorem landing?_of_leads {s : Spelling} (hs : s.IsClean) {t : Text} (ht : Path.IsPart t)
    {n : Name} (hn : t.encode = .ok n.bytes) (h : fs.Leads s.toText d) :
    fs.landing? (s.append [t]).toText = some (d ++ [n]) := by
  rw [landing?_toText (hs.append_singleton ht), Spelling.append, List.reverse_append,
    List.reverse_singleton, List.singleton_append, landingUp?, List.reverse_reverse,
    directoryAt?_eq_some_iff.2 h, Name.ofText?_of_encode hn]

/-- A path that names a place lands there. -/
theorem Names.landing? {s : Spelling} (hs : s.IsClean) (h : fs.Names s.toText q) :
    fs.landing? s.toText = some q := by
  rcases approach_cases hs h with hp | ⟨u, t, left, d, n, hu, ht, rfl, happroach⟩
  · rw [h.unique (names_root hs hp), landing?_toText hs, hp]
    rfl
  · rw [h.unique happroach.names]
    exact landing?_of_leads hu ht happroach.encode (happroach.leads hu)

/-! ## Growing -/

/-- Everything stays as it is, and what is new stands above, at or below one place. -/
structure Grown (fs later : FileSystem) (q : Location) : Prop where
  kept : ∀ r t, fs.bare? r = some t → later.bare? r = some t
  apart : ∀ r, ¬ r <+: q → ¬ q <+: r → later.bare? r = fs.bare? r

theorem Grown.refl (fs : FileSystem) (q : Location) : Grown fs fs q :=
  ⟨fun _ _ => id, fun _ _ _ => rfl⟩

theorem Grown.trans {last : FileSystem} (h : Grown fs later q) (h' : Grown later last q) :
    Grown fs last q :=
  ⟨fun r t ht => h'.kept r t (h.kept r t ht),
    fun r hr hr' => (h'.apart r hr hr').trans (h.apart r hr hr')⟩

/-- What is new below a directory is new below what is above it. -/
theorem Grown.above {n : Name} (h : Grown fs later (q ++ [n])) : Grown fs later q := by
  refine ⟨h.kept, ?_⟩
  intro r hr hr'
  refine h.apart r ?_ ?_
  · intro hpre
    rcases List.prefix_concat_iff.1 hpre with rfl | hpre
    · exact hr' (List.prefix_append q [n])
    · exact hr hpre
  · intro hpre
    exact hr' ((List.prefix_append q [n]).trans hpre)

/-- Under an existing directory, only what is at or below the place can be new. -/
theorem Grown.below (h : Grown fs later q) (hdir : fs.IsDirectoryAt q.dropLast) (hr : ¬ q <+: r) :
    later.bare? r = fs.bare? r := by
  by_cases hpre : r <+: q
  · have hrdir := isDirectoryAt_of_properPrefix hpre (fun heq => hr (heq ▸ List.prefix_refl r)) hdir
    rw [h.kept r _ hrdir, hrdir]
  · exact h.apart r hpre hr

/-- The directories above a place are made, and the place itself becomes an empty directory. -/
structure Made (fs later : FileSystem) (q : Location) : Prop where
  vacant : fs.bare? q = none
  isDirectory : later.IsDirectoryAt q
  kept : ∀ r t, fs.bare? r = some t → later.bare? r = some t
  apart : ∀ r, ¬ r <+: q → later.bare? r = fs.bare? r

theorem Made.grown (h : Made fs later q) : Grown fs later q := ⟨h.kept, fun r hr _ => h.apart r hr⟩

/-- Nothing stands below a directory that was just made. -/
theorem Made.bare?_below (h : Made fs later q) (hr : r ≠ []) : later.bare? (q ++ r) = none := by
  have hpre : ¬ q ++ r <+: q := by
    intro hpre
    have hlen := hpre.length_le
    rw [List.length_append] at hlen
    exact hr (List.length_eq_zero_iff.1 (by omega))
  rw [h.apart _ hpre]
  exact bare?_eq_none_of_isPrefix (List.prefix_append q r) h.vacant

theorem Made.trans {mid : FileSystem} {n : Name} (h : Made fs mid d)
    (h' : Made mid later (d ++ [n])) : Made fs later (d ++ [n]) where
  vacant := bare?_eq_none_of_isPrefix (List.prefix_append d [n]) h.vacant
  isDirectory := h'.isDirectory
  kept r t ht := h'.kept r t (h.kept r t ht)
  apart r hr :=
    (h'.apart r hr).trans (h.apart r fun hpre => hr (hpre.trans (List.prefix_append d [n])))

/-- Changes at and below a vacant place. -/
theorem grown_of_below (hvacant : fs.bare? q = none)
    (h : ∀ r, ¬ q <+: r → later.bare? r = fs.bare? r) : Grown fs later q := by
  refine ⟨?_, fun r _ hr => h r hr⟩
  intro r u hu
  have hr : ¬ q <+: r := by
    intro hpre
    rw [bare?_eq_none_of_isPrefix hpre hvacant] at hu
    cases hu
  rw [h r hr, hu]

theorem grown_create {t : Node} (ht : t.Tidy) (hq : q ≠ []) (hdir : fs.IsDirectoryAt q.dropLast)
    (hvacant : fs.bare? q = none) : Grown fs (fs.create q t ht) q :=
  grown_of_below hvacant fun r hr => by rw [bare?_create ht hq hdir, if_neg hr]

theorem made_create (hq : q ≠ []) (hdir : fs.IsDirectoryAt q.dropLast)
    (hvacant : fs.bare? q = none) :
    Made fs (fs.create q (.directory []) Node.tidy_empty) q where
  vacant := hvacant
  isDirectory := by
    rw [IsDirectoryAt, bare?_create _ hq hdir, if_pos (List.prefix_refl q), List.drop_length]
    rfl
  kept := (grown_create Node.tidy_empty hq hdir hvacant).kept
  apart r hr := by
    rw [bare?_create _ hq hdir]
    split
    · next hpre =>
      obtain ⟨x, rfl⟩ := hpre
      cases x with
      | nil => exact absurd (by simp) hr
      | cons n x =>
        rw [List.drop_left, bare?_eq_none_of_isPrefix (List.prefix_append q (n :: x)) hvacant]
        rfl
    · rfl

end FileSystem

/-! ## Making directories -/

namespace Disk

variable {fs later : FileSystem} {q : Location}

open FileSystem Effect

/-- One directory is made in the directory above it. -/
theorem made_of_makeDirectory {s : Spelling} (hs : s.IsClean) {t : Text} (ht : Path.IsPart t)
    (h : makeDirectory (s.append [t]).toText fs = .ok () later) :
    ∃ d n, fs.Leads s.toText d ∧ t.encode = .ok n.bytes ∧ Made fs later (d ++ [n]) ∧
      later.Names (s.append [t]).toText (d ++ [n]) := by
  have hs' := hs.append_singleton ht
  obtain ⟨p, slash, hlocate, rfl⟩ := makeDirectory_eq_ok.1 h
  have hnames := names_of_vacant hs' hlocate
  obtain ⟨hp, hdir, hvacant⟩ := shows_of_locate hlocate
  obtain ⟨d, n, rfl, hleads, hn⟩ := names_append hs ht hnames
  have hmade := made_create hp hdir hvacant
  exact ⟨d, n, hleads, hn, hmade, hnames.mono hs' hmade.kept⟩

/-- How the step for the last part starts: the directory above is there, or was made, or could not
be made because something is there already. -/
theorem makeDirectoriesUp_cons {anchor : Anchor} {part : Text} {above : List Text}
    {out : EStateM.Result Failure FileSystem Unit}
    (h : makeDirectoriesUp anchor (part :: above) fs = out) :
    (fs.isPresent (Spelling.toText ⟨anchor, above.reverse⟩) = true ∧
        makeDirectory (Spelling.toText ⟨anchor, (part :: above).reverse⟩) fs = out) ∨
      fs.isPresent (Spelling.toText ⟨anchor, above.reverse⟩) = false ∧
        ((∃ mid, makeDirectoriesUp anchor above fs = .ok () mid ∧
            makeDirectory (Spelling.toText ⟨anchor, (part :: above).reverse⟩) mid = out) ∨
          (∃ paths mid, makeDirectoriesUp anchor above fs = .error (.fault .alreadyThere paths) mid ∧
            makeDirectory (Spelling.toText ⟨anchor, (part :: above).reverse⟩) mid = out) ∨
          ∃ e mid, (∀ paths, e ≠ .fault .alreadyThere paths) ∧ out = .error e mid) := by
  rw [makeDirectoriesUp, bind_of_ok (ask_eq _)] at h
  cases hpresent : fs.isPresent (Spelling.toText ⟨anchor, above.reverse⟩) with
  | true =>
    simp only [hpresent, Bool.not_true, Bool.false_eq_true, if_false] at h
    exact .inl ⟨rfl, h⟩
  | false =>
    simp only [hpresent, Bool.not_false, if_true] at h
    refine .inr ⟨rfl, ?_⟩
    cases hup : makeDirectoriesUp anchor above fs with
    | ok a mid =>
      rw [bind_of_ok (tryCatch_of_ok hup)] at h
      exact .inl ⟨mid, rfl, h⟩
    | error e mid =>
      by_cases he : ∃ paths, e = .fault .alreadyThere paths
      · obtain ⟨paths, rfl⟩ := he
        rw [bind_of_ok (t := mid) (a := PUnit.unit) ((tryCatch_of_error hup).trans rfl)] at h
        exact .inr (.inl ⟨paths, mid, rfl, h⟩)
      · refine .inr (.inr ⟨e, mid, fun paths heq => he ⟨paths, heq⟩, ?_⟩)
        rw [bind_of_error (t := mid) (e := e) ((tryCatch_of_error hup).trans ?_)] at h
        · exact h.symm
        · split
          · next paths => exact absurd ⟨paths, rfl⟩ he
          · rfl

section Up

variable {anchor : Anchor} {part : Text} {above : List Text}

/-- All but the last part of a clean path, and the last part. -/
theorem isClean_above (hs : Spelling.IsClean ⟨anchor, (part :: above).reverse⟩) :
    Spelling.IsClean ⟨anchor, above.reverse⟩ ∧ Path.IsPart part := by
  refine ⟨⟨hs.anchored, fun t ht => hs.isPart t ?_⟩, hs.isPart part (by simp)⟩
  rw [List.reverse_cons]
  exact List.mem_append_left _ ht

theorem toText_reverse_cons :
    Spelling.toText ⟨anchor, (part :: above).reverse⟩ =
      (Spelling.append ⟨anchor, above.reverse⟩ [part]).toText := by
  rw [List.reverse_cons, Spelling.append]

/-- The directories have been made down to the place where the path lands, which it names now. -/
def MadeUp (fs later : FileSystem) (anchor : Anchor) (parts : List Text) : Prop :=
  ∃ q, fs.landingUp? anchor parts = some q ∧ Made fs later q ∧
    later.Names (Spelling.toText ⟨anchor, parts.reverse⟩) q

/-- The last directory is made in one that was there. -/
theorem madeUp_of_makeDirectory (hs : Spelling.IsClean ⟨anchor, (part :: above).reverse⟩)
    (h : makeDirectory (Spelling.toText ⟨anchor, (part :: above).reverse⟩) fs = .ok () later) :
    MadeUp fs later anchor (part :: above) := by
  obtain ⟨habove, hpart⟩ := isClean_above hs
  rw [toText_reverse_cons] at h
  obtain ⟨d, n, hleads, hn, hmade, hnames⟩ := made_of_makeDirectory habove hpart h
  refine ⟨d ++ [n], ?_, hmade, toText_reverse_cons ▸ hnames⟩
  rw [landingUp?, directoryAt?_eq_some_iff.2 hleads, Name.ofText?_of_encode hn]

/-- The last directory is made in one that was made just before. -/
theorem MadeUp.cons (hs : Spelling.IsClean ⟨anchor, (part :: above).reverse⟩) {mid : FileSystem}
    (hmid : MadeUp fs mid anchor above)
    (hmissing : fs.isPresent (Spelling.toText ⟨anchor, above.reverse⟩) = false)
    (h : makeDirectory (Spelling.toText ⟨anchor, (part :: above).reverse⟩) mid = .ok () later) :
    MadeUp fs later anchor (part :: above) := by
  obtain ⟨habove, hpart⟩ := isClean_above hs
  obtain ⟨e, hlanding, hmadeAbove, hnamesAbove⟩ := hmid
  rw [toText_reverse_cons] at h
  obtain ⟨d, n, hleads, hn, hmade, hnames⟩ := made_of_makeDirectory habove hpart h
  obtain rfl := hleads.unique (hnamesAbove.leads habove hmadeAbove.isDirectory)
  refine ⟨d ++ [n], ?_, hmadeAbove.trans hmade, toText_reverse_cons ▸ hnames⟩
  have hnone : fs.directoryAt? (Spelling.toText ⟨anchor, above.reverse⟩) = none := by
    cases hat : fs.directoryAt? (Spelling.toText ⟨anchor, above.reverse⟩) with
    | none => rfl
    | some d' =>
      rw [(directoryAt?_eq_some_iff.1 hat).isPresent] at hmissing
      cases hmissing
  rw [landingUp?, hnone, hlanding, Name.ofText?_of_encode hn]

/-- Nothing stands yet in a directory that was made just before. -/
theorem MadeUp.not_alreadyThere (hs : Spelling.IsClean ⟨anchor, (part :: above).reverse⟩)
    {mid : FileSystem} (hmid : MadeUp fs mid anchor above) {paths : List Text} :
    makeDirectory (Spelling.toText ⟨anchor, (part :: above).reverse⟩) mid ≠
      .error (.fault .alreadyThere paths) later := by
  intro h
  obtain ⟨habove, hpart⟩ := isClean_above hs
  obtain ⟨e, -, hmadeAbove, hnamesAbove⟩ := hmid
  obtain ⟨rfl, p, t, htaken⟩ := makeDirectory_alreadyThere h
  rw [toText_reverse_cons] at htaken
  obtain ⟨d, n, rfl, hleads, -⟩ := names_append habove hpart (names_of_taken htaken)
  obtain rfl := hleads.unique (hnamesAbove.leads habove hmadeAbove.isDirectory)
  have hvacant := hmadeAbove.bare?_below (List.cons_ne_nil n [])
  rw [bare?_of_node? (shows_of_locate htaken)] at hvacant
  cases hvacant

end Up

/-- **What making directories has made**, if it succeeds; and if it gives up because something is
there already, it has made nothing. -/
theorem makeDirectoriesUp_spec {anchor : Anchor} {parts : List Text}
    (hs : Spelling.IsClean ⟨anchor, parts.reverse⟩) :
    (∀ later, makeDirectoriesUp anchor parts fs = .ok () later → MadeUp fs later anchor parts) ∧
      ∀ paths later, makeDirectoriesUp anchor parts fs = .error (.fault .alreadyThere paths) later →
        later = fs := by
  induction parts with
  | nil =>
    refine ⟨?_, fun paths later h => (makeDirectory_alreadyThere h).1⟩
    intro later h
    obtain ⟨p, slash, hlocate, -⟩ := makeDirectory_eq_ok.1 h
    have hroot := (locate_root hs rfl .entry).symm.trans hlocate
    rw [spotAt_of_node? rfl] at hroot
    cases hroot
  | cons part above ih =>
    obtain ⟨ihok, iherror⟩ := ih (isClean_above hs).1
    constructor
    · intro later h
      rcases makeDirectoriesUp_cons h with ⟨-, hmake⟩ | ⟨hmissing, hrest⟩
      · exact madeUp_of_makeDirectory hs hmake
      rcases hrest with ⟨mid, hup, hmake⟩ | ⟨paths, mid, hup, hmake⟩ | ⟨e, mid, -, hout⟩
      · exact (ihok mid hup).cons hs hmissing hmake
      · obtain rfl := iherror paths mid hup
        exact madeUp_of_makeDirectory hs hmake
      · cases hout
    · intro paths later h
      rcases makeDirectoriesUp_cons h with ⟨-, hmake⟩ | ⟨-, hrest⟩
      · exact (makeDirectory_alreadyThere hmake).1
      rcases hrest with ⟨mid, hup, hmake⟩ | ⟨paths', mid, hup, hmake⟩ | ⟨e, mid, he, hout⟩
      · exact absurd hmake ((ihok mid hup).not_alreadyThere hs)
      · obtain rfl := iherror paths' mid hup
        exact (makeDirectory_alreadyThere hmake).1
      · cases hout
        exact absurd rfl (he paths)

/-- **Making directories makes those on one way down**, to the place where the path lands. -/
theorem makeDirectories_eq_ok {s : Spelling} (hs : s.IsClean)
    (h : makeDirectories s.toText fs = .ok () later) :
    ∃ q, fs.landing? s.toText = some q ∧ Made fs later q ∧ later.Names s.toText q := by
  rw [makeDirectories, Spelling.ofText_toText hs] at h
  have hrev : (⟨s.anchor, s.parts.reverse.reverse⟩ : Spelling) = s := by
    rw [List.reverse_reverse]
  have hclean : Spelling.IsClean ⟨s.anchor, s.parts.reverse.reverse⟩ := hrev.symm ▸ hs
  obtain ⟨q, hlanding, hmade, hnames⟩ := (makeDirectoriesUp_spec hclean).1 later h
  rw [hrev] at hnames
  exact ⟨q, (landing?_toText hs).trans hlanding, hmade, hnames⟩

end Disk

end FileShell
