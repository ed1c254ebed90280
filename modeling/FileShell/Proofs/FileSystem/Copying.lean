import FileShell.Proofs.FileSystem.Directories
import FileShell.Proofs.FileSystem.Failures

/-!
# Copying directories

`Disk.copyTree` goes on after a part that could not be copied, and tells in the end; if it has
nothing to tell, everything was copied.  What is new then stands above, at or below the place where
the target lands, and the copy at that place is equal to the source, provided that the place is not
inside the source.

* `Disk.IsCandid`: no failure is a complaint about an empty list of parts.
* `FileSystem.Copied`: what one part has become when it was copied.
* `Disk.allCopied_mapM`: what becomes of all entries of a directory.
* `Disk.copyTree_eq_ok`: what has become of a directory that was copied.
-/

namespace FileShell

open FileSystem Effect

namespace Disk

/-! ## Complaints -/

/-- A failure that does not complain about nothing. -/
def IsCandid (e : Failure) : Prop := e ≠ .move (.incomplete [])

/-- No failure of a request complains about nothing. -/
theorem foresees_candid : Foresees (fun _ => True) IsCandid where
  fault := by simp [IsCandid]
  unencodable := by simp [IsCandid]
  zeroByte := by simp [IsCandid]
  targetTaken := by simp [IsCandid]
  intoItself := by simp [IsCandid]
  incomplete := by simp [IsCandid]
  tooNested := by simp [IsCandid]
  handed _ _ _ _ _ := trivial

/-- If nothing is told about a part that was to be copied, it was copied. -/
theorem eq_ok_of_collect {source target : Text} {action : Disk Unit} {fs later : FileSystem}
    (hcandid : FailsWith IsCandid action) (h : collect source target action fs = .ok [] later) :
    action fs = .ok () later := by
  rw [collect, tryCatch_eq_ok] at h
  rcases h with h | ⟨e, mid, herror, h⟩
  · obtain ⟨a, mid, haction, h⟩ := bind_eq_ok.1 h
    cases h
    exact haction
  · rcases bind_eq_error.1 herror with herror | ⟨a, t, -, herror⟩
    · have he := hcandid fs e mid herror
      split at h
      · cases h
        exact absurd rfl he
      · cases h
      · cases h
    · cases herror

end Disk

/-! ## What a copy leaves as it was -/

namespace FileSystem

variable {fs mid later : FileSystem} {p q r : Location}

/-- Neither of two places is the other or above it. -/
def Apart (p q : Location) : Prop := ¬ p <+: q ∧ ¬ q <+: p

theorem Apart.not_isPrefix (h : Apart p q) (x : Location) : ¬ q <+: p ++ x := by
  intro hpre
  rcases List.prefix_or_prefix_of_prefix hpre (List.prefix_append p x) with hqp | hpq
  · exact h.2 hqp
  · exact h.1 hpq

theorem Apart.below (h : Apart p q) (x y : Location) : Apart (p ++ x) (q ++ y) := by
  constructor
  · intro hpre
    have hsymm : Apart q p := ⟨h.2, h.1⟩
    exact hsymm.not_isPrefix y ((List.prefix_append p x).trans hpre)
  · intro hpre
    exact h.not_isPrefix x ((List.prefix_append q y).trans hpre)

theorem apart_concat {n m : Name} (h : n ≠ m) : Apart (p ++ [n]) (p ++ [m]) := by
  constructor
  · intro hpre
    exact h (List.cons_prefix_cons.1 ((List.prefix_append_right_inj p).1 hpre)).1
  · intro hpre
    exact h (List.cons_prefix_cons.1 ((List.prefix_append_right_inj p).1 hpre)).1.symm

/-- What grows at or below a place changes nothing that stands apart from it. -/
theorem Grown.node?_eq (h : Grown fs later q) (hdir : fs.IsDirectoryAt q.dropLast)
    (hr : Apart r q) : later.node? r = fs.node? r :=
  node?_eq_of_bare fun x => h.below hdir (hr.not_isPrefix x)

/-- What copying a part to a vacant place means: all else stays, and if the source can name nothing
but the part and that stands apart from the place, the place holds the same in the end. -/
structure Copied (fs later : FileSystem) (source : Text) (t : Node) (q : Location) : Prop where
  vacant : fs.bare? q = none
  grown : Grown fs later q
  faithful : ∀ p, (∀ p', fs.Names source p' → p' = p) → Apart p q → fs.node? p = some t →
    later.node? q = some t

/-- The times do not matter. -/
theorem Copied.of_entries {source : Text} {t : Node} (h : Copied fs mid source t q)
    (hentries : later.entries = mid.entries) : Copied fs later source t q := by
  have hsame : ∀ r, later.node? r = mid.node? r := by
    intro r
    rw [node?, node?, hentries]
  have hbare : ∀ r, later.bare? r = mid.bare? r := by
    intro r
    rw [bare?, bare?, hsame]
  refine ⟨h.vacant, ⟨?_, ?_⟩, ?_⟩
  · intro r u hr
    rw [hbare]
    exact h.grown.kept r u hr
  · intro r hr hr'
    rw [hbare]
    exact h.grown.apart r hr hr'
  · intro p hp hpq ht
    rw [hsame]
    exact h.faithful p hp hpq ht

/-- What a path leads to is what stands at the place that it names, unless that is a link. -/
theorem eq_of_locate_target {s : Spelling} (hs : s.IsClean) {t u : Node}
    (hp : fs.locate .target s.toText = .ok (.taken p u)) (hr : ∀ p', fs.Names s.toText p' → p' = r)
    (ht : fs.node? r = some t) (hlink : t.isLink = false) : p = r ∧ u = t := by
  obtain ⟨p', hnames⟩ := exists_names_of_locate hs hp
  obtain rfl := hr p' hnames
  have hlocate := locate_of_names hs hnames (bare?_ne_link ht hlink) .target
  rw [hp, spotAt_of_node? ht] at hlocate
  cases hlocate
  exact ⟨rfl, rfl⟩

end FileSystem

namespace Disk

variable {fs later : FileSystem} {q : Location} {s u : Spelling}

/-! ## Copying one entry -/

theorem copied_link (hu : u.IsClean) (hplace : ∀ p, fs.Names u.toText p → p = q)
    {target : Bytes}
    (h : (do makeLink (← readLink s.toText) u.toText : Disk Unit) fs = .ok () later) :
    Copied fs later s.toText (.link target) q := by
  obtain ⟨bytes, mid, hread, hmake⟩ := bind_eq_ok.1 h
  obtain ⟨⟨p, hp⟩, rfl⟩ := readLink_eq_ok.1 hread
  obtain ⟨q', hq', rfl⟩ := makeLink_eq_ok.1 hmake
  obtain rfl := hplace q' (names_of_vacant hu hq')
  obtain ⟨hq0, hdir, hvacant⟩ := shows_of_locate hq'
  have hnode := node?_create (.link bytes) hq0 hdir
  refine ⟨hvacant, grown_create _ hq0 hdir hvacant, ?_⟩
  intro p' hp' _ ht
  obtain rfl := hp' p (names_of_taken hp)
  rw [shows_of_locate hp] at ht
  cases ht
  exact hnode

/-- A path to a vacant place does not lead to anything. -/
theorem locate_of_vacant (hu : u.IsClean) (hplace : ∀ p, fs.Names u.toText p → p = q)
    (hvacant : fs.bare? q = none) {aim : Aim} {spot : Spot}
    (h : fs.locate aim u.toText = .ok spot) : spot = .vacant q false ∧ fs.Names u.toText q := by
  obtain ⟨p, hp⟩ := exists_names_of_locate hu h
  obtain rfl := hplace p hp
  have hlocate := locate_of_names hu hp (fun target => by simp [hvacant]) aim
  rw [h, spotAt_of_vacant (bare?_eq_none_iff.1 hvacant)] at hlocate
  exact ⟨Except.ok.inj hlocate, hp⟩

/-- So there is no directory at a path that can name a vacant place only. -/
theorem isDirectory_of_vacant (hu : u.IsClean) (hplace : ∀ p, fs.Names u.toText p → p = q)
    (hvacant : fs.bare? q = none) : fs.isDirectory u.toText = false := by
  refine isDirectory_eq_false_iff.2 ?_
  intro d hd
  obtain ⟨hspot, -⟩ := locate_of_vacant hu hplace hvacant (found?_eq_some_iff.1 hd)
  cases hspot

theorem copyTimeOf_entries {source target : Text} (h : copyTimeOf source target fs = .ok () later) :
    later.entries = fs.entries := by
  rw [copyTimeOf, bind_locate_eq_ok] at h
  obtain ⟨a, -, h⟩ := h
  rw [bind_locate_eq_ok] at h
  obtain ⟨b, -, h⟩ := h
  split at h
  · cases h
    simp only
    split <;> rfl
  · cases h
  · cases h

/-- A file is made empty, and then the bytes are put into it. -/
theorem written_of_vacant {bytes : Bytes} (hq : q ≠ []) (hdir : fs.IsDirectoryAt q.dropLast)
    (hvacant : fs.bare? q = none)
    (h : append q bytes (fs.create q (.file []) (.file [])) = .ok () later) :
    Grown fs later q ∧ later.node? q = some (.file bytes) := by
  have hgrown := grown_create (.file []) hq hdir hvacant
  rw [append_of_file (node?_create (.file []) hq hdir)] at h
  cases h
  split
  · next hempty =>
    rw [hempty]
    exact ⟨hgrown, node?_create (.file []) hq hdir⟩
  · have hdir' := hgrown.kept _ _ hdir
    refine ⟨grown_of_below hvacant ?_, node?_write hq hdir'⟩
    intro r hr
    rw [bare?_write hq hdir', if_neg hr]
    exact hgrown.below hdir hr

theorem copied_file (hs : s.IsClean) (hu : u.IsClean) (hplace : ∀ p, fs.Names u.toText p → p = q)
    (hvacant : fs.bare? q = none) {content : Bytes}
    (h : copyFile s.toText u.toText fs = .ok () later) :
    Copied fs later s.toText (.file content) q := by
  have hnodir := isDirectory_of_vacant hu hplace hvacant
  rw [copyFile, bind_ask_eq_ok] at h
  simp only [hnodir, Bool.false_eq_true, if_false] at h
  obtain ⟨bytes, mid, hread, hwrite⟩ := bind_eq_ok.1 h
  obtain ⟨place, opened, hopen, hrest⟩ := bind_eq_ok.1 hwrite
  obtain ⟨done, appended, happend, htimes⟩ := bind_eq_ok.1 hrest
  obtain ⟨⟨p, hp⟩, rfl⟩ := readFile_eq_ok.1 hread
  rcases openForWriting_eq_ok.1 hopen with ⟨old, htaken, -⟩ | ⟨slash, hq, rfl⟩
  · obtain ⟨hspot, -⟩ := locate_of_vacant hu hplace hvacant htaken
    cases hspot
  obtain ⟨hspot, -⟩ := locate_of_vacant hu hplace hvacant hq
  cases hspot
  obtain ⟨hq0, hdir, -⟩ := shows_of_locate hq
  obtain ⟨hgrown, hnode⟩ := written_of_vacant hq0 hdir hvacant happend
  have hcopied : Copied mid appended s.toText (.file content) q := by
    refine ⟨hvacant, hgrown, ?_⟩
    intro p' hp' _ ht
    obtain ⟨-, hbytes⟩ := eq_of_locate_target hs hp hp' ht rfl
    rw [hnode, hbytes]
  exact hcopied.of_entries (copyTimeOf_entries htimes)

/-- Under a directory a name can name nothing but its entry. -/
theorem eq_of_names_append (hu : u.IsClean) (hleads : fs.Leads u.toText q) {n : Name} {p : Location}
    (h : fs.Names (u.append [n.toText]).toText p) : p = q ++ [n] := by
  obtain ⟨d, m, rfl, hd, hm⟩ := names_append hu n.isPart_toText h
  rw [hd.unique hleads, Name.ext_bytes (Except.ok.inj (hm.symm.trans n.encode_toText))]

/-- What is assumed of copying directories when the entries of one are copied. -/
def CopiesTrees (depth : Nat) : Prop :=
  ∀ {s u : Spelling} {fs later : FileSystem}, s.IsClean → u.IsClean →
    copyTree depth s.toText u.toText fs = .ok () later →
      ∃ q, fs.landing? u.toText = some q ∧ ∀ es, Copied fs later s.toText (.directory es) q

theorem copied_entry {depth : Nat} (htrees : CopiesTrees depth) (hs : s.IsClean) (hu : u.IsClean)
    (hleads : fs.Leads u.toText q) {e : Name × Node} (hvacant : fs.bare? (q ++ [e.1]) = none)
    (h : copyEntry depth s.toText u.toText e fs = .ok [] later) :
    Copied fs later (s.append [e.1.toText]).toText e.2 (q ++ [e.1]) := by
  obtain ⟨n, t⟩ := e
  have hn := n.isPart_toText
  have hs' := hs.append_singleton hn
  have hu' := hu.append_singleton hn
  have hplace : ∀ p, fs.Names (u.append [n.toText]).toText p → p = q ++ [n] :=
    fun p hp => eq_of_names_append hu hleads hp
  rw [copyEntry] at h
  simp only [Spelling.join_toText hs hn, Spelling.join_toText hu hn] at h
  cases t with
  | link target =>
    refine copied_link hu' hplace (eq_ok_of_collect ?_ h)
    exact failsWith_bind (foresees_candid.readLink fun _ _ => trivial) fun bytes =>
      foresees_candid.makeLink (fun _ _ => trivial) bytes
  | directory es =>
    have hcandid : FailsWith IsCandid
        (copyTree depth (s.append [n.toText]).toText (u.append [n.toText]).toText) :=
      foresees_candid.copyTree (fun _ _ => trivial) (fun _ _ => trivial) depth
    obtain ⟨r, hlanding, hcopied⟩ := htrees hs' hu' (eq_ok_of_collect hcandid h)
    rw [landing?_of_leads hu hn n.encode_toText hleads] at hlanding
    cases hlanding
    exact hcopied es
  | file content =>
    have hcandid : FailsWith IsCandid
        (copyFile (s.append [n.toText]).toText (u.append [n.toText]).toText) :=
      foresees_candid.copyFile (fun _ _ => trivial) fun _ _ => trivial
    exact copied_file hs' hu' hplace hvacant (eq_ok_of_collect hcandid h)

/-- What copying entries one after another into a directory means. -/
structure AllCopied (fs later : FileSystem) (source : Text) (es : Entries) (q : Location) :
    Prop where
  grown : Grown fs later q
  others : ∀ n, (∀ e ∈ es, e.1 ≠ n) → later.node? (q ++ [n]) = fs.node? (q ++ [n])
  faithful : ∀ p, fs.Leads source p → Apart p q → (∀ e ∈ es, fs.node? (p ++ [e.1]) = some e.2) →
    ∀ e ∈ es, later.node? (q ++ [e.1]) = some e.2

/-- **All entries of a directory are copied** if there is nothing to tell in the end. -/
theorem allCopied_mapM {depth : Nat} (htrees : CopiesTrees depth) (hs : s.IsClean)
    (hu : u.IsClean) {es : Entries} (hes : es.Pairwise fun a b => a.1 ≠ b.1)
    (hleads : fs.Leads u.toText q) (hvacant : ∀ e ∈ es, fs.bare? (q ++ [e.1]) = none)
    {failed : List (List Uncopied)} (hfailed : failed.flatten = [])
    (h : es.mapM (copyEntry depth s.toText u.toText) fs = .ok failed later) :
    AllCopied fs later s.toText es q := by
  induction es generalizing fs failed with
  | nil =>
    cases h
    exact ⟨Grown.refl _ q, fun _ _ => rfl, fun _ _ _ _ e he => absurd he List.not_mem_nil⟩
  | cons e rest ih =>
    rw [List.mapM_cons] at h
    obtain ⟨first, mid, hfirst, h'⟩ := bind_eq_ok.1 h
    obtain ⟨more, last, hmore, hlast⟩ := bind_eq_ok.1 h'
    cases hlast
    rw [List.flatten_cons, List.append_eq_nil_iff] at hfailed
    obtain ⟨rfl, hfailed⟩ := hfailed
    obtain ⟨hfresh, hrest⟩ := List.pairwise_cons.1 hes
    have hne : ∀ x ∈ rest, x.1 ≠ e.1 := fun x hx => Ne.symm (hfresh x hx)
    have hone := copied_entry htrees hs hu hleads (hvacant e List.mem_cons_self) hfirst
    have hdir : fs.IsDirectoryAt (q ++ [e.1]).dropLast := by
      rw [List.dropLast_concat]
      exact hleads.isDirectoryAt
    -- the other names of the directory are untouched, so the rest can be copied as well
    have hother : ∀ n, n ≠ e.1 → mid.node? (q ++ [n]) = fs.node? (q ++ [n]) :=
      fun n hn => hone.grown.node?_eq hdir (apart_concat hn)
    have hall := ih hrest (hleads.mono hone.grown.kept) (fun x hx => by
      rw [bare?, hother x.1 (hne x hx)]
      exact hvacant x (List.mem_cons_of_mem _ hx)) hfailed hmore
    refine ⟨hone.grown.above.trans hall.grown, ?_, ?_⟩
    · intro n hn
      rw [hall.others n fun x hx => hn x (List.mem_cons_of_mem _ hx),
        hother n (Ne.symm (hn e List.mem_cons_self))]
    · intro p hp hpq hsource x hx
      rcases List.mem_cons.1 hx with rfl | hx
      · rw [hall.others x.1 hne]
        refine hone.faithful (p ++ [x.1]) ?_ (hpq.below _ _) (hsource x List.mem_cons_self)
        intro p' hp'
        exact eq_of_names_append hs hp hp'
      · refine hall.faithful p (hp.mono hone.grown.kept) hpq ?_ x hx
        intro y hy
        rw [hone.grown.node?_eq hdir (hpq.below _ _)]
        exact hsource y (List.mem_cons_of_mem _ hy)

/-! ## Copying a directory -/

/-- If its place held nothing under other names, a directory into which all entries were copied is
equal to the one that they come from. -/
theorem AllCopied.node?_eq {source : Text} {es ds : Entries} {p : Location}
    (h : AllCopied fs later source es q) (hmem : ∀ e, e ∈ es ↔ e ∈ ds) (hq : fs.IsDirectoryAt q)
    (hp : fs.Leads source p) (hpq : Apart p q) (hds : fs.node? p = some (.directory ds))
    (hempty : ∀ n, fs.node? (q ++ [n]) = none) : later.node? q = some (.directory ds) := by
  have hlater := isDirectoryAt_iff.1 (h.grown.kept q _ hq)
  have hfind : ∀ e ∈ es, ds.find? e.1 = some e.2 := fun e he =>
    Entries.find?_of_mem (pairwise_of_node? hds) ((hmem e).1 he)
  rw [hlater]
  refine congrArg (some ∘ Node.directory) (Entries.ext_find? (pairwise_of_node? hlater)
    (pairwise_of_node? hds) fun n => ?_)
  rw [← node?_concat hlater n]
  cases hn : ds.find? n with
  | some t =>
    refine h.faithful p hp hpq (fun e he => ?_) (n, t) ((hmem _).2 (Entries.mem_of_find? hn))
    rw [node?_concat hds, hfind e he]
  | none =>
    rw [h.others n fun e he heq => ?_]
    · exact hempty n
    · rw [← heq, hfind e he] at hn
      cases hn

/-- **What has become of a directory that was copied** without complaint. -/
theorem copyTree_eq_ok (depth : Nat) : CopiesTrees depth := by
  induction depth with
  | zero =>
    intro s u fs later _ _ h
    cases h
  | succ depth ih =>
    intro s u fs later hs hu h
    rw [copyTree_succ] at h
    obtain ⟨es, listed, hlist, hmake⟩ := bind_eq_ok.1 h
    obtain ⟨⟨p, hp, rfl⟩, rfl⟩ := listDirectory_eq_ok.1 hlist
    obtain ⟨done, made, hmade, hcopy⟩ := bind_eq_ok.1 hmake
    obtain ⟨failed, copied, hmapM, htimes⟩ := bind_eq_ok.1 hcopy
    obtain ⟨last, timed, hlast, hend⟩ := bind_eq_ok.1 htimes
    obtain ⟨q, hlanding, hm, hnames⟩ := makeDirectories_eq_ok hu hmade
    have hparts : failed.flatten ++ last = [] := by
      refine Classical.byContradiction ?_
      intro hne
      simp only [ne_eq, hne, not_false_eq_true, if_true] at hend
      cases hend
    simp only [hparts, ne_eq, not_true_eq_false, if_false] at hend
    cases hend
    obtain ⟨hfailed, rfl⟩ := List.append_eq_nil_iff.1 hparts
    have hempty : ∀ n, made.bare? (q ++ [n]) = none := fun n =>
      hm.bare?_below (List.cons_ne_nil n [])
    have hall := allCopied_mapM ih hs hu (pairwise_enumerated listed p)
      (hnames.leads hu hm.isDirectory) (fun e _ => hempty e.1) hfailed hmapM
    refine ⟨q, hlanding, ?_⟩
    intro es'
    have hcopied : Copied listed copied s.toText (.directory es') q := by
      refine ⟨hm.vacant, hm.grown.trans hall.grown, ?_⟩
      intro p' hp' hpq hes
      -- the directory that was listed is the one that the source names
      have hfound := found?_eq_some_iff.1 hp
      obtain ⟨rfl, hsame⟩ := eq_of_locate_target hs hfound hp' hes rfl
      cases hsame
      have hmem : ∀ e, e ∈ listed.enumerated p ↔ e ∈ listed.entriesAt p := fun e =>
        Host.mem_arranged
      refine hall.node?_eq hmem hm.isDirectory (hp.mono hm.kept) hpq ?_ fun n =>
        bare?_eq_none_iff.1 (hempty n)
      rw [← hes]
      exact node?_eq_of_bare fun x => hm.apart _ fun hpre =>
        hpq.1 ((List.prefix_append p x).trans hpre)
    have hcandid : FailsWith IsCandid (copyTimeOf s.toText u.toText) :=
      foresees_candid.copyTimeOf (fun _ _ => trivial) fun _ _ => trivial
    exact hcopied.of_entries (copyTimeOf_entries (eq_ok_of_collect hcandid hlast))

end Disk

end FileShell
