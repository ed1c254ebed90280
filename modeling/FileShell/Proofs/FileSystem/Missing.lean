import Mathlib.Data.List.Induction
import Mathlib.Logic.ExistsUnique
import FileShell.Proofs.FileSystem.Additions
import FileShell.Proofs.FileSystem.Writing

/-!
# Filling in what is missing

A path is missing if it leads to nothing, links followed.  A path that begins another one is there
as soon as the other one is, so what is missing of a path is its end, and a directory is made for
each missing beginning, the short ones first.  The beginnings are told apart as texts and what is
made for them at places, which links keep apart from the texts; but each one leads to the directory
that was made for it, and no two lead to the same.

* `Spelling.Begins`, `FileSystem.Missing`: the beginnings of a path, and those that are missing.
* `FileSystem.Fills`: what is new are directories, one for each missing beginning.
* `Disk.fills_of_makeDirectory`: one more directory is made.
* `Disk.fills_of_makeDirectories`: what making a directory with the ones above it adds.
-/

namespace FileShell

/-! ## The beginnings of a path -/

namespace Spelling

variable {s u : Spelling} {t : Text}

/-- The path starts alike, and its parts are the first parts of the other one. -/
def Begins (u s : Spelling) : Prop := u.anchor = s.anchor ∧ u.parts <+: s.parts

theorem Begins.refl (s : Spelling) : s.Begins s := ⟨rfl, List.prefix_refl _⟩

theorem begins_append_iff : u.Begins (s.append [t]) ↔ u.Begins s ∨ u = s.append [t] := by
  obtain ⟨anchor, parts⟩ := u
  simp only [Begins, append, List.prefix_concat_iff, Spelling.mk.injEq]
  constructor
  · rintro ⟨hanchor, hwhole | hpre⟩
    · exact .inr ⟨hanchor, hwhole⟩
    · exact .inl ⟨hanchor, hpre⟩
  · rintro (⟨hanchor, hpre⟩ | ⟨hanchor, hwhole⟩)
    · exact ⟨hanchor, .inr hpre⟩
    · exact ⟨hanchor, .inl hwhole⟩

end Spelling

namespace FileSystem

variable {fs mid later : FileSystem} {s u : Spelling} {t : Text} {p d r : Location} {n : Name}

/-- Nothing is found beyond what is missing. -/
theorem isPresent_of_begins (hs : s.IsClean) (hu : u.Begins s)
    (h : fs.isPresent s.toText = true) : fs.isPresent u.toText = true := by
  obtain ⟨hanchor, more, hparts⟩ := hu
  have heq : s = u.append more := by rw [Spelling.append, hparts, hanchor]
  subst heq
  clear hanchor hparts
  induction more using List.reverseRecOn with
  | nil => simpa [Spelling.append] using h
  | append_singleton more t ih =>
    -- whoever finds the last part has entered the directory in front of it
    have hsplit : u.append (more ++ [t]) = (u.append more).append [t] := by
      simp [Spelling.append]
    rw [hsplit] at hs h
    have hinit : (u.append more).IsClean :=
      ⟨hs.anchored, fun a ha => hs.isPart a (List.mem_append_left [t] ha)⟩
    obtain ⟨p, node, hspot⟩ := isPresent_iff.1 h
    obtain ⟨left, d, n, happroach⟩ :=
      exists_approach hinit (hs.isPart t (List.mem_append_right _ (List.mem_singleton_self t))) hspot
    exact ih hinit (happroach.leads hinit).isPresent

/-- A path that leads to something names an entry. -/
theorem hasEntry_of_isPresent (hs : s.IsClean) (h : fs.isPresent s.toText = true) :
    fs.hasEntry s.toText = true := by
  obtain ⟨p, node, hspot⟩ := isPresent_iff.1 h
  obtain ⟨q, hnames⟩ := exists_names_of_locate hs hspot
  cases hq : fs.bare? q with
  | none =>
    have hvacant := locate_of_names hs hnames (by simp [hq]) .target
    rw [spotAt_of_vacant (bare?_eq_none_iff.1 hq), hspot] at hvacant
    cases hvacant
  | some t =>
    obtain ⟨v, hv, -⟩ := Option.map_eq_some_iff.1 hq
    rw [Names, spotAt_of_node? hv] at hnames
    exact hasEntry_iff.2 ⟨q, v, hnames⟩

/-- A path that names what is new led to nothing: what leads somewhere names an entry, and entries
stay at their places. -/
theorem Survives.not_isPresent (h : Survives fs later) (hs : s.IsClean)
    (hnames : later.Names s.toText p) (hnew : fs.bare? p = none) :
    fs.isPresent s.toText = false := by
  rw [← Bool.not_eq_true]
  intro hpresent
  obtain ⟨q, v, hspot⟩ := hasEntry_iff.1 (hasEntry_of_isPresent hs hpresent)
  have hlater := (names_of_taken hspot).mono hs h
  rw [hnames.unique hlater, bare?_of_node? (shows_of_locate hspot)] at hnew
  cases hnew

/-! ## What is missing of a path, and what is made for it -/

/-- The path begins the other one, and leads to nothing. -/
def Missing (fs : FileSystem) (u s : Spelling) : Prop :=
  u.Begins s ∧ fs.isPresent u.toText = false

/-- Everything that was there is there as it was, every missing beginning of the path leads to a
directory that is new, and every place that is new is such a directory, for one beginning only.  A
place shows another time only if something new stands in it. -/
structure Fills (fs later : FileSystem) (s : Spelling) : Prop where
  survives : Survives fs later
  filled : ∀ u, fs.Missing u s → ∃ r, fs.bare? r = none ∧ later.Leads u.toText r
  added : ∀ r, fs.bare? r = none → later.bare? r ≠ none →
    ∃! u, fs.Missing u s ∧ later.Leads u.toText r
  times : ∀ r, fs.bare? r ≠ none →
    (∀ n, fs.bare? (r ++ [n]) = none → later.bare? (r ++ [n]) = none) →
    later.time? r = fs.time? r

/-- If the path is there, nothing is missing. -/
theorem Fills.refl (hs : s.IsClean) (h : fs.isPresent s.toText = true) : Fills fs fs s where
  survives := Survives.refl fs
  filled := by
    rintro u ⟨hu, habsent⟩
    rw [isPresent_of_begins hs hu h] at habsent
    cases habsent
  added r hr hne := absurd hr hne
  times _ _ _ := rfl

/-- What leads somewhere later, for a beginning that was missing, led there before already. -/
theorem Fills.leads_of_missing (h : Fills fs mid s) (hkept : Survives mid later)
    (hu : fs.Missing u s) (hlater : later.Leads u.toText r) : mid.Leads u.toText r := by
  obtain ⟨q, -, hmid⟩ := h.filled u hu
  rwa [← (hmid.mono hkept).unique hlater]

/-- What is new after one directory was made is that directory. -/
theorem Made.eq_of_new (h : Made fs later (d ++ [n])) (hdir : fs.IsDirectoryAt d)
    (hr : fs.bare? r = none) (hnew : later.bare? r ≠ none) : r = d ++ [n] := by
  by_contra hne
  have hpre : ¬ r <+: d ++ [n] := by
    intro hpre
    have hrd : r <+: d := (List.prefix_concat_iff.1 hpre).resolve_left hne
    exact (isDirectoryAt_of_isPrefix hrd hdir).ne_none hr
  rw [h.apart r hpre] at hnew
  exact hnew hr

end FileSystem

/-! ## Making what is missing -/

namespace Disk

open FileSystem

variable {fs mid later : FileSystem} {s : Spelling} {t : Text}

/-- A place shows another time only if something was made in it. -/
theorem time?_of_makeDirectory {path : Text} (h : makeDirectory path fs = .ok () later)
    {r : Location} (hr : fs.bare? r ≠ none)
    (hstill : ∀ n, fs.bare? (r ++ [n]) = none → later.bare? (r ++ [n]) = none) :
    later.time? r = fs.time? r := by
  obtain ⟨p, slash, hlocate, rfl⟩ := makeDirectory_eq_ok.1 h
  obtain ⟨hp, hdir, hvacant⟩ := shows_of_locate hlocate
  have hpr : ¬ p <+: r := fun hpre => hr (bare?_eq_none_of_isPrefix hpre hvacant)
  refine (Times.lookup_forget ?_).trans (Times.lookup_forgetBelow hpr)
  rintro rfl
  have hlast := hstill (p.getLast hp)
  rw [List.dropLast_concat_getLast hp] at hlast
  exact (made_create hp hdir hvacant).isDirectory.ne_none (hlast hvacant)

/-- **One more directory is made** behind a path of which nothing is missing any more. -/
theorem fills_of_makeDirectory (hs : s.IsClean) (ht : Path.IsPart t) (h : Fills fs mid s)
    (hmake : makeDirectory (s.append [t]).toText mid = .ok () later) :
    Fills fs later (s.append [t]) := by
  have hs' := hs.append_singleton ht
  obtain ⟨d, n, hleads, -, hmade, hnames⟩ := made_of_makeDirectory hs ht hmake
  have hkept : Survives mid later := hmade.kept
  have hplace : later.Leads (s.append [t]).toText (d ++ [n]) := hnames.leads hs' hmade.isDirectory
  have hfree : fs.bare? (d ++ [n]) = none := h.survives.vacant hmade.vacant
  have hmissing : fs.isPresent (s.append [t]).toText = false :=
    (h.survives.trans hkept).not_isPresent hs' hnames hfree
  refine ⟨h.survives.trans hkept, ?_, ?_, ?_⟩
  · rintro u ⟨hu, habsent⟩
    rcases Spelling.begins_append_iff.1 hu with hu | rfl
    · obtain ⟨r, hr, hmid⟩ := h.filled u ⟨hu, habsent⟩
      exact ⟨r, hr, hmid.mono hkept⟩
    · exact ⟨d ++ [n], hfree, hplace⟩
  · intro r hr hnew
    cases hmid : mid.bare? r with
    | none =>
      obtain rfl := hmade.eq_of_new hleads.isDirectoryAt hmid hnew
      refine ⟨s.append [t], ⟨⟨.refl _, hmissing⟩, hplace⟩, ?_⟩
      rintro u ⟨⟨hu, habsent⟩, hlater⟩
      rcases Spelling.begins_append_iff.1 hu with hu | rfl
      · exact absurd hmid (h.leads_of_missing hkept ⟨hu, habsent⟩ hlater).isDirectoryAt.ne_none
      · rfl
    | some v =>
      obtain ⟨u, ⟨⟨hu, habsent⟩, hled⟩, hunique⟩ := h.added r hr (by simp [hmid])
      refine ⟨u, ⟨⟨Spelling.begins_append_iff.2 (.inl hu), habsent⟩, hled.mono hkept⟩, ?_⟩
      rintro w ⟨⟨hw, hwabsent⟩, hlater⟩
      rcases Spelling.begins_append_iff.1 hw with hw | rfl
      · exact hunique w ⟨⟨hw, hwabsent⟩, h.leads_of_missing hkept ⟨hw, hwabsent⟩ hlater⟩
      · rw [← hplace.unique hlater, hmade.vacant] at hmid
        cases hmid
  · intro r hr hstill
    refine (time?_of_makeDirectory hmake (h.survives.ne_none hr) ?_).trans (h.times r hr ?_)
    · exact fun k hk => hstill k (h.survives.vacant hk)
    · exact fun k hk => hkept.vacant (hstill k hk)

theorem fills_of_makeDirectoriesUp {anchor : Anchor} {parts : List Text}
    (hs : Spelling.IsClean ⟨anchor, parts.reverse⟩)
    (h : makeDirectoriesUp anchor parts fs = .ok () later) :
    Fills fs later ⟨anchor, parts.reverse⟩ := by
  induction parts generalizing later with
  | nil =>
    -- the root is there, and is not made
    obtain ⟨q, hlanding, hmade, -⟩ := (makeDirectoriesUp_spec hs).1 later h
    cases hlanding
    cases hmade.vacant
  | cons part above ih =>
    obtain ⟨habove, hpart⟩ := isClean_above hs
    have hstep : ∀ mid, Fills fs mid ⟨anchor, above.reverse⟩ →
        makeDirectory (Spelling.toText ⟨anchor, (part :: above).reverse⟩) mid = .ok () later →
        Fills fs later ⟨anchor, (part :: above).reverse⟩ := by
      intro mid hmid hmake
      rw [toText_reverse_cons] at hmake
      rw [List.reverse_cons]
      exact fills_of_makeDirectory habove hpart hmid hmake
    rcases makeDirectoriesUp_cons h with ⟨hpresent, hmake⟩ | ⟨hmissing, hrest⟩
    · exact hstep fs (.refl habove hpresent) hmake
    rcases hrest with ⟨mid, hup, hmake⟩ | ⟨paths, mid, hup, hmake⟩ | ⟨e, mid, -, hout⟩
    · exact hstep mid (ih habove hup) hmake
    · -- an entry that leads nowhere: no directory can be made behind it
      obtain rfl := (makeDirectoriesUp_spec habove).2 paths mid hup
      rw [toText_reverse_cons] at hmake
      obtain ⟨d, n, hleads, -⟩ := made_of_makeDirectory habove hpart hmake
      rw [hleads.isPresent] at hmissing
      cases hmissing
    · cases hout

/-- **What making a directory with the ones above it adds**: a directory for each beginning of the
path that was missing. -/
theorem fills_of_makeDirectories (hs : s.IsClean)
    (h : makeDirectories s.toText fs = .ok () later) : Fills fs later s := by
  rw [makeDirectories, Spelling.ofText_toText hs] at h
  have hrev : (⟨s.anchor, s.parts.reverse.reverse⟩ : Spelling) = s := by
    rw [List.reverse_reverse]
  have hclean : Spelling.IsClean ⟨s.anchor, s.parts.reverse.reverse⟩ := hrev.symm ▸ hs
  have hfills := fills_of_makeDirectoriesUp hclean h
  rwa [hrev] at hfills

end Disk

end FileShell
