import FileShell.Proofs.FileSystem.Descendants
import FileShell.Proofs.FileSystem.Requests

/-!
# Emptying and removing directories

A directory is removed in two moves: it is emptied by way of the places in it, and then it is
removed under its path.  The first comes to an end exactly if nothing stands too deep; whatever
comes of it, nothing changes but what is in the directory, and there nothing is added.  The second
finds the directory only if the path does not go through something that was in it.

* `FileSystem.Thinned`: a file system of which only some of what was in one directory is missing.
* `Disk.thinned_emptyDirectory`, `empties`: what emptying does, and when it ends.
* `FileSystem.Removable`: a directory that can be removed under its path.
* `Disk.removeTree_eq_ok`, `removeTree_eq_error`: when a tree is removed, and what is left if not.
-/

namespace FileShell

open Effect

namespace FileSystem

variable {fs mid later : FileSystem} {p q r : Location} {n : Name} {levels : Nat}

/-! ## A directory with less in it -/

/-- Of what is in one directory some may be missing; everything else is as it was. -/
structure Thinned (fs later : FileSystem) (p : Location) : Prop where
  outside : ∀ r, (p <+: r → r = p) → later.bare? r = fs.bare? r
  inside : ∀ r, later.bare? r = fs.bare? r ∨ later.bare? r = none
  times : later.times.forgetBelow p = fs.times.forgetBelow p
  host : later.host = fs.host

theorem Thinned.refl (fs : FileSystem) (p : Location) : Thinned fs fs p :=
  ⟨fun _ _ => rfl, fun _ => .inl rfl, rfl, rfl⟩

theorem Thinned.trans (h : Thinned fs mid p) (h' : Thinned mid later p) : Thinned fs later p where
  outside r hr := (h'.outside r hr).trans (h.outside r hr)
  inside r := by
    rcases h'.inside r with heq | hnone
    · rw [heq]
      exact h.inside r
    · exact .inr hnone
  times := h'.times.trans h.times
  host := h'.host.trans h.host

theorem Thinned.bare?_self (h : Thinned fs later p) : later.bare? p = fs.bare? p :=
  h.outside p fun _ => rfl

theorem Thinned.ne_none (h : Thinned fs later p) (hr : later.bare? r ≠ none) :
    fs.bare? r ≠ none := by
  rcases h.inside r with heq | hnone
  · rwa [← heq]
  · exact absurd hnone hr

/-- The times forgotten below a place stay forgotten at the place above. -/
theorem forgetBelow_forgetBelow (hpq : p <+: q) (times : Times) :
    (times.forgetBelow q).forgetBelow p = times.forgetBelow p := by
  rw [Times.forgetBelow, Times.forgetBelow, Times.forgetBelow, List.filter_filter]
  refine List.filter_congr fun t _ => ?_
  simp only [Bool.and_eq_left_iff_imp, Bool.not_eq_true', ← Bool.not_eq_true,
    List.isPrefixOf_iff_prefix]
  exact fun hp hq => hp (hpq.trans hq)

theorem forgetBelow_forget (hpq : p <+: q) (times : Times) :
    (times.forget q).forgetBelow p = times.forgetBelow p := by
  rw [Times.forgetBelow, Times.forget, Times.forgetBelow, List.filter_filter]
  refine List.filter_congr fun t _ => ?_
  simp only [Bool.and_eq_left_iff_imp, Bool.not_eq_true', ← Bool.not_eq_true,
    List.isPrefixOf_iff_prefix, decide_eq_true_eq]
  exact fun hp hq => hp (hq ▸ hpq)

/-- What is thinner in a directory is thinner in the directory above. -/
theorem Thinned.above (h : Thinned fs later (p ++ [n])) : Thinned fs later p where
  outside r hr := by
    refine h.outside r fun hpre => ?_
    have hself := hr ((List.prefix_append p [n]).trans hpre)
    rw [hself] at hpre
    exact absurd hpre.length_le (by simp)
  inside := h.inside
  times := by
    have hpre := List.prefix_append p [n]
    rw [← forgetBelow_forgetBelow hpre, h.times, forgetBelow_forgetBelow hpre]
  host := h.host

/-- An entry of a directory is discarded. -/
theorem thinned_discard (hdir : fs.IsDirectoryAt p) (n : Name) :
    Thinned fs (fs.discard (p ++ [n])) p := by
  have hbare := @bare?_discard fs (p ++ [n]) (by simp) (by rwa [List.dropLast_concat])
  refine ⟨?_, ?_, ?_, rfl⟩
  · intro r hr
    rw [hbare, if_neg]
    intro hpre
    have hself := hr ((List.prefix_append p [n]).trans hpre)
    rw [hself] at hpre
    exact absurd hpre.length_le (by simp)
  · intro r
    rw [hbare]
    split
    · exact .inr rfl
    · exact .inl rfl
  · show ((fs.times.forgetBelow (p ++ [n])).forget (p ++ [n]).dropLast).forgetBelow p = _
    rw [List.dropLast_concat, forgetBelow_forget (List.prefix_refl p),
      forgetBelow_forgetBelow (List.prefix_append p [n])]

/-- It makes no difference to a directory that is discarded how much of it was left. -/
theorem Thinned.discard_eq (h : Thinned fs later p) (hp : p ≠ []) (hdir : fs.IsDirectoryAt p) :
    later.discard p = fs.discard p := by
  have habove : ∀ {f : FileSystem}, f.IsDirectoryAt p → f.IsDirectoryAt p.dropLast := fun hf =>
    isDirectoryAt_of_isPrefix (List.dropLast_prefix p) hf
  refine ext_of_bare (fun r => ?_) (congrArg (Times.forget p.dropLast) h.times) h.host
  rw [bare?_discard hp (habove (h.bare?_self.trans hdir)), bare?_discard hp (habove hdir)]
  split
  · rfl
  · next hr => exact h.outside r fun hpre => absurd hpre hr

/-! ## An emptied directory -/

/-- The file system with nothing in a directory. -/
def emptied (fs : FileSystem) (p : Location) : FileSystem :=
  fs.create p (.directory []) Node.tidy_empty

theorem bare?_emptied (hp : p ≠ []) (hdir : fs.IsDirectoryAt p) (r : Location) :
    (fs.emptied p).bare? r =
      if r = p then some (.directory []) else if p <+: r then none else fs.bare? r := by
  rw [emptied, bare?_create Node.tidy_empty hp
    (isDirectoryAt_of_isPrefix (List.dropLast_prefix p) hdir)]
  by_cases hself : r = p
  · rw [hself, if_pos (List.prefix_refl p), if_pos rfl, List.drop_length]
    rfl
  rw [if_neg hself]
  by_cases hpre : p <+: r
  · have hbelow : r.drop p.length ≠ [] := by
      obtain ⟨x, rfl⟩ := hpre
      simpa using hself
    rw [if_pos hpre, if_pos hpre, Node.at?_of_entries_eq_nil rfl hbelow]
    rfl
  · rw [if_neg hpre, if_neg hpre]

/-- A directory of which nothing is left is like one that was emptied. -/
theorem Thinned.bare?_eq_emptied (h : Thinned fs later p) (hp : p ≠ []) (hdir : fs.IsDirectoryAt p)
    (hnil : later.entriesAt p = []) (r : Location) : later.bare? r = (fs.emptied p).bare? r := by
  rw [bare?_emptied hp hdir]
  by_cases hself : r = p
  · rw [if_pos hself, hself, h.bare?_self]
    exact hdir
  rw [if_neg hself]
  by_cases hpre : p <+: r
  · obtain ⟨x, rfl⟩ := hpre
    rw [if_pos (List.prefix_append p x)]
    exact entriesAt_eq_nil_iff.1 hnil x (by simpa using hself)
  · rw [if_neg hpre]
    exact h.outside r fun h' => absurd h' hpre

/-- What is thinned keeps nothing that was not there. -/
theorem Thinned.kept (h : Thinned fs later p) (r : Location) (t : Node)
    (hr : later.bare? r = some t) : fs.bare? r = some t := by
  rcases h.inside r with heq | hnone
  · rw [← heq, hr]
  · rw [hnone] at hr
    cases hr

/-- The directory at a place can be removed under a path: nothing stands too deep in it, and the
path still leads to it when it is empty. -/
structure Removable (fs : FileSystem) (path : Text) (p : Location) : Prop where
  ne_nil : p ≠ []
  fits : fs.Fits (fs.host.nesting .removal) p
  still : (fs.emptied p).locate .entry path = .ok (.taken p (.directory []))

end FileSystem

namespace Disk

open FileSystem

variable {fs later : FileSystem} {p : Location} {levels : Nat} {path : Text} {e : Name × Node}

/-! ## Emptying -/

/-- Removes one entry of a directory, with what is below it. -/
def removeEntry (levels : Nat) (p : Location) (e : Name × Node) : Disk Unit := do
  if e.2.isDirectory then emptyDirectory levels (p ++ [e.1])
  modify (·.discard (p ++ [e.1]))

theorem removeEntry_of_directory (h : e.2.isDirectory = true) :
    removeEntry levels p e =
      (emptyDirectory levels (p ++ [e.1]) >>= fun _ => modify (·.discard (p ++ [e.1]))) := by
  rw [removeEntry, if_pos h]

theorem removeEntry_of_file (h : e.2.isDirectory = false) :
    removeEntry levels p e = modify (·.discard (p ++ [e.1])) := by
  rw [removeEntry, h]
  rfl

theorem emptyDirectory_succ (levels : Nat) (p : Location) (fs : FileSystem) :
    emptyDirectory (levels + 1) p fs = (fs.enumerated p).forM (removeEntry levels p) fs := rfl

/-- **Whatever comes of it, emptying a directory touches nothing but what is in it.** -/
theorem thinned_emptyDirectory (levels : Nat) (p : Location) (fs : FileSystem) :
    Thinned fs (stateAfter (emptyDirectory levels p) fs) p := by
  induction levels generalizing p fs with
  | zero => exact Thinned.refl fs p
  | succ levels ih =>
    rw [stateAfter, emptyDirectory_succ, ← stateAfter]
    by_cases hdir : fs.IsDirectoryAt p
    · refine keeps_forM (I := (Thinned fs · p)) (fun e _ => ?_) fs (Thinned.refl fs p)
      have hdiscard : Keeps (Thinned fs · p) (modify (·.discard (p ++ [e.1])) : Disk PUnit) :=
        keeps_modify fun mid hmid => hmid.trans (thinned_discard (hmid.bare?_self.trans hdir) e.1)
      cases hedir : e.2.isDirectory with
      | false =>
        rw [removeEntry_of_file hedir]
        exact hdiscard
      | true =>
        rw [removeEntry_of_directory hedir]
        exact keeps_bind (fun mid hmid => hmid.trans (ih _ mid).above) fun _ => hdiscard
    · have hnone : fs.enumerated p = [] := by
        refine List.eq_nil_iff_forall_not_mem.2 fun e he => hdir ?_
        exact isDirectoryAt_of_below (List.cons_ne_nil e.1 [])
          (bare?_ne_none_of_node? (mem_enumerated_iff.1 he))
      rw [hnone]
      exact Thinned.refl fs p

/-- The removal of one entry touches nothing that is not at or below its place. -/
theorem bare?_removeEntry (hdir : fs.IsDirectoryAt p) (levels : Nat) (e : Name × Node)
    {r : Location} (hr : ¬ p ++ [e.1] <+: r) :
    (stateAfter (removeEntry levels p e) fs).bare? r = fs.bare? r := by
  have hdiscard : ∀ mid : FileSystem, mid.IsDirectoryAt p →
      (mid.discard (p ++ [e.1])).bare? r = mid.bare? r := by
    intro mid hmid
    rw [bare?_discard (by simp) (by rwa [List.dropLast_concat]), if_neg hr]
  cases hedir : e.2.isDirectory with
  | false =>
    rw [removeEntry_of_file hedir]
    exact hdiscard fs hdir
  | true =>
    have hthin := thinned_emptyDirectory levels (p ++ [e.1]) fs
    have hsame := hthin.outside r fun hpre => absurd hpre hr
    rw [removeEntry_of_directory hedir]
    refine stateAfter_bind (I := fun f : FileSystem => f.bare? r = fs.bare? r) hsame ?_
    intro _ mid hmid hrmid
    rw [stateAfter_of_ok hmid] at hthin
    exact (hdiscard mid (hthin.above.bare?_self.trans hdir)).trans hrmid

/-- While one entry is removed, the directory stays and so does what is in it under other names. -/
theorem removeEntry_spares (hdir : fs.IsDirectoryAt p) (levels : Nat) (e : Name × Node) :
    (stateAfter (removeEntry levels p e) fs).IsDirectoryAt p ∧
      ∀ n, e.1 ≠ n → ∀ y, (stateAfter (removeEntry levels p e) fs).bare? (p ++ [n] ++ y) =
        fs.bare? (p ++ [n] ++ y) := by
  constructor
  · exact (bare?_removeEntry hdir levels e fun hpre => absurd hpre.length_le (by simp)).trans hdir
  · intro n hn y
    refine bare?_removeEntry hdir levels e fun hpre => hn ?_
    simpa using hpre

/-- What is assumed of emptying directories when the entries of one are removed: it ends exactly if
nothing stands too deep, and then nothing is left. -/
def Empties (levels : Nat) : Prop :=
  ∀ p (fs : FileSystem), fs.IsDirectoryAt p →
    (fs.Fits levels p → ∃ later, emptyDirectory levels p fs = .ok () later) ∧
    ∀ later, emptyDirectory levels p fs = .ok () later →
      fs.Fits levels p ∧ later.entriesAt p = []

variable {es : Entries}

theorem removeEntry_eq_ok (hempties : Empties levels) (hdir : fs.IsDirectoryAt p)
    (he : fs.node? (p ++ [e.1]) = some e.2) :
    (fs.Fits levels (p ++ [e.1]) → ∃ later, removeEntry levels p e fs = .ok () later) ∧
      ∀ later, removeEntry levels p e fs = .ok () later →
        fs.Fits levels (p ++ [e.1]) ∧ later.bare? (p ++ [e.1]) = none := by
  have hgone : ∀ f : FileSystem, f.IsDirectoryAt p →
      (f.discard (p ++ [e.1])).bare? (p ++ [e.1]) = none := by
    intro f hf
    rw [bare?_discard (by simp) (by rwa [List.dropLast_concat]), if_pos (List.prefix_refl _)]
  cases htdir : e.2.isDirectory with
  | false =>
    rw [removeEntry_of_file htdir]
    have hfits : fs.Fits levels (p ++ [e.1]) := fits_of_file he htdir
    refine ⟨fun _ => ⟨_, rfl⟩, ?_⟩
    rintro later ⟨⟩
    exact ⟨hfits, hgone fs hdir⟩
  | true =>
    obtain ⟨es, hes⟩ := Node.isDirectory_iff.1 htdir
    have hedir := isDirectoryAt_of_node? (hes ▸ he)
    obtain ⟨hends, hclears⟩ := hempties (p ++ [e.1]) fs hedir
    rw [removeEntry_of_directory htdir]
    constructor
    · intro hfits
      obtain ⟨mid, hmid⟩ := hends hfits
      exact ⟨_, bind_of_ok hmid⟩
    · intro later h
      obtain ⟨_, mid, hmid, h⟩ := bind_eq_ok.1 h
      cases h
      have hthin := thinned_emptyDirectory levels (p ++ [e.1]) fs
      rw [stateAfter_of_ok hmid] at hthin
      exact ⟨(hclears mid hmid).1, hgone mid (hthin.above.bare?_self.trans hdir)⟩

/-- What is gone does not come back while other entries are removed. -/
theorem bare?_forM_removeEntry {n : Name} (hne : ∀ x ∈ es, n ≠ x.1) (hdir : fs.IsDirectoryAt p)
    (hgone : fs.bare? (p ++ [n]) = none) :
    (stateAfter (es.forM (removeEntry levels p)) fs).bare? (p ++ [n]) = none := by
  refine (keeps_forM (I := fun f : FileSystem => f.IsDirectoryAt p ∧ f.bare? (p ++ [n]) = none)
    (fun x hx => ?_) fs ⟨hdir, hgone⟩).2
  intro f hf
  obtain ⟨hstill, hspared⟩ := removeEntry_spares hf.1 levels x
  have hsame := hspared n (hne x hx).symm []
  rw [List.append_nil] at hsame
  exact ⟨hstill, hsame.trans hf.2⟩

/-- The entries of a directory one after another: each is still there when its turn comes, as they
have different names. -/
theorem forM_removeEntry_eq_ok (hempties : Empties levels)
    (hes : es.Pairwise fun a b => a.1 ≠ b.1) (hdir : fs.IsDirectoryAt p)
    (hthere : ∀ e ∈ es, fs.node? (p ++ [e.1]) = some e.2) :
    ((∀ e ∈ es, fs.Fits levels (p ++ [e.1])) →
        ∃ later, es.forM (removeEntry levels p) fs = .ok () later) ∧
      ∀ later, es.forM (removeEntry levels p) fs = .ok () later →
        (∀ e ∈ es, fs.Fits levels (p ++ [e.1])) ∧ ∀ e ∈ es, later.bare? (p ++ [e.1]) = none := by
  induction es generalizing fs with
  | nil => exact ⟨fun _ => ⟨fs, rfl⟩, fun _ _ => by simp⟩
  | cons e rest ih =>
    obtain ⟨hne, hrest⟩ := List.pairwise_cons.1 hes
    obtain ⟨hends, hclears⟩ := removeEntry_eq_ok hempties hdir (hthere e List.mem_cons_self)
    rw [List.forM_eq_forM, List.forM_cons]
    have hlater : ∀ mid, removeEntry levels p e fs = .ok () mid → mid.IsDirectoryAt p ∧
        ((∀ x ∈ rest, fs.Fits levels (p ++ [x.1])) →
          ∃ later, rest.forM (removeEntry levels p) mid = .ok () later) ∧
        ∀ later, rest.forM (removeEntry levels p) mid = .ok () later →
          (∀ x ∈ rest, fs.Fits levels (p ++ [x.1])) ∧
            ∀ x ∈ rest, later.bare? (p ++ [x.1]) = none := by
      intro mid hmid
      obtain ⟨hmiddir, hspared⟩ := removeEntry_spares hdir levels e
      rw [stateAfter_of_ok hmid] at hmiddir hspared
      have hsame := fun x hx => hspared x.1 (hne x hx)
      obtain ⟨hends', hclears'⟩ := ih hrest hmiddir fun x hx => by
        rw [node?_eq_of_bare (hsame x hx)]
        exact hthere x (List.mem_cons_of_mem _ hx)
      refine ⟨hmiddir, fun hfits => hends' fun x hx => (hfits x hx).of_bare (hsame x hx), ?_⟩
      intro later hrun
      obtain ⟨hfits, hgone⟩ := hclears' later hrun
      exact ⟨fun x hx => (hfits x hx).of_bare fun y => (hsame x hx y).symm, hgone⟩
    constructor
    · intro hfits
      obtain ⟨mid, hmid⟩ := hends (hfits e List.mem_cons_self)
      obtain ⟨later, hrun⟩ := (hlater mid hmid).2.1 fun x hx => hfits x (List.mem_cons_of_mem _ hx)
      exact ⟨later, (bind_of_ok hmid).trans hrun⟩
    · intro later hrun
      obtain ⟨_, mid, hmid, hrun⟩ := bind_eq_ok.1 hrun
      obtain ⟨hmiddir, -, hcleared⟩ := hlater mid hmid
      obtain ⟨hfits, hgone⟩ := hcleared later hrun
      obtain ⟨hfirst, hnone⟩ := hclears mid hmid
      refine ⟨List.forall_mem_cons.2 ⟨hfirst, hfits⟩, List.forall_mem_cons.2 ⟨?_, hgone⟩⟩
      rw [← stateAfter_of_ok hrun]
      exact bare?_forM_removeEntry hne hmiddir hnone

theorem empties (levels : Nat) : Empties levels := by
  induction levels with
  | zero =>
    intro p fs hdir
    refine ⟨fun hfits => absurd hfits (not_fits_zero hdir), ?_⟩
    rintro later ⟨⟩
  | succ levels ih =>
    intro p fs hdir
    rw [emptyDirectory_succ, fits_succ_iff]
    obtain ⟨hends, hclears⟩ := forM_removeEntry_eq_ok ih (pairwise_enumerated fs p) hdir
      fun e he => mem_enumerated_iff.1 he
    refine ⟨hends, fun later hrun => ?_⟩
    obtain ⟨hfits, hgone⟩ := hclears later hrun
    refine ⟨hfits, List.eq_nil_iff_forall_not_mem.2 fun e he => ?_⟩
    -- what is left was there before, and all that was there is gone
    have hthin := thinned_emptyDirectory (levels + 1) p fs
    rw [stateAfter_of_ok ((emptyDirectory_succ levels p fs).trans hrun)] at hthin
    have hleft := bare?_ne_none_of_node? (mem_entriesAt_iff.1 he)
    obtain ⟨t, ht⟩ := Option.ne_none_iff_exists'.1
      (mt bare?_eq_none_iff.2 (hthin.ne_none hleft))
    exact hleft (hgone (e.1, t) (mem_enumerated_iff.2 ht))

/-! ## Removing a directory under its path -/

section Removing

variable {s : Spelling} {failure : Failure}

theorem removeTree_of_taken (h : fs.locate .entry path = .ok (.taken p (.directory es))) :
    removeTree path fs =
      (emptyDirectory (fs.host.nesting .removal) p >>= fun _ => removeDirectory path) fs := by
  rw [removeTree, bind_of_ok (locate_eq_ok.2 ⟨h, rfl⟩)]
  exact bind_of_ok rfl

/-- What is there when the directory has been emptied. -/
theorem emptied_of_emptyDirectory {levels : Nat} (hdir : fs.IsDirectoryAt p)
    (h : emptyDirectory levels p fs = .ok () later) :
    fs.Fits levels p ∧ later.entriesAt p = [] ∧ Thinned fs later p := by
  have hthin := thinned_emptyDirectory levels p fs
  rw [stateAfter_of_ok h] at hthin
  obtain ⟨hfits, hnil⟩ := (empties levels p fs hdir).2 later h
  exact ⟨hfits, hnil, hthin⟩

/-- **When a tree is removed**: its directory can be removed under the path.  Then it is gone with
all that is in it, and nothing else has changed. -/
theorem removeTree_eq_ok (hs : s.IsClean) :
    removeTree s.toText fs = .ok () later ↔
      ∃ p es, fs.locate .entry s.toText = .ok (.taken p (.directory es)) ∧
        fs.Removable s.toText p ∧ later = fs.discard p := by
  constructor
  · intro h
    have hspot := h
    rw [removeTree, bind_locate_eq_ok] at hspot
    obtain ⟨spot, hspot, hend⟩ := hspot
    cases spot with
    | vacant p slash => cases hend
    | taken p t =>
    cases t with
    | file content => cases hend
    | link target => cases hend
    | directory es =>
      rw [removeTree_of_taken hspot] at h
      have hdir := isDirectoryAt_of_node? (shows_of_locate hspot)
      obtain ⟨_, mid, hempty, hremove⟩ := bind_eq_ok.1 h
      obtain ⟨hfits, hnil, hthin⟩ := emptied_of_emptyDirectory hdir hempty
      obtain ⟨q, hq, hq0, rfl⟩ := removeDirectory_eq_ok.1 hremove
      -- the path can lead to no other place than before, since nothing was added
      obtain rfl : q = p := ((names_of_taken hq).mono hs hthin.kept).unique (names_of_taken hspot)
      have hsame : ∀ r, (fs.emptied q).node? r = mid.node? r := fun r =>
        node?_eq_of_bare fun x => (hthin.bare?_eq_emptied hq0 hdir hnil (r ++ x)).symm
      exact ⟨q, es, hspot, ⟨hq0, hfits, (locate_congr hsame).trans hq⟩, hthin.discard_eq hq0 hdir⟩
  · rintro ⟨p, es, hspot, ⟨hp, hfits, hstill⟩, rfl⟩
    have hdir := isDirectoryAt_of_node? (shows_of_locate hspot)
    obtain ⟨mid, hempty⟩ := (empties _ p fs hdir).1 hfits
    obtain ⟨-, hnil, hthin⟩ := emptied_of_emptyDirectory hdir hempty
    have hsame : ∀ r, mid.node? r = (fs.emptied p).node? r := fun r =>
      node?_eq_of_bare fun x => hthin.bare?_eq_emptied hp hdir hnil (r ++ x)
    rw [removeTree_of_taken hspot, bind_of_ok hempty]
    exact removeDirectory_eq_ok.2
      ⟨p, (locate_congr hsame).trans hstill, hp, (hthin.discard_eq hp hdir).symm⟩

/-- Emptying a directory fails only when something stands too deep. -/
theorem failsWith_emptyDirectory (levels : Nat) (p : Location) :
    FailsWith (· = .tooNested []) (emptyDirectory levels p) := by
  induction levels generalizing p with
  | zero =>
    rintro fs e later ⟨⟩
    rfl
  | succ levels ih =>
    intro fs e later h
    rw [emptyDirectory_succ] at h
    refine failsWith_forM (P := (· = .tooNested [])) (fs.enumerated p) (fun entry => ?_)
      fs e later h
    cases hdir : entry.2.isDirectory with
    | false =>
      rw [removeEntry_of_file hdir]
      exact failsWith_modify _
    | true =>
      rw [removeEntry_of_directory hdir]
      exact failsWith_bind (ih _) fun _ => failsWith_modify _

/-- **What is left of a tree that cannot be removed**: everything but what was in it.  That is gone,
unless something stood too deep. -/
theorem removeTree_eq_error (hspot : fs.locate .entry path = .ok (.taken p (.directory es)))
    (h : removeTree path fs = .error failure later) :
    Thinned fs later p ∧ (fs.Fits (fs.host.nesting .removal) p → later.entriesAt p = []) ∧
      (¬ fs.Fits (fs.host.nesting .removal) p → failure = .tooNested []) := by
  have hdir := isDirectoryAt_of_node? (shows_of_locate hspot)
  rw [removeTree_of_taken hspot] at h
  rcases bind_eq_error.1 h with hempty | ⟨_, emptied, hempty, hremove⟩
  · have hthin := thinned_emptyDirectory (fs.host.nesting .removal) p fs
    rw [stateAfter_of_error hempty] at hthin
    refine ⟨hthin, fun hfits => ?_, fun _ => failsWith_emptyDirectory _ p fs failure later hempty⟩
    obtain ⟨cleared, hends⟩ := (empties _ p fs hdir).1 hfits
    cases hempty.symm.trans hends
  · obtain ⟨hfits, hnil, hthin⟩ := emptied_of_emptyDirectory hdir hempty
    rw [removeDirectory_eq_error hremove]
    exact ⟨hthin, fun _ => hnil, fun hdeep => absurd hfits hdeep⟩

/-- A directory that cannot be removed under the path makes the removal fail. -/
theorem exists_removeTree_eq_error (hs : s.IsClean)
    (hspot : fs.locate .entry s.toText = .ok (.taken p (.directory es)))
    (h : ¬ fs.Removable s.toText p) :
    ∃ failure later, removeTree s.toText fs = .error failure later := by
  cases hrun : removeTree s.toText fs with
  | error failure later => exact ⟨failure, later, rfl⟩
  | ok done later =>
    obtain ⟨q, ds, hq, hremovable, -⟩ := (removeTree_eq_ok hs).1 hrun
    cases hspot.symm.trans hq
    exact absurd hremovable h

end Removing

end Disk

end FileShell
