import FileShell.Proofs.Effects
import FileShell.Proofs.FileSystem.Descendants
import FileShell.Proofs.FileSystem.Relative
import FileShell.Proofs.Looking

/-!
# What `ls` lists

A recursive listing goes through a directory in depth-first order and writes the path of every place
below it, seen from the directory.  At each place it puts the path together anew and asks what it
leads to: as long as no path gets too long, that is what stands at the place.  Links are listed and
not followed, so it ends.  Without `-a` it passes over the hidden names and all that is below them,
without `-r` over all that is not in the directory itself.  It fails if a directory that it enters
stands too deep, whatever else is there.

* `Listing.shows`, `Listing.enters`: is a place listed, and is it entered if it is a directory?
* `Listing.Fits`: no directory that is entered stands too deep.
* `Listing.below_eq`: a listing is the list of the places below, without those that are not shown.
* `Verb.listed_by_ls`: what `ls` answers about a directory.
-/

namespace FileShell

open FileSystem Effect

/-- Names are hidden by the dot that their text starts with. -/
theorem Name.isHidden_iff (n : Name) :
    n.isHidden = true ↔ n.toText.head? = some (.scalar '.') := by
  have hn := n.encode_toText
  unfold isHidden
  cases htext : n.toText with
  | nil => exact absurd htext n.isPart_toText.1
  | cons a rest =>
    rw [htext] at hn
    obtain ⟨x, y, hx, -, hbytes⟩ := Text.encode_cons_eq_ok hn
    obtain ⟨b, more, rfl⟩ := List.exists_cons_of_ne_nil (Symbol.bytes?_ne_nil hx)
    simp only [hbytes, List.cons_append, List.head?_cons, Option.some.injEq, decide_eq_true_eq]
    constructor
    · rintro rfl
      exact (Symbol.bytes?_ascii hx List.mem_cons_self (by decide)).2
    · rintro rfl
      cases hx
      rfl

namespace Listing

variable {l : Listing} {n : Name} {p q : Location} {t : Node}

/-- Is a place below the directory listed?  Hidden names, and what is below them, are only if all
are, and what is further down is only if the listing is recursive. -/
def shows (l : Listing) (p : Location) : Bool :=
  (l.hidden || p.all (!·.isHidden)) && (l.recursive || p.length = 1)

theorem shows_singleton (l : Listing) (n : Name) : l.shows [n] = (l.hidden || !n.isHidden) := by
  simp [shows]

theorem shows_cons (l : Listing) (n : Name) (hp : p ≠ []) :
    l.shows (n :: p) = ((l.hidden || !n.isHidden) && (l.recursive && l.shows p)) := by
  have hlength : p.length ≠ 0 := by simpa using hp
  cases hr : l.recursive <;> cases hh : l.hidden <;> simp [shows, hr, hh, hlength]

/-! ## Places that are entered -/

/-- Is a place entered, if it is a directory?  The directory that is listed is; others are if the
listing is recursive, but not hidden ones, unless all names are listed. -/
def enters (l : Listing) (x : Location) : Bool :=
  x.all fun n => l.recursive && (l.hidden || !n.isHidden)

/-- No directory that is entered stands so many levels below the place or more. -/
def Fits (l : Listing) (fs : FileSystem) (levels : Nat) (p : Location) : Prop :=
  ∀ x, fs.IsDirectoryAt (p ++ x) → l.enters x = true → x.length < levels

variable {fs : FileSystem} {levels : Nat}

theorem not_fits_zero (hdir : fs.IsDirectoryAt p) : ¬ l.Fits fs 0 p := fun h =>
  Nat.not_lt_zero 0 (h [] (by rwa [List.append_nil]) rfl)

theorem enters_singleton (l : Listing) (n : Name) :
    l.enters [n] = (l.recursive && !(!l.hidden && n.isHidden)) := by
  simp [enters]

theorem enters_cons (l : Listing) (n : Name) (x : Location) :
    l.enters (n :: x) = (l.enters [n] && l.enters x) := by
  simp [enters]

theorem fits_succ_iff :
    l.Fits fs (levels + 1) p ↔
      ∀ e ∈ fs.enumerated p, l.enters [e.1] = true → l.Fits fs levels (p ++ [e.1]) := by
  constructor
  · intro h e _ he x hx henters
    have hlt := h (e.1 :: x) (by simpa using hx) (by rw [enters_cons, he, henters]; rfl)
    simpa using hlt
  · intro h x hx henters
    cases x with
    | nil => exact Nat.succ_pos levels
    | cons n x =>
      rw [enters_cons, Bool.and_eq_true] at henters
      exact Nat.succ_lt_succ
        (h _ (mem_enumerated_of_isDirectoryAt hx) henters.1 x (by simpa using hx) henters.2)

/-- What is no directory has none below it that could be entered. -/
theorem fits_of_file (ht : fs.node? p = some t) (hfile : t.isDirectory = false) :
    l.Fits fs levels p := fun x hx _ => FileSystem.fits_of_file ht hfile x hx

theorem fits_of_fits {depth : Nat} (h : fs.Fits depth p) (hle : depth ≤ levels) :
    l.Fits fs levels p := fun x hx _ => Nat.lt_of_lt_of_le (h x hx) hle

/-! ## The listing -/

theorem extend_toText (q : Location) (n : Name) :
    extend q.toText n = Location.toText (q ++ [n]) := by
  unfold extend
  by_cases hq : q = []
  · simp [hq, Location.toText, joinWith]
  · rw [if_neg (Location.toText_ne_nil hq), Location.join_toText hq]

/-- Nothing of an entry is shown that is hidden. -/
theorem filter_shows_of_hidden (hn : (!l.hidden && n.isHidden) = true) {ps : List Location}
    (hps : ∀ p ∈ ps, p ≠ []) : ([n] :: ps.map (n :: ·)).filter l.shows = [] := by
  have hnot : (l.hidden || !n.isHidden) = false := by
    cases hhidden : l.hidden <;> simp_all
  rw [List.filter_eq_nil_iff]
  intro p hp
  rcases List.mem_cons.1 hp with rfl | hp
  · simp [shows_singleton, hnot]
  · obtain ⟨q, hq, rfl⟩ := List.mem_map.1 hp
    simp [shows_cons l n (hps q hq), hnot]

/-- Of any other it is shown, and below it what is shown if the listing is recursive. -/
theorem filter_shows (hn : (!l.hidden && n.isHidden) = false) {ps : List Location}
    (hps : ∀ p ∈ ps, p ≠ []) :
    ([n] :: ps.map (n :: ·)).filter l.shows =
      [n] :: (if l.recursive then ps.filter l.shows else []).map (n :: ·) := by
  have hshown : (l.hidden || !n.isHidden) = true := by
    cases hhidden : l.hidden <;> simp_all
  have hbelow : ∀ p ∈ ps, (l.shows ∘ (n :: ·)) p = (l.recursive && l.shows p) := by
    intro p hp
    rw [Function.comp_apply, shows_cons l n (hps p hp), hshown, Bool.true_and]
  rw [List.filter_cons_of_pos (by rw [shows_singleton, hshown]), List.filter_map,
    List.filter_congr hbelow]
  cases l.recursive <;> simp

/-- What a listing shows below a directory, which is seen from the one that is listed. -/
def shownBelow (l : Listing) (fs : FileSystem) (d : Location) (depth : Nat) (q : Location) :
    List Text :=
  ((fs.descendants depth (d ++ q)).filter l.shows).map fun p => Location.toText (q ++ p)

section Below

variable {d : Location} (hroot : fs.Leads l.root d)
  (hlength : ∀ p : Location, p ≠ [] → fs.node? (d ++ p) ≠ none →
    ∀ c, (Path.join l.root p.toText).encode = .ok c → c.length ≤ pathLimit)

include hroot hlength

/-- A listing enters the directory at the place that it has come to. -/
theorem leads_pathOf (hdir : fs.IsDirectoryAt (d ++ q)) :
    fs.Leads (l.pathOf q.toText) (d ++ q) := by
  unfold pathOf
  by_cases hq : q = []
  · rw [hq, List.append_nil]
    exact hroot
  · have hnode := isDirectoryAt_iff.1 hdir
    rw [if_neg (Location.toText_ne_nil hq)]
    exact found?_join hroot hq hnode rfl (hlength q hq (by simp [hnode]))

/-- At the path of an entry what stands at the place is seen. -/
theorem isRealDirectory_extend {e : Name × Node} (he : e ∈ fs.enumerated (d ++ q)) :
    (fs.isDirectory (Path.join l.root (extend q.toText e.1)) &&
      !fs.isLink (Path.join l.root (extend q.toText e.1))) = e.2.isDirectory := by
  have ht : fs.node? (d ++ (q ++ [e.1])) = some e.2 := by
    rw [← List.append_assoc]
    exact mem_enumerated_iff.1 he
  have hreal := isRealDirectory_join hroot (by simp) ht
  rw [extend_toText, Bool.eq_iff_iff, hreal]
  exact and_iff_left (hlength _ (by simp) (by simp [ht]))

/-- An entry is shown with what is shown below it, once that is. -/
theorem showEntry_eq_ok {e : Name × Node} (he : e ∈ fs.enumerated (d ++ q)) (levels depth : Nat)
    (hbelow : e.2.isDirectory = true → l.enters [e.1] = true →
      l.below levels (Location.toText (q ++ [e.1])) fs =
        .ok (shownBelow l fs d depth (q ++ [e.1])) fs) :
    l.showEntry levels q.toText e fs =
      .ok ((([e.1] :: (fs.descendants depth (d ++ q ++ [e.1])).map (e.1 :: ·)).filter l.shows).map
        fun p => Location.toText (q ++ p)) fs := by
  cases hhidden : !l.hidden && e.1.isHidden with
  | true =>
    rw [showEntry_of_hidden hhidden,
      filter_shows_of_hidden hhidden fun p hp => ne_nil_of_mem_descendants hp]
    rfl
  | false =>
    rw [showEntry_eq hhidden, isRealDirectory_extend hroot hlength he, extend_toText,
      filter_shows hhidden fun p hp => ne_nil_of_mem_descendants hp]
    cases hrecursive : l.recursive with
    | false => rfl
    | true =>
      cases hdir : e.2.isDirectory with
      | false =>
        rw [descendants_of_file (mem_enumerated_iff.1 he) hdir]
        rfl
      | true =>
        have henters : l.enters [e.1] = true := by rw [enters_singleton, hrecursive, hhidden]; rfl
        simp only [Bool.and_self, if_true]
        rw [bind_of_ok (hbelow hdir henters)]
        simp only [shownBelow, List.append_assoc, List.map_cons, List.map_map, Function.comp_def]
        rfl

/-- An entry that is entered is not shown if what is below it cannot be. -/
theorem showEntry_eq_error {e : Name × Node} (he : e ∈ fs.enumerated (d ++ q)) {levels : Nat}
    (hdir : e.2.isDirectory = true) (henters : l.enters [e.1] = true) {failure : Failure}
    (hbelow : l.below levels (Location.toText (q ++ [e.1])) fs = .error failure fs) :
    l.showEntry levels q.toText e fs = .error failure fs := by
  rw [enters_singleton, Bool.and_eq_true, Bool.not_eq_true'] at henters
  rw [showEntry_eq henters.2, isRealDirectory_extend hroot hlength he, henters.1, hdir,
    extend_toText]
  exact bind_of_error hbelow

/-- **An entry is shown unless it is entered and stands too deep**, if that decides over what is
below it. -/
theorem showEntry_cases {e : Name × Node} (he : e ∈ fs.enumerated (d ++ q)) (levels depth : Nat)
    (hbelow : e.2.isDirectory = true →
      (l.Fits fs levels (d ++ q ++ [e.1]) → l.below levels (Location.toText (q ++ [e.1])) fs =
        .ok (shownBelow l fs d depth (q ++ [e.1])) fs) ∧
      (¬ l.Fits fs levels (d ++ q ++ [e.1]) →
        l.below levels (Location.toText (q ++ [e.1])) fs = .error (.tooNested []) fs)) :
    ((l.enters [e.1] = true → l.Fits fs levels (d ++ q ++ [e.1])) →
      l.showEntry levels q.toText e fs =
        .ok ((([e.1] :: (fs.descendants depth (d ++ q ++ [e.1])).map (e.1 :: ·)).filter l.shows).map
          fun p => Location.toText (q ++ p)) fs) ∧
    (¬ (l.enters [e.1] = true → l.Fits fs levels (d ++ q ++ [e.1])) →
      l.showEntry levels q.toText e fs = .error (.tooNested []) fs) := by
  refine ⟨fun hfits => ?_, fun hdeep => ?_⟩
  · exact showEntry_eq_ok hroot hlength he levels depth
      fun hdir henters => (hbelow hdir).1 (hfits henters)
  · obtain ⟨henters, hnot⟩ := Classical.not_imp.1 hdeep
    have hdir : e.2.isDirectory = true := Classical.byContradiction fun hfile =>
      hnot (fits_of_file (mem_enumerated_iff.1 he) (by simpa using hfile))
    exact showEntry_eq_error hroot hlength he hdir henters ((hbelow hdir).2 hnot)

/-- **A listing is the list of the places below**, without those that are not shown, if no directory
that is entered stands too deep; otherwise there is none.  The induction is on the levels that the
listing may still go down; how deep the directories stand is known apart from that. -/
theorem below_eq (levels depth : Nat) (q : Location) (hdir : fs.IsDirectoryAt (d ++ q))
    (hdepth : fs.Fits depth (d ++ q)) :
    (l.Fits fs levels (d ++ q) →
      l.below levels q.toText fs = .ok (shownBelow l fs d depth q) fs) ∧
    (¬ l.Fits fs levels (d ++ q) → l.below levels q.toText fs = .error (.tooNested []) fs) := by
  induction levels generalizing depth q with
  | zero => exact ⟨fun hfits => absurd hfits (not_fits_zero hdir), fun _ => rfl⟩
  | succ levels ih =>
    cases depth with
    | zero => exact absurd hdepth (FileSystem.not_fits_zero hdir)
    | succ depth =>
    rw [FileSystem.fits_succ_iff] at hdepth
    have hlist := Disk.listDirectory_eq_ok.2 ⟨⟨_, leads_pathOf hroot hlength hdir, rfl⟩, rfl⟩
    have hentry := fun e (he : e ∈ fs.enumerated (d ++ q)) =>
      showEntry_cases hroot hlength he levels depth fun hfile => by
        obtain ⟨es, hes⟩ := Node.isDirectory_iff.1 hfile
        have hsub := isDirectoryAt_of_node? (hes ▸ mem_enumerated_iff.1 he)
        have hfits := hdepth e he
        rw [List.append_assoc] at hsub hfits ⊢
        exact ih depth (q ++ [e.1]) hsub hfits
    rw [below_succ, fits_succ_iff]
    constructor
    · intro hfits
      have hall := fun e he => (hentry e he).1 (hfits e he)
      rw [bind_of_ok hlist, bind_of_ok (mapM_of_still hall)]
      rw [shownBelow, descendants, List.filter_flatMap, List.map_flatMap, List.flatMap_def]
      rfl
    · intro hdeep
      obtain ⟨e, hdeep⟩ := Classical.not_forall.1 hdeep
      obtain ⟨he, hnot⟩ := Classical.not_imp.1 hdeep
      have hone : ∀ x ∈ fs.enumerated (d ++ q),
          (∃ shown, l.showEntry levels q.toText x fs = .ok shown fs) ∨
            l.showEntry levels q.toText x fs = .error (.tooNested []) fs := fun x hx =>
        (Classical.em _).imp (fun hfits => ⟨_, (hentry x hx).1 hfits⟩) (hentry x hx).2
      rw [bind_of_ok hlist, bind_of_error (mapM_of_error hone ⟨e, he, (hentry e he).2 hnot⟩)]

end Below

end Listing

/-! ## Directories in one another -/

namespace Node

/-- Directories in one another under one name, so many below the first. -/
def chain (n : Name) : Nat → Node
  | 0 => .directory []
  | k + 1 => .directory [(n, chain n k)]

variable {n : Name}

theorem tidy_chain (n : Name) (k : Nat) : (chain n k).Tidy := by
  induction k with
  | zero => exact tidy_empty
  | succ k ih => exact .directory _ (List.pairwise_singleton _ _) (by simpa using ih)

theorem at?_chain (n : Name) (j k : Nat) :
    (chain n (j + k)).at? (List.replicate j n) = some (chain n k) := by
  induction j with
  | zero =>
    rw [Nat.zero_add]
    rfl
  | succ j ih =>
    rw [Nat.succ_add, List.replicate_succ, at?_cons]
    simpa [chain, entries, Entries.find?] using ih

theorem eq_replicate_of_at?_chain {k : Nat} {p : Location} (h : (chain n k).at? p ≠ none) :
    ∃ j ≤ k, p = List.replicate j n := by
  induction p generalizing k with
  | nil => exact ⟨0, Nat.zero_le k, rfl⟩
  | cons m p ih =>
    cases k with
    | zero => exact absurd rfl h
    | succ k =>
      rw [at?_cons] at h
      by_cases hm : n = m
      · obtain ⟨j, hj, rfl⟩ := ih (k := k) (by simpa [chain, entries, Entries.find?, hm] using h)
        exact ⟨j + 1, Nat.succ_le_succ hj, by rw [hm, List.replicate_succ]⟩
      · exact absurd (by simp [chain, entries, Entries.find?, hm]) h

end Node

theorem length_joinWith_replicate_le {α : Type} (x l : List α) (j : Nat) :
    (joinWith x (List.replicate j l)).length ≤ j * (x.length + l.length) := by
  induction j with
  | zero => exact Nat.zero_le _
  | succ j ih =>
    rw [Nat.succ_mul]
    cases j with
    | zero =>
      show l.length ≤ _
      omega
    | succ j =>
      show (l ++ x ++ joinWith x (List.replicate (j + 1) l)).length ≤ _
      rw [List.length_append, List.length_append]
      omega

namespace FileSystem

/-- A file system with nothing but directories in one another. -/
def chained (host : Host) (n : Name) (k : Nat) : FileSystem :=
  ⟨[(n, .chain n k)], [], host, Node.tidy_chain n (k + 1)⟩

theorem exists_encode_of_chained {host : Host} {n : Name} {k : Nat} {p : Location}
    (h : (chained host n k).node? p ≠ none) :
    ∃ b, (Path.join "/" p.toText).encode = .ok b ∧
      b.length ≤ 1 + (k + 1) * (1 + n.bytes.length) := by
  have hnode : (chained host n k).node? p = (Node.chain n (k + 1)).at? p := rfl
  obtain ⟨j, hj, rfl⟩ := Node.eq_replicate_of_at?_chain (hnode ▸ h)
  have hjoin : Path.join "/" (Location.toText (List.replicate j n)) =
      "/" ++ Location.toText (List.replicate j n) := by
    unfold Path.join
    rw [if_neg (by simp [Location.isAbsolute_toText])]
    rfl
  have hencode := Text.encode_append Text.slash_bytes (Location.encode_toText (List.replicate j n))
  refine ⟨_, by rw [hjoin]; exact hencode, ?_⟩
  have hlength := length_joinWith_replicate_le [slashByte] n.bytes j
  have hmul := Nat.mul_le_mul_right (1 + n.bytes.length) hj
  rw [List.map_replicate, List.length_append]
  simp only [List.length_singleton] at hlength ⊢
  omega

end FileSystem

namespace Verb

variable {shell : Shell} {arguments : List Text} {path : Text} {d : Location}

/-- The arguments are flags that `ls` knows and at most one name, and ask for what is at a path. -/
def AsksFor (session : Session) (arguments : List Text) (path : Text) : Prop :=
  (∀ a ∈ arguments, a.head? = some (.scalar '-') →
      a = Text.ofString "-a" ∨ a = Text.ofString "-r") ∧
    (arguments.filter (fun a => a.head? ≠ some (.scalar '-')) = [] ∧ path = session.cwd ∨
      ∃ name, arguments.filter (fun a => a.head? ≠ some (.scalar '-')) = [name] ∧
        path = session.resolve name)

/-- Of a directory `ls` shows the listing, one path a line. -/
theorem runLs_of_directory (hasks : AsksFor shell.session arguments path)
    (hleads : shell.files.Leads path d) :
    runLs arguments shell = (do
      let entries ← Action.onDisk (Listing.all
        ⟨path, Text.ofString "-a" ∈ arguments, Text.ofString "-r" ∈ arguments⟩)
      return .success (entries.flatMap (· ++ [.scalar '\n'])) : Action Result) shell := by
  obtain ⟨hflags, hoperand⟩ := hasks
  have hknown : ¬ HasUnknownFlag arguments := by
    rintro ⟨a, ha, hdash, hhidden, hrecursive⟩
    rcases hflags a ha hdash with rfl | rfl
    · exact hhidden rfl
    · exact hrecursive rfl
  have hpresent := hleads.isPresent
  have hdir := isDirectory_iff.2 ⟨d, hleads⟩
  rw [runLs_of_known hknown, listOrName]
  rcases hoperand with ⟨hnone, rfl⟩ | ⟨name, hone, rfl⟩
  · simp only [hnone, List.length_nil, List.head?_nil, Nat.not_lt_zero, gt_iff_lt, if_false]
    rw [bind_of_ok (rfl : (Session.cwd <$> Action.session) shell = .ok shell.session.cwd shell),
      bind_of_ok (Action.ask_eq _ shell), hpresent]
    simp only [Bool.not_true, Bool.false_eq_true, if_false]
    rw [bind_of_ok (Action.ask_eq _ shell), hdir]
    rfl
  · simp only [hone, List.length_singleton, List.head?_cons, gt_iff_lt, Nat.lt_irrefl, if_false]
    rw [bind_of_ok (Action.resolve_eq name shell), bind_of_ok (Action.ask_eq _ shell), hpresent]
    simp only [Bool.not_true, Bool.false_eq_true, if_false]
    rw [bind_of_ok (Action.ask_eq _ shell), hdir]
    rfl

/-- **What `ls` lists.**  Below an existing directory whose descendants all have paths that are
short enough there are so many places, and each has a path that names it; in depth-first order, with
the entries of one directory as they are enumerated, `ls -a -r` lists them all.  `ls -r` lists those
among whose names none is hidden, and without `-r` those with a single name are left of either.  But
if a directory that is entered on the way stands too deep, `ls` fails and lists nothing. -/
theorem listed_by_ls (hleads : shell.files.Leads path d)
    (hlength : ∀ p : Location, p ≠ [] → shell.files.node? (d ++ p) ≠ none →
      ∀ b, (Path.join path p.toText).encode = .ok b → b.length ≤ pathLimit) :
    ∃ places : List Location, places.Nodup ∧ places.Pairwise (shell.files.Precedes d) ∧
      (∀ p, p ∈ places ↔ p ≠ [] ∧ shell.files.node? (d ++ p) ≠ none) ∧
      (∀ p ∈ places, shell.files.Names (Path.join path p.toText) (d ++ p)) ∧
      ∀ verb arguments, AsksFor shell.session arguments path →
        let l : Listing := ⟨path, Text.ofString "-a" ∈ arguments, Text.ofString "-r" ∈ arguments⟩
        (l.Fits shell.files (shell.files.host.nesting .listing) d →
          ls.run (verb :: arguments) shell =
            .ok (.success ((places.filter fun p =>
                (decide (Text.ofString "-a" ∈ arguments) || p.all (!·.isHidden)) &&
                  (decide (Text.ofString "-r" ∈ arguments) || p.length = 1)).flatMap
              fun p => p.toText ++ [.scalar '\n'])) shell) ∧
        (¬ l.Fits shell.files (shell.files.host.nesting .listing) d →
          ls.run (verb :: arguments) shell = .error (.tooNested []) shell) := by
  obtain ⟨depth, hdepth⟩ := shell.files.exists_fits d
  have hdir := hleads.isDirectoryAt
  have hmem : ∀ p : Location, p ∈ shell.files.descendants depth d ↔
      p ≠ [] ∧ shell.files.node? (d ++ p) ≠ none := fun p => mem_descendants hdepth hdir
  refine ⟨shell.files.descendants depth d, shell.files.nodup_descendants depth d,
    shell.files.pairwise_descendants depth d, hmem, ?_, ?_⟩
  · intro p hp
    obtain ⟨hne, hnode⟩ := (hmem p).1 hp
    exact locate_join hleads hne hnode (hlength p hne hnode) (.inl rfl)
  · intro verb arguments hasks l
    obtain ⟨hlists, hfails⟩ := l.below_eq (d := d) hleads hlength
      (shell.files.host.nesting .listing) depth [] (by rwa [List.append_nil])
      (by rwa [List.append_nil])
    rw [List.append_nil] at hlists hfails
    have hrun := runLs_of_directory hasks hleads
    show (_ → runLs arguments shell = _) ∧ (_ → runLs arguments shell = _)
    constructor
    · intro hfits
      have hall : Action.onDisk l.all shell = .ok _ shell :=
        Action.onDisk_eq_ok.2 ⟨_, hlists hfits, rfl⟩
      rw [hrun, bind_of_ok hall, Listing.shownBelow, List.append_nil, List.flatMap_map]
      rfl
    · intro hdeep
      have hall : Action.onDisk l.all shell = .error _ shell :=
        Action.onDisk_eq_error.2 ⟨_, hfails hdeep, rfl⟩
      rw [hrun, bind_of_error hall]

/-- As many directories in one another as a listing has levels are too many for it. -/
theorem runLs_of_chained {host : Host} {n : Name} {k : Nat}
    (hdeep : host.nesting .listing ≤ k + 1)
    (hshort : 1 + (k + 1) * (1 + n.bytes.length) ≤ pathLimit) :
    runLs ["-a", "-r"] ⟨⟨"/", "/"⟩, chained host n k⟩ =
      .error (.tooNested []) ⟨⟨"/", "/"⟩, chained host n k⟩ := by
  have hleads : (chained host n k).Leads "/" [] :=
    found?_eq_some_iff.2 (locate_root (s := ⟨.root, []⟩) ⟨by simp, by simp⟩ rfl .target)
  have hlength : ∀ p : Location, p ≠ [] → (chained host n k).node? ([] ++ p) ≠ none →
      ∀ c, (Path.join "/" p.toText).encode = .ok c → c.length ≤ pathLimit := by
    intro p _ hp c hc
    obtain ⟨b, hb, hle⟩ := exists_encode_of_chained hp
    rw [← Except.ok.inj (hb.symm.trans hc)]
    exact Nat.le_trans hle hshort
  let l : Listing := ⟨"/", Text.ofString "-a" ∈ (["-a", "-r"] : List Text),
    Text.ofString "-r" ∈ (["-a", "-r"] : List Text)⟩
  have hnot : ¬ l.Fits (chained host n k) (host.nesting .listing) [] := by
    intro hfits
    have hlast : (chained host n k).IsDirectoryAt ([] ++ List.replicate (k + 1) n) :=
      isDirectoryAt_of_node? (Node.at?_chain n (k + 1) 0)
    have henters : l.enters (List.replicate (k + 1) n) = true := by
      simp [Listing.enters, l]
    have hlt := hfits _ hlast henters
    rw [List.length_replicate] at hlt
    omega
  obtain ⟨depth, hdepth⟩ := (chained host n k).exists_fits []
  have hbelow := (Listing.below_eq (l := l) (q := []) hleads hlength (host.nesting .listing) depth
    hleads.isDirectoryAt hdepth).2 hnot
  have hall : Action.onDisk l.all ⟨⟨"/", "/"⟩, chained host n k⟩ =
      .error (.tooNested []) ⟨⟨"/", "/"⟩, chained host n k⟩ :=
    Action.onDisk_eq_error.2 ⟨_, hbelow, rfl⟩
  have hasks : AsksFor ⟨"/", "/"⟩ ["-a", "-r"] "/" :=
    ⟨by decide +kernel, .inl ⟨by decide +kernel, rfl⟩⟩
  have hrun : runLs ["-a", "-r"] ⟨⟨"/", "/"⟩, chained host n k⟩ = _ :=
    runLs_of_directory hasks hleads
  rw [hrun, bind_of_error hall]

/-- So many directories stand in one another that a listing gives up, though every path among them
is short enough. -/
theorem ls_of_deep_chain :
    let a : Name := ⟨[0x61], by decide⟩
    let shell : Shell := ⟨⟨"/", "/"⟩, chained .usual a 949⟩
    (∀ p : Location, shell.files.node? p ≠ none →
        ∃ b, (Path.join "/" p.toText).encode = .ok b ∧ b.length ≤ pathLimit) ∧
      ls.run ["ls", "-a", "-r"] shell = .error (.tooNested []) shell := by
  intro a shell
  have hshort : 1 + (949 + 1) * (1 + a.bytes.length) ≤ pathLimit := by decide
  refine ⟨fun p hp => ?_, runLs_of_chained (by decide) hshort⟩
  obtain ⟨b, hb, hle⟩ := exists_encode_of_chained hp
  exact ⟨b, hb, Nat.le_trans hle hshort⟩

/-- A link that leads back to the directory it stands in is listed, and nothing through it. -/
theorem listed_by_ls_cycle :
    let d : Name := ⟨[0x64], by decide⟩
    let h : Name := ⟨[0x2E, 0x68], by decide⟩
    let l : Name := ⟨[0x6C], by decide⟩
    let x : Name := ⟨[0x78], by decide⟩
    let files := (((FileSystem.empty.create [d] (.directory []) Node.tidy_empty).create [d, h]
      (.directory []) Node.tidy_empty).create [d, h, x] (.file []) (.file _)).create [d, l]
        (.link [0x2E]) (.link _)
    let shell : Shell := ⟨⟨"/", "/"⟩, files⟩
    files.isDirectory "/d/l/l" = true ∧
      ∃ places : List Location, [h, x] ∈ places ∧ (∀ p, l :: p ∈ places → p = []) ∧
        ls.run ["ls", "d", "-a", "-r"] shell =
          .ok (.success (places.flatMap fun p => p.toText ++ [.scalar '\n'])) shell := by
  intro d h l x files shell
  have hleads : files.Leads "/d" [d] := by
    show files.found? .target _ = _
    decide +kernel
  have hdepth : files.Fits 2 [d] := by decide +kernel
  have hshort : ∀ p ∈ files.descendants 2 [d],
      (Path.join "/d" p.toText).encode.toOption.all (·.length ≤ pathLimit) = true := by
    decide +kernel
  have hlength : ∀ p : Location, p ≠ [] → files.node? ([d] ++ p) ≠ none →
      ∀ b, (Path.join "/d" p.toText).encode = .ok b → b.length ≤ pathLimit := by
    intro p hp hnode b hb
    have hone := hshort p ((mem_descendants hdepth hleads.isDirectoryAt).2 ⟨hp, hnode⟩)
    simpa [hb, Except.toOption] using hone
  obtain ⟨places, -, -, hmem, -, hlists⟩ := @listed_by_ls shell "/d" [d] hleads hlength
  refine ⟨by decide +kernel, places, (hmem [h, x]).2 ⟨by decide, by decide +kernel⟩, ?_, ?_⟩
  · intro p hp
    cases p with
    | nil => rfl
    | cons n q =>
      have hlink : files.node? [d, l] = some (.link [0x2E]) := by decide +kernel
      have hnode := ((hmem (l :: n :: q)).1 hp).2
      change files.node? ([d, l] ++ n :: q) ≠ none at hnode
      rw [node?_append, hlink, Option.bind_some] at hnode
      exact absurd rfl hnode
  · have hasks : AsksFor shell.session ["d", "-a", "-r"] "/d" :=
      ⟨by decide +kernel, .inr ⟨"d", by decide +kernel, by decide +kernel⟩⟩
    have hrun := (hlists "ls" ["d", "-a", "-r"] hasks).1
      (Listing.fits_of_fits hdepth (show 2 ≤ 950 by decide))
    have ha : Text.ofString "-a" ∈ (["d", "-a", "-r"] : List Text) := by decide +kernel
    have hr : Text.ofString "-r" ∈ (["d", "-a", "-r"] : List Text) := by decide +kernel
    have hall : places.filter (fun _ => true) = places := List.filter_eq_self.2 fun _ _ => rfl
    simpa only [ha, hr, decide_true, Bool.true_or, Bool.and_self, hall] using hrun

end Verb

end FileShell
