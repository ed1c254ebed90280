import FileShell.FileSystem.Walk
import FileShell.Proofs.FileSystem.Places

/-!
# Ways through directories

`FileSystem.walk` follows a path to whatever stands at its end.  All steps but the last one lead
from directory to directory, over links if need be, and how they do so depends neither on what the
path is followed for nor on what comes after them.  `Enters` says it by one rule for each kind of
step, and a walk is taken apart into the way to the last directory and the last step.

* `Finds`, `finds_of_walk`: what a walk finds, by one rule for each kind of step.
* `Enters.walk_append`, `exists_enters_of_walk`: a walk of several steps is a way and a walk.
* `Enters.mono`: a way stays open when directories and links stay where they are.
* `walk_last`, `shows_of_walk`: the last step of a walk, and that what a walk finds is there.
* `isLink_of_walk`: a walk for more than an entry does not end at a link.
-/

namespace FileShell

theorem Name.ofBytes?_bytes (n : Name) : Name.ofBytes? n.bytes = some n := by
  rw [ofBytes?, dif_pos n.isName]

theorem Name.bytes_of_ofBytes? {b : Bytes} {n : Name} (h : Name.ofBytes? b = some n) :
    n.bytes = b := by
  unfold ofBytes? at h
  split at h
  · cases h
    rfl
  · cases h

theorem Name.bytes_ne_dot (n : Name) : n.bytes ≠ [dotByte] := n.isName.2.1

theorem Name.bytes_ne_dots (n : Name) : n.bytes ≠ [dotByte, dotByte] := n.isName.2.2.1

namespace FileSystem

variable {fs : FileSystem}

/-! ## One step of a walk -/

/-- Where a walk goes on behind a link that it has to follow. -/
def jump (fs : FileSystem) (aim : Aim) : Nat → Location → List Bytes → Bool → Except Fault Spot
  | 0 => fun _ _ _ => .error .tooManyLinks
  | links + 1 => fs.walk aim links

theorem walk_eq_descend (aim : Aim) (links : Nat) :
    fs.walk aim links = fs.descend aim (fs.jump aim links) := by
  cases links <;> rfl

variable {aim : Aim} {links : Nat} {here : Location} {rest : List Bytes} {slash : Bool} {n : Name}

theorem walk_nil :
    fs.walk aim links here [] slash = .ok (.taken here (.directory (fs.entriesAt here))) := by
  rw [walk_eq_descend, descend]

theorem walk_stay :
    fs.walk aim links here ([dotByte] :: rest) slash = fs.walk aim links here rest slash := by
  rw [walk_eq_descend, descend, if_pos rfl]

theorem walk_up :
    fs.walk aim links here ([dotByte, dotByte] :: rest) slash =
      fs.walk aim links here.dropLast rest slash := by
  rw [walk_eq_descend, descend, if_neg (by decide), if_pos rfl]

theorem walk_wrong {step : Bytes} (hdot : step ≠ [dotByte]) (hdots : step ≠ [dotByte, dotByte])
    (h : Name.ofBytes? step = none) {outcome : Except Fault Spot}
    (hwalk : fs.walk aim links here (step :: rest) slash = outcome) :
    ∃ f, f ≠ .alreadyThere ∧ outcome = .error f := by
  rw [walk_eq_descend, descend, if_neg hdot, if_neg hdots, h] at hwalk
  subst hwalk
  split
  · exact ⟨_, by decide, rfl⟩
  · refine ⟨_, ?_, rfl⟩
    split <;> decide

/-- A step under a name, unless a file is to be made under a name with a slash after it. -/
theorem walk_name (h : ¬ (aim = .creation ∧ rest = [] ∧ slash = true)) :
    fs.walk aim links here (n.bytes :: rest) slash =
      match fs.node? (here ++ [n]) with
      | none => if rest = [] then .ok (.vacant (here ++ [n]) slash) else .error .noEntry
      | some (.directory _) => fs.walk aim links (here ++ [n]) rest slash
      | some (.file bytes) =>
        if rest = [] ∧ slash = false then .ok (.taken (here ++ [n]) (.file bytes))
        else .error .notADirectory
      | some (.link target) =>
        if rest = [] ∧ slash = false ∧ aim = .entry then .ok (.taken (here ++ [n]) (.link target))
        else
          fs.jump aim links (if (Route.ofBytes target).isAbsolute then [] else here)
            ((Route.ofBytes target).steps ++ rest)
            (if rest = [] then slash || (Route.ofBytes target).endsInSlash else slash) := by
  rw [walk_eq_descend, descend, if_neg n.bytes_ne_dot, if_neg n.bytes_ne_dots, if_neg h]
  split
  · next hnone =>
    rw [Name.ofBytes?_bytes] at hnone
    cases hnone
  · next m hm =>
    rw [Name.ofBytes?_bytes] at hm
    cases hm
    rfl

/-- A step is `.`, `..` or a name; any other step leads nowhere. -/
theorem step_cases_of_walk {step : Bytes} {spot : Spot}
    (h : fs.walk aim links here (step :: rest) slash = .ok spot) :
    step = [dotByte] ∨ step = [dotByte, dotByte] ∨
      ∃ n : Name, step = n.bytes ∧ ¬ (aim = .creation ∧ rest = [] ∧ slash = true) := by
  refine Classical.byContradiction ?_
  intro hnone
  simp only [not_or] at hnone
  obtain ⟨hdot, hdots, hname⟩ := hnone
  cases hn : Name.ofBytes? step with
  | none =>
    obtain ⟨f, -, hf⟩ := walk_wrong hdot hdots hn h
    cases hf
  | some n =>
    refine hname ⟨n, (Name.bytes_of_ofBytes? hn).symm, ?_⟩
    intro hcreation
    rw [walk_eq_descend, descend, if_neg hdot, if_neg hdots, if_pos hcreation] at h
    cases h

/-- A walk depends on nothing but the nodes at the places. -/
theorem walk_congr {later : FileSystem} (h : ∀ r, later.node? r = fs.node? r) (aim : Aim)
    (links : Nat) : later.walk aim links = fs.walk aim links := by
  have hdescend : ∀ jump, later.descend aim jump = fs.descend aim jump := by
    intro jump
    funext here steps slash
    induction steps generalizing here with
    | nil => simp only [descend, entriesAt, h]
    | cons step rest ih => simp only [descend, h, ih]
  induction links with
  | zero => exact hdescend _
  | succ links ih => rw [walk, walk, hdescend, ih]

/-! ## The rules of a walk -/

/-- What a walk finds: a directory when no step is left, and at the last name what stands there or
that nothing does.  A link is found only as an entry, and followed otherwise, which takes one of the
links that may be followed. -/
inductive Finds (fs : FileSystem) (aim : Aim) :
    Nat → Location → List Bytes → Bool → Spot → Prop where
  | done {links : Nat} {here : Location} {slash : Bool} :
      Finds fs aim links here [] slash (.taken here (.directory (fs.entriesAt here)))
  | stay {links : Nat} {here : Location} {rest : List Bytes} {slash : Bool} {spot : Spot} :
      Finds fs aim links here rest slash spot →
        Finds fs aim links here ([dotByte] :: rest) slash spot
  | up {links : Nat} {here : Location} {rest : List Bytes} {slash : Bool} {spot : Spot} :
      Finds fs aim links here.dropLast rest slash spot →
        Finds fs aim links here ([dotByte, dotByte] :: rest) slash spot
  | into {links : Nat} {here : Location} {rest : List Bytes} {slash : Bool} {spot : Spot}
      {n : Name} :
      ¬ (aim = .creation ∧ rest = [] ∧ slash = true) → fs.IsDirectoryAt (here ++ [n]) →
        Finds fs aim links (here ++ [n]) rest slash spot →
        Finds fs aim links here (n.bytes :: rest) slash spot
  | vacant {links : Nat} {here : Location} {slash : Bool} {n : Name} :
      ¬ (aim = .creation ∧ slash = true) → fs.node? (here ++ [n]) = none →
        Finds fs aim links here [n.bytes] slash (.vacant (here ++ [n]) slash)
  | file {links : Nat} {here : Location} {n : Name} {bytes : Bytes} :
      fs.node? (here ++ [n]) = some (.file bytes) →
        Finds fs aim links here [n.bytes] false (.taken (here ++ [n]) (.file bytes))
  | link {links : Nat} {here : Location} {n : Name} {target : Bytes} :
      aim = .entry → fs.node? (here ++ [n]) = some (.link target) →
        Finds fs aim links here [n.bytes] false (.taken (here ++ [n]) (.link target))
  | follow {links : Nat} {here : Location} {rest : List Bytes} {slash : Bool} {spot : Spot}
      {n : Name} {target : Bytes} :
      ¬ (aim = .creation ∧ rest = [] ∧ slash = true) →
        ¬ (rest = [] ∧ slash = false ∧ aim = .entry) →
        fs.bare? (here ++ [n]) = some (.link target) →
        Finds fs aim links (if (Route.ofBytes target).isAbsolute then [] else here)
          ((Route.ofBytes target).steps ++ rest)
          (if rest = [] then slash || (Route.ofBytes target).endsInSlash else slash) spot →
        Finds fs aim (links + 1) here (n.bytes :: rest) slash spot

variable {steps : List Bytes} {spot : Spot}

/-- **A walk goes by the rules.** -/
theorem finds_of_walk (h : fs.walk aim links here steps slash = .ok spot) :
    Finds fs aim links here steps slash spot := by
  -- on the number of links that may be followed, and for each number on the steps
  induction links using Nat.strongRecOn generalizing here steps slash with
  | ind links ihlinks =>
    induction steps generalizing here with
    | nil =>
      rw [walk_nil] at h
      cases h
      exact .done
    | cons step more ih =>
      rcases step_cases_of_walk h with rfl | rfl | ⟨n, rfl, hcreation⟩
      · rw [walk_stay] at h
        exact .stay (ih h)
      · rw [walk_up] at h
        exact .up (ih h)
      · rw [walk_name hcreation] at h
        split at h
        · next hnone =>
          split at h
          · next hlast =>
            cases h
            cases hlast
            exact .vacant (by simpa using hcreation) hnone
          · cases h
        · next es hdir => exact .into hcreation (isDirectoryAt_of_node? hdir) (ih h)
        · next bytes hfile =>
          split at h
          · next hlast =>
            obtain ⟨rfl, rfl⟩ := hlast
            cases h
            exact .file hfile
          · cases h
        · next target hlink =>
          split at h
          · next hlast =>
            obtain ⟨rfl, rfl, hentry⟩ := hlast
            cases h
            exact .link hentry hlink
          · next hlast =>
            cases links with
            | zero => cases h
            | succ links =>
              exact .follow hcreation hlast (bare?_eq_link_iff.2 hlink)
                (ihlinks links (Nat.lt_succ_self links) h)

/-- What the rules find, a walk finds. -/
theorem Finds.walk (h : Finds fs aim links here steps slash spot) :
    fs.walk aim links here steps slash = .ok spot := by
  induction h with
  | done => exact walk_nil
  | stay _ ih => rw [walk_stay, ih]
  | up _ ih => rw [walk_up, ih]
  | into hcreation hdir _ ih =>
    rw [walk_name hcreation, isDirectoryAt_iff.1 hdir]
    exact ih
  | vacant hcreation hnone =>
    rw [walk_name (by simpa using hcreation), hnone]
    rfl
  | file hfile =>
    rw [walk_name (by simp), hfile]
    rfl
  | link hentry hlink =>
    rw [walk_name (by simp), hlink]
    exact if_pos ⟨rfl, rfl, hentry⟩
  | follow hcreation hlast hlink _ ih =>
    rw [walk_name hcreation, bare?_eq_link_iff.1 hlink]
    simp only [if_neg hlast, jump]
    exact ih

/-! ## Ways -/

/-- The steps lead from one directory to another, and of the links that may be followed so many are
left in the end. -/
inductive Enters (fs : FileSystem) : Nat → Location → List Bytes → Nat → Location → Prop where
  | done {links : Nat} {here : Location} : Enters fs links here [] links here
  | stay {links left : Nat} {here there : Location} {rest : List Bytes} :
      Enters fs links here rest left there → Enters fs links here ([dotByte] :: rest) left there
  | up {links left : Nat} {here there : Location} {rest : List Bytes} :
      Enters fs links here.dropLast rest left there →
        Enters fs links here ([dotByte, dotByte] :: rest) left there
  | into {links left : Nat} {here there : Location} {rest : List Bytes} {n : Name} :
      fs.IsDirectoryAt (here ++ [n]) → Enters fs links (here ++ [n]) rest left there →
        Enters fs links here (n.bytes :: rest) left there
  | follow {links left : Nat} {here there : Location} {rest : List Bytes} {n : Name}
      {target : Bytes} :
      fs.bare? (here ++ [n]) = some (.link target) →
        Enters fs links (if (Route.ofBytes target).isAbsolute then [] else here)
          ((Route.ofBytes target).steps ++ rest) left there →
        Enters fs (links + 1) here (n.bytes :: rest) left there

variable {left : Nat} {there : Location}

/-- A walk goes where the way leads and on from there. -/
theorem Enters.walk_append (h : Enters fs links here steps left there) (hrest : rest ≠ []) :
    fs.walk aim links here (steps ++ rest) slash = fs.walk aim left there rest slash := by
  induction h with
  | done => rfl
  | stay _ ih => rw [List.cons_append, walk_stay, ih]
  | up _ ih => rw [List.cons_append, walk_up, ih]
  | into hdir _ ih =>
    rw [List.cons_append, walk_name (fun hc => hrest (List.append_eq_nil_iff.1 hc.2.1).2),
      isDirectoryAt_iff.1 hdir]
    exact ih
  | follow hlink _ ih =>
    have hne : ∀ l : List Bytes, l ++ rest ≠ [] := fun l h => hrest (List.append_eq_nil_iff.1 h).2
    rw [List.cons_append, walk_name (fun hc => hne _ hc.2.1), bare?_eq_link_iff.1 hlink]
    simp only [hne, false_and, if_false, jump]
    rw [← ih, List.append_assoc]

/-- A way is the walk to what the path leads to, if that is a directory. -/
theorem Enters.walk_target (h : Enters fs links here steps left there) (slash : Bool) :
    fs.walk .target links here steps slash =
      .ok (.taken there (.directory (fs.entriesAt there))) := by
  induction h generalizing slash with
  | done => exact walk_nil
  | stay _ ih => rw [walk_stay, ih]
  | up _ ih => rw [walk_up, ih]
  | into hdir _ ih =>
    rw [walk_name (by simp), isDirectoryAt_iff.1 hdir]
    exact ih slash
  | follow hlink _ ih =>
    rw [walk_name (by simp), bare?_eq_link_iff.1 hlink]
    simp only [reduceCtorEq, and_false, if_false, jump]
    exact ih _

theorem Enters.isDirectoryAt (h : Enters fs links here steps left there)
    (hhere : fs.IsDirectoryAt here) : fs.IsDirectoryAt there := by
  induction h with
  | done => exact hhere
  | stay _ ih => exact ih hhere
  | up _ ih => exact ih (isDirectoryAt_of_isPrefix (List.dropLast_prefix _) hhere)
  | into hdir _ ih => exact ih hdir
  | follow _ _ ih =>
    refine ih ?_
    split
    · exact isDirectoryAt_root
    · exact hhere

/-- **A way stays open** as long as directories stay directories and links keep their targets. -/
theorem Enters.mono {later : FileSystem}
    (hkept : ∀ r t, fs.bare? r = some t → later.bare? r = some t)
    (h : Enters fs links here steps left there) : Enters later links here steps left there := by
  induction h with
  | done => exact .done
  | stay _ ih => exact .stay ih
  | up _ ih => exact .up ih
  | into hdir _ ih => exact .into (hkept _ _ hdir) ih
  | follow hlink _ ih => exact .follow (hkept _ _ hlink) ih

/-- **A walk of several steps is a way to a directory and a walk from there.** -/
theorem exists_enters_of_walk {spot : Spot} (hrest : rest ≠ [])
    (h : fs.walk aim links here (steps ++ rest) slash = .ok spot) :
    ∃ left there, Enters fs links here steps left there ∧
      fs.walk aim left there rest slash = .ok spot := by
  have hne : ∀ l : List Bytes, l ++ rest ≠ [] := fun l h => hrest (List.append_eq_nil_iff.1 h).2
  -- on the number of links that may be followed, and for each number on the steps
  induction links using Nat.strongRecOn generalizing here steps with
  | ind links ihlinks =>
    induction steps generalizing here with
    | nil => exact ⟨links, here, .done, h⟩
    | cons step more ih =>
      rw [List.cons_append] at h
      rcases step_cases_of_walk h with rfl | rfl | ⟨n, rfl, hcreation⟩
      · rw [walk_stay] at h
        obtain ⟨left, there, henters, hwalk⟩ := ih h
        exact ⟨left, there, .stay henters, hwalk⟩
      · rw [walk_up] at h
        obtain ⟨left, there, henters, hwalk⟩ := ih h
        exact ⟨left, there, .up henters, hwalk⟩
      · rw [walk_name hcreation] at h
        split at h
        · simp [hne] at h
        · next es hdir =>
          obtain ⟨left, there, henters, hwalk⟩ := ih h
          exact ⟨left, there, .into (isDirectoryAt_of_node? hdir) henters, hwalk⟩
        · simp [hne] at h
        · next target hlink =>
          simp only [hne, false_and, if_false] at h
          cases links with
          | zero => cases h
          | succ links =>
            rw [jump, ← List.append_assoc] at h
            obtain ⟨left, there, henters, hwalk⟩ := ihlinks links (Nat.lt_succ_self links) h
            exact ⟨left, there, .follow (bare?_eq_link_iff.2 hlink) henters, hwalk⟩

/-- A walk that ends in a directory is a way there. -/
theorem exists_enters_of_walk_directory {es : Entries}
    (h : fs.walk aim links here steps slash = .ok (.taken there (.directory es))) :
    ∃ left, Enters fs links here steps left there := by
  have hfinds := finds_of_walk h
  generalize hspot : Spot.taken there (.directory es) = spot at hfinds
  clear h
  induction hfinds with
  | @done links here slash =>
    cases hspot
    exact ⟨links, .done⟩
  | stay _ ih => exact (ih hspot).imp fun _ => .stay
  | up _ ih => exact (ih hspot).imp fun _ => .up
  | into _ hdir _ ih => exact (ih hspot).imp fun _ => .into hdir
  | vacant => cases hspot
  | file => cases hspot
  | link => cases hspot
  | follow _ _ hlink _ ih => exact (ih hspot).imp fun _ => .follow hlink

/-- Whoever arrives at a directory has entered one after each of the steps. -/
theorem exists_enters_of_walk_append {es : Entries}
    (h : fs.walk aim links here (steps ++ rest) slash = .ok (.taken there (.directory es))) :
    ∃ left mid, Enters fs links here steps left mid := by
  by_cases hrest : rest = []
  · subst hrest
    rw [List.append_nil] at h
    obtain ⟨left, henters⟩ := exists_enters_of_walk_directory h
    exact ⟨left, there, henters⟩
  · obtain ⟨left, mid, henters, -⟩ := exists_enters_of_walk hrest h
    exact ⟨left, mid, henters⟩

/-! ## The end of a walk -/

/-- What a place holds, as the end of a walk. -/
def spotAt (fs : FileSystem) (p : Location) : Spot :=
  match fs.node? p with
  | some t => .taken p t
  | none => .vacant p false

theorem spotAt_of_node? {p : Location} {t : Node} (h : fs.node? p = some t) :
    fs.spotAt p = .taken p t := by
  rw [spotAt, h]

theorem spotAt_of_vacant {p : Location} (h : fs.node? p = none) :
    fs.spotAt p = .vacant p false := by
  rw [spotAt, h]

theorem walk_nil_eq_spotAt (hdir : fs.IsDirectoryAt here) :
    fs.walk aim links here [] slash = .ok (fs.spotAt here) := by
  rw [walk_nil, spotAt_of_node? (isDirectoryAt_iff.1 hdir)]

/-- The last step of a walk, unless it is over a link. -/
theorem walk_last (h : aim = .entry ∨ ∀ target, fs.bare? (here ++ [n]) ≠ some (.link target)) :
    fs.walk aim links here [n.bytes] false = .ok (fs.spotAt (here ++ [n])) := by
  rw [walk_name (by simp), spotAt]
  cases ht : fs.node? (here ++ [n]) with
  | none => rfl
  | some t =>
    cases t with
    | directory es =>
      show fs.walk aim links (here ++ [n]) [] false = _
      rw [walk_nil_eq_spotAt (isDirectoryAt_of_node? ht), spotAt_of_node? ht]
    | file bytes => rfl
    | link target =>
      rcases h with rfl | h
      · rfl
      · exact absurd (bare?_eq_link_iff.2 ht) (h target)

/-- What a spot tells is the case: the node stands at its place, or an existing directory does not
hold the name. -/
def Shows (fs : FileSystem) : Spot → Prop
  | .taken p t => fs.node? p = some t
  | .vacant p _ => p ≠ [] ∧ fs.IsDirectoryAt p.dropLast ∧ fs.bare? p = none

/-- **What a walk finds is there.** -/
theorem shows_of_walk (hhere : fs.IsDirectoryAt here)
    (h : fs.walk aim links here steps slash = .ok spot) : fs.Shows spot := by
  induction finds_of_walk h with
  | done => exact isDirectoryAt_iff.1 hhere
  | stay hrest ih => exact ih hhere hrest.walk
  | up hrest ih =>
    exact ih (isDirectoryAt_of_isPrefix (List.dropLast_prefix _) hhere) hrest.walk
  | into _ hdir hrest ih => exact ih hdir hrest.walk
  | vacant _ hnone =>
    refine ⟨by simp, ?_, bare?_eq_none_iff.2 hnone⟩
    rwa [List.dropLast_concat]
  | file hfile => exact hfile
  | link _ hlink => exact hlink
  | follow _ _ _ hrest ih =>
    refine ih ?_ hrest.walk
    split
    · exact isDirectoryAt_root
    · exact hhere

/-- A walk for more than an entry does not end at a link. -/
theorem isLink_of_walk {p : Location} {t : Node} (haim : aim ≠ .entry)
    (h : fs.walk aim links here steps slash = .ok (.taken p t)) : t.isLink = false := by
  have hfinds := finds_of_walk h
  generalize hspot : Spot.taken p t = spot at hfinds
  clear h
  induction hfinds with
  | done =>
    cases hspot
    rfl
  | stay _ ih => exact ih hspot
  | up _ ih => exact ih hspot
  | into _ _ _ ih => exact ih hspot
  | vacant => cases hspot
  | file =>
    cases hspot
    rfl
  | link hentry => exact absurd hentry haim
  | follow _ _ _ _ ih => exact ih hspot

/-- No walk ends because something is there already. -/
theorem walk_ne_alreadyThere : fs.walk aim links here steps slash ≠ .error .alreadyThere := by
  induction links using Nat.strongRecOn generalizing here steps slash with
  | ind links ihlinks =>
    induction steps generalizing here with
    | nil =>
      rw [walk_nil]
      simp
    | cons step more ih =>
      by_cases hdot : step = [dotByte]
      · rw [hdot, walk_stay]
        exact ih
      by_cases hdots : step = [dotByte, dotByte]
      · rw [hdots, walk_up]
        exact ih
      cases hn : Name.ofBytes? step with
      | none =>
        intro h
        obtain ⟨f, hf, hwalk⟩ := walk_wrong hdot hdots hn h
        exact hf (Except.error.inj hwalk).symm
      | some n =>
        rw [← Name.bytes_of_ofBytes? hn]
        by_cases hcreation : aim = .creation ∧ more = [] ∧ slash = true
        · rw [walk_eq_descend, descend, if_neg n.bytes_ne_dot, if_neg n.bytes_ne_dots,
            if_pos hcreation]
          simp
        rw [walk_name hcreation]
        split
        · split <;> simp
        · exact ih
        · split <;> simp
        · split
          · simp
          cases links with
          | zero => simp [jump]
          | succ links => exact ihlinks links (Nat.lt_succ_self links)

end FileSystem

end FileShell
