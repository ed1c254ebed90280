import FileShell.Proofs.FileSystem.Ways
import FileShell.Proofs.Path.Bytes

/-!
# Places that clean paths name

A clean path either goes wrong on the way to its last directory or names one place: what stands
there is found, or the place is vacant.  A request on entries is about that place, and so is any
other request as long as no link stands there.

* `FileSystem.Names`, `FileSystem.Leads`: the path names the place, or leads to the directory.
* `exists_names_of_locate`, `locate_of_names`: whatever a path is followed for, it is about the
  place that it names.
* `names_append`: the place is the last part under the directory that the rest leads to.
* `Names.mono`, `Leads.mono`: both stay true when directories and links stay where they are.
-/

namespace FileShell

namespace FileSystem

variable {fs : FileSystem} {aim : Aim} {path : Text}

/-! ## Looking a path up -/

theorem locate_eq_ok_iff {spot : Spot} :
    fs.locate aim path = .ok spot ↔ ∃ b, Path.InBytes path b ∧
      fs.walk aim linkLimit [] (Route.ofBytes b).steps (Route.ofBytes b).endsInSlash = .ok spot := by
  constructor
  · intro h
    unfold locate at h
    split at h
    · cases h
    · next b hb =>
      split at h
      · cases h
      · next hzero =>
        split at h
        · next spot' hbytes =>
          cases h
          unfold locateBytes at hbytes
          split at hbytes
          · cases hbytes
          · next hne =>
            split at hbytes
            · cases hbytes
            · next hlen =>
              exact ⟨b, ⟨hb, by simpa using hzero, hne, Nat.le_of_not_lt hlen⟩, hbytes⟩
        · cases h
  · rintro ⟨b, hb, hwalk⟩
    have hzero : b.contains 0 = false := by simpa using hb.zeroFree
    rw [locate, hb.encode]
    simp only [hzero, Bool.false_eq_true, if_false]
    rw [locateBytes, if_neg hb.ne_nil, if_neg (Nat.not_lt_of_le hb.length_le)]
    simp only [hwalk]

/-- Why a path leads nowhere: it cannot be handed over, or the walk goes wrong. -/
theorem locate_error_cases {e : Failure} (h : fs.locate aim path = .error e) :
    (∃ u, e = .unencodable u) ∨ e = .zeroByte ∨ ∃ f, f ≠ .alreadyThere ∧ e = .fault f [path] := by
  unfold locate at h
  split at h
  · next u _ =>
    cases h
    exact .inl ⟨u, rfl⟩
  · split at h
    · cases h
      exact .inr (.inl rfl)
    · split at h
      · cases h
      · next f hbytes =>
        cases h
        refine .inr (.inr ⟨f, ?_, rfl⟩)
        rintro rfl
        unfold locateBytes at hbytes
        split at hbytes
        · cases hbytes
        · split at hbytes
          · cases hbytes
          · exact walk_ne_alreadyThere hbytes

/-- What a path leads to depends on nothing but the nodes at the places. -/
theorem locate_congr {later : FileSystem} (h : ∀ r, later.node? r = fs.node? r) :
    later.locate aim path = fs.locate aim path := by
  simp only [locate, locateBytes, walk_congr h]

/-- **What a path leads to is there.** -/
theorem shows_of_locate {spot : Spot} (h : fs.locate aim path = .ok spot) : fs.Shows spot := by
  obtain ⟨b, -, hwalk⟩ := locate_eq_ok_iff.1 h
  exact shows_of_walk isDirectoryAt_root hwalk

theorem found?_eq_some_iff {p : Location} {t : Node} :
    fs.found? aim path = some (p, t) ↔ fs.locate aim path = .ok (.taken p t) := by
  unfold found?
  split
  · next h =>
    rw [h]
    constructor <;> (rintro ⟨⟩; rfl)
  · next hnot =>
    exact ⟨by rintro ⟨⟩, fun h => absurd h (hnot p t)⟩

/-- A path that is followed for more than an entry does not lead to a link. -/
theorem isLink_of_locate {p : Location} {t : Node} (haim : aim ≠ .entry)
    (h : fs.locate aim path = .ok (.taken p t)) : t.isLink = false := by
  obtain ⟨b, -, hwalk⟩ := locate_eq_ok_iff.1 h
  exact isLink_of_walk haim hwalk

theorem node?_of_found? {p : Location} {t : Node} (h : fs.found? aim path = some (p, t)) :
    fs.node? p = some t := shows_of_locate (found?_eq_some_iff.1 h)

/-- The path leads to the directory at the place. -/
def Leads (fs : FileSystem) (path : Text) (d : Location) : Prop :=
  fs.found? .target path = some (d, .directory (fs.entriesAt d))

/-- The path names the place, be it taken or vacant. -/
def Names (fs : FileSystem) (path : Text) (p : Location) : Prop :=
  fs.locate .entry path = .ok (fs.spotAt p)

theorem Leads.isDirectoryAt {d : Location} (h : fs.Leads path d) : fs.IsDirectoryAt d :=
  isDirectoryAt_of_node? (node?_of_found? h)

theorem leads_iff_exists {d : Location} :
    fs.Leads path d ↔ ∃ es, fs.found? .target path = some (d, .directory es) := by
  refine ⟨fun h => ⟨_, h⟩, ?_⟩
  rintro ⟨es, h⟩
  have hnode := node?_of_found? h
  have hdir := isDirectoryAt_iff.1 (isDirectoryAt_of_node? hnode)
  rw [hnode, Option.some.injEq] at hdir
  rw [Leads, h, hdir]

theorem Leads.unique {d e : Location} (h : fs.Leads path d) (h' : fs.Leads path e) : d = e := by
  have := h.symm.trans h'
  rw [Option.some.injEq, Prod.mk.injEq] at this
  exact this.1

theorem isDirectory_iff : fs.isDirectory path = true ↔ ∃ d, fs.Leads path d := by
  unfold isDirectory
  constructor
  · intro h
    split at h
    · next p node hfound =>
      cases node with
      | directory es => exact ⟨p, leads_iff_exists.2 ⟨es, hfound⟩⟩
      | file bytes => cases h
      | link target => cases h
    · cases h
  · rintro ⟨d, h⟩
    rw [h]
    rfl

theorem isDirectory_eq_false_iff : fs.isDirectory path = false ↔ ∀ d, ¬ fs.Leads path d := by
  rw [← Bool.not_eq_true, isDirectory_iff, not_exists]

theorem isPresent_iff :
    fs.isPresent path = true ↔ ∃ p t, fs.locate .target path = .ok (.taken p t) := by
  rw [isPresent, Option.isSome_iff_exists]
  constructor
  · rintro ⟨⟨p, t⟩, h⟩
    exact ⟨p, t, found?_eq_some_iff.1 h⟩
  · rintro ⟨p, t, h⟩
    exact ⟨(p, t), found?_eq_some_iff.2 h⟩

theorem Leads.isPresent {d : Location} (h : fs.Leads path d) : fs.isPresent path = true :=
  isPresent_iff.2 ⟨_, _, found?_eq_some_iff.1 h⟩

theorem hasEntry_iff :
    fs.hasEntry path = true ↔ ∃ p t, fs.locate .entry path = .ok (.taken p t) := by
  rw [hasEntry, Option.isSome_iff_exists]
  constructor
  · rintro ⟨⟨p, t⟩, h⟩
    exact ⟨p, t, found?_eq_some_iff.1 h⟩
  · rintro ⟨p, t, h⟩
    exact ⟨(p, t), found?_eq_some_iff.2 h⟩

/-! ## The last part of a clean path -/

variable {s : Spelling} {p d : Location}

theorem spotAt_injective {q : Location} (h : fs.spotAt p = fs.spotAt q) : p = q := by
  unfold spotAt at h
  split at h <;> split at h <;> cases h <;> rfl

theorem Names.unique {q : Location} (h : fs.Names path p) (h' : fs.Names path q) : p = q :=
  spotAt_injective (Except.ok.inj (h.symm.trans h'))

/-- The way to the last part of a path: its bytes spell a way to a directory and a name there. -/
structure Approach (fs : FileSystem) (s : Spelling) (t : Text) (left : Nat) (d : Location)
    (n : Name) : Prop where
  encode : t.encode = .ok n.bytes
  way : ∃ b bs, Path.InBytes (s.append [t]).toText b ∧
    Path.InBytes s.toText (s.anchor.bytes ++ joinWith [slashByte] bs) ∧
    s.parts.map Text.encode = bs.map Except.ok ∧
    (Route.ofBytes b).steps = bs ++ [n.bytes] ∧ (Route.ofBytes b).endsInSlash = false ∧
    Enters fs linkLimit [] bs left d

variable {t : Text} {left : Nat} {n : Name}

theorem Approach.leads (hs : s.IsClean) (h : Approach fs s t left d n) : fs.Leads s.toText d := by
  obtain ⟨b, bs, -, hinit, hbs, -, -, henters⟩ := h.way
  rw [Leads, found?_eq_some_iff, locate_eq_ok_iff]
  refine ⟨_, hinit, ?_⟩
  rw [hs.steps_ofBytes hbs]
  exact henters.walk_target _

/-- The rest of the look-up is one step. -/
theorem Approach.locate_eq_ok (h : Approach fs s t left d n) {spot : Spot} :
    fs.locate aim (s.append [t]).toText = .ok spot ↔
      fs.walk aim left d [n.bytes] false = .ok spot := by
  obtain ⟨b, bs, hb, -, -, hsteps, hslash, henters⟩ := h.way
  have hwalk : fs.walk aim linkLimit [] (Route.ofBytes b).steps (Route.ofBytes b).endsInSlash =
      fs.walk aim left d [n.bytes] false := by
    rw [hsteps, hslash, henters.walk_append (List.cons_ne_nil n.bytes [])]
  rw [locate_eq_ok_iff, ← hwalk]
  constructor
  · rintro ⟨b', hb', h'⟩
    rwa [Except.ok.inj (hb'.encode.symm.trans hb.encode)] at h'
  · exact fun h' => ⟨b, hb, h'⟩

theorem Approach.names (h : Approach fs s t left d n) : fs.Names (s.append [t]).toText (d ++ [n]) :=
  h.locate_eq_ok.2 (walk_last (.inl rfl))

theorem Approach.mono {later : FileSystem}
    (hkept : ∀ r t, fs.bare? r = some t → later.bare? r = some t)
    (h : Approach fs s t left d n) : Approach later s t left d n := by
  obtain ⟨b, bs, hb, hinit, hbs, hsteps, hslash, henters⟩ := h.way
  exact ⟨h.encode, b, bs, hb, hinit, hbs, hsteps, hslash, henters.mono hkept⟩

/-- Whenever a path with a last part is found, there is a way to that part. -/
theorem exists_approach (hs : s.IsClean) (ht : Path.IsPart t) {spot : Spot}
    (h : fs.locate aim (s.append [t]).toText = .ok spot) :
    ∃ left d n, Approach fs s t left d n := by
  obtain ⟨b, hb, hwalk⟩ := locate_eq_ok_iff.1 h
  obtain ⟨bs, y, hbs, hy, hinit, hsteps, hslash⟩ := hs.inBytes_of_append ht hb
  rw [hsteps, hslash] at hwalk
  obtain ⟨left, d, henters, hlast⟩ := exists_enters_of_walk (List.cons_ne_nil y []) hwalk
  obtain ⟨hdot, hdots⟩ := ht.bytes_ne hy
  rcases step_cases_of_walk hlast with rfl | rfl | ⟨n, rfl, -⟩
  · exact absurd rfl hdot
  · exact absurd rfl hdots
  · exact ⟨left, d, n, hy, b, bs, hb, hinit, hbs, hsteps, hslash, henters⟩

/-- A clean path is a root, or a last part in some directory. -/
theorem approach_cases (hs : s.IsClean) {spot : Spot} (h : fs.locate aim s.toText = .ok spot) :
    s.parts = [] ∨ ∃ u t left d n, u.IsClean ∧ Path.IsPart t ∧ s = u.append [t] ∧
      Approach fs u t left d n := by
  by_cases hp : s.parts = []
  · exact .inl hp
  · have hpart := hs.isPart _ (List.getLast_mem hp)
    have hsplit := Spelling.eq_append_parent hp
    rw [hsplit] at h
    obtain ⟨left, d, n, happroach⟩ := exists_approach hs.parent hpart h
    exact .inr ⟨_, _, left, d, n, hs.parent, hpart, hsplit, happroach⟩

theorem locate_root (hs : s.IsClean) (hp : s.parts = []) (aim : Aim) :
    fs.locate aim s.toText = .ok (fs.spotAt []) := by
  have hbytes : s.toText.encode = .ok s.anchor.bytes := by
    refine hs.encode_toText.2 ⟨[], by rw [hp]; rfl, ?_⟩
    simp [joinWith]
  refine locate_eq_ok_iff.2 ⟨s.anchor.bytes, ?_, ?_⟩
  · cases hanchor : s.anchor with
    | relative => exact absurd hanchor hs.anchored
    | root => exact ⟨hanchor ▸ hbytes, by decide, by decide, by decide⟩
    | doubleRoot => exact ⟨hanchor ▸ hbytes, by decide, by decide, by decide⟩
  · have hparts : s.parts.map Text.encode = ([] : List Bytes).map Except.ok := by
      rw [hp]
      rfl
    have hsteps := hs.steps_ofBytes hparts
    simp only [joinWith, List.append_nil] at hsteps
    rw [hsteps, walk_nil_eq_spotAt isDirectoryAt_root]

theorem names_root (hs : s.IsClean) (hp : s.parts = []) : fs.Names s.toText [] :=
  locate_root hs hp .entry

/-- **A clean path with a last part names that part in the directory that the rest leads to.** -/
theorem names_append (hs : s.IsClean) (ht : Path.IsPart t)
    (h : fs.Names (s.append [t]).toText p) :
    ∃ d n, p = d ++ [n] ∧ fs.Leads s.toText d ∧ t.encode = .ok n.bytes := by
  obtain ⟨left, d, n, happroach⟩ := exists_approach hs ht h
  exact ⟨d, n, h.unique happroach.names, happroach.leads hs, happroach.encode⟩

/-- **Whatever a clean path is followed for, it names a place** unless it goes wrong. -/
theorem exists_names_of_locate (hs : s.IsClean) {spot : Spot}
    (h : fs.locate aim s.toText = .ok spot) : ∃ p, fs.Names s.toText p := by
  rcases approach_cases hs h with hp | ⟨u, t, left, d, n, -, -, rfl, happroach⟩
  · exact ⟨[], names_root hs hp⟩
  · exact ⟨d ++ [n], happroach.names⟩

/-- **It is about that place**, whatever it is followed for, unless a link stands there. -/
theorem locate_of_names (hs : s.IsClean) (h : fs.Names s.toText p)
    (hlink : ∀ target, fs.bare? p ≠ some (.link target)) (aim : Aim) :
    fs.locate aim s.toText = .ok (fs.spotAt p) := by
  rcases approach_cases hs h with hp | ⟨u, t, left, d, n, -, -, rfl, happroach⟩
  · rw [h.unique (names_root hs hp)]
    exact locate_root hs hp aim
  · obtain rfl := h.unique happroach.names
    exact happroach.locate_eq_ok.2 (walk_last (.inr hlink))

/-- Followed as an entry, a clean path finds the place that it names and nothing else. -/
theorem eq_spotAt_of_locate (hs : s.IsClean) {spot : Spot}
    (h : fs.locate .entry s.toText = .ok spot) : ∃ p, spot = fs.spotAt p ∧ fs.Names s.toText p := by
  obtain ⟨p, hp⟩ := exists_names_of_locate hs h
  exact ⟨p, Except.ok.inj (h.symm.trans hp), hp⟩

/-- Followed as an entry to something, a path names its place. -/
theorem names_of_taken {t : Node} (h : fs.locate .entry path = .ok (.taken p t)) :
    fs.Names path p := by
  rw [Names, spotAt_of_node? (shows_of_locate h)]
  exact h

/-- Followed as an entry to a vacant spot, a clean path names its place. -/
theorem names_of_vacant (hs : s.IsClean) {slash : Bool}
    (h : fs.locate .entry s.toText = .ok (.vacant p slash)) : fs.Names s.toText p := by
  obtain ⟨q, hspot, hq⟩ := eq_spotAt_of_locate hs h
  unfold spotAt at hspot
  split at hspot <;> cases hspot
  exact hq

theorem Names.eq_nil_iff (hs : s.IsClean) (h : fs.Names s.toText p) : p = [] ↔ s.parts = [] := by
  constructor
  · rintro rfl
    refine Classical.byContradiction ?_
    intro hp
    rw [Spelling.eq_append_parent hp] at h
    obtain ⟨d, n, hdn, -, -⟩ := names_append hs.parent (hs.isPart _ (List.getLast_mem hp)) h
    exact absurd hdn.symm (by simp)
  · intro hp
    exact h.unique (names_root hs hp)

/-- A place that is named stands in a directory, to which the path without its last part leads. -/
theorem Names.leads_parent (hs : s.IsClean) (h : fs.Names s.toText p) (hp : p ≠ []) :
    fs.Leads s.parent.toText p.dropLast := by
  have hparts : s.parts ≠ [] := fun hnil => hp ((h.eq_nil_iff hs).2 hnil)
  rw [Spelling.eq_append_parent hparts] at h
  obtain ⟨d, n, rfl, hleads, -⟩ := names_append hs.parent (hs.isPart _ (List.getLast_mem hparts)) h
  rwa [List.dropLast_concat]

theorem Names.isDirectoryAt_dropLast (hs : s.IsClean) (h : fs.Names s.toText p) (hp : p ≠ []) :
    fs.IsDirectoryAt p.dropLast :=
  (h.leads_parent hs hp).isDirectoryAt

/-- A path that names a directory leads there. -/
theorem Names.leads (hs : s.IsClean) (h : fs.Names s.toText p) (hdir : fs.IsDirectoryAt p) :
    fs.Leads s.toText p := by
  have hlocate := locate_of_names hs h hdir.ne_link .target
  rw [spotAt_of_node? (isDirectoryAt_iff.1 hdir)] at hlocate
  exact found?_eq_some_iff.2 hlocate

theorem Names.isLink_eq {t : Node} (h : fs.Names path p) (ht : fs.node? p = some t) :
    fs.isLink path = t.isLink := by
  rw [Names, spotAt_of_node? ht] at h
  rw [isLink, found?_eq_some_iff.2 h]

/-- A path that names something leads to a directory if it names one, unless it names a link. -/
theorem Names.isDirectory_eq (hs : s.IsClean) (h : fs.Names s.toText p) {t : Node}
    (ht : fs.node? p = some t) (hlink : t.isLink = false) :
    fs.isDirectory s.toText = t.isDirectory := by
  have hlocate := locate_of_names hs h (bare?_ne_link ht hlink) .target
  rw [spotAt_of_node? ht] at hlocate
  rw [isDirectory, found?_eq_some_iff.2 hlocate]

/-- What is seen as a directory and not as a link is a directory. -/
theorem Names.isRealDirectory_eq (hs : s.IsClean) (h : fs.Names s.toText p) {t : Node}
    (ht : fs.node? p = some t) :
    (fs.isDirectory s.toText && !fs.isLink s.toText) = t.isDirectory := by
  rw [h.isLink_eq ht]
  cases hlink : t.isLink with
  | false => simp [h.isDirectory_eq hs ht hlink]
  | true => cases t <;> simp_all [Node.isLink, Node.isDirectory]

/-! ## Later file systems -/

variable {later : FileSystem}

theorem Names.mono (hs : s.IsClean) (hkept : ∀ r t, fs.bare? r = some t → later.bare? r = some t)
    (h : fs.Names s.toText p) : later.Names s.toText p := by
  rcases approach_cases hs h with hp | ⟨u, t, left, d, n, -, -, rfl, happroach⟩
  · rw [h.unique (names_root hs hp)]
    exact names_root hs hp
  · rw [h.unique happroach.names]
    exact (happroach.mono hkept).names

theorem Leads.mono (hkept : ∀ r t, fs.bare? r = some t → later.bare? r = some t)
    (h : fs.Leads path d) : later.Leads path d := by
  obtain ⟨b, hb, hwalk⟩ := locate_eq_ok_iff.1 (found?_eq_some_iff.1 h)
  obtain ⟨left, henters⟩ := exists_enters_of_walk_directory hwalk
  rw [Leads, found?_eq_some_iff, locate_eq_ok_iff]
  exact ⟨b, hb, (henters.mono hkept).walk_target _⟩

end FileSystem

end FileShell
