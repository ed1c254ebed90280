import FileShell.FileSystem.Basic

/-!
# A file system place by place

What stands at a place, without what is below it, is the node's *bare* form: the bytes of a file,
the target of a link, or the fact that it is a directory.  A file system is nothing but the bare
nodes at its places, and every change of one has a short description in these terms.

* `Entries.bare_node?_update`, `Entries.node?_update_append`: an update changes what is at and below
  its place, and nothing elsewhere.
* `Node.ind`: induction on nodes.
* `Node.sizeOf_lt_of_at?`: no node stands below itself.
* `Node.ext_of_bare`: two tidy nodes with the same bare nodes at all places are equal.
* `FileSystem.ext_of_bare`: so are two file systems, if their times and hosts are.
* `FileSystem.mem_enumerated_iff`, `pairwise_enumerated`: what the enumeration of a directory holds.
* `FileSystem.bare?_create`, `bare?_discard`, `bare?_write`, `bare?_relocate`: the four changes.
-/

namespace FileShell

/-! ## Entries under a name -/

namespace Entries

theorem find?_put_self (n : Name) (t : Node) (es : Entries) : find? (put n t es) n = some t := by
  induction es with
  | nil => simp [put, find?]
  | cons e rest ih =>
    obtain ⟨m, u⟩ := e
    rw [put]
    split
    · simp [find?]
    · split
      · simp [find?]
      · next hne =>
        rw [find?, if_neg (Ne.symm hne), ih]

theorem find?_put_ne {n m : Name} (h : m ≠ n) (t : Node) (es : Entries) :
    find? (put n t es) m = find? es m := by
  induction es with
  | nil => simp [put, find?, Ne.symm h]
  | cons e rest ih =>
    obtain ⟨k, u⟩ := e
    rw [put]
    split
    · rw [find?, if_neg (Ne.symm h)]
    · split
      · next heq =>
        rw [find?, find?, if_neg (Ne.symm h), if_neg (heq ▸ Ne.symm h)]
      · rw [find?, find?, ih]

theorem find?_drop_self (n : Name) (es : Entries) : find? (drop n es) n = none := by
  induction es with
  | nil => rfl
  | cons e rest ih =>
    obtain ⟨m, u⟩ := e
    rw [drop]
    split
    · exact ih
    · next hne => rw [find?, if_neg hne, ih]

theorem find?_drop_ne {n m : Name} (h : m ≠ n) (es : Entries) :
    find? (drop n es) m = find? es m := by
  induction es with
  | nil => rfl
  | cons e rest ih =>
    obtain ⟨k, u⟩ := e
    rw [drop]
    split
    · next heq => rw [find?, if_neg (heq ▸ Ne.symm h), ih]
    · rw [find?, find?, ih]

/-- An update at a place below a name leaves the other names alone. -/
theorem find?_update_ne {n m : Name} (h : m ≠ n) (new : Option Node) (p : Location)
    (es : Entries) : find? (update new (n :: p) es) m = find? es m := by
  cases p with
  | nil =>
    cases new with
    | none => exact find?_drop_ne h es
    | some t => exact find?_put_ne h t es
  | cons k p =>
    rw [update]
    split
    · exact find?_put_ne h _ es
    · rfl

theorem find?_eq_none_of_lt {n : Name} {es : Entries} (h : ∀ e ∈ es, n < e.1) :
    find? es n = none := by
  induction es with
  | nil => rfl
  | cons e rest ih =>
    obtain ⟨m, u⟩ := e
    have hne : m ≠ n := fun heq => Name.lt_irrefl n (heq ▸ h (m, u) List.mem_cons_self)
    rw [find?, if_neg hne, ih fun x hx => h x (List.mem_cons_of_mem _ hx)]

theorem find?_cons_eq_none_of_lt {n : Name} {e : Name × Node} {es : Entries} (h : n < e.1)
    (hes : ∀ x ∈ es, e.1 < x.1) : find? (e :: es) n = none := by
  refine find?_eq_none_of_lt ?_
  intro x hx
  rcases List.mem_cons.1 hx with rfl | hx
  · exact h
  · exact Name.lt_trans h (hes x hx)

/-- An entry of a directory in order is found under its name. -/
theorem find?_of_mem {es : Entries} (hes : es.Pairwise fun a b => a.1 < b.1) {e : Name × Node}
    (h : e ∈ es) : find? es e.1 = some e.2 := by
  induction es with
  | nil => exact absurd h List.not_mem_nil
  | cons f rest ih =>
    obtain ⟨hf, hrest⟩ := List.pairwise_cons.1 hes
    rcases List.mem_cons.1 h with rfl | h
    · simp [find?]
    · have hne : f.1 ≠ e.1 := fun heq => Name.lt_irrefl e.1 (heq ▸ hf e h)
      rw [find?, if_neg hne, ih hrest h]

/-- Two directories in order are equal if they hold the same under every name. -/
theorem ext_find? {es fs : Entries} (hes : es.Pairwise fun a b => a.1 < b.1)
    (hfs : fs.Pairwise fun a b => a.1 < b.1) (h : ∀ n, find? es n = find? fs n) : es = fs := by
  induction es generalizing fs with
  | nil =>
    cases fs with
    | nil => rfl
    | cons e rest => simpa [find?] using h e.1
  | cons e rest ih =>
    obtain ⟨n, t⟩ := e
    obtain ⟨hn, hrest⟩ := List.pairwise_cons.1 hes
    cases fs with
    | nil => simpa [find?] using h n
    | cons f more =>
      obtain ⟨m, u⟩ := f
      obtain ⟨hm, hmore⟩ := List.pairwise_cons.1 hfs
      -- the first names agree, since each list holds its own first name and nothing before it
      have hnm : n = m := by
        rcases Name.lt_or_eq_or_lt n m with hlt | heq | hlt
        · have hnone := find?_cons_eq_none_of_lt hlt hm
          rw [← h n] at hnone
          simp [find?] at hnone
        · exact heq
        · have hnone := find?_cons_eq_none_of_lt hlt hn
          rw [h m] at hnone
          simp [find?] at hnone
      subst hnm
      have htu : t = u := by simpa [find?] using h n
      subst htu
      refine congrArg ((n, t) :: ·) (ih hrest hmore fun k => ?_)
      by_cases hk : n = k
      · subst hk
        rw [find?_eq_none_of_lt hn, find?_eq_none_of_lt hm]
      · simpa [find?, hk] using h k

end Entries

/-! ## Bare nodes -/

namespace Node

/-- The node without what is below it. -/
def bare : Node → Node
  | directory _ => directory []
  | t => t

theorem bare_eq_directory_iff {t : Node} : t.bare = directory [] ↔ ∃ es, t = directory es := by
  cases t <;> simp [bare]

theorem bare_eq_file_iff {t : Node} {bytes : Bytes} : t.bare = file bytes ↔ t = file bytes := by
  cases t <;> simp [bare]

theorem bare_eq_link_iff {t : Node} {target : Bytes} :
    t.bare = link target ↔ t = link target := by
  cases t <;> simp [bare]

theorem isDirectory_iff {t : Node} : t.isDirectory = true ↔ ∃ es, t = directory es := by
  cases t <;> simp [isDirectory]

theorem eq_empty_iff {t : Node} : t = directory [] ↔ t.isDirectory = true ∧ t.entries = [] := by
  cases t <;> simp [isDirectory, entries]

theorem at?_cons (n : Name) (p : Location) (t : Node) :
    t.at? (n :: p) = (Entries.find? t.entries n).bind (at? p) := by
  rw [at?]
  cases Entries.find? t.entries n <;> rfl

/-- Nothing stands below a node that holds nothing. -/
theorem at?_of_entries_eq_nil {t : Node} (h : t.entries = []) {p : Location} (hp : p ≠ []) :
    t.at? p = none := by
  cases p with
  | nil => exact absurd rfl hp
  | cons n p => simp [at?_cons, h, Entries.find?]

theorem at?_append (p q : Location) (t : Node) : t.at? (p ++ q) = (t.at? p).bind (at? q) := by
  induction p generalizing t with
  | nil => rfl
  | cons n rest ih =>
    rw [List.cons_append, at?_cons, at?_cons]
    cases Entries.find? t.entries n with
    | none => rfl
    | some u => exact ih u

/-- An entry is smaller than its directory. -/
theorem sizeOf_lt_of_mem {es : List (Name × Node)} {e : Name × Node} (he : e ∈ es) :
    sizeOf e.2 < sizeOf (Node.directory es) := by
  have hmem := List.sizeOf_lt_of_mem he
  have hpair : sizeOf e = 1 + sizeOf e.1 + sizeOf e.2 := rfl
  simp only [Node.directory.sizeOf_spec]
  omega

theorem sizeOf_lt_of_find? {t v : Node} {n : Name} (h : Entries.find? t.entries n = some v) :
    sizeOf v < sizeOf t := by
  cases t with
  | directory es => exact sizeOf_lt_of_mem (Entries.mem_of_find? h)
  | file bytes => cases h
  | link target => cases h

/-- **No node stands below itself**, since what stands below it is smaller. -/
theorem sizeOf_lt_of_at? {t u : Node} {p : Location} (hp : p ≠ []) (h : t.at? p = some u) :
    sizeOf u < sizeOf t := by
  induction p generalizing t with
  | nil => exact absurd rfl hp
  | cons n p ih =>
    rw [at?_cons] at h
    obtain ⟨v, hv, hbelow⟩ := Option.bind_eq_some_iff.1 h
    have hentry := sizeOf_lt_of_find? hv
    by_cases hnil : p = []
    · rw [hnil, at?, Option.some.injEq] at hbelow
      rwa [← hbelow]
    · exact Nat.lt_trans (ih hnil hbelow) hentry

/-- No way down a node has as many steps as the node has parts. -/
theorem length_lt_of_at? {t u : Node} {p : Location} (h : t.at? p = some u) :
    p.length < sizeOf t := by
  induction p generalizing t with
  | nil => cases t <;> exact Nat.lt_of_lt_of_le Nat.one_pos (Nat.le_add_right 1 _)
  | cons n p ih =>
    rw [at?_cons] at h
    obtain ⟨v, hv, hbelow⟩ := Option.bind_eq_some_iff.1 h
    exact Nat.lt_of_le_of_lt (ih hbelow) (sizeOf_lt_of_find? hv)

/-- Induction on nodes: a directory is settled once its entries are. -/
theorem ind {motive : Node → Prop} (file : ∀ bytes, motive (file bytes))
    (link : ∀ target, motive (link target))
    (directory : ∀ es : List (Name × Node), (∀ e ∈ es, motive e.2) → motive (directory es)) :
    ∀ t, motive t
  | .file bytes => file bytes
  | .link target => link target
  | .directory es => directory es fun e _ => ind file link directory e.2
termination_by t => sizeOf t
decreasing_by exact sizeOf_lt_of_mem ‹_›

/-- **A tidy node is determined by the bare nodes at its places.** -/
theorem ext_of_bare {t u : Node} (ht : t.Tidy) (hu : u.Tidy)
    (h : ∀ r, (t.at? r).map bare = (u.at? r).map bare) : t = u := by
  have hroot := h []
  simp only [at?, Option.map_some, Option.some.injEq] at hroot
  induction t using ind generalizing u with
  | file bytes => exact (bare_eq_file_iff.1 hroot.symm).symm
  | link target => exact (bare_eq_link_iff.1 hroot.symm).symm
  | directory es ih =>
    obtain ⟨fs, rfl⟩ : ∃ fs, u = directory fs := bare_eq_directory_iff.1 hroot.symm
    refine congrArg directory (Entries.ext_find? (Entries.Tidy.pairwise ht)
      (Entries.Tidy.pairwise hu) fun n => ?_)
    have hn : ∀ r, ((Entries.find? es n).bind (at? r)).map bare =
        ((Entries.find? fs n).bind (at? r)).map bare := by
      intro r
      simpa only [at?_cons, entries] using h (n :: r)
    cases hes : Entries.find? es n with
    | none =>
      cases hfs : Entries.find? fs n with
      | none => rfl
      | some v => simpa [hes, hfs, at?] using hn []
    | some v =>
      cases hfs : Entries.find? fs n with
      | none => simpa [hes, hfs, at?] using hn []
      | some w =>
        have hmem := Entries.mem_of_find? hes
        have hbelow : ∀ r, (v.at? r).map bare = (w.at? r).map bare := by
          simpa [hes, hfs] using hn
        have hvw : v = w :=
          ih (n, v) hmem (Entries.Tidy.find? ht hes) (Entries.Tidy.find? hu hfs) hbelow
            (by simpa [at?] using hbelow [])
        rw [hvw]

end Node

/-! ## Updates -/

namespace Entries

theorem node?_cons (es : Entries) (n : Name) (p : Location) :
    es.node? (n :: p) = (find? es n).bind (Node.at? p) := Node.at?_cons n p _

/-- At and below its place an update puts what it brings. -/
theorem node?_update_append (new : Option Node) {p : Location} (hp : p ≠ []) {es ds : Entries}
    (hdir : es.node? p.dropLast = some (.directory ds)) (r : Location) :
    (update new p es).node? (p ++ r) = new.bind (Node.at? r) := by
  induction p generalizing es with
  | nil => exact absurd rfl hp
  | cons n p ih =>
    rw [List.cons_append, node?_cons]
    cases p with
    | nil =>
      cases new with
      | none => rw [update, find?_drop_self]; rfl
      | some t => rw [update, find?_put_self]; rfl
    | cons m p =>
      rw [List.dropLast_cons_cons, node?_cons] at hdir
      obtain ⟨t, ht, hdir⟩ := Option.bind_eq_some_iff.1 hdir
      -- what is under the first name has to be a directory, as the way goes on below it
      cases t with
      | directory sub =>
        rw [update, ht, find?_put_self]
        exact ih (List.cons_ne_nil m p) hdir
      | file bytes => cases p <;> simp [Node.at?, Node.entries, find?] at hdir
      | link target => cases p <;> simp [Node.at?, Node.entries, find?] at hdir

/-- An update changes no bare node that is not at or below its place. -/
theorem bare_node?_update {new : Option Node} {p r : Location} (h : ¬ p <+: r) (es : Entries) :
    ((update new p es).node? r).map Node.bare = (es.node? r).map Node.bare := by
  induction p generalizing r es with
  | nil => exact absurd List.nil_prefix h
  | cons n p ih =>
    cases r with
    | nil => rfl
    | cons a r =>
      rw [node?_cons, node?_cons]
      by_cases ha : a = n
      · subst ha
        rw [List.cons_prefix_cons] at h
        cases p with
        | nil => exact absurd ⟨rfl, List.nil_prefix⟩ h
        | cons m p =>
          rw [update]
          split
          · next sub hsub =>
            rw [find?_put_self, hsub]
            exact ih (fun hpre => h ⟨rfl, hpre⟩) sub
          · rfl
      · rw [find?_update_ne ha]

end Entries

/-! ## The bare nodes of a file system -/

namespace FileSystem

/-- The bare node at a place. -/
def bare? (fs : FileSystem) (p : Location) : Option Node := (fs.node? p).map Node.bare

/-- Is there a directory at the place? -/
def IsDirectoryAt (fs : FileSystem) (p : Location) : Prop := fs.bare? p = some (.directory [])

instance (fs : FileSystem) (p : Location) : Decidable (fs.IsDirectoryAt p) :=
  inferInstanceAs (Decidable (_ = _))

variable {fs later : FileSystem} {p q r : Location}

theorem bare?_of_node? {t : Node} (h : fs.node? p = some t) : fs.bare? p = some t.bare := by
  rw [bare?, h, Option.map_some]

theorem bare?_eq_none_iff : fs.bare? p = none ↔ fs.node? p = none := Option.map_eq_none_iff

theorem isDirectoryAt_iff :
    fs.IsDirectoryAt p ↔ fs.node? p = some (.directory (fs.entriesAt p)) := by
  rw [IsDirectoryAt, bare?, entriesAt]
  cases h : fs.node? p with
  | none => simp
  | some t => cases t <;> simp [Node.bare, Node.entries]

theorem isDirectoryAt_of_node? {es : Entries} (h : fs.node? p = some (.directory es)) :
    fs.IsDirectoryAt p := bare?_of_node? h

theorem bare?_eq_file_iff {bytes : Bytes} :
    fs.bare? p = some (.file bytes) ↔ fs.node? p = some (.file bytes) := by
  rw [bare?, Option.map_eq_some_iff]
  constructor
  · rintro ⟨t, ht, hb⟩
    rw [ht, Node.bare_eq_file_iff.1 hb]
  · exact fun h => ⟨_, h, rfl⟩

theorem bare?_eq_link_iff {target : Bytes} :
    fs.bare? p = some (.link target) ↔ fs.node? p = some (.link target) := by
  rw [bare?, Option.map_eq_some_iff]
  constructor
  · rintro ⟨t, ht, hb⟩
    rw [ht, Node.bare_eq_link_iff.1 hb]
  · exact fun h => ⟨_, h, rfl⟩

theorem bare?_ne_link {t : Node} (h : fs.node? p = some t) (hlink : t.isLink = false)
    (target : Bytes) : fs.bare? p ≠ some (.link target) := by
  intro htarget
  rw [bare?_eq_link_iff, h] at htarget
  cases htarget
  cases hlink

/-- What is no directory is its own bare form. -/
theorem bare?_eq_iff_of_file {t : Node} (ht : t.isDirectory = false) :
    fs.bare? p = some t ↔ fs.node? p = some t := by
  cases t with
  | file bytes => exact bare?_eq_file_iff
  | link target => exact bare?_eq_link_iff
  | directory es => cases ht

theorem bare?_ne_none_of_node? {t : Node} (h : fs.node? p = some t) : fs.bare? p ≠ none := by
  rw [bare?_of_node? h]
  simp

theorem IsDirectoryAt.ne_none (h : fs.IsDirectoryAt p) : fs.bare? p ≠ none := by
  rw [h]
  simp

theorem IsDirectoryAt.ne_link (h : fs.IsDirectoryAt p) (target : Bytes) :
    fs.bare? p ≠ some (.link target) := by
  rw [h]
  simp

theorem isDirectoryAt_root : fs.IsDirectoryAt [] := rfl

theorem node?_append (p r : Location) : fs.node? (p ++ r) = (fs.node? p).bind (Node.at? r) :=
  Node.at?_append p r _

/-- Whatever has something below it is a directory. -/
theorem isDirectoryAt_of_below (hr : r ≠ []) (h : fs.bare? (p ++ r) ≠ none) :
    fs.IsDirectoryAt p := by
  rw [Ne, bare?_eq_none_iff, node?_append] at h
  cases r with
  | nil => exact absurd rfl hr
  | cons n r =>
    cases ht : fs.node? p with
    | none => simp [ht] at h
    | some t =>
      cases t with
      | directory es => exact isDirectoryAt_of_node? ht
      | file bytes => simp [ht, Node.at?, Node.entries, Entries.find?] at h
      | link target => simp [ht, Node.at?, Node.entries, Entries.find?] at h

theorem isDirectoryAt_of_isPrefix (hpq : p <+: q) (hq : fs.IsDirectoryAt q) :
    fs.IsDirectoryAt p := by
  obtain ⟨r, rfl⟩ := hpq
  by_cases hr : r = []
  · rwa [hr, List.append_nil] at hq
  · exact isDirectoryAt_of_below hr (by rw [hq]; simp)

/-- What stands properly above a place in a directory is a directory. -/
theorem isDirectoryAt_of_properPrefix (hpq : p <+: q) (hne : p ≠ q)
    (hq : fs.IsDirectoryAt q.dropLast) : fs.IsDirectoryAt p := by
  have hq0 : q ≠ [] := fun h0 => hne (by rw [h0] at hpq ⊢; exact List.prefix_nil.1 hpq)
  rw [← List.dropLast_concat_getLast hq0] at hpq
  rcases List.prefix_concat_iff.1 hpq with heq | hpre
  · exact absurd (heq.trans (List.dropLast_concat_getLast hq0)) hne
  · exact isDirectoryAt_of_isPrefix hpre hq

theorem bare?_eq_none_of_isPrefix (hpq : p <+: q) (hp : fs.bare? p = none) : fs.bare? q = none := by
  obtain ⟨r, rfl⟩ := hpq
  rw [bare?_eq_none_iff] at hp ⊢
  rw [node?_append, hp]
  rfl

/-- A vacant place is not above one that is taken. -/
theorem not_isPrefix_of_vacant {t : Node} (hq : fs.bare? q = none) (ht : fs.node? p = some t) :
    ¬ q <+: p := by
  intro hpre
  have hnone := bare?_eq_none_of_isPrefix hpre hq
  rw [bare?_of_node? ht] at hnone
  cases hnone

/-- No directory stands at or below a file or a link. -/
theorem IsDirectoryAt.not_isPrefix_of_file {t : Node} (hq : fs.IsDirectoryAt q)
    (ht : fs.node? p = some t) (hfile : t.isDirectory = false) : ¬ p <+: q := by
  intro hpre
  have hnode := isDirectoryAt_iff.1 (isDirectoryAt_of_isPrefix hpre hq)
  rw [ht, Option.some.injEq] at hnode
  rw [hnode] at hfile
  cases hfile

/-- A place below a directory stands under that directory. -/
theorem isDirectoryAt_dropLast (hp : p ≠ []) (h : fs.bare? p ≠ none) :
    fs.IsDirectoryAt p.dropLast := by
  have hsplit := List.dropLast_concat_getLast hp
  exact isDirectoryAt_of_below (List.cons_ne_nil (p.getLast hp) []) (by rwa [hsplit])

/-- What stands at and below a place determines the node there. -/
theorem node?_eq_of_bare (h : ∀ x, later.bare? (r ++ x) = fs.bare? (r ++ x)) :
    later.node? r = fs.node? r := by
  have hroot := h []
  rw [List.append_nil, bare?, bare?] at hroot
  cases hl : later.node? r with
  | none =>
    rw [hl] at hroot
    exact (Option.map_eq_none_iff.1 hroot.symm).symm
  | some t =>
    cases hf : fs.node? r with
    | none =>
      rw [hl, hf] at hroot
      cases hroot
    | some u =>
      refine congrArg some (Node.ext_of_bare (tidy_of_node? hl) (tidy_of_node? hf) fun x => ?_)
      have hx := h x
      rwa [bare?, bare?, node?_append, node?_append, hl, hf] at hx

/-- **A file system is determined by the bare nodes at its places**, the times and the host. -/
theorem ext_of_bare (hbare : ∀ r, later.bare? r = fs.bare? r) (htimes : later.times = fs.times)
    (hhost : later.host = fs.host) : later = fs := by
  have hentries : Node.directory later.entries = .directory fs.entries :=
    Node.ext_of_bare later.tidy fs.tidy hbare
  cases later
  cases fs
  cases hentries
  cases htimes
  cases hhost
  rfl

/-- The node under a name of a directory. -/
theorem node?_concat {es : Entries} (h : fs.node? p = some (.directory es)) (n : Name) :
    fs.node? (p ++ [n]) = es.find? n := by
  rw [node?_append, h]
  show Node.at? [n] (.directory es) = _
  rw [Node.at?_cons, Node.entries]
  cases es.find? n <;> rfl

theorem pairwise_of_node? {es : Entries} (h : fs.node? p = some (.directory es)) :
    es.Pairwise fun a b => a.1 < b.1 := Entries.Tidy.pairwise (tidy_of_node? h)

/-! ## Enumerations -/

theorem node?_of_mem_entriesAt {e : Name × Node} (h : e ∈ fs.entriesAt p) :
    fs.node? (p ++ [e.1]) = some e.2 := by
  cases ht : fs.node? p with
  | none => simp [entriesAt, ht] at h
  | some t =>
    cases t with
    | directory es =>
      rw [entriesAt, ht] at h
      rw [node?_concat ht, Entries.find?_of_mem (pairwise_of_node? ht) h]
    | file bytes => simp [entriesAt, ht, Node.entries] at h
    | link target => simp [entriesAt, ht, Node.entries] at h

theorem mem_entriesAt_iff {e : Name × Node} :
    e ∈ fs.entriesAt p ↔ fs.node? (p ++ [e.1]) = some e.2 := by
  refine ⟨node?_of_mem_entriesAt, fun h => ?_⟩
  have hdir := isDirectoryAt_of_below (p := p) (List.cons_ne_nil e.1 [])
    (bare?_ne_none_of_node? h)
  rw [node?_concat (isDirectoryAt_iff.1 hdir)] at h
  exact Entries.mem_of_find? h

/-- Nothing is enumerated but the entries of the directory. -/
theorem mem_enumerated_iff {e : Name × Node} :
    e ∈ fs.enumerated p ↔ fs.node? (p ++ [e.1]) = some e.2 := by
  rw [enumerated, Host.mem_arranged, mem_entriesAt_iff]

/-- No name is enumerated twice. -/
theorem pairwise_enumerated (fs : FileSystem) (p : Location) :
    (fs.enumerated p).Pairwise fun a b => a.1 ≠ b.1 := by
  have hsorted : (fs.entriesAt p).Pairwise fun a b => a.1 ≠ b.1 := by
    cases ht : fs.node? p with
    | none => simp [entriesAt, ht]
    | some t =>
      cases t with
      | directory es =>
        rw [entriesAt, ht]
        refine (pairwise_of_node? ht).imp ?_
        intro a b hlt heq
        exact Name.lt_irrefl a.1 (heq ▸ hlt)
      | file bytes => simp [entriesAt, ht, Node.entries]
      | link target => simp [entriesAt, ht, Node.entries]
  exact ((fs.host.arranged_perm p _).pairwise_iff fun h => Ne.symm h).2 hsorted

/-- Nothing stands below a place exactly if no entries are there. -/
theorem entriesAt_eq_nil_iff :
    fs.entriesAt p = [] ↔ ∀ x, x ≠ [] → fs.bare? (p ++ x) = none := by
  constructor
  · intro h x hx
    rw [bare?_eq_none_iff]
    cases x with
    | nil => exact absurd rfl hx
    | cons n x =>
      cases hn : fs.node? (p ++ [n]) with
      | some t =>
        have hmem := mem_entriesAt_iff (e := (n, t)).2 hn
        rw [h] at hmem
        cases hmem
      | none =>
        have happend : p ++ n :: x = (p ++ [n]) ++ x := by simp
        rw [happend, node?_append, hn]
        rfl
  · intro h
    refine List.eq_nil_iff_forall_not_mem.2 fun e he => ?_
    have hnone := bare?_eq_none_iff.1 (h [e.1] (List.cons_ne_nil e.1 []))
    rw [node?_of_mem_entriesAt he] at hnone
    cases hnone

/-! ## The changes -/

/-- What an update of the tree means place by place. -/
theorem bare?_of_update (new : Option Node)
    (h : later.entries = fs.entries.update new p) (hp : p ≠ [])
    (hdir : fs.IsDirectoryAt p.dropLast) (r : Location) :
    later.bare? r =
      if p <+: r then (new.bind (Node.at? (r.drop p.length))).map Node.bare else fs.bare? r := by
  rw [bare?, node?, h]
  by_cases hpr : p <+: r
  · obtain ⟨s, rfl⟩ := hpr
    rw [if_pos ⟨s, rfl⟩, List.drop_left,
      Entries.node?_update_append _ hp (isDirectoryAt_iff.1 hdir)]
  · rw [if_neg hpr, Entries.bare_node?_update hpr]
    rfl

theorem bare?_create {t : Node} (ht : t.Tidy) (hp : p ≠ []) (hdir : fs.IsDirectoryAt p.dropLast)
    (r : Location) :
    (fs.create p t ht).bare? r =
      if p <+: r then (t.at? (r.drop p.length)).map Node.bare else fs.bare? r :=
  bare?_of_update (some t) rfl hp hdir r

/-- What is put at a place is found there. -/
theorem node?_create {t : Node} (ht : t.Tidy) (hp : p ≠ []) (hdir : fs.IsDirectoryAt p.dropLast) :
    (fs.create p t ht).node? p = some t := by
  have h := Entries.node?_update_append (some t) hp (isDirectoryAt_iff.1 hdir) []
  rwa [List.append_nil] at h

theorem node?_write {bytes : Bytes} (hp : p ≠ []) (hdir : fs.IsDirectoryAt p.dropLast) :
    (fs.write p bytes).node? p = some (.file bytes) := by
  have h := Entries.node?_update_append (some (.file bytes)) hp (isDirectoryAt_iff.1 hdir) []
  rwa [List.append_nil] at h

theorem bare?_write {bytes : Bytes} (hp : p ≠ []) (hdir : fs.IsDirectoryAt p.dropLast)
    (r : Location) :
    (fs.write p bytes).bare? r =
      if p <+: r then ((Node.file bytes).at? (r.drop p.length)).map Node.bare else fs.bare? r :=
  bare?_of_update (some (.file bytes)) rfl hp hdir r

theorem bare?_discard (hp : p ≠ []) (hdir : fs.IsDirectoryAt p.dropLast) (r : Location) :
    (fs.discard p).bare? r = if p <+: r then none else fs.bare? r :=
  bare?_of_update none rfl hp hdir r

/-- What a relocation is an update of: the file system without what was taken. -/
theorem entries_relocate {t : Node} (ht : fs.node? p = some t) (q : Location) :
    (fs.relocate p q).entries = (fs.discard p).entries.update (some t) q := by
  unfold relocate
  split
  · next h => rw [h] at ht; cases ht
  · next h => rw [h] at ht; cases ht; rfl

/-- The directory of the new place is still there when the old place is cleared. -/
theorem isDirectoryAt_discard (hp : p ≠ []) (ht : fs.bare? p ≠ none)
    (hdir : fs.IsDirectoryAt q.dropLast) (hpq : ¬ p <+: q) :
    (fs.discard p).IsDirectoryAt q.dropLast := by
  have hpq' : ¬ p <+: q.dropLast := fun h => hpq (h.trans (List.dropLast_prefix q))
  rw [IsDirectoryAt, bare?_discard hp (isDirectoryAt_dropLast hp ht), if_neg hpq']
  exact hdir

/-- What is taken elsewhere arrives there whole, and leaves nothing where it was. -/
theorem bare?_relocate {t : Node} (ht : fs.node? p = some t) (hp : p ≠ []) (hq : q ≠ [])
    (hdir : fs.IsDirectoryAt q.dropLast) (hpq : ¬ p <+: q) (r : Location) :
    (fs.relocate p q).bare? r =
      if q <+: r then (t.at? (r.drop q.length)).map Node.bare
      else if p <+: r then none else fs.bare? r := by
  have htaken := bare?_ne_none_of_node? ht
  rw [bare?_of_update _ (entries_relocate ht q) hq (isDirectoryAt_discard hp htaken hdir hpq),
    bare?_discard hp (isDirectoryAt_dropLast hp htaken)]
  rfl

theorem node?_relocate {t : Node} (ht : fs.node? p = some t) (hp : p ≠ []) (hq : q ≠ [])
    (hdir : fs.IsDirectoryAt q.dropLast) (hpq : ¬ p <+: q) :
    (fs.relocate p q).node? q = some t := by
  have htaken := bare?_ne_none_of_node? ht
  have h := Entries.node?_update_append (some t) hq
    (isDirectoryAt_iff.1 (isDirectoryAt_discard hp htaken hdir hpq)) []
  rw [List.append_nil] at h
  rw [node?, entries_relocate ht]
  exact h

end FileSystem

end FileShell
