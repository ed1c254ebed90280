import FileShell.Proofs.FileSystem.Places

/-!
# The places below a directory

How deep directories stand below a place, and the list of all places below it in depth-first order:
each directory before what stands in it, the entries of one directory as they are enumerated, links
not followed.  The order on places says so without going through the tree: of two places either one
is above the other, or their ways part at some directory, and there one name is enumerated first.

* `FileSystem.Fits`: no directory stands too deep below a place.
* `FileSystem.Precedes`: the depth-first order of the places below a directory.
* `FileSystem.mem_descendants`: the list holds every place below, if it goes deep enough.
* `FileSystem.pairwise_descendants`, `nodup_descendants`: it is in order, and holds each place once.
-/

namespace FileShell

namespace FileSystem

variable {fs later : FileSystem} {d p q : Location} {n m : Name} {levels : Nat}

/-! ## How deep directories stand -/

/-- No directory stands so many levels below the place or more, the place itself included. -/
def Fits (fs : FileSystem) (levels : Nat) (p : Location) : Prop :=
  ∀ x, fs.IsDirectoryAt (p ++ x) → x.length < levels

theorem not_fits_zero (hdir : fs.IsDirectoryAt p) : ¬ fs.Fits 0 p := fun h =>
  Nat.not_lt_zero 0 (h [] (by rwa [List.append_nil]))

/-- The first step of a way down to a directory goes to an entry that is a directory. -/
theorem mem_enumerated_of_isDirectoryAt {x : Location} (h : fs.IsDirectoryAt (p ++ n :: x)) :
    (n, Node.directory (fs.entriesAt (p ++ [n]))) ∈ fs.enumerated p := by
  have happend : p ++ n :: x = (p ++ [n]) ++ x := by simp
  rw [happend] at h
  exact mem_enumerated_iff.2
    (isDirectoryAt_iff.1 (isDirectoryAt_of_isPrefix (List.prefix_append (p ++ [n]) x) h))

theorem fits_succ_iff :
    fs.Fits (levels + 1) p ↔ ∀ e ∈ fs.enumerated p, fs.Fits levels (p ++ [e.1]) := by
  constructor
  · intro h e _ x hx
    have hlt := h (e.1 :: x) (by simpa using hx)
    simpa using hlt
  · intro h x hx
    cases x with
    | nil => exact Nat.succ_pos levels
    | cons n x =>
      exact Nat.succ_lt_succ (h _ (mem_enumerated_of_isDirectoryAt hx) x (by simpa using hx))

/-- What is no directory has none below it. -/
theorem fits_of_file {t : Node} (ht : fs.node? p = some t) (hfile : t.isDirectory = false) :
    fs.Fits levels p := fun x hx =>
  absurd (List.prefix_append p x) (hx.not_isPrefix_of_file ht hfile)

theorem fits_zero_iff : fs.Fits 0 p ↔ ¬ fs.IsDirectoryAt p := by
  refine ⟨fun h hdir => not_fits_zero hdir h, fun h x hx => absurd ?_ h⟩
  exact isDirectoryAt_of_isPrefix (List.prefix_append p x) hx

/-- How deep directories stand is seen by going down to them. -/
def decidableFits (fs : FileSystem) : (levels : Nat) → (p : Location) → Decidable (fs.Fits levels p)
  | 0, _ => decidable_of_iff _ fits_zero_iff.symm
  | levels + 1, p =>
    have := fun e : Name × Node => decidableFits fs levels (p ++ [e.1])
    decidable_of_iff (∀ e ∈ fs.enumerated p, fs.Fits levels (p ++ [e.1])) fits_succ_iff.symm

instance : Decidable (fs.Fits levels p) := decidableFits fs levels p

theorem Fits.of_bare (h : fs.Fits levels p)
    (hbare : ∀ x, later.bare? (p ++ x) = fs.bare? (p ++ x)) :
    later.Fits levels p := fun x hx => h x ((hbare x).symm.trans hx)

/-- Every tree ends somewhere. -/
theorem exists_fits (fs : FileSystem) (p : Location) : ∃ levels, fs.Fits levels p := by
  cases ht : fs.node? p with
  | none =>
    refine ⟨0, fun x hx => absurd ?_ hx.ne_none⟩
    rw [bare?_eq_none_iff, node?_append, ht]
    rfl
  | some t =>
    refine ⟨sizeOf t, fun x hx => ?_⟩
    have hnode := isDirectoryAt_iff.1 hx
    rw [node?_append, ht, Option.bind_some] at hnode
    exact Node.length_lt_of_at? hnode

/-! ## Depth-first order -/

/-- In depth-first order one place below a directory stands before another if it is above that one,
or if its name is enumerated first where their ways part. -/
inductive Precedes (fs : FileSystem) (d : Location) : Location → Location → Prop
  | above (p : Location) (n : Name) (q : Location) : Precedes fs d p (p ++ n :: q)
  | beside (c : Location) {n m : Name} (p q : Location)
      (h : List.Sublist [n, m] ((fs.enumerated (d ++ c)).map Prod.fst)) :
      Precedes fs d (c ++ n :: p) (c ++ m :: q)

theorem nodup_enumerated (fs : FileSystem) (p : Location) :
    ((fs.enumerated p).map Prod.fst).Nodup :=
  List.pairwise_map.2 (fs.pairwise_enumerated p)

theorem Precedes.ne (h : fs.Precedes d p q) : p ≠ q := by
  intro heq
  cases h with
  | above _ n q => simp at heq
  | beside c p q hnm =>
    obtain ⟨rfl, -⟩ := List.cons.inj (List.append_cancel_left heq)
    exact List.pairwise_iff_forall_sublist.1 (fs.nodup_enumerated (d ++ c)) hnm rfl

/-- The order below an entry is the order below the directory. -/
theorem Precedes.cons (h : fs.Precedes (d ++ [n]) p q) : fs.Precedes d (n :: p) (n :: q) := by
  cases h with
  | above _ m q => exact .above (n :: p) m q
  | beside c p q hnm =>
    rw [List.append_assoc, List.singleton_append] at hnm
    exact .beside (n :: c) p q hnm

/-! ## The list -/

/-- The places below a directory, seen from it, in depth-first order, down to a number of levels. -/
def descendants (fs : FileSystem) : (levels : Nat) → (d : Location) → List Location
  | 0, _ => []
  | levels + 1, d => (fs.enumerated d).flatMap fun e =>
    [e.1] :: (descendants fs levels (d ++ [e.1])).map (e.1 :: ·)

theorem ne_nil_of_mem_descendants (h : p ∈ fs.descendants levels d) : p ≠ [] := by
  cases levels with
  | zero => cases h
  | succ levels =>
    obtain ⟨e, -, he⟩ := List.mem_flatMap.1 h
    rcases List.mem_cons.1 he with rfl | he
    · exact List.cons_ne_nil e.1 []
    · obtain ⟨q, -, rfl⟩ := List.mem_map.1 he
      exact List.cons_ne_nil e.1 q

theorem entries_of_file {t : Node} (hfile : t.isDirectory = false) : t.entries = [] := by
  cases t with
  | directory es => cases hfile
  | file bytes => rfl
  | link target => rfl

/-- Nothing stands below what is no directory. -/
theorem descendants_of_file {t : Node} (ht : fs.node? d = some t) (hfile : t.isDirectory = false)
    (levels : Nat) : fs.descendants levels d = [] := by
  cases levels with
  | zero => rfl
  | succ levels =>
    have hnone : fs.enumerated d = [] := by
      rw [enumerated, Host.arranged_eq_nil, entriesAt, ht]
      exact entries_of_file hfile
    rw [descendants, hnone]
    rfl

theorem cons_mem_descendants :
    n :: p ∈ fs.descendants (levels + 1) d ↔
      (∃ t, fs.node? (d ++ [n]) = some t) ∧ (p = [] ∨ p ∈ fs.descendants levels (d ++ [n])) := by
  rw [descendants, List.mem_flatMap]
  constructor
  · rintro ⟨e, he, hp⟩
    rcases List.mem_cons.1 hp with hp | hp
    · obtain ⟨rfl, rfl⟩ := List.cons.inj hp
      exact ⟨⟨e.2, mem_enumerated_iff.1 he⟩, .inl rfl⟩
    · obtain ⟨q, hq, heq⟩ := List.mem_map.1 hp
      obtain ⟨rfl, rfl⟩ := List.cons.inj heq
      exact ⟨⟨e.2, mem_enumerated_iff.1 he⟩, .inr hq⟩
  · rintro ⟨⟨t, ht⟩, hp⟩
    refine ⟨(n, t), mem_enumerated_iff.2 ht, ?_⟩
    rcases hp with rfl | hp
    · exact List.mem_cons_self
    · exact List.mem_cons_of_mem _ (List.mem_map_of_mem hp)

/-- **Every place below a directory is in the list**, and no other. -/
theorem mem_descendants (hfits : fs.Fits levels d) (hdir : fs.IsDirectoryAt d) :
    p ∈ fs.descendants levels d ↔ p ≠ [] ∧ fs.node? (d ++ p) ≠ none := by
  induction levels generalizing d p with
  | zero => exact absurd hfits (not_fits_zero hdir)
  | succ levels ih =>
    cases p with
    | nil => simpa using fun h => ne_nil_of_mem_descendants h rfl
    | cons n q =>
      have happend : d ++ n :: q = (d ++ [n]) ++ q := by simp
      have hnode : fs.node? (d ++ n :: q) = (fs.node? (d ++ [n])).bind (Node.at? q) := by
        rw [happend, node?_append]
      rw [cons_mem_descendants, hnode]
      cases ht : fs.node? (d ++ [n]) with
      | none => simp
      | some t =>
        have hbelow : q ∈ fs.descendants levels (d ++ [n]) ↔ q ≠ [] ∧ t.at? q ≠ none := by
          cases hfile : t.isDirectory with
          | true =>
            obtain ⟨es, rfl⟩ := Node.isDirectory_iff.1 hfile
            have hmem := mem_enumerated_iff (e := (n, Node.directory es)).2 ht
            rw [ih (fits_succ_iff.1 hfits _ hmem) (isDirectoryAt_of_node? ht), node?_append, ht,
              Option.bind_some]
          | false =>
            rw [descendants_of_file ht hfile]
            simpa using fun hq => Node.at?_of_entries_eq_nil (entries_of_file hfile) hq
        rw [hbelow, Option.bind_some]
        cases q <;> simp [Node.at?]

theorem exists_eq_cons_of_mem {l : List Location} (h : p ∈ [n] :: l.map (n :: ·)) :
    ∃ q, p = n :: q := by
  rcases List.mem_cons.1 h with rfl | h
  · exact ⟨[], rfl⟩
  · obtain ⟨q, -, rfl⟩ := List.mem_map.1 h
    exact ⟨q, rfl⟩

/-- **The list is in depth-first order.** -/
theorem pairwise_descendants (fs : FileSystem) (levels : Nat) (d : Location) :
    (fs.descendants levels d).Pairwise (fs.Precedes d) := by
  induction levels generalizing d with
  | zero => exact .nil
  | succ levels ih =>
    rw [descendants, List.pairwise_flatMap]
    refine ⟨fun e _ => ?_, List.pairwise_iff_forall_sublist.2 fun {a b} hab => ?_⟩
    · refine List.pairwise_cons.2 ⟨fun q hq => ?_, ?_⟩
      · obtain ⟨r, hr, rfl⟩ := List.mem_map.1 hq
        obtain ⟨m, r, rfl⟩ := List.exists_cons_of_ne_nil (ne_nil_of_mem_descendants hr)
        exact .above [e.1] m r
      · exact List.pairwise_map.2 ((ih (d ++ [e.1])).imp Precedes.cons)
    · -- what is below different entries parts at the directory itself
      have hparts : ∀ p q, fs.Precedes d (a.1 :: p) (b.1 :: q) := fun p q =>
        .beside [] p q (by simpa using hab.map Prod.fst)
      intro p hp q hq
      obtain ⟨p, rfl⟩ := exists_eq_cons_of_mem hp
      obtain ⟨q, rfl⟩ := exists_eq_cons_of_mem hq
      exact hparts p q

theorem nodup_descendants (fs : FileSystem) (levels : Nat) (d : Location) :
    (fs.descendants levels d).Nodup :=
  (fs.pairwise_descendants levels d).imp Precedes.ne

end FileSystem

end FileShell
