import FileShell.Proofs.FileSystem.Named

/-!
# File systems without links

Without links the parts of a clean path are the names of the place that it names, byte for byte.

* `FileSystem.spells_of_names`: a path names the place that it spells, and no other.
* `FileSystem.leads_of_spells`: a path that spells a directory leads there.
-/

namespace FileShell

/-- The parts of a path are encoded to the names of a place. -/
def Path.Spells (path : Text) (p : Location) : Prop :=
  (Spelling.ofText path).parts.map Text.encode = p.map fun n => .ok n.bytes

theorem Path.Spells.unique {path : Text} {p q : Location} (hp : Path.Spells path p)
    (hq : Path.Spells path q) : p = q := by
  refine (List.map_inj_right fun a b h => ?_).1 (hp.symm.trans hq)
  exact Name.ext_bytes (Except.ok.inj h)

namespace FileSystem

/-- No link stands anywhere. -/
def LinkFree (fs : FileSystem) : Prop := ∀ p target, fs.bare? p ≠ some (.link target)

variable {fs : FileSystem} {s : Spelling} {p d : Location}

/-- Where there is no link, a path that leads to a directory names it. -/
theorem Leads.names (hfs : fs.LinkFree) (hs : s.IsClean) (h : fs.Leads s.toText d) :
    fs.Names s.toText d := by
  have hlocate := found?_eq_some_iff.1 h
  obtain ⟨p, hp⟩ := exists_names_of_locate hs hlocate
  have hsame := locate_of_names hs hp (hfs p) .target
  rw [hlocate, ← spotAt_of_node? (isDirectoryAt_iff.1 h.isDirectoryAt)] at hsame
  rwa [spotAt_injective (Except.ok.inj hsame)]

/-- **A path names the place that it spells.** -/
theorem spells_of_names (hfs : fs.LinkFree) (hs : s.IsClean) (h : fs.Names s.toText p) :
    Path.Spells s.toText p := by
  rw [Path.Spells, Spelling.ofText_toText hs]
  -- on the parts, the last one first
  induction hlen : s.parts.length generalizing s p with
  | zero =>
    have hp := List.length_eq_zero_iff.1 hlen
    rw [(h.eq_nil_iff hs).2 hp, hp]
    rfl
  | succ k ih =>
    rcases approach_cases hs h with hp | ⟨u, t, left, d, n, hu, -, rfl, happroach⟩
    · rw [hp] at hlen
      cases hlen
    · rw [h.unique happroach.names, Spelling.append, List.map_append, List.map_append]
      have hparts : u.parts.length = k := by
        simpa [Spelling.append] using hlen
      rw [ih hu ((happroach.leads hu).names hfs hu) hparts, List.map_singleton, happroach.encode]
      rfl

/-- Names of directories are steps into them. -/
theorem enters_of_isDirectoryAt {links : Nat} {here ns : Location}
    (h : fs.IsDirectoryAt (here ++ ns)) :
    Enters fs links here (ns.map Name.bytes) links (here ++ ns) := by
  induction ns generalizing here with
  | nil =>
    rw [List.append_nil]
    exact .done
  | cons n ns ih =>
    have hsplit : here ++ n :: ns = here ++ [n] ++ ns := by simp
    rw [hsplit] at h ⊢
    exact .into (isDirectoryAt_of_isPrefix (List.prefix_append _ ns) h) (ih h)

/-- **A path that spells a directory leads there**, if it can be handed over. -/
theorem leads_of_spells (hs : s.IsClean) {b : Bytes} (hb : Path.InBytes s.toText b)
    (hd : Path.Spells s.toText d) (hdir : fs.IsDirectoryAt d) : fs.Leads s.toText d := by
  rw [Path.Spells, Spelling.ofText_toText hs] at hd
  obtain ⟨bs, hbs, rfl⟩ := hs.encode_toText.1 hb.encode
  have hsteps : bs = d.map Name.bytes := by
    have hinj : ∀ a b : Bytes, (Except.ok a : Except Unencodable Bytes) = .ok b → a = b :=
      fun a b h => Except.ok.inj h
    refine (List.map_inj_right hinj).1 ?_
    rw [← hbs, hd, List.map_map]
    rfl
  rw [Leads, found?_eq_some_iff, locate_eq_ok_iff]
  refine ⟨_, hb, ?_⟩
  rw [hs.steps_ofBytes hbs, hsteps]
  have hbelow : fs.IsDirectoryAt ([] ++ d) := hdir
  exact (enters_of_isDirectoryAt hbelow).walk_target _

end FileSystem

end FileShell
