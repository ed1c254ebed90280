import FileShell.FileSystem.Walk
import FileShell.Proofs.Path.Clean
import FileShell.Proofs.Text.Ascii

/-!
# Clean paths in bytes

The file system gets a path as bytes.  The bytes of a clean path are its slashes and the bytes of
its parts, and the route that they spell goes through exactly these parts.

* `Path.InBytes`: a path can be handed to the file system as these bytes.
* `Spelling.IsClean.encode_toText`: a clean path is encoded part by part.
* `Spelling.IsClean.steps_ofBytes`: the route goes through the parts.
* `Name.isPart_toText`: a name, read as a text, is a part.
-/

namespace FileShell

/-- The bytes that an anchor is written with. -/
def Anchor.bytes : Anchor → Bytes
  | relative => []
  | root => [slashByte]
  | doubleRoot => [slashByte, slashByte]

theorem Anchor.encode_slashes (a : Anchor) : Text.encode a.slashes = .ok a.bytes := by
  cases a <;> rfl

/-- The path can be handed to the file system as these bytes. -/
structure Path.InBytes (path : Text) (b : Bytes) : Prop where
  encode : path.encode = .ok b
  zeroFree : 0 ∉ b
  ne_nil : b ≠ []
  length_le : b.length ≤ pathLimit

/-- Whatever is among the encodings of some texts is the encoding of one of them. -/
theorem Text.mem_of_map_encode {ts : List Text} {bs : List Bytes}
    (h : ts.map Text.encode = bs.map Except.ok) {b : Bytes} (hb : b ∈ bs) :
    ∃ t ∈ ts, Text.encode t = .ok b := by
  have hmem : Except.ok b ∈ ts.map Text.encode := h ▸ List.mem_map_of_mem hb
  obtain ⟨t, ht, htb⟩ := List.mem_map.1 hmem
  exact ⟨t, ht, htb⟩

namespace Spelling

variable {s : Spelling}

/-- **A clean path is encoded part by part.** -/
theorem IsClean.encode_toText (hs : s.IsClean) {b : Bytes} :
    s.toText.encode = .ok b ↔
      ∃ bs, s.parts.map Text.encode = bs.map Except.ok ∧
        b = s.anchor.bytes ++ joinWith [slashByte] bs := by
  rw [hs.toText_eq]
  constructor
  · intro h
    obtain ⟨x, y, hx, hy, rfl⟩ := Text.encode_append_eq_ok h
    rw [Anchor.encode_slashes] at hx
    cases hx
    obtain ⟨bs, hbs, rfl⟩ := Text.encode_joinWith hy
    exact ⟨bs, hbs, rfl⟩
  · rintro ⟨bs, hbs, rfl⟩
    exact Text.encode_append (Anchor.encode_slashes _) (Text.joinWith_encode hbs)

theorem IsClean.slashFree_bytes (hs : s.IsClean) {bs : List Bytes}
    (h : s.parts.map Text.encode = bs.map Except.ok) : ∀ b ∈ bs, b ≠ [] ∧ slashByte ∉ b := by
  intro b hb
  obtain ⟨t, ht, htb⟩ := Text.mem_of_map_encode h hb
  refine ⟨?_, ?_⟩
  · rintro rfl
    exact (hs.slashFree t ht).1 (Text.encode_eq_nil htb)
  · rw [Text.slashByte_mem_iff htb]
    exact (hs.slashFree t ht).2

theorem IsClean.bytes_anchor_ne_nil (hs : s.IsClean) : s.anchor.bytes ≠ [] := by
  cases hanchor : s.anchor with
  | relative => exact absurd hanchor hs.anchored
  | root => simp [Anchor.bytes]
  | doubleRoot => simp [Anchor.bytes]

theorem cutAt_bytes_append (a : Anchor) (b : Bytes) :
    (cutAt slashByte (a.bytes ++ b)).filter (· ≠ []) = (cutAt slashByte b).filter (· ≠ []) := by
  cases a <;> simp [Anchor.bytes, cutAt]

/-- **The route of a clean path goes through its parts.** -/
theorem IsClean.steps_ofBytes (hs : s.IsClean) {bs : List Bytes}
    (h : s.parts.map Text.encode = bs.map Except.ok) :
    (Route.ofBytes (s.anchor.bytes ++ joinWith [slashByte] bs)).steps = bs := by
  rw [Route.ofBytes, cutAt_bytes_append]
  by_cases hbs : bs = []
  · simp [hbs, joinWith, cutAt]
  · rw [cutAt_joinWith hbs fun b hb => (hs.slashFree_bytes h b hb).2]
    exact List.filter_eq_self.2 fun b hb => decide_eq_true (hs.slashFree_bytes h b hb).1

/-- Only the route to the root ends in a slash. -/
theorem IsClean.endsInSlash_ofBytes (hs : s.IsClean) {bs : List Bytes}
    (h : s.parts.map Text.encode = bs.map Except.ok) (hbs : bs ≠ []) :
    (Route.ofBytes (s.anchor.bytes ++ joinWith [slashByte] bs)).endsInSlash = false := by
  rw [Route.ofBytes]
  exact decide_eq_false (getLast?_append_joinWith_ne hbs (hs.slashFree_bytes h) _)

/-- If a path can be handed over, so can the path without the last part, and the last part has an
encoding. -/
theorem IsClean.inBytes_of_append (hs : s.IsClean) {t : Text} (ht : Path.IsPart t) {b : Bytes}
    (h : Path.InBytes (s.append [t]).toText b) :
    ∃ bs y, s.parts.map Text.encode = bs.map Except.ok ∧ Text.encode t = .ok y ∧
      Path.InBytes s.toText (s.anchor.bytes ++ joinWith [slashByte] bs) ∧
      (Route.ofBytes b).steps = bs ++ [y] ∧ (Route.ofBytes b).endsInSlash = false := by
  have hs' := hs.append_singleton ht
  obtain ⟨cs, hcs, rfl⟩ := hs'.encode_toText.1 h.encode
  have hcs' : s.parts.map Text.encode ++ [Text.encode t] = cs.map Except.ok := by
    rw [← hcs, Spelling.append, List.map_append, List.map_singleton]
  obtain ⟨bs, ys, rfl, hbs, hys⟩ := List.map_eq_append_iff.1 hcs'.symm
  obtain ⟨y, rfl⟩ : ∃ y, ys = [y] := by
    have hlen := congrArg List.length hys
    simp only [List.length_map, List.length_singleton] at hlen
    exact List.length_eq_one_iff.1 hlen
  have hy : Text.encode t = .ok y := by
    simpa using hys.symm
  refine ⟨bs, y, hbs.symm, hy, ?_, hs'.steps_ofBytes hcs, hs'.endsInSlash_ofBytes hcs (by simp)⟩
  -- the bytes of the shorter path are the first bytes of the longer one
  have hpre : s.anchor.bytes ++ joinWith [slashByte] bs <+:
      (s.append [t]).anchor.bytes ++ joinWith [slashByte] (bs ++ [y]) :=
    List.prefix_append_right_inj _ |>.2 (joinWith_isPrefix _ (List.prefix_append _ _))
  refine ⟨hs.encode_toText.2 ⟨bs, hbs.symm, rfl⟩, fun h0 => h.zeroFree (hpre.subset h0), ?_,
    Nat.le_trans hpre.length_le h.length_le⟩
  exact fun hnil => hs.bytes_anchor_ne_nil (List.append_eq_nil_iff.1 hnil).1

/-- If a path can be handed over, so can one whose parts have the first of its encodings after a
single slash. -/
theorem IsClean.inBytes_of_isPrefix (hs : s.IsClean) (hroot : s.anchor = .root) {u : Spelling}
    (hu : u.IsClean) {b : Bytes} (h : Path.InBytes u.toText b)
    (hpre : s.parts.map Text.encode <+: u.parts.map Text.encode) :
    ∃ c, Path.InBytes s.toText c := by
  obtain ⟨bs, hbs, rfl⟩ := hu.encode_toText.1 h.encode
  rw [hbs, List.prefix_map_iff] at hpre
  obtain ⟨cs, hcs, hparts⟩ := hpre
  have hjoin := joinWith_isPrefix [slashByte] hcs
  have hbytes := hs.encode_toText.2 ⟨cs, hparts, rfl⟩
  rw [hroot] at hbytes
  refine ⟨_, hbytes, ?_, List.cons_ne_nil _ _, ?_⟩
  · intro h0
    rcases List.mem_cons.1 h0 with hslash | h0
    · cases hslash
    · exact h.zeroFree (List.mem_append_right _ (hjoin.subset h0))
  · have hanchor := List.length_pos_iff.2 hu.bytes_anchor_ne_nil
    have hlength := h.length_le
    rw [List.length_append] at hlength
    have := hjoin.length_le
    simp only [Anchor.bytes, List.singleton_append, List.length_cons]
    omega

end Spelling

/-! ## Names as parts -/

theorem Path.encode_here : Text.encode Path.here = .ok [dotByte] := rfl

theorem Path.encode_up : Text.encode Path.up = .ok [dotByte, dotByte] := rfl

theorem Name.encode_toText (n : Name) : n.toText.encode = .ok n.bytes := Text.encode_decode n.bytes

/-- **A name, read as a text, is a part of a path.** -/
theorem Name.isPart_toText (n : Name) : Path.IsPart n.toText := by
  have hn := n.encode_toText
  refine ⟨?_, ?_, ?_, ?_⟩
  · intro h
    rw [h] at hn
    exact n.isName.1 (Except.ok.inj hn).symm
  · intro h
    rw [h, Path.encode_here] at hn
    exact n.isName.2.1 (Except.ok.inj hn).symm
  · intro h
    rw [h, Path.encode_up] at hn
    exact n.isName.2.2.1 (Except.ok.inj hn).symm
  · rw [← Text.slashByte_mem_iff hn]
    exact fun h => (n.isName.2.2.2.2 _ h).1 rfl

/-- The bytes of a part are neither `.` nor `..`. -/
theorem Path.IsPart.bytes_ne {t : Text} (ht : Path.IsPart t) {b : Bytes} (h : t.encode = .ok b) :
    b ≠ [dotByte] ∧ b ≠ [dotByte, dotByte] := by
  refine ⟨?_, ?_⟩
  · rintro rfl
    exact ht.2.1 (Text.eq_of_encode_ascii h (by simp [dotByte]))
  · rintro rfl
    exact ht.2.2.1 (Text.eq_of_encode_ascii h (by simp [dotByte]))

/-! ## Texts without surrogates -/

namespace Text

/-- Every symbol is a scalar value. -/
def SurrogateFree (t : Text) : Prop := ∀ a ∈ t, ∃ c, a = Symbol.scalar c

theorem SurrogateFree.exists_chars {t : Text} (ht : t.SurrogateFree) :
    ∃ cs : List Char, t = cs.map .scalar := by
  induction t with
  | nil => exact ⟨[], rfl⟩
  | cons a t ih =>
    obtain ⟨c, rfl⟩ := ht a List.mem_cons_self
    obtain ⟨cs, rfl⟩ := ih fun a ha => ht a (List.mem_cons_of_mem _ ha)
    exact ⟨c :: cs, rfl⟩

end Text

/-- If the bytes of the first path, part by part, begin those of the second, then so do its
symbols. -/
def Path.SpelledAlike (p q : Text) : Prop :=
  (Spelling.ofText p).parts.map Text.encode <+: (Spelling.ofText q).parts.map Text.encode →
    (Spelling.ofText p).parts <+: (Spelling.ofText q).parts

/-- Outcomes can be compared. -/
instance outcomeDecidableEq {ε α : Type} [DecidableEq ε] [DecidableEq α] :
    DecidableEq (Except ε α)
  | .ok a, .ok b => decidable_of_iff (a = b) ⟨congrArg _, Except.ok.inj⟩
  | .error d, .error e => decidable_of_iff (d = e) ⟨congrArg _, Except.error.inj⟩
  | .ok _, .error _ => isFalse (by simp)
  | .error _, .ok _ => isFalse (by simp)

instance (p q : Text) : Decidable (Path.SpelledAlike p q) := inferInstanceAs (Decidable (_ → _))

end FileShell
