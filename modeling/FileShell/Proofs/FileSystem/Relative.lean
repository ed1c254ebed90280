import FileShell.Proofs.FileSystem.LinkFree
import FileShell.Proofs.Path.Parent

/-!
# Places seen from a directory

What stands below a directory has a path relative to it, the names on the way down.  Put after any
path that leads to the directory, spelled as it may be and through whatever links, it gives a path
that names the place, as long as it does not get too long.

* `Location.toText`: the path of a place, seen from a directory above it.
* `Path.inBytes_join`: the route of a path goes on through the names.
* `FileSystem.locate_join`: what the joined path leads to.
* `FileSystem.isRealDirectory_join`: when it is seen as a directory and not as a link.
-/

namespace FileShell

/-! ## Texts of places -/

namespace Location

/-- The path of a place, seen from the directory above all its names. -/
def toText (p : Location) : Text := joinWith [.scalar '/'] (p.map Name.toText)

/-- The names of a place are the parts of a clean path. -/
theorem isClean (p : Location) : (⟨.root, p.map Name.toText⟩ : Spelling).IsClean where
  anchored := by simp
  isPart t ht := by
    obtain ⟨n, -, rfl⟩ := List.mem_map.1 ht
    exact n.isPart_toText

theorem toText_cases {p : Location} (hp : p ≠ []) :
    ∃ a more, p.toText = a :: more ∧ a ≠ .scalar '/' := by
  rcases p.isClean.joined_cases with ⟨-, hnil⟩ | hcons
  · exact absurd (List.map_eq_nil_iff.1 hnil) hp
  · exact hcons

theorem toText_ne_nil {p : Location} (hp : p ≠ []) : p.toText ≠ [] := by
  obtain ⟨a, more, h, -⟩ := toText_cases hp
  simp [h]

theorem isAbsolute_toText (p : Location) : Path.isAbsolute p.toText = false := by
  by_cases hp : p = []
  · simp [hp, toText, joinWith, Path.isAbsolute]
  · obtain ⟨a, more, h, ha⟩ := toText_cases hp
    simp [h, Path.isAbsolute, ha]

theorem toText_concat {p : Location} (hp : p ≠ []) (n : Name) :
    toText (p ++ [n]) = p.toText ++ .scalar '/' :: n.toText := by
  unfold toText
  rw [List.map_append, List.map_singleton, joinWith_append_singleton _ (by simpa using hp)]
  simp

theorem getLast?_toText_ne (p : Location) : p.toText.getLast? ≠ some (.scalar '/') := by
  by_cases hp : p = []
  · simp [hp, toText, joinWith]
  · exact getLast?_append_joinWith_ne (by simpa using hp) p.isClean.slashFree []

/-- A name that is put after the path of a place gives the path of the place under that name. -/
theorem join_toText {p : Location} (hp : p ≠ []) (n : Name) :
    Path.join p.toText n.toText = toText (p ++ [n]) := by
  have hrel : Path.isAbsolute n.toText = false := isAbsolute_toText [n]
  unfold Path.join
  rw [if_neg (by simp [hrel]), if_neg (by simp [toText_ne_nil hp, getLast?_toText_ne]),
    toText_concat hp]

theorem encode_names (p : Location) :
    (p.map Name.toText).map Text.encode = (p.map Name.bytes).map Except.ok := by
  simp [Name.encode_toText]

theorem encode_toText (p : Location) :
    Text.encode p.toText = .ok (joinWith [slashByte] (p.map Name.bytes)) :=
  Text.joinWith_encode p.encode_names

theorem zero_not_mem_bytes (p : Location) : 0 ∉ joinWith [slashByte] (p.map Name.bytes) := by
  intro h0
  rcases mem_of_mem_joinWith h0 with hslash | ⟨b, hb, h0⟩
  · simp [slashByte] at hslash
  · obtain ⟨n, -, rfl⟩ := List.mem_map.1 hb
    exact (n.isName.2.2.2.2 0 h0).2 rfl

end Location

/-! ## Joined paths -/

namespace Path

theorem steps_append_slash (b c : Bytes) :
    (Route.ofBytes (b ++ slashByte :: c)).steps =
      (Route.ofBytes b).steps ++ (Route.ofBytes c).steps := by
  simp [Route.ofBytes, cutAt_append_separator]

/-- The route of the path of a place goes through its names. -/
theorem steps_toText (p : Location) :
    (Route.ofBytes (joinWith [slashByte] (p.map Name.bytes))).steps = p.map Name.bytes := by
  have hroute : (Route.ofBytes (slashByte :: joinWith [slashByte] (p.map Name.bytes))).steps =
      p.map Name.bytes := p.isClean.steps_ofBytes p.encode_names
  have hslash := steps_append_slash [] (joinWith [slashByte] (p.map Name.bytes))
  have hnone : (Route.ofBytes []).steps = [] := by decide
  rw [List.nil_append, hroute, hnone, List.nil_append] at hslash
  exact hslash.symm

/-- A slash at the end of a path adds nothing to its route. -/
theorem InBytes.stem {path l : Text} {b : Bytes} (hb : InBytes path b)
    (hl : path = l ∨ path = l ++ [.scalar '/']) :
    ∃ x, l.encode = .ok x ∧ (Route.ofBytes x).steps = (Route.ofBytes b).steps ∧ 0 ∉ x := by
  rcases hl with rfl | rfl
  · exact ⟨b, hb.encode, rfl, hb.zeroFree⟩
  · obtain ⟨x, y, hx, hy, rfl⟩ := Text.encode_append_eq_ok hb.encode
    rw [Text.slash_bytes] at hy
    cases hy
    refine ⟨x, hx, ?_, fun h0 => hb.zeroFree (List.mem_append_left _ h0)⟩
    rw [steps_append_slash]
    simp [Route.ofBytes, cutAt]

/-- **The route of a joined path goes on through the names.** -/
theorem inBytes_join {path : Text} {b : Bytes} (hb : InBytes path b) {p : Location} (hp : p ≠ [])
    (hlength : ∀ c, (join path p.toText).encode = .ok c → c.length ≤ pathLimit) :
    ∃ c, InBytes (join path p.toText) c ∧
      (Route.ofBytes c).steps = (Route.ofBytes b).steps ++ p.map Name.bytes ∧
      (Route.ofBytes c).endsInSlash = false := by
  have hpath : path ≠ [] := by
    rintro rfl
    exact hb.ne_nil (Except.ok.inj hb.encode).symm
  obtain ⟨l, hjoin, hl⟩ := join_eq_append hpath p.isAbsolute_toText
  obtain ⟨x, hx, hsteps, hzero⟩ := hb.stem hl
  have hencode : (join path p.toText).encode =
      .ok (x ++ slashByte :: joinWith [slashByte] (p.map Name.bytes)) := by
    rw [hjoin, ← List.singleton_append, ← List.singleton_append]
    exact Text.encode_append hx (Text.encode_append Text.slash_bytes p.encode_toText)
  refine ⟨_, ⟨hencode, ?_, by simp, hlength _ hencode⟩, ?_, ?_⟩
  · intro h0
    rcases List.mem_append.1 h0 with h0 | h0
    · exact hzero h0
    · rcases List.mem_cons.1 h0 with h0 | h0
      · cases h0
      · exact p.zero_not_mem_bytes h0
  · rw [steps_append_slash, hsteps, steps_toText]
  · have hend := getLast?_append_joinWith_ne (by simpa using hp)
      (p.isClean.slashFree_bytes p.encode_names) (x ++ [slashByte])
    exact decide_eq_false (by simpa using hend)

end Path

/-! ## What joined paths lead to -/

namespace FileSystem

variable {fs : FileSystem} {path : Text} {d p : Location} {es : Entries}

/-- **A joined path is about the place below the directory**, if it is not too long; at the end no
link is followed if none is meant to be. -/
theorem locate_join (hfound : fs.found? .target path = some (d, .directory es)) (hp : p ≠ [])
    (hnode : fs.node? (d ++ p) ≠ none)
    (hlength : ∀ c, (Path.join path p.toText).encode = .ok c → c.length ≤ pathLimit) {aim : Aim}
    (haim : aim = .entry ∨ ∀ target, fs.bare? (d ++ p) ≠ some (.link target)) :
    fs.locate aim (Path.join path p.toText) = .ok (fs.spotAt (d ++ p)) := by
  obtain ⟨b, hb, hwalk⟩ := locate_eq_ok_iff.1 (found?_eq_some_iff.1 hfound)
  obtain ⟨left, henters⟩ := exists_enters_of_walk_directory hwalk
  obtain ⟨c, hc, hsteps, hslash⟩ := Path.inBytes_join hb hp hlength
  refine locate_eq_ok_iff.2 ⟨c, hc, ?_⟩
  -- the directory, then the directories on the way down, then the last name
  obtain ⟨q, n, rfl⟩ : ∃ q n, p = q ++ [n] :=
    ⟨p.dropLast, p.getLast hp, (List.dropLast_concat_getLast hp).symm⟩
  rw [← List.append_assoc] at hnode haim ⊢
  have hdown : Enters fs left d (q.map Name.bytes) left (d ++ q) :=
    enters_of_isDirectoryAt (isDirectoryAt_of_below (List.cons_ne_nil n []) (by
      rwa [Ne, bare?_eq_none_iff]))
  rw [hsteps, hslash, henters.walk_append (by simp), List.map_append, List.map_singleton,
    hdown.walk_append (by simp)]
  exact walk_last haim

/-- What is no link is found at its joined path. -/
theorem found?_join (hfound : fs.found? .target path = some (d, .directory es)) (hp : p ≠ [])
    {t : Node} (ht : fs.node? (d ++ p) = some t) (hlink : t.isLink = false)
    (hlength : ∀ c, (Path.join path p.toText).encode = .ok c → c.length ≤ pathLimit) :
    fs.found? .target (Path.join path p.toText) = some (d ++ p, t) := by
  have hnode : fs.node? (d ++ p) ≠ none := by simp [ht]
  have hlocate : fs.locate .target (Path.join path p.toText) = .ok (fs.spotAt (d ++ p)) :=
    locate_join hfound hp hnode hlength (.inr (bare?_ne_link ht hlink))
  rw [spotAt_of_node? ht] at hlocate
  exact found?_eq_some_iff.2 hlocate

/-- **A joined path is seen as a directory and not as a link** if a directory stands at the place
and the path is not too long. -/
theorem isRealDirectory_join (hfound : fs.found? .target path = some (d, .directory es))
    (hp : p ≠ []) {t : Node} (ht : fs.node? (d ++ p) = some t) :
    (fs.isDirectory (Path.join path p.toText) && !fs.isLink (Path.join path p.toText)) = true ↔
      t.isDirectory = true ∧
        ∀ c, (Path.join path p.toText).encode = .ok c → c.length ≤ pathLimit := by
  have hnode : fs.node? (d ++ p) ≠ none := by simp [ht]
  have hsame : (∀ c, (Path.join path p.toText).encode = .ok c → c.length ≤ pathLimit) →
      (fs.isDirectory (Path.join path p.toText) && !fs.isLink (Path.join path p.toText)) =
        t.isDirectory := by
    intro hlength
    have hnames : fs.Names (Path.join path p.toText) (d ++ p) :=
      locate_join hfound hp hnode hlength (.inl rfl)
    rw [hnames.isLink_eq ht]
    cases hlink : t.isLink with
    | true => cases t <;> simp_all [Node.isLink, Node.isDirectory]
    | false => simp [isDirectory, found?_join hfound hp ht hlink hlength]
  constructor
  · intro hseen
    have hdir : fs.isDirectory (Path.join path p.toText) = true := by
      simp only [Bool.and_eq_true] at hseen
      exact hseen.1
    obtain ⟨e, hleads⟩ := isDirectory_iff.1 hdir
    obtain ⟨b, hb, -⟩ := locate_eq_ok_iff.1 (found?_eq_some_iff.1 hleads)
    have hlength : ∀ c, (Path.join path p.toText).encode = .ok c → c.length ≤ pathLimit := by
      intro c hc
      rw [← Except.ok.inj (hb.encode.symm.trans hc)]
      exact hb.length_le
    exact ⟨(hsame hlength).symm.trans hseen, hlength⟩
  · rintro ⟨hdir, hlength⟩
    exact (hsame hlength).trans hdir

end FileSystem

end FileShell
