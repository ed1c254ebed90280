import FileShell.Proofs.Path.Home
import FileShell.Proofs.Path.Steps
import FileShell.Proofs.Path.Symbols

/-!
# Paths up to their last slash

A path is cut behind its last slash into a stem and a base.  The directory in which a completion is
looked for depends on the stem alone, and so does what a token names before its base is put at the
end: the base becomes the last part, unless the whole token is the tilde.

* `Path.stem_append_base`: nothing is lost by cutting a path behind its last slash.
* `Path.fromDirectory`: what a token stands for before steps up are cancelled.
* `Path.resolve_append_part`: **a part put behind a stem** is a part put behind what the stem names.
-/

namespace FileShell

namespace Path

variable {p q t name : Text}

/-! ## Stem and base -/

/-- What stands before the base of a path: everything up to the last slash, and the slash. -/
def stem (p : Text) : Text := (p.reverse.dropWhile (· ≠ .scalar '/')).reverse

/-- The text ends where a part may be put: it is empty or ends with a slash. -/
def IsStem (p : Text) : Prop := p = [] ∨ ∃ l, p = l ++ [.scalar '/']

theorem stem_append_base (p : Text) : stem p ++ base p = p := by
  have hcut := List.takeWhile_append_dropWhile (p := (· ≠ Symbol.scalar '/')) (l := p.reverse)
  rw [stem, base, ← List.reverse_append, hcut, List.reverse_reverse]

theorem not_mem_base (p : Text) : Symbol.scalar '/' ∉ base p := by
  intro hmem
  have hall := List.all_takeWhile (p := (· ≠ Symbol.scalar '/')) (l := p.reverse)
  have hslash := List.all_eq_true.1 hall _ (List.mem_reverse.1 hmem)
  exact absurd hslash (by decide)

theorem isStem_stem (p : Text) : IsStem (stem p) := by
  have hhead := List.head?_dropWhile_not (· ≠ Symbol.scalar '/') p.reverse
  unfold stem
  cases hdrop : p.reverse.dropWhile (· ≠ .scalar '/') with
  | nil => exact .inl rfl
  | cons a rest =>
    rw [hdrop] at hhead
    have ha : a = .scalar '/' := by simpa using hhead
    exact .inr ⟨rest.reverse, by rw [List.reverse_cons, ha]⟩

/-- A text without slashes put behind a stem is the base. -/
theorem stem_append (hp : IsStem p) (ht : Symbol.scalar '/' ∉ t) :
    stem (p ++ t) = p ∧ base (p ++ t) = t := by
  have hfree := forall_mem_reverse_ne ht
  rw [stem, base, List.reverse_append, List.dropWhile_append_of_pos hfree,
    List.takeWhile_append_of_pos hfree]
  rcases hp with rfl | ⟨l, rfl⟩ <;> simp

theorem IsStem.append_slash (hp : IsStem p) (l : Text) : IsStem (l ++ .scalar '/' :: p) := by
  rcases hp with rfl | ⟨k, rfl⟩
  · exact .inr ⟨l, rfl⟩
  · exact .inr ⟨l ++ .scalar '/' :: k, by rw [List.append_assoc, List.cons_append]⟩

/-- What stands before a slash belongs to the stem. -/
theorem stem_append_slash (l p : Text) :
    stem (l ++ .scalar '/' :: p) = l ++ .scalar '/' :: stem p ∧
      base (l ++ .scalar '/' :: p) = base p := by
  have hsplit : l ++ .scalar '/' :: p = (l ++ .scalar '/' :: stem p) ++ base p := by
    rw [List.append_assoc, List.cons_append, stem_append_base]
  rw [hsplit]
  exact stem_append ((isStem_stem p).append_slash l) (not_mem_base p)

theorem isAbsolute_stem (h : isAbsolute p = false) : isAbsolute (stem p) = false := by
  rw [← stem_append_base p] at h
  cases hstem : stem p with
  | nil => rfl
  | cons a more =>
    rw [hstem] at h
    exact h

theorem IsStem.ne_tilde (hp : IsStem p) : p ≠ tilde := by
  rintro rfl
  rcases hp with h | ⟨l, h⟩
  · cases h
  · have hlast := congrArg List.getLast? h
    rw [List.getLast?_concat] at hlast
    cases hlast

theorem IsStem.join_eq (hp : IsStem p) (ht : isAbsolute t = false) : join p t = p ++ t := by
  unfold join
  rw [if_neg (by simp [ht])]
  refine if_pos ?_
  rcases hp with rfl | ⟨l, rfl⟩
  · exact .inl rfl
  · exact .inr List.getLast?_concat

theorem isAbsolute_append (q : Text) (ht : isAbsolute t = false) :
    isAbsolute (q ++ t) = isAbsolute q := by
  cases q with
  | nil => exact ht
  | cons a q => rfl

/-- A relative text put behind the second of two joined paths is put behind both. -/
theorem join_append (p q : Text) (ht : isAbsolute t = false) :
    join p (q ++ t) = join p q ++ t := by
  unfold join
  rw [isAbsolute_append q ht]
  split
  · rfl
  split
  · rw [List.append_assoc]
  · rw [List.append_assoc, List.cons_append]

theorem IsStem.join (hp : IsStem p) (hq : q ≠ []) : IsStem (join q p) := by
  unfold Path.join
  split
  · exact hp
  split
  · next hend =>
    rcases hp with rfl | ⟨l, rfl⟩
    · rw [List.append_nil]
      exact .inr (List.getLast?_eq_some_iff.1 (hend.resolve_left hq))
    · exact .inr ⟨q ++ l, (List.append_assoc _ _ _).symm⟩
  · exact hp.append_slash q

/-! ## Directories -/

theorem parts_append_slashes (p : Text) (k : Nat) :
    (Spelling.ofText (p ++ List.replicate k (.scalar '/'))).parts = (Spelling.ofText p).parts := by
  induction k with
  | zero => rw [List.replicate_zero, List.append_nil]
  | succ k ih =>
    rw [List.replicate_succ', ← List.append_assoc, Spelling.parts_append_slash_nil, ih]

theorem exists_slashes_end (p : Text) :
    ∃ k, p = withoutTrailingSlashes p ++ List.replicate k (.scalar '/') := by
  have hcut := List.takeWhile_append_dropWhile (p := (· = Symbol.scalar '/')) (l := p.reverse)
  have hslashes : p.reverse.takeWhile (· = Symbol.scalar '/') =
      List.replicate (p.reverse.takeWhile (· = Symbol.scalar '/')).length (.scalar '/') := by
    refine List.eq_replicate_of_mem fun x hx => ?_
    exact of_decide_eq_true (List.all_eq_true.1 List.all_takeWhile x hx)
  rw [hslashes] at hcut
  have hp := congrArg List.reverse hcut
  rw [List.reverse_append, List.reverse_replicate, List.reverse_reverse] at hp
  exact ⟨_, hp.symm⟩

theorem parts_withoutTrailingSlashes (p : Text) :
    (Spelling.ofText (withoutTrailingSlashes p)).parts = (Spelling.ofText p).parts := by
  obtain ⟨k, hk⟩ := exists_slashes_end p
  conv => rhs; rw [hk]
  exact (parts_append_slashes _ k).symm

theorem directory_eq (p : Text) :
    directory p = if withoutTrailingSlashes (stem p) = [] then stem p
      else withoutTrailingSlashes (stem p) := rfl

/-- The directory of a path has the parts of its stem. -/
theorem parts_directory (p : Text) :
    (Spelling.ofText (directory p)).parts = (Spelling.ofText (stem p)).parts := by
  rw [directory_eq]
  split
  · rfl
  · exact parts_withoutTrailingSlashes (stem p)

theorem directory_eq_nil_iff : directory p = [] ↔ stem p = [] := by
  rw [directory_eq]
  split
  · rfl
  · next h =>
    refine ⟨fun hnil => absurd hnil h, ?_⟩
    intro hnil
    rw [hnil] at h
    exact absurd rfl h

/-! ## Normal forms -/

theorem anchor_eq_relative (h : isAbsolute p = false) : anchor p = .relative := by
  unfold anchor
  split <;> first | rfl | cases h

/-- A relative path is normalized to a relative one, an absolute path to an absolute one. -/
theorem isAbsolute_normalize (p : Text) : isAbsolute (normalize p) = isAbsolute p := by
  cases h : isAbsolute p with
  | true =>
    obtain ⟨s, hs, hp⟩ := exists_clean_normalize h
    rw [hp, hs.isAbsolute_toText]
  | false =>
    have hanchor : (Spelling.ofText p).reduce.anchor = .relative := anchor_eq_relative h
    rw [normalize, Spelling.toText, hanchor]
    cases hparts : (Spelling.ofText p).reduce.parts with
    | nil => rfl
    | cons part rest =>
      -- the first part is a stretch of the path, so no slash is at its start
      have hpart : part ∈ (Spelling.ofText p).reduce.parts := hparts ▸ List.mem_cons_self
      have hmem : part ∈ (Spelling.ofText p).parts :=
        (Spelling.mem_of_mem_foldl_push (List.mem_reverse.1 hpart)).resolve_right List.not_mem_nil
      obtain ⟨hcut, hkeep⟩ := List.mem_filter.1 hmem
      have hfree := not_mem_of_mem_cutAt hcut
      rw [if_neg (by simp), Anchor.slashes, List.nil_append]
      cases part with
      | nil => simp at hkeep
      | cons a part =>
        obtain ⟨more, hmore⟩ := joinWith_cons_head [Symbol.scalar '/'] a part rest
        rw [hmore, isAbsolute, List.head?_cons, decide_eq_false_iff_not, Option.some_inj]
        exact fun ha => hfree (ha ▸ List.mem_cons_self)

/-- Without steps up the normal form has the parts of the path. -/
theorem parts_normalize (habs : isAbsolute p = true) (hup : up ∉ (Spelling.ofText p).parts) :
    (Spelling.ofText (normalize p)).parts = (Spelling.ofText p).parts := by
  have hreduce := Spelling.reduce_eq_self (Spelling.anchor_ne_relative habs)
    fun t ht hmem => hup (hmem ▸ ht)
  rw [normalize, Spelling.ofText_toText (Spelling.reduce_isClean habs), hreduce]

/-- A normal form has no steps up. -/
theorem up_not_mem_parts (habs : isAbsolute p = true) (hnormal : normalize p = p) :
    up ∉ (Spelling.ofText p).parts := by
  obtain ⟨s, hs, rfl⟩ := exists_clean_iff.2 ⟨habs, hnormal⟩
  rw [Spelling.ofText_toText hs]
  exact fun hmem => (hs.isPart _ hmem).2.2.1 rfl

/-! ## What a token stands for -/

/-- The token with the home directory in place of a tilde that a slash follows. -/
def fromHome (home : Text) : Text → Text
  | .scalar '~' :: .scalar '/' :: rest => join home rest
  | token => token

/-- The path that a token stands for, with its steps up: seen from the working directory, after a
tilde from the home directory. -/
def fromDirectory (cwd home token : Text) : Text := join cwd (fromHome home token)

variable {cwd home token : Text}

theorem fromHome_of_no_tilde (h : ¬ (tilde ++ [.scalar '/']) <+: token) (home : Text) :
    fromHome home token = token := by
  unfold fromHome
  split
  · next rest => exact absurd (List.prefix_append _ rest) h
  · rfl

/-- **A token other than the tilde** names what it stands for, with its steps up cancelled. -/
theorem resolve_of_ne_tilde (h : token ≠ tilde) (cwd home : Text) :
    resolve token cwd home = normalize (fromDirectory cwd home token) := by
  have hresolve : resolve token cwd home =
      normalize (if isAbsolute (fromHome home token) then fromHome home token
        else join cwd (fromHome home token)) := by
    unfold resolve
    rw [if_neg h]
    dsimp only
    split
    · rfl
    · next hother =>
      have hnot : ¬ (tilde ++ [.scalar '/']) <+: token :=
        fun ⟨rest, hrest⟩ => hother rest hrest.symm
      rw [fromHome_of_no_tilde hnot]
  rw [hresolve, fromDirectory]
  split
  · next habs => rw [join, if_pos habs]
  · rfl

/-- A text without slashes put behind a stem does not change what the stem starts with. -/
theorem fromHome_append (hp : IsStem p) (ht : Symbol.scalar '/' ∉ t) (home : Text) :
    fromHome home (p ++ t) = fromHome home p ++ t := by
  by_cases htilde : (tilde ++ [.scalar '/']) <+: p
  · obtain ⟨rest, rfl⟩ := htilde
    exact join_append home rest (isAbsolute_of_not_mem ht)
  · have htilde' : ¬ (tilde ++ [.scalar '/']) <+: p ++ t := by
      intro hstart
      rcases hp with rfl | ⟨l, rfl⟩
      · exact ht (hstart.subset (by simp))
      cases l with
      | nil => simp [tilde] at hstart
      | cons a l =>
        have hlength : 2 ≤ (a :: l ++ [Symbol.scalar '/']).length := by simp
        exact htilde (List.prefix_of_prefix_length_le hstart (List.prefix_append _ t) hlength)
    rw [fromHome_of_no_tilde htilde, fromHome_of_no_tilde htilde']

theorem isStem_fromHome (hp : IsStem p) (hhome : home ≠ []) : IsStem (fromHome home p) := by
  unfold fromHome
  split
  · next rest =>
    refine IsStem.join ?_ hhome
    rcases hp with h | ⟨l, h⟩
    · cases h
    · have hlast := congrArg List.getLast? h
      rw [List.getLast?_concat] at hlast
      cases rest with
      | nil => exact .inl rfl
      | cons a rest => exact .inr (List.getLast?_eq_some_iff.1 (by simpa using hlast))
  · exact hp

theorem mem_parts_join (hp : p ≠ []) (h : t ∈ (Spelling.ofText (join p q)).parts) :
    t ∈ (Spelling.ofText p).parts ∨ t ∈ (Spelling.ofText q).parts := by
  by_cases hq : isAbsolute q = true
  · rw [join, if_pos hq] at h
    exact .inr h
  · rw [Spelling.parts_join_relative hp (by simpa using hq)] at h
    exact List.mem_append.1 h

/-- **A part put behind a stem** is a part put behind what the stem names, unless the two make the
tilde. -/
theorem resolve_append_part (hcwd : isAbsolute cwd = true) (hhome : isAbsolute home = true)
    (hp : IsStem p) (hname : IsPart name) (htilde : p ++ name ≠ tilde) :
    resolve (p ++ name) cwd home = join (resolve p cwd home) name := by
  have hrelative := isAbsolute_of_not_mem hname.2.2.2
  have habs : isAbsolute (fromDirectory cwd home p) = true := isAbsolute_join hcwd
  have hstem : IsStem (fromDirectory cwd home p) :=
    (isStem_fromHome hp (ne_nil_of_isAbsolute hhome)).join (ne_nil_of_isAbsolute hcwd)
  have happend : fromDirectory cwd home (p ++ name) = join (fromDirectory cwd home p) name := by
    rw [hstem.join_eq hrelative, fromDirectory, fromHome_append hp hname.2.2.2,
      join_append cwd _ hrelative, fromDirectory]
  have hparts := Spelling.parts_singleton hname.1 hname.2.1 hname.2.2.2
  have hclean := Spelling.reduce_isClean habs
  calc resolve (p ++ name) cwd home
      = normalize (join (fromDirectory cwd home p) name) := by
        rw [resolve_of_ne_tilde htilde, happend]
    _ = ((Spelling.ofText (fromDirectory cwd home p)).reduce.append [name]).toText := by
        rw [normalize, Spelling.ofText_join_relative habs hrelative, hparts,
          Spelling.reduce_append (Spelling.anchor_ne_relative habs) (by simpa using hname.2.2.1)]
    _ = join (resolve p cwd home) name := by
        rw [resolve_of_ne_tilde hp.ne_tilde, normalize, Spelling.join_toText hclean hname]

end Path

end FileShell
