import FileShell.Path.Resolve
import FileShell.Session

/-!
# Clean paths

A spelling is *clean* if it starts at a root and each of its parts could name an entry: no part is
empty, `.` or `..`, and none holds a slash.  Clean spellings are what every absolute path is
normalized to, and a clean spelling and its text determine each other.

* `Spelling.ofText_toText`: the text of a clean spelling has that spelling.
* `Path.exists_clean_normalize`, `exists_clean_resolve`: normalized and resolved paths are clean.
* `Path.resolve_toText`: a clean path names itself wherever it is seen from.
* `Spelling.join_toText`, `Spelling.base_toText`: a part put at the end, and the last part.
* `Spelling.isAtOrAbove_iff`, `Path.isInside_of_isPrefix`: when the texts tell that a path is
  another one or above it.
-/

namespace FileShell

/-! ## Joining parts -/

theorem joinWith_append {α : Type} (separator : List α) {ls ms : List (List α)} (hls : ls ≠ [])
    (hms : ms ≠ []) :
    joinWith separator (ls ++ ms) = joinWith separator ls ++ separator ++ joinWith separator ms := by
  induction ls with
  | nil => exact absurd rfl hls
  | cons k rest ih =>
    cases rest with
    | nil =>
      cases ms with
      | nil => exact absurd rfl hms
      | cons m more => rfl
    | cons l rest =>
      have hstep : joinWith separator (k :: l :: rest ++ ms) =
          k ++ separator ++ joinWith separator (l :: rest ++ ms) := rfl
      rw [hstep, ih (List.cons_ne_nil l rest), joinWith]
      simp only [List.append_assoc]

theorem joinWith_append_singleton {α : Type} (separator : List α) {ls : List (List α)}
    (h : ls ≠ []) (l : List α) :
    joinWith separator (ls ++ [l]) = joinWith separator ls ++ separator ++ l :=
  joinWith_append separator h (List.cons_ne_nil l [])

theorem joinWith_cons_head {α : Type} (separator : List α) (a : α) (l : List α)
    (ls : List (List α)) : ∃ more, joinWith separator ((a :: l) :: ls) = a :: more := by
  cases ls with
  | nil => exact ⟨l, rfl⟩
  | cons m more => exact ⟨_, rfl⟩

theorem joinWith_isPrefix {α : Type} (separator : List α) {ls ms : List (List α)} (h : ls <+: ms) :
    joinWith separator ls <+: joinWith separator ms := by
  obtain ⟨rest, rfl⟩ := h
  by_cases hls : ls = []
  · simp [hls, joinWith]
  by_cases hrest : rest = []
  · simp [hrest]
  rw [joinWith_append separator hls hrest, List.append_assoc]
  exact List.prefix_append _ _

theorem mem_of_mem_joinWith {α : Type} {separator : List α} {ls : List (List α)} {a : α}
    (h : a ∈ joinWith separator ls) : a ∈ separator ∨ ∃ l ∈ ls, a ∈ l := by
  induction ls with
  | nil => simp [joinWith] at h
  | cons l rest ih =>
    cases rest with
    | nil => exact .inr ⟨l, List.mem_cons_self, h⟩
    | cons m more =>
      rw [joinWith, List.mem_append, List.mem_append] at h
      rcases h with (hl | hsep) | hrest
      · exact .inr ⟨l, List.mem_cons_self, hl⟩
      · exact .inl hsep
      · rcases ih hrest with hsep | ⟨k, hk, ha⟩
        · exact .inl hsep
        · exact .inr ⟨k, List.mem_cons_of_mem _ hk, ha⟩

theorem mem_joinWith {α : Type} {separator : List α} {ls : List (List α)} {l : List α} (hl : l ∈ ls)
    {a : α} (ha : a ∈ l) : a ∈ joinWith separator ls := by
  induction ls with
  | nil => exact absurd hl List.not_mem_nil
  | cons first rest ih =>
    cases rest with
    | nil =>
      rw [List.mem_singleton.1 hl] at ha
      exact ha
    | cons second more =>
      rw [joinWith, List.append_assoc]
      rcases List.mem_cons.1 hl with rfl | hl
      · exact List.mem_append_left _ ha
      · exact List.mem_append_right _ (List.mem_append_right _ (ih hl))

/-- A join ends as its last stretch does, not with a separator. -/
theorem getLast?_append_joinWith_ne {α : Type} {separator : α} {ls : List (List α)} (hne : ls ≠ [])
    (hls : ∀ l ∈ ls, l ≠ [] ∧ separator ∉ l) (before : List α) :
    (before ++ joinWith [separator] ls).getLast? ≠ some separator := by
  have hlast := hls _ (List.getLast_mem hne)
  have hsplit : ∃ front, before ++ joinWith [separator] ls = front ++ ls.getLast hne := by
    by_cases hinit : ls.dropLast = []
    · refine ⟨before, ?_⟩
      conv => lhs; rw [← List.dropLast_concat_getLast hne, hinit]
      rfl
    · refine ⟨before ++ joinWith [separator] ls.dropLast ++ [separator], ?_⟩
      conv => lhs; rw [← List.dropLast_concat_getLast hne, joinWith_append_singleton _ hinit]
      simp only [List.append_assoc]
  obtain ⟨front, hfront⟩ := hsplit
  intro hend
  rw [hfront, List.getLast?_append, List.getLast?_eq_some_getLast hlast.1, Option.some_or,
    Option.some.injEq] at hend
  exact hlast.2 (hend ▸ List.getLast_mem hlast.1)

theorem mem_of_mem_cutAt {α : Type} [DecidableEq α] {separator a : α} {l s : List α}
    (hs : s ∈ cutAt separator l) (ha : a ∈ s) : a ∈ l := by
  induction l generalizing s with
  | nil =>
    rw [cutAt, List.mem_singleton] at hs
    exact hs ▸ ha
  | cons b rest ih =>
    rw [cutAt] at hs
    split at hs
    · rcases List.mem_cons.1 hs with rfl | hs
      · cases ha
      · exact List.mem_cons_of_mem _ (ih hs ha)
    · split at hs
      · next hnil => exact absurd hnil (cutAt_ne_nil separator rest)
      · next first more hcut =>
        rcases List.mem_cons.1 hs with rfl | hs
        · rcases List.mem_cons.1 ha with rfl | ha
          · exact List.mem_cons_self
          · exact List.mem_cons_of_mem _ (ih (hcut ▸ List.mem_cons_self) ha)
        · exact List.mem_cons_of_mem _ (ih (hcut ▸ List.mem_cons_of_mem _ hs) ha)

/-- Seen from its end, a list without a separator passes the test for what is none. -/
theorem forall_mem_reverse_ne {α : Type} [DecidableEq α] {separator : α} {l : List α}
    (h : separator ∉ l) : ∀ a ∈ l.reverse, decide (a ≠ separator) = true := by
  intro a ha
  exact decide_eq_true fun heq => h (heq ▸ List.mem_reverse.1 ha)

/-! ## Clean spellings -/

/-- Could the text name an entry?  It is not empty, neither `.` nor `..`, and holds no slash. -/
def Path.IsPart (t : Text) : Prop :=
  t ≠ [] ∧ t ≠ Path.here ∧ t ≠ Path.up ∧ Symbol.scalar '/' ∉ t

/-- Is the path a spelling of the root, with one slash or with two? -/
def Path.IsRoot (p : Text) : Prop := p = [.scalar '/'] ∨ p = [.scalar '/', .scalar '/']

instance (p : Text) : Decidable (Path.IsRoot p) := inferInstanceAs (Decidable (_ ∨ _))

namespace Spelling

/-- A spelling that starts at a root and consists of parts that could name entries. -/
structure IsClean (s : Spelling) : Prop where
  anchored : s.anchor ≠ .relative
  isPart : ∀ t ∈ s.parts, Path.IsPart t

variable {s : Spelling}

theorem IsClean.slashFree (hs : s.IsClean) : ∀ t ∈ s.parts, t ≠ [] ∧ Symbol.scalar '/' ∉ t :=
  fun t ht => ⟨(hs.isPart t ht).1, (hs.isPart t ht).2.2.2⟩

theorem IsClean.append (hs : s.IsClean) {ts : List Text} (h : ∀ t ∈ ts, Path.IsPart t) :
    (s.append ts).IsClean where
  anchored := hs.anchored
  isPart t ht := by
    rcases List.mem_append.1 ht with ht | ht
    · exact hs.isPart t ht
    · exact h t ht

theorem IsClean.toText_eq (hs : s.IsClean) :
    s.toText = s.anchor.slashes ++ joinWith [.scalar '/'] s.parts := by
  rw [toText, if_neg fun h => hs.anchored h.1]

/-- Joined parts do not start with a slash. -/
theorem IsClean.joined_cases (hs : s.IsClean) :
    joinWith [.scalar '/'] s.parts = [] ∧ s.parts = [] ∨
      ∃ a more, joinWith [Symbol.scalar '/'] s.parts = a :: more ∧ a ≠ .scalar '/' := by
  cases hp : s.parts with
  | nil => exact .inl ⟨rfl, rfl⟩
  | cons t rest =>
    have ht := hs.slashFree t (hp ▸ List.mem_cons_self)
    cases t with
    | nil => exact absurd rfl ht.1
    | cons a t =>
      obtain ⟨more, hmore⟩ := joinWith_cons_head [Symbol.scalar '/'] a t rest
      exact .inr ⟨a, more, hmore, fun h => ht.2 (h ▸ List.mem_cons_self)⟩

theorem IsClean.anchor_toText (hs : s.IsClean) : Path.anchor s.toText = s.anchor := by
  rw [hs.toText_eq]
  rcases hs.joined_cases with ⟨h, -⟩ | ⟨a, more, h, ha⟩
  · rw [h]
    cases hanchor : s.anchor with
    | relative => exact absurd hanchor hs.anchored
    | root => rfl
    | doubleRoot => rfl
  · rw [h]
    cases hanchor : s.anchor with
    | relative => exact absurd hanchor hs.anchored
    | root => simp [Anchor.slashes, Path.anchor, ha]
    | doubleRoot => simp [Anchor.slashes, Path.anchor, ha]

theorem IsClean.isAbsolute_toText (hs : s.IsClean) : Path.isAbsolute s.toText = true := by
  rw [hs.toText_eq]
  cases hanchor : s.anchor with
  | relative => exact absurd hanchor hs.anchored
  | root => rfl
  | doubleRoot => rfl

theorem cutAt_slashes_append {a : Anchor} (ha : a ≠ .relative) (t : Text) :
    (cutAt (.scalar '/') (a.slashes ++ t)).filter (fun c => !(c = [] || c = Path.here)) =
      (cutAt (.scalar '/') t).filter (fun c => !(c = [] || c = Path.here)) := by
  cases a with
  | relative => exact absurd rfl ha
  | root => simp [Anchor.slashes, cutAt]
  | doubleRoot => simp [Anchor.slashes, cutAt]

/-- **A clean spelling is the spelling of its text.** -/
theorem ofText_toText (hs : s.IsClean) : ofText s.toText = s := by
  have hparts : (ofText s.toText).parts = s.parts := by
    rw [ofText, hs.toText_eq, cutAt_slashes_append hs.anchored]
    by_cases hp : s.parts = []
    · simp [hp, joinWith, cutAt]
    · rw [cutAt_joinWith hp fun t ht => (hs.slashFree t ht).2, List.filter_eq_self]
      intro t ht
      simp [(hs.isPart t ht).1, (hs.isPart t ht).2.1]
  have hanchor : (ofText s.toText).anchor = s.anchor := hs.anchor_toText
  generalize ofText s.toText = u at hparts hanchor
  cases u
  cases s
  cases hparts
  cases hanchor
  rfl

theorem toText_injective {s t : Spelling} (hs : s.IsClean) (ht : t.IsClean)
    (h : s.toText = t.toText) : s = t := by
  rw [← ofText_toText hs, h, ofText_toText ht]

/-! ## The last part -/

theorem eq_append_parent (h : s.parts ≠ []) : s = s.parent.append [s.parts.getLast h] := by
  cases s
  simp [parent, append, List.dropLast_concat_getLast]

theorem IsClean.parent (hs : s.IsClean) : s.parent.IsClean where
  anchored := hs.anchored
  isPart t ht := hs.isPart t (List.dropLast_subset _ ht)

theorem IsClean.append_singleton (hs : s.IsClean) {t : Text} (ht : Path.IsPart t) :
    (s.append [t]).IsClean := hs.append fun _ hx => List.mem_singleton.1 hx ▸ ht

/-- The last part of a path stands after a slash. -/
theorem IsClean.exists_slash_last (hs : s.IsClean) (t : Text) :
    ∃ before, (s.append [t]).toText = before ++ Symbol.scalar '/' :: t := by
  rw [toText, if_neg fun h => hs.anchored h.1, Spelling.append]
  by_cases hp : s.parts = []
  · rw [hp]
    cases hanchor : s.anchor with
    | relative => exact absurd hanchor hs.anchored
    | root => exact ⟨[], rfl⟩
    | doubleRoot => exact ⟨[.scalar '/'], rfl⟩
  · rw [joinWith_append_singleton _ hp]
    exact ⟨s.anchor.slashes ++ joinWith [.scalar '/'] s.parts, by simp⟩

/-- Only the root ends in a slash. -/
theorem IsClean.getLast?_toText (hs : s.IsClean) :
    s.toText.getLast? = some (.scalar '/') ↔ s.parts = [] := by
  constructor
  · intro hend
    refine Classical.byContradiction ?_
    intro hp
    rw [hs.toText_eq] at hend
    exact getLast?_append_joinWith_ne hp hs.slashFree _ hend
  · intro hp
    rw [hs.toText_eq, hp]
    cases hanchor : s.anchor with
    | relative => exact absurd hanchor hs.anchored
    | root => rfl
    | doubleRoot => rfl

/-- The two spellings of the root are the clean paths without parts. -/
theorem IsClean.isRoot_toText (hs : s.IsClean) : Path.IsRoot s.toText ↔ s.parts = [] := by
  rw [Path.IsRoot, hs.toText_eq]
  constructor
  · intro hroot
    rcases hs.joined_cases with ⟨-, hparts⟩ | ⟨a, more, hjoined, ha⟩
    · exact hparts
    rw [hjoined] at hroot
    cases hanchor : s.anchor with
    | relative => exact absurd hanchor hs.anchored
    | root => simp [hanchor, Anchor.slashes, ha] at hroot
    | doubleRoot => simp [hanchor, Anchor.slashes] at hroot
  · intro hparts
    cases hanchor : s.anchor with
    | relative => exact absurd hanchor hs.anchored
    | root => simp [hparts, Anchor.slashes, joinWith]
    | doubleRoot => simp [hparts, Anchor.slashes, joinWith]

theorem IsClean.toText_ne_nil (hs : s.IsClean) : s.toText ≠ [] := by
  intro h
  have := hs.isAbsolute_toText
  rw [h] at this
  cases this

/-- A part put at the end of the path is a part put at the end of the text. -/
theorem join_toText (hs : s.IsClean) {t : Text} (ht : Path.IsPart t) :
    Path.join s.toText t = (s.append [t]).toText := by
  have hrel : Path.isAbsolute t = false := by
    cases t with
    | nil => rfl
    | cons a t =>
      have ha : a ≠ .scalar '/' := fun h => ht.2.2.2 (h ▸ List.mem_cons_self)
      simp [Path.isAbsolute, ha]
  rw [Path.join, hrel, if_neg Bool.false_ne_true, (hs.append_singleton ht).toText_eq]
  simp only [hs.toText_ne_nil, false_or, hs.getLast?_toText, append]
  by_cases hp : s.parts = []
  · rw [if_pos hp, hs.toText_eq, hp]
    simp [joinWith]
  · rw [if_neg hp, joinWith_append_singleton _ hp, hs.toText_eq]
    simp

/-- What stands after the last slash is the last part. -/
theorem base_toText (hs : s.IsClean) {t : Text} (ht : Path.IsPart t) :
    Path.base (s.append [t]).toText = t := by
  obtain ⟨before, h⟩ := hs.exists_slash_last t
  have hfree := forall_mem_reverse_ne ht.2.2.2
  rw [h, Path.base, List.reverse_append, List.reverse_cons, List.append_assoc,
    List.takeWhile_append_of_pos hfree]
  simp

theorem base_toText_getLast (hs : s.IsClean) (hp : s.parts ≠ []) :
    Path.base s.toText = s.parts.getLast hp := by
  conv => lhs; rw [eq_append_parent hp]
  exact base_toText hs.parent (hs.isPart _ (List.getLast_mem hp))

theorem withoutTrailingSlashes_toText (hs : s.IsClean) (hp : s.parts ≠ []) :
    Path.withoutTrailingSlashes s.toText = s.toText := by
  have hend : s.toText.getLast? ≠ some (.scalar '/') := fun h => hp (hs.getLast?_toText.1 h)
  rw [Path.withoutTrailingSlashes]
  rw [← List.head?_reverse] at hend
  cases hr : s.toText.reverse with
  | nil => exact absurd (List.reverse_eq_nil_iff.1 hr) hs.toText_ne_nil
  | cons a rest =>
    have ha : a ≠ Symbol.scalar '/' := by
      rintro rfl
      exact hend (by rw [hr]; rfl)
    rw [List.dropWhile_cons, if_neg (by simpa using ha), ← hr, List.reverse_reverse]

/-- What stands before the last part is the rest of the path. -/
theorem directory_toText (hs : s.IsClean) {t : Text} (ht : Path.IsPart t) :
    Path.directory (s.append [t]).toText = s.toText := by
  have hfree := forall_mem_reverse_ne ht.2.2.2
  by_cases hp : s.parts = []
  · have htext : (s.append [t]).toText = s.anchor.slashes ++ t := by
      rw [(hs.append_singleton ht).toText_eq, append, hp]
      rfl
    have hroot : s.toText = s.anchor.slashes := by
      rw [hs.toText_eq, hp]
      simp [joinWith]
    rw [Path.directory, htext, hroot, List.reverse_append, List.dropWhile_append_of_pos hfree]
    cases hanchor : s.anchor with
    | relative => exact absurd hanchor hs.anchored
    | root => simp [Anchor.slashes, Path.withoutTrailingSlashes]
    | doubleRoot => simp [Anchor.slashes, Path.withoutTrailingSlashes]
  · have htext : (s.append [t]).toText = s.toText ++ .scalar '/' :: t := by
      rw [(hs.append_singleton ht).toText_eq, append, joinWith_append_singleton _ hp, hs.toText_eq]
      simp
    have hhead : (s.append [t]).toText.reverse.dropWhile (· ≠ .scalar '/') =
        .scalar '/' :: s.toText.reverse := by
      rw [htext, List.reverse_append, List.reverse_cons, List.append_assoc,
        List.dropWhile_append_of_pos hfree]
      simp
    have hstrip : Path.withoutTrailingSlashes (.scalar '/' :: s.toText.reverse).reverse =
        s.toText := by
      rw [Path.withoutTrailingSlashes, List.reverse_reverse, List.dropWhile_cons,
        if_pos (by simp)]
      exact withoutTrailingSlashes_toText hs hp
    rw [Path.directory, hhead]
    simp only [hstrip, hs.toText_ne_nil, if_false]

theorem directory_toText_parent (hs : s.IsClean) (hp : s.parts ≠ []) :
    Path.directory s.toText = s.parent.toText := by
  conv => lhs; rw [eq_append_parent hp]
  exact directory_toText hs.parent (hs.isPart _ (List.getLast_mem hp))

/-! ## Normalized and resolved paths -/

theorem foldl_push_of_parts {ts stack : List Text} (h : ∀ t ∈ ts, t ≠ Path.up) :
    ts.foldl (push true) stack = ts.reverse ++ stack := by
  induction ts generalizing stack with
  | nil => rfl
  | cons t rest ih =>
    have hpush : push true stack t = t :: stack := by
      unfold push
      rw [if_neg (h t List.mem_cons_self)]
    rw [List.foldl_cons, hpush, ih fun x hx => h x (List.mem_cons_of_mem _ hx)]
    simp

theorem isPart_of_mem_foldl_push {ts stack : List Text}
    (hts : ∀ t ∈ ts, t ≠ [] ∧ t ≠ Path.here ∧ Symbol.scalar '/' ∉ t)
    (hstack : ∀ t ∈ stack, Path.IsPart t) : ∀ t ∈ ts.foldl (push true) stack, Path.IsPart t := by
  induction ts generalizing stack with
  | nil => exact hstack
  | cons t rest ih =>
    have ht := hts t List.mem_cons_self
    refine ih (fun x hx => hts x (List.mem_cons_of_mem _ hx)) ?_
    intro x hx
    unfold push at hx
    split at hx
    · -- a step up takes the last part away, if there is one
      split at hx
      · exact absurd hx List.not_mem_nil
      · next top below =>
        have htop := hstack top List.mem_cons_self
        rw [if_neg htop.2.2.1] at hx
        exact hstack x (List.mem_cons_of_mem _ hx)
    · next hup =>
      rcases List.mem_cons.1 hx with rfl | hx
      · exact ⟨ht.1, ht.2.1, hup, ht.2.2⟩
      · exact hstack x hx

theorem anchored_beq {a : Anchor} (h : a ≠ .relative) : (a != .relative) = true := by
  cases a <;> first | rfl | exact absurd rfl h

/-- Without steps up there is nothing to cancel. -/
theorem reduce_eq_self (hanchor : s.anchor ≠ .relative) (hup : ∀ t ∈ s.parts, t ≠ Path.up) :
    s.reduce = s := by
  rw [Spelling.reduce, anchored_beq hanchor, foldl_push_of_parts hup]
  simp

theorem IsClean.reduce (hs : s.IsClean) : s.reduce = s :=
  reduce_eq_self hs.anchored fun t ht => (hs.isPart t ht).2.2.1

theorem anchor_ne_relative {p : Text} (h : Path.isAbsolute p = true) :
    Path.anchor p ≠ .relative := by
  cases p with
  | nil => cases h
  | cons a rest =>
    have ha : a = .scalar '/' := by simpa [Path.isAbsolute] using h
    subst ha
    unfold Path.anchor
    split
    · simp
    · simp
    · simp
    · next hnone => exact absurd rfl (hnone rest)

theorem reduce_isClean {p : Text} (h : Path.isAbsolute p = true) :
    (ofText p).reduce.IsClean where
  anchored := anchor_ne_relative h
  isPart := by
    intro t ht
    have hanchored : ((ofText p).anchor != .relative) = true := anchored_beq (anchor_ne_relative h)
    rw [Spelling.reduce, hanchored] at ht
    have hempty : ∀ t ∈ ([] : List Text), Path.IsPart t := by simp
    refine isPart_of_mem_foldl_push ?_ hempty t (List.mem_reverse.1 ht)
    intro x hx
    obtain ⟨hcut, hkeep⟩ := List.mem_filter.1 hx
    simp only [Bool.not_eq_true', Bool.or_eq_false_iff, decide_eq_false_iff_not] at hkeep
    exact ⟨hkeep.1, hkeep.2, not_mem_of_mem_cutAt hcut⟩

end Spelling

namespace Path

/-- An absolute path is normalized to a clean one. -/
theorem exists_clean_normalize {p : Text} (h : isAbsolute p = true) :
    ∃ s : Spelling, s.IsClean ∧ normalize p = s.toText :=
  ⟨(Spelling.ofText p).reduce, Spelling.reduce_isClean h, rfl⟩

theorem normalize_toText {s : Spelling} (hs : s.IsClean) : normalize s.toText = s.toText := by
  rw [normalize, Spelling.ofText_toText hs, hs.reduce]

/-- The absolute normalized paths are the texts of clean spellings. -/
theorem exists_clean_iff {p : Text} :
    (∃ s : Spelling, s.IsClean ∧ p = s.toText) ↔ isAbsolute p = true ∧ normalize p = p := by
  constructor
  · rintro ⟨s, hs, rfl⟩
    exact ⟨hs.isAbsolute_toText, normalize_toText hs⟩
  · rintro ⟨habs, hnorm⟩
    obtain ⟨s, hs, hp⟩ := exists_clean_normalize habs
    exact ⟨s, hs, hnorm.symm.trans hp⟩

theorem isAbsolute_join {p q : Text} (hp : isAbsolute p = true) : isAbsolute (join p q) = true := by
  rw [join]
  split
  · next hq => exact hq
  · cases p with
    | nil => cases hp
    | cons a rest => split <;> exact hp

/-- **What a token names is a clean path**, if the working directory and the home directory are
absolute. -/
theorem exists_clean_resolve (token : Text) {cwd home : Text} (hcwd : isAbsolute cwd = true)
    (hhome : isAbsolute home = true) :
    ∃ s : Spelling, s.IsClean ∧ resolve token cwd home = s.toText := by
  have hfrom : ∀ path, ∃ s : Spelling, s.IsClean ∧
      normalize (if isAbsolute path then path else join cwd path) = s.toText := by
    intro path
    refine exists_clean_normalize ?_
    split
    · next h => exact h
    · exact isAbsolute_join hcwd
  unfold resolve
  split
  · exact exists_clean_normalize hhome
  · exact hfrom _

/-- A clean path names itself, wherever it is seen from. -/
theorem resolve_toText {s : Spelling} (hs : s.IsClean) (cwd home : Text) :
    resolve s.toText cwd home = s.toText := by
  have habs := hs.isAbsolute_toText
  have hne : s.toText ≠ tilde := by
    intro h
    rw [h] at habs
    cases habs
  unfold resolve
  rw [if_neg hne]
  dsimp only
  split
  · next rest h =>
    rw [h] at habs
    cases habs
  · rw [if_pos habs, normalize_toText hs]

/-- The absolute path that a token names, typed in its place, names itself. -/
theorem resolve_resolve (token : Text) {cwd home : Text} (hcwd : isAbsolute cwd = true)
    (hhome : isAbsolute home = true) (place : Text) :
    resolve (resolve token cwd home) place home = resolve token cwd home := by
  obtain ⟨s, hs, hpath⟩ := exists_clean_resolve token hcwd hhome
  rw [hpath]
  exact resolve_toText hs place home

theorem isAbsolute_resolve (token : Text) {cwd home : Text} (hcwd : isAbsolute cwd = true)
    (hhome : isAbsolute home = true) : isAbsolute (resolve token cwd home) = true := by
  obtain ⟨s, hs, hpath⟩ := exists_clean_resolve token hcwd hhome
  rw [hpath]
  exact hs.isAbsolute_toText

/-! ## Comparing texts -/

theorem commonStart_isPrefix (as bs : List Text) : commonStart as bs <+: as := by
  induction as generalizing bs with
  | nil => exact List.nil_prefix
  | cons a as ih =>
    cases bs with
    | nil => exact List.nil_prefix
    | cons b bs =>
      rw [commonStart]
      split
      · exact List.cons_prefix_cons.2 ⟨rfl, ih bs⟩
      · exact List.nil_prefix

theorem commonStart_eq_left {as bs : List Text} : commonStart as bs = as ↔ as <+: bs := by
  induction as generalizing bs with
  | nil => simp [commonStart]
  | cons a as ih =>
    cases bs with
    | nil => simp [commonStart]
    | cons b bs =>
      rw [commonStart, List.cons_prefix_cons]
      split
      · next h => simp [h, ih]
      · next h => simp [h]

end Path

/-- **When the texts tell that a path is another one or above it**: it starts at the single slash,
and its parts begin those of the other. -/
theorem Spelling.isAtOrAbove_iff {s : Spelling} (hs : s.IsClean) {q : Text}
    (hq : Path.isAbsolute q = true) :
    Path.isAtOrAbove s.toText q = true ↔ s.anchor = .root ∧ s.parts <+: (ofText q).parts := by
  have hcommon := Path.commonStart_isPrefix s.parts (ofText q).parts
  rw [← Path.commonStart_eq_left]
  simp only [Path.isAtOrAbove, hs.isAbsolute_toText, hq, ne_eq, not_true_eq_false, if_false,
    if_true, decide_eq_true_eq, ofText_toText hs]
  generalize Path.commonStart s.parts (ofText q).parts = common at hcommon ⊢
  have hclean : (⟨.root, common⟩ : Spelling).IsClean :=
    ⟨by simp, fun t ht => hs.isPart t (hcommon.subset ht)⟩
  constructor
  · intro h
    have hsame := toText_injective hs hclean (h.trans hclean.toText_eq.symm)
    rw [hsame]
    exact ⟨rfl, rfl⟩
  · rintro ⟨hanchor, rfl⟩
    rw [hs.toText_eq, hanchor]
    rfl

/-- A path lies in another one, as far as the texts tell, if its parts begin with those of the
other. -/
theorem Path.isInside_of_isPrefix {s u : Spelling} (hs : s.IsClean) (hu : u.IsClean)
    (hanchor : s.anchor = u.anchor) (h : s.parts <+: u.parts) :
    isInside s.toText u.toText = true := by
  have hclosed : ∀ v : Spelling, v.IsClean →
      (if v.toText.getLast? = some (.scalar '/') then v.toText else v.toText ++ [.scalar '/']) =
        if v.parts = [] then v.anchor.slashes
        else v.anchor.slashes ++ joinWith [.scalar '/'] (v.parts ++ [[]]) := by
    intro v hv
    simp only [hv.getLast?_toText]
    split
    · next hparts => simp [hv.toText_eq, hparts, joinWith]
    · next hparts => simp [hv.toText_eq, joinWith_append_singleton _ hparts]
  unfold isInside
  simp only [normalize_toText hs, normalize_toText hu, hclosed s hs, hclosed u hu, hanchor,
    List.isPrefixOf_iff_prefix]
  by_cases hsparts : s.parts = []
  · rw [if_pos hsparts]
    split
    · exact List.prefix_refl _
    · exact List.prefix_append _ _
  have huparts : u.parts ≠ [] := fun h0 => hsparts (List.prefix_nil.1 (h0 ▸ h))
  rw [if_neg hsparts, if_neg huparts, List.prefix_append_right_inj]
  obtain ⟨rest, hrest⟩ := h
  rw [← hrest, joinWith_append_singleton _ hsparts, List.append_assoc s.parts,
    joinWith_append _ hsparts (by simp), List.append_nil]
  exact List.prefix_append _ _

end FileShell
