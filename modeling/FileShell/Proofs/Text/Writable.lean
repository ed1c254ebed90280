import FileShell.Proofs.Path.Bytes
import FileShell.Proofs.Text.SmallLetters
import FileShell.Text.Blank
import FileShell.Text.Case

/-!
# Texts that can be written

A text has an encoding exactly if each of its symbols has one.  The scalar values have, and of the
surrogates those that keep a byte; so whatever was read from bytes can be written again, and
whatever is written by the rules for numbers and quoted texts holds no surrogate at all.

* `Text.All`: every symbol of a text has a property.
* `Text.writable_iff`, `Text.writable_decode`: what can be written.
* `Text.surrogateFree_quoted`, `Text.writable_lower`: quoted texts and small forms.
-/

namespace FileShell

/-- Every symbol of the text has the property. -/
def Text.All (P : Symbol → Prop) (t : Text) : Prop := ∀ s ∈ t, P s

instance (P : Symbol → Prop) [DecidablePred P] (t : Text) : Decidable (t.All P) :=
  inferInstanceAs (Decidable (∀ s ∈ t, P s))

namespace Text

variable {P Q : Symbol → Prop} {t u : Text}

theorem all_nil : All P [] := fun _ h => absurd h List.not_mem_nil

theorem All.mono (h : t.All P) (hPQ : ∀ s, P s → Q s) : t.All Q := fun s hs => hPQ s (h s hs)

theorem All.of_subset (h : t.All P) (hsub : u ⊆ t) : u.All P := fun s hs => h s (hsub hs)

theorem All.append (ht : t.All P) (hu : u.All P) : (t ++ u).All P := by
  intro s hs
  rcases List.mem_append.1 hs with hs | hs
  · exact ht s hs
  · exact hu s hs

theorem All.cons {s : Symbol} (hs : P s) (ht : t.All P) : All P (s :: t) := by
  intro a ha
  rcases List.mem_cons.1 ha with rfl | ha
  · exact hs
  · exact ht a ha

@[simp] theorem all_append_iff : All P (t ++ u) ↔ t.All P ∧ u.All P :=
  List.forall_mem_append

@[simp] theorem all_cons_iff {s : Symbol} : All P (s :: t) ↔ P s ∧ t.All P :=
  List.forall_mem_cons

@[simp] theorem all_nil_iff : All P [] ↔ True := ⟨fun _ => trivial, fun _ => all_nil⟩

theorem all_joinWith {separator : Text} {ts : List Text} (hsep : separator.All P)
    (hts : ∀ t ∈ ts, All P t) : All P (joinWith separator ts) := by
  intro s hs
  rcases mem_of_mem_joinWith hs with hs | ⟨t, ht, hs⟩
  · exact hsep s hs
  · exact hts t ht s hs

theorem all_flatMap {α : Type} {l : List α} {f : α → Text} (h : ∀ a ∈ l, (f a).All P) :
    All P (l.flatMap f) := by
  intro s hs
  obtain ⟨a, ha, hsa⟩ := List.mem_flatMap.1 hs
  exact h a ha s hsa

theorem mem_of_mem_splitFirst {s : Symbol} :
    s ∈ (splitFirst t).1 ∨ (∃ w ∈ (splitFirst t).2, s ∈ w) → s ∈ t := by
  induction t with
  | nil => simp [splitFirst]
  | cons a rest ih =>
    have hothers : (∃ w ∈ consWord (splitFirst rest).1 (splitFirst rest).2, s ∈ w) → s ∈ rest := by
      rintro ⟨w, hw, hs⟩
      unfold consWord at hw
      split at hw
      · exact ih (.inr ⟨w, hw, hs⟩)
      · rcases List.mem_cons.1 hw with rfl | hw
        · exact ih (.inl hs)
        · exact ih (.inr ⟨w, hw, hs⟩)
    simp only [splitFirst]
    split
    · rintro (hs | hs)
      · exact absurd hs List.not_mem_nil
      · exact List.mem_cons_of_mem _ (hothers hs)
    · rintro (hs | hs)
      · rcases List.mem_cons.1 hs with rfl | hs
        · exact List.mem_cons_self
        · exact List.mem_cons_of_mem _ (ih (.inl hs))
      · exact List.mem_cons_of_mem _ (ih (.inr hs))

theorem All.words (h : t.All P) : ∀ w ∈ t.words, w.All P := by
  intro w hw s hs
  unfold Text.words consWord at hw
  split at hw
  · exact h s (mem_of_mem_splitFirst (.inr ⟨w, hw, hs⟩))
  · rcases List.mem_cons.1 hw with rfl | hw
    · exact h s (mem_of_mem_splitFirst (.inl hs))
    · exact h s (mem_of_mem_splitFirst (.inr ⟨w, hw, hs⟩))

theorem All.trim (h : t.All P) : t.trim.All P := by
  refine h.of_subset fun s hs => ?_
  have hstart := List.dropWhile_subset _ (List.mem_reverse.1 hs)
  exact List.dropWhile_subset _ (List.mem_reverse.1 hstart)

end Text

/-! ## Encodings -/

/-- The symbol has an encoding. -/
def Symbol.IsWritable (s : Symbol) : Prop := ∃ b, s.bytes? = some b

instance (s : Symbol) : Decidable s.IsWritable :=
  decidable_of_iff (s.bytes?.isSome = true) Option.isSome_iff_exists

@[simp] theorem Symbol.isWritable_scalar (c : Char) : (Symbol.scalar c).IsWritable := ⟨_, rfl⟩

/-- The text has an encoding. -/
abbrev Text.Writable (t : Text) : Prop := t.All Symbol.IsWritable

namespace Text

variable {t u : Text}

/-- **A text has an encoding exactly if each of its symbols has one.** -/
theorem writable_iff : t.Writable ↔ ∃ b, t.encode = .ok b := by
  induction t with
  | nil => exact ⟨fun _ => ⟨[], rfl⟩, fun _ => all_nil⟩
  | cons s rest ih =>
    constructor
    · intro h
      obtain ⟨x, hx⟩ := h s List.mem_cons_self
      obtain ⟨y, hy⟩ := ih.1 fun a ha => h a (List.mem_cons_of_mem _ ha)
      exact ⟨x ++ y, encode_cons hx hy⟩
    · rintro ⟨b, hb⟩
      obtain ⟨x, y, hx, hy, -⟩ := encode_cons_eq_ok hb
      exact (ih.2 ⟨y, hy⟩).cons ⟨x, hx⟩

theorem SurrogateFree.writable (h : t.SurrogateFree) : t.Writable := by
  intro s hs
  obtain ⟨c, rfl⟩ := h s hs
  exact ⟨_, rfl⟩

/-- What is read from bytes can be written. -/
theorem writable_decode (b : Bytes) : (decode b).Writable := writable_iff.2 ⟨b, encode_decode b⟩

/-! ## Texts without surrogates -/

theorem surrogateFree_ofString (s : String) : (ofString s).SurrogateFree := by
  intro a ha
  obtain ⟨c, -, rfl⟩ := List.mem_map.1 ha
  exact ⟨c, rfl⟩

@[simp] theorem writable_ofString (s : String) : (ofString s).Writable :=
  (surrogateFree_ofString s).writable

theorem surrogateFree_decimal (n : Nat) : (decimal n).SurrogateFree := surrogateFree_ofString _

theorem surrogateFree_hex (width n : Nat) : (hex width n).SurrogateFree := surrogateFree_ofString _

/-- A surrogate cannot be shown as it is. -/
theorem isPrintable_surrogate (k : Fin 2048) : (Symbol.surrogate k).isPrintable = false := by
  have hk := k.isLt
  have hrange : (0xD7FC, 0xF8FF) ∈ unprintableRanges := by decide +kernel
  have hany : (unprintableRanges.any fun r =>
      r.1 ≤ (Symbol.surrogate k).codePoint && (Symbol.surrogate k).codePoint ≤ r.2) = true := by
    refine List.any_eq_true.2 ⟨_, hrange, ?_⟩
    simp only [Symbol.codePoint, Bool.and_eq_true]
    exact ⟨decide_eq_true (by omega), decide_eq_true (by omega)⟩
  have hhigh : ¬ (Symbol.surrogate k).codePoint < 0x7F := by
    simp only [Symbol.codePoint]
    omega
  simp only [Symbol.isPrintable, hhigh, if_false, hany, Bool.not_true]

theorem surrogateFree_escaped {quote : Symbol} (hquote : ∃ c, quote = .scalar c) (s : Symbol) :
    SurrogateFree (Symbol.escaped quote s) := by
  have hself : (∃ c, s = .scalar c) → SurrogateFree [s] := fun hs => all_nil.cons hs
  obtain ⟨q, rfl⟩ := hquote
  unfold Symbol.escaped
  dsimp only
  split
  · next hs =>
    refine All.cons ⟨'\\', rfl⟩ (hself ?_)
    rcases hs with rfl | rfl <;> exact ⟨_, rfl⟩
  split
  · exact surrogateFree_ofString _
  split
  · exact surrogateFree_ofString _
  split
  · exact surrogateFree_ofString _
  split
  · next hprintable =>
    cases s with
    | scalar c => exact hself ⟨c, rfl⟩
    | surrogate k =>
      rw [isPrintable_surrogate] at hprintable
      cases hprintable
  split
  · exact All.append (surrogateFree_ofString _) (surrogateFree_hex _ _)
  split
  · exact All.append (surrogateFree_ofString _) (surrogateFree_hex _ _)
  · exact All.append (surrogateFree_ofString _) (surrogateFree_hex _ _)

/-- **A quoted text holds no surrogate**, whatever the text holds. -/
theorem surrogateFree_quoted (t : Text) : t.quoted.SurrogateFree := by
  have hquote : ∀ b : Bool, ∃ c, (if b then Symbol.scalar '"' else .scalar '\'') = .scalar c := by
    intro b
    cases b <;> exact ⟨_, rfl⟩
  unfold quoted
  dsimp only
  refine All.cons (hquote _) (All.append (all_flatMap fun s _ => ?_) (all_nil.cons (hquote _)))
  exact surrogateFree_escaped (hquote _) s

/-! ## Letter case -/

theorem lowerRuns_scalar : ∀ r ∈ CaseTable.lowerRuns,
    r.2.2.2 + (r.2.1 - r.1) < 0xD800 ∨ 0xE000 ≤ r.2.2.2 := by
  decide +kernel

/-- The symbol with a code point that is no surrogate's, or the given one. -/
theorem ofCodePointD_scalar_or_self {n : Nat} (hn : n < 0xD800 ∨ 0xE000 ≤ n) (s : Symbol) :
    (∃ c, Symbol.ofCodePointD n s = .scalar c) ∨ Symbol.ofCodePointD n s = s := by
  rcases Symbol.ofCodePointD_cases n s with hcode | hself
  · cases hx : Symbol.ofCodePointD n s with
    | scalar c => exact .inl ⟨c, rfl⟩
    | surrogate k =>
      rw [hx, Symbol.codePoint] at hcode
      have hk := k.isLt
      omega
  · exact .inr hself

/-- No surrogate comes in with small letters. -/
theorem scalar_or_self_of_mem_lower {s x : Symbol} (h : x ∈ s.lower) :
    (∃ c, x = .scalar c) ∨ x = s := by
  unfold Symbol.lower at h
  dsimp only at h
  split at h
  · split at h
    · rw [List.mem_singleton.1 h]
      exact ofCodePointD_scalar_or_self (by omega) s
    · exact .inr (List.mem_singleton.1 h)
  split at h
  · rcases List.mem_cons.1 h with rfl | h
    · exact .inl ⟨_, rfl⟩
    · exact .inl ⟨_, List.mem_singleton.1 h⟩
  split at h
  · next m hmap =>
    obtain ⟨r, hr, i, hi, -, rfl⟩ := mem_lowerRuns_of_map? hmap
    have hscalar := lowerRuns_scalar r hr
    rw [List.mem_singleton.1 h]
    exact ofCodePointD_scalar_or_self (by omega) s
  · exact .inr (List.mem_singleton.1 h)

/-- The small form of a text can be written if the text can. -/
theorem writable_lower (h : t.Writable) : t.lower.Writable := by
  suffices key : ∀ before, Writable (lowerAfter before t) from key []
  induction t with
  | nil => exact fun _ => all_nil
  | cons s rest ih =>
    intro before
    rw [lowerAfter]
    refine All.append ?_ (ih (fun a ha => h a (List.mem_cons_of_mem _ ha)) _)
    split
    · exact all_nil.cons ⟨_, rfl⟩
    · intro x hx
      rcases scalar_or_self_of_mem_lower hx with ⟨c, rfl⟩ | rfl
      · exact ⟨_, rfl⟩
      · exact h x List.mem_cons_self

end Text

end FileShell
