import FileShell.Verb

/-!
# Small letters stay small

Lower-casing twice is lower-casing once.  The case table is a list of runs, and no run reaches what
another one maps to (`lowerRuns_apart`); the final sigma and the dotted capital `I` are looked at
one by one.

* `Text.lower_lower`: a text in lower case is its own lower-case form.
* `Verb.lookup?_lower`: a verb is found under a name and under its lower-case form alike.
-/

namespace FileShell

open CaseTable

/-! ## The runs of the table -/

/-- Do the images of one run lie apart from the letters that another run maps? -/
def CaseTable.isApart (r s : Nat × Nat × Nat × Nat) : Bool :=
  r.2.2.2 + (r.2.1 - r.1) < s.1 || s.2.1 < r.2.2.2 ||
    ((r.2.2.1 == 2 || r.1 == r.2.1) && s.2.2.1 == 2 && r.2.2.2 % 2 != s.1 % 2)

theorem lowerRuns_apart : ∀ r ∈ lowerRuns, ∀ s ∈ lowerRuns, isApart r s = true := by
  have h : (lowerRuns.all fun r => lowerRuns.all fun s => isApart r s) = true := by
    decide +kernel
  intro r hr s hs
  exact List.all_eq_true.1 (List.all_eq_true.1 h r hr) s hs

/-- The images of a run are neither capital ASCII letters nor the dotted capital `I`. -/
theorem lowerRuns_images : ∀ r ∈ lowerRuns,
    (0x5A < r.2.2.2 ∨ r.2.2.2 + (r.2.1 - r.1) < 0x41) ∧
      (0x130 < r.2.2.2 ∨ r.2.2.2 + (r.2.1 - r.1) < 0x130) := by
  decide +kernel

theorem map?_lowerRuns_eq_none {r : Nat × Nat × Nat × Nat} (hr : r ∈ lowerRuns) {i : Nat}
    (hi : i ≤ r.2.1 - r.1) (hstep : i % r.2.2.1 = 0) : map? lowerRuns (r.2.2.2 + i) = none := by
  rw [map?, Option.map_eq_none_iff, List.find?_eq_none]
  intro s hs hreach
  simp only [Bool.and_eq_true, decide_eq_true_eq, beq_iff_eq] at hreach
  have hapart := lowerRuns_apart r hr s hs
  simp only [isApart, Bool.or_eq_true, Bool.and_eq_true, decide_eq_true_eq, beq_iff_eq,
    bne_iff_ne] at hapart
  rcases hapart with (h | h) | ⟨⟨h | h, hs2⟩, hodd⟩
  · omega
  · omega
  · rw [h] at hstep
    rw [hs2] at hreach
    omega
  · rw [hs2] at hreach
    omega

theorem mem_lowerRuns_of_map? {n m : Nat} (h : map? lowerRuns n = some m) :
    ∃ r ∈ lowerRuns, ∃ i, i ≤ r.2.1 - r.1 ∧ i % r.2.2.1 = 0 ∧ m = r.2.2.2 + i := by
  rw [map?, Option.map_eq_some_iff] at h
  obtain ⟨r, hr, rfl⟩ := h
  have hreach := List.find?_some hr
  simp only [Bool.and_eq_true, decide_eq_true_eq, beq_iff_eq] at hreach
  exact ⟨r, List.mem_of_find?_eq_some hr, n - r.1, by omega, hreach.2, rfl⟩

/-! ## Symbols -/

/-- A symbol whose code point no rule maps is its own small form. -/
theorem Symbol.lower_eq_self {s : Symbol} (hcap : ¬ (0x41 ≤ s.codePoint ∧ s.codePoint ≤ 0x5A))
    (hdot : s.codePoint ≠ 0x130) (hrun : 0x80 ≤ s.codePoint → map? lowerRuns s.codePoint = none) :
    s.lower = [s] := by
  unfold Symbol.lower
  by_cases hascii : s.codePoint < 0x80
  · simp only [hascii, hcap, if_true, if_false]
  · simp only [hascii, hdot, if_false, hrun (by omega)]

theorem Symbol.ofCodePointD_cases (n : Nat) (s : Symbol) :
    (ofCodePointD n s).codePoint = n ∨ ofCodePointD n s = s := by
  unfold ofCodePointD ofCodePoint?
  split
  · next h => exact .inl (toNat_ofNat_of_isValidChar h)
  · split
    · next h => exact .inl (by simp only [Option.getD_some, codePoint]; omega)
    · exact .inr rfl
where
  toNat_ofNat_of_isValidChar {n : Nat} (h : n.isValidChar) : (Char.ofNat n).toNat = n := by
    unfold Char.ofNat
    rw [dif_pos h]
    exact UInt32.toNat_ofNatLT

/-- **The small form of a symbol is made of small forms.** -/
theorem Symbol.lower_of_mem_lower {s x : Symbol} (h : x ∈ s.lower) : x.lower = [x] := by
  by_cases hself : s.lower = [s]
  · rw [hself, List.mem_singleton] at h
    rw [h, hself]
  -- a symbol that is mapped: its image is one that no rule maps
  have image : ∀ m, s.lower = [ofCodePointD m s] → ¬ (0x41 ≤ m ∧ m ≤ 0x5A) → m ≠ 0x130 →
      (0x80 ≤ m → map? lowerRuns m = none) → x.lower = [x] := by
    intro m hm hcap hdot hrun
    have hx : x = ofCodePointD m s := by rwa [hm, List.mem_singleton] at h
    rcases ofCodePointD_cases m s with hcode | hs
    · rw [← hx] at hcode
      exact lower_eq_self (hcode ▸ hcap) (hcode ▸ hdot) (hcode ▸ hrun)
    · rw [hs] at hm
      exact absurd hm hself
  by_cases hascii : s.codePoint < 0x80
  · have hcap : 0x41 ≤ s.codePoint ∧ s.codePoint ≤ 0x5A := Classical.byContradiction fun hcap =>
      hself (by simp only [lower, hascii, hcap, if_true, if_false])
    exact image (s.codePoint + 0x20) (by simp only [lower, hascii, hcap, and_self, if_true])
      (by omega) (by omega) (by omega)
  · by_cases hdot : s.codePoint = 0x130
    · have hl : s.lower = [.scalar 'i', .scalar '\u0307'] := by
        simp only [lower, hdot, if_true]
        rfl
      rw [hl] at h
      rcases List.mem_cons.1 h with rfl | h
      · decide
      · rw [List.mem_singleton.1 h]
        decide
    · cases hmap : map? lowerRuns s.codePoint with
      | none => exact absurd (by simp only [lower, hascii, hdot, if_false, hmap]) hself
      | some m =>
        obtain ⟨r, hr, i, hi, hstep, rfl⟩ := mem_lowerRuns_of_map? hmap
        obtain ⟨hcap, hi'⟩ := lowerRuns_images r hr
        exact image (r.2.2.2 + i) (by simp only [lower, hascii, hdot, if_false, hmap])
          (by omega) (by omega) fun _ => map?_lowerRuns_eq_none hr hi hstep

/-! ## Texts -/

namespace Text

theorem lower_of_mem_lowerAfter {before t : Text} {x : Symbol} (h : x ∈ lowerAfter before t) :
    x ≠ .scalar 'Σ' ∧ x.lower = [x] := by
  induction t generalizing before with
  | nil => exact absurd h List.not_mem_nil
  | cons s rest ih =>
    rw [lowerAfter, List.mem_append] at h
    rcases h with h | h
    · have hlow : x.lower = [x] := by
        split at h
        · rw [List.mem_singleton.1 h]
          split <;> decide
        · exact Symbol.lower_of_mem_lower h
      refine ⟨?_, hlow⟩
      rintro rfl
      exact absurd hlow (by decide)
    · exact ih h

theorem lowerAfter_eq_self {t : Text} (h : ∀ x ∈ t, x ≠ .scalar 'Σ' ∧ x.lower = [x])
    (before : Text) : lowerAfter before t = t := by
  induction t generalizing before with
  | nil => rfl
  | cons s rest ih =>
    obtain ⟨hsigma, hlow⟩ := h s List.mem_cons_self
    rw [lowerAfter, if_neg hsigma, hlow, ih fun x hx => h x (List.mem_cons_of_mem _ hx)]
    rfl

/-- **Lower-casing twice is lower-casing once.** -/
theorem lower_lower (t : Text) : t.lower.lower = t.lower :=
  lowerAfter_eq_self (fun _ hx => lower_of_mem_lowerAfter hx) []

end Text

/-- A verb is found under a name and under its lower-case form alike. -/
theorem Verb.lookup?_lower (t : Text) : Verb.lookup? t.lower = Verb.lookup? t := by
  rw [lookup?, lookup?, Text.lower_lower]

end FileShell
