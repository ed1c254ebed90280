import FileShell.FileSystem.Name
import FileShell.Text.Utf8Laws

/-!
# ASCII in encoded texts

A byte below 0x80 in the encoding of a text is an ASCII symbol of the text and nothing else, so
slashes and dots may be looked for in the bytes or in the symbols alike.

* `encode_eq_ok_append`: the encoding of two texts in a row is the two encodings in a row.
* `slashByte_mem_iff`, `eq_of_encode_ascii`: what ASCII bytes tell about the text.
* `encode_joinWith`: a path is encoded part by part.
-/

namespace FileShell

/-! ## Symbols -/

theorem utf8_ascii {c : Char} {b : UInt8} (hb : b ∈ utf8 c) (h : b.toNat < 0x80) :
    utf8 c = [b] ∧ c.toNat = b.toNat := by
  have hmax := Symbol.codePoint_scalar_lt c
  simp only [utf8] at hb ⊢
  -- of the four forms only the first holds a byte below 0x80
  split at hb
  · next h1 =>
    rw [List.mem_singleton] at hb
    rw [if_pos h1, hb, toNat_ofNat_of_lt (by omega)]
    exact ⟨rfl, rfl⟩
  exfalso
  split at hb
  · next h1 h2 =>
    simp only [List.mem_cons, List.not_mem_nil, or_false] at hb
    rcases hb with rfl | rfl <;> rw [toNat_ofNat_of_lt (by omega)] at h <;> omega
  split at hb
  · next h1 h2 h3 =>
    simp only [List.mem_cons, List.not_mem_nil, or_false] at hb
    rcases hb with rfl | rfl | rfl <;> rw [toNat_ofNat_of_lt (by omega)] at h <;> omega
  · next h1 h2 h3 =>
    simp only [List.mem_cons, List.not_mem_nil, or_false] at hb
    rcases hb with rfl | rfl | rfl | rfl <;> rw [toNat_ofNat_of_lt (by omega)] at h <;> omega

namespace Symbol

theorem bytes?_ne_nil {s : Symbol} {x : Bytes} (h : s.bytes? = some x) : x ≠ [] := by
  cases s with
  | scalar c =>
    cases h
    exact utf8_ne_nil c
  | surrogate k =>
    rw [bytes?] at h
    split at h <;> cases h
    exact List.cons_ne_nil _ _

theorem bytes?_ascii {s : Symbol} {x : Bytes} {b : UInt8} (h : s.bytes? = some x) (hb : b ∈ x)
    (hlow : b.toNat < 0x80) : x = [b] ∧ s = .scalar (Char.ofNat b.toNat) := by
  cases s with
  | scalar c =>
    cases h
    obtain ⟨h1, h2⟩ := utf8_ascii hb hlow
    exact ⟨h1, by rw [← h2, Char.ofNat_toNat]⟩
  | surrogate k =>
    rw [bytes?] at h
    split at h
    · next hk =>
      cases h
      rw [List.mem_singleton] at hb
      rw [hb, toNat_ofNat_of_lt (by omega)] at hlow
      omega
    · cases h

end Symbol

/-! ## Texts -/

namespace Text

theorem encode_cons_eq_ok {s : Symbol} {t : Text} {b : Bytes} (h : encode (s :: t) = .ok b) :
    ∃ x y, s.bytes? = some x ∧ encode t = .ok y ∧ b = x ++ y := by
  rw [encode, encodeFrom] at h
  split at h
  · cases h
  · next x hx =>
    split at h
    · next y hy =>
      cases h
      exact ⟨x, y, hx, encodeFrom_ok 0 hy, rfl⟩
    · cases h

theorem encode_append_eq_ok {t u : Text} {b : Bytes} (h : encode (t ++ u) = .ok b) :
    ∃ x y, encode t = .ok x ∧ encode u = .ok y ∧ b = x ++ y := by
  induction t generalizing b with
  | nil => exact ⟨[], b, rfl, h, rfl⟩
  | cons s rest ih =>
    obtain ⟨x, y, hx, hy, rfl⟩ := encode_cons_eq_ok h
    obtain ⟨v, w, hv, hw, rfl⟩ := ih hy
    exact ⟨x ++ v, w, encode_cons hx hv, hw, (List.append_assoc x v w).symm⟩

theorem encode_eq_nil {t : Text} (h : encode t = .ok []) : t = [] := by
  cases t with
  | nil => rfl
  | cons s rest =>
    obtain ⟨x, y, hx, -, hnil⟩ := encode_cons_eq_ok h
    exact absurd (List.append_eq_nil_iff.1 hnil.symm).1 (Symbol.bytes?_ne_nil hx)

/-- A text whose bytes are all ASCII is made of the symbols for these bytes. -/
theorem eq_of_encode_ascii {t : Text} {b : Bytes} (h : encode t = .ok b)
    (hlow : ∀ x ∈ b, x.toNat < 0x80) : t = b.map fun x => .scalar (Char.ofNat x.toNat) := by
  induction t generalizing b with
  | nil =>
    cases h
    rfl
  | cons s rest ih =>
    obtain ⟨x, y, hx, hy, rfl⟩ := encode_cons_eq_ok h
    obtain ⟨a, ha⟩ := List.exists_mem_of_ne_nil x (Symbol.bytes?_ne_nil hx)
    obtain ⟨rfl, rfl⟩ := Symbol.bytes?_ascii hx ha (hlow a (List.mem_append_left y ha))
    rw [ih hy fun z hz => hlow z (List.mem_append_right _ hz)]
    rfl

/-- The bytes hold an ASCII character exactly if the text does. -/
theorem asciiByte_mem_iff {t : Text} {b : Bytes} {a : UInt8} (h : encode t = .ok b)
    (ha : a.toNat < 0x80) : a ∈ b ↔ Symbol.scalar (Char.ofNat a.toNat) ∈ t := by
  induction t generalizing b with
  | nil =>
    cases h
    simp
  | cons s rest ih =>
    obtain ⟨x, y, hx, hy, rfl⟩ := encode_cons_eq_ok h
    have hs : a ∈ x ↔ Symbol.scalar (Char.ofNat a.toNat) = s := by
      constructor
      · intro hmem
        exact (Symbol.bytes?_ascii hx hmem ha).2.symm
      · rintro rfl
        cases hx
        rw [utf8_one ha]
        exact List.mem_singleton_self a
    rw [List.mem_append, List.mem_cons, ih hy, hs]

/-- The bytes hold a slash exactly if the text does. -/
theorem slashByte_mem_iff {t : Text} {b : Bytes} (h : encode t = .ok b) :
    slashByte ∈ b ↔ Symbol.scalar '/' ∈ t := asciiByte_mem_iff h (by decide)

theorem slash_bytes : encode [.scalar '/'] = .ok [slashByte] := rfl

/-- A path is encoded part by part. -/
theorem encode_joinWith {ts : List Text} {b : Bytes}
    (h : encode (joinWith [.scalar '/'] ts) = .ok b) :
    ∃ bs : List Bytes, ts.map encode = bs.map Except.ok ∧ b = joinWith [slashByte] bs := by
  induction ts generalizing b with
  | nil =>
    cases h
    exact ⟨[], rfl, rfl⟩
  | cons t rest ih =>
    cases rest with
    | nil => exact ⟨[b], by rw [joinWith] at h; simp [h], rfl⟩
    | cons u more =>
      rw [joinWith, List.append_assoc] at h
      obtain ⟨x, y, hx, hy, rfl⟩ := encode_append_eq_ok h
      obtain ⟨v, w, hv, hw, rfl⟩ := encode_append_eq_ok hy
      obtain ⟨bs, hbs, rfl⟩ := ih hw
      rw [slash_bytes] at hv
      cases hv
      cases bs with
      | nil => cases hbs
      | cons c cs =>
        refine ⟨x :: c :: cs, ?_, ?_⟩
        · rw [List.map_cons, hbs, hx]
          rfl
        · rw [joinWith, List.append_assoc]

theorem joinWith_encode {ts : List Text} {bs : List Bytes}
    (h : ts.map encode = bs.map Except.ok) :
    encode (joinWith [.scalar '/'] ts) = .ok (joinWith [slashByte] bs) := by
  induction ts generalizing bs with
  | nil =>
    cases bs with
    | nil => rfl
    | cons c cs => cases h
  | cons t rest ih =>
    cases bs with
    | nil => cases h
    | cons c cs =>
      rw [List.map_cons, List.map_cons, List.cons.injEq] at h
      obtain ⟨ht, hrest⟩ := h
      cases rest with
      | nil =>
        cases cs with
        | nil => exact ht
        | cons d ds => cases hrest
      | cons u more =>
        cases cs with
        | nil => cases hrest
        | cons d ds =>
          rw [joinWith, joinWith]
          exact encode_append (encode_append ht slash_bytes) (ih hrest)

end Text

end FileShell
