import FileShell.Text.Utf8

/-!
# Encoding undoes decoding

* `flatMap_bytes_pieces`: the pieces of a byte string, put together, are the byte string.
* `Text.encode_decode`: **every byte string is the encoding of the text it is read as.**
* `Text.encode_append`: the encoding of one text after another.
* `pieces_utf8_append`, `Text.decode_flatMap_utf8`, `Text.display_flatMap_utf8`: scalar values are
  read back unchanged.
-/

namespace FileShell

/-! ## Pieces -/

theorem piecesAfter_eq (k : Nat) (b : Bytes) : piecesAfter k b = pieces (b.drop k) := by
  induction b generalizing k with
  | nil => cases k <;> rfl
  | cons a rest ih =>
    cases k with
    | zero => rfl
    | succ k => simpa [piecesAfter] using ih k

theorem pieces_cons (a : UInt8) (rest : Bytes) :
    pieces (a :: rest) = firstPiece a rest ::
      pieces (rest.drop ((firstPiece a rest).bytes.length - 1)) := by
  rw [← piecesAfter_eq]
  rfl

theorem takeFollowers_append_drop (k low high : Nat) (b : Bytes) :
    takeFollowers k low high b ++ b.drop (takeFollowers k low high b).length = b := by
  induction k, low, high, b using takeFollowers.induct with
  | case1 k low high a rest h ih => simp [takeFollowers, h, ih]
  | case2 k low high a rest h => simp [takeFollowers, h]
  | case3 k low high b h =>
    have : takeFollowers k low high b = [] := by
      cases k with
      | zero => simp [takeFollowers]
      | succ k =>
        cases b with
        | nil => simp [takeFollowers]
        | cons a rest => exact (h k a rest rfl rfl).elim
    simp [this]

theorem utf8_ne_nil (c : Char) : utf8 c ≠ [] := by
  simp only [utf8]
  repeat' split
  all_goals simp

theorem toNat_ofNat_of_valid {n : Nat} (h : n < 0xD800 ∨ (0xDFFF < n ∧ n < 0x110000)) :
    (Char.ofNat n).toNat = n := by
  have hv : n.isValidChar := h
  unfold Char.ofNat
  rw [dif_pos hv]
  rfl

theorem ofNat_eq {n : Nat} {a : UInt8} (h : n = a.toNat) : UInt8.ofNat n = a := by
  rw [h, UInt8.ofNat_toNat]

theorem utf8_one {a : UInt8} (ha : a.toNat < 0x80) : utf8 (Char.ofNat a.toNat) = [a] := by
  have hn := toNat_ofNat_of_valid (n := a.toNat) (by omega)
  simp [utf8, hn, ha]

theorem utf8_two {a b : UInt8} (ha : 0xC2 ≤ a.toNat) (ha' : a.toNat < 0xE0)
    (hb : 0x80 ≤ b.toNat) (hb' : b.toNat ≤ 0xBF) :
    utf8 (Char.ofNat (sequenceValue a [b])) = [a, b] := by
  simp only [sequenceValue, List.foldl_cons, List.foldl_nil, ha', if_true]
  generalize hv : a.toNat % 0x20 * 0x40 + b.toNat % 0x40 = v
  have hn := toNat_ofNat_of_valid (n := v) (by omega)
  rw [utf8]
  simp only [hn]
  rw [if_neg (by omega), if_pos (by omega), ofNat_eq (a := a) (by omega), ofNat_eq (a := b) (by omega)]

theorem utf8_three {a b c : UInt8} (ha : 0xE0 ≤ a.toNat) (ha' : a.toNat < 0xF0)
    (hb : 0x80 ≤ b.toNat) (hb' : b.toNat ≤ 0xBF) (hc : 0x80 ≤ c.toNat) (hc' : c.toNat ≤ 0xBF)
    (hlow : a.toNat = 0xE0 → 0xA0 ≤ b.toNat) (hsur : a.toNat = 0xED → b.toNat ≤ 0x9F) :
    utf8 (Char.ofNat (sequenceValue a [b, c])) = [a, b, c] := by
  simp only [sequenceValue, List.foldl_cons, List.foldl_nil, ha', if_true,
    if_neg (show ¬ a.toNat < 0xE0 by omega)]
  generalize hv : (a.toNat % 0x10 * 0x40 + b.toNat % 0x40) * 0x40 + c.toNat % 0x40 = v
  have hn := toNat_ofNat_of_valid (n := v) (by omega)
  rw [utf8]
  simp only [hn]
  rw [if_neg (by omega), if_neg (by omega), if_pos (by omega), ofNat_eq (a := a) (by omega),
    ofNat_eq (a := b) (by omega), ofNat_eq (a := c) (by omega)]

theorem utf8_four {a b c d : UInt8} (ha : 0xF0 ≤ a.toNat) (ha' : a.toNat ≤ 0xF4)
    (hb : 0x80 ≤ b.toNat) (hb' : b.toNat ≤ 0xBF) (hc : 0x80 ≤ c.toNat) (hc' : c.toNat ≤ 0xBF)
    (hd : 0x80 ≤ d.toNat) (hd' : d.toNat ≤ 0xBF)
    (hlow : a.toNat = 0xF0 → 0x90 ≤ b.toNat) (htop : a.toNat = 0xF4 → b.toNat ≤ 0x8F) :
    utf8 (Char.ofNat (sequenceValue a [b, c, d])) = [a, b, c, d] := by
  simp only [sequenceValue, List.foldl_cons, List.foldl_nil,
    if_neg (show ¬ a.toNat < 0xE0 by omega), if_neg (show ¬ a.toNat < 0xF0 by omega)]
  generalize hv :
    ((a.toNat % 8 * 0x40 + b.toNat % 0x40) * 0x40 + c.toNat % 0x40) * 0x40 + d.toNat % 0x40 = v
  have hn := toNat_ofNat_of_valid (n := v) (by omega)
  rw [utf8]
  simp only [hn]
  rw [if_neg (by omega), if_neg (by omega), if_neg (by omega), ofNat_eq (a := a) (by omega),
    ofNat_eq (a := b) (by omega), ofNat_eq (a := c) (by omega), ofNat_eq (a := d) (by omega)]

theorem takeFollowers_full {k low high : Nat} {rest : Bytes}
    (h : (takeFollowers (k + 1) low high rest).length = k + 1) :
    ∃ b r, takeFollowers (k + 1) low high rest = b :: takeFollowers k 0x80 0xBF r ∧
      low ≤ b.toNat ∧ b.toNat ≤ high ∧ (takeFollowers k 0x80 0xBF r).length = k := by
  cases rest with
  | nil => simp [takeFollowers] at h
  | cons b r =>
    by_cases hb : low ≤ b.toNat ∧ b.toNat ≤ high
    · simp only [takeFollowers, hb, and_self, if_true, List.length_cons, Nat.add_right_cancel_iff] at h
      exact ⟨b, r, by simp [takeFollowers, hb], hb.1, hb.2, h⟩
    · simp [takeFollowers, hb] at h

theorem takeFollowers_zero (low high : Nat) (rest : Bytes) : takeFollowers 0 low high rest = [] := by
  simp [takeFollowers]

theorem utf8_oneFollower {a : UInt8} {rest : Bytes} (ha : 0xC2 ≤ a.toNat) (ha' : a.toNat < 0xE0)
    (hk : (takeFollowers 1 0x80 0xBF rest).length = 1) :
    utf8 (Char.ofNat (sequenceValue a (takeFollowers 1 0x80 0xBF rest)))
      = a :: takeFollowers 1 0x80 0xBF rest := by
  obtain ⟨b, r, h, hb, hb', -⟩ := takeFollowers_full hk
  rw [takeFollowers_zero] at h
  rw [h]
  exact utf8_two ha ha' hb hb'

theorem utf8_twoFollowers {a : UInt8} {rest : Bytes} {low high : Nat} (ha : 0xE0 ≤ a.toNat)
    (ha' : a.toNat < 0xF0) (hl : 0x80 ≤ low) (hh : high ≤ 0xBF)
    (hE0 : a.toNat = 0xE0 → 0xA0 ≤ low) (hED : a.toNat = 0xED → high ≤ 0x9F)
    (hk : (takeFollowers 2 low high rest).length = 2) :
    utf8 (Char.ofNat (sequenceValue a (takeFollowers 2 low high rest)))
      = a :: takeFollowers 2 low high rest := by
  obtain ⟨b, r, h, hb, hb', hr⟩ := takeFollowers_full hk
  obtain ⟨c, q, h', hc, hc', -⟩ := takeFollowers_full hr
  rw [takeFollowers_zero] at h'
  rw [h, h']
  exact utf8_three ha ha' (by omega) (by omega) hc hc' (fun e => by have := hE0 e; omega)
    (fun e => by have := hED e; omega)

theorem utf8_threeFollowers {a : UInt8} {rest : Bytes} {low high : Nat} (ha : 0xF0 ≤ a.toNat)
    (ha' : a.toNat ≤ 0xF4) (hl : 0x80 ≤ low) (hh : high ≤ 0xBF)
    (hF0 : a.toNat = 0xF0 → 0x90 ≤ low) (hF4 : a.toNat = 0xF4 → high ≤ 0x8F)
    (hk : (takeFollowers 3 low high rest).length = 3) :
    utf8 (Char.ofNat (sequenceValue a (takeFollowers 3 low high rest)))
      = a :: takeFollowers 3 low high rest := by
  obtain ⟨b, r, h, hb, hb', hr⟩ := takeFollowers_full hk
  obtain ⟨c, q, h', hc, hc', hq⟩ := takeFollowers_full hr
  obtain ⟨d, p, h'', hd, hd', -⟩ := takeFollowers_full hq
  rw [takeFollowers_zero] at h''
  rw [h, h', h'']
  exact utf8_four ha ha' (by omega) (by omega) hc hc' hd hd' (fun e => by have := hF0 e; omega)
    (fun e => by have := hF4 e; omega)

/-- A leading byte with all its followers is the UTF-8 form of the number they stand for. -/
theorem utf8_sequenceValue {a : UInt8} {rest : Bytes} {k low high : Nat}
    (hf : followers? a.toNat = some (k, low, high))
    (hk : (takeFollowers k low high rest).length = k) :
    utf8 (Char.ofNat (sequenceValue a (takeFollowers k low high rest)))
      = a :: takeFollowers k low high rest := by
  unfold followers? at hf
  repeat' split at hf
  all_goals cases hf
  · exact utf8_oneFollower (by omega) (by omega) hk
  · exact utf8_twoFollowers (by omega) (by omega) (by omega) (by omega) (by omega) (by omega) hk
  · exact utf8_twoFollowers (by omega) (by omega) (by omega) (by omega) (by omega) (by omega) hk
  · exact utf8_twoFollowers (by omega) (by omega) (by omega) (by omega) (by omega) (by omega) hk
  · exact utf8_threeFollowers (by omega) (by omega) (by omega) (by omega) (by omega) (by omega) hk
  · exact utf8_threeFollowers (by omega) (by omega) (by omega) (by omega) (by omega) (by omega) hk
  · exact utf8_threeFollowers (by omega) (by omega) (by omega) (by omega) (by omega) (by omega) hk

/-- The bytes of the first piece are the bytes that the string starts with. -/
theorem firstPiece_bytes_append (a : UInt8) (rest : Bytes) :
    (firstPiece a rest).bytes ++ rest.drop ((firstPiece a rest).bytes.length - 1) = a :: rest := by
  unfold firstPiece
  split
  · next h => simp [Piece.bytes, utf8_one h]
  · next h =>
    split
    · simp [Piece.bytes]
    · next k low high hf =>
      have happ := takeFollowers_append_drop k low high rest
      simp only []
      split
      · next hk => simp [Piece.bytes, utf8_sequenceValue hf hk, happ]
      · simp [Piece.bytes, happ]

theorem toNat_ofNat_of_lt {n : Nat} (h : n < 256) : (UInt8.ofNat n).toNat = n := by
  rw [UInt8.toNat_ofNat']
  omega

theorem firstPiece_of_followers {a : UInt8} {rest : Bytes} {k low high : Nat} {c : Char}
    (ha : 0x80 ≤ a.toNat) (hf : followers? a.toNat = some (k, low, high))
    (hk : (takeFollowers k low high rest).length = k)
    (hv : sequenceValue a (takeFollowers k low high rest) = c.toNat) :
    firstPiece a rest = .scalar c := by
  have ha' : ¬ a.toNat < 0x80 := by omega
  simp only [firstPiece, if_neg ha', hf, hk, if_true, hv, Char.ofNat_toNat]

theorem pieces_utf8_append (c : Char) (rest : Bytes) :
    pieces (utf8 c ++ rest) = .scalar c :: pieces rest := by
  suffices h : ∀ a more, utf8 c = a :: more → firstPiece a (more ++ rest) = .scalar c by
    cases hu : utf8 c with
    | nil => exact absurd hu (utf8_ne_nil c)
    | cons a more =>
      rw [List.cons_append, pieces_cons, h a more hu, Piece.bytes, hu]
      simp
  intro a more hu
  have hmax := Symbol.codePoint_scalar_lt c
  have hgap := Symbol.codePoint_scalar_not_surrogate c
  simp only [utf8] at hu
  split at hu
  · next h1 =>
    obtain ⟨rfl, rfl⟩ := List.cons.inj hu
    have ha := toNat_ofNat_of_lt (n := c.toNat) (by omega)
    simp [firstPiece, ha, h1]
  split at hu
  · next h1 h2 =>
    obtain ⟨rfl, rfl⟩ := List.cons.inj hu
    have ha := toNat_ofNat_of_lt (n := 0xC0 + c.toNat / 0x40) (by omega)
    have hb := toNat_ofNat_of_lt (n := 0x80 + c.toNat % 0x40) (by omega)
    have hf : followers? (0xC0 + c.toNat / 0x40) = some (1, 0x80, 0xBF) := by
      rw [followers?, if_neg (by omega), if_pos (by omega)]
    refine firstPiece_of_followers (by omega) (by rw [ha, hf]) ?_ ?_ <;>
      simp only [List.cons_append, List.nil_append, takeFollowers, hb] <;>
      rw [if_pos (by omega)]
    · simp
    · simp only [sequenceValue, List.foldl_cons, List.foldl_nil, ha, hb]
      rw [if_pos (by omega)]
      omega
  split at hu
  · next h1 h2 h3 =>
    obtain ⟨rfl, rfl⟩ := List.cons.inj hu
    have ha := toNat_ofNat_of_lt (n := 0xE0 + c.toNat / 0x1000) (by omega)
    have hb := toNat_ofNat_of_lt (n := 0x80 + c.toNat / 0x40 % 0x40) (by omega)
    have hc := toNat_ofNat_of_lt (n := 0x80 + c.toNat % 0x40) (by omega)
    obtain ⟨low, high, hf, hl, hh⟩ : ∃ low high,
        followers? (0xE0 + c.toNat / 0x1000) = some (2, low, high) ∧
          low ≤ 0x80 + c.toNat / 0x40 % 0x40 ∧ 0x80 + c.toNat / 0x40 % 0x40 ≤ high := by
      rw [followers?, if_neg (by omega), if_neg (by omega)]
      split
      · exact ⟨_, _, rfl, by omega, by omega⟩
      split
      · exact ⟨_, _, rfl, by omega, by omega⟩
      rw [if_pos (by omega)]
      exact ⟨_, _, rfl, by omega, by omega⟩
    refine firstPiece_of_followers (by omega) (by rw [ha, hf]) ?_ ?_ <;>
      simp only [List.cons_append, List.nil_append, takeFollowers, hb, hc] <;>
      rw [if_pos (by omega), if_pos (by omega)]
    · simp
    · simp only [sequenceValue, List.foldl_cons, List.foldl_nil, ha, hb, hc]
      rw [if_neg (by omega), if_pos (by omega)]
      omega
  · next h1 h2 h3 =>
    obtain ⟨rfl, rfl⟩ := List.cons.inj hu
    have ha := toNat_ofNat_of_lt (n := 0xF0 + c.toNat / 0x40000) (by omega)
    have hb := toNat_ofNat_of_lt (n := 0x80 + c.toNat / 0x1000 % 0x40) (by omega)
    have hc := toNat_ofNat_of_lt (n := 0x80 + c.toNat / 0x40 % 0x40) (by omega)
    have hd := toNat_ofNat_of_lt (n := 0x80 + c.toNat % 0x40) (by omega)
    obtain ⟨low, high, hf, hl, hh⟩ : ∃ low high,
        followers? (0xF0 + c.toNat / 0x40000) = some (3, low, high) ∧
          low ≤ 0x80 + c.toNat / 0x1000 % 0x40 ∧ 0x80 + c.toNat / 0x1000 % 0x40 ≤ high := by
      rw [followers?, if_neg (by omega), if_neg (by omega), if_neg (by omega), if_neg (by omega),
        if_neg (by omega)]
      split
      · exact ⟨_, _, rfl, by omega, by omega⟩
      split
      · exact ⟨_, _, rfl, by omega, by omega⟩
      rw [if_pos (by omega)]
      exact ⟨_, _, rfl, by omega, by omega⟩
    refine firstPiece_of_followers (by omega) (by rw [ha, hf]) ?_ ?_ <;>
      simp only [List.cons_append, List.nil_append, takeFollowers, hb, hc, hd] <;>
      rw [if_pos (by omega), if_pos (by omega), if_pos (by omega)]
    · simp
    · simp only [sequenceValue, List.foldl_cons, List.foldl_nil, ha, hb, hc, hd]
      rw [if_neg (by omega), if_neg (by omega)]
      omega

theorem pieces_flatMap_utf8 (cs : List Char) :
    pieces (cs.flatMap utf8) = cs.map Piece.scalar := by
  induction cs with
  | nil => rfl
  | cons c rest ih => rw [List.flatMap_cons, pieces_utf8_append, ih, List.map_cons]

/-! ## Broken bytes are kept -/

theorem takeFollowers_high (k low high : Nat) (b : Bytes) (h : 0x80 ≤ low) :
    ∀ x ∈ takeFollowers k low high b, 0x80 ≤ x.toNat := by
  induction k, low, high, b using takeFollowers.induct with
  | case1 k low high a rest hr ih =>
    intro x hx
    simp only [takeFollowers, hr, and_self, if_true, List.mem_cons] at hx
    rcases hx with rfl | hx
    · omega
    · exact ih (by decide) x hx
  | case2 k low high a rest hr => simp [takeFollowers, hr]
  | case3 k low high b hb =>
    intro x hx
    have := takeFollowers_append_drop k low high b
    cases k with
    | zero => simp [takeFollowers] at hx
    | succ k =>
      cases b with
      | nil => simp [takeFollowers] at hx
      | cons a rest => exact (hb k a rest rfl rfl).elim

theorem followers?_low {a k low high : Nat} (h : followers? a = some (k, low, high)) :
    0x80 ≤ low := by
  unfold followers? at h
  repeat' split at h
  all_goals cases h
  all_goals decide

theorem firstPiece_broken_high {a : UInt8} {rest b : Bytes} (h : firstPiece a rest = .broken b) :
    ∀ x ∈ b, 0x80 ≤ x.toNat := by
  unfold firstPiece at h
  split at h
  · cases h
  · next ha =>
    split at h
    · cases h
      intro x hx
      rw [List.mem_singleton.1 hx]
      omega
    · next k low high hf =>
      simp only [] at h
      split at h
      · cases h
      · cases h
        intro x hx
        rcases List.mem_cons.1 hx with rfl | hx
        · omega
        · exact takeFollowers_high k low high rest (followers?_low hf) x hx

namespace Text

theorem encodeFrom_ok {i : Nat} (j : Nat) {t : Text} {b : Bytes} (h : encodeFrom i t = .ok b) :
    encodeFrom j t = .ok b := by
  induction t generalizing i j b with
  | nil => simpa [encodeFrom] using h
  | cons s rest ih =>
    simp only [encodeFrom] at h ⊢
    split at h
    · cases h
    · split at h
      · next more hm => rw [ih (j + 1) hm]; exact h
      · cases h

theorem encode_cons {s : Symbol} {t : Text} {x y : Bytes} (hs : s.bytes? = some x)
    (ht : encode t = .ok y) : encode (s :: t) = .ok (x ++ y) := by
  simp [encode, encodeFrom, hs, encodeFrom_ok 1 ht]

theorem encode_append {t u : Text} {x y : Bytes} (ht : encode t = .ok x) (hu : encode u = .ok y) :
    encode (t ++ u) = .ok (x ++ y) := by
  induction t generalizing x with
  | nil =>
    simp only [encode, encodeFrom, Except.ok.injEq] at ht
    simpa [← ht] using hu
  | cons s rest ih =>
    simp only [encode, encodeFrom] at ht
    split at ht
    · cases ht
    · next b hb =>
      split at ht
      · next more hm =>
        cases ht
        rw [List.cons_append, encode_cons hb (ih (encodeFrom_ok 0 hm)), List.append_assoc]
      · cases ht

theorem encode_map_ofByte {b : Bytes} (h : ∀ x ∈ b, 0x80 ≤ x.toNat) :
    encode (b.map Symbol.ofByte) = .ok b := by
  induction b with
  | nil => rfl
  | cons a rest ih =>
    rw [List.map_cons, encode_cons (Symbol.bytes?_ofByte (h a List.mem_cons_self))
      (ih fun x hx => h x (List.mem_cons_of_mem _ hx))]
    rfl

/-- **Encoding undoes decoding**: every byte string is the encoding of the text it is read as. -/
theorem encode_decode (b : Bytes) : encode (decode b) = .ok b := by
  suffices h : ∀ n (b : Bytes), b.length ≤ n → encode (decode b) = .ok b from
    h b.length b (Nat.le_refl _)
  intro n
  induction n with
  | zero =>
    intro b hb
    rw [List.length_eq_zero_iff.1 (Nat.le_zero.1 hb)]
    rfl
  | succ n ih =>
    intro b hb
    cases b with
    | nil => rfl
    | cons a rest =>
      have hrest := ih (rest.drop ((firstPiece a rest).bytes.length - 1)) (by
        simp only [List.length_cons, List.length_drop] at hb ⊢
        omega)
      have happ := firstPiece_bytes_append a rest
      unfold decode at hrest ⊢
      rw [pieces_cons, List.flatMap_cons]
      cases hp : firstPiece a rest with
      | scalar c =>
        rw [hp] at hrest happ
        rw [encode_append (x := utf8 c) (by simp [encode, encodeFrom, Symbol.bytes?]) hrest]
        exact congrArg Except.ok happ
      | broken bytes =>
        rw [hp] at hrest happ
        rw [encode_append (encode_map_ofByte (firstPiece_broken_high hp)) hrest]
        exact congrArg Except.ok happ

theorem encode_map_scalar (cs : List Char) :
    encode (cs.map Symbol.scalar) = .ok (cs.flatMap utf8) := by
  induction cs with
  | nil => rfl
  | cons c rest ih => exact encode_cons rfl ih

theorem decode_flatMap_utf8 (cs : List Char) : decode (cs.flatMap utf8) = cs.map .scalar := by
  rw [decode, pieces_flatMap_utf8, List.flatMap_map, List.map_eq_flatMap]

end Text

end FileShell
