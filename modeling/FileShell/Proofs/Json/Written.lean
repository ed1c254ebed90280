import FileShell.Json.Reader
import FileShell.Proofs.Text.Writable

/-!
# Written JSON reads back

A text is written between quotes in visible ASCII, symbol by symbol, and the reader takes one symbol
after another from it.  Only two escapes in a row can become one symbol: the halves of a symbol
beyond `U+FFFF`.  The first half never stands alone in what is written, because a symbol that keeps
a byte has the code of a second half.

* `Json.readString_escaped`: the reader takes one symbol from what is written for it.
* `Json.readString_quoted`: **a text between quotes reads back**, whatever follows it.
* `Json.readMembers_written`, `Json.parse_written`: so do the members of a document, at the first
  level.
-/

namespace FileShell

namespace Json

/-! ## Units of sixteen bits -/

theorem hexValue?_hexDigit (n : Nat) : hexValue? (hexDigit n) = some (n % 0x10) := by
  have hdigits : ∀ d < 0x10, hexValue? (.scalar (Nat.digitChar d)) = some d := by decide
  exact hdigits (n % 0x10) (Nat.mod_lt n (by decide))

theorem unit?_hexDigit {n : Nat} (h : n < 0x10000) :
    unit? (hexDigit (n / 0x1000)) (hexDigit (n / 0x100)) (hexDigit (n / 0x10)) (hexDigit n) =
      some n := by
  simp only [unit?, hexValue?_hexDigit, Option.bind_eq_bind, Option.bind_some, Option.pure_def]
  congr 1
  omega

theorem readString_unitEscape {n : Nat} (h : n < 0x10000) (rest : Text) :
    readString (unitEscape n ++ rest) =
      (readString rest).map fun r => (consUnit n r.1, r.2) := by
  have hu := unit?_hexDigit h
  simp only [unitEscape, List.cons_append, List.nil_append, readString, hu]
  cases readString rest <;> simp

/-- A unit that is no first half stands for its symbol alone. -/
theorem consUnit_codePoint {s : Symbol} (h : s.codePoint < 0xD800 ∨ 0xDC00 ≤ s.codePoint)
    (t : Text) : consUnit s.codePoint t = s :: t := by
  have hsymbol : ((Symbol.ofCodePoint? s.codePoint).map (· :: t)).getD t = s :: t := by
    rw [Symbol.ofCodePoint?_codePoint]
    rfl
  unfold consUnit
  split
  · rw [if_neg (by omega), hsymbol]
  · exact hsymbol

/-- The halves of a symbol beyond `U+FFFF` stand for that symbol. -/
theorem consUnit_halves {c : Char} (h : 0x10000 ≤ c.toNat) (t : Text) :
    consUnit (0xD800 + (c.toNat - 0x10000) / 0x400)
      (consUnit (0xDC00 + (c.toNat - 0x10000) % 0x400) t) = .scalar c :: t := by
  have hmax := Symbol.codePoint_scalar_lt c
  have hlow : 0x400 + (c.toNat - 0x10000) % 0x400 < 2048 := by omega
  have hsecond : 0xDC00 + (c.toNat - 0x10000) % 0x400 =
      (Symbol.surrogate ⟨0x400 + (c.toNat - 0x10000) % 0x400, hlow⟩).codePoint := by
    simp only [Symbol.codePoint]
    omega
  have hwhole : 0x10000 + (0xD800 + (c.toNat - 0x10000) / 0x400 - 0xD800) * 0x400 +
      (0x400 + (c.toNat - 0x10000) % 0x400 - 0x400) = c.toNat := by omega
  rw [hsecond, consUnit_codePoint (.inr (by rw [← hsecond]; omega)), consUnit,
    if_pos ⟨by omega, by omega, by simp only []; omega⟩, hwhole, Char.ofNat_toNat]

/-! ## Texts between quotes -/

/-- A quote ends the text. -/
theorem readString_quote (rest : Text) : readString (.scalar '"' :: rest) = some ([], rest) := by
  rw [readString.eq_def]
  exact if_pos rfl

/-- The reader takes the symbol of a short escape. -/
theorem readString_shortEscape {e : Char × Char} (he : e ∈ shortEscapes) (rest : Text) :
    readString ([.scalar '\\', .scalar e.2] ++ rest) =
      (readString rest).map fun r => (.scalar e.1 :: r.1, r.2) := by
  have hletter : letterEscapes.lookup e.2 = some e.1 ∧ e.2 ≠ 'u' := by
    revert e
    decide
  rw [List.cons_append, List.singleton_append, readString.eq_def]
  dsimp only
  rw [if_neg (by decide), if_pos rfl]
  split
  · next hrest => exact absurd (Symbol.scalar.inj (List.cons.inj hrest).1) hletter.2
  · next hrest =>
    obtain ⟨hfirst, rfl⟩ := List.cons.inj hrest
    rw [← Symbol.scalar.inj hfirst, hletter.1]
    cases readString rest <;> rfl
  · next hrest => exact absurd rfl (hrest e.2 rest)

/-- The reader takes a visible symbol as it is. -/
theorem readString_visible {s : Symbol} (hquote : s ≠ .scalar '"') (hback : s ≠ .scalar '\\')
    (hs : 0x20 ≤ s.codePoint) (rest : Text) :
    readString (s :: rest) = (readString rest).map fun r => (s :: r.1, r.2) := by
  rw [readString.eq_def]
  dsimp only
  rw [if_neg hquote, if_neg hback, if_neg (by omega)]

/-- What can be written is no first half of a symbol. -/
theorem codePoint_of_isWritable {s : Symbol} (h : s.IsWritable) :
    s.codePoint < 0xD800 ∨ 0xDC00 ≤ s.codePoint := by
  cases s with
  | scalar c =>
    have := Symbol.codePoint_scalar_not_surrogate c
    simp only [Symbol.codePoint]
    omega
  | surrogate k =>
    obtain ⟨b, hb⟩ := h
    rw [Symbol.bytes?] at hb
    split at hb
    · next hk =>
      refine .inr ?_
      simp only [Symbol.codePoint]
      omega
    · cases hb

/-- **The reader takes one symbol from what is written for it.** -/
theorem readString_escaped {s : Symbol} (h : s.IsWritable) (rest : Text) :
    readString (escaped s ++ rest) = (readString rest).map fun r => (s :: r.1, r.2) := by
  unfold escaped
  dsimp only
  split
  · next e he =>
    have hs : Symbol.scalar e.1 = s := by simpa using List.find?_some he
    rw [← hs]
    exact readString_shortEscape (List.mem_of_find?_eq_some he) rest
  · next he =>
    have hother : ∀ e ∈ shortEscapes, s ≠ .scalar e.1 := by
      intro e hmem heq
      exact List.find?_eq_none.1 he e hmem (decide_eq_true heq.symm)
    split
    · next hvisible =>
      exact readString_visible (hother ('"', '"') (by decide)) (hother ('\\', '\\') (by decide))
        hvisible.1 rest
    split
    · next hunit =>
      rw [readString_unitEscape hunit]
      simp only [consUnit_codePoint (codePoint_of_isWritable h)]
    · next hlarge =>
      obtain ⟨c, rfl⟩ : ∃ c, s = .scalar c := by
        cases s with
        | scalar c => exact ⟨c, rfl⟩
        | surrogate k =>
          have := k.isLt
          simp only [Symbol.codePoint] at hlarge
          omega
      have hmax := Symbol.codePoint_scalar_lt c
      simp only [Symbol.codePoint] at hlarge ⊢
      rw [List.append_assoc, readString_unitEscape (by omega), readString_unitEscape (by omega),
        Option.map_map]
      simp only [Function.comp_def, consUnit_halves (Nat.le_of_not_lt hlarge)]

/-- **A text between quotes reads back**, whatever follows it. -/
theorem readString_quoted {t : Text} (h : t.Writable) (rest : Text) :
    readString (t.flatMap escaped ++ .scalar '"' :: rest) = some (t, rest) := by
  induction t with
  | nil => exact readString_quote rest
  | cons s more ih =>
    rw [List.flatMap_cons, List.append_assoc, readString_escaped (h s List.mem_cons_self),
      ih fun a ha => h a (List.mem_cons_of_mem s ha)]
    rfl

/-! ## Values -/

/-- The text is read as a value, whatever follows it and however few levels are left. -/
def ReadsAs (t : Text) (v : Json) : Prop :=
  ∀ depth levels rest, readValue (depth + 1) levels (skipGap (t ++ rest)) = .ok (v, rest)

theorem readsAs_quoted {t : Text} (h : t.Writable) : ReadsAs (quoted t) (.string t) := by
  intro depth levels rest
  have hbody : (t.flatMap escaped ++ [Symbol.scalar '"']) ++ rest =
      t.flatMap escaped ++ .scalar '"' :: rest := by rw [List.append_assoc]; rfl
  have hstart : skipGap (quoted t ++ rest) =
      .scalar '"' :: (t.flatMap escaped ++ .scalar '"' :: rest) := by
    rw [quoted, List.cons_append, hbody]
    rfl
  rw [hstart, readValue, readString_quoted h]
  rfl

theorem readsAs_true : ReadsAs "true" (.bool true) := fun _ _ _ => rfl

theorem readsAs_false : ReadsAs "false" (.bool false) := fun _ _ _ => rfl

/-! ## Members of a document -/

/-- A member as it is written, with the value that is meant. -/
structure WrittenMember where
  key : Text
  text : Text
  value : Json

namespace WrittenMember

/-- The line of a member. -/
def line (m : WrittenMember) : Text := "\n  " ++ quoted m.key ++ ": " ++ m.text

/-- The member with its value. -/
def meant (m : WrittenMember) : Text × Json := (m.key, m.value)

/-- The key can be written, and the text is read as the value. -/
structure Reads (m : WrittenMember) : Prop where
  key : m.key.Writable
  value : ReadsAs m.text m.value

end WrittenMember

variable {m : WrittenMember} {tail more : Text}

theorem skipGap_line (m : WrittenMember) (tail : Text) :
    skipGap (m.line ++ tail) = .scalar '"' ::
      (m.key.flatMap escaped ++ .scalar '"' :: .scalar ':' :: .scalar ' ' :: (m.text ++ tail)) := by
  simp only [WrittenMember.line, quoted, List.append_assoc, List.cons_append, List.nil_append]
  rfl

theorem after?_quote (t : Text) : after? "\"" (.scalar '"' :: t) = some t := rfl

theorem skipGap_blank (t : Text) : skipGap (.scalar ' ' :: t) = skipGap t := rfl

theorem skipGap_colon (t : Text) : skipGap (.scalar ':' :: t) = .scalar ':' :: t := rfl

/-- What stands behind a member decides whether others follow. -/
theorem readMembers_line (hm : m.Reads) (depth levels : Nat) (tail : Text) :
    readMembers (depth + 2) levels (skipGap (m.line ++ tail)) =
      match skipGap tail with
      | .scalar '\x7d' :: more => .ok ([m.meant], more)
      | .scalar ',' :: more =>
        (readMembers (depth + 1) levels (skipGap more)).map fun r => (m.meant :: r.1, r.2)
      | _ => .error .malformed := by
  rw [skipGap_line, readMembers, after?_quote, Option.bind_some, readString_quoted hm.key]
  dsimp only
  rw [skipGap_colon]
  simp only [skipGap_blank, hm.value depth levels tail]
  rfl

/-- **The members of a document are read back in order.** -/
theorem readMembers_written {ms : List WrittenMember} (hms : ms ≠ []) (h : ∀ m ∈ ms, m.Reads)
    {depth : Nat} (hdepth : ms.length < depth) (levels : Nat) (rest : Text) :
    readMembers depth levels (skipGap
        (Text.joined "," (ms.map WrittenMember.line) ++ (Text.ofString "\n\x7d" ++ rest))) =
      .ok (ms.map WrittenMember.meant, rest) := by
  induction ms generalizing depth with
  | nil => exact absurd rfl hms
  | cons m others ih =>
    have hm := h m List.mem_cons_self
    obtain ⟨d, rfl⟩ : ∃ d, depth = d + 2 := ⟨depth - 2, by rw [List.length_cons] at hdepth; omega⟩
    cases others with
    | nil =>
      rw [List.map_singleton, Text.joined, joinWith, readMembers_line hm]
      rfl
    | cons n more =>
      have hlength : (n :: more).length < d + 1 := Nat.lt_of_succ_lt_succ hdepth
      have hmore := ih (List.cons_ne_nil n more) (fun k hk => h k (List.mem_cons_of_mem m hk))
        hlength
      have htext : Text.joined "," ((m :: n :: more).map WrittenMember.line) ++
          (Text.ofString "\n\x7d" ++ rest) =
          m.line ++ (Symbol.scalar ',' :: (Text.joined "," ((n :: more).map WrittenMember.line) ++
            (Text.ofString "\n\x7d" ++ rest))) := by
        simp only [List.map_cons, Text.joined, joinWith, List.append_assoc]
        rfl
      rw [htext, readMembers_line hm]
      exact congrArg (Except.map fun r => (m.meant :: r.1, r.2)) hmore

/-- An object that is not empty is read member by member. -/
theorem readValue_object {depth levels : Nat} {rest start more : Text}
    {members : List (Text × Json)}
    (hstart : skipGap rest = .scalar '"' :: start)
    (hmembers : readMembers depth levels (skipGap rest) = .ok (members, more)) :
    readValue (depth + 1) (levels + 1) (.scalar '\x7b' :: rest) =
      .ok (.object (collect members), more) := by
  have hobject : readValue (depth + 1) (levels + 1) (.scalar '\x7b' :: rest) =
      (readMembers depth levels (.scalar '"' :: start)).map
        fun r => (.object (collect r.1), r.2) := by
    rw [readValue, hstart]
    rfl
  rw [hobject, ← hstart, hmembers]
  rfl

theorem length_le_joinWith {separator : Text} {ls : List Text} (h : ∀ l ∈ ls, l ≠ []) :
    ls.length ≤ (joinWith separator ls).length := by
  induction ls with
  | nil => exact Nat.zero_le _
  | cons l rest ih =>
    have hl := List.length_pos_iff.2 (h l List.mem_cons_self)
    have hrest := ih fun k hk => h k (List.mem_cons_of_mem l hk)
    cases rest with
    | nil => exact hl
    | cons k more =>
      rw [joinWith, List.length_append, List.length_append]
      simp only [List.length_cons] at hrest ⊢
      omega

/-- **A document with its members on lines of their own reads back** as the object of what is
meant, wherever one level may be opened. -/
theorem parse_written {ms : List WrittenMember} (hms : ms ≠ []) (h : ∀ m ∈ ms, m.Reads)
    {levels : Nat} (hlevels : 0 < levels) :
    parse levels ("\x7b" ++ Text.joined "," (ms.map WrittenMember.line) ++ "\n\x7d") =
      .ok (.object (collect (ms.map WrittenMember.meant))) := by
  obtain ⟨levels, rfl⟩ := Nat.exists_eq_succ_of_ne_zero (Nat.ne_of_gt hlevels)
  generalize hbody : Text.joined "," (ms.map WrittenMember.line) = body
  have hlength : ms.length ≤ body.length := by
    rw [← hbody, ← List.length_map WrittenMember.line]
    refine length_le_joinWith fun l hl => ?_
    obtain ⟨m, -, rfl⟩ := List.mem_map.1 hl
    exact List.cons_ne_nil _ _
  have hread := fun depth (hdepth : ms.length < depth) =>
    readMembers_written hms h hdepth levels []
  simp only [hbody, List.append_nil] at hread
  obtain ⟨start, hstart⟩ :
      ∃ start, skipGap (body ++ Text.ofString "\n\x7d") = .scalar '"' :: start := by
    cases ms with
    | nil => exact absurd rfl hms
    | cons m others =>
      have hprefix := joinWith_isPrefix (Text.ofString ",")
        (List.prefix_append [m.line] (others.map WrittenMember.line))
      obtain ⟨tail, htail⟩ := hprefix
      rw [← hbody, List.map_cons, Text.joined, ← List.singleton_append, ← htail, joinWith,
        List.append_assoc]
      exact ⟨_, skipGap_line m _⟩
  have hopen : skipGap ("\x7b" ++ body ++ "\n\x7d") =
      .scalar '\x7b' :: (body ++ Text.ofString "\n\x7d") := rfl
  have hdepth : ms.length < 2 * ("\x7b" ++ body ++ "\n\x7d" : Text).length + 1 := by
    simp only [List.length_append]
    omega
  have hmembers := hread _ hdepth
  rw [parse, hopen, readValue_object hstart hmembers]
  rfl

end Json

end FileShell
