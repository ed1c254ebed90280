import FileShell.Path.Resolve
import FileShell.Proofs.Text.Writable

/-!
# The symbols of a path

Paths are made of other paths: they are cut at slashes, parts are left out, and what is left is put
together again.  No symbol comes in but slashes and full stops, so a property of all symbols passes
from the texts that a path is made of to the path.

* `Path.all_normalize`, `all_join`, `all_resolve`: the symbols of paths that are made of others.
* `Path.InBytes.writable`, `InBytes.zero_not_mem`: the symbols of a path that can be handed to the
  file system.
-/

namespace FileShell

/-- The zero character, which ends a path on its way to the file system. -/
def Symbol.zero : Symbol := .scalar '\x00'

variable {P : Symbol → Prop}

/-! ## Spellings -/

namespace Spelling

theorem all_parts {p : Text} (h : p.All P) : ∀ t ∈ (ofText p).parts, Text.All P t :=
  fun _ ht _ hs => h _ (mem_of_mem_cutAt (List.mem_filter.1 ht).1 hs)

theorem mem_of_mem_foldl_push {anchored : Bool} {ts stack : List Text} {t : Text}
    (h : t ∈ ts.foldl (push anchored) stack) : t ∈ ts ∨ t ∈ stack := by
  induction ts generalizing stack with
  | nil => exact .inr h
  | cons part rest ih =>
    rcases ih h with h | h
    · exact .inl (List.mem_cons_of_mem _ h)
    · -- a part that goes up is put on the stack only where nothing can be taken off
      have hpush : t = part ∨ t ∈ stack := by
        unfold push at h
        split at h
        · split at h
          · cases anchored with
            | true => exact absurd h List.not_mem_nil
            | false => exact .inl (List.mem_singleton.1 h)
          · split at h
            · exact List.mem_cons.1 h
            · exact .inr (List.mem_cons_of_mem _ h)
        · exact List.mem_cons.1 h
      rcases hpush with rfl | h
      · exact .inl List.mem_cons_self
      · exact .inr h

theorem all_reduce {s : Spelling} (h : ∀ t ∈ s.parts, Text.All P t) :
    ∀ t ∈ s.reduce.parts, Text.All P t := by
  intro t ht
  rcases mem_of_mem_foldl_push (List.mem_reverse.1 ht) with ht | ht
  · exact h t ht
  · exact absurd ht List.not_mem_nil

theorem all_toText (hslash : P (.scalar '/')) (hdot : P (.scalar '.')) {s : Spelling}
    (h : ∀ t ∈ s.parts, Text.All P t) : s.toText.All P := by
  have hslashes : s.anchor.slashes.All P := by
    cases s.anchor <;> simp [Anchor.slashes, Text.All, hslash]
  unfold toText
  split
  · exact Text.all_nil.cons hdot
  · exact hslashes.append (Text.all_joinWith (Text.all_nil.cons hslash) h)

theorem all_of_toText {s : Spelling} (h : s.toText.All P) : ∀ t ∈ s.parts, Text.All P t := by
  intro t ht x hx
  refine h x ?_
  have hne : ¬ (s.anchor = .relative ∧ s.parts = []) := fun hnil => by
    rw [hnil.2] at ht
    exact absurd ht List.not_mem_nil
  rw [toText, if_neg hne]
  exact List.mem_append_right _ (mem_joinWith ht hx)

/-- A path has the symbols of its spelling, but for slashes and full stops. -/
theorem all_toText_ofText_iff (hslash : P (.scalar '/')) (hdot : P (.scalar '.')) {p : Text} :
    (ofText p).toText.All P ↔ p.All P := by
  constructor
  · intro h
    have hparts := all_of_toText h
    rw [← joinWith_cutAt (.scalar '/') p]
    refine Text.all_joinWith (Text.all_nil.cons hslash) fun c hc => ?_
    by_cases hkept : c = [] ∨ c = Path.here
    · rcases hkept with rfl | rfl
      · exact Text.all_nil
      · exact Text.all_nil.cons hdot
    · exact hparts c (List.mem_filter.2 ⟨hc, by simpa using hkept⟩)
  · exact fun h => all_toText hslash hdot (all_parts h)

end Spelling

/-! ## Paths -/

namespace Path

variable {p q : Text}

theorem all_join (hslash : P (.scalar '/')) (hp : p.All P) (hq : q.All P) :
    (join p q).All P := by
  unfold join
  split
  · exact hq
  · split
    · exact hp.append hq
    · exact hp.append (hq.cons hslash)

theorem all_base (hp : p.All P) : (base p).All P :=
  hp.of_subset fun s hs => by
    simpa using (List.takeWhile_subset _) (List.mem_reverse.1 hs)

theorem all_withoutTrailingSlashes (hp : p.All P) : (withoutTrailingSlashes p).All P :=
  hp.of_subset fun s hs => by
    simpa using (List.dropWhile_subset _) (List.mem_reverse.1 hs)

/-- A leading tilde is replaced by the home directory. -/
theorem all_expanded (hslash : P (.scalar '/')) {token home : Text} :
    token.All P → home.All P → Text.All P (match token with
      | .scalar '~' :: .scalar '/' :: rest => join home rest
      | _ => token) := by
  intro ht hhome
  split
  · next rest => exact all_join hslash hhome (ht.of_subset fun s hs => by simp [hs])
  · exact ht

/-- A path seen from a directory. -/
theorem all_seenFrom (hslash : P (.scalar '/')) {directory : Text} (hd : directory.All P)
    (hp : p.All P) : Text.All P (if isAbsolute p then p else join directory p) := by
  split
  · exact hp
  · exact all_join hslash hd hp

variable (hslash : P (.scalar '/')) (hdot : P (.scalar '.'))

include hslash hdot

theorem all_normalize (hp : p.All P) : (normalize p).All P :=
  Spelling.all_toText hslash hdot (Spelling.all_reduce (Spelling.all_parts hp))

/-- **The symbols of a resolved path** come from the token, the working directory and the home
directory. -/
theorem all_resolve {token cwd home : Text} (ht : token.All P) (hcwd : cwd.All P)
    (hhome : home.All P) : (resolve token cwd home).All P := by
  unfold resolve
  split
  · exact all_normalize hslash hdot hhome
  · exact all_normalize hslash hdot (all_seenFrom hslash hcwd (all_expanded hslash ht hhome))

/-! ## Paths in bytes -/

omit hslash hdot

theorem InBytes.writable {b : Bytes} (h : InBytes p b) : p.Writable :=
  Text.writable_iff.2 ⟨b, h.encode⟩

theorem InBytes.zero_not_mem {b : Bytes} (h : InBytes p b) : Symbol.zero ∉ p := fun hzero =>
  h.zeroFree ((Text.asciiByte_mem_iff h.encode (a := 0) (by decide)).2 hzero)

/-- A name can be handed over as it is. -/
theorem inBytes_name (n : Name) : InBytes n.toText n.bytes where
  encode := n.encode_toText
  zeroFree h := (n.isName.2.2.2.2 0 h).2 rfl
  ne_nil := n.isName.1
  length_le := Nat.le_trans n.isName.2.2.2.1 (by decide)

end Path

end FileShell
