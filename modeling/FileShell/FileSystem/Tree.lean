import FileShell.FileSystem.Name

/-!
# The tree of directories

A node is a file with its bytes, a link with the bytes of its target, or a directory with its
entries in the order of their names.  `Entries.node?` is the view through which everything else
looks at a tree: the node at a location, if there is one.  `Entries.update` puts a node at a
location, or takes the one that is there away.

* `Node.Tidy`: the entries of every directory are in strictly ascending order, so no name occurs
  twice; `Entries.update_tidy` says that updates keep it.
-/

namespace FileShell

/-- What stands at a place of the tree. -/
inductive Node where
  | file (bytes : Bytes)
  | link (target : Bytes)
  | directory (entries : List (Name × Node))
deriving Inhabited

/-- The entries of a directory. -/
abbrev Entries := List (Name × Node)

namespace Node

/-- Is it a directory? -/
def isDirectory : Node → Bool
  | directory _ => true
  | _ => false

/-- Is it a link? -/
def isLink : Node → Bool
  | link _ => true
  | _ => false

/-- The entries below a node; only a directory has any. -/
def entries : Node → Entries
  | directory es => es
  | _ => []

mutual

/-- Equality of nodes is decidable. -/
def decideEq : (a b : Node) → Decidable (a = b)
  | file x, file y => if h : x = y then isTrue (by rw [h]) else isFalse (by rintro ⟨⟩; exact h rfl)
  | link x, link y => if h : x = y then isTrue (by rw [h]) else isFalse (by rintro ⟨⟩; exact h rfl)
  | directory x, directory y =>
    match decideEqEntries x y with
    | isTrue h => isTrue (by rw [h])
    | isFalse h => isFalse (by rintro ⟨⟩; exact h rfl)
  | file _, link _ => isFalse nofun
  | file _, directory _ => isFalse nofun
  | link _, file _ => isFalse nofun
  | link _, directory _ => isFalse nofun
  | directory _, file _ => isFalse nofun
  | directory _, link _ => isFalse nofun

/-- Equality of entry lists is decidable. -/
def decideEqEntries : (a b : List (Name × Node)) → Decidable (a = b)
  | [], [] => isTrue rfl
  | [], _ :: _ => isFalse nofun
  | _ :: _, [] => isFalse nofun
  | (n, x) :: r, (m, y) :: s =>
    if hn : n = m then
      match decideEq x y, decideEqEntries r s with
      | isTrue hx, isTrue hr => isTrue (by rw [hn, hx, hr])
      | isFalse hx, _ => isFalse (by rintro ⟨⟩; exact hx rfl)
      | _, isFalse hr => isFalse (by rintro ⟨⟩; exact hr rfl)
    else isFalse (by rintro ⟨⟩; exact hn rfl)

end

instance : DecidableEq Node := decideEq

/-- In every directory the names ascend strictly. -/
inductive Tidy : Node → Prop where
  | file (bytes : Bytes) : Tidy (file bytes)
  | link (target : Bytes) : Tidy (link target)
  | directory (es : List (Name × Node)) : es.Pairwise (fun a b => a.1 < b.1) →
      (∀ e ∈ es, Tidy e.2) → Tidy (directory es)

theorem tidy_empty : Tidy (directory []) := .directory [] .nil (by simp)

end Node

namespace Entries

/-- The node under a name. -/
def find? (es : Entries) (n : Name) : Option Node :=
  match es with
  | [] => none
  | (m, t) :: rest => if m = n then some t else find? rest n

/-- The entries with a node put under a name, in its place in the order. -/
def put (n : Name) (t : Node) : Entries → Entries
  | [] => [(n, t)]
  | (m, u) :: rest =>
    if n < m then (n, t) :: (m, u) :: rest
    else if n = m then (n, t) :: rest
    else (m, u) :: put n t rest

/-- The entries without the one under a name. -/
def drop (n : Name) : Entries → Entries
  | [] => []
  | (m, u) :: rest => if m = n then drop n rest else (m, u) :: drop n rest

end Entries

/-- The node at a location below a node. -/
def Node.at? : Location → Node → Option Node
  | [], t => some t
  | n :: p, t =>
    match Entries.find? t.entries n with
    | some u => u.at? p
    | none => none

namespace Entries

/-- The node at a location below a directory with these entries. -/
def node? (es : Entries) (p : Location) : Option Node := (Node.directory es).at? p

/-- The entries with the node at a location replaced by a new one, or taken away if there is no
new one.  Nothing changes when the directory that should hold it does not exist. -/
def update (new : Option Node) : Location → Entries → Entries
  | [], es => es
  | [n], es =>
    match new with
    | some t => put n t es
    | none => drop n es
  | n :: m :: p, es =>
    match find? es n with
    | some (.directory sub) => put n (.directory (update new (m :: p) sub)) es
    | _ => es

/-- The entries of a directory are in order, and so are those of the directories below. -/
abbrev Tidy (es : Entries) : Prop := Node.Tidy (.directory es)

theorem Tidy.pairwise {es : Entries} (h : Tidy es) : es.Pairwise fun a b => a.1 < b.1 := by
  cases h
  assumption

theorem Tidy.of_mem {es : Entries} (h : Tidy es) {e : Name × Node} (he : e ∈ es) : e.2.Tidy := by
  cases h with
  | directory _ _ hall => exact hall e he

theorem mem_of_find? {es : Entries} {n : Name} {t : Node} (h : find? es n = some t) :
    (n, t) ∈ es := by
  induction es with
  | nil => cases h
  | cons e rest ih =>
    obtain ⟨m, u⟩ := e
    simp only [find?] at h
    split at h
    · next hm =>
      cases h
      cases hm
      exact List.mem_cons_self
    · exact List.mem_cons_of_mem _ (ih h)

theorem Tidy.find? {es : Entries} (h : Tidy es) {n : Name} {t : Node} (ht : find? es n = some t) :
    t.Tidy := h.of_mem (mem_of_find? ht)

theorem mem_put {n : Name} {t : Node} {es : Entries} {e : Name × Node} (h : e ∈ put n t es) :
    e = (n, t) ∨ e ∈ es := by
  induction es with
  | nil => exact .inl (by simpa [put] using h)
  | cons f rest ih =>
    simp only [put] at h
    split at h
    · simpa using h
    · split at h
      · rcases List.mem_cons.1 h with h | h
        · exact .inl h
        · exact .inr (List.mem_cons_of_mem _ h)
      · rcases List.mem_cons.1 h with h | h
        · exact .inr (h ▸ List.mem_cons_self)
        · exact (ih h).imp id (List.mem_cons_of_mem _)

theorem put_tidy {es : Entries} (h : Tidy es) (n : Name) {t : Node} (ht : t.Tidy) :
    Tidy (put n t es) := by
  refine .directory _ ?_ fun e he => ?_
  · have hp := h.pairwise
    clear h
    induction es with
    | nil => simp [put]
    | cons f rest ih =>
      obtain ⟨hf, hrest⟩ := List.pairwise_cons.1 hp
      simp only [put]
      split
      · next hlt =>
        refine List.pairwise_cons.2 ⟨fun e he => ?_, hp⟩
        rcases List.mem_cons.1 he with rfl | he
        · exact hlt
        · exact Name.lt_trans hlt (hf e he)
      · next hlt =>
        split
        · next heq => exact List.pairwise_cons.2 ⟨fun e he => heq ▸ hf e he, hrest⟩
        · next hne =>
          refine List.pairwise_cons.2 ⟨fun e he => ?_, ih hrest⟩
          rcases mem_put he with rfl | he
          · rcases Name.lt_or_eq_or_lt n f.1 with h | h | h
            · exact absurd h hlt
            · exact absurd h hne
            · exact h
          · exact hf e he
  · rcases mem_put he with rfl | he
    · exact ht
    · exact h.of_mem he

theorem mem_drop {n : Name} {es : Entries} {e : Name × Node} (h : e ∈ drop n es) : e ∈ es := by
  induction es with
  | nil => exact h
  | cons f rest ih =>
    simp only [drop] at h
    split at h
    · exact List.mem_cons_of_mem _ (ih h)
    · rcases List.mem_cons.1 h with h | h
      · exact h ▸ List.mem_cons_self
      · exact List.mem_cons_of_mem _ (ih h)

theorem drop_tidy {es : Entries} (h : Tidy es) (n : Name) : Tidy (drop n es) := by
  refine .directory _ ?_ fun e he => h.of_mem (mem_drop he)
  have hp := h.pairwise
  clear h
  induction es with
  | nil => simp [drop]
  | cons f rest ih =>
    obtain ⟨hf, hrest⟩ := List.pairwise_cons.1 hp
    simp only [drop]
    split
    · exact ih hrest
    · exact List.pairwise_cons.2 ⟨fun e he => hf e (mem_drop he), ih hrest⟩

/-- **Updates keep the order**, if what is put in is in order. -/
theorem update_tidy {new : Option Node} (hnew : ∀ t ∈ new, t.Tidy) (p : Location) {es : Entries}
    (h : Tidy es) : Tidy (update new p es) := by
  induction p, es using update.induct new with
  | case1 es => exact h
  | case2 n es t hn => simpa only [update, hn] using put_tidy h n (hnew t hn)
  | case3 n es hn => simpa only [update, hn] using drop_tidy h n
  | case4 n m p es sub hs ih =>
    simpa only [update, hs] using put_tidy h n (ih (h.find? hs))
  | case5 n m p es hs =>
    rw [update]
    split
    · next sub h' => exact absurd h' (hs sub)
    · exact h

end Entries

theorem Node.Tidy.at? {t u : Node} (h : t.Tidy) {p : Location} (hu : t.at? p = some u) :
    u.Tidy := by
  induction p generalizing t with
  | nil =>
    cases hu
    exact h
  | cons n rest ih =>
    simp only [Node.at?] at hu
    split at hu
    · next v hv =>
      cases h with
      | file bytes => cases hv
      | link target => cases hv
      | directory es hp hall => exact ih (hall _ (Entries.mem_of_find? hv)) hu
    · cases hu

end FileShell
