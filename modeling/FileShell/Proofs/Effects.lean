import FileShell.Session

/-!
# Actions step by step

An action on a file system or on a shell ends with a value or with a failure, and in either case in
a state.  These lemmas take a run apart into the runs of its steps.

* `bind_eq_ok`, `bind_eq_error`: how a run of two steps in a row ends.
* `tryCatch_eq_ok`: a failure that is dealt with goes on from the state in which it occurred.
* `mapM_of_still`: a run over a list that only looks at the state.
* `Effect.Keeps`: an action keeps a property of states, whether it ends with a value or a failure;
  the lemmas below it say so of each way of putting actions together.
* `Effect.FailsWith`, `Effect.FailsFrom`: every failure of an action has a property.
* `Effect.Answers`: every value with which an action ends has a property.
* `Effect.EndsLike`: two actions end in the same state, with values of which one view is the same.
-/

namespace FileShell

namespace Effect

variable {ε σ α β : Type}

/-! ## How a run ends -/

theorem bind_of_ok {x : EStateM ε σ α} {f : α → EStateM ε σ β} {s t : σ} {a : α}
    (h : x s = .ok a t) : (x >>= f) s = f a t := by
  show EStateM.bind x f s = f a t
  rw [EStateM.bind, h]

theorem bind_of_error {x : EStateM ε σ α} {f : α → EStateM ε σ β} {s t : σ} {e : ε}
    (h : x s = .error e t) : (x >>= f) s = .error e t := by
  show EStateM.bind x f s = .error e t
  rw [EStateM.bind, h]

theorem bind_eq_ok {x : EStateM ε σ α} {f : α → EStateM ε σ β} {s u : σ} {b : β} :
    (x >>= f) s = .ok b u ↔ ∃ a t, x s = .ok a t ∧ f a t = .ok b u := by
  cases h : x s with
  | ok a t =>
    rw [bind_of_ok h]
    exact ⟨fun hf => ⟨a, t, rfl, hf⟩, by rintro ⟨a', t', ⟨⟩, hf⟩; exact hf⟩
  | error e t =>
    rw [bind_of_error h]
    exact ⟨by rintro ⟨⟩, by rintro ⟨a', t', h', -⟩; cases h'⟩

theorem bind_eq_error {x : EStateM ε σ α} {f : α → EStateM ε σ β} {s u : σ} {e : ε} :
    (x >>= f) s = .error e u ↔ x s = .error e u ∨ ∃ a t, x s = .ok a t ∧ f a t = .error e u := by
  cases h : x s with
  | ok a t =>
    rw [bind_of_ok h]
    refine ⟨fun hf => .inr ⟨a, t, rfl, hf⟩, ?_⟩
    rintro (h' | ⟨a', t', ⟨⟩, hf⟩)
    · cases h'
    · exact hf
  | error e' t =>
    rw [bind_of_error h]
    constructor
    · rintro ⟨⟩
      exact .inl rfl
    · rintro (⟨⟨⟩⟩ | ⟨a', t', h', -⟩)
      · rfl
      · cases h'

theorem bind_pure_eq_error {x : EStateM ε σ α} {f : α → β} {s u : σ} {e : ε} :
    (x >>= fun a => pure (f a)) s = .error e u ↔ x s = .error e u := by
  rw [bind_eq_error]
  constructor
  · rintro (h | ⟨a, t, -, h⟩)
    · exact h
    · cases h
  · exact .inl

theorem tryCatch_of_ok {x : EStateM ε σ α} {handle : ε → EStateM ε σ α} {s t : σ} {a : α}
    (h : x s = .ok a t) : tryCatch x handle s = .ok a t := by
  show EStateM.tryCatch x handle s = .ok a t
  delta EStateM.tryCatch
  simp only [h]

theorem tryCatch_of_error {x : EStateM ε σ α} {handle : ε → EStateM ε σ α} {s t : σ} {e : ε}
    (h : x s = .error e t) : tryCatch x handle s = handle e t := by
  show EStateM.tryCatch x handle s = handle e t
  delta EStateM.tryCatch
  simp only [h]
  rfl

theorem tryCatch_eq_ok {x : EStateM ε σ α} {handle : ε → EStateM ε σ α} {s u : σ} {a : α} :
    tryCatch x handle s = .ok a u ↔
      x s = .ok a u ∨ ∃ e t, x s = .error e t ∧ handle e t = .ok a u := by
  cases h : x s with
  | ok a' t =>
    rw [tryCatch_of_ok h]
    refine ⟨.inl, ?_⟩
    rintro (h' | ⟨e, t', h', -⟩)
    · exact h'
    · cases h'
  | error e t =>
    rw [tryCatch_of_error h]
    refine ⟨fun hf => .inr ⟨e, t, rfl, hf⟩, ?_⟩
    rintro (h' | ⟨e', t', ⟨⟩, hf⟩)
    · cases h'
    · exact hf

/-- A run over a list of which no step changes the state. -/
theorem mapM_of_still {f : α → EStateM ε σ β} {g : α → β} {l : List α} {s : σ}
    (h : ∀ a ∈ l, f a s = .ok (g a) s) : l.mapM f s = .ok (l.map g) s := by
  induction l with
  | nil => rfl
  | cons a rest ih =>
    rw [List.mapM_cons, bind_of_ok (h a List.mem_cons_self),
      bind_of_ok (ih fun x hx => h x (List.mem_cons_of_mem _ hx))]
    rfl

/-- A run that only looks at the state fails if one of its steps does, and all that fail do so
alike. -/
theorem mapM_of_error {f : α → EStateM ε σ β} {l : List α} {s : σ} {e : ε}
    (h : ∀ a ∈ l, (∃ b, f a s = .ok b s) ∨ f a s = .error e s)
    (hfails : ∃ a ∈ l, f a s = .error e s) : l.mapM f s = .error e s := by
  induction l with
  | nil => simp at hfails
  | cons a rest ih =>
    rw [List.mapM_cons]
    rcases h a List.mem_cons_self with ⟨b, hb⟩ | he
    · have hrest : ∃ x ∈ rest, f x s = .error e s := by
        obtain ⟨x, hx, hxs⟩ := hfails
        rcases List.mem_cons.1 hx with rfl | hx
        · cases hb.symm.trans hxs
        · exact ⟨x, hx, hxs⟩
      rw [bind_of_ok hb, bind_of_error (ih (fun x hx => h x (List.mem_cons_of_mem _ hx)) hrest)]
    · exact bind_of_error he

/-- What a run over a list answers comes from the runs of its steps. -/
theorem exists_of_mem_mapM {f : α → EStateM ε σ β} {l : List α} {s u : σ} {bs : List β}
    (h : l.mapM f s = .ok bs u) {b : β} (hb : b ∈ bs) : ∃ a ∈ l, ∃ t v, f a t = .ok b v := by
  induction l generalizing s bs with
  | nil =>
    cases h
    cases hb
  | cons a rest ih =>
    rw [List.mapM_cons] at h
    obtain ⟨first, t, hfirst, h'⟩ := bind_eq_ok.1 h
    obtain ⟨more, v, hmore, hend⟩ := bind_eq_ok.1 h'
    cases hend
    rcases List.mem_cons.1 hb with rfl | hb
    · exact ⟨a, List.mem_cons_self, s, t, hfirst⟩
    · obtain ⟨x, hx, hrun⟩ := ih hmore hb
      exact ⟨x, List.mem_cons_of_mem _ hx, hrun⟩

/-! ## What is kept whatever happens -/

/-- The state in which an action ends, with a value or with a failure. -/
def stateAfter (x : EStateM ε σ α) (s : σ) : σ :=
  match x s with
  | .ok _ t => t
  | .error _ t => t

theorem stateAfter_of_ok {x : EStateM ε σ α} {s t : σ} {a : α} (h : x s = .ok a t) :
    stateAfter x s = t := by
  rw [stateAfter, h]

theorem stateAfter_congr {x y : EStateM ε σ α} {s : σ} (h : x s = y s) :
    stateAfter x s = stateAfter y s := by
  rw [stateAfter, h, stateAfter]

theorem stateAfter_of_error {x : EStateM ε σ α} {s t : σ} {e : ε} (h : x s = .error e t) :
    stateAfter x s = t := by
  rw [stateAfter, h]

theorem stateAfter_bind_of_ok {x : EStateM ε σ α} {f : α → EStateM ε σ β} {s t : σ} {a : α}
    (h : x s = .ok a t) : stateAfter (x >>= f) s = stateAfter (f a) t := by
  rw [stateAfter, bind_of_ok h, stateAfter]

/-- The action leads from states with a property to states with that property. -/
def Keeps (I : σ → Prop) (x : EStateM ε σ α) : Prop := ∀ s, I s → I (stateAfter x s)

variable {I : σ → Prop}

theorem keeps_of_still {x : EStateM ε σ α} (h : ∀ s, stateAfter x s = s) : Keeps I x := by
  intro s hs
  rwa [h s]

theorem keeps_pure (a : α) : Keeps I (pure a : EStateM ε σ α) := keeps_of_still fun _ => rfl

theorem keeps_throw (e : ε) : Keeps I (throw e : EStateM ε σ α) := keeps_of_still fun _ => rfl

theorem keeps_modify {f : σ → σ} (h : ∀ s, I s → I (f s)) :
    Keeps I (modify f : EStateM ε σ PUnit) := fun s hs => h s hs

/-- A property of the end of a run that the second step keeps. -/
theorem stateAfter_bind {x : EStateM ε σ α} {f : α → EStateM ε σ β} {s : σ}
    (hx : I (stateAfter x s)) (hf : ∀ a t, x s = .ok a t → I t → I (stateAfter (f a) t)) :
    I (stateAfter (x >>= f) s) := by
  cases h : x s with
  | ok a t =>
    rw [stateAfter_of_ok h] at hx
    rw [stateAfter, bind_of_ok h]
    exact hf a t h hx
  | error e t =>
    rw [stateAfter_of_error h] at hx
    rw [stateAfter_of_error (bind_of_error h)]
    exact hx

/-- A step that starts where the step before it ended may count on what that step answered. -/
theorem keeps_bind_of {x : EStateM ε σ α} {f : α → EStateM ε σ β} (hx : Keeps I x)
    (hf : ∀ s a t, I s → x s = .ok a t → I (stateAfter (f a) t)) : Keeps I (x >>= f) :=
  fun s hs => stateAfter_bind (hx s hs) fun a t h _ => hf s a t hs h

theorem keeps_bind {x : EStateM ε σ α} {f : α → EStateM ε σ β} (hx : Keeps I x)
    (hf : ∀ a, Keeps I (f a)) : Keeps I (x >>= f) :=
  keeps_bind_of hx fun s a t hs h => hf a t (stateAfter_of_ok h ▸ hx s hs)

/-- What follows a look at the state starts in that state. -/
theorem keeps_get_bind {f : σ → EStateM ε σ β} (hf : ∀ s, I s → I (stateAfter (f s) s)) :
    Keeps I (get >>= f) := fun s hs => hf s hs

theorem keeps_tryCatch {x : EStateM ε σ α} {handle : ε → EStateM ε σ α} (hx : Keeps I x)
    (hh : ∀ e, Keeps I (handle e)) : Keeps I (tryCatch x handle) := by
  intro s hs
  cases h : x s with
  | ok a t =>
    rw [stateAfter_of_ok (tryCatch_of_ok h), ← stateAfter_of_ok h]
    exact hx s hs
  | error e t =>
    rw [stateAfter, tryCatch_of_error h]
    exact hh e t (stateAfter_of_error h ▸ hx s hs)

theorem keeps_mapM {f : α → EStateM ε σ β} {l : List α} (h : ∀ a ∈ l, Keeps I (f a)) :
    Keeps I (l.mapM f) := by
  induction l with
  | nil => exact keeps_pure []
  | cons a rest ih =>
    rw [List.mapM_cons]
    refine keeps_bind (h a List.mem_cons_self) ?_
    intro b
    exact keeps_bind (ih fun x hx => h x (List.mem_cons_of_mem _ hx)) fun bs => keeps_pure _

theorem keeps_forM {f : α → EStateM ε σ PUnit} {l : List α} (h : ∀ a ∈ l, Keeps I (f a)) :
    Keeps I (l.forM f) := by
  induction l with
  | nil => exact keeps_pure PUnit.unit
  | cons a rest ih =>
    rw [List.forM_eq_forM, List.forM_cons]
    exact keeps_bind (h a List.mem_cons_self) fun _ =>
      ih fun x hx => h x (List.mem_cons_of_mem _ hx)

/-! ## How an action fails -/

/-- Every failure in which the action ends has a property. -/
def FailsWith (P : ε → Prop) (x : EStateM ε σ α) : Prop := ∀ s e t, x s = .error e t → P e

variable {P : ε → Prop}

theorem failsWith_pure (a : α) : FailsWith P (pure a : EStateM ε σ α) := by
  rintro s e t ⟨⟩

theorem failsWith_throw {e : ε} (h : P e) : FailsWith P (throw e : EStateM ε σ α) := by
  rintro s _ t ⟨⟩
  exact h

theorem failsWith_get : FailsWith P (get : EStateM ε σ σ) := by
  rintro s e t ⟨⟩

theorem failsWith_modify (f : σ → σ) : FailsWith P (modify f : EStateM ε σ PUnit) := by
  rintro s e t ⟨⟩

theorem failsWith_bind {x : EStateM ε σ α} {f : α → EStateM ε σ β} (hx : FailsWith P x)
    (hf : ∀ a, FailsWith P (f a)) : FailsWith P (x >>= f) := by
  intro s e t h
  rcases bind_eq_error.1 h with h | ⟨a, u, -, h⟩
  · exact hx s e t h
  · exact hf a u e t h

theorem failsWith_ite {c : Prop} [Decidable c] {x y : EStateM ε σ α} (hx : c → FailsWith P x)
    (hy : ¬ c → FailsWith P y) : FailsWith P (if c then x else y) := by
  split
  · next hc => exact hx hc
  · next hc => exact hy hc

theorem failsWith_tryCatch {x : EStateM ε σ α} {handle : ε → EStateM ε σ α} (hx : FailsWith P x)
    (hh : ∀ e, P e → FailsWith P (handle e)) : FailsWith P (tryCatch x handle) := by
  intro s e t h
  cases hrun : x s with
  | ok a u =>
    rw [tryCatch_of_ok hrun] at h
    cases h
  | error e' u =>
    rw [tryCatch_of_error hrun] at h
    exact hh e' (hx s e' u hrun) u e t h

theorem failsWith_mapM {f : α → EStateM ε σ β} (l : List α) (h : ∀ a, FailsWith P (f a)) :
    FailsWith P (l.mapM f) := by
  induction l with
  | nil => exact failsWith_pure []
  | cons a rest ih =>
    rw [List.mapM_cons]
    exact failsWith_bind (h a) fun b => failsWith_bind ih fun bs => failsWith_pure _

theorem failsWith_forM {f : α → EStateM ε σ PUnit} (l : List α) (h : ∀ a, FailsWith P (f a)) :
    FailsWith P (l.forM f) := by
  induction l with
  | nil => exact failsWith_pure PUnit.unit
  | cons a rest ih =>
    rw [List.forM_eq_forM, List.forM_cons]
    exact failsWith_bind (h a) fun _ => ih

/-- From states with a property, every failure in which the action ends has a property. -/
def FailsFrom (I : σ → Prop) (P : ε → Prop) (x : EStateM ε σ α) : Prop :=
  ∀ s, I s → ∀ e t, x s = .error e t → P e

theorem FailsWith.failsFrom {x : EStateM ε σ α} (h : FailsWith P x) : FailsFrom I P x :=
  fun s _ => h s

theorem failsFrom_bind {x : EStateM ε σ α} {f : α → EStateM ε σ β} (hx : FailsFrom I P x)
    (hkeeps : Keeps I x) (hf : ∀ a, FailsFrom I P (f a)) : FailsFrom I P (x >>= f) := by
  intro s hs e t h
  rcases bind_eq_error.1 h with h | ⟨a, u, hrun, h⟩
  · exact hx s hs e t h
  · exact hf a u (stateAfter_of_ok hrun ▸ hkeeps s hs) e t h

theorem failsFrom_mapM {f : α → EStateM ε σ β} {l : List α} (hkeeps : ∀ a ∈ l, Keeps I (f a))
    (h : ∀ a ∈ l, FailsFrom I P (f a)) : FailsFrom I P (l.mapM f) := by
  induction l with
  | nil => exact (failsWith_pure []).failsFrom
  | cons a rest ih =>
    have hrest := ih (fun x hx => hkeeps x (List.mem_cons_of_mem _ hx)) fun x hx =>
      h x (List.mem_cons_of_mem _ hx)
    have hkeepsRest : Keeps I (rest.mapM f) :=
      keeps_mapM fun x hx => hkeeps x (List.mem_cons_of_mem _ hx)
    rw [List.mapM_cons]
    refine failsFrom_bind (h a List.mem_cons_self) (hkeeps a List.mem_cons_self) ?_
    intro b
    exact failsFrom_bind hrest hkeepsRest fun bs => (failsWith_pure _).failsFrom

/-! ## What an action answers -/

/-- The value with which the action ends, if it does not fail. -/
def value? (x : EStateM ε σ α) (s : σ) : Option α :=
  match x s with
  | .ok a _ => some a
  | .error _ _ => none

theorem value?_eq_some_iff {x : EStateM ε σ α} {s : σ} {a : α} :
    value? x s = some a ↔ ∃ t, x s = .ok a t := by
  rw [value?]
  cases x s with
  | ok b t =>
    constructor
    · rintro ⟨⟩
      exact ⟨t, rfl⟩
    · rintro ⟨_, ⟨⟩⟩
      rfl
  | error e t => exact ⟨by rintro ⟨⟩, by rintro ⟨_, ⟨⟩⟩⟩

/-- Every value with which the action ends has a property. -/
def Answers (Q : α → Prop) (x : EStateM ε σ α) : Prop := ∀ s a t, x s = .ok a t → Q a

variable {Q : α → Prop} {R : β → Prop}

theorem answers_pure {a : α} (h : Q a) : Answers Q (pure a : EStateM ε σ α) := by
  rintro s _ t ⟨⟩
  exact h

theorem answers_bind_of {x : EStateM ε σ α} {f : α → EStateM ε σ β} (hx : Answers Q x)
    (hf : ∀ a, Q a → Answers R (f a)) : Answers R (x >>= f) := by
  intro s b u h
  obtain ⟨a, t, hrun, h⟩ := bind_eq_ok.1 h
  exact hf a (hx s a t hrun) t b u h

theorem answers_bind {x : EStateM ε σ α} {f : α → EStateM ε σ β} (hf : ∀ a, Answers R (f a)) :
    Answers R (x >>= f) :=
  answers_bind_of (Q := fun _ => True) (fun _ _ _ _ => trivial) fun a _ => hf a

theorem answers_ite {c : Prop} [Decidable c] {x y : EStateM ε σ α} (hx : Answers Q x)
    (hy : Answers Q y) : Answers Q (if c then x else y) := by
  split
  · exact hx
  · exact hy

theorem answers_mapM {f : α → EStateM ε σ β} {l : List α} (h : ∀ a ∈ l, Answers R (f a)) :
    Answers (fun bs => ∀ b ∈ bs, R b) (l.mapM f) := by
  intro s bs u hrun b hb
  obtain ⟨a, ha, t, v, hone⟩ := exists_of_mem_mapM hrun hb
  exact h a ha t b v hone

/-! ## Actions that end alike -/

variable {γ δ : Type} {s : σ} {view : α → γ} {look : β → δ}

/-- The actions end in the same state from a given one, and either with the same failure or with
values of which the view is the same. -/
def EndsLike (view : α → γ) (x y : EStateM ε σ α) (s : σ) : Prop := (view <$> x) s = (view <$> y) s

theorem endsLike_refl (view : α → γ) (x : EStateM ε σ α) (s : σ) : EndsLike view x x s := rfl

theorem endsLike_pure {a b : α} (h : view a = view b) :
    EndsLike view (pure a : EStateM ε σ α) (pure b) s := by
  rw [EndsLike, map_pure, map_pure, h]

theorem map_run (view : α → γ) (x : EStateM ε σ α) (s : σ) :
    (view <$> x) s =
      match x s with
      | .ok a t => .ok (view a) t
      | .error e t => .error e t := rfl

theorem endsLike_of_eq {x y : EStateM ε σ α} (h : x s = y s) : EndsLike view x y s := by
  rw [EndsLike, map_run, map_run, h]

/-- How two actions that end alike end. -/
theorem EndsLike.ends {x y : EStateM ε σ α} (h : EndsLike view x y s) :
    (∃ a b t, x s = .ok a t ∧ y s = .ok b t ∧ view a = view b) ∨
      ∃ e t, x s = .error e t ∧ y s = .error e t := by
  rw [EndsLike, map_run, map_run] at h
  cases hx : x s with
  | ok a t =>
    cases hy : y s with
    | ok b u =>
      rw [hx, hy] at h
      obtain ⟨hview, rfl⟩ := EStateM.Result.ok.inj h
      exact .inl ⟨a, b, t, rfl, rfl, hview⟩
    | error e u =>
      rw [hx, hy] at h
      cases h
  | error d t =>
    cases hy : y s with
    | ok b u =>
      rw [hx, hy] at h
      cases h
    | error e u =>
      rw [hx, hy] at h
      obtain ⟨rfl, rfl⟩ := EStateM.Result.error.inj h
      exact .inr ⟨d, t, rfl, rfl⟩

/-- Actions that end alike may be followed by actions that end alike after the same view. -/
theorem endsLike_bind {x y : EStateM ε σ α} {f g : α → EStateM ε σ β} (h : EndsLike view x y s)
    (hf : ∀ a b t, x s = .ok a t → view a = view b → EndsLike look (f a) (g b) t) :
    EndsLike look (x >>= f) (y >>= g) s := by
  rw [EndsLike, map_bind, map_bind]
  rcases h.ends with ⟨a, b, t, hx, hy, hview⟩ | ⟨e, t, hx, hy⟩
  · rw [bind_of_ok hx, bind_of_ok hy]
    exact hf a b t hx hview
  · rw [bind_of_error hx, bind_of_error hy]

/-- The same action may be followed by actions that end alike. -/
theorem endsLike_bind_same (x : EStateM ε σ α) {f g : α → EStateM ε σ β}
    (h : ∀ a t, EndsLike look (f a) (g a) t) : EndsLike look (x >>= f) (x >>= g) s := by
  refine endsLike_bind (endsLike_refl id x s) ?_
  rintro a _ t - rfl
  exact h a t

/-- Actions that only look at the state may be followed by actions that end alike. -/
theorem endsLike_bind_of_ok {x y : EStateM ε σ α} {f g : α → EStateM ε σ β} {a b : α}
    (hx : x s = .ok a s) (hy : y s = .ok b s) (h : EndsLike look (f a) (g b) s) :
    EndsLike look (x >>= f) (y >>= g) s := by
  rw [EndsLike, map_bind, map_bind, bind_of_ok hx, bind_of_ok hy]
  exact h

/-- A list of actions ends alike with one of them in place of another. -/
theorem endsLike_mapM {I : σ → Prop} {f : α → EStateM ε σ β} {a b : α} (before after : List α)
    (hkeeps : ∀ x, Keeps I (f x)) (h : ∀ s, I s → EndsLike look (f a) (f b) s) (hs : I s) :
    EndsLike (List.map look) ((before ++ a :: after).mapM f) ((before ++ b :: after).mapM f) s := by
  induction before generalizing s with
  | nil =>
    rw [List.nil_append, List.nil_append, List.mapM_cons, List.mapM_cons]
    refine endsLike_bind (h s hs) ?_
    rintro x y t - hxy
    refine endsLike_bind_same _ ?_
    intro rest u
    exact endsLike_pure (by simp [hxy])
  | cons c before ih =>
    rw [List.cons_append, List.cons_append, List.mapM_cons, List.mapM_cons]
    refine endsLike_bind (endsLike_refl id (f c) s) ?_
    rintro x _ t hx rfl
    refine endsLike_bind (ih (stateAfter_of_ok hx ▸ hkeeps c s hs)) ?_
    rintro rest others u - hrest
    exact endsLike_pure (by simp [hrest])

end Effect

/-! ## Actions of a shell -/

namespace Action

variable {α : Type} {action : Disk α} {shell later : Shell}

theorem session_eq (shell : Shell) : session shell = .ok shell.session shell := rfl

theorem get_eq (shell : Shell) : (get : Action Shell) shell = .ok shell shell := rfl

theorem ask_eq (question : FileSystem → α) (shell : Shell) :
    ask question shell = .ok (question shell.files) shell := rfl

theorem resolve_eq (token : Text) (shell : Shell) :
    resolve token shell = .ok (shell.session.resolve token) shell := rfl

theorem keeps_ask {I : Shell → Prop} (question : FileSystem → α) : Effect.Keeps I (ask question) :=
  Effect.keeps_of_still fun _ => rfl

theorem keeps_resolve {I : Shell → Prop} (token : Text) : Effect.Keeps I (resolve token) :=
  Effect.keeps_of_still fun _ => rfl

theorem keeps_session {I : Shell → Prop} : Effect.Keeps I session :=
  Effect.keeps_of_still fun _ => rfl

/-- What happens on the disk does not touch the session. -/
theorem stateAfter_onDisk (action : Disk α) (shell : Shell) :
    Effect.stateAfter (onDisk action) shell =
      ⟨shell.session, Effect.stateAfter action shell.files⟩ := by
  unfold Effect.stateAfter onDisk
  cases action shell.files <;> rfl

theorem onDisk_eq_ok {a : α} :
    onDisk action shell = .ok a later ↔
      ∃ files, action shell.files = .ok a files ∧ later = ⟨shell.session, files⟩ := by
  rw [onDisk]
  cases h : action shell.files with
  | ok b files =>
    constructor
    · rintro ⟨⟩
      exact ⟨files, rfl, rfl⟩
    · rintro ⟨_, ⟨⟩, rfl⟩
      rfl
  | error e files =>
    exact ⟨by rintro ⟨⟩, by rintro ⟨_, ⟨⟩, -⟩⟩

theorem onDisk_eq_error {e : Failure} :
    onDisk action shell = .error e later ↔
      ∃ files, action shell.files = .error e files ∧ later = ⟨shell.session, files⟩ := by
  rw [onDisk]
  cases h : action shell.files with
  | ok a files =>
    exact ⟨by rintro ⟨⟩, by rintro ⟨_, ⟨⟩, -⟩⟩
  | error d files =>
    constructor
    · rintro ⟨⟩
      exact ⟨files, rfl, rfl⟩
    · rintro ⟨_, ⟨⟩, rfl⟩
      rfl

theorem answers_onDisk {Q : α → Prop} (h : Effect.Answers Q action) :
    Effect.Answers Q (onDisk action) := by
  intro s a later hrun
  obtain ⟨files, haction, -⟩ := onDisk_eq_ok.1 hrun
  exact h s.files a files haction

section Failing

variable {β : Type} {P : Failure → Prop}

theorem failsWith_session : Effect.FailsWith P session := by
  rintro s e t ⟨⟩

theorem failsWith_resolve (token : Text) : Effect.FailsWith P (resolve token) := by
  rintro s e t ⟨⟩

/-- What follows a question may count on the answer. -/
theorem failsWith_ask_bind {question : FileSystem → α} {f : α → Action β}
    (h : ∀ fs, Effect.FailsWith P (f (question fs))) : Effect.FailsWith P (ask question >>= f) := by
  intro s e t hrun
  rw [Effect.bind_of_ok (ask_eq question s)] at hrun
  exact h s.files s e t hrun

theorem failsWith_onDisk (h : Effect.FailsWith P action) :
    Effect.FailsWith P (onDisk action) := by
  intro s e t hrun
  obtain ⟨files, haction, -⟩ := onDisk_eq_error.1 hrun
  exact h s.files e files haction

end Failing

end Action

end FileShell
