import NodeShader.Proofs.Outcome

/-!
# Steps and what each run of them does

A step of a program reads and leaves a state, and may fail.  `Gives x s a s'` says that a step gives `a`
and leads from `s` to `s'`; the rules at the start take such steps apart.

* `Every R x`: each run of a step that does not fail leads from a state to a related one.
* `every_mapM`, `every_forM`: so do steps one after another.
-/

namespace NodeShader

section Gives

variable {ε σ α β : Type} {s s' s'' : σ} {a c : α} {b : β}

/-- A step gives a result and leaves a state. -/
def Gives (x : StateT σ (Except ε) α) (s : σ) (a : α) (s' : σ) : Prop := x.run s = .ok (a, s')

/-- A step gives one result at most. -/
theorem Gives.unique {x : StateT σ (Except ε) α} (h : Gives x s a s') (h' : Gives x s c s'') :
    c = a ∧ s'' = s' := by
  rw [Gives, h, Except.ok.injEq, Prod.mk.injEq] at h'
  exact ⟨h'.1.symm, h'.2.symm⟩

theorem gives_pure : Gives (pure a : StateT σ (Except ε) α) s c s' ↔ c = a ∧ s' = s := by
  show Except.ok (a, s) = .ok (c, s') ↔ _
  rw [Except.ok.injEq, Prod.mk.injEq, eq_comm, @eq_comm _ s]

theorem gives_bind {x : StateT σ (Except ε) α} {f : α → StateT σ (Except ε) β} :
    Gives (x >>= f) s b s'' ↔ ∃ a s', Gives x s a s' ∧ Gives (f a) s' b s'' := by
  rw [Gives, StateT.run_bind]
  refine bind_eq_ok.trans ⟨?_, ?_⟩
  · rintro ⟨⟨a, s'⟩, hx, hf⟩
    exact ⟨a, s', hx, hf⟩
  · rintro ⟨a, s', hx, hf⟩
    exact ⟨⟨a, s'⟩, hx, hf⟩

theorem gives_lift {x : Except ε α} :
    Gives (liftM x : StateT σ (Except ε) α) s a s' ↔ x = .ok a ∧ s' = s := by
  cases x with
  | error e =>
    refine ⟨fun h => ?_, fun h => ?_⟩
    · cases h
    · cases h.1
  | ok c =>
    show Except.ok (c, s) = .ok (a, s') ↔ _
    rw [Except.ok.injEq, Prod.mk.injEq, Except.ok.injEq, @eq_comm _ s]

theorem gives_lift_bind {x : Except ε α} {f : α → StateT σ (Except ε) β} :
    Gives (liftM x >>= f) s b s' ↔ ∃ a, x = .ok a ∧ Gives (f a) s b s' := by
  rw [gives_bind]
  constructor
  · rintro ⟨a, s₁, hx, hf⟩
    obtain ⟨heq, rfl⟩ := gives_lift.1 hx
    exact ⟨a, heq, hf⟩
  · rintro ⟨a, hx, hf⟩
    exact ⟨a, s, gives_lift.2 ⟨hx, rfl⟩, hf⟩

theorem gives_get_bind {f : σ → StateT σ (Except ε) β} :
    Gives (get >>= f) s b s'' ↔ Gives (f s) s b s'' := by
  rw [gives_bind]
  constructor
  · rintro ⟨_, _, hg, hf⟩
    cases hg
    exact hf
  · exact fun h => ⟨s, s, rfl, h⟩

theorem gives_modify {f : σ → σ} {u : PUnit} :
    Gives (modify f : StateT σ (Except ε) PUnit) s u s' ↔ s' = f s := by
  show Except.ok (PUnit.unit, f s) = .ok (u, s') ↔ _
  rw [Except.ok.injEq, Prod.mk.injEq, @eq_comm _ s']
  exact ⟨And.right, fun h => ⟨rfl, h⟩⟩

/-- What steps one after another give, each its own result. -/
theorem gives_mapM {f : α → StateT σ (Except ε) β} {P : α → β → Prop} {l : List α} {bs : List β}
    (hf : ∀ a ∈ l, ∀ s b s', Gives (f a) s b s' → P a b) (h : Gives (l.mapM f) s bs s') :
    List.Forall₂ P l bs := by
  induction l generalizing s s' bs with
  | nil =>
    obtain ⟨rfl, -⟩ := gives_pure.1 h
    exact .nil
  | cons a l ih =>
    rw [List.mapM_cons] at h
    rw [List.forall_mem_cons] at hf
    obtain ⟨b, s₁, hb, h⟩ := gives_bind.1 h
    obtain ⟨bs', s₂, hbs, h⟩ := gives_bind.1 h
    obtain ⟨rfl, -⟩ := gives_pure.1 h
    exact .cons (hf.1 _ _ _ hb) (ih hf.2 hbs)

end Gives

section Every

variable {ε σ α β : Type} {R : σ → σ → Prop}

/-- **Each run of a step** leads from a state to a related one. -/
def Every (R : σ → σ → Prop) (x : StateT σ (Except ε) α) : Prop :=
  ∀ ⦃s a s'⦄, Gives x s a s' → R s s'

variable (hrefl : ∀ s, R s s) (htrans : ∀ s s' s'', R s s' → R s' s'' → R s s'')

include hrefl in
theorem every_pure (a : α) : Every R (pure a : StateT σ (Except ε) α) := by
  intro s b s' h
  rw [(gives_pure.1 h).2]
  exact hrefl s

include htrans in
theorem every_bind {x : StateT σ (Except ε) α} {f : α → StateT σ (Except ε) β} (hx : Every R x)
    (hf : ∀ a, Every R (f a)) : Every R (x >>= f) := by
  intro s b s'' h
  obtain ⟨a, s', h₁, h₂⟩ := gives_bind.1 h
  exact htrans _ _ _ (hx h₁) (hf a h₂)

theorem every_get_bind {f : σ → StateT σ (Except ε) β} (hf : ∀ s, Every R (f s)) :
    Every R (get >>= f) := fun s _ _ h => hf s (gives_get_bind.1 h)

theorem every_lift_bind {x : Except ε α} {f : α → StateT σ (Except ε) β}
    (hf : ∀ a, x = .ok a → Every R (f a)) : Every R (liftM x >>= f) := by
  intro s b s' h
  obtain ⟨a, hx, h⟩ := gives_lift_bind.1 h
  exact hf a hx h

/-- A step that fails. -/
theorem every_error (e : ε) : Every R (liftM (.error e : Except ε α) : StateT σ (Except ε) α) := by
  intro s a s' h
  cases (gives_lift.1 h).1

theorem every_throw (e : ε) : Every R (throw e : StateT σ (Except ε) α) := by
  intro s a s' h
  cases h

theorem every_ite {P : Prop} [Decidable P] {x y : StateT σ (Except ε) α} (hx : Every R x)
    (hy : Every R y) : Every R (if P then x else y) := by
  split
  · exact hx
  · exact hy

include hrefl htrans in
theorem every_mapM {f : α → StateT σ (Except ε) β} {l : List α} (h : ∀ a ∈ l, Every R (f a)) :
    Every R (l.mapM f) := by
  induction l with
  | nil => exact every_pure hrefl _
  | cons a l ih =>
    rw [List.mapM_cons]
    rw [List.forall_mem_cons] at h
    exact every_bind htrans h.1 fun b => every_bind htrans (ih h.2) fun bs => every_pure hrefl _

include hrefl htrans in
theorem every_forM {f : α → StateT σ (Except ε) PUnit} {l : List α} (h : ∀ a ∈ l, Every R (f a)) :
    Every R (l.forM f) := by
  induction l with
  | nil => exact every_pure hrefl _
  | cons a l ih =>
    rw [List.forall_mem_cons] at h
    exact every_bind htrans h.1 fun _ => ih h.2

end Every

end NodeShader
