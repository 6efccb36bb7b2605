import NodeShader.Failure

/-!
# Failures of the backend

A failure is *early* if it is not classified as one of the backend.  A classification is kept by
whatever classifies the failure again, so all that matters is where a failure first gets one.
-/

namespace NodeShader.Failure

variable {f : Failure} {kind : FailureKind} {node : Option NodeId}

/-- **A failure that is none of the backend.** -/
def Early (f : Failure) : Prop := ∀ c, f.classification? = some c → c.kind ≠ .backend

theorem early_of_none (h : f.classification? = none) : f.Early := by
  intro c hc
  rw [h] at hc
  cases hc

theorem early_classified (hk : kind ≠ .backend) (cause : Option Failure) :
    (classified kind node cause).Early := by
  intro c hc
  cases hc
  exact hk

theorem early_ofMessage (hk : kind ≠ .backend) (message : String) :
    (ofMessage kind node message).Early := early_classified hk _

/-- What a chain finds is classified itself. -/
theorem classifiedPart?_idem : (f : Failure) → ∀ g, f.classifiedPart? = some g →
    g.classifiedPart? = some g
  | classified .., _, h => by cases h; rfl
  | annotated _ cause, g, h => classifiedPart?_idem cause g h
  | plain _, _, h | fault, _, h | unsatisfiable _, _, h | cycle _, _, h | malformed _, _, h
  | dependency _, _, h | metal _, _, h => by cases h

/-- A failure keeps its classification. -/
theorem classification?_classify {c : Classification} (h : f.classification? = some c) :
    (classify kind node (some f)).classification? = some c := by
  rw [classify, Option.bind_some]
  rw [classification?] at h
  cases hf : f.classifiedPart? with
  | none =>
    rw [hf] at h
    cases h
  | some g =>
    rw [hf] at h
    rw [classification?, classifiedPart?_idem f g hf]
    exact h

/-- A failure without a classification gets one, any other keeps its own. -/
theorem early_classify (h : f.Early) (hk : kind ≠ .backend) : (classify kind node (some f)).Early := by
  rw [classify, Option.bind_some]
  cases hf : f.classifiedPart? with
  | none => exact early_classified hk _
  | some g =>
    intro c hc
    refine h c ?_
    rw [classification?, hf]
    rw [classification?, classifiedPart?_idem f g hf] at hc
    exact hc

end NodeShader.Failure

namespace NodeShader

variable {ε α β : Type}

/-- **What fails early**, if it fails. -/
def EndsEarly (x : Except Failure α) : Prop := ∀ f, x = .error f → f.Early

theorem endsEarly_ok (a : α) : EndsEarly (.ok a) := fun _ h => by cases h

theorem endsEarly_error {f : Failure} (hf : f.Early) : EndsEarly (.error f : Except Failure α) := by
  intro f' h
  cases h
  exact hf

theorem endsEarly_bind_of {x : Except Failure α} {f : α → Except Failure β} (hx : EndsEarly x)
    (hf : ∀ a, x = .ok a → EndsEarly (f a)) : EndsEarly (x >>= f) := by
  cases x with
  | error e => exact endsEarly_error (hx e rfl)
  | ok a => exact hf a rfl

theorem endsEarly_bind {x : Except Failure α} {f : α → Except Failure β} (hx : EndsEarly x)
    (hf : ∀ a, EndsEarly (f a)) : EndsEarly (x >>= f) := endsEarly_bind_of hx fun a _ => hf a

theorem endsEarly_map {x : Except Failure α} (hx : EndsEarly x) (f : α → β) : EndsEarly (x.map f) := by
  cases x with
  | error e => exact endsEarly_error (hx e rfl)
  | ok a => exact endsEarly_ok _

theorem endsEarly_mapError {x : Except ε α} {f : ε → Failure} (hf : ∀ e, x = .error e → (f e).Early) :
    EndsEarly (x.mapError f) := by
  cases x with
  | error e => exact endsEarly_error (hf e rfl)
  | ok a => exact endsEarly_ok a

theorem endsEarly_foldlM {f : β → α → Except Failure β} {l : List α} {b : β}
    (hf : ∀ b, ∀ a ∈ l, EndsEarly (f b a)) : EndsEarly (l.foldlM f b) := by
  induction l generalizing b with
  | nil => exact endsEarly_ok b
  | cons a l ih =>
    rw [List.foldlM_cons]
    exact endsEarly_bind (hf b a List.mem_cons_self) fun b' =>
      ih fun b a ha => hf b a (List.mem_cons_of_mem _ ha)

theorem endsEarly_forM {f : α → Except Failure Unit} {l : List α} (hf : ∀ a ∈ l, EndsEarly (f a)) :
    EndsEarly (l.forM f) := by
  induction l with
  | nil => exact endsEarly_ok ()
  | cons a l ih =>
    rw [List.forM_eq_forM, List.forM_cons]
    rw [List.forall_mem_cons] at hf
    exact endsEarly_bind hf.1 fun _ => ih hf.2

theorem endsEarly_mapM {f : α → Except Failure β} {l : List α} (hf : ∀ a ∈ l, EndsEarly (f a)) :
    EndsEarly (l.mapM f) := by
  induction l with
  | nil => exact endsEarly_ok []
  | cons a l ih =>
    rw [List.mapM_cons]
    rw [List.forall_mem_cons] at hf
    exact endsEarly_bind hf.1 fun b => endsEarly_bind (ih hf.2) fun _ => endsEarly_ok _

end NodeShader
