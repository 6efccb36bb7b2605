import NodeShader.Proofs.Stage.Selecting

/-!
# Drafts in lockstep

Whether a step of writing succeeds does not hang on the identifiers, types and constants there are
already.  Two drafts are *twins* (`Draft.Twin`) if they remember the same variables and some ports have
values in neither; a step *follows* another (`Drafting.Follows`) if it succeeds from a twin wherever the
other succeeds, and leaves twins behind.  The steps that write the code of a node follow themselves, as
long as the output ports of the node have no values.

Most steps always succeed (`Drafting.Succeeds`), and of two such steps each follows the other.  The
ports without values are kept track of since a port is given its value once only: `succeeds_bindTo` and
`succeeds_resultId` take a port out of them, and what flows into a node comes from none of them
(`Drafting.Clear`).
-/

namespace NodeShader

open Spirv

/-- **Twins**: drafts that remember the same variables, and have no values for the ports of `K`. -/
structure Draft.Twin (K : PortId → Prop) (d d' : Draft) : Prop where
  memory : d'.memory = d.memory
  left : ∀ out, K out → d.values.lookup out = none
  right : ∀ out, K out → d'.values.lookup out = none

namespace Draft.Twin

variable {K K' : PortId → Prop} {d d' : Draft}

theorem mono (h : d.Twin K d') (hK : ∀ out, K' out → K out) : d.Twin K' d' :=
  ⟨h.memory, fun out ho => h.left out (hK out ho), fun out ho => h.right out (hK out ho)⟩

theorem model (h : d.Twin K d') : d'.model = d.model :=
  eq_of_view Draft.memory Draft.model (fun _ => rfl) h.memory

theorem fields (h : d.Twin K d') : d'.fields = d.fields :=
  eq_of_view Draft.memory Draft.fields (fun _ => rfl) h.memory

theorem storage (h : d.Twin K d') : d'.storage = d.storage :=
  eq_of_view Draft.memory Draft.storage (fun _ => rfl) h.memory

end Draft.Twin

/-- No ports: nothing is asked of the values. -/
def nowhere : PortId → Prop := fun _ => False

theorem nowhere_imp {P : PortId → Prop} : ∀ out, nowhere out → P out := fun _ h => h.elim

namespace Drafting

variable {α β γ δ : Type} {K K₁ K' : PortId → Prop} {x : Drafting α} {y : Drafting β}

/-! ### Steps that succeed -/

/-- A step that succeeds from any draft without values for the ports of `K`, and gives none to those of
`K'`. -/
def Succeeds (K K' : PortId → Prop) (x : Drafting α) : Prop :=
  ∀ d : Draft, (∀ out, K out → d.values.lookup out = none) →
    ∃ a e, Draws x d a e ∧ e.memory = d.memory ∧ ∀ out, K' out → e.values.lookup out = none

theorem Succeeds.mono (h : Succeeds K K₁ x) (hK : ∀ out, K' out → K₁ out) : Succeeds K K' x := by
  intro d hd
  obtain ⟨a, e, hx, hm, he⟩ := h d hd
  exact ⟨a, e, hx, hm, fun out ho => he out (hK out ho)⟩

theorem succeeds_pure (a : α) : Succeeds K K (pure a) :=
  fun d hd => ⟨a, d, draws_pure.2 ⟨rfl, rfl⟩, rfl, hd⟩

theorem succeeds_bind {f : α → Drafting β} (hx : Succeeds K K₁ x) (hf : ∀ a, Succeeds K₁ K' (f a)) :
    Succeeds K K' (x >>= f) := by
  intro d hd
  obtain ⟨a, d₁, h₁, hm₁, hd₁⟩ := hx d hd
  obtain ⟨b, e, h, hm, he⟩ := hf a d₁ hd₁
  exact ⟨b, e, draws_bind.2 ⟨a, d₁, h₁, h⟩, hm.trans hm₁, he⟩

theorem succeeds_get_bind {f : Draft → Drafting α} (h : ∀ d, Succeeds K K' (f d)) :
    Succeeds K K' (get >>= f) := by
  intro d hd
  obtain ⟨a, e, ha, hm, he⟩ := h d d hd
  exact ⟨a, e, draws_get_bind.2 ha, hm, he⟩

/-- The module may do anything. -/
theorem succeeds_assemble (s : Assemble α) : Succeeds K K (assemble s) :=
  fun _ hd => ⟨_, _, draws_assemble.2 ⟨rfl, rfl⟩, rfl, hd⟩

/-- A note that is not about variables or values. -/
theorem succeeds_note {f : Draft → Draft} (hm : ∀ d, (f d).memory = d.memory)
    (hv : ∀ d, (f d).values = d.values) : Succeeds K K (modify f) :=
  fun d hd => ⟨⟨⟩, f d, draws_modify.2 rfl, hm d, by rwa [hv d]⟩

theorem succeeds_mapM {ι : Type} {f : ι → Drafting α} {l : List ι} (h : ∀ i ∈ l, Succeeds K K (f i)) :
    Succeeds K K (l.mapM f) := by
  induction l with
  | nil => exact succeeds_pure []
  | cons i l ih =>
    rw [List.mapM_cons]
    rw [List.forall_mem_cons] at h
    exact succeeds_bind h.1 fun _ => succeeds_bind (ih h.2) fun _ => succeeds_pure _

theorem succeeds_ite {P : Prop} [Decidable P] {x' : Drafting α} (hx : P → Succeeds K K' x)
    (hx' : ¬ P → Succeeds K K' x') : Succeeds K K' (if P then x else x') := by
  split
  · rename_i h
    exact hx h
  · rename_i h
    exact hx' h

/-! ### Steps that follow others -/

/-- **One step follows another**: from a twin it succeeds where the other does, and leaves a twin. -/
def Follows (K K' : PortId → Prop) (x : Drafting α) (y : Drafting β) : Prop :=
  ∀ ⦃d d' : Draft⦄ ⦃a : α⦄ ⦃e : Draft⦄, d.Twin K d' → Draws x d a e →
    ∃ b e', Draws y d' b e' ∧ e.Twin K' e'

/-- Steps that succeed anyway. -/
theorem Succeeds.follows (hx : Succeeds K K' x) (hy : Succeeds K K' y) : Follows K K' x y := by
  intro d d' a e ht h
  obtain ⟨a', e₁, h₁, hm, he⟩ := hx d ht.left
  rw [Draws, h] at h₁
  cases h₁
  obtain ⟨b, e', h', hm', he'⟩ := hy d' ht.right
  exact ⟨b, e', h', by rw [hm', hm, ht.memory], he, he'⟩

theorem Follows.mono (h : Follows K K₁ x y) (hK : ∀ out, K' out → K₁ out) : Follows K K' x y := by
  intro d d' a e ht hx
  obtain ⟨b, e', hy, ht'⟩ := h ht hx
  exact ⟨b, e', hy, ht'.mono hK⟩

theorem follows_pure (a : α) (b : β) : Follows K K (pure a) (pure b) :=
  (succeeds_pure a).follows (succeeds_pure b)

theorem follows_bind {f : α → Drafting γ} {g : β → Drafting δ} (hx : Follows K K₁ x y)
    (hf : ∀ a b, Follows K₁ K' (f a) (g b)) : Follows K K' (x >>= f) (y >>= g) := by
  intro d d' c e ht h
  obtain ⟨a, d₁, h₁, h⟩ := draws_bind.1 h
  obtain ⟨b, d₁', h₁', ht₁⟩ := hx ht h₁
  obtain ⟨c', e', h', ht'⟩ := hf a b ht₁ h
  exact ⟨c', e', draws_bind.2 ⟨b, d₁', h₁', h'⟩, ht'⟩

/-- What hangs on the draft hangs on what twins have in common. -/
theorem follows_get_bind {f : Draft → Drafting α} {g : Draft → Drafting β}
    (h : ∀ d d', d.Twin K d' → Follows K K' (f d) (g d')) : Follows K K' (get >>= f) (get >>= g) := by
  intro d d' a e ht hd
  obtain ⟨b, e', hg, ht'⟩ := h d d' ht ht (draws_get_bind.1 hd)
  exact ⟨b, e', draws_get_bind.2 hg, ht'⟩

theorem follows_throw (f : Failure) : Follows K K' (throw f : Drafting α) y :=
  fun _ _ _ _ _ h => absurd h not_draws_throw

theorem follows_unsupported (n : Node) (reason : String) :
    Follows K K' (unsupported n reason : Drafting α) y := follows_throw _

theorem follows_assemble (s : Assemble α) (s' : Assemble β) :
    Follows K K (assemble s) (assemble s') := (succeeds_assemble s).follows (succeeds_assemble s')

theorem follows_demand_bind {o : Option α} {f : α → Drafting γ} {g : α → Drafting δ}
    (h : ∀ a, o = some a → Follows K K' (f a) (g a)) :
    Follows K K' (demand o >>= f) (demand o >>= g) := by
  cases o with
  | none => exact fun _ _ _ _ _ hd => absurd (draws_bind.1 hd).choose_spec.choose_spec.1 not_draws_throw
  | some a => exact h a rfl

theorem follows_ite {P : Prop} [Decidable P] {x' : Drafting α} {y' : Drafting β}
    (hx : Follows K K' x y) (hx' : Follows K K' x' y') :
    Follows K K' (if P then x else x') (if P then y else y') := by
  split
  · exact hx
  · exact hx'

theorem follows_mapM {ι : Type} {f : ι → Drafting α} {g : ι → Drafting β} {l : List ι}
    (h : ∀ i ∈ l, Follows K K (f i) (g i)) : Follows K K (l.mapM f) (l.mapM g) := by
  induction l with
  | nil => exact follows_pure [] []
  | cons i l ih =>
    rw [List.mapM_cons, List.mapM_cons]
    rw [List.forall_mem_cons] at h
    exact follows_bind h.1 fun _ _ => follows_bind (ih h.2) fun _ _ => follows_pure _ _

/-! ### Types, constants and variables -/

variable {t : ValueType}

theorem succeeds_typeOf (h : t.isValue = true) : Succeeds K K (typeOf t) := by
  have hscaled : ∀ a : UInt32, Succeeds K K
      (if t.size = 1 then pure a else assemble (Assemble.typeVector a t.size.toUInt32)) :=
    fun a => succeeds_ite (fun _ => succeeds_pure a) fun _ => succeeds_assemble _
  refine succeeds_ite (fun _ => succeeds_bind (succeeds_assemble _) hscaled) fun hf => ?_
  refine succeeds_ite (fun _ => succeeds_bind (succeeds_assemble _) fun _ =>
    succeeds_bind (succeeds_assemble _) hscaled) fun hh => ?_
  refine succeeds_ite (fun _ => succeeds_bind (succeeds_assemble _) hscaled) fun hi => ?_
  refine succeeds_ite (fun _ => succeeds_assemble _) fun hb => ?_
  rw [ValueType.isValue, ValueType.isNumeric, ValueType.isFloating] at h
  simp [hf, hh, hi, hb] at h

theorem follows_typeOf (t : ValueType) : Follows K K (typeOf t) (typeOf t) := by
  have hscaled : ∀ a b : UInt32, Follows K K
      (if t.size = 1 then pure a else assemble (Assemble.typeVector a t.size.toUInt32))
      (if t.size = 1 then pure b else assemble (Assemble.typeVector b t.size.toUInt32)) :=
    fun a b => follows_ite (follows_pure a b) (follows_assemble _ _)
  refine follows_ite (follows_bind (follows_assemble _ _) hscaled) ?_
  refine follows_ite (follows_bind (follows_assemble _ _) fun _ _ =>
    follows_bind (follows_assemble _ _) hscaled) ?_
  refine follows_ite (follows_bind (follows_assemble _ _) hscaled) ?_
  exact follows_ite (follows_assemble _ _) (follows_throw _)

theorem succeeds_unsignedType (size : Nat) : Succeeds K K (unsignedType size) :=
  succeeds_bind (succeeds_assemble _) fun _ =>
    succeeds_ite (fun _ => succeeds_pure _) fun _ => succeeds_assemble _

theorem follows_unsignedType (size : Nat) : Follows K K (unsignedType size) (unsignedType size) :=
  (succeeds_unsignedType size).follows (succeeds_unsignedType size)

/-- Whether there are constants of a type does not hang on what they are. -/
theorem follows_scalarConstant (t : ValueType) (v w : Float) :
    Follows K K (scalarConstant t v) (scalarConstant t w) := by
  refine follows_bind (follows_typeOf t) fun _ _ => follows_ite (follows_assemble _ _) ?_
  refine follows_ite (follows_assemble _ _) (follows_ite (follows_assemble _ _) ?_)
  exact follows_ite (follows_assemble _ _) (follows_throw _)

theorem follows_constant (t : ValueType) (vs ws : List Float) :
    Follows K K (constant t vs) (constant t ws) :=
  follows_ite (follows_scalarConstant t _ _) (follows_bind (follows_mapM fun _ _ =>
    follows_scalarConstant _ _ _) fun _ _ => follows_bind (follows_typeOf t) fun _ _ =>
      follows_assemble _ _)

/-- The scalar types of values. -/
theorem scalar_cases (h : t.isValue = true) :
    t.scalar ∈ [ValueType.float, .half, .int, .bool] ∧ (t.size = 1 → t.scalar = t) := by
  have hall : ∀ t ∈ ValueType.values,
      t.scalar ∈ [ValueType.float, .half, .int, .bool] ∧ (t.size = 1 → t.scalar = t) := by decide
  exact hall t (ValueType.mem_values h)

theorem succeeds_scalarConstant (h : t ∈ [ValueType.float, .half, .int, .bool]) (v : Float) :
    Succeeds K K (scalarConstant t v) := by
  have hvalue : ∀ t ∈ [ValueType.float, .half, .int, .bool], t.isValue = true := by decide
  refine succeeds_bind (succeeds_typeOf (hvalue t h)) fun _ => ?_
  refine succeeds_ite (fun _ => succeeds_assemble _) fun hf => ?_
  refine succeeds_ite (fun _ => succeeds_assemble _) fun hh => ?_
  refine succeeds_ite (fun _ => succeeds_assemble _) fun hi => ?_
  refine succeeds_ite (fun _ => succeeds_assemble _) fun hb => ?_
  simp [hf, hh, hi, hb] at h

theorem succeeds_constant (h : t.isValue = true) (vs : List Float) : Succeeds K K (constant t vs) := by
  obtain ⟨hscalar, hone⟩ := scalar_cases h
  refine succeeds_ite (fun h1 => succeeds_scalarConstant (hone h1 ▸ hscalar) _) fun _ => ?_
  exact succeeds_bind (succeeds_mapM fun _ _ => succeeds_scalarConstant hscalar _) fun _ =>
    succeeds_bind (succeeds_typeOf h) fun _ => succeeds_assemble _

theorem follows_loadGlobal (m : GlobalMember) : Follows K K (loadGlobal m) (loadGlobal m) :=
  follows_get_bind fun _ _ _ => follows_assemble _ _

/-- Twins are of one model. -/
theorem follows_isFragment_bind {f g : Bool → Drafting α} (h : ∀ b, Follows K K' (f b) (g b)) :
    Follows K K' (isFragment >>= f) (isFragment >>= g) := by
  intro d d' a e ht hd
  obtain ⟨b, e', hg, ht'⟩ := h _ ht (isFragment_bind.1 hd)
  exact ⟨b, e', isFragment_bind.2 (ht.model ▸ hg), ht'⟩

/-! ### Values of ports -/

/-- A port is given an identifier unless it has one. -/
theorem succeeds_resultId {out : PortId} (hK : ∀ o, K' o → K o ∧ o ≠ out) :
    Succeeds K K' (resultId out) := by
  intro d hd
  rw [resultId]
  simp only [draws_get_bind]
  cases d.values.lookup out with
  | some id => exact ⟨id, d, draws_pure.2 ⟨rfl, rfl⟩, rfl, fun o ho => hd o (hK o ho).1⟩
  | none =>
    refine ⟨_, _, draws_bind.2 ⟨_, _, draws_assemble.2 ⟨rfl, rfl⟩, draws_bind.2 ⟨⟨⟩, _,
      draws_modify.2 rfl, draws_pure.2 ⟨rfl, rfl⟩⟩⟩, rfl, fun o ho => ?_⟩
    rw [List.lookup_cons, beq_eq_false_iff_ne.2 (hK o ho).2]
    exact hd o (hK o ho).1

theorem follows_resultId {out : PortId} (hK : ∀ o, K' o → K o ∧ o ≠ out) :
    Follows K K' (resultId out) (resultId out) := (succeeds_resultId hK).follows (succeeds_resultId hK)

/-- A port without a value takes any. -/
theorem succeeds_bindTo {n : Node} {out : PortId} (hout : K out) (hK : ∀ o, K' o → K o ∧ o ≠ out)
    (id : UInt32) : Succeeds K K' (Drafting.bind n out id) := by
  intro d hd
  refine ⟨(), { d with values := (out, id) :: d.values }, ?_, rfl, fun o ho => ?_⟩
  · rw [Drafting.bind, draws_get_bind]
    simp only [hd out hout]
    exact draws_modify.2 rfl
  · rw [List.lookup_cons, beq_eq_false_iff_ne.2 (hK o ho).2]
    exact hd o (hK o ho).1

theorem follows_bindTo {n : Node} {out : PortId} (hout : K out) (hK : ∀ o, K' o → K o ∧ o ≠ out)
    (id id' : UInt32) : Follows K K' (Drafting.bind n out id) (Drafting.bind n out id') :=
  (succeeds_bindTo hout hK id).follows (succeeds_bindTo hout hK id')

variable {p : StagePlan} {i : Nat} {n : Node} {q out : PortId}

/-- What flows into a port comes from none of some ports. -/
def Clear (p : StagePlan) (K : PortId → Prop) (q : PortId) : Prop :=
  ∀ out, p.graph.producer? q = some out → ¬ K out

theorem succeeds_operand (hq : Clear p K q) (h : (p.typeOf q).isValue = true) :
    Succeeds K K (operand p q) := by
  unfold operand
  cases hout : p.graph.producer? q with
  | none => exact succeeds_bind (succeeds_typeOf h) fun _ => succeeds_assemble _
  | some out => exact succeeds_resultId fun o ho => ⟨ho, fun heq => hq out hout (heq ▸ ho)⟩

theorem follows_operand (hq : Clear p K q) : Follows K K (operand p q) (operand p q) := by
  unfold operand
  cases h : p.graph.producer? q with
  | none => exact follows_bind (follows_typeOf _) fun _ _ => follows_assemble _ _
  | some out => exact follows_resultId fun o ho => ⟨ho, fun heq => hq out h (heq ▸ ho)⟩

theorem succeeds_credit (i : Nat) (id : UInt32) : Succeeds K K (credit i id) :=
  succeeds_note (fun _ => rfl) fun _ => rfl

theorem follows_credit (i : Nat) (id id' : UInt32) : Follows K K (credit i id) (credit i id') :=
  (succeeds_credit i id).follows (succeeds_credit i id')

theorem succeeds_emit (i : Nat) (op : Opcode) (type : UInt32) (args : List UInt32) :
    Succeeds K K (emit i op type args) :=
  succeeds_bind (succeeds_assemble _) fun _ => succeeds_bind (succeeds_credit i _) fun _ => succeeds_pure _

theorem follows_emit (i : Nat) (op op' : Opcode) (type type' : UInt32) (args args' : List UInt32) :
    Follows K K (emit i op type args) (emit i op' type' args') :=
  (succeeds_emit i op type args).follows (succeeds_emit i op' type' args')

theorem succeeds_define (hK : ∀ o, K' o → K o ∧ o ≠ out) (i : Nat) (op : Opcode) (type : UInt32)
    (args : List UInt32) : Succeeds K K' (define i out op type args) :=
  succeeds_bind (succeeds_resultId hK) fun _ => succeeds_bind (succeeds_assemble _) fun _ =>
    succeeds_credit i _

theorem follows_define (hK : ∀ o, K' o → K o ∧ o ≠ out) (i : Nat) (op op' : Opcode)
    (type type' : UInt32) (args args' : List UInt32) :
    Follows K K' (define i out op type args) (define i out op' type' args') :=
  (succeeds_define hK i op type args).follows (succeeds_define hK i op' type' args')

/-- A named input is looked up in the graph. -/
theorem follows_inputNamed_bind {name : String} {f g : PortId → Drafting α}
    (h : ∀ q, p.graph.inputNamed n name = .ok q → Follows K K' (f q) (g q)) :
    Follows K K' (inputNamed p n name >>= f) (inputNamed p n name >>= g) := by
  unfold inputNamed
  cases hq : p.graph.inputNamed n name with
  | error fault => exact fun _ _ _ _ _ hd => absurd (draws_bind.1 hd).choose_spec.choose_spec.1 not_draws_throw
  | ok q => exact h q hq

theorem clear_of_inputNamed {name : String} (hclear : ∀ q ∈ n.inputs, Clear p K q)
    (hq : p.graph.inputNamed n name = .ok q) : Clear p K q := by
  rcases findPort_mem hq with hmem | rfl
  · exact hclear q hmem
  · intro out hout
    cases hout

/-! ### Nodes -/

variable (p i n)

theorem follows_arithmetic (id id' : UInt32) (f : Math.Operation) (t : ValueType)
    (args args' : List UInt32) :
    Follows K K (arithmetic i n id f t args) (arithmetic i n id' f t args') := by
  refine follows_bind (follows_typeOf t) fun _ _ => ?_
  split
  · exact follows_bind (follows_assemble _ _) fun _ _ => follows_credit i _ _
  · exact follows_get_bind fun _ _ _ => follows_bind (follows_assemble _ _) fun _ _ =>
      follows_credit i _ _
  · exact follows_bind (follows_unsupported n _) fun _ _ => follows_credit i _ _

theorem follows_lower (hclear : ∀ q ∈ n.inputs, Clear p K q) (t : ValueType) (e : Math.Expr) :
    Follows K K (lower p i n t e) (lower p i n t e) := by
  have hresult : ∀ f args args', Follows K K (do
        let id ← assemble Assemble.allocId
        arithmetic i n id f t args
        return id) (do
        let id ← assemble Assemble.allocId
        arithmetic i n id f t args'
        return id) := fun f args args' =>
    follows_bind (follows_assemble _ _) fun _ _ =>
      follows_bind (follows_arithmetic i n _ _ f t args args') fun _ _ => follows_pure _ _
  induction e with
  | number v => exact follows_constant t _ _
  | input name => exact follows_inputNamed_bind fun q hq => follows_operand (clear_of_inputNamed hclear hq)
  | unary f x ihx => exact follows_bind ihx fun _ _ => hresult _ _ _
  | binary f x y ihx ihy => exact follows_bind ihx fun _ _ => follows_bind ihy fun _ _ => hresult _ _ _
  | mix x y s ihx ihy ihs =>
    exact follows_bind ihx fun _ _ => follows_bind ihy fun _ _ => follows_bind ihs fun _ _ =>
      hresult _ _ _

section Output

variable (hclear : ∀ q ∈ n.inputs, Clear p (· = out) q)
include hclear

theorem follows_writeExpression :
    Follows (· = out) nowhere (writeExpression p i n out) (writeExpression p i n out) := by
  unfold writeExpression
  split
  · split
    · exact follows_throw _
    · dsimp only
      split
      · exact follows_bind (follows_lower p i n hclear _ _) fun _ _ => follows_bindTo (K := (· = out)) rfl nowhere_imp _ _
      · refine follows_bind (follows_resultId nowhere_imp) fun _ _ => ?_
        refine follows_bind (follows_mapM fun e _ => follows_lower p i n ?_ _ e) fun _ _ =>
          follows_arithmetic i n _ _ _ _ _ _
        exact fun _ _ _ _ h => h.elim
  · exact follows_throw _

theorem follows_writeCompare {a b : PortId} (ha : a ∈ n.inputs) (hb : b ∈ n.inputs) :
    Follows (· = out) nowhere (writeCompare p i n a b out) (writeCompare p i n a b out) := by
  unfold writeCompare
  split
  · split
    · exact follows_unsupported n _
    · exact follows_bind (follows_assemble _ _) fun _ _ => follows_bind (follows_operand (hclear a ha))
        fun _ _ => follows_bind (follows_operand (hclear b hb)) fun _ _ => follows_define nowhere_imp i _ _ _ _ _ _
  · exact follows_throw _

theorem follows_writeSwizzle {q : PortId} (hq : q ∈ n.inputs) :
    Follows (· = out) nowhere (writeSwizzle p i n q out) (writeSwizzle p i n q out) := by
  unfold writeSwizzle
  split
  · refine follows_bind (follows_operand (hclear q hq)) fun _ _ =>
      follows_bind (follows_typeOf _) fun _ _ => ?_
    split
    · exact follows_bindTo (K := (· = out)) rfl nowhere_imp _ _
    · exact follows_define nowhere_imp i _ _ _ _ _ _
    · exact follows_define nowhere_imp i _ _ _ _ _ _
    · exact follows_define nowhere_imp i _ _ _ _ _ _
  · exact follows_throw _

end Output

/-- The components of a vector, one output port after another. -/
theorem follows_separateOutput (q : PortId) (x y : UInt32) {outs : List PortId} (hnodup : outs.Nodup)
    (k : Nat) : Follows (· ∈ outs) nowhere ((outs.zipIdx k).forM (separateOutput p i n q x))
      ((outs.zipIdx k).forM (separateOutput p i n q y)) := by
  induction outs generalizing k with
  | nil => exact (follows_pure () ()).mono nowhere_imp
  | cons out outs ih =>
    obtain ⟨hout, hnodup⟩ := List.nodup_cons.1 hnodup
    have hrest : ∀ o, o ∈ outs → o ∈ out :: outs ∧ o ≠ out := fun o ho =>
      ⟨List.mem_cons_of_mem _ ho, fun h => hout (h ▸ ho)⟩
    have hfirst : Follows (· ∈ out :: outs) (· ∈ outs) (separateOutput p i n q x (out, k))
        (separateOutput p i n q y (out, k)) := by
      refine follows_demand_bind fun port _ => follows_ite ?_
        ((follows_pure _ _).mono fun o ho => (hrest o ho).1)
      exact follows_ite (follows_bindTo List.mem_cons_self hrest _ _)
        (follows_bind (follows_typeOf _) fun _ _ => follows_define hrest i _ _ _ _ _ _)
    rw [List.zipIdx_cons, List.forM_eq_forM, List.forM_cons, List.forM_cons]
    exact follows_bind hfirst fun _ _ => ih hnodup (k + 1)

theorem follows_writeSeparate {q : PortId} (hq : Clear p (· ∈ n.outputs) q) (hnodup : n.outputs.Nodup) :
    Follows (· ∈ n.outputs) nowhere (writeSeparate p i n q) (writeSeparate p i n q) :=
  follows_bind (follows_operand hq) fun _ _ => follows_separateOutput p i n q _ _ hnodup 0

theorem follows_toFloat4 (x y : UInt32) (t : ValueType) :
    Follows K K (toFloat4 i x t) (toFloat4 i y t) := by
  refine follows_bind (follows_typeOf _) fun _ _ => ?_
  have hone : Follows K K one one := follows_constant _ _ _
  have hzero : Follows K K zero zero := follows_constant _ _ _
  split
  · exact follows_bind hone fun _ _ => follows_emit i _ _ _ _ _ _
  · exact follows_bind hzero fun _ _ => follows_bind hone fun _ _ => follows_emit i _ _ _ _ _ _
  · exact follows_bind hone fun _ _ => follows_emit i _ _ _ _ _ _
  · exact follows_pure _ _

theorem follows_texelCoordinate (dim : Int) :
    Follows K K (texelCoordinate i dim) (texelCoordinate i dim) := by
  refine follows_bind (follows_typeOf _) fun _ _ => follows_get_bind fun _ _ _ => ?_
  refine follows_bind (follows_unsignedType 3) fun _ _ =>
    follows_bind (follows_emit i _ _ _ _ _ _) fun _ _ => ?_
  refine follows_bind (follows_emit i _ _ _ _ _ _) fun _ _ =>
    follows_bind (follows_constant _ _ _) fun _ _ => ?_
  refine follows_bind (follows_emit i _ _ _ _ _ _) fun _ _ =>
    follows_bind (follows_loadGlobal _) fun _ _ => ?_
  refine follows_bind (follows_credit i _ _) fun _ _ =>
    follows_bind (follows_emit i _ _ _ _ _ _) fun _ _ => ?_
  exact follows_ite (follows_pure _ _) (follows_bind (follows_typeOf _) fun _ _ =>
    follows_emit i _ _ _ _ _ _)

theorem follows_loadInput (input : StageInput) :
    Follows K K (loadInput i input) (loadInput i input) :=
  follows_get_bind fun _ _ _ => follows_bind (follows_typeOf _) fun _ _ => follows_emit i _ _ _ _ _ _

theorem follows_defineInput (out : PortId) (input : StageInput) :
    Follows (· = out) nowhere (defineInput i out input) (defineInput i out input) :=
  follows_bind (follows_typeOf _) fun _ _ => follows_get_bind fun _ _ _ =>
    follows_define nowhere_imp i _ _ _ _ _ _

theorem follows_sampleAt (out : PortId) (field : FieldVariables) (fragment : Bool) (x y : UInt32) :
    Follows (· = out) nowhere (sampleAt i out field fragment x) (sampleAt i out field fragment y) := by
  unfold sampleAt
  refine follows_bind (follows_emit i _ _ _ _ _ _) fun _ _ =>
    follows_bind (follows_assemble _ _) fun _ _ => ?_
  refine follows_bind (follows_emit i _ _ _ _ _ _) fun _ _ =>
    follows_bind (follows_assemble _ _) fun _ _ => ?_
  refine follows_bind (follows_emit i _ _ _ _ _ _) fun _ _ =>
    follows_bind (follows_typeOf _) fun _ _ => ?_
  exact follows_ite (follows_define nowhere_imp i _ _ _ _ _ _) (follows_bind (follows_constant _ _ _)
    fun _ _ => follows_define nowhere_imp i _ _ _ _ _ _)

theorem follows_writeSample (f : PortId) {q out : PortId} (hq : Clear p (· = out) q) :
    Follows (· = out) nowhere (writeSample p i n f q out) (writeSample p i n f q out) := by
  unfold writeSample
  refine follows_get_bind fun d d' ht => ?_
  rw [ht.fields]
  split
  · exact follows_unsupported n _
  · rename_i v _
    refine follows_demand_bind fun port _ => follows_isFragment_bind fun fragment => ?_
    have hrest : ∀ x y, Follows (· = out) nowhere (sampleAt i out v fragment x)
        (sampleAt i out v fragment y) := follows_sampleAt i out v fragment
    refine follows_ite (follows_bind (follows_operand hq) hrest) ?_
    refine follows_ite (follows_bind (follows_texelCoordinate i _) hrest) ?_
    exact follows_ite (follows_bind (follows_loadInput i _) hrest)
      (follows_bind (follows_loadInput i _) hrest)

theorem follows_writeField {q : PortId} (hq : Clear p K q) :
    Follows K K (writeField p i q) (writeField p i q) := by
  unfold writeField
  refine follows_bind (follows_operand hq) fun _ _ =>
    follows_bind (follows_toFloat4 i _ _ _) fun texel texel' => ?_
  refine follows_get_bind fun d d' ht => ?_
  rw [ht.storage]
  refine follows_demand_bind fun storage _ => follows_bind (follows_emit i _ _ _ _ _ _) fun image image' => ?_
  refine follows_get_bind fun _ _ _ => follows_bind (follows_unsignedType 3) fun _ _ => ?_
  refine follows_bind (follows_emit i _ _ _ _ _ _) fun gid gid' => ?_
  exact follows_ite (follows_bind (follows_unsignedType 2) fun _ _ => follows_bind
    (follows_emit i _ _ _ _ _ _) fun _ _ => follows_assemble _ _)
      (follows_bind (follows_pure gid gid') fun _ _ => follows_assemble _ _)

theorem follows_store (name : String) (x y : UInt32) : Follows K K (store name x) (store name y) :=
  follows_get_bind fun _ _ _ => follows_assemble _ _

theorem follows_writeMaterial (hclear : ∀ q ∈ n.inputs, Clear p K q) : Follows K K (do
      let color ← inputNamed p n "base_color"
      store "base_color" (← toFloat4 i (← operand p color) (p.typeOf color))
      store "roughness" (← operand p (← inputNamed p n "roughness"))
      store "emission" (← operand p (← inputNamed p n "emission"))) (do
      let color ← inputNamed p n "base_color"
      store "base_color" (← toFloat4 i (← operand p color) (p.typeOf color))
      store "roughness" (← operand p (← inputNamed p n "roughness"))
      store "emission" (← operand p (← inputNamed p n "emission"))) := by
  refine follows_inputNamed_bind fun color hcolor => ?_
  refine follows_bind (follows_operand (clear_of_inputNamed hclear hcolor)) fun _ _ => ?_
  refine follows_bind (follows_toFloat4 i _ _ _) fun _ _ => follows_bind (follows_store _ _ _) fun _ _ => ?_
  refine follows_inputNamed_bind fun roughness hroughness => ?_
  refine follows_bind (follows_operand (clear_of_inputNamed hclear hroughness)) fun _ _ => ?_
  refine follows_bind (follows_store _ _ _) fun _ _ => ?_
  refine follows_inputNamed_bind fun emission hemission => ?_
  exact follows_bind (follows_operand (clear_of_inputNamed hclear hemission)) fun _ _ => follows_store _ _ _

end Drafting

end NodeShader
