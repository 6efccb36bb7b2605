import NodeShader.Proofs.Stage.Folding

/-!
# What a draft knows

While code is written the draft keeps the components of the output ports that are known: those of
constant nodes, and those of arithmetic that was folded.

* `Drafting.Heedless`: most steps pay no heed to what is known and learn nothing; only constant nodes and
  arithmetic do (`heedless_writeNode`).
* `Draft.Recalls`: **what is known was learnt, and is emitted**: it is what a constant node holds or what
  the function of a node makes of the known components of its inputs, and the value of the port is the
  constant with these components.
* `writeNodes_recalls`: the code of lists of nodes, with the arms below them, keeps it so.
-/

namespace NodeShader

open Spirv

/-- **A draft that knows as much** as before, and has forgotten no values. -/
structure Draft.Untaught (d d' : Draft) : Prop where
  known : d'.known = d.known
  values : ∀ out x, d.values.lookup out = some x → d'.values.lookup out = some x

namespace Draft.Untaught

variable {d d₁ d₂ : Draft}

theorem refl (d : Draft) : d.Untaught d := ⟨rfl, fun _ _ h => h⟩

theorem trans (h₁ : d.Untaught d₁) (h₂ : d₁.Untaught d₂) : d.Untaught d₂ :=
  ⟨h₂.known.trans h₁.known, fun out x h => h₂.values out x (h₁.values out x h)⟩

/-- A new value for a port that had none. -/
theorem note {out : PortId} (x : UInt32) (h : d.values.lookup out = none) :
    d.Untaught { d with values := (out, x) :: d.values } := by
  refine ⟨rfl, fun out' y hy => ?_⟩
  have hne : (out' == out) = false := beq_eq_false_iff_ne.2 fun heq => by
    rw [heq, h] at hy
    cases hy
  show ((out, x) :: d.values).lookup out' = some y
  rw [List.lookup_cons, hne]
  exact hy

end Draft.Untaught

namespace Drafting

variable {α β : Type}

/-! ### Steps that learn nothing -/

/-- **A heedless step** learns nothing of the components of ports. -/
def Heedless (x : Drafting α) : Prop := ∀ ⦃d a d'⦄, Draws x d a d' → d.Untaught d'

theorem heedless_pure (a : α) : Heedless (pure a) := fun d _ _ h => (draws_pure.1 h).2 ▸ .refl d

theorem heedless_bind {x : Drafting α} {f : α → Drafting β} (hx : Heedless x)
    (hf : ∀ a, Heedless (f a)) : Heedless (x >>= f) := by
  intro d b d' h
  obtain ⟨a, d₁, h₁, h⟩ := draws_bind.1 h
  exact (hx h₁).trans (hf a h)

theorem heedless_get_bind {f : Draft → Drafting α} (hf : ∀ d, Heedless (f d)) :
    Heedless (get >>= f) := fun d _ _ h => hf d (draws_get_bind.1 h)

/-- The module may do anything. -/
theorem heedless_assemble (x : Assemble α) : Heedless (assemble x) := fun _ _ _ h =>
  (draws_assemble.1 h).2 ▸ ⟨rfl, fun _ _ h => h⟩

/-- A note of something else. -/
theorem heedless_note {f : Draft → Draft} (hk : ∀ d, (f d).known = d.known)
    (hv : ∀ d, (f d).values = d.values) : Heedless (modify f) :=
  fun d _ _ h => draws_modify.1 h ▸ ⟨hk d, fun _ _ h => hv d ▸ h⟩

theorem heedless_throw (e : Failure) : Heedless (throw e : Drafting α) :=
  fun _ _ _ h => absurd h not_draws_throw

theorem heedless_demand (o : Option α) : Heedless (demand o) :=
  fun d _ _ h => (draws_demand.1 h).2 ▸ .refl d

theorem heedless_ite {P : Prop} [Decidable P] {x y : Drafting α} (hx : Heedless x) (hy : Heedless y) :
    Heedless (if P then x else y) := by
  split
  · exact hx
  · exact hy

theorem heedless_forM {f : α → Drafting Unit} (hf : ∀ a, Heedless (f a)) (l : List α) :
    Heedless (l.forM f) := by
  induction l with
  | nil => exact heedless_pure ()
  | cons a l ih => exact heedless_bind (hf a) fun _ => ih

theorem heedless_mapM {f : α → Drafting β} (hf : ∀ a, Heedless (f a)) (l : List α) :
    Heedless (l.mapM f) := by
  induction l with
  | nil => exact heedless_pure []
  | cons a l ih =>
    rw [List.mapM_cons]
    exact heedless_bind (hf a) fun _ => heedless_bind ih fun _ => heedless_pure _

/-! ### Types, constants and values -/

theorem heedless_typeOf (t : ValueType) : Heedless (typeOf t) := by
  have hscaled : ∀ x : UInt32, Heedless (if t.size = 1 then pure x
      else assemble (Assemble.typeVector x t.size.toUInt32)) :=
    fun x => heedless_ite (heedless_pure x) (heedless_assemble _)
  refine heedless_ite (heedless_bind (heedless_assemble _) hscaled) (heedless_ite ?_ (heedless_ite ?_ ?_))
  · exact heedless_bind (heedless_assemble _) fun _ => heedless_bind (heedless_assemble _) hscaled
  · exact heedless_bind (heedless_assemble _) hscaled
  · exact heedless_ite (heedless_assemble _) (heedless_throw _)

theorem heedless_unsignedType (size : Nat) : Heedless (unsignedType size) :=
  heedless_bind (heedless_assemble _) fun _ => heedless_ite (heedless_pure _) (heedless_assemble _)

theorem heedless_scalarConstant (t : ValueType) (x : Float) : Heedless (scalarConstant t x) := by
  refine heedless_bind (heedless_typeOf t) fun _ => ?_
  refine heedless_ite (heedless_assemble _) (heedless_ite (heedless_assemble _) ?_)
  exact heedless_ite (heedless_assemble _) (heedless_ite (heedless_assemble _) (heedless_throw _))

theorem heedless_constant (t : ValueType) (values : List Float) : Heedless (constant t values) := by
  refine heedless_ite (heedless_scalarConstant t _) (heedless_bind (heedless_mapM (fun _ => ?_) _) fun _ => ?_)
  · exact heedless_scalarConstant _ _
  · exact heedless_bind (heedless_typeOf t) fun _ => heedless_assemble _

theorem heedless_loadGlobal (m : GlobalMember) : Heedless (loadGlobal m) :=
  heedless_get_bind fun _ => heedless_assemble _

theorem heedless_isFragment_bind {f : Bool → Drafting α} (hf : ∀ b, Heedless (f b)) :
    Heedless (isFragment >>= f) := heedless_get_bind fun _ => hf _

theorem heedless_resultId (out : PortId) : Heedless (resultId out) := by
  intro d y d' h
  rw [resultId, draws_get_bind] at h
  split at h
  · exact (draws_pure.1 h).2 ▸ .refl d
  · rename_i hnone
    obtain ⟨x, d₁, h₁, h⟩ := draws_bind.1 h
    have hvalues : d₁.values = d.values := by rw [(draws_assemble.1 h₁).2]
    obtain ⟨_, d₂, h₂, h⟩ := draws_bind.1 h
    obtain rfl := draws_modify.1 h₂
    obtain ⟨-, rfl⟩ := draws_pure.1 h
    exact (heedless_assemble _ h₁).trans (.note x (hvalues ▸ hnone))

theorem heedless_bindTo (n : Node) (out : PortId) (id : UInt32) : Heedless (Drafting.bind n out id) := by
  intro d u d' h
  rw [Drafting.bind, draws_get_bind] at h
  split at h
  · exact heedless_ite (heedless_throw _) (heedless_pure _) h
  · rename_i hnone
    obtain rfl := draws_modify.1 h
    exact .note id hnone

variable (p : StagePlan) (i : Nat) (n : Node)

theorem heedless_operand (q : PortId) : Heedless (operand p q) := by
  rw [operand]
  split
  · exact heedless_resultId _
  · exact heedless_bind (heedless_typeOf _) fun _ => heedless_assemble _

theorem heedless_credit (id : UInt32) : Heedless (credit i id) := heedless_note (fun _ => rfl) fun _ => rfl

theorem heedless_emit (op : Opcode) (type : UInt32) (args : List UInt32) :
    Heedless (emit i op type args) :=
  heedless_bind (heedless_assemble _) fun _ => heedless_bind (heedless_credit i _) fun _ => heedless_pure _

theorem heedless_define (out : PortId) (op : Opcode) (type : UInt32) (args : List UInt32) :
    Heedless (define i out op type args) :=
  heedless_bind (heedless_resultId out) fun _ => heedless_bind (heedless_assemble _) fun _ => heedless_credit i _

theorem heedless_inputNamed (name : String) : Heedless (inputNamed p n name) := by
  rw [inputNamed]
  split
  · exact heedless_pure _
  · exact heedless_throw _

/-! ### Nodes -/

theorem heedless_arithmetic (id : UInt32) (f : Math.Operation) (t : ValueType) (args : List UInt32) :
    Heedless (arithmetic i n id f t args) := by
  refine heedless_bind (heedless_typeOf t) fun _ => ?_
  split
  · exact heedless_bind (heedless_assemble _) fun _ => heedless_credit i id
  · exact heedless_get_bind fun _ => heedless_bind (heedless_assemble _) fun _ => heedless_credit i id
  · exact heedless_bind (heedless_throw _) fun _ => heedless_credit i id

theorem heedless_lower (t : ValueType) (e : Math.Expr) : Heedless (lower p i n t e) := by
  have hresult : ∀ f args, Heedless (do
      let id ← assemble Assemble.allocId
      arithmetic i n id f t args
      return id) := fun f args =>
    heedless_bind (heedless_assemble _) fun _ =>
      heedless_bind (heedless_arithmetic i n _ f t args) fun _ => heedless_pure _
  induction e with
  | number v => exact heedless_constant t _
  | input name => exact heedless_bind (heedless_inputNamed p n name) fun _ => heedless_operand p _
  | unary f x ihx => exact heedless_bind ihx fun _ => hresult _ _
  | binary f x y ihx ihy => exact heedless_bind ihx fun _ => heedless_bind ihy fun _ => hresult _ _
  | mix x y s ihx ihy ihs =>
    exact heedless_bind ihx fun _ => heedless_bind ihy fun _ => heedless_bind ihs fun _ => hresult _ _

theorem heedless_writeExpression (out : PortId) : Heedless (writeExpression p i n out) := by
  rw [writeExpression]
  split
  · split
    · exact heedless_throw _
    · dsimp only
      split
      · exact heedless_bind (heedless_lower p i n _ _) fun _ => heedless_bindTo n out _
      · exact heedless_bind (heedless_resultId out) fun _ =>
          heedless_bind (heedless_mapM (fun _ => heedless_lower p i n _ _) _) fun _ =>
            heedless_arithmetic i n _ _ _ _
  · exact heedless_throw _

theorem heedless_writeCompare (a b out : PortId) : Heedless (writeCompare p i n a b out) := by
  rw [writeCompare]
  split
  · split
    · exact heedless_throw _
    · exact heedless_bind (heedless_assemble _) fun _ => heedless_bind (heedless_operand p a) fun _ =>
        heedless_bind (heedless_operand p b) fun _ => heedless_define i out _ _ _
  · exact heedless_throw _

theorem heedless_openBlock (label : UInt32) : Heedless (openBlock label) :=
  heedless_bind (heedless_note (fun _ => rfl) fun _ => rfl) fun _ => heedless_assemble _

theorem heedless_writeSwizzle (input out : PortId) : Heedless (writeSwizzle p i n input out) := by
  rw [writeSwizzle]
  split
  · dsimp only
    refine heedless_bind (heedless_operand p input) fun _ => heedless_bind (heedless_typeOf _) fun _ => ?_
    split
    · exact heedless_bindTo n out _
    all_goals exact heedless_define i out _ _ _
  · exact heedless_throw _

theorem heedless_writeSeparate (input : PortId) : Heedless (writeSeparate p i n input) := by
  refine heedless_bind (heedless_operand p input) fun _ => heedless_forM (fun e => ?_) _
  refine heedless_bind (heedless_demand _) fun _ => heedless_ite ?_ (heedless_pure _)
  exact heedless_ite (heedless_bindTo n _ _) (heedless_bind (heedless_typeOf _) fun _ =>
    heedless_define i _ _ _ _)

theorem heedless_toFloat4 (value : UInt32) (t : ValueType) : Heedless (toFloat4 i value t) := by
  have hone : Heedless one := heedless_constant _ _
  have hzero : Heedless zero := heedless_constant _ _
  refine heedless_bind (heedless_typeOf _) fun _ => ?_
  split
  · exact heedless_bind hone fun _ => heedless_emit i _ _ _
  · exact heedless_bind hzero fun _ => heedless_bind hone fun _ => heedless_emit i _ _ _
  · exact heedless_bind hone fun _ => heedless_emit i _ _ _
  · exact heedless_pure _

theorem heedless_texelCoordinate (dim : Int) : Heedless (texelCoordinate i dim) := by
  refine heedless_bind (heedless_typeOf _) fun _ => heedless_get_bind fun _ => ?_
  refine heedless_bind (heedless_unsignedType 3) fun _ => heedless_bind (heedless_emit i _ _ _) fun _ => ?_
  refine heedless_bind (heedless_emit i _ _ _) fun _ => heedless_bind (heedless_constant _ _) fun _ => ?_
  refine heedless_bind (heedless_emit i _ _ _) fun _ => heedless_bind (heedless_loadGlobal _) fun _ => ?_
  refine heedless_bind (heedless_credit i _) fun _ => heedless_bind (heedless_emit i _ _ _) fun _ => ?_
  exact heedless_ite (heedless_pure _) (heedless_bind (heedless_typeOf _) fun _ => heedless_emit i _ _ _)

theorem heedless_loadInput (input : StageInput) : Heedless (loadInput i input) :=
  heedless_get_bind fun _ => heedless_bind (heedless_typeOf _) fun _ => heedless_emit i _ _ _

theorem heedless_defineInput (out : PortId) (input : StageInput) : Heedless (defineInput i out input) :=
  heedless_bind (heedless_typeOf _) fun _ => heedless_get_bind fun _ => heedless_define i out _ _ _

theorem heedless_sampleAt (out : PortId) (field : FieldVariables) (fragment : Bool) (x : UInt32) :
    Heedless (sampleAt i out field fragment x) := by
  rw [sampleAt]
  refine heedless_bind (heedless_emit i _ _ _) fun _ => heedless_bind (heedless_assemble _) fun _ => ?_
  refine heedless_bind (heedless_emit i _ _ _) fun _ => heedless_bind (heedless_assemble _) fun _ => ?_
  refine heedless_bind (heedless_emit i _ _ _) fun _ => heedless_bind (heedless_typeOf _) fun _ => ?_
  exact heedless_ite (heedless_define i out _ _ _) (heedless_bind (heedless_constant _ _) fun _ =>
    heedless_define i out _ _ _)

theorem heedless_writeSample (field position out : PortId) :
    Heedless (writeSample p i n field position out) := by
  rw [writeSample]
  refine heedless_get_bind fun d => ?_
  split
  · exact heedless_throw _
  · rename_i v _
    refine heedless_bind (heedless_demand _) fun port => heedless_isFragment_bind fun fragment => ?_
    have hrest : ∀ x, Heedless (sampleAt i out v fragment x) := heedless_sampleAt i out v fragment
    refine heedless_ite (heedless_bind (heedless_operand p position) hrest) ?_
    refine heedless_ite (heedless_bind (heedless_texelCoordinate i _) hrest) ?_
    exact heedless_ite (heedless_bind (heedless_loadInput i _) hrest)
      (heedless_bind (heedless_loadInput i _) hrest)

theorem heedless_writeField (value : PortId) : Heedless (writeField p i value) := by
  rw [writeField]
  refine heedless_bind (heedless_operand p value) fun _ => heedless_bind (heedless_toFloat4 i _ _) fun texel => ?_
  refine heedless_get_bind fun _ => heedless_bind (heedless_demand _) fun storage => ?_
  refine heedless_bind (heedless_emit i _ _ _) fun image => heedless_get_bind fun _ => ?_
  refine heedless_bind (heedless_unsignedType 3) fun _ => heedless_bind (heedless_emit i _ _ _) fun gid => ?_
  have hwrite : ∀ place, Heedless (assemble (Assemble.void .imageWrite [image, place, texel])) :=
    fun _ => heedless_assemble _
  exact heedless_ite (heedless_bind (heedless_unsignedType 2) fun _ =>
    heedless_bind (heedless_emit i _ _ _) hwrite) (heedless_bind (heedless_pure _) hwrite)

theorem heedless_store (name : String) (value : UInt32) : Heedless (store name value) :=
  heedless_get_bind fun _ => heedless_assemble _

/-- **Only constant nodes and arithmetic teach anything**, and the arms of conditionals. -/
theorem heedless_writeNode {arm : Nat → Drafting Unit} (hop : n.kind.operation? = none)
    (hc : n.kind ≠ .constant) (hk : n.kind ≠ .conditional) : Heedless (writeNode p arm i n) := by
  rw [writeNode]
  split
  · rename_i h _
    rw [hop] at h
    cases h
  · split
    · rename_i h _
      exact absurd h hc
    · exact heedless_pure _
    · exact heedless_bind (heedless_loadGlobal _) fun _ => heedless_bind (heedless_credit i _) fun _ =>
        heedless_bindTo n _ _
    · exact heedless_isFragment_bind fun _ => heedless_ite (heedless_defineInput i _ _)
        (heedless_bind (heedless_texelCoordinate i 3) fun _ => heedless_bindTo n _ _)
    · exact heedless_defineInput i _ _
    · exact heedless_defineInput i _ _
    · exact heedless_bind (heedless_typeOf _) fun _ => heedless_bind (heedless_operand p _) fun _ =>
        heedless_get_bind fun _ => heedless_define i _ _ _ _
    · exact heedless_bind (heedless_operand p _) fun _ => heedless_bind (heedless_operand p _) fun _ =>
        heedless_bind (heedless_typeOf _) fun _ => heedless_define i _ _ _ _
    · exact heedless_writeCompare p i n _ _ _
    · rename_i h _
      exact absurd h hk
    · exact heedless_writeSwizzle p i n _ _
    · exact heedless_bind (heedless_mapM (heedless_operand p) _) fun _ =>
        heedless_bind (heedless_typeOf _) fun _ => heedless_define i _ _ _ _
    · exact heedless_writeSeparate p i n _
    · exact heedless_writeExpression p i n _
    · exact heedless_writeSample p i n _ _ _
    · exact heedless_ite (heedless_writeField p i _) (heedless_pure _)
    · exact heedless_bind (heedless_operand p _) fun _ => heedless_bind (heedless_toFloat4 i _ _) fun _ =>
        heedless_store _ _
    · refine heedless_bind (heedless_inputNamed p n _) fun _ => heedless_bind (heedless_operand p _) fun _ => ?_
      refine heedless_bind (heedless_toFloat4 i _ _) fun _ => heedless_bind (heedless_store _ _) fun _ => ?_
      refine heedless_bind (heedless_inputNamed p n _) fun _ => heedless_bind (heedless_operand p _) fun _ => ?_
      refine heedless_bind (heedless_store _ _) fun _ => heedless_bind (heedless_inputNamed p n _) fun _ => ?_
      exact heedless_bind (heedless_operand p _) fun _ => heedless_store _ _
    · exact heedless_throw _
    · exact heedless_throw _
    · exact heedless_throw _

end Drafting

/-! ### What is known was learnt -/

section Recalling

variable {I : Interpretation} {p : StagePlan} {d d' : Draft} {i : Nat} {n : Node} {q out : PortId}
  {values : List Float}

namespace Draft

/-- The components of what flows into an input port are known: an open one has zeros. -/
def Knows (d : Draft) (p : StagePlan) (q : PortId) (values : List Float) : Prop :=
  match p.graph.producer? q with
  | none => values = List.replicate (p.typeOf q).size 0
  | some out => (out, values) ∈ d.known

/-- **How the components of an output port were learnt**: it is that of a constant node, or of a node
that was folded. -/
inductive Learnt (d : Draft) (p : StagePlan) (out : PortId) (values : List Float) : Prop
  | constant {i : Nat} {n : Node} {scalar : ValueType} : p.graph.nodes[i]? = some n →
      n.kind = .constant → n.params = .constant values scalar → n.outputs = [out] → Learnt d p out values
  | folded {i : Nat} {n : Node} {f : Math.Operation} {operands : List (List Float)} :
      p.graph.nodes[i]? = some n → n.kind.operation? = some f → n.outputs = [out] →
      List.Forall₂ (d.Knows p) n.inputs operands →
      foldComponents f (p.typeOf out) operands = some values → Learnt d p out values

/-- The value of an output port is a constant of the module. -/
def Constant (d : Draft) (p : StagePlan) (out : PortId) (v : I.Value) : Prop :=
  ∃ x, d.values.lookup out = some x ∧ GlobalAt I d.decls x (p.typeOf out).shape (.value v)

/-- **What is known was learnt, and is emitted.** -/
structure Recalls (I : Interpretation) (d : Draft) (p : StagePlan) : Prop where
  learnt : ∀ out values, (out, values) ∈ d.known → d.Learnt p out values
  emitted : ∀ out values, (out, values) ∈ d.known →
    d.Constant (I := I) p out (I.numbers (p.typeOf out) values)

theorem Knows.mono (hk : d.known ⊆ d'.known) (h : d.Knows p q values) : d'.Knows p q values := by
  rw [Knows] at h ⊢
  split at h
  · exact h
  · exact hk h

theorem Learnt.mono (hk : d.known ⊆ d'.known) (h : d.Learnt p out values) : d'.Learnt p out values := by
  cases h with
  | constant hn hkind hparams hout => exact .constant hn hkind hparams hout
  | folded hn hop hout hoperands hfold =>
    exact .folded hn hop hout (hoperands.imp fun _ _ h => h.mono hk) hfold

/-- Steps that learn nothing leave what is known as it is. -/
theorem Recalls.untaught (h : Recalls I d p) (hd : d.Untaught d') (hdecls : d.decls ⊆ d'.decls) :
    Recalls I d' p where
  learnt out values he :=
    (h.learnt out values (hd.known ▸ he)).mono (hd.known ▸ List.Subset.refl _)
  emitted out values he := by
    obtain ⟨x, hx, hglobal⟩ := h.emitted out values (hd.known ▸ he)
    exact ⟨x, hd.values out x hx, hglobal.mono hdecls⟩

/-- Noting what was learnt. -/
theorem Recalls.learn (h : Recalls I d p) (hl : d.Learnt p out values)
    (hc : d.Constant (I := I) p out (I.numbers (p.typeOf out) values)) :
    Recalls I { d with known := (out, values) :: d.known } p where
  learnt out' values' he := by
    rcases List.mem_cons.1 he with heq | he
    · cases heq
      exact hl.mono (List.subset_cons_self _ _)
    · exact (h.learnt out' values' he).mono (List.subset_cons_self _ _)
  emitted out' values' he := by
    rcases List.mem_cons.1 he with heq | he
    · cases heq
      exact hc
    · exact h.emitted out' values' he

end Draft

namespace Drafting

theorem Heedless.recalls {α : Type} {x : Drafting α} {a : α} (hx : Heedless x) (hs : Steady .all x)
    (hr : d.Recalls I p) (h : Draws x d a d') : d'.Recalls I p :=
  hr.untaught (hx h) (hs.keeps h).decls

variable [NameLimit] {Γ : Context I} {P : List UInt32} {t : ValueType} {f : Math.Operation} {u : Unit}
  {l : List Nat}

/-- An output port whose components are learnt. -/
theorem defineKnown_recalls (hs : d.Sound P) (hr : d.Recalls I p) (hnew : d.values.lookup out = none)
    (hl : d.Learnt p out values) (h : Draws (defineKnown n out (p.typeOf out) values) d u d') :
    d'.Recalls I p := by
  obtain ⟨x, e, hx⟩ := defineKnown_spec (I := I) (Γ := []) hs hnew h
  have hlookup : d'.values.lookup out = some x := by
    rw [e.values]
    exact List.lookup_cons_self
  obtain ⟨y, d₁, h₁, h⟩ := draws_bind.1 h
  obtain ⟨_, d₂, h₂, h⟩ := draws_bind.1 h
  obtain rfl := draws_modify.1 h
  have hd₂ : d.Untaught d₂ := (heedless_constant _ _ h₁).trans (heedless_bindTo n out y h₂)
  have hr₁ := (heedless_constant _ _).recalls (steady_constant _ _) hr h₁
  have hr₂ := (heedless_bindTo n out y).recalls (steady_bindTo n out y) hr₁ h₂
  exact hr₂.learn (hl.mono (hd₂.known ▸ List.Subset.refl _)) ⟨x, hlookup, hx⟩

omit [NameLimit] in
/-- What is found of several input ports is known of them. -/
theorem knownOperands_spec {qs : List PortId} {rs : List (Option (List Float))}
    (h : Draws (qs.mapM (knownOperand? p)) d rs d') :
    List.Forall₂ (fun q r => ∀ vs, r = some vs → d.Knows p q vs) qs rs := by
  induction qs generalizing rs d' with
  | nil =>
    rw [List.mapM_nil, draws_pure] at h
    rw [h.1]
    exact .nil
  | cons q qs ih =>
    rw [List.mapM_cons] at h
    obtain ⟨r, d₁, h₁, h⟩ := draws_bind.1 h
    obtain ⟨rs, d₂, h₂, h⟩ := draws_bind.1 h
    obtain ⟨rfl, -⟩ := draws_pure.1 h
    rw [knownOperand?_same h₁] at h₂
    refine .cons (fun vs hr => ?_) (ih h₂)
    rw [knownOperand?] at h₁
    rw [Draft.Knows]
    cases hq : p.graph.producer? q with
    | none =>
      rw [hq] at h₁
      exact Option.some.inj (hr.symm.trans (draws_pure.1 h₁).1)
    | some out =>
      rw [hq, draws_get_bind] at h₁
      exact lookup_mem ((draws_pure.1 h₁).1.symm.trans hr)

omit [NameLimit] in
/-- What is folded is made of what is known of the inputs. -/
theorem folded?_knows (h : Draws (folded? p n f t) d (some values) d') :
    ∃ operands, List.Forall₂ (d.Knows p) n.inputs operands ∧
      foldComponents f t operands = some values := by
  rw [folded?] at h
  split at h
  · cases (draws_pure.1 h).1
  · obtain ⟨rs, d₁, h₁, h⟩ := draws_bind.1 h
    have hrs := knownOperands_spec h₁
    split at h
    · rename_i operands hoperands
      obtain rfl : rs = operands.map some := List.forall₂_eq_eq_eq ▸ List.forall₂_map_right_iff.2
        (mapM_eq_some.1 hoperands)
      rw [List.forall₂_map_right_iff] at hrs
      exact ⟨operands, hrs.imp fun _ vs hq => hq vs rfl, (draws_pure.1 h).1.symm⟩
    · cases (draws_pure.1 h).1

/-- **Arithmetic** that is folded has its components from those of its inputs. -/
theorem writeArithmetic_recalls (hs : d.Sound P) (hr : d.Recalls I p) (hn : p.graph.nodes[i]? = some n)
    (hop : n.kind.operation? = some f) (hout : n.outputs = [out]) (hnew : d.values.lookup out = none)
    (h : Draws (writeArithmetic p i n f out) d u d') : d'.Recalls I p := by
  rw [writeArithmetic] at h
  obtain ⟨r, d₁, h₁, h⟩ := draws_bind.1 h
  have hd₁ := (folded?_spec h₁).1
  cases r with
  | some values =>
    obtain ⟨operands, hoperands, hfold⟩ := folded?_knows h₁
    rw [hd₁] at h
    exact defineKnown_recalls hs hr hnew (.folded hn hop hout hoperands hfold) h
  | none =>
    rw [hd₁] at h
    refine Heedless.recalls (heedless_bind (heedless_mapM (heedless_operand p) _) fun args => ?_)
      (steady_bind (steady_mapM fun q _ => steady_operand p q) fun args => ?_) hr h
    · exact heedless_bind (heedless_resultId out) fun _ => heedless_arithmetic i n _ f _ _
    · exact steady_bind (steady_resultId out) fun _ => steady_arithmetic i n _ f _ _

/-! ### Conditionals -/

/-- A step that writes a list of nodes keeps what is known. -/
def Remembers (I : Interpretation) (p : StagePlan) (step : Drafting Unit) (l : List Nat) : Prop :=
  ∀ (d d' : Draft) (Γ : Context I) (P : List UInt32) (u : Unit), d.Sound P → d.Awaits p Γ l →
    d.Recalls I p → Draws step d u d' → d'.Recalls I p

theorem writeArm_recalls {step : Drafting Unit} {label merge : UInt32} {xs : List UInt32}
    (hstep : Remembers I p step l) (hs : d.Sound (label :: P)) (haw : d.Awaits p Γ l)
    (hr : d.Recalls I p) (h : Draws (writeArm p step label merge q) d xs d') : d'.Recalls I p := by
  obtain ⟨_, d₁, h₁, h⟩ := draws_bind.1 h
  obtain ⟨g₁, hv₁, -, -, hs₁⟩ := openBlock_spec h₁
  have hr₁ := (heedless_openBlock label).recalls (steady_openBlock label) hr h₁
  obtain ⟨_, d₂, h₂, h⟩ := draws_bind.1 h
  have hr₂ := hstep d₁ d₂ Γ P _ (hs₁ P hs) (haw.still g₁ hv₁) hr₁ h₂
  refine Heedless.recalls (heedless_bind (heedless_operand p q) fun _ => heedless_get_bind fun _ => ?_)
    (steady_bind (steady_operand p q) fun _ => steady_bind steady_get fun _ => ?_) hr₂ h
  · exact heedless_bind (heedless_assemble _) fun _ => heedless_pure _
  · exact steady_bind (steady_assemble (Assemble.tame_code (by decide))) fun _ => steady_pure _

section Conditional

variable {arm : Nat → Drafting Unit} {c a b : PortId} (hp : p.Planned) (hl : p.Listing (i :: l))
  (hn : p.graph.nodes[i]? = some n) (hk : n.kind = .conditional) (hin : n.inputs = [c, a, b])
  (hc : (p.graph.port? c).map (·.arm) = some (-1)) (ha : (p.graph.port? a).map (·.arm) = some 0)
  (htc : p.typeOf c = .bool) (hta : p.typeOf a = p.typeOf out) (ht : (p.typeOf out).isNumeric = true)
  (harm : ∀ k : Nat, k < 2 → Handles I p (arm k) (p.members (some ⟨i, k⟩)) ∧
    Remembers I p (arm k) (p.members (some ⟨i, k⟩)))
  (hs : d.Sound P) (haw : d.Awaits p Γ (i :: l)) (hr : d.Recalls I p)
include hp hl hn hk hin hc ha htc hta ht harm hs haw hr

theorem writeChoice_recalls (hlive : p.labels.liveArm i = none)
    (h : Draws (writeChoice p arm i c a b out) d u d') : d'.Recalls I p := by
  have hvalue : (p.typeOf a).isValue = true := by
    rw [hta]
    exact ValueType.isValue_of_isNumeric ht
  obtain ⟨x, d₁, h₁, h⟩ := draws_bind.1 h
  obtain ⟨r, d₂, h₂, h⟩ := draws_bind.1 h
  have hr₁ := (heedless_operand p c).recalls (steady_operand p c) hr h₁
  have hr₂ := hr₁.untaught (heedless_assemble _ h₂) (openChoice_spec h₂).1.decls
  obtain ⟨hs₂, haw₂, -⟩ := awaits_openChoice hp hl hn hk hin hc htc hlive hs haw h₁ h₂
  -- the first arm waits, and once it is written the second does
  obtain ⟨xs, d₃, h₃, h⟩ := draws_bind.1 h
  have hr₃ := writeArm_recalls (harm 0 (by decide)).2 hs₂ (haw₂.arm hp hl 0) hr₂ h₃
  obtain ⟨hs₃, haw₃, -⟩ := awaits_writeArm hp hl hn hk hin ha hvalue hlive (harm 0 (by decide)).1 hs₂
    haw₂ h₃
  obtain ⟨ys, d₄, h₄, h⟩ := draws_bind.1 h
  have hr₄ := writeArm_recalls (harm 1 (by decide)).2 hs₃ haw₃ hr₃ h₄
  refine Heedless.recalls (heedless_bind (heedless_openBlock _) fun _ => heedless_bind (heedless_typeOf _)
    fun _ => heedless_define i out _ _ _) (steady_bind (steady_openBlock _) fun _ => ?_) hr₄ h
  exact steady_bind (steady_typeOf _) fun _ => steady_define i out (by decide) _ _

theorem writeConditional_recalls (hb : (p.graph.port? b).map (·.arm) = some 1)
    (h : Draws (writeConditional p arm i n out) d u d') : d'.Recalls I p := by
  cases hlive : p.labels.liveArm i with
  | none =>
    rw [writeConditional_choice hin hc ha hb hlive] at h
    exact writeChoice_recalls hp hl hn hk hin hc ha htc hta ht harm hs haw hr hlive h
  | some live =>
    obtain ⟨hcases, -⟩ := hp.live_arm (I := I) d.fragment hn hin htc hlive
    rw [writeConditional_live hin hc ha hb hlive hcases rfl] at h
    exact Heedless.recalls (heedless_bind (heedless_operand p _) fun x => heedless_bindTo n out x)
      (steady_bind (steady_operand p _) fun x => steady_bindTo n out x) hr h

end Conditional

/-! ### Lists of nodes -/

/-- **The code of a node** keeps what is known. -/
theorem writeNode_recalls {arm : Nat → Drafting Unit} (hp : p.Planned) (hl : p.Listing (i :: l))
    (hn : p.graph.nodes[i]? = some n)
    (harm : n.kind = .conditional → ∀ k : Nat, k < 2 → Handles I p (arm k) (p.members (some ⟨i, k⟩)) ∧
      Remembers I p (arm k) (p.members (some ⟨i, k⟩)))
    (hs : d.Sound P) (haw : d.Awaits p Γ (i :: l)) (hr : d.Recalls I p)
    (h : Draws (writeNode p arm i n) d u d') : d'.Recalls I p := by
  have hnew : ∀ out ∈ n.outputs, d.values.lookup out = none := fun out ho =>
    haw.fresh i List.mem_cons_self out (.self hn ho)
  -- no other kind of node learns anything
  have hquiet : n.kind.operation? = none → n.kind ≠ .constant → n.kind ≠ .conditional →
      d'.Recalls I p := fun hop hc hk => (heedless_writeNode p i n hop hc hk).recalls
    (steady_writeNode p i n trivial (fun _ => trivial) fun h => absurd h hk) hr h
  cases hp.typed.fits hp.consistent hn with
  | arithmetic hop hout =>
    simp only [writeNode, hop, hout] at h
    exact writeArithmetic_recalls hs hr hn hop hout (hnew _ (by rw [hout]; exact List.mem_singleton_self _)) h
  | constant hk hparams hout ht =>
    simp only [writeNode, hk, NodeKind.operation?, hout, hparams] at h
    rw [← ht] at h
    exact defineKnown_recalls hs hr (hnew _ (by rw [hout]; exact List.mem_singleton_self _))
      (.constant hn hk hparams hout) h
  | conditional hk hin hout hc ha hb htc hta htb ht =>
    simp only [writeNode, hk, NodeKind.operation?, hout] at h
    exact writeConditional_recalls hp hl hn hk hin hc ha htc hta ht (harm hk) hs haw hr hb h
  | _ hk => exact hquiet (by rw [hk]; rfl) (by rw [hk]; decide) (by rw [hk]; decide)

/-- **Lists of nodes** keep what is known, by induction on how deep arms nest and for each depth on the
list. -/
theorem writeNodes_recalls (hp : p.Planned) (hsized : p.Sized) {depth : Nat} (hl : p.Listing l) :
    Remembers I p (writeNodes p depth l) l := by
  induction depth generalizing l with
  | zero =>
    intro d d' Γ P u _ _ _ h
    cases h
  | succ depth ih =>
    have hhandles : ∀ l, p.Listing l → Handles I p (writeNodes p depth l) l := fun _ hl =>
      writeNodes_handles hp hsized hl
    show Remembers I p (l.forM (writeAt p depth)) l
    induction l with
    | nil =>
      intro d d' Γ P u _ _ hr h
      rwa [(draws_pure.1 h).2]
    | cons i l ihl =>
      intro d d' Γ P u hs haw hr h
      rw [List.forM_eq_forM, List.forM_cons] at h
      obtain ⟨_, d₁, h₁, h⟩ := draws_bind.1 h
      obtain ⟨_, _, _, _, _, -, w, -⟩ := writeAt_spec hp hsized hhandles hl hs haw h₁
      obtain ⟨n, hn, h₁⟩ := draws_writeAt.1 h₁
      have hr₁ : d₁.Recalls I p := by
        refine writeNode_recalls hp hl hn (fun hk k hlt => ?_) hs haw hr h₁
        rw [armNodes_conditional hp (hl.mem i List.mem_cons_self) hn hk hlt]
        exact ⟨hhandles _ (.members hp _), ih (.members hp _)⟩
      exact ihl hl.tail d₁ d' _ P u (w.emits.sound P hs) (haw.next hp hl w) hr₁ h

/-! ### Bodies -/

/-- Nothing is known once the function of a stage is open. -/
theorem opening_known {model : ExecutionModel} (hp : p.Planned) (hnames : p.graph.NamesFit)
    (h : Draws (opening p) (Draft.new model) u d) : d.known = [] := by
  obtain ⟨_, d₁, h₁, h⟩ := draws_bind.1 h
  obtain ⟨-, -, -, -, hd₁⟩ := begin_spec h₁
  obtain ⟨hs₁, hf₁, hcount₁, hc₁, -⟩ := begin_furnished (p := p) h₁
  obtain ⟨_, d₂, h₂, h⟩ := draws_bind.1 h
  obtain ⟨hd₂, -⟩ := declareNodes_spec hp hnames hs₁ hf₁ hcount₁ h₂
  have hmain : d₂.main = d₁.main := Draft.eq_of_view Draft.core Draft.main (fun _ => rfl) hd₂.core
  obtain ⟨-, -, hd, -⟩ :=
    beginMain_spec (P := []) (by rw [hmain]; exact hd₂.sound _ hs₁) (hd₂.code.trans hc₁) h
  have hknown : d₂.known = d₁.known := Draft.eq_of_view Draft.core Draft.known (fun _ => rfl) hd₂.core
  rw [hd]
  show d₂.known = []
  rw [hknown, hd₁]
  rfl

/-- Closing the function of a stage keeps what is known. -/
theorem closing_recalls {mode : UInt32} {params : List UInt32} (hr : d.Recalls I p)
    (h : Draws (closing mode params) d u d') : d'.Recalls I p := by
  have hquiet : Heedless (closing mode params) :=
    heedless_bind (heedless_get_bind fun _ => heedless_assemble _) fun _ =>
      heedless_get_bind fun _ => heedless_assemble _
  obtain ⟨e, g, -, -, rfl⟩ := closing_spec h
  refine hr.untaught (hquiet h) (List.Subset.trans g.decls ?_)
  exact ModuleBuilder.sectionOf_subset (e.declareEntry_sublist mode params) _

end Drafting

end Recalling

open Drafting in
/-- **In the body of a stage** what is known was learnt, and is emitted. -/
theorem StagePlan.draftBody_recalls [NameLimit] {p : StagePlan} {d : Draft} (I : Interpretation)
    (hp : p.Planned) (hnames : p.graph.NamesFit) (h : p.draftBody = .ok d) : d.Recalls I p := by
  obtain ⟨root, model, mode, params, u, hroot, he, hrun⟩ := root_of_draftBody h
  have hsized := sized_of_execution hroot he
  obtain ⟨o, d₁, ho, h₁, hclose⟩ := draws_stageBody.1 hrun
  obtain ⟨_, _, opened⟩ := opening_spec hp hnames ho
  have hknown := opening_known hp hnames ho
  have hr : o.Recalls I p := by
    refine ⟨fun out values he => ?_, fun out values he => ?_⟩
    · rw [hknown] at he
      cases he
    · rw [hknown] at he
      cases he
  rw [hp.shared] at h₁
  exact closing_recalls (writeNodes_recalls hp hsized (.members hp none) o d₁ [] [] () opened.sound
    (awaits_shared opened.furnished opened.values opened.serves) hr h₁) hclose

end NodeShader
