import NodeShader.Proofs.Stage.Values

/-!
# The code of arithmetic

An arithmetic function becomes one instruction, of the language or of the extended set.

* `operation_signature`: the instruction takes and gives values of the type it is selected for.
* `arithmetic_spec`: so it computes the function.
* `lower_spec`: an expression becomes code that computes it, by induction on the expression.
* `writeArithmetic_spec`, `writeExpression_spec`: the nodes that compute them.
-/

namespace NodeShader

open Spirv

/-- **The instruction of an arithmetic function** takes and gives values of one type. -/
theorem operation_signature {f : Math.Operation} {t : ValueType} (h : f.Admits t) :
    Signature (f.instruction t.isInt).1 (f.instruction t.isInt).2
      (List.replicate f.arity t.shape) t.shape := by
  have hfloat : f.integral? = none ∨ t.isInt = false → t.shape.isFloating = true := by
    intro hf
    refine ValueType.shape_isFloating ?_
    rcases h with h | ⟨hi, hs⟩
    · exact h
    · rcases hf with hf | hf
      · rw [hf] at hs
        cases hs
      · rw [hi] at hf
        cases hf
  cases hi : t.isInt with
  | false =>
    have ht := hfloat (.inr hi)
    cases f with
    | mix => exact .fMix ht
    | unary f => cases f <;> first | exact .fNegate ht | exact .function (by decide) ht
    | binary f => cases f <;> first | exact .floating (by decide) ht | exact .function2 (by decide) ht
  | true =>
    have hs := ValueType.shape_isSigned hi
    cases f with
    | mix => exact .fMix (hfloat (.inl rfl))
    | unary f =>
      cases f <;> first
        | exact .sNegate hs
        | exact .sAbs hs
        | exact .function (by decide) (hfloat (.inl rfl))
    | binary f =>
      cases f <;> first
        | exact .integral (by decide) hs
        | exact .integral2 (by decide) hs
        | exact .function2 (by decide) (hfloat (.inl rfl))

/-- What is selected for an arithmetic function is its instruction. -/
theorem select_instruction {f : Math.Operation} {t : ValueType} (h : f.Admits t) :
    (∃ op, f.select? t = some (.core op) ∧ f.instruction t.isInt = (op, []) ∧
      op.layout = .values 0 ∧ op ≠ .extInst) ∨
    ∃ k, f.select? t = some (.extended k) ∧ f.instruction t.isInt = (.extInst, [k]) := by
  rw [Math.Operation.select?]
  cases hi : t.isInt with
  | false =>
    rw [if_neg Bool.false_ne_true]
    cases f with
    | mix => exact .inr ⟨_, rfl, rfl⟩
    | unary f =>
      cases f <;> first
        | exact .inr ⟨_, rfl, rfl⟩
        | exact .inl ⟨_, rfl, rfl, by decide, by decide⟩
    | binary f =>
      cases f <;> first
        | exact .inr ⟨_, rfl, rfl⟩
        | exact .inl ⟨_, rfl, rfl, by decide, by decide⟩
  | true =>
    rw [if_pos rfl]
    have hsome := h.integral hi
    cases f with
    | mix => cases hsome
    | unary f =>
      cases f <;> first
        | cases hsome; done
        | exact .inr ⟨_, rfl, rfl⟩
        | exact .inl ⟨_, rfl, rfl, by decide, by decide⟩
    | binary f =>
      cases f <;> first
        | cases hsome; done
        | exact .inr ⟨_, rfl, rfl⟩
        | exact .inl ⟨_, rfl, rfl, by decide, by decide⟩

namespace Drafting

variable [NameLimit] {I : Interpretation} {p : StagePlan} {d d' : Draft} {Γ Γ' : Context I} {P : List UInt32}
  {i : Nat} {n : Node} {x : UInt32} {u : Unit} {t : ValueType} {f : Math.Operation}

/-- Arguments of one type. -/
def Arguments (I : Interpretation) (s : Surroundings I) (Γ : Context I) (t : ValueType)
    (xs : List UInt32) (vs : List I.Value) : Prop :=
  List.Forall₂ (fun x v => Known s Γ x t.shape (.value v)) xs vs

omit [NameLimit] in
theorem Arguments.operands {s : Surroundings I} {xs : List UInt32} {vs : List I.Value}
    (h : Arguments I s Γ t xs vs) :
    Operands s Γ xs ((List.replicate xs.length t.shape).zip vs) := by
  induction h with
  | nil => exact .nil
  | cons hx _ ih => exact .cons hx ih

omit [NameLimit] in
/-- What flows into ports of one type. -/
theorem arguments_of_flows {qs : List PortId} {xs : List UInt32}
    (ht : ∀ q ∈ qs, p.typeOf q = t) (h : List.Forall₂ (d.Flows p Γ) qs xs) :
    ∃ vs, Arguments I (d.surroundings I) Γ t xs vs ∧
      (p.Exact I → List.Forall₂ (p.graph.Supplies p.typeOf d.fragment) qs vs) := by
  induction h with
  | nil => exact ⟨[], .nil, fun _ => .nil⟩
  | cons hq _ ih =>
    obtain ⟨v, hk, hv⟩ := hq
    obtain ⟨vs, hks, hvs⟩ := ih fun q hq => ht q (List.mem_cons_of_mem _ hq)
    rw [ht _ List.mem_cons_self] at hk
    exact ⟨v :: vs, .cons hk hks, fun he => .cons (hv he) (hvs he)⟩

/-- **An arithmetic function becomes one instruction.** -/
theorem arithmetic_spec {args : List UInt32} {vs : List I.Value} (hs : d.Sound P)
    (hadm : f.Admits t) (hlen : args.length = f.arity)
    (hargs : Arguments I (d.surroundings I) Γ t args vs)
    (h : Draws (arithmetic i n x f t args) d u d') :
    ∃ c, d.Emits Γ [x] c [] d' ((x, t.shape, .value (I.operation f t vs)) :: Γ) [] := by
  rw [arithmetic] at h
  obtain ⟨type, d₁, ht, h⟩ := draws_bind.1 h
  obtain ⟨-, q, ht⟩ := typeOf_spec hs ht
  have hops := hargs.operands.mono (q.le (I := I))
  have hsig := operation_signature hadm
  have hvs : vs.length = f.arity := hargs.length_eq.symm.trans hlen
  have h1 : ((List.replicate args.length t.shape).zip vs).map (·.1) =
      List.replicate f.arity t.shape := by
    rw [hlen, List.map_fst_zip (by simp [hvs])]
  have h2 : ((List.replicate args.length t.shape).zip vs).map (·.2) = vs := by
    rw [hlen, List.map_snd_zip (by simp [hvs])]
  rw [← h1] at hsig
  rcases select_instruction hadm with ⟨op, hsel, hinstr, hlay, hne⟩ | ⟨k, hsel, hinstr⟩
  · rw [hsel] at h
    obtain ⟨_, d₂, h₂, h⟩ := draws_bind.1 h
    rw [hinstr] at hsig
    have hstep := Step.ofValues (x := x) hlay hne ht hops hsig
    have e := ((opWithId_spec hsig.typed hstep h₂).trans (credit_spec h)).after q
    rw [h2] at e
    rw [Interpretation.operation, hinstr]
    exact ⟨_, e⟩
  · rw [hsel] at h
    dsimp only at h
    rw [draws_get_bind] at h
    obtain ⟨_, d₂, h₂, h⟩ := draws_bind.1 h
    rw [hinstr] at hsig
    have hstep := Step.ofExtended (x := x) ht hops hsig
    have e := ((opWithId_spec hsig.typed hstep h₂).trans (credit_spec h)).after q
    rw [h2] at e
    rw [Interpretation.operation, hinstr]
    exact ⟨_, e⟩

/-! ### Nodes -/

variable {out : PortId}

omit [NameLimit] in
theorem isValue_of_admits (h : f.Admits t) : t.isValue = true := by
  refine ValueType.isValue_of_isNumeric ?_
  rw [ValueType.isNumeric]
  rcases h with h | h
  · rw [h, Bool.true_or]
  · rw [h.1, Bool.or_true]

omit [NameLimit] in
/-- Steps on a list that leave the draft alone. -/
theorem mapM_same {α β : Type} {g : α → Drafting β} {l : List α} {bs : List β}
    (step : ∀ a b d₁ d₂, Draws (g a) d₁ b d₂ → d₂ = d₁) (h : Draws (l.mapM g) d bs d') : d' = d := by
  induction l generalizing d bs with
  | nil =>
    rw [List.mapM_nil, draws_pure] at h
    exact h.2
  | cons a l ih =>
    rw [List.mapM_cons] at h
    obtain ⟨b, d₁, h₁, h⟩ := draws_bind.1 h
    obtain ⟨cs, d₂, h₂, h⟩ := draws_bind.1 h
    obtain ⟨-, rfl⟩ := draws_pure.1 h
    rw [ih h₂, step a b d d₁ h₁]

omit [NameLimit] in
theorem knownOperand?_same {q : PortId} {r : Option (List Float)}
    (h : Draws (knownOperand? p q) d r d') : d' = d := by
  rw [knownOperand?] at h
  split at h
  · exact (draws_pure.1 h).2
  · rw [draws_get_bind] at h
    exact (draws_pure.1 h).2

omit [NameLimit] in
/-- Looking for constants changes nothing, and finds none unless arithmetic is folded. -/
theorem folded?_spec {r : Option (List Float)} (h : Draws (folded? p n f t) d r d') :
    d' = d ∧ (p.foldConstants = false → r = none) := by
  rw [folded?] at h
  cases hfold : p.foldConstants with
  | false =>
    rw [hfold] at h
    obtain ⟨rfl, rfl⟩ := draws_pure.1 h
    exact ⟨rfl, fun _ => rfl⟩
  | true =>
    rw [hfold] at h
    refine ⟨?_, fun h => by cases h⟩
    obtain ⟨ops, d₁, h₁, h⟩ := draws_bind.1 h
    have hd := mapM_same (fun _ _ _ _ => knownOperand?_same) h₁
    split at h
    · rw [(draws_pure.1 h).2, hd]
    · rw [(draws_pure.1 h).2, hd]

/-- An output port whose components are known. -/
theorem defineKnown_spec {values : List Float} (hs : d.Sound P) (hnew : d.values.lookup out = none)
    (h : Draws (defineKnown n out t values) d u d') :
    ∃ x, d.Emits Γ [] .done [(out, x)] d' Γ [] ∧
      GlobalAt I d'.decls x t.shape (.value (I.numbers t values)) := by
  rw [defineKnown] at h
  obtain ⟨x, d₁, h₁, h⟩ := draws_bind.1 h
  obtain ⟨q, hx⟩ := constant_spec (I := I) hs h₁
  obtain ⟨_, d₂, h₂, h⟩ := draws_bind.1 h
  have e := bind_spec (Γ := Γ) (by rw [q.values]; exact hnew) h₂
  rw [draws_modify] at h
  subst h
  refine ⟨x, Draft.Emits.after ⟨e.frame, e.entries, e.code, e.label, e.values, .done, e.sound⟩ q, ?_⟩
  exact hx.mono (ModuleBuilder.sectionOf_subset e.entries _)

omit [NameLimit] in
theorem operationOf_eq (k : NodeKind) : Graph.operationOf k = k.operation? := by
  cases k <;> rfl

/-- **The code of an arithmetic node.** -/
theorem writeArithmetic_spec (hp : p.Planned) (hs : d.Sound P) (hn : p.graph.nodes[i]? = some n)
    (hop : n.kind.operation? = some f) (hout : n.outputs = [out])
    (hlen : n.inputs.length = f.arity) (htypes : ∀ q ∈ n.inputs, p.typeOf q = p.typeOf out)
    (hadm : f.Admits (p.typeOf out)) (hfed : ∀ q ∈ n.inputs, d.Fed p Γ q)
    (hnew : d.values.lookup out = none) (h : Draws (writeArithmetic p i n f out) d u d') :
    ∃ c vs Γ', d.Writes p Γ i c vs d' Γ' [] := by
  have hmem : out ∈ n.outputs := by rw [hout]; exact List.mem_singleton_self _
  rw [writeArithmetic] at h
  obtain ⟨r, d₁, h₁, h⟩ := draws_bind.1 h
  obtain ⟨hd₁, hnone⟩ := folded?_spec h₁
  rw [hd₁] at h
  cases r with
  | some values =>
    -- a folded node keeps its type only
    obtain ⟨x, e, hx⟩ := defineKnown_spec (I := I) (Γ := Γ) hs hnew h
    refine ⟨_, _, _, .one hn hout e ⟨_, .inr hx, fun he => ?_⟩⟩
    cases hnone he.1
  | none =>
    obtain ⟨args, d₂, h₂, h⟩ := draws_bind.1 h
    obtain ⟨q, hflows⟩ := operands_spec hp hs hfed
      (fun q hq => by rw [htypes q hq]; exact isValue_of_admits hadm) h₂
    obtain ⟨vs, hargs, hsup⟩ := arguments_of_flows htypes hflows
    obtain ⟨x, d₃, h₃, h⟩ := draws_bind.1 h
    have r := resultId_fresh (by rw [q.values]; exact hnew) h₃
    obtain ⟨c, e⟩ := arithmetic_spec (r.sound P (q.sound P hs)) hadm
      (hflows.length_eq.symm.trans hlen) (hargs.imp fun _ _ hk => hk.mono r.le) h
    have e := (r.emits e).after q
    refine ⟨_, _, _, .one hn hout e (.of_node hp hn hmem (.inl List.mem_cons_self) fun he => ?_)⟩
    obtain ⟨N, hN⟩ := Graph.supplies_mapM (hsup he)
    refine ⟨N, fun fuel hfuel => ?_⟩
    rw [e.goes.fragment, Graph.nodeValue, operationOf_eq, hop]
    have := hN fuel hfuel
    rw [q.goes.fragment] at this
    simp only [this]
    rfl

/-! ### Expressions -/

omit [NameLimit] in
theorem findPort_mem {g : Graph} {ports : List PortId} {name : String} {q : PortId}
    (h : g.findPort ports name = .ok q) : q ∈ ports ∨ q = noPort := by
  induction ports with
  | nil =>
    cases h
    exact .inr rfl
  | cons a ports ih =>
    rw [Graph.findPort] at h
    obtain ⟨port, -, h⟩ := bind_eq_ok.1 h
    split at h
    · cases h
      exact .inl List.mem_cons_self
    · exact (ih h).imp (List.mem_cons_of_mem a) id

omit [NameLimit] in
/-- The code of a call: its arguments, then one instruction. -/
theorem lower_call {e : Math.Expr} {args : List Math.Expr} (h : e.call? = some (f, args)) :
    lower p i n t e = (do
      let xs ← args.mapM (lower p i n t)
      let id ← assemble Assemble.allocId
      arithmetic i n id f t xs
      return id) := by
  cases e with
  | number => cases h
  | input => cases h
  | unary g x => cases h; simp [lower]
  | binary g x y => cases h; simp [lower]
  | mix x y s => cases h; simp [lower]

omit [NameLimit] in
/-- The value of a call. -/
theorem exprValue_call {g : Graph} {input : PortId → Option I.Value} {e : Math.Expr}
    {args : List Math.Expr} (h : e.call? = some (f, args)) :
    g.exprValue I input n t e = (do
      let vs ← args.mapM (g.exprValue I input n t)
      return I.operation f t vs) := by
  cases e with
  | number => cases h
  | input => cases h
  | unary g x => cases h; simp [Graph.exprValue, Option.bind_assoc]
  | binary g x y => cases h; simp [Graph.exprValue, Option.bind_assoc]
  | mix x y s => cases h; simp [Graph.exprValue, Option.bind_assoc]

omit [NameLimit] in
theorem length_call {e : Math.Expr} {args : List Math.Expr} (h : e.call? = some (f, args)) :
    args.length = f.arity := by
  cases e <;> cases h <;> rfl

/-- **Code that computes an expression** from the values that flow into the inputs of its node. -/
def Lowers (I : Interpretation) (p : StagePlan) (i : Nat) (n : Node) (t : ValueType)
    (e : Math.Expr) : Prop :=
  ∀ (d d' : Draft) (Γ : Context I) (P : List UInt32) (x : UInt32) (vals : PortId → I.Value),
    d.Sound P → (∀ q ∈ n.inputs, d.Receives p Γ q (vals q)) → Draws (lower p i n t e) d x d' →
    ∃ c Γ' v, d.Emits Γ [] c [] d' Γ' [] ∧ Known (d'.surroundings I) Γ' x t.shape (.value v) ∧
      ∀ input, (∀ q ∈ n.inputs, input q = some (vals q)) → p.graph.exprValue I input n t e = some v

theorem receives_of_emits {c : Code} {q : PortId} {v : I.Value} (e : d.Emits Γ [] c [] d' Γ' [])
    (h : d.Receives p Γ q v) : d'.Receives p Γ' q v :=
  h.mono e.goes e.runs.subset e.values fun _ hm => by cases hm

/-- The code of several expressions. -/
theorem lowers_all {es : List Math.Expr} (hes : ∀ e ∈ es, Lowers I p i n t e) {xs : List UInt32}
    {vals : PortId → I.Value} (hs : d.Sound P) (hvals : ∀ q ∈ n.inputs, d.Receives p Γ q (vals q))
    (h : Draws (es.mapM (lower p i n t)) d xs d') :
    ∃ c Γ' vs, d.Emits Γ [] c [] d' Γ' [] ∧ Arguments I (d'.surroundings I) Γ' t xs vs ∧
      xs.length = es.length ∧ ∀ input, (∀ q ∈ n.inputs, input q = some (vals q)) →
        es.mapM (p.graph.exprValue I input n t) = some vs := by
  induction es generalizing d Γ xs with
  | nil =>
    rw [List.mapM_nil, draws_pure] at h
    obtain ⟨rfl, rfl⟩ := h
    exact ⟨_, Γ, [], (Draft.Quiet.refl _).emits, .nil, rfl, fun _ _ => rfl⟩
  | cons e es ih =>
    rw [List.mapM_cons] at h
    obtain ⟨x, d₁, h₁, h⟩ := draws_bind.1 h
    obtain ⟨ys, d₂, h₂, h⟩ := draws_bind.1 h
    obtain ⟨rfl, rfl⟩ := draws_pure.1 h
    obtain ⟨c₁, Γ₁, v, e₁, hk, hv⟩ := hes e List.mem_cons_self _ _ _ _ _ _ hs hvals h₁
    obtain ⟨c₂, Γ₂, vs, e₂, hks, hlen, hvs⟩ := ih (fun e he => hes e (List.mem_cons_of_mem _ he))
      (e₁.sound P hs) (fun q hq => receives_of_emits e₁ (hvals q hq)) h₂
    refine ⟨_, Γ₂, v :: vs, e₁.trans e₂, .cons ((hk.mono e₂.le).weaken e₂.runs.subset) hks,
      by rw [List.length_cons, List.length_cons, hlen], fun input hinput => ?_⟩
    rw [List.mapM_cons, hv input hinput, hvs input hinput]
    rfl

/-- The code of a call, from the code of its arguments. -/
theorem lowers_call {e : Math.Expr} {args : List Math.Expr} (hadm : f.Admits t)
    (hcall : e.call? = some (f, args)) (hargs : ∀ a ∈ args, Lowers I p i n t a) :
    Lowers I p i n t e := by
  intro d d' Γ P x vals hs hvals h
  rw [lower_call hcall] at h
  obtain ⟨xs, d₁, h₁, h⟩ := draws_bind.1 h
  obtain ⟨c, Γ₁, vs, e₁, hks, hlen, hvs⟩ := lowers_all hargs hs hvals h₁
  obtain ⟨id, d₂, h₂, h⟩ := draws_bind.1 h
  have r := allocId_spec h₂
  obtain ⟨_, d₃, h₃, h⟩ := draws_bind.1 h
  obtain ⟨rfl, rfl⟩ := draws_pure.1 h
  obtain ⟨k, e₂⟩ := arithmetic_spec (r.sound P (e₁.sound P hs)) hadm
    (hlen.trans (length_call hcall)) (hks.imp fun _ _ hk => hk.mono r.le) h₃
  refine ⟨_, _, _, e₁.trans (r.emits e₂), .inl List.mem_cons_self, fun input hinput => ?_⟩
  rw [exprValue_call hcall, hvs input hinput]
  rfl

/-- **Every expression becomes code that computes it.** -/
theorem lower_spec (ht : t.isFloating = true) (htypes : ∀ q ∈ n.inputs, p.typeOf q = t)
    (e : Math.Expr) : Lowers I p i n t e := by
  have hadm : ∀ f : Math.Operation, f.Admits t := fun f => .inl ht
  induction e with
  | number v =>
    intro d d' Γ P x vals hs hvals h
    obtain ⟨q, hx⟩ := constant_spec (I := I) hs h
    exact ⟨_, Γ, _, q.emits, .inr hx, fun _ _ => rfl⟩
  | input name =>
    intro d d' Γ P x vals hs hvals h
    rw [lower] at h
    obtain ⟨q, d₁, h₁, h⟩ := draws_bind.1 h
    rw [inputNamed] at h₁
    cases hq : p.graph.inputNamed n name with
    | error fault =>
      rw [hq] at h₁
      exact absurd h₁ not_draws_throw
    | ok q' =>
      rw [hq] at h₁
      obtain ⟨rfl, hd₁⟩ := draws_pure.1 h₁
      rw [hd₁] at h
      rcases findPort_mem hq with hmem | rfl
      · obtain ⟨hquiet, hk⟩ := operand_receives hs (hvals q hmem)
          (by rw [htypes q hmem]; exact isValue_of_admits (hadm .mix)) h
        rw [htypes q hmem] at hk
        refine ⟨_, Γ, _, hquiet.emits, hk, fun input hinput => ?_⟩
        simp only [Graph.exprValue, hq, hinput q hmem]
      · -- no input has the name, and what is no port has no type
        have hnone : p.graph.producer? noPort = none := rfl
        rw [operand, hnone] at h
        obtain ⟨_, _, h', -⟩ := draws_bind.1 h
        have hv := (typeOf_spec hs h').1
        cases hv
  | unary g x ihx =>
    refine lowers_call (hadm _)
      (show Math.Expr.call? (.unary g x) = some (.unary g, [x]) from rfl) ?_
    intro a ha
    rw [List.mem_singleton.1 ha]
    exact ihx
  | binary g x y ihx ihy =>
    refine lowers_call (hadm _)
      (show Math.Expr.call? (.binary g x y) = some (.binary g, [x, y]) from rfl) ?_
    intro a ha
    simp only [List.mem_cons, List.not_mem_nil, or_false] at ha
    rcases ha with rfl | rfl
    · exact ihx
    · exact ihy
  | mix x y s ihx ihy ihs =>
    refine lowers_call (hadm _)
      (show Math.Expr.call? (.mix x y s) = some (.mix, [x, y, s]) from rfl) ?_
    intro a ha
    simp only [List.mem_cons, List.not_mem_nil, or_false] at ha
    rcases ha with rfl | rfl | rfl
    · exact ihx
    · exact ihy
    · exact ihs

/-- **The code of an expression node computes its expression** from the values that flow in. -/
theorem writeExpression_computes {source : String} {names : List String} {e : Math.Expr}
    {vals : PortId → I.Value} (hs : d.Sound P) (hparams : n.params = .math source names)
    (hparse : Math.Expr.parse source names = .ok e) (ht : (p.typeOf out).isFloating = true)
    (htypes : ∀ q ∈ n.inputs, p.typeOf q = p.typeOf out)
    (hvals : ∀ q ∈ n.inputs, d.Receives p Γ q (vals q)) (hnew : d.values.lookup out = none)
    (h : Draws (writeExpression p i n out) d u d') :
    ∃ c x Γ' v, d.Emits Γ [] c [(out, x)] d' Γ' [] ∧
      Known (d'.surroundings I) Γ' x (p.typeOf out).shape (.value v) ∧
      ∀ input, (∀ q ∈ n.inputs, input q = some (vals q)) →
        p.graph.exprValue I input n (p.typeOf out) e = some v := by
  have hlower := lower_spec (I := I) (i := i) ht htypes
  rw [writeExpression, hparams] at h
  dsimp only at h
  rw [hparse] at h
  dsimp only at h
  cases hcall : e.call? with
  | none =>
    rw [hcall] at h
    obtain ⟨x, d₁, h₁, h⟩ := draws_bind.1 h
    obtain ⟨c, Γ₁, v, e₁, hk₁, hv⟩ := hlower e _ _ _ _ _ _ hs hvals h₁
    have e₂ := bind_spec (Γ := Γ₁) (by rw [e₁.values]; exact hnew) h
    exact ⟨_, _, _, v, e₁.trans e₂, hk₁.mono e₂.le, hv⟩
  | some fa =>
    obtain ⟨f, args⟩ := fa
    rw [hcall] at h
    dsimp only at h
    obtain ⟨id, d₁, h₁, h⟩ := draws_bind.1 h
    have r := resultId_fresh hnew h₁
    obtain ⟨xs, d₂, h₂, h⟩ := draws_bind.1 h
    -- the identifier of the node is reserved before its arguments are computed
    have hvals₁ : ∀ q ∈ n.inputs, d₁.Receives p Γ q (vals q) := fun q hq =>
      (hvals q hq).reserves r hnew
    obtain ⟨c, Γ₁, vs, e₁, hks, hlen, hvs⟩ := lowers_all (fun a _ => hlower a) (r.sound P hs) hvals₁ h₂
    obtain ⟨k, e₂⟩ := arithmetic_spec (e₁.sound _ (r.sound P hs)) (.inl ht)
      (hlen.trans (length_call hcall)) hks h
    refine ⟨_, _, _, _, r.emits (e₁.trans e₂), .inl List.mem_cons_self, fun input hinput => ?_⟩
    rw [exprValue_call hcall, hvs input hinput]
    rfl

omit [NameLimit] in
theorem expression_nodeValue {e : Math.Expr} {input : PortId → Option I.Value} {source : String}
    {names : List String} {g : Graph} {τ : PortId → ValueType} {fragment : Bool}
    (hk : n.kind = .mathExpression) (hparams : n.params = .math source names)
    (hparse : Math.Expr.parse source names = .ok e) :
    g.nodeValue I τ fragment input n out = g.exprValue I input n (τ out) e := by
  simp only [Graph.nodeValue, hk, Graph.operationOf, hparams, hparse]

/-- **The code of an expression node.** -/
theorem writeExpression_spec {source : String} {names : List String} (hp : p.Planned)
    (hs : d.Sound P) (hn : p.graph.nodes[i]? = some n) (hk : n.kind = .mathExpression)
    (hparams : n.params = .math source names) (hout : n.outputs = [out])
    (ht : (p.typeOf out).isFloating = true) (htypes : ∀ q ∈ n.inputs, p.typeOf q = p.typeOf out)
    (hfed : ∀ q ∈ n.inputs, d.Fed p Γ q) (hnew : d.values.lookup out = none)
    (h : Draws (writeExpression p i n out) d u d') :
    ∃ c vs Γ', d.Writes p Γ i c vs d' Γ' [] := by
  have hmem : out ∈ n.outputs := by rw [hout]; exact List.mem_singleton_self _
  cases hparse : Math.Expr.parse source names with
  | error fault =>
    rw [writeExpression, hparams] at h
    dsimp only at h
    rw [hparse] at h
    exact absurd h not_draws_throw
  | ok e =>
    have hadm : Math.Operation.Admits .mix (p.typeOf out) := .inl ht
    have : Nonempty I.Value := ⟨I.ofBool true⟩
    have hreceives : ∀ q ∈ n.inputs, ∃ v, d.Receives p Γ q v ∧
        (p.Exact I → p.graph.Supplies p.typeOf d.fragment q v) := fun q hq =>
      (hfed q hq).receives hp (by rw [htypes q hq]; exact isValue_of_admits hadm)
    choose! vals hvals using hreceives
    obtain ⟨c, x, Γ₁, v, e, hk₁, hv⟩ := writeExpression_computes hs hparams hparse ht htypes
      (fun q hq => (hvals q hq).1) hnew h
    refine ⟨_, _, _, .one hn hout e (.of_node hp hn hmem hk₁ fun he => ?_)⟩
    obtain ⟨N, hN⟩ := Graph.supplies_all fun q hq => (hvals q hq).2 he
    refine ⟨N, fun fuel hfuel => ?_⟩
    rw [e.goes.fragment, expression_nodeValue hk hparams hparse]
    exact hv _ (hN fuel hfuel)

end Drafting

end NodeShader
