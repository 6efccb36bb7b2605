import NodeShader.Proofs.Graph.Wires
import NodeShader.Proofs.Stage.Folding

/-!
# Nodes that have code

A node has code whatever there is already, as long as its output ports have no values and what feeds it
comes from elsewhere.  For each kind of node its code is shown to succeed here (`Succeeds`); what a kind
asks for is found in the typing: values have types, arithmetic has a function for its type, the sizes of
vectors fit.  Two kinds read what was declared before: a sample finds its field
(`writeSample_succeeds`), and a field finds its storage (`writeField_succeeds`).

* `Math.Expr.occurrences_of_parse`: an expression that was read takes its inputs from the given names.
* `Graph.Consistent.input_of_name`: so each of them is an input port of the node.
-/

namespace NodeShader

open Spirv

/-! ### The inputs of expressions -/

namespace Math

variable {inputs : List String}

theorem Operation.occurrences_of_expr? {f : Operation} {args : List Expr} {e : Expr}
    (h : f.expr? args = some e) : ∀ name ∈ e.occurrences, ∃ a ∈ args, name ∈ a.occurrences := by
  intro name hname
  rw [expr?.eq_def] at h
  split at h
  · cases h
    exact ⟨_, List.mem_cons_self, hname⟩
  · cases h
    rcases List.mem_append.1 hname with hx | hy
    · exact ⟨_, List.mem_cons_self, hx⟩
    · exact ⟨_, List.mem_cons_of_mem _ List.mem_cons_self, hy⟩
  · cases h
    rcases List.mem_append.1 hname with hxy | ht
    · rcases List.mem_append.1 hxy with hx | hy
      · exact ⟨_, List.mem_cons_self, hx⟩
      · exact ⟨_, List.mem_cons_of_mem _ List.mem_cons_self, hy⟩
    · exact ⟨_, List.mem_cons_of_mem _ (List.mem_cons_of_mem _ List.mem_cons_self), ht⟩
  · cases h

mutual

/-- A term is read over the given names only. -/
theorem Term.occurrences_of_toExpr (t : Term) {e : Expr} (h : t.toExpr inputs = .ok e) :
    ∀ name ∈ e.occurrences, name ∈ inputs := by
  cases t with
  | number v =>
    rw [Term.toExpr] at h
    cases h
    exact fun _ hname => absurd hname List.not_mem_nil
  | name x =>
    rw [Term.toExpr] at h
    split at h
    · rename_i hx
      cases h
      intro name hname
      rw [List.mem_singleton.1 hname]
      exact List.contains_iff_mem.1 hx
    · cases h
  | call f args =>
    rw [Term.toExpr] at h
    split at h
    · cases h
    · dsimp only at h
      split at h
      · cases h
      · obtain ⟨es, hes, h⟩ := bind_eq_ok.1 h
        split at h
        · rename_i he
          cases h
          intro name hname
          obtain ⟨a, ha, hname⟩ := Operation.occurrences_of_expr? he name hname
          exact Term.occurrences_of_toExprs args hes a ha name hname
        · cases h
  | literal v =>
    rw [Term.toExpr] at h
    cases h
  | member f target args =>
    rw [Term.toExpr] at h
    cases h
  | select target =>
    rw [Term.toExpr] at h
    cases h
  | loop target args =>
    rw [Term.toExpr] at h
    cases h
  | other items =>
    rw [Term.toExpr] at h
    cases h

theorem Term.occurrences_of_toExprs (ts : List Term) {es : List Expr}
    (h : Term.toExprs inputs ts = .ok es) : ∀ e ∈ es, ∀ name ∈ e.occurrences, name ∈ inputs := by
  cases ts with
  | nil =>
    rw [Term.toExprs] at h
    cases h
    exact fun _ he => absurd he List.not_mem_nil
  | cons t ts =>
    rw [Term.toExprs] at h
    obtain ⟨e, he, h⟩ := bind_eq_ok.1 h
    obtain ⟨es, hes, h⟩ := bind_eq_ok.1 h
    cases h
    intro e' he'
    rcases List.mem_cons.1 he' with rfl | he'
    · exact Term.occurrences_of_toExpr t he
    · exact Term.occurrences_of_toExprs ts hes e' he'

end

/-- **An expression that was read** takes its inputs from the given names. -/
theorem Expr.occurrences_of_parse {source : String} {e : Expr} (h : parse source inputs = .ok e) :
    ∀ name ∈ e.occurrences, name ∈ inputs := by
  rw [parse] at h
  split at h
  · cases h
  · rename_i term _
    exact term.occurrences_of_toExpr (mapError_eq_ok.1 h)

end Math

/-- **The inputs of an expression node** have the names that its expression may take. -/
theorem Graph.Consistent.input_of_name {g : Graph} {i : Nat} {n : Node} {source name : String}
    {names : List String} (hg : g.Consistent) (hn : g.nodes[i]? = some n)
    (hk : n.kind = .mathExpression) (hparams : n.params = .math source names) (hname : name ∈ names) :
    ∃ q ∈ n.inputs, g.inputNamed n name = .ok q := by
  obtain ⟨ins, outs, hs, -⟩ := (hg.node i n hn).ports
  have hins : n.facts.ports .input = ins := (NodeFacts.ports_of (n := n.facts) hs).1
  obtain ⟨q, hq⟩ := findPort_isOk (hg.bears hn .input) name
  refine ⟨q, ?_, hq⟩
  rcases Drafting.findPort_mem hq with hmem | rfl
  · exact hmem
  · -- a port of the name is declared
    rw [hk, hparams, portSpecs] at hs
    obtain ⟨ports, hports, hs⟩ := map_eq_ok.1 hs
    cases hs
    have hfind := (hg.find_named hn .input hq).1
    rw [hins, (variablePorts_eq_ok hports).1] at hfind
    have hnone : (g.port? noPort).map (·.spec) = none := rfl
    rw [hnone, List.find?_eq_none] at hfind
    exact absurd (beq_self_eq_true name) (hfind _ (List.mem_map_of_mem hname))

namespace Drafting

variable {α : Type} {K K' : PortId → Prop} {p : StagePlan} {i : Nat} {n : Node} {q out : PortId}
  {t : ValueType} {d : Draft}

/-! ### Steps of all kinds of nodes -/

theorem succeeds_demand_bind {β : Type} {o : Option β} {b : β} {f : β → Drafting α} (hb : o = some b)
    (h : Succeeds K K' (f b)) : Succeeds K K' (demand o >>= f) := by
  rw [hb]
  exact h

theorem succeeds_isFragment : Succeeds K K isFragment :=
  succeeds_get_bind fun _ => succeeds_pure _

theorem succeeds_loadGlobal (m : GlobalMember) : Succeeds K K (loadGlobal m) :=
  succeeds_get_bind fun _ => succeeds_assemble _

theorem succeeds_one : Succeeds K K one := succeeds_constant (by decide) _

theorem succeeds_zero : Succeeds K K zero := succeeds_constant (by decide) _

theorem succeeds_toFloat4 (i : Nat) (x : UInt32) (t : ValueType) : Succeeds K K (toFloat4 i x t) := by
  refine succeeds_bind (succeeds_typeOf (by decide)) fun _ => ?_
  split
  · exact succeeds_bind succeeds_one fun _ => succeeds_emit i _ _ _
  · exact succeeds_bind succeeds_zero fun _ => succeeds_bind succeeds_one fun _ => succeeds_emit i _ _ _
  · exact succeeds_bind succeeds_one fun _ => succeeds_emit i _ _ _
  · exact succeeds_pure _

theorem succeeds_store (name : String) (x : UInt32) : Succeeds K K (store name x) :=
  succeeds_get_bind fun _ => succeeds_assemble _

/-- A port without a value is given one by an instruction. -/
theorem succeeds_defined (i : Nat) (op : Opcode) (type : UInt32) (args : List UInt32) :
    Succeeds (· = out) nowhere (define i out op type args) :=
  succeeds_define nowhere_imp i op type args

/-- A port without a value is given one that exists. -/
theorem succeeds_bound (n : Node) (id : UInt32) :
    Succeeds (· = out) nowhere (Drafting.bind n out id) :=
  succeeds_bindTo (K := (· = out)) rfl nowhere_imp id

/-- A port without a value feeds none that receives one. -/
theorem clear_of_receives {I : Interpretation} {Γ : Context I} {v : I.Value} (h : d.Receives p Γ q v)
    (hnew : d.values.lookup out = none) : Clear p (· = out) q := by
  rintro o ho rfl
  rw [Draft.Receives, ho] at h
  obtain ⟨x, hx, -⟩ := h
  rw [hnew] at hx
  cases hx

/-! ### Expressions -/

/-- **Expressions have code**, whatever their operations, since they are of a floating type. -/
theorem succeeds_lower (hclear : ∀ q ∈ n.inputs, Clear p K q) (ht : t.isFloating = true)
    (htypes : ∀ q ∈ n.inputs, p.typeOf q = t) {e : Math.Expr}
    (hnames : ∀ name ∈ e.occurrences, ∃ q ∈ n.inputs, p.graph.inputNamed n name = .ok q) :
    Succeeds K K (lower p i n t e) := by
  have hadm : ∀ f : Math.Operation, f.Admits t := fun _ => .inl ht
  have hv : t.isValue = true := isValue_of_admits (hadm .mix)
  have hresult : ∀ f args, Succeeds K K (do
      let id ← assemble Assemble.allocId
      arithmetic i n id f t args
      return id) := fun f args =>
    succeeds_bind (succeeds_assemble _) fun _ =>
      succeeds_bind (succeeds_arithmetic (hadm f) i n _ args) fun _ => succeeds_pure _
  induction e with
  | number v => exact succeeds_constant hv _
  | input name =>
    obtain ⟨q, hq, hnamed⟩ := hnames name (List.mem_singleton_self name)
    rw [lower, inputNamed, hnamed]
    exact succeeds_operand (hclear q hq) (by rw [htypes q hq]; exact hv)
  | unary f x ihx => exact succeeds_bind (ihx hnames) fun _ => hresult _ _
  | binary f x y ihx ihy =>
    rw [Math.Expr.occurrences, List.forall_mem_append] at hnames
    exact succeeds_bind (ihx hnames.1) fun _ => succeeds_bind (ihy hnames.2) fun _ => hresult _ _
  | mix x y s ihx ihy ihs =>
    rw [Math.Expr.occurrences, List.forall_mem_append, List.forall_mem_append] at hnames
    exact succeeds_bind (ihx hnames.1.1) fun _ => succeeds_bind (ihy hnames.1.2) fun _ =>
      succeeds_bind (ihs hnames.2) fun _ => hresult _ _

theorem occurrences_of_call? {e a : Math.Expr} {f : Math.Operation} {args : List Math.Expr}
    (h : e.call? = some (f, args)) (ha : a ∈ args) : ∀ name ∈ a.occurrences, name ∈ e.occurrences := by
  intro name hname
  cases e with
  | number v => cases h
  | input x => cases h
  | unary g x =>
    cases h
    rwa [List.mem_singleton.1 ha] at hname
  | binary g x y =>
    cases h
    simp only [List.mem_cons, List.not_mem_nil, or_false] at ha
    rcases ha with rfl | rfl
    · exact List.mem_append_left _ hname
    · exact List.mem_append_right _ hname
  | mix x y s =>
    cases h
    simp only [List.mem_cons, List.not_mem_nil, or_false] at ha
    rcases ha with rfl | rfl | rfl
    · exact List.mem_append_left _ (List.mem_append_left _ hname)
    · exact List.mem_append_left _ (List.mem_append_right _ hname)
    · exact List.mem_append_right _ hname

section Output

variable (hclear : ∀ q ∈ n.inputs, Clear p (· = out) q)
include hclear

/-- **An expression node** has code if its expression can be read. -/
theorem succeeds_writeExpression {source : String} {names : List String} {e : Math.Expr}
    (hp : p.Planned) (hn : p.graph.nodes[i]? = some n) (hk : n.kind = .mathExpression)
    (hparams : n.params = .math source names) (ht : (p.typeOf out).isFloating = true)
    (htypes : ∀ q ∈ n.inputs, p.typeOf q = p.typeOf out)
    (hparse : Math.Expr.parse source names = .ok e) :
    Succeeds (· = out) nowhere (writeExpression p i n out) := by
  have hnames : ∀ name ∈ e.occurrences, ∃ q ∈ n.inputs, p.graph.inputNamed n name = .ok q :=
    fun name hname => hp.consistent.input_of_name hn hk hparams
      (Math.Expr.occurrences_of_parse hparse name hname)
  rw [writeExpression, hparams]
  dsimp only
  rw [hparse]
  dsimp only
  split
  · exact succeeds_bind (succeeds_lower hclear ht htypes hnames) fun _ => succeeds_bound n _
  · rename_i hcall
    -- the identifier of the node is reserved before its arguments are computed
    refine succeeds_bind (succeeds_resultId nowhere_imp) fun _ => ?_
    refine succeeds_bind (succeeds_mapM fun a ha => ?_) fun _ => succeeds_arithmetic (.inl ht) i n _ _
    exact succeeds_lower (fun _ _ _ _ h => h) ht htypes fun name hname =>
      hnames name (occurrences_of_call? hcall ha name hname)

/-- **A comparison** has code if it is known. -/
theorem succeeds_writeCompare {test : Comparison} {a b : PortId}
    (hparams : n.params = .compare test) (htest : ∀ code, test ≠ .unknown code)
    (hin : n.inputs = [a, b]) (ha : (p.typeOf a).isValue = true) (hb : (p.typeOf b).isValue = true) :
    Succeeds (· = out) nowhere (writeCompare p i n a b out) := by
  rw [hin] at hclear
  obtain ⟨ops, hops⟩ : ∃ ops, test.select? = some ops := by
    cases test with
    | unknown code => exact absurd rfl (htest code)
    | _ => exact ⟨_, rfl⟩
  rw [writeCompare, hparams]
  dsimp only
  rw [hops]
  exact succeeds_bind (succeeds_assemble _) fun _ =>
    succeeds_bind (succeeds_operand (hclear a List.mem_cons_self) ha) fun _ =>
      succeeds_bind (succeeds_operand (hclear b (List.mem_cons_of_mem _ List.mem_cons_self)) hb)
        fun _ => succeeds_defined i _ _ _

theorem succeeds_writeSwizzle {selector : String} (hparams : n.params = .swizzle selector)
    (hq : q ∈ n.inputs) (hv : (p.typeOf q).isValue = true) (ht : (p.typeOf out).isValue = true) :
    Succeeds (· = out) nowhere (writeSwizzle p i n q out) := by
  rw [writeSwizzle, hparams]
  refine succeeds_bind (succeeds_operand (hclear q hq) hv) fun _ =>
    succeeds_bind (succeeds_typeOf ht) fun _ => ?_
  split
  · exact succeeds_bound n _
  · exact succeeds_defined i _ _ _
  · exact succeeds_defined i _ _ _
  · exact succeeds_defined i _ _ _

end Output

/-! ### Vectors -/

/-- The components of a vector, one output port after another. -/
theorem succeeds_separateOutputs (x : UInt32) {outs : List PortId} (hnodup : outs.Nodup)
    (hports : ∀ o ∈ outs, ∃ port, p.graph.port? o = some port)
    (ht : ∀ o ∈ outs, (p.typeOf o).isValue = true) (k : Nat) :
    Succeeds (· ∈ outs) nowhere ((outs.zipIdx k).forM (separateOutput p i n q x)) := by
  induction outs generalizing k with
  | nil => exact (succeeds_pure ()).mono nowhere_imp
  | cons o outs ih =>
    obtain ⟨ho, hnodup⟩ := List.nodup_cons.1 hnodup
    rw [List.forall_mem_cons] at hports ht
    obtain ⟨⟨port, hport⟩, hports⟩ := hports
    have hrest : ∀ o', o' ∈ outs → o' ∈ o :: outs ∧ o' ≠ o := fun o' ho' =>
      ⟨List.mem_cons_of_mem _ ho', fun h => ho (h ▸ ho')⟩
    have hfirst : Succeeds (· ∈ o :: outs) (· ∈ outs) (separateOutput p i n q x (o, k)) := by
      refine succeeds_demand_bind hport (succeeds_ite (fun _ => succeeds_ite (fun _ => ?_) fun _ => ?_)
        fun _ => (succeeds_pure _).mono fun o' ho' => (hrest o' ho').1)
      · exact succeeds_bindTo List.mem_cons_self hrest x
      · exact succeeds_bind (succeeds_typeOf ht.1) fun _ => succeeds_define hrest i _ _ _
    rw [List.zipIdx_cons, List.forM_eq_forM, List.forM_cons]
    exact succeeds_bind hfirst fun _ => ih hnodup hports ht.2 (k + 1)

theorem succeeds_writeSeparate (hp : p.Planned) (hn : p.graph.nodes[i]? = some n)
    (hclear : Clear p (· ∈ n.outputs) q) (hv : (p.typeOf q).isValue = true)
    (ht : ∀ o ∈ n.outputs, (p.typeOf o).isValue = true) :
    Succeeds (· ∈ n.outputs) nowhere (writeSeparate p i n q) := by
  refine succeeds_bind (succeeds_operand hclear hv) fun x => ?_
  refine succeeds_separateOutputs x (hp.consistent.nodup_ports hn .output) (fun o ho => ?_) ht 0
  obtain ⟨port, hport, -⟩ := hp.consistent.output_port hn ho
  exact ⟨port, hport⟩

/-! ### Fields -/

theorem succeeds_texelCoordinate (i : Nat) (dim : Int) : Succeeds K K (texelCoordinate i dim) := by
  refine succeeds_bind (succeeds_typeOf (by decide)) fun _ => succeeds_get_bind fun _ => ?_
  refine succeeds_bind (succeeds_unsignedType 3) fun _ => succeeds_bind (succeeds_emit i _ _ _) fun _ => ?_
  refine succeeds_bind (succeeds_emit i _ _ _) fun _ =>
    succeeds_bind (succeeds_constant (by decide) _) fun _ => ?_
  refine succeeds_bind (succeeds_emit i _ _ _) fun _ => succeeds_bind (succeeds_loadGlobal _) fun _ => ?_
  refine succeeds_bind (succeeds_credit i _) fun _ => succeeds_bind (succeeds_emit i _ _ _) fun _ => ?_
  exact succeeds_ite (fun _ => succeeds_pure _) fun _ =>
    succeeds_bind (succeeds_typeOf (by decide)) fun _ => succeeds_emit i _ _ _

theorem isValue_of_input (input : StageInput) : input.type.isValue = true := by
  cases input <;> decide

theorem succeeds_loadInput (i : Nat) (input : StageInput) : Succeeds K K (loadInput i input) :=
  succeeds_get_bind fun _ => succeeds_bind (succeeds_typeOf (isValue_of_input input)) fun _ =>
    succeeds_emit i _ _ _

theorem succeeds_defineInput (i : Nat) (input : StageInput) :
    Succeeds (· = out) nowhere (defineInput i out input) :=
  succeeds_bind (succeeds_typeOf (isValue_of_input input)) fun _ => succeeds_get_bind fun _ =>
    succeeds_defined i _ _ _

theorem succeeds_coordinateOf (connected fragment : Bool) (dim : Int) (hq : Clear p K q)
    (hv : (p.typeOf q).isValue = true) : Succeeds K K (coordinateOf p i q connected fragment dim) :=
  succeeds_ite (fun _ => succeeds_operand hq hv) fun _ =>
    succeeds_ite (fun _ => succeeds_texelCoordinate i dim) fun _ =>
      succeeds_ite (fun _ => succeeds_loadInput i _) fun _ => succeeds_loadInput i _

theorem succeeds_sampleAt (field : FieldVariables) (fragment : Bool) (x : UInt32) :
    Succeeds (· = out) nowhere (sampleAt i out field fragment x) := by
  refine succeeds_bind (succeeds_emit i _ _ _) fun _ => succeeds_bind (succeeds_assemble _) fun _ => ?_
  refine succeeds_bind (succeeds_emit i _ _ _) fun _ => succeeds_bind (succeeds_assemble _) fun _ => ?_
  refine succeeds_bind (succeeds_emit i _ _ _) fun _ =>
    succeeds_bind (succeeds_typeOf (by decide)) fun _ => ?_
  exact succeeds_ite (fun _ => succeeds_defined i _ _ _) fun _ =>
    succeeds_bind succeeds_zero fun _ => succeeds_defined i _ _ _

/-- **A sample** has code if its field was declared. -/
theorem writeSample_succeeds {f : PortId} {field : FieldVariables} {port : Port}
    (hfield : (p.graph.producer? f).bind (d.fields.lookup ·) = some field)
    (hport : p.graph.port? q = some port) (hq : Clear p (· = out) q)
    (hv : (p.typeOf q).isValue = true) (hnew : d.values.lookup out = none) :
    ∃ u e, Draws (writeSample p i n f q out) d u e := by
  have hcode : Succeeds (· = out) nowhere
      (coordinateOf p i q port.isConnected d.fragment field.dim >>= sampleAt i out field d.fragment) :=
    succeeds_bind (succeeds_coordinateOf _ _ _ hq hv) fun _ => succeeds_sampleAt _ _ _
  obtain ⟨u, e, h, -⟩ := hcode d fun o ho => by rw [show o = out from ho]; exact hnew
  exact ⟨u, e, (writeSample_draws hfield hport).2 h⟩

/-- **A field** has code if its storage was declared. -/
theorem writeField_succeeds (hstorage : d.storage.isSome) (hq : Clear p nowhere q)
    (hv : (p.typeOf q).isValue = true) : ∃ u e, Draws (writeField p i q) d u e := by
  obtain ⟨storage, hstorage⟩ := Option.isSome_iff_exists.1 hstorage
  obtain ⟨x, d₁, h₁, hm₁, -⟩ := succeeds_operand hq hv d fun _ h => h.elim
  obtain ⟨texel, d₂, h₂, hm₂, -⟩ := succeeds_toFloat4 (K := nowhere) i x (p.typeOf q) d₁ fun _ h => h.elim
  have hkept : d₂.storage = some storage := by
    rw [Draft.eq_of_view Draft.memory Draft.storage (fun _ => rfl) (hm₂.trans hm₁), hstorage]
  have hwrite : Succeeds nowhere nowhere (do
      let image ← emit i .load storage.imageType [storage.image]
      let invocation := (← get).invocation.getD 0
      let gid ← emit i .load (← unsignedType 3) [invocation]
      let coordinate ←
        if storage.dim = 2 then emit i .vectorShuffle (← unsignedType 2) [gid, gid, 0, 1] else pure gid
      assemble (Assemble.void .imageWrite [image, coordinate, texel])) := by
    refine succeeds_bind (succeeds_emit i _ _ _) fun image => succeeds_get_bind fun _ => ?_
    refine succeeds_bind (succeeds_unsignedType 3) fun _ => succeeds_bind (succeeds_emit i _ _ _) fun gid => ?_
    exact succeeds_ite (fun _ => succeeds_bind (succeeds_unsignedType 2) fun _ =>
      succeeds_bind (succeeds_emit i _ _ _) fun _ => succeeds_assemble _)
      fun _ => succeeds_bind (succeeds_pure gid) fun _ => succeeds_assemble _
  obtain ⟨u, e, h, -⟩ := hwrite d₂ fun _ h => h.elim
  refine ⟨u, e, draws_bind.2 ⟨x, d₁, h₁, draws_bind.2 ⟨texel, d₂, h₂, draws_get_bind.2 ?_⟩⟩⟩
  rw [hkept, draws_some_bind]
  exact h

/-! ### Outputs of the graph -/

theorem succeeds_inputNamed_bind {name : String} {f : PortId → Drafting α}
    (hq : p.graph.inputNamed n name = .ok q) (h : Succeeds K K' (f q)) :
    Succeeds K K' (inputNamed p n name >>= f) := by
  rw [inputNamed, hq]
  exact h

theorem succeeds_writeMaterial {c r m : PortId} (hin : n.inputs = [c, r, m])
    (hc : p.graph.inputNamed n "base_color" = .ok c) (hr : p.graph.inputNamed n "roughness" = .ok r)
    (hm : p.graph.inputNamed n "emission" = .ok m) (hclear : ∀ q ∈ n.inputs, Clear p K q)
    (hv : ∀ q ∈ n.inputs, (p.typeOf q).isValue = true) : Succeeds K K (do
      let color ← inputNamed p n "base_color"
      store "base_color" (← toFloat4 i (← operand p color) (p.typeOf color))
      store "roughness" (← operand p (← inputNamed p n "roughness"))
      store "emission" (← operand p (← inputNamed p n "emission"))) := by
  have hoperand : ∀ q ∈ [c, r, m], Succeeds K K (operand p q) := fun q hq =>
    succeeds_operand (hclear q (by rw [hin]; exact hq)) (hv q (by rw [hin]; exact hq))
  refine succeeds_inputNamed_bind hc (succeeds_bind (hoperand c (by simp)) fun _ => ?_)
  refine succeeds_bind (succeeds_toFloat4 i _ _) fun _ => succeeds_bind (succeeds_store _ _) fun _ => ?_
  refine succeeds_inputNamed_bind hr (succeeds_bind (hoperand r (by simp)) fun _ => ?_)
  refine succeeds_bind (succeeds_store _ _) fun _ => ?_
  exact succeeds_inputNamed_bind hm (succeeds_bind (hoperand m (by simp)) fun _ => succeeds_store _ _)

end Drafting

end NodeShader
