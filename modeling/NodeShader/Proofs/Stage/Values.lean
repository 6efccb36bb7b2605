import NodeShader.Proofs.Stage.Declaring

/-!
# Values of ports

While code is written the draft keeps the identifier of the value of each output port.  The
identifier stands for a value of the type of the port (`Draft.Gives`), and that value is what the
graph computes there, as far as the plan is exact (`StagePlan.Exact`): folding arithmetic keeps types
only.  What flows into an input port is the value of its producer, or a zero (`Draft.Flows`).

* `operand_spec`: the identifier of what flows into an input port.
* `Draft.Writes`: a step that writes a node; afterwards the node is ready.
* `Writes.one`: the code of a node with one output port.
-/

namespace NodeShader

open Spirv

variable [NameLimit] {I : Interpretation} {p : StagePlan} {d d' : Draft} {Γ Γ' : Context I} {i : Nat} {n : Node}
  {x : UInt32} {q out : PortId}

/-- **Comparisons of constants** come out as they are decided beforehand. -/
def Spirv.Interpretation.Agrees (I : Interpretation) (g : Graph) (τ : PortId → ValueType) : Prop :=
  ∀ n ∈ g.nodes.toList, ∀ test a b op x y v w, n.kind = .compare → n.params = .compare test →
    n.inputs = [a, b] → test.instruction? (τ a).isInt = some op →
    g.scalarConstant? a = some x → g.constantInput? I τ a = some v →
    g.scalarConstant? b = some y → g.constantInput? I τ b = some w →
    I.truth (I.apply op [] .bool [v, w]) = test.eval x y

namespace Graph

variable {g : Graph} {τ : PortId → ValueType}

omit [NameLimit] in
/-- A scalar that is known beforehand: the zero of an open port, or a constant of one component. -/
theorem scalarConstant?_eq_some {v : Float} (h : g.scalarConstant? q = some v) :
    (g.producerPosition? q).bind (g.nodes[·]?) = none ∧ v = 0 ∨
      ∃ n w scalar, (g.producerPosition? q).bind (g.nodes[·]?) = some n ∧ n.kind = .constant ∧
        n.params = .constant [w] scalar ∧ v = (constantType [w] scalar).round w := by
  rw [scalarConstant?] at h
  cases hn : (g.producerPosition? q).bind (g.nodes[·]?) with
  | none =>
    rw [hn] at h
    exact .inl ⟨rfl, (Option.some.inj h).symm⟩
  | some n =>
    rw [hn] at h
    dsimp only at h
    split at h
    · rename_i w scalar hk hparams
      exact .inr ⟨n, w, scalar, rfl, hk, hparams, (Option.some.inj h).symm⟩
    · cases h

omit [NameLimit] in
theorem constantInput?_open (hn : (g.producerPosition? q).bind (g.nodes[·]?) = none) :
    g.constantInput? I τ q = some (I.null (τ q).shape) := by
  rw [constantInput?, hn]

omit [NameLimit] in
theorem constantInput?_constant {v : Float} {scalar : ValueType}
    (hn : (g.producerPosition? q).bind (g.nodes[·]?) = some n) (hk : n.kind = .constant)
    (hparams : n.params = .constant [v] scalar) :
    g.constantInput? I τ q = some (I.number (constantType [v] scalar) v) := by
  simp only [constantInput?, hn, hk, hparams]

end Graph

/-- Plans whose code computes what the graph means: arithmetic on constants is left to run time, where
comparisons come out as they were decided. -/
def StagePlan.Exact (p : StagePlan) (I : Interpretation) : Prop :=
  p.foldConstants = false ∧ I.Agrees p.graph p.typeOf

namespace Draft

/-- Whether the body is that of a fragment. -/
def fragment (d : Draft) : Bool := decide (d.model = .fragment)

/-- An identifier that stands for the value of an output port. -/
def Gives (d : Draft) (p : StagePlan) (Γ : Context I) (out : PortId) (x : UInt32) : Prop :=
  ∃ v, Known (d.surroundings I) Γ x (p.typeOf out).shape (.value v) ∧
    (p.Exact I → p.graph.Denotes p.typeOf d.fragment out v)

/-- An identifier that stands for what flows into an input port. -/
def Flows (d : Draft) (p : StagePlan) (Γ : Context I) (q : PortId) (x : UInt32) : Prop :=
  ∃ v, Known (d.surroundings I) Γ x (p.typeOf q).shape (.value v) ∧
    (p.Exact I → p.graph.Supplies p.typeOf d.fragment q v)

/-- A value that flows into an input port: that of its producer, or the zero of its type. -/
def Receives (d : Draft) (p : StagePlan) (Γ : Context I) (q : PortId) (v : I.Value) : Prop :=
  match p.graph.producer? q with
  | some out => ∃ x, d.values.lookup out = some x ∧
      Known (d.surroundings I) Γ x (p.typeOf q).shape (.value v)
  | none => v = I.null (p.typeOf q).shape

/-- An input port whose producer, if it has one, has its value. -/
def Fed (d : Draft) (p : StagePlan) (Γ : Context I) (q : PortId) : Prop :=
  ∀ out, p.graph.producer? q = some out → (p.typeOf out).isValue = true →
    ∃ x, d.values.lookup out = some x ∧ d.Gives p Γ out x

/-- A node whose output ports have their values. -/
def Ready (d : Draft) (p : StagePlan) (Γ : Context I) (i : Nat) : Prop :=
  ∀ n, p.graph.nodes[i]? = some n → ∀ out ∈ n.outputs, ∀ port, p.graph.port? out = some port →
    port.isConnected = true → (p.typeOf out).isValue = true →
    ∃ x, d.values.lookup out = some x ∧ d.Gives p Γ out x

/-- A draft with the same frame and more instructions. -/
structure Goes (d d' : Draft) : Prop where
  frame : d'.frame = d.frame
  entries : d.builder.entries.toList.Sublist d'.builder.entries.toList

theorem Quiet.goes (h : d.Quiet d') : d.Goes d' := ⟨h.frame, h.entries⟩

theorem Emits.goes {R : List UInt32} {c : Code} {vs : List (PortId × UInt32)}
    {o : List (Output I.Value)} (h : d.Emits Γ R c vs d' Γ' o) : d.Goes d' := ⟨h.frame, h.entries⟩

theorem Reserves.goes {R : List UInt32} {vs : List (PortId × UInt32)} (h : d.Reserves R vs d') :
    d.Goes d' := ⟨h.frame, by rw [h.entries]⟩

omit [NameLimit] in
theorem Goes.trans {d₁ d₂ : Draft} (h₁ : d.Goes d₁) (h₂ : d₁.Goes d₂) : d.Goes d₂ :=
  ⟨h₂.frame.trans h₁.frame, h₁.entries.trans h₂.entries⟩

omit [NameLimit] in
theorem Goes.le (h : d.Goes d') : (d.surroundings I).Le (d'.surroundings I) :=
  surroundings_le h.frame h.entries

omit [NameLimit] in
theorem Goes.decls (h : d.Goes d') : d.decls ⊆ d'.decls := ModuleBuilder.sectionOf_subset h.entries _

omit [NameLimit] in
theorem Goes.fragment (h : d.Goes d') : d'.fragment = d.fragment := by
  rw [Draft.fragment, Draft.fragment, eq_of_view Draft.frame Draft.model (fun _ => rfl) h.frame]

omit [NameLimit] in
theorem Gives.mono (hg : d.Goes d') (hΓ : Γ ⊆ Γ') (h : d.Gives p Γ out x) : d'.Gives p Γ' out x := by
  obtain ⟨v, hk, hv⟩ := h
  refine ⟨v, (hk.mono hg.le).weaken hΓ, ?_⟩
  rw [hg.fragment]
  exact hv

omit [NameLimit] in
theorem Flows.mono (hg : d.Goes d') (hΓ : Γ ⊆ Γ') (h : d.Flows p Γ q x) : d'.Flows p Γ' q x := by
  obtain ⟨v, hk, hv⟩ := h
  refine ⟨v, (hk.mono hg.le).weaken hΓ, ?_⟩
  rw [hg.fragment]
  exact hv

omit [NameLimit] in
/-- A value that was found is found behind new ones for other ports. -/
theorem lookup_append {vs l : List (PortId × UInt32)} (hnew : ∀ e ∈ vs, l.lookup e.1 = none)
    (hx : l.lookup out = some x) : (vs ++ l).lookup out = some x := by
  rw [List.lookup_append]
  have hnone : vs.lookup out = none := by
    rw [List.lookup_eq_none_iff]
    intro e he
    have hne : out ≠ e.1 := by
      rintro rfl
      rw [hnew e he] at hx
      cases hx
    simpa using hne
  rw [hnone]
  exact hx

omit [NameLimit] in
/-- New values for other ports leave the ports fed. -/
theorem Fed.mono {vs : List (PortId × UInt32)} (h : d.Fed p Γ q) (hg : d.Goes d') (hΓ : Γ ⊆ Γ')
    (hvs : d'.values = vs ++ d.values) (hnew : ∀ e ∈ vs, d.values.lookup e.1 = none) :
    d'.Fed p Γ' q := by
  intro out ho hv
  obtain ⟨x, hx, hgives⟩ := h out ho hv
  exact ⟨x, by rw [hvs]; exact lookup_append hnew hx, hgives.mono hg hΓ⟩

omit [NameLimit] in
theorem Ready.mono {vs : List (PortId × UInt32)} (h : d.Ready p Γ i) (hg : d.Goes d')
    (hΓ : Γ ⊆ Γ') (hvs : d'.values = vs ++ d.values)
    (hnew : ∀ e ∈ vs, d.values.lookup e.1 = none) : d'.Ready p Γ' i := by
  intro n hn out ho port hport hc hv
  obtain ⟨x, hx, hgives⟩ := h n hn out ho port hport hc hv
  exact ⟨x, by rw [hvs]; exact lookup_append hnew hx, hgives.mono hg hΓ⟩

omit [NameLimit] in
theorem Receives.mono {vs : List (PortId × UInt32)} {v : I.Value} (h : d.Receives p Γ q v)
    (hg : d.Goes d') (hΓ : Γ ⊆ Γ') (hvs : d'.values = vs ++ d.values)
    (hnew : ∀ e ∈ vs, d.values.lookup e.1 = none) : d'.Receives p Γ' q v := by
  rw [Receives] at h ⊢
  split at h
  · obtain ⟨x, hx, hk⟩ := h
    exact ⟨x, by rw [hvs]; exact lookup_append hnew hx, (hk.mono hg.le).weaken hΓ⟩
  · exact h

theorem Fed.quiet (hq : d.Quiet d') (h : d.Fed p Γ q) : d'.Fed p Γ q :=
  h.mono hq.goes (List.Subset.refl _) (hq.values.trans (List.nil_append _).symm) fun _ hm => by cases hm

theorem Receives.quiet {v : I.Value} (hq : d.Quiet d') (h : d.Receives p Γ q v) : d'.Receives p Γ q v :=
  h.mono hq.goes (List.Subset.refl _) (hq.values.trans (List.nil_append _).symm) fun _ hm => by cases hm

theorem Receives.reserves {R : List UInt32} {v : I.Value} (r : d.Reserves R [(out, x)] d')
    (hnew : d.values.lookup out = none) (h : d.Receives p Γ q v) : d'.Receives p Γ q v := by
  refine h.mono r.goes (List.Subset.refl _) r.values fun e he => ?_
  rw [List.mem_singleton.1 he]
  exact hnew

omit [NameLimit] in
/-- The producer of a port is one of the outputs of a node. -/
theorem Ready.fed (hp : p.Planned) {j : Nat} (h : d.Ready p Γ j)
    (hj : p.graph.producerPosition? q = some j) : d.Fed p Γ q := by
  intro out hout hv
  obtain ⟨_, _, po, k, m, -, -, -, -, -, -, hpo, -, hc, hm, ho, hk⟩ := hp.consistent.producer?_some hout
  rw [hj] at hk
  cases hk
  exact h m hm out ho po hpo hc hv

omit [NameLimit] in
/-- The types at both ends of an edge are the same. -/
theorem typeOf_producer (hp : p.Planned) (h : p.graph.producer? q = some out) :
    p.typeOf out = p.typeOf q := by
  obtain ⟨_, e, _, _, _, -, -, -, he, rfl, rfl, -⟩ := hp.consistent.producer?_some h
  exact hp.typed.edges e he

omit [NameLimit] in
/-- What flows into a port that is fed. -/
theorem Fed.receives (hp : p.Planned) (h : d.Fed p Γ q) (hv : (p.typeOf q).isValue = true) :
    ∃ v, d.Receives p Γ q v ∧ (p.Exact I → p.graph.Supplies p.typeOf d.fragment q v) := by
  cases hout : p.graph.producer? q with
  | some out =>
    have ht := typeOf_producer hp hout
    obtain ⟨x, hx, v, hk, hden⟩ := h out hout (by rw [ht]; exact hv)
    rw [ht] at hk
    exact ⟨v, by rw [Receives, hout]; exact ⟨x, hx, hk⟩, fun he => (hden he).supplies hout⟩
  | none => exact ⟨_, by rw [Receives, hout], fun _ => Graph.supplies_open hout⟩

omit [NameLimit] in
/-- A node computes the value of a port. -/
theorem Gives.of_node {v : I.Value} (hp : p.Planned) (hn : p.graph.nodes[i]? = some n)
    (ho : out ∈ n.outputs)
    (hk : Known (d.surroundings I) Γ x (p.typeOf out).shape (.value v))
    (h : p.Exact I → ∃ N, ∀ fuel ≥ N, p.graph.nodeValue I p.typeOf d.fragment
      (p.graph.inputAt I p.typeOf d.fragment fuel) n out = some v) : d.Gives p Γ out x := by
  refine ⟨v, hk, fun he => ?_⟩
  obtain ⟨N, hN⟩ := h he
  exact Graph.denotes_of_node
    (hp.consistent.ownerPosition?_of_mem hn (show out ∈ n.portsOf .output from ho)) hn hN

/-- **A step that writes a node**: code that leaves the node ready.  Only ports of nodes within it get
values. -/
structure Writes (d : Draft) (p : StagePlan) (Γ : Context I) (i : Nat) (c : Code)
    (vs : List (PortId × UInt32)) (d' : Draft) (Γ' : Context I) (o : List (Output I.Value)) :
    Prop where
  emits : d.Emits Γ [] c vs d' Γ' o
  ready : d'.Ready p Γ' i
  owned : ∀ e ∈ vs, p.Owns i e.1

/-- A node with one output port that gets its value. -/
theorem Writes.one {c : Code} {o : List (Output I.Value)} (hn : p.graph.nodes[i]? = some n)
    (hout : n.outputs = [out]) (he : d.Emits Γ [] c [(out, x)] d' Γ' o)
    (hg : d'.Gives p Γ' out x) : d.Writes p Γ i c [(out, x)] d' Γ' o where
  emits := he
  ready := by
    intro m hm out' ho _ _ _ _
    rw [hn] at hm
    cases hm
    rw [hout, List.mem_singleton] at ho
    subst ho
    refine ⟨x, ?_, hg⟩
    rw [he.values]
    exact List.lookup_cons_self
  owned := by
    intro e hm
    rw [List.mem_singleton.1 hm]
    exact ⟨i, n, .self, hn, by rw [hout]; exact List.mem_singleton_self _⟩

/-- A node whose output ports have no values. -/
theorem Writes.none {c : Code} {o : List (Output I.Value)} (hn : p.graph.nodes[i]? = some n)
    (hout : ∀ out ∈ n.outputs, (p.typeOf out).isValue = false) (he : d.Emits Γ [] c [] d' Γ' o) :
    d.Writes p Γ i c [] d' Γ' o where
  emits := he
  ready := by
    intro m hm out ho _ _ _ hv
    rw [hn] at hm
    cases hm
    rw [hout out ho] at hv
    cases hv
  owned := fun e hm => by cases hm

omit [NameLimit] in
/-- Operands as a whole, with their values and what these mean. -/
theorem operands_of_flows {qs : List PortId} {xs : List UInt32}
    (h : List.Forall₂ (d.Flows p Γ) qs xs) :
    ∃ vs : List I.Value,
      Operands (d.surroundings I) Γ xs ((qs.map fun q => (p.typeOf q).shape).zip vs) ∧
      vs.length = qs.length ∧
      (p.Exact I → List.Forall₂ (p.graph.Supplies p.typeOf d.fragment) qs vs) := by
  induction h with
  | nil => exact ⟨[], .nil, rfl, fun _ => .nil⟩
  | cons hq _ ih =>
    obtain ⟨v, hk, hv⟩ := hq
    obtain ⟨vs, hks, hlen, hvs⟩ := ih
    exact ⟨v :: vs, .cons hk hks, by simp [hlen], fun he => .cons (hv he) (hvs he)⟩

end Draft

namespace Drafting

variable {P : List UInt32} {u : Unit}

/-- The identifier of a value that flows into an input port. -/
theorem operand_receives {v : I.Value} (hs : d.Sound P) (hq : d.Receives p Γ q v)
    (hv : (p.typeOf q).isValue = true) (h : Draws (operand p q) d x d') :
    d.Quiet d' ∧ Known (d'.surroundings I) Γ x (p.typeOf q).shape (.value v) := by
  rw [operand] at h
  rw [Draft.Receives] at hq
  cases hout : p.graph.producer? q with
  | some out =>
    rw [hout] at h hq
    obtain ⟨y, hy, hk⟩ := hq
    obtain ⟨rfl, rfl⟩ := resultId_found hy h
    exact ⟨.refl _, hk⟩
  | none =>
    rw [hout] at h hq
    obtain rfl : v = I.null (p.typeOf q).shape := hq
    obtain ⟨t, d₁, ht, h⟩ := draws_bind.1 h
    obtain ⟨-, q₁, ht⟩ := typeOf_spec hs ht
    obtain ⟨q₂, hx⟩ := constantNull_spec (I := I) (q₁.sound P hs) ht
      (ValueType.shape_component_isScalar hv) h
    exact ⟨q₁.trans q₂, .inr hx⟩

/-- **What flows into an input port.** -/
theorem operand_spec (hp : p.Planned) (hs : d.Sound P) (hf : d.Fed p Γ q)
    (hv : (p.typeOf q).isValue = true) (h : Draws (operand p q) d x d') :
    d.Quiet d' ∧ d'.Flows p Γ q x := by
  obtain ⟨v, hc, hsup⟩ := hf.receives hp hv
  obtain ⟨hq, hk⟩ := operand_receives hs hc hv h
  exact ⟨hq, v, hk, by rw [hq.goes.fragment]; exact hsup⟩

/-- What flows into several input ports. -/
theorem operands_spec (hp : p.Planned) (hs : d.Sound P) {qs : List PortId} {xs : List UInt32}
    (hf : ∀ q ∈ qs, d.Fed p Γ q) (hv : ∀ q ∈ qs, (p.typeOf q).isValue = true)
    (h : Draws (qs.mapM (operand p)) d xs d') :
    d.Quiet d' ∧ List.Forall₂ (d'.Flows p Γ) qs xs :=
  mapM_quiet (R := fun d q x => d.Flows p Γ q x)
    (fun _ _ _ _ hq hR => hR.mono hq.goes (List.Subset.refl _))
    (fun q hq _ _ _ hd hx => operand_spec hp (hd.sound P hs) ((hf q hq).quiet hd) (hv q hq) hx)
    (.refl d) h

end Drafting

end NodeShader
