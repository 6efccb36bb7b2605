import NodeShader.Proofs.Stage.Showing
import NodeShader.Proofs.Stage.Vectors

/-!
# Conditions that are known

A conditional whose condition is an open input, a constant, or a comparison of constants has one live
arm, and the other is never looked at.  That is right as far as comparisons of constants come out at
run time as they do beforehand (`Interpretation.Agrees`).

* `known_condition`: a condition that is known has that outcome in the meaning of the graph.
* `live_arm`: so the live arm is the one the condition chooses.
-/

namespace NodeShader

open Spirv

variable {I : Interpretation} {p : StagePlan} {i : Nat} {n : Node} {q : PortId} {fragment : Bool}

/-- A value with a single component. -/
theorem ValueType.size_withSize_one {t : ValueType} (h : (t.withSize 1).isValue = true) :
    (t.withSize 1).size = 1 := by
  by_cases hn : t.isNumeric = true
  · exact (withSize_shape (k := 1) hn (by decide) (by decide)).2.1
  · rw [withSize, if_neg (by decide), if_neg hn] at h ⊢
    by_cases ht : t.isTexture = true
    · rw [if_pos ht, if_neg (by decide)] at h
      exact absurd h (by decide)
    · rw [if_neg ht] at h ⊢
      by_cases hb : t = bool ∧ (1 : Int) = 1
      · rw [if_pos hb]
        decide
      · rw [if_neg hb] at h
        exact absurd h (by decide)

/-- A port without a feeding node has no producer. -/
theorem Graph.Consistent.producer?_none {g : Graph} (hg : g.Consistent)
    (h : (g.producerPosition? q).bind (g.nodes[·]?) = none) : g.producer? q = none := by
  cases hout : g.producer? q with
  | none => rfl
  | some out =>
    obtain ⟨_, _, _, j, m, -, -, -, -, -, -, -, -, -, hm, -, hj⟩ := hg.producer?_some hout
    rw [hj, Option.bind_some, hm] at h
    cases h

namespace Graph

variable {g : Graph} {τ : PortId → ValueType} {j : Nat}

/-- The output port that feeds an input port, and its type. -/
theorem Typed.feeding (ht : g.Typed τ) (hg : g.Consistent) (hj : g.producerPosition? q = some j)
    (hn : g.nodes[j]? = some n) : ∃ out ∈ n.outputs, g.producer? q = some out ∧ τ out = τ q := by
  cases hout : g.producer? q with
  | none =>
    rw [producerPosition?, hout] at hj
    cases hj
  | some out =>
    obtain ⟨_, e, _, k, m, -, -, -, he, rfl, rfl, -, -, -, hm, ho, hk⟩ := hg.producer?_some hout
    rw [hj] at hk
    cases hk
    rw [hn] at hm
    cases hm
    exact ⟨_, ho, rfl, ht.edges e he⟩

/-- A constant has one output, of the type of its numbers. -/
theorem Typed.constant (ht : g.Typed τ) (hg : g.Consistent) (hn : g.nodes[j]? = some n)
    (hk : n.kind = .constant) : ∃ values scalar out, n.params = .constant values scalar ∧
      n.outputs = [out] ∧ τ out = constantType values scalar ∧ (τ out).isValue = true := by
  cases ht.fits hg hn with
  | constant _ hparams hout hto hv => exact ⟨_, _, _, hparams, hout, hto, hv⟩
  | arithmetic hop =>
    rw [hk] at hop
    cases hop
  | _ hk' =>
    rw [hk] at hk'
    cases hk'

/-- A comparison has two operands of one type, single numbers, and a truth value for output. -/
theorem Typed.comparison (ht : g.Typed τ) (hg : g.Consistent) (hn : g.nodes[j]? = some n)
    (hk : n.kind = .compare) : ∃ test a b out, n.params = .compare test ∧ n.inputs = [a, b] ∧
      n.outputs = [out] ∧ τ a ∈ [ValueType.float, .half, .int] ∧ τ b = τ a ∧ τ out = .bool := by
  cases ht.fits hg hn with
  | compare _ hparams hin hout hta htb hto => exact ⟨_, _, _, _, hparams, hin, hout, hta, htb, hto⟩
  | arithmetic hop =>
    rw [hk] at hop
    cases hop
  | _ hk' =>
    rw [hk] at hk'
    cases hk'

/-- A constant of one number that feeds an input port. -/
theorem Typed.feeding_constant (ht : g.Typed τ) (hg : g.Consistent) (hj : g.producerPosition? q = some j)
    (hn : g.nodes[j]? = some n) (hk : n.kind = .constant) {v : Float} {scalar : ValueType}
    (hparams : n.params = .constant [v] scalar) : constantType [v] scalar = τ q ∧ (τ q).size = 1 := by
  obtain ⟨out, hmem, -, htype⟩ := ht.feeding hg hj hn
  obtain ⟨values, scalar', o, hparams', hout, hto, hv⟩ := ht.constant hg hn hk
  rw [hparams] at hparams'
  cases hparams'
  rw [hout, List.mem_singleton] at hmem
  rw [← htype, hmem, hto]
  rw [hto] at hv
  exact ⟨rfl, ValueType.size_withSize_one hv⟩

end Graph

namespace StagePlan

/-- What the feeding node of a port computes flows into it. -/
theorem Planned.supplies_of_node {N : Nat} {v : I.Value} (hp : p.Planned)
    (h : (p.graph.producerPosition? q).bind (p.graph.nodes[·]?) = some n)
    (hv : ∀ out ∈ n.outputs, p.typeOf out = p.typeOf q → ∀ fuel ≥ N, p.graph.nodeValue I p.typeOf
      fragment (p.graph.inputAt I p.typeOf fragment fuel) n out = some v) :
    p.graph.Supplies p.typeOf fragment q v := by
  obtain ⟨j, hj, hn⟩ := Option.bind_eq_some_iff.1 h
  obtain ⟨out, ho, hout, htype⟩ := hp.typed.feeding hp.consistent hj hn
  have hdenotes : p.graph.Denotes p.typeOf fragment out v := Graph.denotes_of_node
    (hp.consistent.ownerPosition?_of_mem hn (show out ∈ n.portsOf .output from ho)) hn
    (hv out ho htype)
  exact hdenotes.supplies hout

/-- **A constant that flows into a port.** -/
theorem Planned.constant_supplies {x : Float} (hp : p.Planned) (fragment : Bool)
    (h : p.graph.scalarConstant? q = some x) :
    ∃ v, p.graph.constantInput? I p.typeOf q = some v ∧ p.graph.Supplies p.typeOf fragment q v := by
  rcases Graph.scalarConstant?_eq_some h with ⟨hn, -⟩ | ⟨n, v, scalar, hn, hk, hparams, -⟩
  · exact ⟨_, Graph.constantInput?_open hn, Graph.supplies_open (hp.consistent.producer?_none hn)⟩
  · obtain ⟨j, hj, hnode⟩ := Option.bind_eq_some_iff.1 hn
    obtain ⟨htype, hsize⟩ := hp.typed.feeding_constant hp.consistent hj hnode hk hparams
    refine ⟨_, Graph.constantInput?_constant hn hk hparams,
      hp.supplies_of_node hn (N := 0) fun out _ hto fuel _ => ?_⟩
    simp only [Graph.nodeValue, hk, hparams, Graph.operationOf, hto, htype, Interpretation.numbers, hsize]
    rfl

/-- **A condition that is known** has that outcome in the meaning of the graph. -/
theorem Planned.known_condition {holds : Bool} (hp : p.Planned) (fragment : Bool)
    (he : I.Agrees p.graph p.typeOf) (ht : p.typeOf q = .bool) (h : p.graph.knownCondition? q = some holds) :
    ∃ v, p.graph.Supplies p.typeOf fragment q v ∧ I.truth v = holds := by
  rw [Graph.knownCondition?] at h
  cases hn : (p.graph.producerPosition? q).bind (p.graph.nodes[·]?) with
  | none =>
    rw [hn] at h
    cases h
    refine ⟨_, Graph.supplies_open (hp.consistent.producer?_none hn), ?_⟩
    rw [ht]
    exact I.truth_ofBool false
  | some n =>
    rw [hn] at h
    dsimp only at h
    obtain ⟨j, -, hj⟩ := Option.bind_eq_some_iff.1 hn
    split at h
    · rename_i v rest scalar hk hparams
      cases h
      refine ⟨_, hp.supplies_of_node hn (N := 0) fun out ho hto fuel _ => ?_, I.truth_ofBool (v != 0)⟩
      simp only [Graph.nodeValue, hk, hparams, Graph.operationOf, hto, ht]
      rfl
    · rename_i test a b rest hk hparams hin
      simp only [Option.bind_eq_bind, Option.bind_eq_some_iff] at h
      obtain ⟨x, hx, y, hy, h⟩ := h
      cases h
      obtain ⟨v, hcv, N, hN⟩ := hp.constant_supplies (I := I) fragment hx
      obtain ⟨w, hcw, M, hM⟩ := hp.constant_supplies (I := I) fragment hy
      obtain ⟨_, _, _, _, -, hin', -⟩ := hp.typed.comparison hp.consistent hj hk
      rw [hin'] at hin
      cases hin
      cases hop : test.instruction? (p.typeOf a).isInt with
      | some op =>
        refine ⟨I.apply op [] .bool [v, w], hp.supplies_of_node hn (N := max N M)
          fun out ho hto fuel hfuel => ?_, ?_⟩
        · simp only [Graph.nodeValue, hk, hparams, hin', Graph.operationOf, hN fuel (by omega),
            hM fuel (by omega), hop]
          rfl
        · exact he n (Array.mem_toList_iff.2 (Array.mem_of_getElem? hj)) test a b op x y v w hk
            hparams hin' hop hx hcv hy hcw
      | none =>
        refine ⟨I.ofBool false, hp.supplies_of_node hn (N := max N M)
          fun out ho hto fuel hfuel => ?_, ?_⟩
        · simp only [Graph.nodeValue, hk, hparams, hin', Graph.operationOf, hN fuel (by omega),
            hM fuel (by omega), hop]
          rfl
        rw [I.truth_ofBool]
        cases test <;> cases hint : (p.typeOf a).isInt <;> rw [hint] at hop <;> cases hop
        all_goals rfl
    · cases h

/-- **The live arm** is the one that the condition chooses. -/
theorem Planned.live_arm {c : PortId} {rest : List PortId} {live : Int} (hp : p.Planned) (fragment : Bool)
    (hn : p.graph.nodes[i]? = some n) (hin : n.inputs = c :: rest) (ht : p.typeOf c = .bool)
    (h : p.labels.liveArm i = some live) :
    (live = 0 ∨ live = 1) ∧ (I.Agrees p.graph p.typeOf →
      ∃ v, p.graph.Supplies p.typeOf fragment c v ∧ (I.truth v = true ↔ live = 0)) := by
  rw [Labels.liveArm, show p.labels.node? i = some n from hn] at h
  dsimp only at h
  split at h
  · rw [hp.live, Graph.foldCondition, hn, Option.bind_eq_bind, Option.bind_some] at h
    split at h
    · cases h
    · rw [hin, List.head?_cons, Option.bind_eq_bind, Option.bind_some] at h
      obtain ⟨holds, hh, h⟩ := Option.bind_eq_some_iff.1 h
      cases h
      refine ⟨by cases holds <;> simp, fun he => ?_⟩
      obtain ⟨v, hv, htruth⟩ := hp.known_condition fragment he ht hh
      refine ⟨v, hv, ?_⟩
      rw [htruth]
      cases holds <;> simp
  · cases h

end StagePlan

end NodeShader

/-!
## What a list of nodes waits for

The code of a list of nodes, shared or of an arm, is written in the order of the schedule.  By then
whatever feeds the nodes from outside of the list is ready, and nothing within them has a value
(`Draft.Awaits`).  This is the invariant that carries the code generator through lists and arms.

* `Awaits.fed`: so the inputs of the first node are fed.
* `Awaits.next`: once the first node is written, the rest of the list may go on.
* `Awaits.arm`: while a conditional is written, its arms may.
-/

namespace NodeShader

open Spirv

variable [NameLimit] {I : Interpretation} {p : StagePlan} {d d' : Draft} {Γ Γ' : Context I} {i j : Nat}
  {l : List Nat} {n : Node} {q : PortId} {port : Port} {vs : List (PortId × UInt32)}

/-- **What the code of a list of nodes waits for**: the draft serves the nodes of the stage, what
feeds the list from outside is ready, and no port of a node within the list has a value. -/
structure Draft.Awaits (d : Draft) (p : StagePlan) (Γ : Context I) (l : List Nat) : Prop where
  furnished : d.Furnished p
  serves : ∀ i ∈ p.order, ∃ n, p.graph.nodes[i]? = some n ∧ d.Serves p i n
  ready : ∀ i ∈ l, ∀ j ∈ p.order, p.rank j < p.rank i → p.home j = none ∨ p.home j = p.home i →
    j ∈ l ∨ d.Ready p Γ j
  fresh : ∀ i ∈ l, ∀ out, p.Owns i out → d.values.lookup out = none

omit [NameLimit] in
/-- Nodes other than conditionals need all their inputs. -/
theorem Labels.needs_ordinary {lb : Labels} (hn : lb.graph.nodes[i]? = some n)
    (hk : n.kind ≠ .conditional) (arm : Int) : lb.needs i arm = true := by
  have hbranch : n.kind.isBranching = false := by
    cases h : n.kind with
    | conditional => exact absurd h hk
    | _ => rfl
  rw [needs, liveArm, show lb.node? i = some n from hn]
  simp only [hbranch, Bool.false_eq_true, if_false]

namespace Draft

omit [NameLimit] in
/-- Values of other ports leave a list waiting. -/
theorem Awaits.mono (ha : d.Awaits p Γ l) (g : d.Goes d') (hΓ : Γ ⊆ Γ')
    (hvs : d'.values = vs ++ d.values) (hnew : ∀ e ∈ vs, d.values.lookup e.1 = none)
    (hown : ∀ e ∈ vs, ∀ i ∈ l, ¬ p.Owns i e.1) : d'.Awaits p Γ' l where
  furnished := ha.furnished.mono g.entries g.frame
  serves := fun i hi => (ha.serves i hi).imp fun _ hn => ⟨hn.1, hn.2.frame g.frame⟩
  ready := fun i hi j hj hlt hh => (ha.ready i hi j hj hlt hh).imp id fun hr =>
    hr.mono g hΓ hvs hnew
  fresh := by
    intro i hi out ho
    rw [hvs, List.lookup_append, ha.fresh i hi out ho, Option.or_none, List.lookup_eq_none_iff]
    intro e he
    have hne : out ≠ e.1 := fun h => hown e he i hi (h ▸ ho)
    simpa using hne

omit [NameLimit] in
/-- Code that gives no values leaves a list waiting. -/
theorem Awaits.still (ha : d.Awaits p Γ l) (g : d.Goes d') (hv : d'.values = d.values) :
    d'.Awaits p Γ l :=
  ha.mono g (List.Subset.refl _) (hv.trans (List.nil_append _).symm)
    (List.forall_mem_nil _) (List.forall_mem_nil _)

omit [NameLimit] in
/-- What comes before the first node of a list, in the shared part or in its home, is ready. -/
theorem Awaits.ready_before (ha : d.Awaits p Γ (i :: l)) (hl : p.Listing (i :: l))
    (hj : j ∈ p.order) (hlt : p.rank j < p.rank i) (hh : p.home j = none ∨ p.home j = p.home i) :
    d.Ready p Γ j := by
  rcases ha.ready i List.mem_cons_self j hj hlt hh with hm | hr
  · rcases List.mem_cons.1 hm with rfl | hm
    · exact absurd hlt (Nat.lt_irrefl _)
    · exact absurd (Nat.lt_trans hlt (hl.rank_lt hm)) (Nat.lt_irrefl _)
  · exact hr

omit [NameLimit] in
/-- An input that is needed is fed if what feeds it is shared or in the home of its node. -/
theorem Awaits.fed_of_home (hp : p.Planned) (ha : d.Awaits p Γ (i :: l))
    (hl : p.Listing (i :: l)) (hn : p.graph.nodes[i]? = some n)
    (hforeign : p.labels.isForeignRoot i = false) (hq : q ∈ n.inputs)
    (hport : p.graph.port? q = some port) (hneeds : p.labels.needs i port.arm = true)
    (hh : ∀ j, ⟨j, port.arm⟩ ∈ p.labels.feeds i → p.home j = none ∨ p.home j = p.home i) :
    d.Fed p Γ q := by
  cases hj : p.graph.producerPosition? q with
  | none =>
    intro out hout _
    obtain ⟨_, _, _, k, _, -, -, -, -, -, -, -, -, -, -, -, hk⟩ := hp.consistent.producer?_some hout
    rw [hj] at hk
    cases hk
  | some j =>
    have hf : ⟨j, port.arm⟩ ∈ p.labels.feeds i :=
      Labels.mem_feeds.2 ⟨n, q, port, hn, hforeign, hq, hj, hport, rfl, hneeds⟩
    obtain ⟨hmem, hlt⟩ := hp.before i (hl.mem i List.mem_cons_self) _ hf
    exact (ha.ready_before hl hmem hlt (hh j hf)).fed hp hj

omit [NameLimit] in
/-- **The ordinary inputs of the first node of a list are fed.** -/
theorem Awaits.fed (hp : p.Planned) (ha : d.Awaits p Γ (i :: l)) (hl : p.Listing (i :: l))
    (hn : p.graph.nodes[i]? = some n) (hforeign : p.labels.isForeignRoot i = false)
    (hq : q ∈ n.inputs) (hport : p.graph.port? q = some port) (harm : port.arm < 0)
    (hneeds : p.labels.needs i port.arm = true) : d.Fed p Γ q :=
  ha.fed_of_home hp hl hn hforeign hq hport hneeds fun _ hf =>
    Labels.home_ordinary ((hp.mem_order i).1 (hl.mem i List.mem_cons_self)) hf harm

omit [NameLimit] in
/-- All inputs are fed where there are no arms. -/
theorem Awaits.fed_all (hp : p.Planned) (ha : d.Awaits p Γ (i :: l)) (hl : p.Listing (i :: l))
    (hn : p.graph.nodes[i]? = some n) (hforeign : p.labels.isForeignRoot i = false)
    (hk : n.kind ≠ .conditional) : ∀ q ∈ n.inputs, d.Fed p Γ q := by
  intro q hq
  obtain ⟨port, hport, -⟩ := hp.consistent.input_port hn hq
  have harm := Graph.ordinary_port hp.consistent hn hk hq hport
  exact ha.fed hp hl hn hforeign hq hport (by omega) (Labels.needs_ordinary hn hk _)

/-- **Once the first node is written, the rest of the list waits.** -/
theorem Awaits.next {c : Code} {o : List (Output I.Value)} (hp : p.Planned)
    (ha : d.Awaits p Γ (i :: l)) (hl : p.Listing (i :: l)) (w : d.Writes p Γ i c vs d' Γ' o) :
    d'.Awaits p Γ' l := by
  have hnew : ∀ e ∈ vs, d.values.lookup e.1 = none := fun e he =>
    ha.fresh i List.mem_cons_self e.1 (w.owned e he)
  have g := w.emits.goes
  refine ⟨ha.furnished.mono g.entries g.frame,
    fun i hi => (ha.serves i hi).imp fun _ hn => ⟨hn.1, hn.2.frame g.frame⟩, ?_, ?_⟩
  · intro i' hi' j hj hlt hh
    rcases ha.ready i' (List.mem_cons_of_mem _ hi') j hj hlt hh with hm | hr
    · rcases List.mem_cons.1 hm with rfl | hm
      · exact .inr w.ready
      · exact .inl hm
    · exact .inr (hr.mono g w.emits.runs.subset w.emits.values hnew)
  · intro i' hi' out ho
    rw [w.emits.values, List.lookup_append, ha.fresh i' (List.mem_cons_of_mem _ hi') out ho,
      Option.or_none, List.lookup_eq_none_iff]
    intro e he
    have hne : out ≠ e.1 := by
      rintro rfl
      have hlt := hl.rank_lt hi'
      refine StagePlan.Owns.disjoint hp (fun h => ?_)
        (hl.home i List.mem_cons_self i' (List.mem_cons_of_mem _ hi')) (w.owned e he) ho
      rw [h] at hlt
      exact Nat.lt_irrefl _ hlt
    simpa using hne

omit [NameLimit] in
/-- **While a conditional is written, its arms wait.** -/
theorem Awaits.arm (hp : p.Planned) (ha : d.Awaits p Γ (i :: l)) (hl : p.Listing (i :: l))
    (k : Int) : d.Awaits p Γ (p.members (some ⟨i, k⟩)) where
  furnished := ha.furnished
  serves := ha.serves
  ready := by
    intro i' hi' j hj hlt hh
    have hhome := (StagePlan.Planned.mem_members.1 hi').2
    rcases hh with hh | hh
    · have hbefore : p.rank i' < p.rank i := (hp.home_before hhome).2.2
      exact .inr (ha.ready_before hl hj (Nat.lt_trans hlt hbefore) (.inl hh))
    · exact .inl (StagePlan.Planned.mem_members.2 ⟨hj, hh.trans hhome⟩)
  fresh := by
    intro i' hi' out ho
    exact ha.fresh i List.mem_cons_self out (ho.arm (StagePlan.Planned.mem_members.1 hi').2)

end Draft

end NodeShader
