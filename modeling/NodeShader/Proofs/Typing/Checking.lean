import Mathlib
import NodeShader.Proofs.Typing.Solutions

/-!
# Well-typed assignments

What it means for an assignment to be well-typed, said about the ports of each kind of node and not
about constraints and domains:

* `Node.TypesAgree`: what a node asks of the types of its ports, kind by kind.
* `Graph.TypesAgree`: every port has a declared type, both ends of an edge have one type, and every
  node has what it asks for.
* `Graph.Consistent.satisfied_iff`: **the rules of a node say what its kind asks for**.
* `Graph.Built.checkTypes_typesAgree`: **checking accepts exactly the well-typed assignments**.
-/

namespace NodeShader

/-- **What a node asks of the types of its ports.** -/
def Node.TypesAgree (g : Graph) (τ : PortId → ValueType) (n : Node) : Prop :=
  match n.kind with
  | .add | .subtract | .multiply | .divide | .min | .max | .power
  | .negate | .abs | .floor | .fract | .sqrt | .sin | .cos | .normalize
  | .mix | .mathExpression =>
    ∀ p ∈ n.inputs ++ n.outputs, ∀ q ∈ n.inputs ++ n.outputs, τ p = τ q
  | .conditional => ∃ condition a b out, n.inputs = [condition, a, b] ∧ n.outputs = [out] ∧
      τ a = τ b ∧ τ b = τ out
  | .compare => ∃ a b, n.inputs = [a, b] ∧ τ a = τ b
  | .dot => ∃ a b out, n.inputs = [a, b] ∧ n.outputs = [out] ∧ τ a = τ b ∧
      τ out = (τ a).scalar
  | .length => ∃ a out, n.inputs = [a] ∧ n.outputs = [out] ∧ τ out = (τ a).scalar
  | .swizzle => ∃ selector selected a out, n.params = .swizzle selector ∧
      selectorComponents? selector = some selected ∧ n.inputs = [a] ∧ n.outputs = [out] ∧
      (∀ k ∈ selected, k < (τ a).size) ∧ (τ out).scalar = (τ a).scalar ∧
      (τ out).size = selected.length
  | .combine => ∃ out, n.outputs = [out] ∧ (∀ q ∈ n.inputs, (τ q).scalar = (τ out).scalar) ∧
      total (fun q => (τ q).size) n.inputs = (τ out).size
  | .separate => ∃ a, n.inputs = [a] ∧ ∀ (k : Nat) (out : PortId), n.outputs[k]? = some out →
      τ out = (τ a).scalar ∧ ((∃ e ∈ g.edges.toList, e.source = out) → k < (τ a).size)
  | .sample => ∃ field position, n.inputs = [field, position] ∧
      (τ position).size = (τ field).size
  | _ => True

/-- **Types that fit a graph.** -/
structure Graph.TypesAgree (g : Graph) (τ : PortId → ValueType) : Prop where
  declared : ∀ q p, g.port? q = some p → p.type.Mem (τ q)
  edges : ∀ e ∈ g.edges.toList, τ e.source = τ e.target
  nodes : ∀ n ∈ g.nodes.toList, n.TypesAgree g τ

/-! ### Families and sizes -/

/-- A numeric type is known by its family and its size. -/
theorem ValueType.eq_withSize_iff {t u : ValueType} {k : Nat} (ht : t.isNumeric = true)
    (hu : u.isNumeric = true) (h₁ : 1 ≤ k) (h₄ : k ≤ 4) :
    u = t.withSize k ↔ u.scalar = t.scalar ∧ u.size = k := by
  have hall : ∀ t ∈ values, ∀ u ∈ values, t.isNumeric = true → u.isNumeric = true →
      ∀ k ∈ List.range' 1 4, u = t.withSize (k : Nat) ↔ u.scalar = t.scalar ∧ u.size = k := by
    decide +kernel
  exact hall t (mem_values (isValue_of_isNumeric ht)) u (mem_values (isValue_of_isNumeric hu)) ht hu k
    (List.mem_range'_1.2 ⟨h₁, by omega⟩)

/-- The largest component of a list is below what all are below. -/
theorem Graph.foldl_max_lt_iff {ks : List Nat} {m b : Nat} :
    ks.foldl Nat.max m < b ↔ m < b ∧ ∀ k ∈ ks, k < b := by
  induction ks generalizing m with
  | nil => simp
  | cons a ks ih =>
    rw [List.foldl_cons, ih, List.forall_mem_cons, ← and_assoc]
    exact and_congr_left fun _ => Nat.max_lt

/-! ### What the rules say -/

namespace Rule

variable {τ : PortId → ValueType} {ports : List PortId} {p q r : PortId} {k : Nat}

theorem satisfied_pair_iff : (equal [p, q]).Satisfied τ ↔ τ p = τ q := by
  refine ⟨fun h => h p (by simp) q (by simp), fun h => ?_⟩
  simp [Satisfied, h]

theorem satisfied_triple_iff : (equal [p, q, r]).Satisfied τ ↔ τ p = τ q ∧ τ q = τ r := by
  refine ⟨fun h => ⟨h p (by simp) q (by simp), h q (by simp) r (by simp)⟩, fun ⟨hp, hq⟩ => ?_⟩
  simp [Satisfied, hp, hq]

theorem satisfied_scalarOf_iff : (scalarOf p q).Satisfied τ ↔ τ q = (τ p).scalar := Iff.rfl

theorem satisfied_minSize_iff : (minSize p k).Satisfied τ ↔ k < (τ p).size := Iff.rfl

theorem satisfied_resized_iff : (resized p q k).Satisfied τ ↔ τ q = (τ p).withSize k := Iff.rfl

theorem satisfied_sameDimension_iff :
    (sameDimension p q).Satisfied τ ↔ (τ q).size = (τ p).size := eq_comm

/-- The sizes of the inputs of a combination add up. -/
theorem satisfied_combine_iff : (combine (ports ++ [q])).Satisfied τ ↔
    (∀ p ∈ ports, (τ p).scalar = (τ q).scalar) ∧
      total (fun p => (τ p).size) ports = (τ q).size := by
  rw [Satisfied, List.map_append, List.map_singleton, combinesTuple, List.getLast?_concat]
  simp only [List.dropLast_concat, combines, Bool.and_eq_true, List.all_eq_true, List.mem_map,
    forall_exists_index, and_imp, forall_apply_eq_imp_iff₂, decide_eq_true_eq, beq_iff_eq, total_map]

end Rule

namespace Graph

variable {g : Graph} {τ : PortId → ValueType} {a : TypeAssignment} {i : Nat} {n : Node}
  {rs : List Rule}

/-! ### Kind by kind -/

section Kinds

variable (hg : g.Consistent) (hτ : ∀ q p, g.port? q = some p → p.type.Mem (τ q))
  (hn : g.nodes[i]? = some n) (hrs : g.nodeRules n = .ok rs)

include hg hτ hn hrs

/-- The rules of a swizzle: its input has the selected components, its output as many. -/
theorem swizzle_satisfied_iff (hk : n.kind = .swizzle) :
    (∀ r ∈ rs, r.Satisfied τ) ↔ n.TypesAgree g τ := by
  obtain ⟨ins, outs, hs, hi, ho⟩ := (hg.node i n hn).ports
  rw [hk] at hs
  cases hp : n.params with
  | swizzle selector =>
    rw [hp] at hs
    simp only [portSpecs] at hs
    cases hks : selectorComponents? selector with
    | none => rw [hks] at hs; cases hs
    | some ks =>
      rw [hks] at hs
      cases hs
      obtain ⟨a, hin, ha⟩ := one_port (hi.types hτ)
      obtain ⟨out, hout, hm⟩ := one_port (ho.types hτ)
      rw [nodeRules, hk] at hrs
      simp only [hp, hin, hout, hks, Option.getD_some] at hrs
      cases hrs
      obtain ⟨h₁, h₄⟩ := selectorComponents?_length hks
      have hsize := ValueType.eq_withSize_iff (isNumeric_of_mem ha) (isNumeric_of_mem hm) h₁ h₄
      -- a selection is not empty, so a component below the size makes the size positive
      have htop : ks.foldl Nat.max 0 < (τ a).size ↔ ∀ k ∈ ks, k < (τ a).size := by
        rw [foldl_max_lt_iff]
        refine and_iff_right_of_imp fun hall => ?_
        obtain ⟨k, hkm⟩ := List.exists_mem_of_length_pos h₁
        exact Nat.lt_of_le_of_lt (Nat.zero_le k) (hall k hkm)
      rw [List.forall_mem_cons, List.forall_mem_singleton, Rule.satisfied_minSize_iff, htop,
        Rule.satisfied_resized_iff, hsize, Node.TypesAgree, hk]
      constructor
      · rintro ⟨hall, hout'⟩
        exact ⟨selector, ks, a, out, hp, hks, hin, hout, hall, hout'⟩
      · rintro ⟨_, _, _, _, hp', hks', hin', hout', hall, hsame⟩
        cases hp.symm.trans hp'
        cases hks.symm.trans hks'
        cases hin.symm.trans hin'
        cases hout.symm.trans hout'
        exact ⟨hall, hsame⟩
  | _ =>
    rw [hp] at hs
    cases hs

/-- The rule of a combination. -/
theorem combine_satisfied_iff (hk : n.kind = .combine) :
    (∀ r ∈ rs, r.Satisfied τ) ↔ n.TypesAgree g τ := by
  obtain ⟨ins, outs, hs, -, ho⟩ := (hg.node i n hn).ports
  rw [hk] at hs
  cases hp : n.params with
  | combine count =>
    rw [hp] at hs
    simp only [portSpecs] at hs
    split at hs
    · cases hs
    · cases hs
      obtain ⟨out, hout, -⟩ := one_port (ho.types hτ)
      rw [nodeRules, hk] at hrs
      cases hrs
      rw [List.forall_mem_singleton, hout, Rule.satisfied_combine_iff, Node.TypesAgree, hk]
      constructor
      · rintro ⟨hscalar, hsize⟩
        exact ⟨out, hout, hscalar, hsize⟩
      · rintro ⟨_, hout', hscalar, hsize⟩
        cases hout.symm.trans hout'
        exact ⟨hscalar, hsize⟩
  | _ =>
    rw [hp] at hs
    cases hs

/-- The rules of a separation: those of its outputs, one after the other. -/
theorem separate_satisfied_iff (hk : n.kind = .separate) :
    (∀ r ∈ rs, r.Satisfied τ) ↔ n.TypesAgree g τ := by
  obtain ⟨ins, outs, hs, hi, -⟩ := (hg.node i n hn).ports
  rw [hk] at hs
  obtain ⟨rfl, rfl⟩ := fixedSpecs hs
  obtain ⟨a, hin, -⟩ := one_port (hi.types hτ)
  rw [nodeRules, hk] at hrs
  obtain ⟨a', ha', hrs⟩ := bind_eq_ok.1 hrs
  rw [hin] at ha'
  cases ha'
  obtain ⟨rss, hrss, hrs⟩ := bind_eq_ok.1 hrs
  cases hrs
  -- what one output asks for
  have hone : List.Forall₂ (fun (out : PortId × Nat) rs => (∀ r ∈ rs, Rule.Satisfied τ r) ↔
      τ out.1 = (τ a).scalar ∧ ((∃ e ∈ g.edges.toList, e.source = out.1) → out.2 < (τ a).size))
      n.outputs.zipIdx rss := by
    rw [List.forall₂_iff_zip]
    refine ⟨(mapM_eq_ok.1 hrss).length_eq, fun {out rs} hm => ?_⟩
    obtain ⟨p, hp, hd, -⟩ := hg.output_port hn (List.fst_mem_of_mem_zipIdx (List.of_mem_zip hm).1)
    have hrs := (List.forall₂_iff_zip.1 (mapM_eq_ok.1 hrss)).2 hm
    dsimp only at hrs
    rw [hp] at hrs
    cases hrs
    rw [List.forall_mem_cons, ← hg.isConnected_iff hp hd]
    refine and_congr_right fun _ => ?_
    cases p.isConnected with
    | false => simp
    | true => simp [Rule.satisfied_minSize_iff]
  rw [Node.TypesAgree, hk]
  constructor
  · intro hall
    refine ⟨a, hin, fun k out hout => ?_⟩
    obtain ⟨rs, hrs, hiff⟩ := exists_of_mem_left hone (List.mk_mem_zipIdx_iff_getElem?.2 hout)
    exact hiff.1 fun r hr => hall r (List.mem_flatten.2 ⟨rs, hrs, hr⟩)
  · rintro ⟨_, hin', hall⟩ r hr
    cases hin.symm.trans hin'
    obtain ⟨rs, hrs, hr⟩ := List.mem_flatten.1 hr
    obtain ⟨out, hout, hiff⟩ := exists_of_mem_right hone hrs
    exact hiff.2 (hall out.2 out.1 (List.mk_mem_zipIdx_iff_getElem?.1 hout)) r hr

/-- **The rules of a node say what its kind asks for.** -/
theorem Consistent.satisfied_iff : (∀ r ∈ rs, r.Satisfied τ) ↔ n.TypesAgree g τ := by
  have hn' := hg.node i n hn
  obtain ⟨ins, outs, hs, hi, ho⟩ := hn'.ports
  have hti := hi.types hτ
  have hto := ho.types hτ
  have hvalid := hn'.valid
  cases hk : n.kind with
  | swizzle => exact swizzle_satisfied_iff hg hτ hn hrs hk
  | combine => exact combine_satisfied_iff hg hτ hn hrs hk
  | separate => exact separate_satisfied_iff hg hτ hn hrs hk
  | add | subtract | multiply | divide | min | max | power | negate | abs | floor | fract | sqrt
  | sin | cos | normalize | mix | mathExpression =>
    rw [nodeRules, hk] at hrs
    obtain rfl := rules_of_portNumber hrs
    rw [List.forall_mem_singleton, Node.TypesAgree, hk]
    rfl
  | constant | texture | time | position | normal | texCoord | computeField | previewOutput
  | materialOutput =>
    rw [nodeRules, hk] at hrs
    cases hrs
    rw [Node.TypesAgree, hk]
    exact iff_of_true (fun r hr => absurd hr List.not_mem_nil) trivial
  | length =>
    rw [hk] at hs
    obtain ⟨rfl, rfl⟩ := fixedSpecs hs
    obtain ⟨a, hin, -⟩ := one_port hti
    obtain ⟨out, hout, -⟩ := one_port hto
    rw [nodeRules, hk, hin, hout] at hrs
    cases hrs
    simp [Node.TypesAgree, hk, hin, hout, Rule.satisfied_scalarOf_iff]
  | dot =>
    rw [hk] at hs
    obtain ⟨rfl, rfl⟩ := fixedSpecs hs
    obtain ⟨a, b, hin, -⟩ := two_ports hti
    obtain ⟨out, hout, -⟩ := one_port hto
    rw [nodeRules, hk, hin, hout] at hrs
    cases hrs
    simp [Node.TypesAgree, hk, hin, hout, Rule.satisfied_pair_iff, Rule.satisfied_scalarOf_iff]
  | compare =>
    rw [hk] at hs
    cases hp : n.params with
    | compare test =>
      rw [hp] at hs
      cases hs
      obtain ⟨a, b, hin, -⟩ := two_ports hti
      rw [nodeRules, hk, hin] at hrs
      cases hrs
      simp [Node.TypesAgree, hk, hin, Rule.satisfied_pair_iff]
    | _ =>
      rw [hp] at hs
      cases hs
  | conditional =>
    rw [hk] at hs
    obtain ⟨rfl, rfl⟩ := fixedSpecs hs
    obtain ⟨c, a, b, hin, -⟩ := three_ports hti
    obtain ⟨out, hout, -⟩ := one_port hto
    rw [nodeRules, hk, hin, hout] at hrs
    cases hrs
    simp [Node.TypesAgree, hk, hin, hout, Rule.satisfied_triple_iff]
  | sample =>
    rw [hk] at hs
    obtain ⟨rfl, rfl⟩ := fixedSpecs hs
    obtain ⟨f, q, hin, -⟩ := two_ports hti
    rw [nodeRules, hk, hin] at hrs
    cases hrs
    simp [Node.TypesAgree, hk, hin, Rule.satisfied_sameDimension_iff]
  | invalid | unknown _ =>
    rw [hk] at hvalid
    cases hvalid

end Kinds

/-! ### The whole graph -/

/-- The types that satisfy all rules are the well-typed ones. -/
theorem Consistent.typed_iff_typesAgree (hg : g.Consistent) : g.Typed τ ↔ g.TypesAgree τ := by
  constructor
  · rintro ⟨hτ, hedges, hrules⟩
    refine ⟨hτ, hedges, fun n hn => ?_⟩
    obtain ⟨i, hi⟩ := List.getElem?_of_mem hn
    rw [Array.getElem?_toList] at hi
    obtain ⟨rs, hrs, hall⟩ := hrules i n hi
    exact (hg.satisfied_iff hτ hi hrs).1 hall
  · rintro ⟨hτ, hedges, hnodes⟩
    refine ⟨hτ, hedges, fun i n hi => ?_⟩
    obtain ⟨rs, hrs⟩ := hg.exists_nodeRules hi
    have hn : n ∈ g.nodes.toList := Array.mem_toList_iff.2 (Array.mem_of_getElem? hi)
    exact ⟨rs, hrs, (hg.satisfied_iff hτ hi hrs).2 (hnodes n hn)⟩

/-- **Checking accepts exactly the well-typed assignments** of one type per port. -/
theorem Built.checkTypes_typesAgree (hg : g.Built) :
    g.checkTypes a = .ok () ↔ a.size = g.ports.size ∧ g.TypesAgree (assigned a) := by
  rw [checkTypes_iff hg.consistent, hg.consistent.typed_iff_typesAgree]

/-- The length of twice a position: vectors up to the length, and one component there. -/
theorem checkTypes_typesAgree_length :
    let g := grown [.node (Uuid.ofBytes [1]) "" .position .none,
      .node (Uuid.ofBytes [2]) "" .add .none, .node (Uuid.ofBytes [3]) "" .length .none,
      .edge 0 1, .edge 0 2, .edge 3 4]
    let a : TypeAssignment := #[.float3, .float3, .float3, .float3, .float3, .float]
    g.Built ∧ a.size = g.ports.size ∧ g.TypesAgree (assigned a) := by
  intro g a
  have h : (g.checkTypes a).toOption = some () := by decide +kernel
  exact ⟨Built.grown _, (Built.grown _).checkTypes_typesAgree.1 (toOption_eq_some.1 h)⟩

end Graph

end NodeShader
