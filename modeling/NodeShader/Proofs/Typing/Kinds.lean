import NodeShader.Proofs.Graph.Ports
import NodeShader.Proofs.Shape
import NodeShader.Proofs.Typing.Resolution
import NodeShader.Stage.Select

/-!
# The ports of each kind of node

`Node.Fits` lists, kind by kind, the ports a node has and what a typing of the graph makes of their
types.  It puts together what the builder declares and what the rules of type resolution say, so that
whatever is proved about the code of a node starts from one case of it (`Graph.Typed.fits`).
-/

namespace NodeShader

/-- The types an arithmetic function is defined for. -/
def Math.Operation.Admits (f : Math.Operation) (t : ValueType) : Prop :=
  t.isFloating = true ∨ t.isInt = true ∧ f.integral?.isSome = true

/-- **The ports of a node and their types.** -/
inductive Node.Fits (g : Graph) (τ : PortId → ValueType) (n : Node) : Prop
  | arithmetic {f : Math.Operation} {out : PortId} : n.kind.operation? = some f →
      n.outputs = [out] → n.inputs.length = f.arity → (∀ q ∈ n.inputs, τ q = τ out) →
      f.Admits (τ out) → Fits g τ n
  | constant {values : List Float} {scalar : ValueType} {out : PortId} : n.kind = .constant →
      n.params = .constant values scalar → n.outputs = [out] →
      τ out = constantType values scalar → (τ out).isValue = true → Fits g τ n
  | texture {name : String} {dim : Int} {out : PortId} : n.kind = .texture →
      n.params = .texture name dim → n.inputs = [] → n.outputs = [out] → 1 ≤ dim → dim ≤ 3 →
      τ out = ValueType.texture1D.withSize dim → Fits g τ n
  | time {out : PortId} : n.kind = .time → n.outputs = [out] → τ out = .float → Fits g τ n
  | position {out : PortId} : n.kind = .position → n.outputs = [out] → τ out = .float3 → Fits g τ n
  | normal {out : PortId} : n.kind = .normal → n.outputs = [out] → τ out = .float3 → Fits g τ n
  | texCoord {out : PortId} : n.kind = .texCoord → n.outputs = [out] → τ out = .float2 → Fits g τ n
  | length {a out : PortId} : n.kind = .length → n.inputs = [a] → n.outputs = [out] →
      (τ a).isFloating = true → τ out = (τ a).scalar → Fits g τ n
  | dot {a b out : PortId} : n.kind = .dot → n.inputs = [a, b] → n.outputs = [out] →
      (τ a).isFloating = true → τ b = τ a → τ out = (τ a).scalar → Fits g τ n
  | compare {test : Comparison} {a b out : PortId} : n.kind = .compare →
      n.params = .compare test → n.inputs = [a, b] → n.outputs = [out] →
      τ a ∈ [ValueType.float, .half, .int] → τ b = τ a → τ out = .bool → Fits g τ n
  | conditional {c a b out : PortId} : n.kind = .conditional → n.inputs = [c, a, b] →
      n.outputs = [out] → (g.port? c).map (·.arm) = some (-1) → (g.port? a).map (·.arm) = some 0 →
      (g.port? b).map (·.arm) = some 1 → τ c = .bool → τ a = τ out → τ b = τ out →
      (τ out).isNumeric = true → Fits g τ n
  | swizzle {selector : String} {ks : List Nat} {a out : PortId} : n.kind = .swizzle →
      n.params = .swizzle selector → selectorComponents? selector = some ks → n.inputs = [a] →
      n.outputs = [out] → (τ a).isNumeric = true → (∀ k ∈ ks, k < (τ a).size) →
      τ out = (τ a).withSize ks.length → 1 ≤ ks.length → ks.length ≤ 4 → Fits g τ n
  | combine {out : PortId} : n.kind = .combine → n.outputs = [out] → (τ out).isVector = true →
      (∀ q ∈ n.inputs, (τ q).isNumeric = true ∧ (τ q).scalar = (τ out).scalar) →
      total (fun q => (τ q).size) n.inputs = (τ out).size → Fits g τ n
  | separate {a : PortId} : n.kind = .separate → n.inputs = [a] → (τ a).isNumeric = true →
      (∀ (k : Nat) (out : PortId), n.outputs[k]? = some out → τ out = (τ a).scalar ∧
        ∀ p, g.port? out = some p → p.isConnected = true → k < (τ a).size) → Fits g τ n
  | mathExpression {source : String} {names : List String} {out : PortId} :
      n.kind = .mathExpression → n.params = .math source names → n.outputs = [out] →
      (τ out).isFloating = true → (∀ q ∈ n.inputs, τ q = τ out) → Fits g τ n
  | sample {f q out : PortId} : n.kind = .sample → n.inputs = [f, q] → n.outputs = [out] →
      (τ f).isTexture = true → (τ q).isFloat = true → (τ f).size = (τ q).size → τ out = .float4 →
      Fits g τ n
  | computeField {dim resolution : Int} {v out : PortId} : n.kind = .computeField →
      n.params = .field dim resolution → n.inputs = [v] → n.outputs = [out] → 1 ≤ dim → dim ≤ 3 →
      (τ v).isFloat = true → τ out = ValueType.texture1D.withSize dim → Fits g τ n
  | previewOutput {c : PortId} : n.kind = .previewOutput → n.inputs = [c] → n.outputs = [] →
      (τ c).isFloat = true → Fits g τ n
  | materialOutput {c r e : PortId} : n.kind = .materialOutput → n.inputs = [c, r, e] →
      n.outputs = [] → g.inputNamed n "base_color" = .ok c → g.inputNamed n "roughness" = .ok r →
      g.inputNamed n "emission" = .ok e → τ c = .float3 → τ r = .float → τ e = .float3 → Fits g τ n

/-- An arithmetic function that is defined for integers has an instruction for them. -/
theorem Math.Operation.Admits.integral {f : Math.Operation} {t : ValueType} (h : f.Admits t)
    (ht : t.isInt = true) : f.integral?.isSome = true := by
  rcases h with h | h
  · rw [ValueType.isFloating, Bool.or_eq_true] at h
    simp only [ValueType.isFloat, ValueType.isHalf, ValueType.isInt, Bool.and_eq_true,
      decide_eq_true_eq] at h ht
    omega
  · exact h.2

/-- The ports of an arithmetic node. -/
theorem Node.Fits.of_operation {g : Graph} {τ : PortId → ValueType} {n : Node} {f : Math.Operation}
    {out : PortId} (h : n.Fits g τ) (hop : n.kind.operation? = some f) (hout : n.outputs = [out]) :
    n.inputs.length = f.arity ∧ (∀ q ∈ n.inputs, τ q = τ out) ∧ f.Admits (τ out) := by
  cases h with
  | arithmetic hop' hout' hlen htypes hadmits =>
    cases hop.symm.trans hop'
    cases hout.symm.trans hout'
    exact ⟨hlen, htypes, hadmits⟩
  | _ hkind =>
    rw [hkind] at hop
    cases hop

namespace Graph

variable {g : Graph} {τ : PortId → ValueType} {i : Nat} {n : Node}

/-- The ports of one direction, each with its place among them. -/
theorem Declares.specs {direction : Direction} {ports : List PortId} {specs : List PortSpec}
    (h : g.Declares i n direction ports specs) :
    List.Forall₂ (fun q (s : PortSpec × Nat) => ∃ p, g.port? q = some p ∧ p.spec = s.1 ∧
      p.arm = if direction = .input ∧ s.1.startsArm then (armsBefore specs s.2 : Int) else -1)
      ports specs.zipIdx := by
  refine h.imp fun q s hs => ?_
  obtain ⟨p, hp, hb⟩ := Option.map_eq_some_iff.1 hs
  refine ⟨p, hp, ?_, ?_⟩
  · show p.bare.spec = _
    rw [hb]
    rfl
  · show p.bare.arm = _
    rw [hb]
    rfl

/-- The types of declared ports. -/
theorem Declares.types {direction : Direction} {ports : List PortId} {specs : List PortSpec}
    (h : g.Declares i n direction ports specs)
    (hτ : ∀ q p, g.port? q = some p → p.type.Mem (τ q)) :
    List.Forall₂ (fun q (s : PortSpec) => s.type.Mem (τ q)) ports specs := by
  have hz : List.Forall₂ (fun q (s : PortSpec × Nat) => s.1.type.Mem (τ q)) ports specs.zipIdx := by
    refine h.specs.imp ?_
    rintro q s ⟨p, hp, hs, -⟩
    rw [← hs]
    exact hτ q p hp
  have hm := List.forall₂_map_right_iff (R := fun q (s : PortSpec) => s.type.Mem (τ q))
    (f := fun s : PortSpec × Nat => s.1) |>.2 hz
  have hfst : specs.zipIdx.map (fun s => s.1) = specs := List.zipIdx_map_fst 0 specs
  rwa [hfst] at hm

/-! ### Members of the declared sets -/

theorem isNumeric_of_mem {t : ValueType} (h : TypeSet.anyNumeric.Mem t) : t.isNumeric = true := by
  have hall : ∀ t ∈ TypeSet.anyNumeric.toList, t.isNumeric = true := by decide
  exact hall t h

theorem isFloating_of_mem {t : ValueType} (h : TypeSet.anyFloating.Mem t) : t.isFloating = true := by
  have hall : ∀ t ∈ TypeSet.anyFloating.toList, t.isFloating = true := by decide
  exact hall t h

theorem isFloat_of_mem {t : ValueType} (h : TypeSet.anyFloat.Mem t) : t.isFloat = true := by
  have hall : ∀ t ∈ TypeSet.anyFloat.toList, t.isFloat = true := by decide
  exact hall t h

theorem eq_of_mem {t u : ValueType} (h : (TypeSet.singleton u).Mem t) : t = u :=
  (TypeSet.mem_singleton.1 h).1

theorem admits_of_isNumeric {f : Math.Operation} {t : ValueType} (hf : f.integral?.isSome = true)
    (h : t.isNumeric = true) : f.Admits t := by
  rw [ValueType.isNumeric, Bool.or_eq_true] at h
  exact h.imp id fun hi => ⟨hi, hf⟩

/-! ### Kind by kind -/

/-- The rule that all ports of a node have one type. -/
theorem equal_of_rules {rs : List Rule} (hrs : rs = [.equal (n.inputs ++ n.outputs)])
    (hsat : ∀ r ∈ rs, r.Satisfied τ) {out : PortId} (ho : n.outputs = [out]) :
    ∀ q ∈ n.inputs, τ q = τ out := by
  intro q hq
  have h := hsat (.equal (n.inputs ++ n.outputs)) (by rw [hrs]; exact List.mem_singleton_self _)
  exact h q (List.mem_append_left _ hq) out (List.mem_append_right _ (by rw [ho]; simp))

theorem rules_of_portNumber {ports : List PortId} {rs rs' : List Rule}
    (h : (portNumber ports 0 >>= fun _ => pure rs') = .ok rs) : rs = rs' := by
  obtain ⟨_, -, h⟩ := bind_eq_ok.1 h
  cases h
  rfl

theorem fits_arithmetic {f : Math.Operation} (ht : g.Typed τ) (hg : g.Consistent)
    (hn : g.nodes[i]? = some n) (hop : n.kind.operation? = some f) : n.Fits g τ := by
  obtain ⟨ins, outs, hs, hi, ho⟩ := (hg.node i n hn).ports
  obtain ⟨rs, hrs, hsat⟩ := ht.rules i n hn
  have hti := hi.types ht.declared
  have hto := ho.types ht.declared
  -- the ports of the kind, and its one rule
  have hkind : ins.length = f.arity ∧ (∃ T, outs = NodeKind.outPort T ∧
      ∀ t, T.Mem t → f.Admits t) ∧ rs = [.equal (n.inputs ++ n.outputs)] := by
    have hspec : ins = n.kind.inputs ∧ outs = n.kind.outputs := by
      cases hk : n.kind <;> rw [hk] at hop <;> cases hop
      all_goals
        rw [hk] at hs
        simp only [portSpecs] at hs
        split at hs
        · cases hs
          exact ⟨rfl, rfl⟩
        · cases hs
    rw [hspec.1, hspec.2]
    rw [nodeRules] at hrs
    cases hk : n.kind <;> rw [hk] at hop hrs <;> cases hop
    all_goals refine ⟨rfl, ⟨_, rfl, ?_⟩, rules_of_portNumber hrs⟩
    all_goals intro t hm
    all_goals first
      | exact admits_of_isNumeric rfl (isNumeric_of_mem hm)
      | exact .inl (isFloating_of_mem hm)
  obtain ⟨hlen, ⟨T, rfl, hT⟩, hrs⟩ := hkind
  rw [NodeKind.outPort, List.forall₂_cons_right_iff] at hto
  obtain ⟨out, rest, hout, hrest, houts⟩ := hto
  rw [List.forall₂_nil_right_iff] at hrest
  subst hrest
  exact .arithmetic hop houts (by rw [hti.length_eq, hlen]) (equal_of_rules hrs hsat houts)
    (hT _ hout)

/-- The parts of a typed node: its declared ports with their types, and its rules. -/
theorem Typed.parts (ht : g.Typed τ) (hg : g.Consistent) (hn : g.nodes[i]? = some n) :
    ∃ ins outs rs, portSpecs n.kind n.params = .ok (ins, outs) ∧ g.nodeRules n = .ok rs ∧
      g.Declares i n .input n.inputs ins ∧
      List.Forall₂ (fun q (s : PortSpec) => s.type.Mem (τ q)) n.inputs ins ∧
      List.Forall₂ (fun q (s : PortSpec) => s.type.Mem (τ q)) n.outputs outs ∧
      ∀ r ∈ rs, r.Satisfied τ := by
  obtain ⟨ins, outs, hs, hi, ho⟩ := (hg.node i n hn).ports
  obtain ⟨rs, hrs, hsat⟩ := ht.rules i n hn
  exact ⟨ins, outs, rs, hs, hrs, hi, hi.types ht.declared, ho.types ht.declared, hsat⟩

section Pairs

variable {α : Type} {R : PortId → α → Prop} {ports : List PortId} {s s₁ s₂ s₃ : α}

theorem no_ports (h : List.Forall₂ R ports []) : ports = [] := List.forall₂_nil_right_iff.1 h

theorem one_port (h : List.Forall₂ R ports [s]) : ∃ q, ports = [q] ∧ R q s := by
  obtain ⟨q, rest, hq, hrest, rfl⟩ := List.forall₂_cons_right_iff.1 h
  rw [List.forall₂_nil_right_iff] at hrest
  exact ⟨q, by rw [hrest], hq⟩

theorem two_ports (h : List.Forall₂ R ports [s₁, s₂]) :
    ∃ p q, ports = [p, q] ∧ R p s₁ ∧ R q s₂ := by
  obtain ⟨p, rest, hp, hrest, rfl⟩ := List.forall₂_cons_right_iff.1 h
  obtain ⟨q, rfl, hq⟩ := one_port hrest
  exact ⟨p, q, rfl, hp, hq⟩

theorem three_ports (h : List.Forall₂ R ports [s₁, s₂, s₃]) :
    ∃ p q r, ports = [p, q, r] ∧ R p s₁ ∧ R q s₂ ∧ R r s₃ := by
  obtain ⟨p, rest, hp, hrest, rfl⟩ := List.forall₂_cons_right_iff.1 h
  obtain ⟨q, r, rfl, hq, hr⟩ := two_ports hrest
  exact ⟨p, q, r, rfl, hp, hq, hr⟩

end Pairs

theorem fits_constant (ht : g.Typed τ) (hg : g.Consistent) (hn : g.nodes[i]? = some n)
    (hk : n.kind = .constant) : n.Fits g τ := by
  obtain ⟨ins, outs, rs, hs, -, -, -, hto, -⟩ := ht.parts hg hn
  rw [hk] at hs
  cases hp : n.params with
  | constant values scalar =>
    rw [hp] at hs
    simp only [portSpecs] at hs
    split at hs
    · cases hs
    · split at hs
      · cases hs
      · rename_i hv
        cases hs
        obtain ⟨out, hout, hm⟩ := one_port hto
        have hτ := eq_of_mem hm
        refine .constant hk hp hout hτ ?_
        have hall : ∀ t : ValueType, t.isValid = true → t.isTexture = false → t.isValue = true := by
          rintro ⟨code⟩ h1 h2
          simp only [ValueType.isValid, ValueType.isTexture, ValueType.isValue,
            ValueType.isNumeric, ValueType.isFloating, ValueType.isFloat, ValueType.isHalf,
            ValueType.isInt, ValueType.bool, Bool.and_eq_true, Bool.or_eq_true,
            Bool.and_eq_false_iff, decide_eq_true_eq, decide_eq_false_iff_not,
            ValueType.mk.injEq] at h1 h2 ⊢
          omega
        rw [hτ]
        simp only [Bool.or_eq_true, not_or, Bool.not_eq_true, Bool.not_eq_eq_eq_not, Bool.not_true,
          Bool.not_eq_false] at hv
        exact hall _ hv.1 hv.2
  | _ =>
    rw [hp] at hs
    cases hs

theorem fits_texture (ht : g.Typed τ) (hg : g.Consistent) (hn : g.nodes[i]? = some n)
    (hk : n.kind = .texture) : n.Fits g τ := by
  obtain ⟨ins, outs, rs, hs, -, -, hti, hto, -⟩ := ht.parts hg hn
  rw [hk] at hs
  cases hp : n.params with
  | texture name dim =>
    rw [hp] at hs
    simp only [portSpecs] at hs
    split at hs
    · cases hs
    · rename_i hd
      cases hs
      obtain ⟨out, hout, hm⟩ := one_port hto
      exact .texture hk hp (no_ports hti) hout (by omega) (by omega) (eq_of_mem hm)
  | _ =>
    rw [hp] at hs
    cases hs

theorem fits_compare (ht : g.Typed τ) (hg : g.Consistent) (hn : g.nodes[i]? = some n)
    (hk : n.kind = .compare) : n.Fits g τ := by
  obtain ⟨ins, outs, rs, hs, hrs, -, hti, hto, hsat⟩ := ht.parts hg hn
  rw [nodeRules, hk] at hrs
  obtain ⟨_, -, hrs⟩ := bind_eq_ok.1 hrs
  cases hrs
  rw [hk] at hs
  cases hp : n.params with
  | compare test =>
    rw [hp] at hs
    cases hs
    obtain ⟨a, b, hin, ha, -⟩ := two_ports hti
    obtain ⟨out, hout, hm⟩ := one_port hto
    have heq := hsat _ (List.mem_singleton_self _) b (by rw [hin]; simp) a (by rw [hin]; simp)
    have hall : ∀ t ∈ TypeSet.anyScalar.toList, t ∈ [ValueType.float, .half, .int] := by decide
    exact .compare hk hp hin hout (hall _ ha) heq (eq_of_mem hm)
  | _ =>
    rw [hp] at hs
    cases hs

/-- The ports of a conditional: its condition and its arms. -/
theorem conditional_ports (hg : g.Consistent) (hn : g.nodes[i]? = some n)
    (hk : n.kind = .conditional) : ∃ c a b, n.inputs = [c, a, b] ∧
      (g.port? c).map (·.arm) = some (-1) ∧ (g.port? a).map (·.arm) = some 0 ∧
      (g.port? b).map (·.arm) = some 1 := by
  obtain ⟨ins, outs, hs, hi, -⟩ := (hg.node i n hn).ports
  rw [hk] at hs
  obtain ⟨rfl, -⟩ := fixedSpecs hs
  have hspecs := hi.specs
  rw [show NodeKind.conditional.inputs.zipIdx = [(_, 0), (_, 1), (_, 2)] from rfl] at hspecs
  obtain ⟨c, a, b, hin, ⟨pc, hpc, -, hac⟩, ⟨pa, hpa, -, haa⟩, ⟨pb, hpb, -, hab⟩⟩ :=
    three_ports hspecs
  refine ⟨c, a, b, hin, ?_⟩
  rw [hpc, hpa, hpb, Option.map_some, Option.map_some, Option.map_some, hac, haa, hab]
  exact ⟨rfl, rfl, rfl⟩

theorem fits_conditional (ht : g.Typed τ) (hg : g.Consistent) (hn : g.nodes[i]? = some n)
    (hk : n.kind = .conditional) : n.Fits g τ := by
  obtain ⟨ins, outs, rs, hs, hrs, -, hti, hto, hsat⟩ := ht.parts hg hn
  obtain ⟨c, a, b, hin, harms⟩ := conditional_ports hg hn hk
  rw [hk] at hs
  obtain ⟨rfl, rfl⟩ := fixedSpecs hs
  rw [hin] at hti
  have hc := (List.forall₂_cons.1 hti).1
  obtain ⟨out, hout, hm⟩ := one_port hto
  rw [nodeRules, hk] at hrs
  simp only [hin, hout] at hrs
  cases hrs
  have heq := hsat _ (List.mem_singleton_self _)
  exact .conditional hk hin hout harms.1 harms.2.1 harms.2.2 (eq_of_mem hc)
    (heq a (by simp) out (by simp)) (heq b (by simp) out (by simp)) (isNumeric_of_mem hm)

theorem selectorComponents?_length {selector : String} {ks : List Nat}
    (h : selectorComponents? selector = some ks) : 1 ≤ ks.length ∧ ks.length ≤ 4 := by
  rw [selectorComponents?] at h
  split at h
  · cases h
  · rename_i hlen
    have hk : ks.length = selector.toList.length := by
      exact (mapM_eq_some.1 h).length_eq.symm
    omega

/-- The largest component of a list bounds all. -/
theorem le_foldl_max {ks : List Nat} {k m : Nat} (h : k ∈ ks ∨ k ≤ m) : k ≤ ks.foldl Nat.max m := by
  induction ks generalizing m with
  | nil =>
    rcases h with h | h
    · cases h
    · exact h
  | cons a ks ih =>
    rw [List.foldl_cons]
    apply ih
    rcases h with h | h
    · rcases List.mem_cons.1 h with rfl | h
      · exact .inr (Nat.le_max_right _ _)
      · exact .inl h
    · exact .inr (Nat.le_trans h (Nat.le_max_left _ _))

theorem fits_swizzle (ht : g.Typed τ) (hg : g.Consistent) (hn : g.nodes[i]? = some n)
    (hk : n.kind = .swizzle) : n.Fits g τ := by
  obtain ⟨ins, outs, rs, hs, hrs, -, hti, hto, hsat⟩ := ht.parts hg hn
  rw [nodeRules, hk] at hrs
  rw [hk] at hs
  cases hp : n.params with
  | swizzle selector =>
    rw [hp] at hs hrs
    simp only [portSpecs] at hs
    cases hks : selectorComponents? selector with
    | none => rw [hks] at hs; cases hs
    | some ks =>
      rw [hks] at hs
      cases hs
      obtain ⟨a, hin, ha⟩ := one_port hti
      obtain ⟨out, hout, hm⟩ := one_port hto
      simp only [hin, hout, hks] at hrs
      cases hrs
      have hmin := hsat _ List.mem_cons_self
      have hsize := hsat _ (List.mem_cons_of_mem _ List.mem_cons_self)
      obtain ⟨h1, h4⟩ := selectorComponents?_length hks
      refine .swizzle hk hp hks hin hout (isNumeric_of_mem ha) ?_ hsize h1 h4
      intro k hkm
      exact Nat.lt_of_le_of_lt (le_foldl_max (.inl hkm)) hmin
  | _ =>
    rw [hp] at hs
    cases hs

theorem fits_combine (ht : g.Typed τ) (hg : g.Consistent) (hn : g.nodes[i]? = some n)
    (hk : n.kind = .combine) : n.Fits g τ := by
  obtain ⟨ins, outs, rs, hs, hrs, -, hti, hto, hsat⟩ := ht.parts hg hn
  rw [nodeRules, hk] at hrs
  cases hrs
  rw [hk] at hs
  cases hp : n.params with
  | combine count =>
    rw [hp] at hs
    simp only [portSpecs] at hs
    split at hs
    · cases hs
    · cases hs
      obtain ⟨out, hout, hm⟩ := one_port hto
      have hvec : (τ out).isVector = true := (TypeSet.mem_filter.1 hm).2
      have hsat' := hsat _ (List.mem_singleton_self _)
      rw [Rule.Satisfied, hout, List.map_append, List.map_singleton, Rule.combinesTuple,
        List.getLast?_concat] at hsat'
      simp only [List.dropLast_concat, Rule.combines, Bool.and_eq_true, List.all_eq_true,
        List.mem_map, forall_exists_index, and_imp, forall_apply_eq_imp_iff₂, decide_eq_true_eq,
        beq_iff_eq, total_map] at hsat'
      refine .combine hk hout hvec (fun q hq => ⟨?_, hsat'.1 q hq⟩) hsat'.2
      obtain ⟨s, hsm, hq'⟩ := exists_of_mem_left hti hq
      obtain ⟨name, -, rfl⟩ := List.mem_map.1 hsm
      exact isNumeric_of_mem hq'
  | _ =>
    rw [hp] at hs
    cases hs

theorem fits_separate (ht : g.Typed τ) (hg : g.Consistent) (hn : g.nodes[i]? = some n)
    (hk : n.kind = .separate) : n.Fits g τ := by
  obtain ⟨ins, outs, rs, hs, hrs, -, hti, hto, hsat⟩ := ht.parts hg hn
  rw [hk] at hs
  obtain ⟨rfl, rfl⟩ := fixedSpecs hs
  obtain ⟨a, hin, ha⟩ := one_port hti
  rw [nodeRules, hk] at hrs
  obtain ⟨a', ha', hrs⟩ := bind_eq_ok.1 hrs
  rw [hin] at ha'
  cases ha'
  obtain ⟨rss, hrss, hrs⟩ := bind_eq_ok.1 hrs
  cases hrs
  refine .separate hk hin (isNumeric_of_mem ha) ?_
  intro k out hout
  have hmem : (out, k) ∈ n.outputs.zipIdx := List.mk_mem_zipIdx_iff_getElem?.2 hout
  obtain ⟨rs, hrsm, hrs⟩ := exists_of_mem_left (mapM_eq_ok.1 hrss) hmem
  dsimp only at hrs
  cases hport : g.port? out with
  | none => rw [hport] at hrs; cases hrs
  | some p =>
    rw [hport] at hrs
    cases hrs
    refine ⟨hsat _ (List.mem_flatten.2 ⟨_, hrsm, List.mem_cons_self⟩), ?_⟩
    intro p' hp' hc
    cases hp'
    have := hsat (.minSize a k) (List.mem_flatten.2 ⟨_, hrsm, by rw [if_pos hc]; simp⟩)
    exact this

theorem fits_mathExpression (ht : g.Typed τ) (hg : g.Consistent) (hn : g.nodes[i]? = some n)
    (hk : n.kind = .mathExpression) : n.Fits g τ := by
  obtain ⟨ins, outs, rs, hs, hrs, -, -, hto, hsat⟩ := ht.parts hg hn
  rw [nodeRules, hk] at hrs
  rw [hk] at hs
  cases hp : n.params with
  | math source names =>
    rw [hp] at hs
    obtain ⟨ports, -, hs⟩ := map_eq_ok.1 hs
    cases hs
    obtain ⟨out, hout, hm⟩ := one_port hto
    exact .mathExpression hk hp hout (isFloating_of_mem hm)
      (equal_of_rules (rules_of_portNumber hrs) hsat hout)
  | _ =>
    rw [hp] at hs
    cases hs

theorem fits_sample (ht : g.Typed τ) (hg : g.Consistent) (hn : g.nodes[i]? = some n)
    (hk : n.kind = .sample) : n.Fits g τ := by
  obtain ⟨ins, outs, rs, hs, hrs, -, hti, hto, hsat⟩ := ht.parts hg hn
  rw [hk] at hs
  obtain ⟨rfl, rfl⟩ := fixedSpecs hs
  obtain ⟨f, q, hin, hf, hq⟩ := two_ports hti
  obtain ⟨out, hout, hm⟩ := one_port hto
  rw [nodeRules, hk] at hrs
  simp only [hin] at hrs
  cases hrs
  have hall : ∀ t ∈ TypeSet.anyField.toList, t.isTexture = true := by decide
  exact .sample hk hin hout (hall _ hf) (isFloat_of_mem hq) (hsat _ (List.mem_singleton_self _))
    (eq_of_mem hm)

theorem fits_computeField (ht : g.Typed τ) (hg : g.Consistent) (hn : g.nodes[i]? = some n)
    (hk : n.kind = .computeField) : n.Fits g τ := by
  obtain ⟨ins, outs, rs, hs, -, -, hti, hto, -⟩ := ht.parts hg hn
  rw [hk] at hs
  cases hp : n.params with
  | field dim resolution =>
    rw [hp] at hs
    simp only [portSpecs] at hs
    split at hs
    · cases hs
    · rename_i hd
      split at hs
      · cases hs
      · cases hs
        obtain ⟨v, hin, hv⟩ := one_port hti
        obtain ⟨out, hout, hm⟩ := one_port hto
        exact .computeField hk hp hin hout (by omega) (by omega) (isFloat_of_mem hv) (eq_of_mem hm)
  | _ =>
    rw [hp] at hs
    cases hs

theorem fits_materialOutput (ht : g.Typed τ) (hg : g.Consistent) (hn : g.nodes[i]? = some n)
    (hk : n.kind = .materialOutput) : n.Fits g τ := by
  obtain ⟨ins, outs, rs, hs, -, hd, hti, hto, -⟩ := ht.parts hg hn
  rw [hk] at hs
  obtain ⟨rfl, rfl⟩ := fixedSpecs hs
  obtain ⟨c, r, e, hin, hc, hr, he⟩ := three_ports hti
  have hspecs := hd.specs
  rw [hin] at hspecs
  obtain ⟨pc, hpc, hsc, -⟩ := (List.forall₂_cons.1 hspecs).1
  obtain ⟨pr, hpr, hsr, -⟩ := (List.forall₂_cons.1 (List.forall₂_cons.1 hspecs).2).1
  obtain ⟨pe, hpe, hse, -⟩ :=
    (List.forall₂_cons.1 (List.forall₂_cons.1 (List.forall₂_cons.1 hspecs).2).2).1
  have hnamed : g.inputNamed n "base_color" = .ok c ∧ g.inputNamed n "roughness" = .ok r ∧
      g.inputNamed n "emission" = .ok e := by
    have hfind : ∀ {q : PortId} {p : Port} {rest : List PortId} (name : String),
        g.port? q = some p → g.findPort (q :: rest) name =
          if p.name = name then .ok q else g.findPort rest name := by
      intro q p rest name hp
      rw [findPort, hp]
      rfl
    simp only [inputNamed, hin, hfind _ hpc, hfind _ hpr, hfind _ hpe, Port.name, hsc, hsr, hse]
    exact ⟨rfl, rfl, rfl⟩
  exact .materialOutput hk hin (no_ports hto) hnamed.1 hnamed.2.1 hnamed.2.2 (eq_of_mem hc) (eq_of_mem hr)
    (eq_of_mem he)

/-- **The nodes of a typed graph fit.** -/
theorem Typed.fits (ht : g.Typed τ) (hg : g.Consistent) (hn : g.nodes[i]? = some n) :
    n.Fits g τ := by
  cases hop : n.kind.operation? with
  | some f => exact fits_arithmetic ht hg hn hop
  | none =>
    have hvalid := (hg.node i n hn).valid
    obtain ⟨ins, outs, rs, hs, hrs, -, hti, hto, hsat⟩ := ht.parts hg hn
    rw [nodeRules] at hrs
    cases hk : n.kind with
    | add | subtract | multiply | divide | min | max | power | negate | abs | floor | fract | sqrt
    | sin | cos | normalize | mix =>
      rw [hk] at hop
      cases hop
    | invalid | unknown _ =>
      rw [hk] at hvalid
      cases hvalid
    | constant => exact fits_constant ht hg hn hk
    | texture => exact fits_texture ht hg hn hk
    | time =>
      rw [hk] at hs hrs
      obtain ⟨rfl, rfl⟩ := fixedSpecs hs
      obtain ⟨out, hout, hm⟩ := one_port hto
      exact .time hk hout (eq_of_mem hm)
    | position =>
      rw [hk] at hs hrs
      obtain ⟨rfl, rfl⟩ := fixedSpecs hs
      obtain ⟨out, hout, hm⟩ := one_port hto
      exact .position hk hout (eq_of_mem hm)
    | normal =>
      rw [hk] at hs hrs
      obtain ⟨rfl, rfl⟩ := fixedSpecs hs
      obtain ⟨out, hout, hm⟩ := one_port hto
      exact .normal hk hout (eq_of_mem hm)
    | texCoord =>
      rw [hk] at hs hrs
      obtain ⟨rfl, rfl⟩ := fixedSpecs hs
      obtain ⟨out, hout, hm⟩ := one_port hto
      exact .texCoord hk hout (eq_of_mem hm)
    | length =>
      rw [hk] at hs hrs
      obtain ⟨rfl, rfl⟩ := fixedSpecs hs
      obtain ⟨a, hin, ha⟩ := one_port hti
      obtain ⟨out, hout, hm⟩ := one_port hto
      simp only [hin, hout] at hrs
      cases hrs
      exact .length hk hin hout (isFloating_of_mem ha) (hsat _ (List.mem_singleton_self _))
    | dot =>
      rw [hk] at hs hrs
      obtain ⟨rfl, rfl⟩ := fixedSpecs hs
      obtain ⟨a, b, hin, ha, -⟩ := two_ports hti
      obtain ⟨out, hout, hm⟩ := one_port hto
      simp only [hin, hout] at hrs
      cases hrs
      have heq := hsat _ List.mem_cons_self b (by simp) a (by simp)
      exact .dot hk hin hout (isFloating_of_mem ha) heq
        (hsat _ (List.mem_cons_of_mem _ List.mem_cons_self))
    | compare => exact fits_compare ht hg hn hk
    | conditional => exact fits_conditional ht hg hn hk
    | swizzle => exact fits_swizzle ht hg hn hk
    | combine => exact fits_combine ht hg hn hk
    | separate => exact fits_separate ht hg hn hk
    | mathExpression => exact fits_mathExpression ht hg hn hk
    | sample => exact fits_sample ht hg hn hk
    | computeField => exact fits_computeField ht hg hn hk
    | previewOutput =>
      rw [hk] at hs hrs
      obtain ⟨rfl, rfl⟩ := fixedSpecs hs
      obtain ⟨c, hin, hc⟩ := one_port hti
      exact .previewOutput hk hin (no_ports hto) (isFloat_of_mem hc)
    | materialOutput => exact fits_materialOutput ht hg hn hk

/-! ### Arms -/

/-- Only the inputs of conditionals start arms. -/
theorem startsArm_of_portSpecs {kind : NodeKind} {params : Params} {ins outs : List PortSpec}
    (h : portSpecs kind params = .ok (ins, outs)) (hk : kind ≠ .conditional) :
    ∀ s ∈ ins, s.startsArm = false := by
  cases ported_of_portSpecs h with
  | fixed =>
    cases kind with
    | conditional => exact absurd rfl hk
    | unknown code => exact fun s hs => absurd hs List.not_mem_nil
    | _ => decide
  | constant => exact fun s hs => absurd hs List.not_mem_nil
  | texture => exact fun s hs => absurd hs List.not_mem_nil
  | combine =>
    intro s hs
    obtain ⟨name, -, rfl⟩ := List.mem_map.1 hs
    rfl
  | math _ _ hports =>
    intro s hs
    rw [(variablePorts_eq_ok hports).1] at hs
    obtain ⟨name, -, rfl⟩ := List.mem_map.1 hs
    rfl
  | field => decide

/-- An input of a node that is no conditional starts no arm. -/
theorem ordinary_port {q : PortId} {port : Port} (hg : g.Consistent) (hn : g.nodes[i]? = some n)
    (hk : n.kind ≠ .conditional) (hq : q ∈ n.inputs) (hport : g.port? q = some port) :
    port.arm = -1 := by
  obtain ⟨ins, outs, hs, hi, -⟩ := (hg.node i n hn).ports
  obtain ⟨s, hsm, p, hp, -, harm⟩ := exists_of_mem_left hi.specs hq
  rw [hport] at hp
  cases hp
  have hplain := startsArm_of_portSpecs hs hk s.1 (List.fst_mem_of_mem_zipIdx hsm)
  rw [harm, hplain, if_neg (by simp)]

end Graph

end NodeShader
