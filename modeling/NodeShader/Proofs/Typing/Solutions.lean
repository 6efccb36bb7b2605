import NodeShader.Proofs.Typing.Kinds
import NodeShader.Typing.Resolve

/-!
# Solutions of the constraints

A choice of types that satisfies a rule is never narrowed away by it.

* `Rule.allowed_mem`: a rule allows each of its ports the type that a satisfying choice gives it.
* `Rule.narrow_keeps`: so narrowing succeeds, and the domains still hold the choice.
* `Rule.holds_iff`: where each port has one type, a rule holds exactly if these types satisfy it.
* `Graph.checkTypes_iff`: **checking accepts exactly the typings of a graph**.
-/

namespace NodeShader

/-! ### Narrowing by a rule -/

namespace Domains

variable {d d' : Domains} {τ : PortId → ValueType}

/-- Narrowing to sets that hold a chosen type succeeds. -/
theorem narrow_eq_some {l : List (PortId × TypeSet)}
    (h : ∀ p A, (p, A) ∈ l → (d.typesOf p).Mem (τ p) ∧ A.Mem (τ p)) :
    ∃ d' touched, d.narrow l = some (d', touched) := by
  induction l generalizing d with
  | nil => exact ⟨d, [], rfl⟩
  | cons entry l ih =>
    obtain ⟨p, A⟩ := entry
    have hp := h p A List.mem_cons_self
    have hrest : ∀ q B, (q, B) ∈ l → (d.typesOf q).Mem (τ q) ∧ B.Mem (τ q) :=
      fun q B hq => h q B (List.mem_cons_of_mem _ hq)
    have hinter : ((d.typesOf p).inter A).Mem (τ p) := TypeSet.mem_inter.2 hp
    rw [narrow]
    rw [if_neg (TypeSet.not_isEmpty_of_mem hinter)]
    split
    · exact ih hrest
    · obtain ⟨d₂, touched, hd₂⟩ := ih
        (d := d.setIfInBounds p.toNat ((d.typesOf p).inter A)) (by
          intro q B hq
          refine ⟨?_, (hrest q B hq).2⟩
          rw [typesOf_set ⟨_, hp.1⟩]
          split
          · rename_i hqp
            rw [hqp]
            exact hinter
          · exact (hrest q B hq).1)
      exact ⟨d₂, p :: touched, by rw [hd₂]⟩

/-- Domains are determined by the types of their ports. -/
theorem ext_typesOf (hsize : d'.size = d.size)
    (h : ∀ p t, (d'.typesOf p).Mem t ↔ (d.typesOf p).Mem t) : d' = d := by
  refine Array.ext hsize fun k hk hk' => ?_
  have hget : ∀ (d : Domains) (hk : k < d.size), d.typesOf (k : PortId) = d[k] := by
    intro d hk
    rw [typesOf, at?_natCast, Array.getElem?_eq_getElem hk, Option.getD_some]
  rw [← hget d' hk, ← hget d hk']
  exact TypeSet.ext_mem (h k)

end Domains

namespace Rule

variable {d d' : Domains} {r : Rule} {τ : PortId → ValueType}

/-- The support of choices that hold a satisfying tuple holds its types. -/
theorem support_mem {ports : List PortId} {p : PortId} {A : TypeSet}
    (hd : ∀ q ∈ ports, (d.typesOf q).Mem (τ q)) (hs : combinesTuple (ports.map τ) = true)
    (h : (p, A) ∈ ports.zip (support (ports.map fun q => (d.typesOf q).toList))) :
    A.Mem (τ p) := by
  obtain ⟨k, hk⟩ := List.getElem?_of_mem h
  rw [List.getElem?_zip_eq_some] at hk
  have hp := List.mem_of_getElem? hk.1
  refine (mem_support hk.2).2 ⟨ports.map τ, mem_tuples.2 ?_, hs, ?_, (hd p hp).inMask⟩
  · rw [List.forall₂_map_left_iff, List.forall₂_map_right_iff, List.forall₂_same]
    exact hd
  · rw [List.getElem?_map, hk.1, Option.map_some]

/-- **A rule allows its ports the types of a satisfying choice.** -/
theorem allowed_mem {allowed : List (PortId × TypeSet)} (ha : r.allowed d = some allowed)
    (hs : r.Satisfied τ) (hv : ∀ p ∈ r.ports, (τ p).isValid = true)
    (hd : ∀ p ∈ r.ports, (d.typesOf p).Mem (τ p)) {p : PortId} {A : TypeSet}
    (h : (p, A) ∈ allowed) : p ∈ r.ports ∧ A.Mem (τ p) := by
  cases r with
  | equal ports =>
    cases ports with
    | nil => cases ha
    | cons a rest =>
      obtain rfl := Option.some.inj ha
      obtain ⟨q, hq, he⟩ := List.mem_map.1 h
      cases he
      refine ⟨hq, (mem_foldl_inter rest _).2 ⟨?_, fun b hb => ?_⟩⟩
      · rw [hs p hq a List.mem_cons_self]
        exact hd a List.mem_cons_self
      · rw [hs p hq b (List.mem_cons_of_mem a hb)]
        exact hd b (List.mem_cons_of_mem a hb)
  | scalarOf v s =>
    obtain rfl := Option.some.inj ha
    have hvm := hd v (by simp [Rule.ports])
    have hsm := hd s (by simp [Rule.ports])
    have hscalar : τ s = (τ v).scalar := hs
    have hmem : ((d.typesOf s).inter (TypeSet.ofList
        ((d.typesOf v).toList.map ValueType.scalar))).Mem (τ s) := by
      refine TypeSet.mem_inter.2 ⟨hsm, TypeSet.mem_ofList.2 ⟨?_, hsm.inMask⟩⟩
      rw [hscalar]
      exact List.mem_map_of_mem hvm
    simp only [List.mem_cons, Prod.mk.injEq, List.not_mem_nil, or_false] at h
    rcases h with ⟨rfl, rfl⟩ | ⟨rfl, rfl⟩
    · refine ⟨by simp [Rule.ports], TypeSet.mem_filter.2 ⟨hvm, TypeSet.has_iff.2 ?_⟩⟩
      rw [← hscalar]
      exact ⟨hv s (by simp [Rule.ports]), hmem⟩
    · exact ⟨by simp [Rule.ports], hmem⟩
  | minSize q k =>
    obtain rfl := Option.some.inj ha
    rw [List.mem_singleton, Prod.mk.injEq] at h
    obtain ⟨rfl, rfl⟩ := h
    exact ⟨by simp [Rule.ports], TypeSet.mem_filter.2
      ⟨hd p (by simp [Rule.ports]), decide_eq_true (show k < (τ p).size from hs)⟩⟩
  | resized i o k =>
    obtain rfl := Option.some.inj ha
    have him := hd i (by simp [Rule.ports])
    have hom := hd o (by simp [Rule.ports])
    have hov := hv o (by simp [Rule.ports])
    have hsize : τ o = (τ i).withSize k := hs
    have hmem : ((TypeSet.ofList (((d.typesOf i).toList.map (·.withSize k)).filter
        ValueType.isValid)).inter (d.typesOf o)).Mem (τ o) := by
      refine TypeSet.mem_inter.2 ⟨TypeSet.mem_ofList.2 ⟨List.mem_filter.2 ⟨?_, hov⟩, hom.inMask⟩, hom⟩
      rw [hsize]
      exact List.mem_map_of_mem (f := fun t : ValueType => t.withSize k) him
    simp only [List.mem_cons, Prod.mk.injEq, List.not_mem_nil, or_false] at h
    rcases h with ⟨rfl, rfl⟩ | ⟨rfl, rfl⟩
    · refine ⟨by simp [Rule.ports], TypeSet.mem_filter.2 ⟨him, TypeSet.has_iff.2 ?_⟩⟩
      rw [← hsize]
      exact ⟨hov, hmem⟩
    · exact ⟨by simp [Rule.ports], hmem⟩
  | sameDimension f q =>
    obtain rfl := Option.some.inj ha
    have hfm := hd f (by simp [Rule.ports])
    have hqm := hd q (by simp [Rule.ports])
    have hsize : (τ f).size = (τ q).size := hs
    have hmem : ((d.typesOf q).filter fun t =>
        ((d.typesOf f).toList.map ValueType.size).contains t.size).Mem (τ q) := by
      refine TypeSet.mem_filter.2 ⟨hqm, ?_⟩
      rw [List.contains_iff_mem, ← hsize]
      exact List.mem_map_of_mem hfm
    simp only [List.mem_cons, Prod.mk.injEq, List.not_mem_nil, or_false] at h
    rcases h with ⟨rfl, rfl⟩ | ⟨rfl, rfl⟩
    · refine ⟨by simp [Rule.ports], TypeSet.mem_filter.2 ⟨hfm, ?_⟩⟩
      rw [List.contains_iff_mem, hsize]
      exact List.mem_map_of_mem hmem
    · exact ⟨by simp [Rule.ports], hmem⟩
  | combine ports =>
    rw [Rule.allowed] at ha
    split at ha
    · cases ha
    · obtain rfl := Option.some.inj ha
      exact ⟨(List.of_mem_zip h).1, support_mem hd hs h⟩

/-- **Narrowing keeps solutions**: it succeeds, and a type that the choice gives a port stays. -/
theorem narrow_keeps (hs : r.Satisfied τ) (hv : ∀ p ∈ r.ports, (τ p).isValid = true)
    (hd : ∀ p ∈ r.ports, (d.typesOf p).Mem (τ p)) :
    ∃ d' touched, r.narrow d = some (d', touched) ∧
      ∀ p, (d.typesOf p).Mem (τ p) → (d'.typesOf p).Mem (τ p) := by
  have hall : ∀ p A, (p, A) ∈ (r.allowed d).getD [] → p ∈ r.ports ∧ A.Mem (τ p) := by
    intro p A h
    cases ha : r.allowed d with
    | none => rw [ha] at h; cases h
    | some allowed =>
      rw [ha] at h
      exact allowed_mem ha hs hv hd h
  obtain ⟨d', touched, hn⟩ := Domains.narrow_eq_some (d := d) (τ := τ)
    fun p A h => ⟨hd p (hall p A h).1, (hall p A h).2⟩
  refine ⟨d', touched, hn, fun p hp => ?_⟩
  exact ((Domains.narrow_spec hn).1 p (τ p)).2 ⟨hp, fun A hA => (hall p A hA).2⟩

/-- **A rule holds of single types exactly if they satisfy it.** -/
theorem holds_iff (hp : r.Proper) (hv : ∀ p ∈ r.ports, (τ p).isValid = true)
    (hl : Left d τ r.ports) : r.holds d = true ↔ r.Satisfied τ := by
  rw [holds, effect, beq_iff_eq]
  constructor
  · intro h
    split at h
    · cases h
    · rename_i d' hn
      obtain ⟨-, hkeep, -⟩ := Domains.narrow_spec hn
      have hset := (narrow_settled hp hn).congr fun p _ => (hkeep p List.not_mem_nil).symm
      exact hset τ hl
    · cases h
  · intro hs
    obtain ⟨d', touched, hn, hkeep⟩ := narrow_keeps hs hv fun p hp => hl.mem hp
    obtain ⟨hmem, huntouched, hsize⟩ := Domains.narrow_spec hn
    -- no port of the rule can lose its only type, and no other port changes
    have hsame : d' = d := by
      refine Domains.ext_typesOf hsize fun p t => ⟨fun h => ((hmem p t).1 h).1, fun h => ?_⟩
      by_cases hp : p ∈ r.ports
      · rw [hl.eq hp h]
        exact hkeep p (hl.mem hp)
      · refine (hmem p t).2 ⟨h, fun A hA => ?_⟩
        cases ha : r.allowed d with
        | none => rw [ha] at hA; cases hA
        | some allowed =>
          rw [ha] at hA
          exact absurd (allowed_mem ha hs hv (fun p hp => hl.mem hp) hA).1 hp
    have hweight := Domains.weight_narrow hn
    rw [hsame] at hweight
    have htouched : touched = [] := List.length_eq_zero_iff.1 (by omega)
    rw [hn, htouched]

end Rule

/-! ### The declared types -/

theorem ValueType.isValid_texture {dim : Int} (h₁ : 1 ≤ dim) (h₃ : dim ≤ 3) :
    (ValueType.texture1D.withSize dim).isValid = true := by
  have hcases : dim = 1 ∨ dim = 2 ∨ dim = 3 := by omega
  rcases hcases with rfl | rfl | rfl <;> decide

/-- **What holds of every declared set of types**: it holds of the sets of fixed ports, of those that
combinations, expressions and fields take, and of every single valid type. -/
theorem type_of_portSpecs {P : TypeSet → Prop} {kind : NodeKind} {params : Params}
    {ins outs : List PortSpec} (hfixed : ∀ s ∈ kind.inputs ++ kind.outputs, P s.type)
    (hone : ∀ t : ValueType, t.isValid = true → P (.singleton t)) (hnumeric : P .anyNumeric)
    (hcombine : P combineType) (hfloating : P .anyFloating) (hfloat : P .anyFloat)
    (h : portSpecs kind params = .ok (ins, outs)) : ∀ s ∈ ins ++ outs, P s.type := by
  -- the inputs of combinations and expressions differ by their names only
  have hnames : ∀ (names : List String) {type : TypeSet}, P type →
      ∀ s ∈ names.map (fun name => (⟨name, type, false, false⟩ : PortSpec)), P s.type := by
    intro names type ht s hs
    obtain ⟨name, -, rfl⟩ := List.mem_map.1 hs
    exact ht
  cases ported_of_portSpecs h with
  | fixed => exact hfixed
  | constant _ _ hv => exact List.forall_mem_singleton.2 (hone _ hv)
  | texture _ _ h₁ h₃ =>
    exact List.forall_mem_singleton.2 (hone _ (ValueType.isValid_texture h₁ h₃))
  | combine =>
    exact List.forall_mem_append.2 ⟨hnames _ hnumeric, List.forall_mem_singleton.2 hcombine⟩
  | math _ _ hports =>
    rw [(variablePorts_eq_ok hports).1]
    exact List.forall_mem_append.2 ⟨hnames _ hfloating, List.forall_mem_singleton.2 hfloating⟩
  | field _ _ h₁ h₃ =>
    exact List.forall_mem_append.2 ⟨List.forall_mem_singleton.2 hfloat,
      List.forall_mem_singleton.2 (hone _ (ValueType.isValid_texture h₁ h₃))⟩

/-- **Every kind of node declares ports of valid types only.** -/
theorem sound_of_portSpecs {kind : NodeKind} {params : Params} {ins outs : List PortSpec}
    (h : portSpecs kind params = .ok (ins, outs)) :
    ∀ s ∈ ins ++ outs, ∀ t ∈ s.type.toList, t.isValid = true := by
  refine type_of_portSpecs (P := fun type => ∀ t ∈ type.toList, t.isValid = true) ?_ ?_
    (by decide) (by decide) (by decide) (by decide) h
  · cases kind with
    | unknown code => exact fun s hs => absurd hs List.not_mem_nil
    | _ => decide
  · intro t ht u hu
    rw [(TypeSet.mem_singleton.1 hu).1]
    exact ht

/-- **Every kind of node declares ports that have a type.** -/
theorem exists_mem_of_portSpecs {kind : NodeKind} {params : Params} {ins outs : List PortSpec}
    (h : portSpecs kind params = .ok (ins, outs)) : ∀ s ∈ ins ++ outs, ∃ t, s.type.Mem t := by
  intro s hs
  have hne : s.type.isEmpty = false := by
    refine type_of_portSpecs (P := fun type => type.isEmpty = false) ?_ ?_
      (by decide) (by decide) (by decide) (by decide) h s hs
    · cases kind with
      | unknown code => exact fun s hs => absurd hs List.not_mem_nil
      | _ => decide
    · intro t ht
      rw [← Bool.not_eq_true]
      exact TypeSet.not_isEmpty_of_mem (TypeSet.mem_singleton.2 ⟨rfl, TypeSet.inMask_of_isValid ht⟩)
  exact TypeSet.isEmpty_eq_false hne

namespace Graph

variable {g : Graph} {τ : PortId → ValueType} {a : TypeAssignment}

/-- A port of a built graph is one that the kind of its node declares. -/
theorem Consistent.port_spec (hg : g.Consistent) {q : PortId} {p : Port} (hp : g.port? q = some p) :
    ∃ kind params ins outs, portSpecs kind params = .ok (ins, outs) ∧ p.spec ∈ ins ++ outs := by
  obtain ⟨i, n, hn, -, hq⟩ := hg.owner q p hp
  obtain ⟨ins, outs, hs, hi, ho⟩ := (hg.node i n hn).ports
  refine ⟨_, _, ins, outs, hs, ?_⟩
  cases hd : p.direction with
  | input =>
    rw [hd] at hq
    obtain ⟨s, hsm, p', hp', he, -⟩ := exists_of_mem_left hi.specs hq
    rw [hp] at hp'
    cases hp'
    rw [he]
    exact List.mem_append_left _ (List.fst_mem_of_mem_zipIdx hsm)
  | output =>
    rw [hd] at hq
    obtain ⟨s, hsm, p', hp', he, -⟩ := exists_of_mem_left ho.specs hq
    rw [hp] at hp'
    cases hp'
    rw [he]
    exact List.mem_append_right _ (List.fst_mem_of_mem_zipIdx hsm)

/-- The declared types of a port of a built graph are valid. -/
theorem Consistent.isValid_of_mem (hg : g.Consistent) {q : PortId} {p : Port} {t : ValueType}
    (hp : g.port? q = some p) (ht : p.type.Mem t) : t.isValid = true := by
  obtain ⟨kind, params, ins, outs, hs, hspec⟩ := hg.port_spec hp
  exact sound_of_portSpecs hs p.spec hspec t ht

/-- A port of a built graph has a declared type. -/
theorem Consistent.exists_type (hg : g.Consistent) {q : PortId} {p : Port}
    (hp : g.port? q = some p) : ∃ t, p.type.Mem t := by
  obtain ⟨kind, params, ins, outs, hs, hspec⟩ := hg.port_spec hp
  exact exists_mem_of_portSpecs hs p.spec hspec

/-- The types of a typing are valid. -/
theorem Typed.isValid (ht : g.Typed τ) (hg : g.Consistent) {q : PortId} {p : Port}
    (hp : g.port? q = some p) : (τ q).isValid = true :=
  hg.isValid_of_mem hp (ht.declared q p hp)

/-- The constraints of a built graph are about its ports, and their rules are proper. -/
theorem Consistent.constraint_ports (hg : g.Consistent) {cs : List Constraint}
    (h : g.constraints = .ok cs) {c : Constraint} (hc : c ∈ cs) :
    c.rule.Proper ∧ ∀ q ∈ c.rule.ports, ∃ p, g.port? q = some p := by
  rcases mem_constraints h hc with ⟨e, he, hr⟩ | ⟨i, n, rs, hn, hrs, hr⟩
  · rw [hr]
    obtain ⟨⟨p, hp, -⟩, p', hp', -⟩ := hg.ends e he
    refine ⟨trivial, fun q hq => ?_⟩
    rcases List.mem_cons.1 hq with rfl | hq
    · exact ⟨p, hp⟩
    · rw [List.mem_singleton.1 hq]
      exact ⟨p', hp'⟩
  · obtain ⟨hproper, hports⟩ := hg.rules hn hrs hr
    refine ⟨hproper, fun q hq => ?_⟩
    rcases List.mem_append.1 (hports q hq) with hq | hq
    · obtain ⟨p, hp, -⟩ := hg.input_port hn hq
      exact ⟨p, hp⟩
    · obtain ⟨p, hp, -⟩ := hg.output_port hn hq
      exact ⟨p, hp⟩

theorem portNumber_isOk {ports : List PortId} {k : Nat} (h : k < ports.length) :
    ∃ q, portNumber ports k = .ok q :=
  ⟨ports[k], portNumber_eq_ok.2 (List.getElem?_eq_getElem h)⟩

/-- **The rules of every node of a built graph can be stated.** -/
theorem Consistent.exists_nodeRules (hg : g.Consistent) {i : Nat} {n : Node}
    (hn : g.nodes[i]? = some n) : ∃ rs, g.nodeRules n = .ok rs := by
  obtain ⟨ins, outs, hs, hi, ho⟩ := (hg.node i n hn).ports
  have hin : n.inputs.length = ins.length := by rw [hi.length_eq, List.length_zipIdx]
  have hout : n.outputs.length = outs.length := by rw [ho.length_eq, List.length_zipIdx]
  cases ported_of_portSpecs hs with
  | constant hk => exact ⟨[], by rw [nodeRules, hk]; rfl⟩
  | texture hk => exact ⟨[], by rw [nodeRules, hk]; rfl⟩
  | field hk => exact ⟨[], by rw [nodeRules, hk]; rfl⟩
  | combine hk => exact ⟨_, by rw [nodeRules, hk]; rfl⟩
  | math hk =>
    rw [nodeRules, hk]
    refine bind_isOk (portNumber_isOk ?_) fun _ _ => ⟨_, rfl⟩
    rw [List.length_append, hout]
    exact Nat.lt_of_lt_of_le Nat.one_pos (Nat.le_add_left _ _)
  | fixed =>
    have hequal : 0 < (n.inputs ++ n.outputs).length →
        ∃ rs, (portNumber (n.inputs ++ n.outputs) 0 >>= fun _ =>
          pure [Rule.equal (n.inputs ++ n.outputs)]) = .ok rs :=
      fun h => bind_isOk (portNumber_isOk h) fun _ _ => ⟨_, rfl⟩
    -- the numbers of the ports a kind has
    have hinput : ∀ {k : Nat}, k < n.kind.inputs.length → ∃ q, portNumber n.inputs k = .ok q :=
      fun h => portNumber_isOk (hin ▸ h)
    have houtput : ∀ {k : Nat}, k < n.kind.outputs.length → ∃ q, portNumber n.outputs k = .ok q :=
      fun h => portNumber_isOk (hout ▸ h)
    rw [nodeRules]
    split <;> rename_i hk <;> first
      | exact ⟨[], rfl⟩
      | exact hequal (by rw [List.length_append, hin, hout, hk]; decide)
      | skip
    all_goals rw [hk] at hinput houtput hs
    · -- the ports of an expression are not fixed
      cases hp : n.params with
      | math source names =>
        rw [hp] at hs
        obtain ⟨ports, -, he⟩ := map_eq_ok.1 hs
        cases (Prod.mk.inj he).2
      | _ =>
        rw [hp] at hs
        cases hs
    · -- length
      exact bind_isOk (hinput (by decide)) fun _ _ => bind_isOk (houtput (by decide)) fun _ _ => ⟨_, rfl⟩
    · -- dot
      exact bind_isOk (hinput (by decide)) fun _ _ => bind_isOk (houtput (by decide)) fun _ _ => ⟨_, rfl⟩
    · -- compare
      exact bind_isOk (hinput (by decide)) fun _ _ => ⟨_, rfl⟩
    · -- conditional
      exact bind_isOk (hinput (by decide)) fun _ _ => bind_isOk (hinput (by decide)) fun _ _ =>
        bind_isOk (houtput (by decide)) fun _ _ => ⟨_, rfl⟩
    · -- swizzle
      cases hp : n.params with
      | swizzle selector =>
        exact bind_isOk (hinput (by decide)) fun _ _ => bind_isOk (hinput (by decide)) fun _ _ =>
          bind_isOk (houtput (by decide)) fun _ _ => ⟨_, rfl⟩
      | _ =>
        rw [hp] at hs
        cases hs
    · -- combine
      exact ⟨_, rfl⟩
    · -- separate
      refine bind_isOk (hinput (by decide)) fun v _ => bind_isOk (mapM_isOk fun e he => ?_) fun _ _ =>
        ⟨_, rfl⟩
      have hq : e.1 ∈ n.outputs := List.fst_mem_of_mem_zipIdx he
      obtain ⟨p, hport, -⟩ := hg.output_port hn hq
      dsimp only
      rw [hport]
      exact ⟨_, rfl⟩
    · -- sample
      exact bind_isOk (hinput (by decide)) fun _ _ => bind_isOk (hinput (by decide)) fun _ _ => ⟨_, rfl⟩
    · -- a kind that is none is refused
      have hv := (hg.node i n hn).valid
      rw [hk] at hv
      cases hv
    · have hv := (hg.node i n hn).valid
      rw [hk] at hv
      cases hv

/-- **The constraints of a built graph can be stated.** -/
theorem Consistent.exists_constraints (hg : g.Consistent) : ∃ cs, g.constraints = .ok cs := by
  rw [Graph.constraints]
  refine bind_isOk (mapM_isOk fun e he => ?_) fun es _ =>
    bind_isOk (mapM_isOk fun n hn => ?_) fun ns _ => ⟨_, rfl⟩
  · obtain ⟨-, p, hp, -⟩ := hg.ends e he
    obtain ⟨i, n, hn, hi, -⟩ := hg.owner _ p hp
    have ho : g.owner? e.target = some n := by
      rw [owner?, (hg.ownerPosition?_eq hp).2 hi, Option.bind_some, hn]
    rw [ho]
    exact ⟨_, rfl⟩
  · obtain ⟨i, hi⟩ := List.getElem?_of_mem hn
    rw [Array.getElem?_toList] at hi
    exact bind_isOk (hg.exists_nodeRules hi) fun _ _ => ⟨_, rfl⟩

/-- A typing satisfies every constraint. -/
theorem Typed.satisfies (ht : g.Typed τ) {cs : List Constraint} (h : g.constraints = .ok cs)
    {c : Constraint} (hc : c ∈ cs) : c.rule.Satisfied τ := by
  rcases mem_constraints h hc with ⟨e, he, hr⟩ | ⟨i, n, rs, hn, hrs, hr⟩
  · rw [hr]
    have heq := ht.edges e he
    intro p hp q hq
    have hall : ∀ q ∈ [e.source, e.target], τ q = τ e.target := by
      intro q hq
      rcases List.mem_cons.1 hq with rfl | hq
      · exact heq
      · rw [List.mem_singleton.1 hq]
    rw [hall p hp, hall q hq]
  · obtain ⟨rs', hrs', hall⟩ := ht.rules i n hn
    rw [hrs] at hrs'
    cases hrs'
    exact hall c.rule hr

/-! ### Checking -/

/-- The declared types are checked port by port. -/
theorem checkDeclared_eq_ok (hsize : a.size = g.ports.size) :
    g.checkDeclared a = .ok () ↔
      ∀ q p, g.port? q = some p → p.type.has (assigned a q) = true := by
  rw [checkDeclared, forM_eq_ok]
  have hpair : ∀ p t, (p, t) ∈ g.ports.toList.zip a.toList ↔
      ∃ k : Nat, g.ports[k]? = some p ∧ a[k]? = some t := by
    intro p t
    rw [List.mem_iff_getElem?]
    simp only [List.getElem?_zip_eq_some, Array.getElem?_toList]
  constructor
  · intro h q p hp
    obtain ⟨k, rfl, hk⟩ := at?_eq_some hp
    have hlt : k < a.size := by
      rw [hsize]
      exact (Array.getElem?_eq_some_iff.1 hk).1
    have hak : a[k]? = some a[k] := Array.getElem?_eq_getElem hlt
    have hok := h (p, a[k]) ((hpair p a[k]).2 ⟨k, hk, hak⟩)
    rw [assigned, at?_natCast, hak, Option.getD_some]
    dsimp only at hok
    split at hok
    · assumption
    · split at hok <;> cases hok
  · rintro h ⟨p, t⟩ hpt
    obtain ⟨k, hk, hak⟩ := (hpair p t).1 hpt
    have hhas := h (k : PortId) p hk
    rw [assigned, at?_natCast, hak, Option.getD_some] at hhas
    dsimp only
    rw [if_pos hhas]

/-- **Checking accepts exactly the typings of a graph.** -/
theorem checkTypes_iff (hg : g.Consistent) :
    g.checkTypes a = .ok () ↔ a.size = g.ports.size ∧ g.Typed (assigned a) := by
  by_cases hsize : a.size = g.ports.size
  swap
  · refine ⟨fun h => ?_, fun h => absurd h.1 hsize⟩
    rw [checkTypes, if_pos hsize] at h
    cases h
  -- the single types that are checked
  have hleft : ∀ ports : List PortId, (∀ q ∈ ports, ∃ p, g.port? q = some p) →
      g.checkDeclared a = .ok () →
      Rule.Left (a.map .singleton) (assigned a) ports ∧ ∀ q ∈ ports, (assigned a q).isValid = true := by
    intro ports hports hdecl
    have hvalid : ∀ q ∈ ports, (assigned a q).isValid = true := by
      intro q hq
      obtain ⟨p, hp⟩ := hports q hq
      exact (TypeSet.has_iff.1 ((checkDeclared_eq_ok hsize).1 hdecl q p hp)).1
    refine ⟨fun q hq => ?_, hvalid⟩
    obtain ⟨p, hp⟩ := hports q hq
    have hv := hvalid q hq
    obtain ⟨k, rfl, hk⟩ := at?_eq_some hp
    have hlt : k < a.size := by
      rw [hsize]
      exact (Array.getElem?_eq_some_iff.1 hk).1
    have hak : assigned a (k : PortId) = a[k] := by
      rw [assigned, at?_natCast, Array.getElem?_eq_getElem hlt, Option.getD_some]
    rw [hak] at hv ⊢
    rw [Domains.typesOf, at?_natCast, Array.getElem?_map, Array.getElem?_eq_getElem hlt,
      Option.map_some, Option.getD_some]
    exact TypeSet.toList_singleton hv
  rw [checkTypes, if_neg (by simpa using hsize)]
  constructor
  · intro h
    refine ⟨hsize, ?_⟩
    obtain ⟨⟨⟩, hdecl, h⟩ := bind_eq_ok.1 h
    cases hcs : g.constraints with
    | error e => rw [hcs] at h; cases h
    | ok cs =>
      rw [hcs] at h
      dsimp only at h
      rw [forM_eq_ok] at h
      have hsat : ∀ c ∈ cs, c.rule.Satisfied (assigned a) := by
        intro c hc
        obtain ⟨hproper, hports⟩ := hg.constraint_ports hcs hc
        obtain ⟨hl, hv⟩ := hleft _ hports hdecl
        have hok := h c hc
        split at hok
        · rename_i hholds
          exact (Rule.holds_iff hproper hv hl).1 hholds
        · cases hok
      obtain ⟨hedges, hnodes⟩ := constraints_complete hcs
      refine ⟨?_, ?_, ?_⟩
      · intro q p hp
        exact (TypeSet.has_iff.1 ((checkDeclared_eq_ok hsize).1 hdecl q p hp)).2
      · intro e he
        obtain ⟨c, hc, hr⟩ := hedges e he
        have hs := hsat c hc
        rw [hr] at hs
        exact hs e.source List.mem_cons_self e.target (List.mem_cons_of_mem _ List.mem_cons_self)
      · intro i n hn
        obtain ⟨rs, hrs, hall⟩ := hnodes i n hn
        refine ⟨rs, hrs, fun r hr => ?_⟩
        obtain ⟨c, hc, rfl⟩ := hall r hr
        exact hsat c hc
  · rintro ⟨-, ht⟩
    have hdecl : g.checkDeclared a = .ok () := (checkDeclared_eq_ok hsize).2 fun q p hp =>
      TypeSet.has_iff.2 ⟨ht.isValid hg hp, ht.declared q p hp⟩
    obtain ⟨cs, hcs⟩ := hg.exists_constraints
    refine bind_eq_ok.2 ⟨(), hdecl, ?_⟩
    rw [hcs]
    dsimp only
    rw [forM_eq_ok]
    intro c hc
    obtain ⟨hproper, hports⟩ := hg.constraint_ports hcs hc
    obtain ⟨hl, hv⟩ := hleft _ hports hdecl
    rw [if_pos ((Rule.holds_iff hproper hv hl).2 (ht.satisfies hcs hc))]

end Graph

end NodeShader
