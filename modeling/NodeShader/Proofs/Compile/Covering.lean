import NodeShader.Evaluate.Wedge
import NodeShader.Proofs.Compile.Faithful
import NodeShader.Proofs.Compile.Hashing
import NodeShader.Proofs.Evaluate.Relevance
import NodeShader.Proofs.Stage.Bodies

/-!
# What a body reads

A body declares the inputs that its nodes ask for, and no others; and it reads the time only if one of
its nodes is the time.  Both are an allowance that every step of the body keeps to, taken from the
nodes in the order of the plan (`StagePlan.draftBody_keeps`).
-/

namespace NodeShader

open Spirv

variable {p : StagePlan} {d : Draft} {i : Nat}

/-- **What the nodes of a plan allow**: the inputs that they ask for, the extent of a field, and the
time if one of them is the time. -/
def StagePlan.allowance (p : StagePlan) : Allowance where
  reads m := m = .extent ∨
    m = .time ∧ ∃ i ∈ p.order, ∃ n, p.graph.nodes[i]? = some n ∧ n.kind = .time
  inputs name := name = "gid" ∨ ∃ i ∈ p.order, ∃ input, p.Asks i input ∧ name = input.name

theorem StagePlan.allowance_grants (hi : i ∈ p.order) : p.allowance.Grants p i where
  texel := .inl rfl
  asked := fun input h => .inr ⟨i, hi, input, h, rfl⟩

/-- The nodes of a plan are written without leaving them. -/
theorem StagePlan.Planned.confined (hp : p.Planned) : p.Confined p.allowance (· ∈ p.order) where
  extent := .inl rfl
  time := fun i n hi hn hk => .inr ⟨rfl, i, hi, n, hn, hk⟩
  arms := by
    intro i n hi hn hk k hlt j hj
    rw [Drafting.armNodes_conditional hp hi hn hk hlt] at hj
    exact (StagePlan.Planned.mem_members.1 hj).1

/-- **A body keeps to what its nodes allow.** -/
theorem StagePlan.draftBody_keeps (hp : p.Planned) (h : p.draftBody = .ok d) :
    ∃ model, (Draft.new model).Keeps p.allowance d := by
  obtain ⟨root, model, mode, params, u, -, -, hdraws⟩ := draws_draftBody.1 h
  rw [Drafting.stageBody] at hdraws
  obtain ⟨_, d₁, h₁, hdraws⟩ := Drafting.draws_bind.1 hdraws
  obtain ⟨_, d₂, h₂, hdraws⟩ := Drafting.draws_bind.1 hdraws
  have hdeclare : ∀ (l : List Nat) (d d' : Draft) (u : Unit), (∀ i ∈ l, i ∈ p.order) →
      Drafting.Draws (l.forM (Drafting.declareNode p)) d u d' → d.Keeps p.allowance d' := by
    intro l
    induction l with
    | nil =>
      intro d d' u _ h
      rw [(Drafting.draws_pure.1 h).2]
      exact .refl d
    | cons i l ih =>
      intro d d' u hl h
      obtain ⟨_, d₁, h₁, h₂⟩ := Drafting.draws_bind.1 h
      exact (Drafting.keeps_declareNode (allowance_grants (hl i List.mem_cons_self)) h₁).trans
        (ih d₁ d' _ (fun j hj => hl j (List.mem_cons_of_mem i hj)) h₂)
  have hshared : ∀ i ∈ p.region.shared, i ∈ p.order := by
    intro i hi
    rw [hp.shared] at hi
    exact (StagePlan.Planned.mem_members.1 hi).1
  exact ⟨model, (Drafting.steady_begin.keeps h₁).trans ((hdeclare _ _ _ _ (fun _ hi => hi) h₂).trans
    ((Drafting.steady_code hp.confined hshared mode params).keeps hdraws))⟩

/-! ### Inputs -/

/-- A body declares an input of the fragment body, under its name. -/
def Body.Declares (b : Body) (input : StageInput) : Prop :=
  ∃ r ∈ b.resources, r.kind = .stageInput ∧ r.name = input.name

theorem StageInput.name_injective : Function.Injective StageInput.name := by
  intro a b h
  cases a <;> cases b <;> first | rfl | exact absurd h (by decide)

/-- **The inputs that a body declares** are those that its nodes ask for. -/
theorem StagePlan.asks_of_declares (hp : p.Planned) (h : p.draftBody = .ok d) {input : StageInput}
    (hd : d.body.Declares input) : ∃ i ∈ p.order, p.Asks i input := by
  obtain ⟨model, hkeeps⟩ := draftBody_keeps hp h
  obtain ⟨r, hr, hk, hname⟩ := hd
  rcases hkeeps.inputs r hr hk with hnew | htexel | ⟨i, hi, other, hasks, hother⟩
  · cases hnew
  · have hne : ∀ input : StageInput, input.name ≠ "gid" := by
      intro input
      cases input <;> decide
    exact absurd (hname.symm.trans htexel) (hne input)
  · obtain rfl := StageInput.name_injective (hname.symm.trans hother)
    exact ⟨i, hi, hasks⟩

/-! ### Global values -/

/-- A draft reads one of the global values: its module has an access chain to it. -/
def Draft.Reads (d : Draft) (m : GlobalMember) : Prop :=
  ∃ i ∈ d.builder.instructions, m.ReachedBy d.builder.instructions i

/-- Only the function of a body has access chains. -/
theorem Draft.Holds.mem_chains [NameLimit] {I : Interpretation} {void type entry mode : UInt32}
    {c : Code} {Γ : Context I} {o : List (Output I.Value)} {params : List UInt32} {k : Instruction}
    (h : d.Holds p I void type entry c Γ o)
    (hk : k ∈ (d.declareEntry mode params).builder.instructions) (hop : k.opcode = .accessChain) :
    k ∈ (d.declareEntry mode params).builder.chains := by
  obtain ⟨s, hs⟩ := ModuleBuilder.mem_instructions.1 hk
  have hfunction : s = .functions := by
    rw [Draft.declareEntry_entries, List.mem_append] at hs
    rcases hs with hs | hs
    · by_contra hne
      cases h.sound.forms s k hs hne <;> cases hop
    · simp only [List.mem_cons, List.not_mem_nil, or_false, Prod.mk.injEq] at hs
      rcases hs with ⟨-, rfl⟩ | ⟨-, rfl⟩ <;> cases hop
  subst hfunction
  exact List.mem_filter.2 ⟨ModuleBuilder.mem_sectionOf.2 hs, by rw [hop]; rfl⟩

end NodeShader

/-!
## What the domains of stages cover

The domain of a stage is made from the kinds of its nodes, while the inputs of its body are declared
as nodes ask for them.  A sample without a position of its own asks for an input and adds nothing to the
domain, so the domain misses this input (`Graph.compile_uncovered`), and no other.

* `StagePlan.time_of_reads`: a body that reads the time has a node that is the time.
* `StagePlan.covers_of_build`: the domain of a stage covers the body it is built with, but for the
  inputs of open samples.
* `Graph.Built.compile_covers`: **two evaluations that agree on the domain of a stage** are the same to
  its body in all that the domain covers.
-/

namespace NodeShader

open Spirv

variable {g : Graph} {p : StagePlan} {c : Compilation} {s : CompiledStage} {d : Draft}

/-! ### Flags -/

/-- A domain includes another if it has its flags. -/
theorem Domain.includes_iff {a b : Domain} :
    a.includes b = true ↔ ∀ k, b.has k = true → a.has k = true := by
  rw [includes, beq_iff_eq]
  constructor
  · intro h k hk
    rw [has, ← h, BitVec.getLsbD_and, Bool.and_eq_true] at hk
    exact hk.1
  · intro h
    refine BitVec.eq_of_getLsbD_eq fun k _ => ?_
    rw [BitVec.getLsbD_and]
    cases hk : b.flags.getLsbD k with
    | false => rw [Bool.and_false]
    | true => rw [Bool.and_true]; exact h k hk

/-- **The domain of a stage includes those of its nodes.** -/
theorem StagePlan.includes_of_build {built : List CompiledStage} (h : p.build built = .ok s) {i : Nat}
    {n : Node} (hi : i ∈ s.stage.nodes) (hn : p.graph.nodes[i]? = some n) :
    s.stage.domain.includes n.domain = true :=
  Domain.includes_iff.2 fun _ hk => (has_domain_of_build h).2 (.inl ⟨i, hi, n, hn, hk⟩)

/-- **A body that reads the time** has a node that is the time. -/
theorem StagePlan.time_of_reads (hp : p.Planned) (h : p.draftBody = .ok d)
    (hfew : d.builder.nextId ≤ 4294967296) (hd : d.Reads .time) :
    ∃ i ∈ p.order, ∃ n, p.graph.nodes[i]? = some n ∧ n.kind = .time := by
  obtain ⟨N, hnames⟩ := p.graph.exists_nameLimit
  obtain ⟨model, hkeeps⟩ := draftBody_keeps hp h
  obtain ⟨_, _, mode, params, d₀, void, type, entry, k, Γ, o, -, -, hd₀, -, -, rfl⟩ :=
    draftBody_spec .trivial hp hnames h
  obtain ⟨chain, hchain, pointer, place, base, t, index, rfl, hconst⟩ := hd
  have hlisted : (Draft.new model).builder.Listed := fun _ _ _ hm => by cases hm
  rcases hkeeps.chains hlisted _ (hd₀.mem_chains hchain rfl) with hnew | ⟨m, hm, hreach⟩
  · cases hnew
  -- the number of the member is that of the one constant with this identifier
  obtain ⟨pointer', place', base', t', index', heq, hconst'⟩ := hreach
  simp only [Instruction.mk.injEq, List.cons.injEq, and_true, true_and] at heq
  obtain ⟨-, -, -, rfl⟩ := heq
  have hdistinct : ((d₀.declareEntry mode params).builder.instructions.filterMap (·.result?)).Nodup := by
    rw [(ModuleBuilder.results_perm _).nodup_iff, Draft.declareEntry_results]
    exact hd₀.nodup_results hfew
  have hsame := eq_of_result hdistinct hconst
    (ModuleBuilder.sectionOf_subset_instructions _ _ hconst') rfl rfl
  rcases hm with rfl | ⟨-, htime⟩
  · simp [GlobalMember.index] at hsame
  · exact htime

/-! ### Bodies of stages -/

/-- The draft of the body that the stage of a root has of its own. -/
def Graph.Drafts (g : Graph) (types : TypeAssignment) (fold : Bool) (root : Nat) (d : Draft) : Prop :=
  ∃ p, g.plan types fold root = .ok p ∧ p.draftBody = .ok d

/-- **A domain covers a body**: it includes what each input of the body changes with, unless an open
sample takes that input, and the time if the body reads the time. -/
structure CompiledStage.Covers (s : CompiledStage) (g : Graph) (τ : PortId → ValueType) (d : Draft) :
    Prop where
  inputs : ∀ input, d.body.Declares input →
    s.stage.domain.includes input.kind.domain = true ∨ ∃ i ∈ s.stage.nodes, g.SamplesAt τ i input
  time : d.builder.nextId ≤ 4294967296 → d.Reads .time → s.stage.domain.includes .timeVarying = true

/-- A node of the order that is no field has its code in the stage. -/
theorem StagePlan.mem_nodes_of_kind {i : Nat} {n : Node} (hi : i ∈ p.order)
    (hn : p.graph.nodes[i]? = some n) (hk : n.kind.isRoot = false) : i ∈ p.nodes :=
  List.mem_filter.2 ⟨hi, by rw [Drafting.isForeignRoot_eq_false hn (.inl hk)]; rfl⟩

/-- **A stage covers the body it is built with.** -/
theorem StagePlan.covers_of_build {built : List CompiledStage} (hp : p.Planned)
    (h : p.build built = .ok s) (hd : p.draftBody = .ok d) : s.Covers p.graph p.typeOf d := by
  have hnodes := (build_spec h).nodes
  refine ⟨fun input hinput => ?_, fun hfew htime => ?_⟩
  · obtain ⟨i, hi, ⟨n, hn, hk⟩ | hsample⟩ := asks_of_declares hp hd hinput
    · have hroot : n.kind.isRoot = false := by
        rw [hk]
        cases input <;> rfl
      have hincludes := includes_of_build h (hnodes ▸ mem_nodes_of_kind hi hn hroot) hn
      exact .inl (by rwa [Node.domain, hk] at hincludes)
    · obtain ⟨n, field, position, rest, port, hn, hk, -⟩ := id hsample
      exact .inr ⟨i, hnodes ▸ mem_nodes_of_kind hi hn (by rw [hk]; rfl), hsample⟩
  · obtain ⟨i, hi, n, hn, hk⟩ := time_of_reads hp hd hfew htime
    have hincludes := includes_of_build h (hnodes ▸ mem_nodes_of_kind hi hn (by rw [hk]; rfl)) hn
    rwa [Node.domain, hk] at hincludes

/-- A stage has one body of its own, next to the vertex body that all render stages share. -/
theorem StagePlan.own_body {u : Stage} (hp : p.Planned) (h : p.generate = .ok u)
    (hd : p.draftBody = .ok d) (b : Body) : b ∈ u.bodies ∧ b.model ≠ .vertex ↔ b = d.body := by
  have hmodels := models_of_generate hp h
  obtain ⟨n, d', -, hd', hbodies, hu⟩ := generate_eq_ok.1 h
  obtain rfl : d = d' := Except.ok.inj (hd.symm.trans hd')
  have hkind : u.kind = n.kind.stage := by rw [hu]
  rw [← hkind] at hbodies
  generalize u.kind = kind at *
  generalize u.bodies = bodies at *
  cases hbodies with
  | @render v _ =>
    obtain ⟨hv, hown⟩ : v.model = .vertex ∧ d.body.model = .fragment := by simpa [StageKind.models] using hmodels
    constructor
    · rintro ⟨hb, hne⟩
      rcases List.mem_cons.1 hb with rfl | hb
      · exact absurd hv hne
      · exact List.mem_singleton.1 hb
    · rintro rfl
      exact ⟨by simp, by rw [hown]; decide⟩
  | other hne =>
    cases kind with
    | none => cases hmodels
    | render => exact absurd rfl hne
    | compute =>
      have hown : d.body.model = .compute := by simpa [StageKind.models] using hmodels
      constructor
      · rintro ⟨hb, -⟩
        exact List.mem_singleton.1 hb
      · rintro rfl
        exact ⟨by simp, by rw [hown]; decide⟩

/-! ### Evaluations -/

section Evaluations

variable {i j : WedgeInputs} {domain : Domain}

/-- Two evaluations give an input of the fragment body alike: the position follows the transform, the
normal and the texture coordinates follow the model. -/
def StageInput.Same (i j : WedgeInputs) : StageInput → Prop
  | position => i.transform = j.transform
  | normal | texCoord => i.model = j.model

theorem StageInput.same_of_agree {input : StageInput} (h : WedgeInputs.Agree domain i j)
    (hd : domain.includes input.kind.domain = true) : input.Same i j := by
  cases input with
  | position => exact h.transform hd
  | normal => exact h.model hd
  | texCoord => exact h.model hd

/-- Evaluations that agree on a domain have the same hash. -/
theorem WedgeInputs.Agree.wedgeHash_eq (h : WedgeInputs.Agree domain i j) (hi : i.WellFormed)
    (hj : j.WellFormed) (hash : List UInt8) : wedgeHash hash domain i = wedgeHash hash domain j := by
  have htagged : ∀ {α : Type} {f : α → List UInt8} {a b : α} {C : Prop} [Decidable C], (C → a = b) →
      (if C then f a else []) = if C then f b else [] := by
    intro α f a b C _ hab
    split
    · rename_i hC
      rw [hab hC]
    · rfl
  rw [wedgeHash, wedgeHash, WedgeInputs.hashedBytes, WedgeInputs.hashedBytes,
    (hi.arguments_eq_iff hj).2 h.arguments,
    htagged (f := fun t => Text.bytes "time" ++ bytesOfWords [t]) h.time,
    htagged (f := fun t : Vector UInt32 16 => Text.bytes "transform" ++ bytesOfWords t.toList)
      h.transform,
    htagged (f := fun m : Uuid => Text.bytes "model" ++ m.toBytes) h.model]

end Evaluations

/-- **The domains of stages cover what their bodies take.**  A stage has one body of its own.  What
each input that this body declares changes with is in the domain of the stage, unless it is the
texture coordinates or the position and an open sample of the stage takes it; and if the body reads
the time, that is in the domain.  So two evaluations that agree on the domain have the same hash, and
the body sees the same in all that the domain covers. -/
theorem Graph.Built.compile_covers (hg : g.Built) {id : NodeId} {options : Options}
    (h : g.compile id options = .ok c) : ∀ s ∈ c.stages, ∃ d,
      g.Drafts c.types options.foldConstants s.stage.root d ∧
      (∀ b, b ∈ s.stage.bodies ∧ b.model ≠ .vertex ↔ b = d.body) ∧ s.Covers g c.typeOf d ∧
      ∀ i j, WedgeInputs.Agree s.stage.domain i j →
        (i.WellFormed → j.WellFormed →
          wedgeHash s.hash s.stage.domain i = wedgeHash s.hash s.stage.domain j) ∧
        (∀ input, d.body.Declares input →
          input.Same i j ∨ ∃ k ∈ s.stage.nodes, g.SamplesAt c.typeOf k input) ∧
        (d.builder.nextId ≤ 4294967296 → d.Reads .time → i.time = j.time) := by
  intro s hs
  obtain ⟨A, B, hAB⟩ := List.append_of_mem hs
  obtain ⟨htypes, p, hplan, hbuild⟩ := compile_split h hAB
  obtain ⟨hp, hlabels, -⟩ := Graph.plan_planned hg.consistent htypes hplan
  obtain ⟨⟨u, domain, hu, hstage⟩, -⟩ := StagePlan.build_parts hbuild
  obtain ⟨n, d, hgenerates⟩ := StagePlan.generate_eq_ok.1 hu
  have hgraph : p.graph = g := by rw [StagePlan.graph, hlabels]; rfl
  have htypeOf : p.typeOf = c.typeOf := by
    funext port
    rw [StagePlan.typeOf, Compilation.typeOf, Graph.plan_types hplan]
  have hcovers : s.Covers g c.typeOf d := by
    have := StagePlan.covers_of_build hp hbuild hgenerates.drafted
    rwa [hgraph, htypeOf] at this
  refine ⟨d, ⟨p, hplan, hgenerates.drafted⟩, fun b => ?_, hcovers, fun i j hagree =>
    ⟨fun hi hj => hagree.wedgeHash_eq hi hj s.hash, fun input hinput => ?_, fun hfew hreads => ?_⟩⟩
  · rw [hstage]
    exact StagePlan.own_body hp hu hgenerates.drafted b
  · exact (hcovers.inputs input hinput).imp_left (StageInput.same_of_agree hagree)
  · exact hagree.time (hcovers.time hfew hreads)

/-! ### A field of the time -/

namespace FieldExample

/-- The body of the field reads the time. -/
theorem field_reads : ∃ d, (stage 1 [0, 1]).draftBody = .ok d ∧ d.builder.nextId ≤ 4294967296 ∧
    d.Reads .time := by
  have hboth : ((stage 1 [0, 1]).draftBody.toOption.any fun d =>
      decide (d.builder.nextId ≤ 4294967296 ∧
        ⟨.accessChain, [20, 23, 9, 22]⟩ ∈ d.builder.instructions ∧
        ⟨.constant, [21, 22, 3]⟩ ∈ d.builder.instructions)) = true := by decide +kernel
  cases hd : (stage 1 [0, 1]).draftBody with
  | error e =>
    rw [hd] at hboth
    cases hboth
  | ok d =>
    rw [hd] at hboth
    obtain ⟨hfew, hchain, hconstant⟩ := of_decide_eq_true hboth
    exact ⟨d, rfl, hfew, _, hchain, _, _, _, _, _, rfl, hconstant⟩

/-- The body of the output declares the texture coordinates, for the sample. -/
theorem shown_declares : ∃ d, (stage 3 [1, 2, 3]).draftBody = .ok d ∧ d.body.model = .fragment ∧
    d.body.Declares .texCoord := by
  have hinput : ((stage 3 [1, 2, 3]).draftBody.toOption.any fun d =>
      decide (d.body.model = .fragment ∧
        ∃ r ∈ d.resources, r.kind = .stageInput ∧ r.name = StageInput.texCoord.name)) = true := by
    decide +kernel
  cases hd : (stage 3 [1, 2, 3]).draftBody with
  | error e =>
    rw [hd] at hinput
    cases hinput
  | ok d =>
    rw [hd] at hinput
    obtain ⟨hmodel, hdeclares⟩ := of_decide_eq_true hinput
    exact ⟨d, rfl, hmodel, hdeclares⟩

/-- A typing of the graph is the one typing it has. -/
theorem types_eq {τ : TypeAssignment} (h : (graph.resolveTypes 0).1 = .ok τ) : τ = types :=
  Except.ok.inj (h.symm.trans resolved)

end FieldExample

/-- The domain of the field includes the time, which its body reads. -/
theorem Graph.compile_covers_field : ∃ (c : Compilation) (s : CompiledStage) (d : Draft),
    FieldExample.graph.compile (Uuid.ofBytes [4]) ⟨false, 0⟩ = .ok c ∧ s ∈ c.stages ∧
      d.body ∈ s.stage.bodies ∧ d.Reads .time ∧ s.stage.domain.includes .timeVarying = true := by
  obtain ⟨c, hc, hroots⟩ := FieldExample.compiles
  obtain ⟨s, hs, hroot⟩ := List.mem_map.1 (show 1 ∈ c.roots by rw [hroots]; decide)
  have hbuilt : FieldExample.graph.Built := Built.grown _
  obtain ⟨d, ⟨p, hplan, hd⟩, hown, hcovers, -⟩ := hbuilt.compile_covers hc s hs
  obtain ⟨d', hd', hfew, hreads⟩ := FieldExample.field_reads
  rw [FieldExample.types_eq (compile_plans hc).1, hroot, FieldExample.plan_field] at hplan
  obtain rfl := Except.ok.inj hplan
  obtain rfl := Except.ok.inj (hd'.symm.trans hd)
  exact ⟨c, s, d', hc, hs, ((hown _).2 rfl).1, hreads, hcovers.time hfew hreads⟩

/-- The output takes the texture coordinates for its sample, and yet its domain does not include the model
that they change with. -/
theorem Graph.compile_uncovered : ∃ c s b,
    FieldExample.graph.compile (Uuid.ofBytes [4]) ⟨false, 0⟩ = .ok c ∧ s ∈ c.stages ∧
      b ∈ s.stage.bodies ∧ b.model = .fragment ∧ b.Declares .texCoord ∧
      s.stage.domain.includes .modelDependent = false := by
  obtain ⟨c, hc, hroots⟩ := FieldExample.compiles
  obtain ⟨s, hs, hroot⟩ := List.mem_map.1 (show 3 ∈ c.roots by rw [hroots]; decide)
  obtain ⟨A, B, hAB⟩ := List.append_of_mem hs
  obtain ⟨htypes, p, hplan, hbuild⟩ := compile_split hc hAB
  have hbuilt : FieldExample.graph.Built := Built.grown _
  have hp := (Graph.plan_planned hbuilt.consistent htypes hplan).1
  obtain ⟨⟨u, domain, hu, hstage⟩, -⟩ := StagePlan.build_parts hbuild
  obtain ⟨d, hd, hmodel, hdeclares⟩ := FieldExample.shown_declares
  rw [FieldExample.types_eq htypes, hroot, FieldExample.plan_shown] at hplan
  obtain rfl := Except.ok.inj hplan
  have hmem := ((StagePlan.own_body hp hu hd d.body).2 rfl).1
  refine ⟨c, s, d.body, hc, hs, ?_, hmodel, hdeclares, ?_⟩
  · rw [hstage]
    exact hmem
  · have hnone : ∀ n ∈ FieldExample.graph.nodes.toList, n.domain.has 2 = false := by decide +kernel
    rw [Bool.eq_false_iff]
    intro hincludes
    have hhas := Domain.includes_iff.1 hincludes 2 (by decide)
    obtain ⟨t, -, i, -, n, hn, hk⟩ :=
      ((hbuilt.compile_ordered hc).1.domain_iff (compile_sums hc) hs).1 hhas
    rw [hnone n (Array.mem_toList_iff.2 (Array.mem_of_getElem? hn))] at hk
    cases hk

end NodeShader
