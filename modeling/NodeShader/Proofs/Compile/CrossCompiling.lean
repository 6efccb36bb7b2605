import NodeShader.Proofs.Compile.SingleAssignment
import NodeShader.Proofs.Compile.Vertices

/-!
# Bodies are never rejected

The last part of a compilation writes a program for each body.  Every body that is generated is that of a
draft with a whole function (`Body.Made`), so a program is written for it unless its words are too many to
be counted; whatever else fails in a compilation fails before.

* `StagePlan.generate_made`: every body of a stage is made so.
* `Graph.endsEarly_planCompilation`, `StagePlan.endsEarly_generate`: failures before any program is
  written are none of the backend.
* `Graph.Built.compile_accepted`: **no failure of a compilation is one of the backend**.
-/

namespace NodeShader

open Spirv

/-- The names of a graph as they are written into modules are shorter than `2 ^ 17` bytes; fields
without a name have one by their number. -/
def Graph.ShortNames (g : Graph) : Prop :=
  ∀ n ∈ g.nodes.toList, (Text.bytes n.fieldName).length < 131072 ∧
    ∀ name dim, n.params = .texture name dim → (Text.bytes name).length < 131072

theorem Graph.shortNames_iff {g : Graph} : g.ShortNames ↔ ∀ n ∈ g.nodes.toList,
    (Text.bytes n.fieldName).length < 131072 ∧
      (match n.params with
        | .texture name _ => decide ((Text.bytes name).length < 131072)
        | _ => true) = true := by
  refine forall₂_congr fun n _ => and_congr_right' ?_
  split
  · rename_i name dim h
    rw [decide_eq_true_iff]
    exact ⟨fun hall => hall name dim h, fun hlt _ _ heq => by cases h.symm.trans heq; exact hlt⟩
  · rename_i hne
    exact ⟨fun _ => rfl, fun _ name dim h => absurd h (hne name dim)⟩

instance (g : Graph) : Decidable g.ShortNames := decidable_of_iff _ Graph.shortNames_iff.symm

/-- The lowest limit of names there is. -/
@[reducible] def shortNames : NameLimit := ⟨131072, Nat.le_refl _⟩

/-- **A body that is made** of a draft with a whole function. -/
def Body.Made (b : Body) : Prop :=
  ∃ (d : Draft) (modes : List (List UInt32)), @Draft.Coded shortNames d ∧ Modes modes ∧
    b = (d.withEntry modes).body

variable {g : Graph} {p : StagePlan} {s : Stage} {b : Body}

/-! ### What is made -/

/-- A program is written for a body whose words can be counted, with a binding for each of its
resources. -/
theorem Body.Made.program (h : b.Made) (hfew : b.words.length < 4294967296) :
    ∃ program, Metal.Program.ofWords b.words = .ok program ∧
      ∀ r ∈ b.resources, ∃ x, program.binding? r.variable_ = some x := by
  obtain ⟨d, modes, hd, hmodes, rfl⟩ := h
  let _ := shortNames
  have hids : d.builder.nextId < 4294967296 := by
    have hlen := (hd.results_perm modes).length_eq
    rw [idsBelow, List.length_map, List.length_range'] at hlen
    have hwords : (d.withEntry modes).body.words.length = 5 +
        ((d.withEntry modes).builder.instructions.flatMap Instruction.encode).length :=
      List.length_append
    have := length_results_le (d.withEntry modes).builder.instructions
    omega
  obtain ⟨t, program, names, hold, hok, -, hbs⟩ := hd.program (Nat.le_refl _) hmodes hids
  refine ⟨program, hok, fun r hr => ?_⟩
  obtain ⟨x, hx, hv⟩ := hd.reflected hold hbs hr
  rw [Metal.Program.binding?, ← Option.isSome_iff_exists, List.find?_isSome]
  exact ⟨x, hx, beq_iff_eq.2 hv⟩

/-- Writing the shader of a body that is made does not fail. -/
theorem Body.Made.shader (h : b.Made) (hfew : b.words.length < 4294967296) (g : Graph) :
    ∃ s, b.shader g = .ok s := by
  obtain ⟨program, hprogram, hall⟩ := h.program hfew
  rw [Body.shader, hprogram]
  refine bind_isOk ⟨program, rfl⟩ fun program' heq => ?_
  cases heq
  refine bind_isOk (mapM_isOk fun r hr => ?_) fun _ _ => ⟨_, rfl⟩
  obtain ⟨x, hx⟩ := hall r hr
  exact ⟨_, by rw [hx]⟩

/-- The parameters of how a stage is executed are few. -/
theorem Node.execution_modes {root : Node} {model : ExecutionModel} {mode : UInt32}
    {params : List UInt32} (h : root.execution = .ok (model, mode, params)) :
    Modes [mode :: params] := by
  have hlen : params.length ≤ 3 := by
    unfold execution at h
    split at h
    · cases h
      exact Nat.zero_le _
    · split at h
      · split at h
        · cases h
        · rename_i size hsize
          cases h
          rw [List.length_map]
          unfold localSize? at hsize
          split at hsize <;> cases hsize <;> decide
      · cases h
    · cases h
  intro ps hps
  rw [List.mem_singleton.1 hps]
  exact ⟨List.cons_ne_nil _ _, by rw [List.length_cons]; omega⟩

/-- A finished draft of a stage has a whole function. -/
theorem Draft.Holds.coded [NameLimit] {I : Interpretation} {d : Draft} {root : Node}
    {void type entry mode : UInt32} {params : List UInt32} {c : Code} {Γ : Context I}
    {o : List (Output I.Value)} (h : d.Holds p I void type entry c Γ o) (hp : p.Planned)
    (hroot : p.graph.nodes[p.root]? = some root)
    (he : root.execution = .ok (d.model, mode, params)) : d.Coded := by
  have hmem : p.root ∈ p.order := by
    rw [hp.mem_order, Labels.mem_nodes]
    exact start_mem_reach (List.mem_singleton.2 rfl) (Array.getElem?_eq_some_iff.1 hroot).1
  refine ⟨h.sound, h.furnished.registered, h.counted.interface_le ?_,
    ⟨I, void, type, entry, c, Γ, o, h.code, h.runs⟩, ?_⟩
  · rw [← List.length_map (f := (·.1)), h.outputs, Drafting.namesAt_order hp hmem, Drafting.namesAt, hroot,
      Option.map_some, Option.getD_some]
    cases root.kind with
    | previewOutput => decide
    | materialOutput => decide
    | _ => exact Nat.zero_le _
  · rcases Node.stage_of_execution he with ⟨-, hm⟩ | ⟨-, hm⟩
    · exact .inr (.inl hm)
    · exact .inr (.inr hm)

/-- **Every body of a stage is made of a draft with a whole function.** -/
theorem StagePlan.generate_made (hp : p.Planned) (hnames : p.graph.ShortNames)
    (hs : p.generate = .ok s) : ∀ b ∈ s.bodies, b.Made := by
  let _ := shortNames
  have hvertex : ∀ b, vertexBody = .ok b → b.Made := by
    intro b hb
    obtain ⟨d', hd', rfl⟩ := map_eq_ok.1 hb
    obtain ⟨⟨u, _⟩, hrun, rfl⟩ := map_eq_ok.1 hd'
    obtain ⟨d, hd, rfl⟩ := Drafting.vertex_spec hrun
    exact ⟨d, [], hd, List.forall_mem_nil _, rfl⟩
  have hmain : ∀ d', p.draftBody = .ok d' → d'.body.Made := by
    intro d' hd'
    obtain ⟨root, model, mode, params, d, void, type, entry, c, Γ, o, hroot, he, hd, hmodel, -, rfl⟩ :=
      draftBody_spec .trivial hp hnames hd'
    exact ⟨d, [mode :: params], hd.coded hp hroot (hmodel ▸ he), Node.execution_modes he, rfl⟩
  obtain ⟨d', hd', hbodies⟩ := bodies_of_generate hs
  intro b hb
  rcases hbodies with hbodies | ⟨v, hv, hbodies⟩
  · rw [hbodies, List.mem_singleton] at hb
    rw [hb]
    exact hmain d' hd'
  · rw [hbodies, List.mem_cons, List.mem_singleton] at hb
    rcases hb with rfl | rfl
    · exact hvertex _ hv
    · exact hmain d' hd'

/-! ### What fails before -/

theorem Node.endsEarly_execution (root : Node) : EndsEarly root.execution := by
  unfold execution
  split
  · exact endsEarly_ok _
  · split
    · split
      · exact endsEarly_error (Failure.early_ofMessage (by decide) _)
      · exact endsEarly_ok _
    · exact endsEarly_error (Failure.early_of_none rfl)
  · exact endsEarly_error (Failure.early_of_none rfl)

/-- **Failures to generate a stage** are none of the backend. -/
theorem StagePlan.endsEarly_generate (p : StagePlan) : EndsEarly p.generate := by
  have hroot : EndsEarly p.rootNode := by
    unfold rootNode
    split
    · exact endsEarly_ok _
    · exact endsEarly_error (Failure.early_of_none rfl)
  have hbody : EndsEarly p.draftBody :=
    endsEarly_bind hroot fun root => endsEarly_bind root.endsEarly_execution fun _ _ =>
      (Drafting.failsEarly_stageBody p _ _).run
  have hvertex : EndsEarly vertexBody := endsEarly_map (fun _ => Drafting.steady_vertex.early.run) _
  refine endsEarly_mapError fun e he => Failure.early_classify ?_ (by decide)
  refine (endsEarly_bind hroot fun root => endsEarly_bind hbody fun d => ?_ : EndsEarly p.draft) e he
  dsimp only
  split
  · exact endsEarly_bind (endsEarly_map hvertex _) fun _ => endsEarly_ok _
  · exact endsEarly_bind (endsEarly_ok _) fun _ => endsEarly_ok _

namespace Graph

theorem endsEarly_structural {α : Type} (n : Node) (message : String) :
    EndsEarly (structural n message : Except Failure α) :=
  endsEarly_error (Failure.early_ofMessage (by decide) _)

theorem endsEarly_fault {α : Type} : EndsEarly (.error .fault : Except Failure α) :=
  endsEarly_error (Failure.early_of_none rfl)

theorem endsEarly_checkStage (g : Graph) (l : Labels) : EndsEarly (g.checkStage l) := by
  refine endsEarly_forM fun i _ => ?_
  split
  · exact endsEarly_fault
  · rename_i n _
    refine endsEarly_bind (endsEarly_forM fun q _ => ?_) fun _ => ?_
    · split
      · exact endsEarly_fault
      · split
        · exact endsEarly_structural _ _
        · exact endsEarly_ok _
    · unfold checkFormula
      split
      · exact endsEarly_ok _
      · split
        · split
          · exact endsEarly_ok _
          · exact endsEarly_error (Failure.early_classify (Failure.early_of_none rfl) (by decide))
        · exact endsEarly_fault

theorem endsEarly_discover (g : Graph) (fuel : Nat) (path found : List Nat) (root : Nat) :
    EndsEarly (g.discover fuel path found root) := by
  induction fuel generalizing path found root with
  | zero => exact endsEarly_fault
  | succ fuel ih =>
    rw [discover]
    split
    · split
      · exact endsEarly_structural _ _
      · exact endsEarly_fault
    · split
      · exact endsEarly_ok _
      · exact endsEarly_bind (g.endsEarly_checkStage _) fun _ =>
          endsEarly_bind (endsEarly_foldlM fun _ _ _ => ih _ _ _) fun _ => endsEarly_ok _

theorem endsEarly_typed (g : Graph) (budget : Int) : EndsEarly (g.typed budget) := by
  unfold typed
  split
  · exact endsEarly_ok _
  · exact endsEarly_error (Failure.early_classify (Failure.early_of_none rfl) (by decide))
  · rename_i e _ _ _
    refine endsEarly_error (Failure.early_of_none ?_)
    rcases e with _ | ⟨_ | _⟩ <;> rfl

theorem endsEarly_plan (g : Graph) (types : TypeAssignment) (fold : Bool) (root : Nat) :
    EndsEarly (g.plan types fold root) := by
  refine endsEarly_bind (endsEarly_mapError fun _ _ => ?_) fun _ =>
    endsEarly_bind (endsEarly_mapError fun _ _ => ?_) fun _ => endsEarly_ok _
  · exact Failure.early_classify (Failure.early_of_none rfl) (by decide)
  · exact Failure.early_classify (Failure.early_of_none rfl) (by decide)

/-- **Failures to plan a compilation** are none of the backend. -/
theorem endsEarly_planCompilation (g : Graph) (id : NodeId) (options : Options) :
    EndsEarly (g.planCompilation id options) := by
  refine endsEarly_bind (endsEarly_mapError fun _ _ => Failure.early_ofMessage (by decide) _) fun _ => ?_
  refine endsEarly_bind ?_ fun root => endsEarly_bind (g.endsEarly_discover _ _ _ _) fun roots =>
    endsEarly_bind (g.endsEarly_typed _) fun _ => endsEarly_bind (endsEarly_mapM fun r _ =>
      g.endsEarly_plan _ _ r) fun _ => endsEarly_ok _
  unfold outputPosition
  split
  · exact endsEarly_error (Failure.early_ofMessage (by decide) _)
  · split
    · exact endsEarly_fault
    · split
      · exact endsEarly_ok _
      · exact endsEarly_structural _ _

end Graph

/-! ### Compilations -/

/-- If stages cannot be built, one of them cannot. -/
theorem buildStages_error {plans : List StagePlan} {f : Failure} (h : buildStages plans = .error f) :
    ∃ p ∈ plans, ∃ built, p.build built = .error f := by
  have hrun : ∀ (plans : List StagePlan) (built : List CompiledStage),
      plans.foldlM (fun built p => do return built ++ [← p.build built]) built = .error f →
      ∃ p ∈ plans, ∃ built, p.build built = .error f := by
    intro plans
    induction plans with
    | nil =>
      intro built h
      cases h
    | cons p plans ih =>
      intro built h
      rw [List.foldlM_cons] at h
      cases hb : p.build built with
      | error e =>
        rw [hb] at h
        cases h
        exact ⟨p, List.mem_cons_self, built, hb⟩
      | ok s =>
        rw [hb] at h
        obtain ⟨q, hq, hbuild⟩ := ih _ h
        exact ⟨q, List.mem_cons_of_mem p hq, hbuild⟩
  exact hrun plans [] h

/-- A stage that is generated is built, if its words can be counted. -/
theorem StagePlan.build_isOk (hp : p.Planned) (hnames : p.graph.ShortNames) (hs : p.generate = .ok s)
    (hfew : ∀ b ∈ s.bodies, b.words.length < 4294967296) (built : List CompiledStage) :
    ∃ t, p.build built = .ok t := by
  obtain ⟨shaders, hshaders⟩ := mapM_isOk fun b hb =>
    (generate_made hp hnames hs b hb).shader (hfew b hb) p.graph
  exact ⟨_, bind_eq_ok.2 ⟨s, hs, bind_eq_ok.2 ⟨shaders, hshaders, rfl⟩⟩⟩

/-- **A stage that can be counted**: it is generated, and no body of it has too many words. -/
def StagePlan.Countable (p : StagePlan) : Prop :=
  ∃ s, p.generate = .ok s ∧ ∀ b ∈ s.bodies, b.words.length < 4294967296

theorem StagePlan.countable_iff : p.Countable ↔
    (p.generate.toOption.any fun s => s.bodies.all (·.words.length < 4294967296)) = true := by
  rw [Option.any_eq_true]
  refine exists_congr fun s => and_congr toOption_eq_some.symm ?_
  rw [List.all_eq_true]
  exact forall₂_congr fun b _ => (decide_eq_true_iff).symm

instance (p : StagePlan) : Decidable p.Countable := decidable_of_iff _ StagePlan.countable_iff.symm

/-- Stages are built if all of them can be counted. -/
theorem buildStages_isOk {plans : List StagePlan}
    (hplans : ∀ p ∈ plans, p.Planned ∧ p.graph.ShortNames) (h : ∀ p ∈ plans, p.Countable) :
    ∃ stages, buildStages plans = .ok stages := by
  cases hbuild : buildStages plans with
  | ok stages => exact ⟨stages, rfl⟩
  | error f =>
    obtain ⟨p, hp, built, hbuilt⟩ := buildStages_error hbuild
    obtain ⟨s, hs, hfew⟩ := h p hp
    obtain ⟨t, ht⟩ := StagePlan.build_isOk (hplans p hp).1 (hplans p hp).2 hs hfew built
    rw [ht] at hbuilt
    cases hbuilt

/-- The stages of a plan of a compilation are planned. -/
theorem Graph.Built.stages_planned (hg : g.Built) (hnames : g.ShortNames) {id : NodeId} {options : Options}
    {plan : CompilationPlan} (hplan : g.planCompilation id options = .ok plan) :
    ∀ p ∈ plan.stages, p.Planned ∧ p.graph.ShortNames := by
  obtain ⟨-, roots, -, htypes, hroots⟩ := planCompilation_spec hplan
  intro p hp
  obtain ⟨r, -, hr⟩ := exists_of_mem_right hroots hp
  obtain ⟨hplanned, hlabels, -⟩ := plan_planned hg.consistent htypes hr
  have hgraph : p.graph = g := by rw [StagePlan.graph, hlabels]; rfl
  exact ⟨hplanned, hgraph ▸ hnames⟩

/-- **A graph that is planned compiles**, if its stages can be counted. -/
theorem Graph.Built.compile_isOk (hg : g.Built) (hnames : g.ShortNames) {id : NodeId} {options : Options}
    {plan : CompilationPlan} (hplan : g.planCompilation id options = .ok plan)
    (h : ∀ p ∈ plan.stages, p.Countable) :
    ∃ c, g.compile id options = .ok c ∧ c.roots = plan.stages.map (·.root) := by
  obtain ⟨stages, hstages⟩ := buildStages_isOk (hg.stages_planned hnames hplan) h
  refine ⟨_, bind_eq_ok.2 ⟨plan, hplan, bind_eq_ok.2 ⟨stages, hstages, rfl⟩⟩, ?_⟩
  rw [Compilation.roots, ← List.forall₂_eq_eq_eq, List.forall₂_map_left_iff, List.forall₂_map_right_iff]
  exact ((buildStages_spec hstages).imp fun _ _ h => h.root).flip

namespace ChoiceExample

theorem names_short : graph.ShortNames := by
  decide +kernel

/-- It compiles, with one stage. -/
theorem compiles (fold : Bool) : ∃ c s, graph.compile (Uuid.ofBytes [10]) ⟨fold, 0⟩ = .ok c ∧
    c.stages = [s] ∧ s.stage.root = 9 := by
  obtain ⟨hlengths, -⟩ := generated
  obtain ⟨t, ht, hlength⟩ := Option.map_eq_some_iff.1 (hlengths fold)
  obtain ⟨stats, hplan⟩ := planned fold
  obtain ⟨c, hc, hroots⟩ := built.compile_isOk names_short hplan
    (List.forall_mem_singleton.2 ⟨t, toOption_eq_some.1 ht, short_of_lengths hlength⟩)
  obtain ⟨s, hs, hroot⟩ := List.map_eq_singleton_iff.1 hroots
  exact ⟨c, s, hc, hs, hroot⟩

end ChoiceExample

/-- A stage whose programs can all be written fails early, if it fails. -/
theorem StagePlan.endsEarly_build {built : List CompiledStage}
    (h : ∀ s, p.generate = .ok s → ∀ b ∈ s.bodies, ∃ x, b.shader p.graph = .ok x) :
    EndsEarly (p.build built) := by
  refine endsEarly_bind_of p.endsEarly_generate fun s hs => ?_
  obtain ⟨shaders, hshaders⟩ := mapM_isOk (h s hs)
  refine endsEarly_bind_of ?_ fun _ _ => endsEarly_ok _
  rw [hshaders]
  exact endsEarly_ok _

/-- The names of the graph of a field that is shown are short. -/
theorem FieldExample.names_short : graph.ShortNames := by
  decide +kernel

/-- **No failure of a compilation is one of the backend**, unless some module has more words than can
be counted: a program is written for every body that is generated, the vertex body included, and has a
binding for each resource that was declared. -/
theorem Graph.Built.compile_accepted (hg : g.Built) (hnames : g.ShortNames) :
    (∀ (budget : Int) (types : TypeAssignment) (fold : Bool) (root : Nat) (p : StagePlan) (s : Stage),
      (g.resolveTypes budget).1 = .ok types → g.plan types fold root = .ok p → p.generate = .ok s →
      ∀ b ∈ s.bodies, b.words.length < 4294967296 →
        ∃ program, Metal.Program.ofWords b.words = .ok program ∧
          ∀ r ∈ b.resources, ∃ x, program.binding? r.variable_ = some x) ∧
    ∀ (id : NodeId) (options : Options) (f : Failure) (k : Classification),
      g.compile id options = .error f → f.classification? = some k → k.kind = .backend →
      ∃ (plan : CompilationPlan) (p : StagePlan) (s : Stage) (b : Body),
        g.planCompilation id options = .ok plan ∧ p ∈ plan.stages ∧ p.generate = .ok s ∧
          b ∈ s.bodies ∧ 4294967296 ≤ b.words.length := by
  have hmade : ∀ {budget : Int} {types : TypeAssignment} {fold : Bool} {root : Nat} {p : StagePlan}
      {s : Stage}, (g.resolveTypes budget).1 = .ok types → g.plan types fold root = .ok p →
      p.generate = .ok s → ∀ b ∈ s.bodies, b.Made := by
    intro budget types fold root p s htypes hplan hs
    obtain ⟨hplanned, hlabels, -⟩ := Graph.plan_planned hg.consistent htypes hplan
    have hgraph : p.graph = g := by rw [StagePlan.graph, hlabels]; rfl
    exact StagePlan.generate_made hplanned (hgraph ▸ hnames) hs
  refine ⟨fun budget types fold root p s htypes hplan hs b hb hfew =>
    (hmade htypes hplan hs b hb).program hfew, ?_⟩
  intro id options f k h hk hbackend
  by_contra hnone
  refine (?_ : EndsEarly (g.compile id options)) f h k hk hbackend
  refine endsEarly_bind_of (g.endsEarly_planCompilation id options) fun plan hplan =>
    endsEarly_bind_of ?_ fun _ _ => endsEarly_ok _
  obtain ⟨-, roots, -, htypes, hplans⟩ := Graph.planCompilation_spec hplan
  intro e he
  obtain ⟨p, hp, built, hbuild⟩ := buildStages_error he
  obtain ⟨r, -, hr⟩ := exists_of_mem_right hplans hp
  refine StagePlan.endsEarly_build (fun s hs b hb => ?_) e hbuild
  refine (hmade htypes hr hs b hb).shader ?_ p.graph
  by_contra hlong
  exact hnone ⟨plan, p, s, b, hplan, hp, hs, hb, by omega⟩

/-- The output that shows a field: a program is written for the vertex body and for the fragment body,
and no failure to compile it is one of the backend. -/
theorem Graph.compile_accepted_shown : ∃ s : Stage,
    (FieldExample.stage 3 [1, 2, 3]).generate = .ok s ∧ s.bodies.length = 2 ∧
      (∀ b ∈ s.bodies, ∃ program, Metal.Program.ofWords b.words = .ok program ∧
        ∀ r ∈ b.resources, ∃ x, program.binding? r.variable_ = some x) ∧
      ∀ (f : Failure) (k : Classification),
        FieldExample.graph.compile (Uuid.ofBytes [4]) ⟨false, 0⟩ = .error f →
        f.classification? = some k → k.kind ≠ .backend := by
  have hsize : ((FieldExample.stage 3 [1, 2, 3]).generate.toOption.map fun s =>
      s.bodies.length == 2 && s.bodies.all (·.words.length < 4294967296)) = some true := by
    decide +kernel
  have haccepted := Graph.Built.compile_accepted (Built.grown _) FieldExample.names_short
  cases hs : (FieldExample.stage 3 [1, 2, 3]).generate with
  | error e =>
    rw [hs] at hsize
    cases hsize
  | ok s =>
    rw [hs] at hsize
    have hall := Option.some.inj hsize
    rw [Bool.and_eq_true, beq_iff_eq, List.all_eq_true] at hall
    refine ⟨s, rfl, hall.1, fun b hb => ?_, fun f k hf => ?_⟩
    · exact haccepted.1 _ _ _ _ _ _ FieldExample.resolved FieldExample.plan_shown hs b hb
        (of_decide_eq_true (hall.2 b hb))
    · obtain ⟨c, hc, -⟩ := FieldExample.compiles
      rw [hc] at hf
      cases hf

end NodeShader
