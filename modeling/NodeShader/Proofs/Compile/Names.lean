import NodeShader.Proofs.Compile.Joining
import NodeShader.Proofs.Metal.Identifiers
import NodeShader.Proofs.Stage.BuiltIn

/-!
# Global names are told apart

The names of the nodes and the textures of a graph become the names of the global variables of its
programs.  They are identifiers that nothing else is called, and two of them are the same only where the
name of one is that of the other with its number at the end.

* `Body.Lone`: a body has one built-in variable at most.
* `Graph.Built.compile_names`: **global names are told apart** in all programs of a compilation.
* `Graph.compile_namesakes`: two textures are called alike if the name of one is made so.
-/

namespace NodeShader

open Spirv

/-- **One built-in variable at most.** -/
def Body.Lone (b : Body) : Prop :=
  ∀ r ∈ b.resources, ∀ r' ∈ b.resources, r.builtIn ≠ "" → r'.builtIn ≠ "" → r.variable_ = r'.variable_

variable {p : StagePlan} {d : Draft}

/-- The body of a stage has one built-in variable at most. -/
theorem StagePlan.lone_draftBody [NameLimit] (hp : p.Planned) (hnames : p.graph.NamesFit)
    (h : p.draftBody = .ok d) : d.body.Lone := by
  obtain ⟨root, model, mode, params, u, hnode, he, hrun⟩ := root_of_draftBody h
  obtain ⟨o, e, -, -, -, -, -, -, ho, -, hgoes, -, -, -, rfl⟩ :=
    Drafting.stageBody_spec .trivial hp hnames (sized_of_execution hnode he) hrun
  have hlone : o.Lone := Drafting.lone_opening p ho fun _ hr => absurd hr List.not_mem_nil
  have hres : e.resources = o.resources := Draft.eq_of_view Draft.frame Draft.resources (fun _ => rfl) hgoes.frame
  intro r hr r' hr' hb hb'
  have hr : r ∈ o.resources := hres ▸ hr
  have hr' : r' ∈ o.resources := hres ▸ hr'
  exact Option.some.inj ((hlone r hr hb).symm.trans (hlone r' hr' hb'))

/-- The vertex body has one built-in variable. -/
theorem lone_vertexBody {v : Body} (h : vertexBody = .ok v) : v.Lone := by
  have hall : (vertexBody.toOption.map fun v => v.resources.all fun r => v.resources.all fun r' =>
      r.builtIn == "" || r'.builtIn == "" || r.variable_ == r'.variable_) = some true := by
    decide +kernel
  rw [h] at hall
  intro r hr r' hr' hb hb'
  have h := List.all_eq_true.1 (List.all_eq_true.1 (Option.some.inj hall) r hr) r' hr'
  simpa [hb, hb'] using h

/-- **Each body of a stage has one built-in variable at most.** -/
theorem StagePlan.lone_bodies {s : Stage} (hp : p.Planned) (hnames : p.graph.ShortNames)
    (hs : p.generate = .ok s) : ∀ b ∈ s.bodies, b.Lone := by
  let _ := shortNames
  obtain ⟨d, hd, hbodies⟩ := bodies_of_generate hs
  intro b hb
  rcases hbodies with hbodies | ⟨v, hv, hbodies⟩
  · rw [hbodies, List.mem_singleton] at hb
    exact hb ▸ lone_draftBody hp hnames hd
  · rw [hbodies, List.mem_cons, List.mem_singleton] at hb
    rcases hb with rfl | rfl
    · exact lone_vertexBody hv
    · exact lone_draftBody hp hnames hd

/-! ### Programs -/

/-- **A shader with names that are told apart**, as the tables of its module have them. -/
def Shader.NamesApart (s : Shader) : Prop :=
  ∃ m t program, Module.parse s.body.words = .ok m ∧ Metal.Tables.load m = .ok t ∧
    Metal.Program.ofModule m = .ok program ∧ s.bindings.map (·.reflected) = program.bindings ∧
    Metal.NamesApart t program.bindings

section Tables

variable [NameLimit] {modes : List (List UInt32)} {t : Metal.Tables}

/-- A variable is no type. -/
theorem Draft.Coded.fallback_var (h : d.Coded) (hfew : d.builder.nextId ≤ 4294967296)
    (hold : t.Hold (d.withEntry modes).builder.globals) : ∀ v ∈ t.globals, t.fallback v.id = "var" := by
  intro v hv
  have hnone : t.types.lookup v.id = none := by
    rw [List.lookup_eq_none_iff]
    rintro ⟨x, info⟩ hx
    rw [bne_iff_ne]
    rintro rfl
    rw [hold.types, List.mem_reverse, List.mem_filterMap] at hx
    rw [hold.globals, List.mem_filterMap] at hv
    obtain ⟨i, hi, hti⟩ := hx
    obtain ⟨j, hj, hvj⟩ := hv
    have hjr : j.result? = some v.id := by
      obtain ⟨op, ops⟩ := j
      unfold Metal.declaredVariable? at hvj
      split at hvj
      · rename_i hop
        split at hvj
        · rename_i p x s hops
          cases hvj
          cases hop
          cases hops
          rfl
        · cases hvj
      · cases hvj
    have heq := NodeShader.Spirv.eq_of_result (h.scope hfew modes).distinct hi hj
      (Metal.result_of_declaredType i _ hti) hjr
    subst heq
    obtain ⟨op, ops⟩ := i
    rw [Metal.declaredVariable?] at hvj
    split at hvj
    · rename_i hop
      cases hop
      cases hti
    · cases hvj
  rw [Metal.Tables.fallback, hnone]
  rfl

omit [NameLimit] in
/-- A variable that is built in stands for a resource that is. -/
theorem Draft.Stands.builtIn {D : List Instruction} {r : Resource} {v : Metal.Variable}
    (h : Draft.Stands D t r v) (hb : (t.decoration? v.id Decoration.builtIn).isSome = true) :
    r.builtIn ≠ "" := by
  obtain ⟨decs, hplacing, hdecs⟩ := h.placing
  rw [hdecs _ rfl] at hb
  cases hplacing with
  | bound => cases hb
  | location => cases hb
  | builtIn _ _ hr => exact hr

end Tables

/-- **The names of a body that is made are told apart.** -/
theorem Body.Made.namesApart {b : Body} (h : b.Made) (hlone : b.Lone) {g : Graph} {s : Shader}
    (hs : b.shader g = .ok s) : s.NamesApart := by
  obtain ⟨program, hprogram, hreflected⟩ := (h.joined hs).reflected
  obtain ⟨d, modes, hd, hmodes, rfl⟩ := h
  let _ := shortNames
  have hfew := hd.few_of_shader hmodes hs
  have hbody := (Body.shader_spec hs).1
  obtain ⟨I, entry, c, Γ, o, t, hruns, ready⟩ := hd.ready hmodes hfew
  have hparse := hd.parse (Nat.le_refl _) hmodes hfew
  obtain ⟨program', names, hmodule, hreflect⟩ := ready.program hruns
  rw [hbody, Metal.Program.ofWords_eq hparse, hmodule, Except.ok.injEq] at hprogram
  subst hprogram
  refine ⟨_, t, program', hbody ▸ hparse, ready.load, hmodule, hreflected, ?_⟩
  have hdistinct := hd.nodup_variables hfew.le
  have hstands := hd.stands ready.setting.hold hdistinct
  have hglobals : t.globals.map (·.id) = d.resources.map (·.variable_) := by
    rw [← List.forall₂_eq_eq_eq, List.forall₂_map_left_iff, List.forall₂_map_right_iff]
    exact hstands.flip.imp fun _ _ h => h.id
  have hresource : ∀ x, t.IsBuiltIn x → ∃ r ∈ d.resources, r.variable_ = x ∧ r.builtIn ≠ "" := by
    rintro x ⟨hx, hb⟩
    obtain ⟨v, hv, rfl⟩ := List.mem_map.1 hx
    obtain ⟨r, hr, hstand⟩ := exists_of_mem_right hstands hv
    exact ⟨r, hr, hstand.id.symm, hstand.builtIn hb⟩
  refine Metal.namesApart_of_reflect (hglobals ▸ hdistinct) ?_
    (hd.fallback_var hfew.le ready.setting.hold) (fun x y hx hy => ?_) hreflect
  · obtain ⟨bs, names', hrun, hbs⟩ := Metal.reflect_spec ready.setting.toScope ready.setting.hold {}
    rw [hrun] at hreflect
    cases hreflect
    exact hbs.imp fun _ _ h => h.id
  · obtain ⟨r, hr, rfl, hb⟩ := hresource x hx
    obtain ⟨r', hr', rfl, hb'⟩ := hresource y hy
    exact hlone r hr r' hr' hb hb'

/-- **Global names are told apart** in all programs of a compilation: the variables and the struct of the
buffer are called by identifiers that are no locals and that nothing else of the program is called, and two
of them have one name only if the name of one, as the module has it, is that of the other followed by the
number of the other. -/
theorem Graph.Built.compile_names {g : Graph} (hg : g.Built) (hnames : g.ShortNames) {id : NodeId}
    {options : Options} {c : Compilation} (h : g.compile id options = .ok c) :
    ∀ s ∈ c.stages, ∀ x ∈ s.shaders, x.NamesApart := by
  intro s hs x hx
  obtain ⟨htypes, hplans⟩ := compile_plans h
  obtain ⟨p, hplan, -, hbuilds⟩ := hplans s hs
  obtain ⟨t, ht, hbodies⟩ := hbuilds.bodies
  obtain ⟨hplanned, hlabels, -⟩ := Graph.plan_planned hg.consistent htypes hplan
  have hgraph : p.graph = g := by rw [StagePlan.graph, hlabels]; rfl
  obtain ⟨b, hb, hbx⟩ := exists_of_mem_right (mapM_eq_ok.1 hbuilds.shaders) hx
  exact (StagePlan.generate_made hplanned (hgraph ▸ hnames) ht b (hbodies ▸ hb)).namesApart
    (StagePlan.lone_bodies hplanned (hgraph ▸ hnames) ht b (hbodies ▸ hb)) hbx

/-- The field that is shown: its stage and that of the output have programs with names that are told
apart. -/
theorem Graph.compile_names_field : ∃ c : Compilation,
    FieldExample.graph.compile (Uuid.ofBytes [4]) ⟨false, 0⟩ = .ok c ∧ c.roots = [1, 3] ∧
      ∀ s ∈ c.stages, ∀ x ∈ s.shaders, x.NamesApart := by
  obtain ⟨c, hc, hroots⟩ := FieldExample.compiles
  exact ⟨c, hc, hroots, (Built.grown _).compile_names FieldExample.names_short hc⟩

/-! ### Two textures with one name -/

namespace Namesakes

/-- Two textures are sampled and added. -/
def graph : Graph :=
  .grown [.node (Uuid.ofBytes [1]) "" .texture (.texture "globals_16" 2),
    .node (Uuid.ofBytes [2]) "" .texture (.texture "globals" 2),
    .node (Uuid.ofBytes [3]) "" .sample .none, .node (Uuid.ofBytes [4]) "" .sample .none,
    .node (Uuid.ofBytes [5]) "" .add .none, .node (Uuid.ofBytes [6]) "" .previewOutput .none,
    .edge 0 2, .edge 1 5, .edge 4 8, .edge 7 9, .edge 10 11]

def types : TypeAssignment :=
  #[.texture2D, .texture2D, .texture2D, .float2, .float4, .texture2D, .float2, .float4, .float4, .float4,
    .float4, .float4]

/-- The plan of its one stage, which has no arms. -/
def stage : StagePlan :=
  ⟨graph.stageLabels 5, types, [0, 1, 2, 3, 4, 5], ⟨[0, 1, 2, 3, 4, 5], []⟩, false⟩

/-- What planning comes out as. -/
theorem evaluated : graph.validate.toOption = some () ∧
    (graph.outputPosition (Uuid.ofBytes [6])).toOption = some 5 ∧
    graph.typesWithin? 20 = some types ∧
    graph.outlineWithin? 20 5 = some ([], [0, 1, 2, 3, 4, 5]) ∧
    ∀ i ∈ [0, 1, 2, 3, 4, 5], (graph.stageLabels 5).isBranching i = false := by
  decide +kernel

end Namesakes

open Namesakes in
/-- **Two variables of one shader have one name**: the second texture is called as the buffer of global
values is, and the first as that with the number of the second. -/
theorem Graph.compile_namesakes : graph.Built ∧ ∃ (c : Compilation) (s : CompiledStage) (x : Shader),
    graph.compile (Uuid.ofBytes [6]) ⟨false, 0⟩ = .ok c ∧ s ∈ c.stages ∧ x ∈ s.shaders ∧
      ∃ b ∈ x.bindings, ∃ b' ∈ x.bindings, b.reflected.variable_ ≠ b'.reflected.variable_ ∧
        b.reflected.name = "globals_16" ∧ b'.reflected.name = "globals_16" := by
  have hbuilds : (buildStages [stage]).toOption.map (fun stages => stages.any fun s => s.shaders.any fun x =>
      x.bindings.any fun b => x.bindings.any fun b' =>
        b.reflected.variable_ != b'.reflected.variable_ && (b.reflected.name == "globals_16" &&
          b'.reflected.name == "globals_16")) = some true := by
    decide +kernel
  obtain ⟨hvalid, hroot, hwithin, houtline, hplain⟩ := evaluated
  obtain ⟨stats, hplanned⟩ := Graph.planned_plain (Built.grown _).consistent hvalid hroot hwithin
    houtline hplain false
  cases hs : buildStages [stage] with
  | error e =>
    rw [hs] at hbuilds
    cases hbuilds
  | ok stages =>
    rw [hs] at hbuilds
    obtain ⟨s, hmem, h⟩ := List.any_eq_true.1 (Option.some.inj hbuilds)
    obtain ⟨x, hx, h⟩ := List.any_eq_true.1 h
    obtain ⟨b, hb, h⟩ := List.any_eq_true.1 h
    obtain ⟨b', hb', h⟩ := List.any_eq_true.1 h
    rw [Bool.and_eq_true, Bool.and_eq_true, bne_iff_ne, beq_iff_eq, beq_iff_eq] at h
    exact ⟨Built.grown _, _, s, x, bind_eq_ok.2 ⟨_, hplanned, bind_eq_ok.2 ⟨stages, hs, rfl⟩⟩, hmem, hx,
      b, hb, b', hb', h⟩

end NodeShader
