import NodeShader.Proofs.Compile.Integers
import NodeShader.Proofs.Compile.Names
import NodeShader.Proofs.Metal.Structuring

/-!
# Sources of shaders

The source that is written for a body holds its function as a script: the statements of each block stand in
it once, in braces that nest as the selections of the function do.  The values of locals are put together
from the texts of their operands.

* `Graph.Built.generate_structured`: **sources run along the paths of their functions**, for all bodies that
  are generated.
* `Graph.Built.compile_legible`: **values read back as they were put together**, but for a sign before the
  sign of a number.
* `Graph.compile_doubled`: the negation of -1 is such a value.
-/

namespace NodeShader

open Spirv

/-! ### Functions -/

/-- **A program shows a body**: the function of its module, as a script. -/
def Body.ShownBy (b : Body) (r : Metal.Program) : Prop :=
  ∃ m t S, Module.parse b.words = .ok m ∧ Metal.Tables.load m = .ok t ∧
    r.Shows t (Metal.functionIn m.instructions) S

variable {g : Graph} {b : Body} {r : Metal.Program}

/-- The program of a body that is made shows it. -/
theorem Body.Made.shown (h : b.Made) (hr : Metal.Program.ofWords b.words = .ok r) : b.ShownBy r := by
  obtain ⟨m, -, hm, -⟩ := Metal.Program.tables_of_ofWords hr
  obtain ⟨d, modes, hd, hmodes, rfl⟩ := h
  let _ := shortNames
  obtain ⟨rfl, hfew⟩ := hd.of_parse (Nat.le_refl _) hmodes hm
  obtain ⟨I, entry, c, Γ, o, t, hruns, ready⟩ := hd.ready hmodes hfew
  rw [Metal.Program.ofWords_eq hm] at hr
  obtain ⟨S, hshows⟩ := ready.shows hruns (hd.fallback_var hfew.le ready.setting.hold) hr
  exact ⟨_, t, S, hm, ready.load, hshows⟩

/-- **Sources run along the paths of their functions.**  The program of every body that is generated shows
its function: each block stands once in the braces of its source, for all outcomes of the tests what is done
are the statements of the blocks of a path, with one assignment to each phi before its block, and locals are
used in the braces that declare them.  A program is written unless the words are too many to be counted. -/
theorem Graph.Built.generate_structured (hg : g.Built) (hnames : g.ShortNames) {budget : Int}
    {types : TypeAssignment} {fold : Bool} {root : Nat} {p : StagePlan} {s : Stage}
    (htypes : (g.resolveTypes budget).1 = .ok types) (hplan : g.plan types fold root = .ok p)
    (hs : p.generate = .ok s) : ∀ b ∈ s.bodies,
      (b.words.length < 4294967296 → ∃ r, Metal.Program.ofWords b.words = .ok r) ∧
        ∀ r, Metal.Program.ofWords b.words = .ok r → b.ShownBy r := by
  obtain ⟨hplanned, hlabels, -⟩ := Graph.plan_planned hg.consistent htypes hplan
  have hgraph : p.graph = g := by rw [StagePlan.graph, hlabels]; rfl
  intro b hb
  have hmade := StagePlan.generate_made hplanned (hgraph ▸ hnames) hs b hb
  exact ⟨fun hfew => (hmade.program hfew).imp fun _ h => h.1, fun _ hr => hmade.shown hr⟩

open IntegerExample in
/-- The output that shows 1 or nothing: both its bodies have a program, which shows them. -/
theorem Graph.generate_structured_selection : ∃ s : Stage, (stage 2).generate = .ok s ∧
    s.bodies.length = 2 ∧ ∀ b ∈ s.bodies, ∃ r, Metal.Program.ofWords b.words = .ok r ∧ b.ShownBy r := by
  obtain ⟨hcounted, -, -, hsize, -⟩ := computed
  have hx : (2 : Float) ∈ [(2 : Float), 2.5] := List.mem_cons_self
  obtain ⟨hnames, s, hs, hfew⟩ := hcounted 2 hx
  rw [hs] at hsize
  refine ⟨s, hs, Option.some.inj hsize, fun b hb => ?_⟩
  obtain ⟨hsome, hshown⟩ := (Built.grown _).generate_structured hnames (resolved hx) (planned hx) hs b hb
  obtain ⟨r, hr⟩ := hsome (hfew b hb)
  exact ⟨r, hr, hshown r hr⟩

/-! ### Values -/

namespace Metal

/-- The statements of an instruction are among those of its block. -/
theorem PrintsAll.mem {t : Tables} {bs : List Binding} {W is : List Instruction} {ss : List Statement}
    {i : Instruction} (h : PrintsAll t bs W is ss) (hi : i ∈ is) : ∃ ss', Prints t bs W i ss' ∧ ss' ⊆ ss := by
  obtain ⟨groups, hgroups, rfl⟩ := h
  obtain ⟨ss', hmem, hprints⟩ := exists_of_mem_left hgroups hi
  exact ⟨ss', hprints, fun a ha => List.mem_flatten.2 ⟨ss', hmem, ha⟩⟩

/-- Each statement of a block is a line of the script. -/
theorem Script.mem_lines {S : Script} {p : UInt32 × List Statement} {a : Statement} (hp : p ∈ S.blocks)
    (ha : a ∈ p.2) (depth : Nat) : ∃ k, indented k a.text ∈ S.lines depth := by
  induction S generalizing depth with
  | done | leave => cases hp
  | block label code rest ih =>
    rcases List.mem_cons.1 hp with rfl | hp
    · exact ⟨depth, List.mem_append_left _ (List.mem_map.2 ⟨a, ha, rfl⟩)⟩
    · exact (ih hp depth).imp fun k h => List.mem_append_right _ h
  | assign phi value rest ih => exact (ih hp depth).imp fun k h => List.mem_cons_of_mem _ h
  | choice label test yes no rest ihy ihn ihr =>
    simp only [lines, List.mem_cons, List.mem_append]
    rcases List.mem_append.1 hp with hp | hp
    · rcases List.mem_append.1 hp with hp | hp
      · exact (ihy hp (depth + 1)).imp fun k h => by simp [h]
      · exact (ihn hp (depth + 1)).imp fun k h => by simp [h]
    · exact (ihr hp depth).imp fun k h => by simp [h]

/-- A line of the source of a program. -/
def Program.HasLine (r : Program) (line : String) : Prop :=
  ∃ before after, r.source = String.join ((before ++ line :: after).map (· ++ "\n"))

/-- **A program with values that read back**: each instruction with a value has a line that declares its
local.  The value there is what the instruction is written as, and its tokens are those that are written for
it and those of its operands; only a sign before the sign of a number is read as one operator. -/
def Program.Legible (r : Program) (t : Tables) (code : List Instruction) : Prop :=
  ∀ b ∈ Spirv.blocks code, ∀ i ∈ b.body, ∀ x, i.result? = some x → i.opcode ∉ Code.controlOps → ¬ Silent t i →
    ∃ type ps depth, Initialises t r.bindings code i ps ∧ (ReadsBack ps ∨ Doubles ps) ∧
      r.HasLine (indented depth (Statement.declare type x ps).text)

/-- The values of a function that is shown read back. -/
theorem Program.Shows.legible {r : Program} {t : Tables} {code : List Instruction} {S : Script}
    (h : r.Shows t code S) : r.Legible t code := by
  intro b hb i hi x hx hcontrol hsilent
  obtain ⟨p, hp, -, hall⟩ := exists_of_mem_left h.blocks hb
  obtain ⟨ss, hprints, hsub⟩ := hall.mem hi
  have hresult : i.result? = some i.result := by
    rw [Instruction.result?] at hx ⊢
    split at hx
    · rename_i hr
      rw [if_pos hr]
    · cases hx
  cases hx.symm.trans hresult
  cases hprints with
  | control hop => exact absurd hop hcontrol
  | silent hs => exact absurd hs hsilent
  | perform hdone =>
    cases hdone with
    | store heq | write heq =>
      rw [heq] at hx
      cases hx
  | @declare type ps _ _ _ hinit hreads =>
    obtain ⟨k, hk⟩ := S.mem_lines hp (hsub (List.mem_singleton_self _)) 1
    obtain ⟨head, qualifier, parameters, out, declared, hsource, -⟩ := h.source
    have hmem : indented k (Statement.declare type i.result ps).text ∈
        head ++ functionLines qualifier parameters out declared S :=
      List.mem_append_right _ (List.mem_cons_of_mem _ (List.mem_cons_of_mem _
        (List.mem_append_left _ (List.mem_append_right _ hk))))
    obtain ⟨before, after, heq⟩ := List.append_of_mem hmem
    exact ⟨type, ps, k, hinit, hreads, before, after, heq ▸ hsource⟩

end Metal

/-- **A shader with values that read back**, as the tables of its module have them. -/
def Shader.Legible (x : Shader) : Prop :=
  ∃ m t r, Module.parse x.body.words = .ok m ∧ Metal.Tables.load m = .ok t ∧
    Metal.Program.ofWords x.body.words = .ok r ∧ x.source = r.source ∧
    r.Legible t (Metal.functionIn m.instructions)

/-- The source of a shader is that of the program of its body. -/
theorem Body.source_spec {x : Shader} (h : b.shader g = .ok x) :
    ∃ r, Metal.Program.ofWords x.body.words = .ok r ∧ x.source = r.source := by
  rw [Body.shader] at h
  obtain ⟨r, hr, h⟩ := bind_eq_ok.1 h
  obtain ⟨bindings, -, h⟩ := bind_eq_ok.1 h
  cases h
  exact ⟨r, mapError_eq_ok.1 hr, rfl⟩

/-- **Values read back as they were put together** in all shaders of a compilation: the line that declares
the local of an instruction has the tokens that are written for it and those of its operands, unless it is
the negation of a literal with a sign, the two of which are read as a decrement. -/
theorem Graph.Built.compile_legible (hg : g.Built) (hnames : g.ShortNames) {id : NodeId}
    {options : Options} {c : Compilation} (h : g.compile id options = .ok c) :
    ∀ s ∈ c.stages, ∀ x ∈ s.shaders, x.Legible := by
  intro s hs x hx
  obtain ⟨htypes, hplans⟩ := compile_plans h
  obtain ⟨p, hplan, -, hbuilds⟩ := hplans s hs
  obtain ⟨t, ht, hbodies⟩ := hbuilds.bodies
  obtain ⟨hplanned, hlabels, -⟩ := Graph.plan_planned hg.consistent htypes hplan
  have hgraph : p.graph = g := by rw [StagePlan.graph, hlabels]; rfl
  obtain ⟨b, hb, hbx⟩ := exists_of_mem_right (mapM_eq_ok.1 hbuilds.shaders) hx
  have hmade := StagePlan.generate_made hplanned (hgraph ▸ hnames) ht b (hbodies ▸ hb)
  obtain ⟨r, hr, hsource⟩ := Body.source_spec hbx
  rw [(Body.shader_spec hbx).1] at hr
  obtain ⟨m, t, S, hm, hload, hshows⟩ := hmade.shown hr
  rw [← (Body.shader_spec hbx).1] at hr hm
  exact ⟨m, t, r, hm, hload, hr, hsource, hshows.legible⟩

/-- The field that is shown: the values of its shaders and of those of the output read back. -/
theorem Graph.compile_legible_field : ∃ c : Compilation,
    FieldExample.graph.compile (Uuid.ofBytes [4]) ⟨false, 0⟩ = .ok c ∧ c.roots = [1, 3] ∧
      ∀ s ∈ c.stages, ∀ x ∈ s.shaders, x.Legible := by
  obtain ⟨c, hc, hroots⟩ := FieldExample.compiles
  exact ⟨c, hc, hroots, (Built.grown _).compile_legible FieldExample.names_short hc⟩

/-! ### A sign before a sign -/

namespace SignExample

/-- The number -1 is negated and shown. -/
def graph : Graph :=
  .grown [.node (Uuid.ofBytes [1]) "" .constant (.constant [-1] .float),
    .node (Uuid.ofBytes [2]) "" .negate .none, .node (Uuid.ofBytes [3]) "" .previewOutput .none,
    .edge 0 1, .edge 2 3]

def types : TypeAssignment := #[.float, .float, .float, .float]

def stage : StagePlan := ⟨graph.stageLabels 2, types, [0, 1, 2], ⟨[0, 1, 2], []⟩, false⟩

/-- What planning comes out as. -/
theorem evaluated : graph.validate.toOption = some () ∧
    (graph.outputPosition (Uuid.ofBytes [3])).toOption = some 2 ∧
    graph.typesWithin? 20 = some types ∧ graph.outlineWithin? 20 2 = some ([], [0, 1, 2]) ∧
    ∀ i ∈ [0, 1, 2], (graph.stageLabels 2).isBranching i = false := by
  decide +kernel

/-- The lines before the value. -/
def linesBefore : List String :=
  ["#include <metal_stdlib>", "#include <simd/simd.h>", "", "using namespace metal;", "", "struct Globals",
    "\x7b", "    float4x4 view_projection;", "    float4x4 model;", "    packed_float3 extent;",
    "    float time;", "\x7d;", "", "struct main0_out", "\x7b", "    float4 color [[color(0)]];", "\x7d;", "",
    "fragment main0_out main0(constant Globals& globals [[buffer(0)]])", "\x7b",
    "    main0_out out = \x7b\x7d;"]

/-- The lines after it. -/
def linesAfter : List String :=
  ["    float4 _18 = float4(_16, _16, _16, 1.0f);", "    out.color = _18;", "    return out;", "\x7d"]

/-- Whether a module has a function that negates a constant, which is written as -1. -/
def negates (words : List UInt32) : Bool :=
  match Module.parse words with
  | .error _ => false
  | .ok m =>
    match Metal.Tables.load m with
    | .error _ => false
    | .ok t => (Spirv.blocks (Metal.functionIn m.instructions)).any fun b => b.body.any fun i =>
        i.opcode == .fNegate && i.result? == some 16 &&
          i.args.any fun x => ((Metal.literal t x).run {}).toOption.map (·.1) == some "-1.0f"

end SignExample

open SignExample in
/-- **A negation does not read back**: -1 is negated by a value with the text of a decrement. -/
theorem Graph.compile_doubled : graph.Built ∧ ∃ (c : Compilation) (s : CompiledStage) (x : Shader),
    graph.compile (Uuid.ofBytes [3]) ⟨false, 0⟩ = .ok c ∧ s ∈ c.stages ∧ x ∈ s.shaders ∧
      x.source = String.join ((linesBefore ++ "    float _16 = --1.0f;" :: linesAfter).map (· ++ "\n")) ∧
      negates x.body.words = true ∧
      Metal.tokens "--1.0f".toList = ["--".toList, "1.0f".toList] ∧
      "-".toList :: Metal.tokens "-1.0f".toList = ["-".toList, "-".toList, "1.0f".toList] := by
  have hbuilds : (buildStages [stage]).toOption.map (fun stages => stages.any fun s => s.shaders.any fun x =>
      x.source == String.join ((linesBefore ++ "    float _16 = --1.0f;" :: linesAfter).map (· ++ "\n")) &&
        negates x.body.words) = some true := by
    decide +kernel
  obtain ⟨hvalid, hroot, hwithin, houtline, hplain⟩ := evaluated
  obtain ⟨stats, hplanned⟩ := Graph.planned_plain (Built.grown _).consistent hvalid hroot hwithin
    houtline hplain false
  cases hs : buildStages [stage] with
  | error e =>
    rw [hs] at hbuilds
    cases hbuilds
  | ok stages =>
    rw [hs] at hbuilds
    obtain ⟨s, hmem, h⟩ := List.any_eq_true.1 (Option.some.inj hbuilds)
    obtain ⟨x, hx, h⟩ := List.any_eq_true.1 h
    rw [Bool.and_eq_true, beq_iff_eq] at h
    exact ⟨Built.grown _, _, s, x, bind_eq_ok.2 ⟨_, hplanned, bind_eq_ok.2 ⟨stages, hs, rfl⟩⟩, hmem, hx,
      h.1, h.2, by decide +kernel, by decide +kernel⟩

end NodeShader
