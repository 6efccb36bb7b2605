import NodeShader.Compile.Plan
import NodeShader.Digest.Sha
import NodeShader.Failure
import NodeShader.Metal.Emit
import NodeShader.Spirv.Instruction
import NodeShader.Stage.Generate

/-!
# Compilation

A graph and one of its output nodes are compiled into stages, each after the stages it samples. The
domain of a stage includes those of the stages it samples, and its hash covers theirs.
-/

namespace NodeShader

/-! ### Shaders

A shader is a body with its Metal program. Each declared resource is joined with the binding that the
program has for the same variable. -/

/-- A resource as declared and as the program expects it. -/
structure ShaderBinding where
  resource : Resource
  reflected : Metal.Binding

structure Shader where
  body : Body
  source : String
  bindings : List ShaderBinding
  localSize : List UInt32

/-- A failure to write a Metal program, which belongs to the node whose code it is about. -/
def Body.metalFailure (g : Graph) (b : Body) (e : Metal.Error) : Failure :=
  let node := ((b.origins.lookup e.id).bind (g.nodes[·]?)).map (·.id)
  .classify .backend node (some (.metal e))

/-- The shader of a body. -/
def Body.shader (g : Graph) (b : Body) : Except Failure Shader := do
  let program ← (Metal.Program.ofWords b.words).mapError (b.metalFailure g)
  let bindings ← b.resources.mapM fun r =>
    match program.binding? r.variable_ with
    | some reflected => .ok ⟨r, reflected⟩
    | none =>
      .error (.ofMessage .backend none
        s!"{b.model.name} resource {Text.quote r.name} was not reflected")
  return { body := b, source := program.source, bindings, localSize := program.localSize }

/-! ### Stage hashes

A stage is hashed with all it depends on: its kind, its bodies, each with its execution model and
length in front, and the hashes of the stages it samples. -/

def StageKind.code : StageKind → UInt32
  | .none => 0
  | .render => 1
  | .compute => 2

/-- The bytes of a body that take part in the hash. -/
def Body.hashedBytes (b : Body) : List UInt8 :=
  Spirv.bytesOfWords (b.model.code :: b.words.length.toUInt32 :: b.words)

/-- The bytes that are hashed for a stage. -/
def hashedBytes (kind : StageKind) (bodies : List Body) (dependencies : List (List UInt8)) :
    List UInt8 :=
  Spirv.bytesOfWords [kind.code] ++ bodies.flatMap Body.hashedBytes ++ dependencies.flatten

/-- The hash of a stage whose dependencies have the given hashes. -/
def stageHash (kind : StageKind) (bodies : List Body) (dependencies : List (List UInt8)) :
    List UInt8 :=
  Digest.Sha256.digest (hashedBytes kind bodies dependencies)

/-! ### Stages -/

/-- A stage with its shaders. -/
structure CompiledStage where
  stage : Stage
  shaders : List Shader
  hash : List UInt8

/-- The outcome of a compilation. -/
structure Compilation where
  root : Nat
  types : TypeAssignment
  stats : TypingStats
  stages : List CompiledStage
  /-- The nodes that no stage has code for. -/
  pruned : List Nat

namespace Compilation

/-- The stages that sample the field of a stage. -/
def dependants (c : Compilation) (s : CompiledStage) : List Nat :=
  c.stages.flatMap fun t => (t.stage.dependencies.filter (· == s.stage.root)).map fun _ => t.stage.root

/-- The stage of a root. -/
def stageOf? (c : Compilation) (root : Nat) : Option CompiledStage :=
  c.stages.find? (·.stage.root == root)

end Compilation

/-- The stage of a plan once the stages it samples are built. -/
def StagePlan.build (built : List CompiledStage) (p : StagePlan) : Except Failure CompiledStage := do
  let s ← p.generate
  let sampled := s.dependencies.filterMap fun d => built.find? (·.stage.root == d)
  let domain := sampled.foldl (fun d t => d.union t.stage.domain) s.domain
  let shaders ← s.bodies.mapM (Body.shader p.graph)
  return {
    stage := { s with domain }
    shaders
    hash := stageHash s.kind s.bodies (sampled.map (·.hash)) }

/-- Builds stages in order. -/
def buildStages (plans : List StagePlan) : Except Failure (List CompiledStage) :=
  plans.foldlM (fun built p => do return built ++ [← p.build built]) []

/-- The positions that occur in no stage. -/
def Graph.unused (g : Graph) (stages : List CompiledStage) : List Nat :=
  (List.range g.nodes.size).filter fun i => !stages.any fun s => s.stage.nodes.contains i

/-- Compiles an output node of a graph. -/
def Graph.compile (g : Graph) (root : NodeId) (options : Options) : Except Failure Compilation := do
  let plan ← g.planCompilation root options
  let stages ← buildStages plan.stages
  return { root := plan.root, types := plan.types, stats := plan.stats, stages,
           pruned := g.unused stages }

end NodeShader
