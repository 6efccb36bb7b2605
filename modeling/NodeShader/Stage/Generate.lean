import NodeShader.Stage.Write

/-!
# Generating stages

The code of a stage from its plan. Whatever has no code is an unsupported construct.
-/

namespace NodeShader

open Spirv

/-- The size of the workgroups that fill a field, by its dimensions. -/
def localSize? : Int → Option (List Nat)
  | 2 => some [8, 8, 1]
  | 3 => some [4, 4, 4]
  | _ => none

namespace Drafting

/-! ### The vertex body

All render stages share one vertex body. It transforms the vertex of the mesh by the matrices of the
model and the view, and passes its position, normal and texture coordinates on. -/

/-- Declares the mesh attribute and the output for an input of the fragment body. -/
def passed (input : StageInput) : Drafting (UInt32 × UInt32) := do
  let place := Place.location input.location
  let given ← valueVariable .stageInput ("in_" ++ input.name) input.type place
  let passed ← valueVariable .stageOutput input.name input.type place
  return (given, passed)

/-- The whole vertex body. -/
def vertex : Drafting Unit := do
  begin
  let vec2 ← typeOf .float2
  let vec3 ← typeOf .float3
  let vec4 ← typeOf .float4
  let (inPosition, outPosition) ← passed .position
  let (inNormal, outNormal) ← passed .normal
  let (inTexCoord, outTexCoord) ← passed .texCoord
  let clip ← stageVariable .stageOutput "clip_position" .float4 vec4 ValueType.float4.name
    (.builtIn BuiltIn.position "position")
  beginMain
  let one ← one
  let zero ← zero
  let model ← loadGlobal .model
  let viewProjection ← loadGlobal .viewProjection
  assemble do
    let position ← Assemble.op .load vec3 [inPosition]
    let point ← Assemble.op .compositeConstruct vec4 [position, one]
    let world ← Assemble.op .matrixTimesVector vec4 [model, point]
    let projected ← Assemble.op .matrixTimesVector vec4 [viewProjection, world]
    Assemble.void .store [clip, projected]
    let place ← Assemble.op .vectorShuffle vec3 [world, world, 0, 1, 2]
    Assemble.void .store [outPosition, place]
    let normal ← Assemble.op .load vec3 [inNormal]
    let direction ← Assemble.op .compositeConstruct vec4 [normal, zero]
    let worldNormal ← Assemble.op .matrixTimesVector vec4 [model, direction]
    let turned ← Assemble.op .vectorShuffle vec3 [worldNormal, worldNormal, 0, 1, 2]
    Assemble.void .store [outNormal, turned]
    let texCoord ← Assemble.op .load vec2 [inTexCoord]
    Assemble.void .store [outTexCoord, texCoord]
  endMain

/-! ### The body of a stage -/

/-- The body of the stage itself: declarations, then code, then how it is executed. -/
def stageBody (p : StagePlan) (mode : UInt32) (params : List UInt32) : Drafting Unit := do
  begin
  p.order.forM (declareNode p)
  beginMain
  writeNodes p (p.region.arms.length + 1) p.region.shared
  endMain
  let main := (← get).main
  assemble (Assemble.executionMode main mode params)

/-- Runs a draft from its beginning. -/
def run (model : ExecutionModel) (draft : Drafting Unit) : Except Failure Draft :=
  (StateT.run draft (Draft.new model)).map (·.2)

end Drafting

/-- The vertex body of all render stages. -/
def vertexBody : Except Failure Body := (Drafting.run .vertex Drafting.vertex).map Draft.body

/-- The nodes a stage has code for: the roots of other stages have none here. -/
def StagePlan.nodes (p : StagePlan) : List Nat := p.order.filter fun i => !p.labels.isForeignRoot i

/-- The union of the domains of the nodes. -/
def StagePlan.domain (p : StagePlan) : Domain :=
  p.nodes.foldl (fun d i => ((p.graph.nodes[i]?.map (·.domain)).map d.union).getD d) .constant

/-- How the body of the stage of a root is executed: its model, its mode and the parameters of it. -/
def Node.execution (root : Node) : Except Failure (ExecutionModel × UInt32 × List UInt32) :=
  match root.kind.stage with
  | .render => .ok (.fragment, ExecutionMode.originUpperLeft, [])
  | .compute =>
    match root.params with
    | .field dim _ =>
      match localSize? dim with
      | none =>
        .error (.ofMessage .unsupported (some root.id)
          (root.text ++ s!": compute fields of dimension {dim} are not supported"))
      | some size => .ok (.compute, ExecutionMode.localSize, size.map Nat.toUInt32)
    | _ => .error .fault
  | .none => .error (.plain s!"codegen: node {root.text} is not a stage root")

/-- The field that the stage of a root fills, if it fills one. -/
def Node.field? (root : Node) : Option Field :=
  match root.kind.stage, root.params with
  | .compute, .field dim resolution =>
    (localSize? dim).map fun size =>
      ⟨dim, if resolution = 0 then defaultResolution else resolution, size.map Int.ofNat⟩
  | _, _ => none

/-- The node at the root of a plan. -/
def StagePlan.rootNode (p : StagePlan) : Except Failure Node :=
  match p.graph.nodes[p.root]? with
  | some n => .ok n
  | none => .error .fault

/-- The draft of the fragment or compute body of a stage. -/
def StagePlan.draftBody (p : StagePlan) : Except Failure Draft := do
  let root ← p.rootNode
  let (model, mode, params) ← root.execution
  Drafting.run model (Drafting.stageBody p mode params)

/-- The stage of a plan, with failures as they arise. -/
def StagePlan.draft (p : StagePlan) : Except Failure Stage := do
  let root ← p.rootNode
  let d ← p.draftBody
  let bodies ←
    match root.kind.stage with
    | .render => vertexBody.map fun vertex => [vertex, d.body]
    | _ => pure [d.body]
  return {
    root := p.root, id := root.id, kind := root.kind.stage, domain := p.domain,
    dependencies := d.dependencies, nodes := p.nodes, bodies, field := root.field? }

/-- The stage of a plan. -/
def StagePlan.generate (p : StagePlan) : Except Failure Stage :=
  p.draft.mapError fun f => .classify .unsupported none (some f)

end NodeShader
