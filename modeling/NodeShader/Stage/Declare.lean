import NodeShader.Stage.Draft

/-!
# Declaring resources

Before any code is written each node of a stage declares the global variables it needs, in the order
of the schedule, so that slots are the same for the same graph.
-/

namespace NodeShader

open Spirv

/-- The name of a compute field as a resource. -/
def Node.fieldName (n : Node) : String := if n.name = "" then s!"field{n.index}" else n.name

namespace Drafting

/-- Whether a fragment body is drafted. -/
def isFragment : Drafting Bool := return (← get).model = .fragment

/-- Declares a fragment input on first use. -/
def stageInput (input : StageInput) : Drafting Unit := do
  if ((← get).inputs.lookup input).isNone then
    let v ← valueVariable .stageInput input.name input.type (.location input.location)
    modify fun d => { d with inputs := (input, v) :: d.inputs }

/-- Declares the texel of the current invocation on first use. -/
def invocationId : Drafting Unit := do
  if (← get).invocation.isNone then
    let v ← stageVariable .stageInput "gid" .invalid (← unsignedType 3) "uint3"
      (.builtIn BuiltIn.globalInvocationId "global_invocation_id")
    modify fun d => { d with invocation := some v }

def stageOutput (name : String) (type : ValueType) (location : Nat) : Drafting Unit := do
  let v ← valueVariable .stageOutput name type (.location location)
  modify fun d => { d with outputs := (name, v) :: d.outputs }

/-- Declares the image and the sampler of a field that is sampled. -/
def sampledField (i : Nat) (out : PortId) (name : String) (dim : Int) (format : String) :
    Drafting Unit := do
  if ((← get).fields.lookup out).isNone then
    if dim = 1 then assemble (Assemble.capability Capability.sampled1D)
    let imageType ← assemble do
      Assemble.typeImage (← Assemble.typeFloat 32) (Dim.ofCount dim) 1 ImageFormat.unknown
    let image ← boundVariable imageType i { name, kind := .sampledImage, dim, format }
    let samplerType ← assemble Assemble.typeSampler
    let sampler ← boundVariable samplerType i { name := name ++ "_sampler", kind := .sampler }
    modify fun d => { d with fields := (out, { image, sampler, imageType, dim }) :: d.fields }

/-- Declares the image that a compute stage writes. -/
def storageField (i : Nat) (n : Node) (dim : Int) : Drafting Unit := do
  let imageType ← assemble do
    Assemble.typeImage (← Assemble.typeFloat 32) (Dim.ofCount dim) 2 ImageFormat.rgba32f
  let image ← boundVariable imageType i
    { name := n.fieldName, kind := .storageImage, dim, format := "rgba32f" }
  assemble (Assemble.decorate image Decoration.nonReadable [])
  modify fun d => { d with storage := some { image, imageType, dim } }

/-- The coordinate a sample without a position uses. -/
def implicitCoordinate (dim : Int) : Drafting Unit := do
  if !(← isFragment) then invocationId
  else if dim = 2 then stageInput .texCoord
  else stageInput .position

/-- Declares what the node at a position needs. -/
def declareNode (p : StagePlan) (i : Nat) : Drafting Unit := do
  let n ← demand p.graph.nodes[i]?
  match n.kind with
  | .texture =>
    match n.params, n.outputs with
    | .texture name dim, out :: _ => sampledField i out name dim ""
    | _, _ => throw .fault
  | .computeField =>
    match n.params, n.outputs with
    | .field dim _, out :: _ =>
      if i = p.root then
        storageField i n dim
        invocationId
      else
        sampledField i out n.fieldName dim "rgba32f"
        modify fun d => { d with dependencies := d.dependencies ++ [i] }
    | _, _ => throw .fault
  | .position => if ← isFragment then stageInput .position else invocationId
  | .normal | .texCoord =>
    if !(← isFragment) then unsupported n s!"{n.kind} is only available in render stages"
    else if n.kind = .normal then stageInput .normal
    else stageInput .texCoord
  | .sample =>
    match n.inputs with
    | field :: position :: _ =>
      let dim := (p.typeOf field).size
      if dim < 2 then unsupported n s!"sampling a {dim}D field is not supported"
      let port ← demand (p.graph.port? position)
      if !port.isConnected then implicitCoordinate dim
    | _ => throw .fault
  | .previewOutput => stageOutput "color" .float4 0
  | .materialOutput =>
    stageOutput "base_color" .float4 0
    stageOutput "roughness" .float 1
    stageOutput "emission" .float3 2
  | _ => pure ()

end Drafting

end NodeShader
