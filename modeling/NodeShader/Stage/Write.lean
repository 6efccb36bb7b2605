import NodeShader.Math.Read
import NodeShader.Stage.Declare
import NodeShader.Stage.Fold
import NodeShader.Stage.Select

/-!
# Writing code

The instructions of each node, in the order of the schedule. The nodes of an arm are written into a
block of their own, and the value of the conditional is chosen where the blocks meet.
-/

namespace NodeShader

open Spirv

/-- A call taken apart into its function and arguments. -/
def Math.Expr.call? : Math.Expr → Option (Math.Operation × List Math.Expr)
  | .unary f x => some (.unary f, [x])
  | .binary f x y => some (.binary f, [x, y])
  | .mix x y t => some (.mix, [x, y, t])
  | _ => none

namespace Drafting

/-! ### Values of ports -/

/-- The identifier of the value of an output port, reserved where there is none yet. -/
def resultId (out : PortId) : Drafting UInt32 := do
  match (← get).values.lookup out with
  | some id => return id
  | none =>
    let id ← assemble Assemble.allocId
    modify fun d => { d with values := (out, id) :: d.values }
    return id

/-- Makes an output port take a value that exists. -/
def bind (n : Node) (out : PortId) (id : UInt32) : Drafting Unit := do
  match (← get).values.lookup out with
  | some old =>
    if old ≠ id then throw (.plain s!"codegen: port {out} of {n.text} already has value %{old}")
  | none => modify fun d => { d with values := (out, id) :: d.values }

/-- The value that flows into an input port: zero if it is not connected. -/
def operand (p : StagePlan) (input : PortId) : Drafting UInt32 := do
  match p.graph.producer? input with
  | some out => resultId out
  | none =>
    let type ← typeOf (p.typeOf input)
    assemble (Assemble.constantNull type)

/-- The components of the value that flows into an input port, if they are known. -/
def knownOperand? (p : StagePlan) (input : PortId) : Drafting (Option (List Float)) := do
  match p.graph.producer? input with
  | none => return some (List.replicate (p.typeOf input).size 0)
  | some out => return (← get).known.lookup out

/-- Says that the node at a position made a result. -/
def credit (i : Nat) (id : UInt32) : Drafting Unit :=
  modify fun d => { d with origins := (id, i) :: d.origins }

/-- An instruction with a new result. -/
def emit (i : Nat) (op : Opcode) (type : UInt32) (args : List UInt32) : Drafting UInt32 := do
  let id ← assemble (Assemble.op op type args)
  credit i id
  return id

/-- The instruction that computes an output port. -/
def define (i : Nat) (out : PortId) (op : Opcode) (type : UInt32) (args : List UInt32) :
    Drafting Unit := do
  let id ← resultId out
  assemble (Assemble.opWithId op type id args)
  credit i id

/-- The named input of a node. -/
def inputNamed (p : StagePlan) (n : Node) (name : String) : Drafting PortId :=
  match p.graph.inputNamed n name with
  | .ok port => pure port
  | .error _ => throw .fault

/-! ### Arithmetic -/

/-- Applies an arithmetic function, giving the result an identifier reserved for it. -/
def arithmetic (i : Nat) (n : Node) (id : UInt32) (f : Math.Operation) (t : ValueType)
    (args : List UInt32) : Drafting Unit := do
  let type ← typeOf t
  match f.select? t with
  | some (.core op) => assemble (Assemble.opWithId op type id args)
  | some (.extended function) =>
    let set := (← get).extended
    assemble (Assemble.opWithId .extInst type id (set :: function :: args))
  | none => unsupported n s!"function {Text.quote f.name} is not defined for type {t}"
  credit i id

/-- The components of the result of an arithmetic node, if constants are folded and all are known. -/
def folded? (p : StagePlan) (n : Node) (f : Math.Operation) (t : ValueType) :
    Drafting (Option (List Float)) := do
  if !p.foldConstants then return none
  let operands ← n.inputs.mapM (knownOperand? p)
  match operands.mapM (·) with
  | some operands => return foldComponents f t operands
  | none => return none

/-- An output whose components are known. -/
def defineKnown (n : Node) (out : PortId) (t : ValueType) (values : List Float) : Drafting Unit := do
  bind n out (← constant t values)
  modify fun d => { d with known := (out, values) :: d.known }

def writeArithmetic (p : StagePlan) (i : Nat) (n : Node) (f : Math.Operation) (out : PortId) :
    Drafting Unit := do
  let t := p.typeOf out
  match ← folded? p n f t with
  | some values => defineKnown n out t values
  | none =>
    let args ← n.inputs.mapM (operand p)
    arithmetic i n (← resultId out) f t args

/-- The value of an expression of a type. -/
def lower (p : StagePlan) (i : Nat) (n : Node) (t : ValueType) : Math.Expr → Drafting UInt32
  | .number v => constant t [v]
  | .input name => do operand p (← inputNamed p n name)
  | .unary f x => do
    let x ← lower p i n t x
    let id ← assemble Assemble.allocId
    arithmetic i n id (.unary f) t [x]
    return id
  | .binary f x y => do
    let x ← lower p i n t x
    let y ← lower p i n t y
    let id ← assemble Assemble.allocId
    arithmetic i n id (.binary f) t [x, y]
    return id
  | .mix x y s => do
    let x ← lower p i n t x
    let y ← lower p i n t y
    let s ← lower p i n t s
    let id ← assemble Assemble.allocId
    arithmetic i n id .mix t [x, y, s]
    return id

def writeExpression (p : StagePlan) (i : Nat) (n : Node) (out : PortId) : Drafting Unit := do
  match n.params with
  | .math source inputs =>
    match Math.Expr.parse source inputs with
    | .error fault => throw (.classify .structural (some n.id) (some (.plain fault.message)))
    | .ok e =>
      let t := p.typeOf out
      match e.call? with
      | none => bind n out (← lower p i n t e)
      | some (f, args) =>
        let id ← resultId out
        let args ← args.mapM (lower p i n t)
        arithmetic i n id f t args
  | _ => throw .fault

/-! ### Comparisons and conditionals -/

def writeCompare (p : StagePlan) (i : Nat) (n : Node) (a b out : PortId) : Drafting Unit := do
  match n.params with
  | .compare test =>
    match test.select? with
    | none => unsupported n s!"unknown comparison {test.name}"
    | some (floating, integral) =>
      let type ← assemble Assemble.typeBool
      let x ← operand p a
      let y ← operand p b
      define i out (if (p.typeOf a).isInt then integral else floating) type [x, y]
  | _ => throw .fault

/-- Opens a block. -/
def openBlock (label : UInt32) : Drafting Unit := do
  modify fun d => { d with label }
  assemble (Assemble.label label)

/-- One arm: its nodes in a block that leads to where the arms meet. Gives its value and the block
the value comes from. -/
def writeArm (p : StagePlan) (arm : Drafting Unit) (label merge : UInt32) (input : PortId) :
    Drafting (List UInt32) := do
  openBlock label
  arm
  let value ← operand p input
  let last := (← get).label
  assemble (Assemble.void .branch [merge])
  return [value, last]

/-- A conditional: the value of its live arm, or a choice between two blocks. `arm` writes the
nodes of an arm. -/
def writeConditional (p : StagePlan) (arm : Nat → Drafting Unit) (i : Nat) (n : Node)
    (out : PortId) : Drafting Unit := do
  let arms := n.inputs.filter fun q => (p.graph.port? q).any fun port => 0 ≤ port.arm
  match p.labels.liveArm i with
  | some live => bind n out (← operand p (← demand (Array.at? arms.toArray live)))
  | none =>
    match arms, n.inputs with
    | [first, second], test :: _ =>
      let condition ← operand p test
      let (merge, label₀, label₁) ← assemble do
        let merge ← Assemble.allocId
        let label₀ ← Assemble.allocId
        let label₁ ← Assemble.allocId
        Assemble.void .selectionMerge [merge, 0]
        Assemble.void .branchConditional [condition, label₀, label₁]
        return (merge, label₀, label₁)
      let chosen ← writeArm p (arm 0) label₀ merge first
      let other ← writeArm p (arm 1) label₁ merge second
      openBlock merge
      let type ← typeOf (p.typeOf out)
      define i out .phi type (chosen ++ other)
    | _, _ => unsupported n s!"conditionals with {arms.length} arms are not supported"

/-! ### Vectors -/

def writeSwizzle (p : StagePlan) (i : Nat) (n : Node) (input out : PortId) : Drafting Unit := do
  match n.params with
  | .swizzle selector =>
    let components := ((selectorComponents? selector).getD []).map Nat.toUInt32
    let value ← operand p input
    let type ← typeOf (p.typeOf out)
    match (p.typeOf input).size, components with
    | 1, [_] => bind n out value
    | 1, _ => define i out .compositeConstruct type (components.map fun _ => value)
    | _, [component] => define i out .compositeExtract type [value, component]
    | _, _ => define i out .vectorShuffle type (value :: value :: components)
  | _ => throw .fault

def writeSeparate (p : StagePlan) (i : Nat) (n : Node) (input : PortId) : Drafting Unit := do
  let value ← operand p input
  let size := (p.typeOf input).size
  n.outputs.zipIdx.forM fun (out, k) => do
    let port ← demand (p.graph.port? out)
    if port.isConnected && k < size then
      if size = 1 then bind n out value
      else
        let type ← typeOf (p.typeOf out)
        define i out .compositeExtract type [value, k.toUInt32]

/-- A value as a colour: a scalar fills red, green and blue, missing parts are 0 and alpha is 1. -/
def toFloat4 (i : Nat) (value : UInt32) (t : ValueType) : Drafting UInt32 := do
  let float4 ← typeOf .float4
  match t.size with
  | 1 => emit i .compositeConstruct float4 [value, value, value, ← one]
  | 2 => emit i .compositeConstruct float4 [value, ← zero, ← one]
  | 3 => emit i .compositeConstruct float4 [value, ← one]
  | _ => return value

/-! ### Fields -/

/-- The coordinate of the texel of the current invocation, from 0 to 1 along each axis. -/
def texelCoordinate (i : Nat) (dim : Int) : Drafting UInt32 := do
  let float3 ← typeOf .float3
  let invocation := (← get).invocation.getD 0
  let texel ← emit i .load (← unsignedType 3) [invocation]
  let texel ← emit i .convertUToF float3 [texel]
  let centre ← emit i .fAdd float3 [texel, ← constant .float3 [0.5]]
  let extent ← loadGlobal .extent
  credit i extent
  let coordinate ← emit i .fDiv float3 [centre, extent]
  if dim = 3 then return coordinate
  else emit i .vectorShuffle (← typeOf .float2) [coordinate, coordinate, 0, 1]

/-- Loads an input of the fragment body. -/
def loadInput (i : Nat) (input : StageInput) : Drafting UInt32 := do
  let v := ((← get).inputs.lookup input).getD 0
  emit i .load (← typeOf input.type) [v]

/-- An output port that is an input of the fragment body. -/
def defineInput (i : Nat) (out : PortId) (input : StageInput) : Drafting Unit := do
  let type ← typeOf input.type
  let v := ((← get).inputs.lookup input).getD 0
  define i out .load type [v]

def writeSample (p : StagePlan) (i : Nat) (n : Node) (field position out : PortId) :
    Drafting Unit := do
  match (p.graph.producer? field).bind ((← get).fields.lookup ·) with
  | none => unsupported n "field input is not bound to a texture or compute field"
  | some field =>
    let port ← demand (p.graph.port? position)
    let fragment ← isFragment
    let coordinate ←
      if port.isConnected then operand p position
      else if !fragment then texelCoordinate i field.dim
      else if field.dim = 2 then loadInput i .texCoord
      else loadInput i .position
    let image ← emit i .load field.imageType [field.image]
    let sampler ← emit i .load (← assemble Assemble.typeSampler) [field.sampler]
    let sampledType ← assemble (Assemble.typeSampledImage field.imageType)
    let sampled ← emit i .sampledImage sampledType [image, sampler]
    let float4 ← typeOf .float4
    if fragment then define i out .imageSampleImplicitLod float4 [sampled, coordinate]
    else
      define i out .imageSampleExplicitLod float4 [sampled, coordinate, imageOperandsLod, ← zero]

/-- Writes the texel of the current invocation. -/
def writeField (p : StagePlan) (i : Nat) (value : PortId) : Drafting Unit := do
  let texel ← toFloat4 i (← operand p value) (p.typeOf value)
  let storage ← demand (← get).storage
  let image ← emit i .load storage.imageType [storage.image]
  let invocation := (← get).invocation.getD 0
  let gid ← emit i .load (← unsignedType 3) [invocation]
  let coordinate ←
    if storage.dim = 2 then emit i .vectorShuffle (← unsignedType 2) [gid, gid, 0, 1] else pure gid
  assemble (Assemble.void .imageWrite [image, coordinate, texel])

/-! ### Nodes -/

/-- Stores a stage output. -/
def store (name : String) (value : UInt32) : Drafting Unit := do
  let v := ((← get).outputs.lookup name).getD 0
  assemble (Assemble.void .store [v, value])

/-- The code of the node at a position. `arm` writes the nodes of one of its arms. -/
def writeNode (p : StagePlan) (arm : Nat → Drafting Unit) (i : Nat) (n : Node) : Drafting Unit := do
  match n.kind.operation?, n.outputs with
  | some f, out :: _ => writeArithmetic p i n f out
  | _, _ =>
    match n.kind, n.inputs, n.outputs with
    | .constant, _, out :: _ =>
      match n.params with
      | .constant values scalar => defineKnown n out (constantType values scalar) values
      | _ => throw .fault
    | .texture, _, _ => pure ()
    | .time, _, out :: _ =>
      let time ← loadGlobal .time
      credit i time
      bind n out time
    | .position, _, out :: _ =>
      if ← isFragment then defineInput i out .position
      else bind n out (← texelCoordinate i 3)
    | .normal, _, out :: _ => defineInput i out .normal
    | .texCoord, _, out :: _ => defineInput i out .texCoord
    | .length, input :: _, out :: _ =>
      let type ← typeOf (p.typeOf out)
      let value ← operand p input
      define i out .extInst type [(← get).extended, Extended.length, value]
    | .dot, a :: b :: _, out :: _ =>
      let x ← operand p a
      let y ← operand p b
      let type ← typeOf (p.typeOf out)
      define i out (if (p.typeOf a).isVector then .dot else .fMul) type [x, y]
    | .compare, a :: b :: _, out :: _ => writeCompare p i n a b out
    | .conditional, _, out :: _ => writeConditional p arm i n out
    | .swizzle, input :: _, out :: _ => writeSwizzle p i n input out
    | .combine, inputs, out :: _ =>
      let args ← inputs.mapM (operand p)
      define i out .compositeConstruct (← typeOf (p.typeOf out)) args
    | .separate, input :: _, _ => writeSeparate p i n input
    | .mathExpression, _, out :: _ => writeExpression p i n out
    | .sample, field :: position :: _, out :: _ => writeSample p i n field position out
    | .computeField, value :: _, _ => if i = p.root then writeField p i value
    | .previewOutput, color :: _, _ =>
      store "color" (← toFloat4 i (← operand p color) (p.typeOf color))
    | .materialOutput, _, _ =>
      let color ← inputNamed p n "base_color"
      store "base_color" (← toFloat4 i (← operand p color) (p.typeOf color))
      store "roughness" (← operand p (← inputNamed p n "roughness"))
      store "emission" (← operand p (← inputNamed p n "emission"))
    | .invalid, _, _ => unsupported n s!"no code generation rule for node kind {n.kind}"
    | .unknown _, _, _ => unsupported n s!"no code generation rule for node kind {n.kind}"
    | _, _, _ => throw .fault

/-- The code of a list of nodes and of the arms below it, which are nested at most `depth` deep. -/
def writeNodes (p : StagePlan) : (depth : Nat) → List Nat → Drafting Unit
  | 0, _ => throw .fault
  | depth + 1, nodes =>
    nodes.forM fun i => do
      let n ← demand p.graph.nodes[i]?
      writeNode p (fun arm => writeNodes p depth (p.region.armNodes i arm)) i n

end Drafting

end NodeShader
