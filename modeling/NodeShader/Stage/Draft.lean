import NodeShader.Failure
import NodeShader.Spirv.Builder
import NodeShader.Stage.Basic

/-!
# Drafting a body

A body is drafted step by step: each step adds instructions to the module and keeps track of what
has been declared. This module holds what all bodies share: the header, the block of global values,
types, constants and variables.
-/

namespace NodeShader

open Spirv

/-- The members of the block of global values. -/
inductive GlobalMember where
  | viewProjection
  | model
  | extent
  | time
  deriving DecidableEq, Repr

namespace GlobalMember

def all : List GlobalMember := [viewProjection, model, extent, time]

def index : GlobalMember → Nat
  | viewProjection => 0
  | model => 1
  | extent => 2
  | time => 3

def name : GlobalMember → String
  | viewProjection => "view_projection"
  | model => "model"
  | extent => "extent"
  | time => "time"

/-- The offset in bytes. -/
def offset : GlobalMember → UInt32
  | viewProjection => 0
  | model => 64
  | extent => 128
  | time => 140

def isMatrix : GlobalMember → Bool
  | viewProjection | model => true
  | extent | time => false

end GlobalMember

/-- The inputs of the fragment body, which the vertex body writes. -/
inductive StageInput where
  | position
  | normal
  | texCoord
  deriving DecidableEq, Repr

namespace StageInput

def all : List StageInput := [position, normal, texCoord]

def name : StageInput → String
  | position => "position"
  | normal => "normal"
  | texCoord => "texcoord"

def type : StageInput → ValueType
  | position | normal => .float3
  | texCoord => .float2

def location : StageInput → Nat
  | position => 0
  | normal => 1
  | texCoord => 2

end StageInput

/-- The variables of a field that is sampled or written. -/
structure FieldVariables where
  image : UInt32
  sampler : UInt32 := 0
  imageType : UInt32
  dim : Int

/-- A body under construction. -/
structure Draft where
  builder : ModuleBuilder
  model : ExecutionModel
  /-- The extended instruction set. -/
  extended : UInt32 := 0
  main : UInt32 := 0
  globals : UInt32 := 0
  /-- The block that instructions are added to. -/
  label : UInt32 := 0
  interface : List UInt32 := []
  resources : List Resource := []
  nextSlot : Nat := 0
  origins : List (UInt32 × Nat) := []
  /-- The value of each output port that has one or is waited for. -/
  values : List (PortId × UInt32) := []
  /-- The components of the output ports whose value is known. -/
  known : List (PortId × List Float) := []
  fields : List (PortId × FieldVariables) := []
  inputs : List (StageInput × UInt32) := []
  outputs : List (String × UInt32) := []
  /-- The variable that tells a compute shader its texel. -/
  invocation : Option UInt32 := none
  storage : Option FieldVariables := none
  dependencies : List Nat := []

/-- A step that adds to a body, or finds that something has no code. -/
abbrev Drafting := StateT Draft (Except Failure)

namespace Drafting

/-- A step on the module alone. -/
def assemble {α : Type} (step : Assemble α) : Drafting α :=
  modifyGet fun d =>
    let (a, builder) := step.run d.builder
    (a, { d with builder })

/-- What has no code, told of a node. -/
def unsupported {α : Type} (n : Node) (reason : String) : Drafting α :=
  throw (.ofMessage .unsupported (some n.id) (n.text ++ ": " ++ reason))

/-- What has no code at any node. -/
def unsupportedAnywhere {α : Type} (reason : String) : Drafting α :=
  throw (.ofMessage .unsupported none reason)

/-- Something that the graph must have. -/
def demand {α : Type} : Option α → Drafting α
  | some a => pure a
  | none => throw .fault

/-! ### Types and constants -/

/-- The type of a value. -/
def typeOf (t : ValueType) : Drafting UInt32 := do
  let scaled (scalar : UInt32) : Drafting UInt32 :=
    if t.size = 1 then pure scalar else assemble (Assemble.typeVector scalar t.size.toUInt32)
  if t.isFloat then scaled (← assemble (Assemble.typeFloat 32))
  else if t.isHalf then
    assemble (Assemble.capability Capability.float16)
    scaled (← assemble (Assemble.typeFloat 16))
  else if t.isInt then scaled (← assemble (Assemble.typeInt 32 true))
  else if t = .bool then assemble Assemble.typeBool
  else unsupportedAnywhere s!"no value representation for type {t}"

/-- An unsigned integer or a vector of them. -/
def unsignedType (size : Nat) : Drafting UInt32 := do
  let scalar ← assemble (Assemble.typeInt 32 false)
  if size = 1 then return scalar else assemble (Assemble.typeVector scalar size.toUInt32)

/-- A constant of a scalar type. -/
def scalarConstant (t : ValueType) (value : Float) : Drafting UInt32 := do
  let type ← typeOf t
  if t = .float then assemble (Assemble.constantSingle type value)
  else if t = .half then assemble (Assemble.constantHalf type value)
  else if t = .int then assemble (Assemble.constant type [signedWord value])
  else if t = .bool then assemble (Assemble.constantBool type (value != 0))
  else unsupportedAnywhere s!"no constants of type {t}"

/-- A constant with the given components; a single one stands for all. -/
def constant (t : ValueType) (values : List Float) : Drafting UInt32 := do
  if t.size = 1 then scalarConstant t (values.getD 0 0)
  else
    let parts ← (List.range t.size).mapM fun k =>
      scalarConstant t.scalar (if 1 < values.length then values.getD k 0 else values.getD 0 0)
    assemble (Assemble.constantComposite (← typeOf t) parts)

def one : Drafting UInt32 := constant .float [1]

def zero : Drafting UInt32 := constant .float [0]

/-! ### Variables -/

/-- Declares the block of global values, which has the first slot. -/
def declareGlobals : Drafting Unit := do
  let float ← assemble (Assemble.typeFloat 32)
  let vector3 ← assemble (Assemble.typeVector float 3)
  let vector4 ← assemble (Assemble.typeVector float 4)
  let matrix ← assemble (Assemble.typeMatrix vector4 4)
  let block ← assemble (Assemble.typeStruct [matrix, matrix, vector3, float])
  assemble do
    Assemble.name block "Globals"
    Assemble.decorate block Decoration.block []
    GlobalMember.all.forM fun m => do
      let i := m.index.toUInt32
      Assemble.memberName block i m.name
      Assemble.memberDecorate block i Decoration.offset [m.offset]
      if m.isMatrix then
        Assemble.memberDecorate block i Decoration.colMajor []
        Assemble.memberDecorate block i Decoration.matrixStride [16]
  let globals ← assemble do
    let pointer ← Assemble.typePointer StorageClass.uniform block
    let v ← Assemble.globalVariable pointer StorageClass.uniform
    Assemble.name v "globals"
    Assemble.decorate v Decoration.descriptorSet [0]
    Assemble.decorate v Decoration.binding [0]
    return v
  modify fun d => { d with
    globals
    resources := d.resources ++
      [{ name := "globals", kind := .uniformBuffer, variable_ := globals, format := "std140" }]
    nextSlot := 1 }

/-- Loads one of the global values. -/
def loadGlobal (m : GlobalMember) : Drafting UInt32 := do
  let globals := (← get).globals
  assemble do
    let float ← Assemble.typeFloat 32
    let type ← match m with
      | .viewProjection | .model => do Assemble.typeMatrix (← Assemble.typeVector float 4) 4
      | .extent => Assemble.typeVector float 3
      | .time => pure float
    let pointer ← Assemble.typePointer StorageClass.uniform type
    let index ← Assemble.constant (← Assemble.typeInt 32 true) [m.index.toUInt32]
    let place ← Assemble.op .accessChain pointer [globals, index]
    Assemble.op .load type [place]

/-- Where a stage variable is found. -/
inductive Place where
  | location (n : Nat)
  | builtIn (code : UInt32) (name : String)

/-- Declares a stage input or output. -/
def stageVariable (kind : ResourceClass) (name : String) (type : ValueType) (typeId : UInt32)
    (format : String) (place : Place) : Drafting UInt32 := do
  let storage := if kind = .stageOutput then StorageClass.output else StorageClass.input
  let v ← assemble do
    let pointer ← Assemble.typePointer storage typeId
    let v ← Assemble.globalVariable pointer storage
    Assemble.name v name
    match place with
    | .location n => Assemble.decorate v Decoration.location [n.toUInt32]
    | .builtIn code _ => Assemble.decorate v Decoration.builtIn [code]
    return v
  let resource : Resource :=
    match place with
    | .location n => { name, kind, variable_ := v, type, format, location := n }
    | .builtIn _ builtIn => { name, kind, variable_ := v, type, format, builtIn }
  modify fun d => { d with
    interface := d.interface ++ [v]
    resources := d.resources ++ [resource] }
  return v

/-- Declares a stage input or output of a value type. -/
def valueVariable (kind : ResourceClass) (name : String) (type : ValueType) (place : Place) :
    Drafting UInt32 := do
  stageVariable kind name type (← typeOf type) type.name place

/-- Declares an image or sampler of a node at the next slot. -/
def boundVariable (typeId : UInt32) (node : Nat) (r : Resource) : Drafting UInt32 := do
  let slot := (← get).nextSlot
  let v ← assemble do
    let pointer ← Assemble.typePointer StorageClass.uniformConstant typeId
    let v ← Assemble.globalVariable pointer StorageClass.uniformConstant
    Assemble.name v r.name
    Assemble.decorate v Decoration.descriptorSet [0]
    Assemble.decorate v Decoration.binding [slot.toUInt32]
    return v
  modify fun d => { d with
    nextSlot := slot + 1
    resources := d.resources ++ [{ r with variable_ := v, node := some node, slot }]
    origins := (v, node) :: d.origins }
  return v

/-! ### The frame of a body -/

/-- The header of a module and its global values. -/
def begin : Drafting Unit := do
  let (extended, main) ← assemble do
    Assemble.capability Capability.shader
    let extended ← Assemble.importSet extendedSet
    Assemble.memoryModel addressingLogical memoryModelShader
    let main ← Assemble.allocId
    Assemble.name main "main"
    return (extended, main)
  modify fun d => { d with extended, main }
  declareGlobals

/-- Opens the entry point and its first block. -/
def beginMain : Drafting Unit := do
  let main := (← get).main
  let label ← assemble do
    let void ← Assemble.typeVoid
    Assemble.function main void (← Assemble.typeFunction void [])
    let label ← Assemble.allocId
    Assemble.label label
    return label
  modify fun d => { d with label }

/-- Returns from the entry point and declares it. -/
def endMain : Drafting Unit := do
  let d ← get
  assemble do
    Assemble.void .returnVoid []
    Assemble.functionEnd
    Assemble.entryPoint d.model.code d.main "main" d.interface

end Drafting

/-- A draft with nothing in it. -/
def Draft.new (model : ExecutionModel) : Draft := { builder := .new .current, model }

/-- The finished body. -/
def Draft.body (d : Draft) : Body where
  model := d.model
  words := d.builder.words
  resources := d.resources
  origins := d.origins

end NodeShader
