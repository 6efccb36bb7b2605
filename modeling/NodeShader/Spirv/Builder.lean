import NodeShader.Number.FloatFormat
import NodeShader.Spirv.Module
import NodeShader.Spirv.Vocabulary

/-!
# Building modules

A builder hands out identifiers and collects instructions, each for one section of the module.
Types and constants are declared once: asking again for the same one gives the same identifier. The
sections stand in the layout order of the language, and each keeps the order in which its
instructions were added. Identifiers are counted from 1 on and written as words, so they are told
apart as long as fewer than `2 ^ 32` are handed out.
-/

namespace NodeShader.Spirv

/-- The parts of a module. -/
inductive Section where
  | capabilities | extensions | imports | memoryModel | entryPoints | executionModes
  | debug | annotations | types | functions
  deriving DecidableEq, Repr

/-- The sections in layout order. -/
def Section.layout : List Section :=
  [.capabilities, .extensions, .imports, .memoryModel, .entryPoints, .executionModes,
    .debug, .annotations, .types, .functions]

/-- A module under construction; `nextId` is one more than the number of identifiers handed out. -/
structure ModuleBuilder where
  version : Version
  nextId : Nat
  entries : Array (Section × Instruction)
  declared : List ((Opcode × List UInt32) × UInt32)
  imported : List (String × UInt32)

/-- A step that changes a module under construction. -/
abbrev Assemble := StateM ModuleBuilder

namespace ModuleBuilder

def new (version : Version) : ModuleBuilder := ⟨version, 1, #[], [], []⟩

/-- The instructions of one section. -/
def sectionOf (b : ModuleBuilder) (s : Section) : List Instruction :=
  (b.entries.toList.filter (·.1 == s)).map (·.2)

/-- All instructions in layout order. -/
def instructions (b : ModuleBuilder) : List Instruction := Section.layout.flatMap b.sectionOf

/-- The words of the module. -/
def words (b : ModuleBuilder) : List UInt32 :=
  [magic, b.version.word, generatorWord, b.nextId.toUInt32, 0] ++ b.instructions.flatMap Instruction.encode

end ModuleBuilder

namespace Assemble

/-- A new identifier. -/
def allocId : Assemble UInt32 :=
  modifyGet fun b => (b.nextId.toUInt32, { b with nextId := b.nextId + 1 })

/-- All identifiers in use are below this one. -/
def bound : Assemble UInt32 := return (← get).nextId.toUInt32

/-- Adds an instruction to a section. -/
def add (s : Section) (op : Opcode) (operands : List UInt32) : Assemble Unit :=
  modify fun b => { b with entries := b.entries.push (s, ⟨op, operands⟩) }

/-- The identifier of a type or constant, declared unless it is. The identifier stands after the
first `before` operands. -/
def declare (op : Opcode) (before : Nat) (operands : List UInt32) : Assemble UInt32 := do
  match (← get).declared.lookup (op, operands) with
  | some id => return id
  | none =>
    let id ← allocId
    add .types op (operands.take before ++ id :: operands.drop before)
    modify fun b => { b with declared := ((op, operands), id) :: b.declared }
    return id

/-- Declares a capability, once. -/
def capability (c : UInt32) : Assemble Unit := do
  unless ((← get).sectionOf .capabilities).any (·.operands.head? == some c) do
    add .capabilities .capability [c]

def extension (name : String) : Assemble Unit :=
  add .extensions .extension (nameWords (Text.bytes name))

/-- Imports an extended instruction set, once. -/
def importSet (name : String) : Assemble UInt32 := do
  match (← get).imported.lookup name with
  | some id => return id
  | none =>
    let id ← allocId
    add .imports .extInstImport (id :: nameWords (Text.bytes name))
    modify fun b => { b with imported := (name, id) :: b.imported }
    return id

/-- Sets the one memory model of the module. -/
def memoryModel (addressing model : UInt32) : Assemble Unit := do
  modify fun b => { b with entries := b.entries.filter (·.1 != .memoryModel) }
  add .memoryModel .memoryModel [addressing, model]

/-- Declares an entry point and the variables of its interface. -/
def entryPoint (model function : UInt32) (name : String) (interface : List UInt32) :
    Assemble Unit :=
  add .entryPoints .entryPoint (model :: function :: nameWords (Text.bytes name) ++ interface)

def executionMode (function mode : UInt32) (params : List UInt32) : Assemble Unit :=
  add .executionModes .executionMode (function :: mode :: params)

/-- Gives an identifier a name. -/
def name (id : UInt32) (name : String) : Assemble Unit :=
  add .debug .debugName (id :: nameWords (Text.bytes name))

/-- Gives a struct member a name. -/
def memberName (struct member : UInt32) (name : String) : Assemble Unit :=
  add .debug .memberName (struct :: member :: nameWords (Text.bytes name))

def decorate (id decoration : UInt32) (params : List UInt32) : Assemble Unit :=
  add .annotations .decorate (id :: decoration :: params)

def memberDecorate (struct member decoration : UInt32) (params : List UInt32) : Assemble Unit :=
  add .annotations .memberDecorate (struct :: member :: decoration :: params)

/-! ### Types and constants -/

def typeVoid : Assemble UInt32 := declare .typeVoid 0 []

def typeBool : Assemble UInt32 := declare .typeBool 0 []

def typeInt (width : UInt32) (signed : Bool) : Assemble UInt32 :=
  declare .typeInt 0 [width, if signed then 1 else 0]

def typeFloat (width : UInt32) : Assemble UInt32 := declare .typeFloat 0 [width]

def typeVector (component count : UInt32) : Assemble UInt32 :=
  declare .typeVector 0 [component, count]

def typeMatrix (column columns : UInt32) : Assemble UInt32 :=
  declare .typeMatrix 0 [column, columns]

/-- An image type, `sampled` being 1 for use with a sampler and 2 for storage. -/
def typeImage (sampledType dim sampled format : UInt32) : Assemble UInt32 :=
  declare .typeImage 0 [sampledType, dim, 0, 0, 0, sampled, format]

def typeSampler : Assemble UInt32 := declare .typeSampler 0 []

def typeSampledImage (image : UInt32) : Assemble UInt32 := declare .typeSampledImage 0 [image]

/-- A new struct type; each is decorated on its own, so none is shared. -/
def typeStruct (members : List UInt32) : Assemble UInt32 := do
  let id ← allocId
  add .types .typeStruct (id :: members)
  return id

def typePointer (storage pointee : UInt32) : Assemble UInt32 :=
  declare .typePointer 0 [storage, pointee]

def typeFunction (result : UInt32) (params : List UInt32) : Assemble UInt32 :=
  declare .typeFunction 0 (result :: params)

/-- A scalar constant of the given literal words. -/
def constant (type : UInt32) (literal : List UInt32) : Assemble UInt32 :=
  declare .constant 1 (type :: literal)

/-- A constant in single precision. -/
def constantSingle (type : UInt32) (value : Float) : Assemble UInt32 :=
  constant type [singleBits value]

/-- A constant in half precision, rounded by way of single precision. -/
def constantHalf (type : UInt32) (value : Float) : Assemble UInt32 :=
  constant type [halfBits (floatOfSingle (singleBits value))]

def constantBool (type : UInt32) (value : Bool) : Assemble UInt32 :=
  declare (if value then .constantTrue else .constantFalse) 1 [type]

def constantComposite (type : UInt32) (parts : List UInt32) : Assemble UInt32 :=
  declare .constantComposite 1 (type :: parts)

def constantNull (type : UInt32) : Assemble UInt32 := declare .constantNull 1 [type]

/-- A variable of module scope. -/
def globalVariable (pointer storage : UInt32) : Assemble UInt32 := do
  let id ← allocId
  add .types .variableDecl [pointer, id, storage]
  return id

/-! ### Function bodies -/

def function (id result type : UInt32) : Assemble Unit :=
  add .functions .function [result, id, 0, type]

def functionEnd : Assemble Unit := add .functions .functionEnd []

def label (id : UInt32) : Assemble Unit := add .functions .label [id]

/-- An instruction with a result identifier given beforehand. -/
def opWithId (op : Opcode) (type id : UInt32) (args : List UInt32) : Assemble Unit :=
  add .functions op (type :: id :: args)

/-- An instruction with a new result identifier. -/
def op (op : Opcode) (type : UInt32) (args : List UInt32) : Assemble UInt32 := do
  let id ← allocId
  opWithId op type id args
  return id

/-- An instruction without a result. -/
def void (op : Opcode) (args : List UInt32) : Assemble Unit := add .functions op args

/-- A function of an extended instruction set. -/
def extended (type set instruction : UInt32) (args : List UInt32) : Assemble UInt32 :=
  op .extInst type (set :: instruction :: args)

end Assemble

end NodeShader.Spirv
