import NodeShader.Metal.Binding

/-!
# Metal source

Writes the entry point of a module as text: the structs of buffers and of stage inputs and outputs,
then the function. Every value is a local of its own; a selection becomes an `if` with both arms, and
the variables of the phis of its merge block are assigned at the end of each arm. A block is written
at most once, so a walk that comes back to a block is refused and the walk ends.
-/

namespace NodeShader.Metal

open Spirv

/-- The operators of two operands. -/
def binaryOperators : List (Opcode × String) :=
  [(.fAdd, "+"), (.iAdd, "+"), (.fSub, "-"), (.iSub, "-"), (.fMul, "*"), (.iMul, "*"),
    (.vectorTimesScalar, "*"), (.matrixTimesVector, "*"), (.matrixTimesMatrix, "*"),
    (.fDiv, "/"), (.sDiv, "/"), (.fOrdEqual, "=="), (.iEqual, "=="), (.fOrdNotEqual, "!="),
    (.iNotEqual, "!="), (.fOrdLessThan, "<"), (.sLessThan, "<"), (.fOrdLessThanEqual, "<="),
    (.sLessThanEqual, "<="), (.fOrdGreaterThan, ">"), (.sGreaterThan, ">"),
    (.fOrdGreaterThanEqual, ">="), (.sGreaterThanEqual, ">=")]

/-- The functions of the extended instruction set. -/
def extendedFunctions : List (UInt32 × String) :=
  [(Extended.fAbs, "abs"), (Extended.sAbs, "abs"), (Extended.floor, "floor"),
    (Extended.fract, "fract"), (Extended.sin, "sin"), (Extended.cos, "cos"), (Extended.pow, "pow"),
    (Extended.sqrt, "sqrt"), (Extended.fMin, "fmin"), (Extended.sMin, "min"),
    (Extended.fMax, "fmax"), (Extended.sMax, "max"), (Extended.fMix, "mix"),
    (Extended.length, "length"), (Extended.normalize, "normalize")]

/-- What replaces the functions of vectors on a scalar. -/
def scalarFunctions : List (UInt32 × String) :=
  [(Extended.length, "abs"), (Extended.normalize, "sign")]

/-- The letter of a component. -/
def componentLetter (i : UInt32) : Result Char :=
  match ['x', 'y', 'z', 'w'][i.toNat]? with
  | some c => .ok c
  | none => missing

/-- What is known while the source is written. Lists of pairs hold the last entry first. -/
structure Emission where
  names : Names
  lines : Array String := #[]
  indent : Nat := 0
  exprs : List (UInt32 × String) := []
  valueTypes : List (UInt32 × UInt32) := []
  pointees : List (UInt32 × UInt32) := []
  packed : List (UInt32 × Bool) := []
  sampled : List (UInt32 × String × String) := []
  visited : List UInt32 := []
  hasInputs : Bool := false
  hasOutputs : Bool := false

/-- A step of writing the source. -/
abbrev Emit := StateT Emission Result

namespace Emit

/-- Writes a line at the current depth. -/
def line (s : String) : Emit Unit :=
  modify fun e => { e with
    lines := e.lines.push (if s = "" then "" else "".pushn ' ' (4 * e.indent) ++ s) }

/-- Runs a step that may name identifiers. -/
def naming {α : Type} (step : Naming α) : Emit α := do
  let (a, names) ← step.run (← get).names
  modify fun e => { e with names }
  return a

/-- Writes lines one level deeper, between braces. -/
def braces (body : Emit Unit) : Emit Unit := do
  line "\x7b"
  modify fun e => { e with indent := e.indent + 1 }
  body
  modify fun e => { e with indent := e.indent - 1 }
  line "\x7d"

/-- Gives an identifier its expression. -/
def setExpr (id : UInt32) (expr : String) : Emit Unit :=
  modify fun e => { e with exprs := (id, expr) :: e.exprs }

/-- The expression of an identifier. -/
def value (t : Tables) (id : UInt32) : Emit String := do
  match (← get).exprs.lookup id with
  | some expr => return expr
  | none =>
    if (t.constants.lookup id).isSome then naming (literal t id)
    else fail id "use of undefined id"

/-- The type of a value. -/
def valueType (t : Tables) (id : UInt32) : Emit UInt32 := do
  match (← get).valueTypes.lookup id with
  | some type => return type
  | none =>
    match t.constants.lookup id with
    | some c => return c.type
    | none => fail id "type of id is unknown"

/-- Declares a local for the result of an instruction. -/
def declare (t : Tables) (i : Instruction) (expr : String) : Emit Unit := do
  let id := i.result
  let type ← naming (typeName t i.resultType)
  line s!"{type} _{id} = {expr};"
  setExpr id s!"_{id}"
  modify fun e => { e with valueTypes := (id, i.resultType) :: e.valueTypes }

/-- The expressions of a list of identifiers, with commas. -/
def values (t : Tables) (ids : List UInt32) : Emit String := do
  return ", ".intercalate (← ids.mapM (value t))

/-- The expression of part `indices` of a composite value. -/
def extract (t : Tables) (id : UInt32) (expr : String) (type : UInt32) :
    List UInt32 → Emit String
  | [] => return expr
  | index :: rest => do
    match ← t.typeOf type with
    | .vector element _ =>
      extract t id (expr ++ "." ++ (← componentLetter index).toString) element rest
    | .matrix element _ => extract t id s!"{expr}[{index}]" element rest
    | .struct members =>
      let name := memberName t type index.toNat
      extract t id s!"{expr}.{name}" (← operand members index.toNat) rest
    | _ => fail id "composite extract from a non composite"

/-- The end of an access chain: its expression, the type it points to, and whether that is packed. -/
structure Place where
  expr : String
  type : UInt32
  packed : Bool

/-- Follows the indices of an access chain. -/
def follow (t : Tables) (id : UInt32) (place : Place) : List UInt32 → Emit Place
  | [] => return place
  | index :: rest => do
    let info ← t.typeOf place.type
    match info with
    | .struct members =>
      let member := (← t.constantValue index).toNat
      match members[member]? with
      | none => fail id s!"struct member {member} out of range"
      | some type =>
        let name := memberName t place.type member
        let packed ← isPacked t place.type member
        follow t id ⟨s!"{place.expr}.{name}", type, packed⟩ rest
    | .vector element _ | .matrix element _ =>
      let index ← value t index
      follow t id ⟨s!"{place.expr}[{index}]", element, false⟩ rest
    | _ => fail id "access chain into a non composite"

def accessChain (t : Tables) (i : Instruction) : Emit Unit := do
  let base ← operand i.args 0
  let expr ← value t base
  match (← get).pointees.lookup base with
  | none => fail i.result "access chain base is not a pointer"
  | some type =>
    let place ← follow t i.result ⟨expr, type, false⟩ (i.args.drop 1)
    setExpr i.result place.expr
    modify fun e => { e with
      pointees := (i.result, place.type) :: e.pointees
      packed := (i.result, place.packed) :: e.packed }

/-- A shuffle of two vectors: a swizzle if one is enough, else built by components. -/
def shuffle (t : Tables) (i : Instruction) : Emit String := do
  let v1 ← operand i.args 0
  let v2 ← operand i.args 1
  let size := (← t.typeOf (← valueType t v1)).count
  let components := i.args.drop 2
  if v1 = v2 ∨ components.all (· < size) then
    let letters ← components.mapM fun c =>
      if size = 0 then missing else componentLetter (c % size)
    return (← value t v1) ++ "." ++ String.ofList letters
  else
    let parts ← components.mapM fun c => do
      if c = 0xFFFFFFFF then return "0"
      else if c < size then return (← value t v1) ++ "." ++ (← componentLetter c).toString
      else return (← value t v2) ++ "." ++ (← componentLetter (c - size)).toString
    return (← naming (typeName t i.resultType)) ++ "(" ++ ", ".intercalate parts ++ ")"

/-- A load: opaque objects stand for their variable, packed vectors are unpacked. -/
def load (t : Tables) (i : Instruction) : Emit Unit := do
  let info ← t.typeOf i.resultType
  let source ← operand i.args 0
  let expr ← value t source
  if info.isOpaque then setExpr i.result expr
  else
    let packed := ((← get).packed.lookup source).getD false
    declare t i (if packed then "float3(" ++ expr ++ ")" else expr)

/-- A function of the extended instruction set. -/
def extended (t : Tables) (i : Instruction) : Emit Unit := do
  let id := i.result
  if !t.imports.contains (← operand i.args 0) then fail id "unknown extended instruction set"
  let code ← operand i.args 1
  match extendedFunctions.lookup code with
  | none => fail id s!"unsupported GLSL.std.450 instruction {code}"
  | some fn =>
    let fn ←
      match scalarFunctions.lookup code with
      | some scalar =>
        let type ← valueType t (← operand i.args 2)
        pure (if (← t.typeOf type).isScalar then scalar else fn)
      | none => pure fn
    declare t i (fn ++ "(" ++ (← values t (i.args.drop 2)) ++ ")")

/-- A sample of an image, with a level of detail if it is given. -/
def sample (t : Tables) (i : Instruction) : Emit Unit := do
  let id := i.result
  match (← get).sampled.lookup (← operand i.args 0) with
  | none => fail id "sampling from an unknown sampled image"
  | some (image, sampler) =>
    let position ← value t (← operand i.args 1)
    let level ←
      if i.opcode = .imageSampleExplicitLod then
        match i.args with
        | _ :: _ :: mask :: lod :: _ =>
          if mask &&& imageOperandsLod = 0 then
            fail id "explicit lod sampling without a lod operand"
          pure (", level(" ++ (← value t lod) ++ ")")
        | _ => fail id "explicit lod sampling without a lod operand"
      else pure ""
    declare t i (s!"{image}.sample({sampler}, {position}" ++ level ++ ")")

/-- Writes one instruction that does not end a block. -/
def instruction (t : Tables) (i : Instruction) : Emit Unit := do
  let id := i.result
  let arg (n : Nat) : Emit UInt32 := operand i.args n
  let argValue (n : Nat) : Emit String := do value t (← arg n)
  match binaryOperators.lookup i.opcode with
  | some op => declare t i ((← argValue 0) ++ " " ++ op ++ " " ++ (← argValue 1))
  | none =>
    if i.opcode = .load then load t i
    else if i.opcode = .store then
      line ((← argValue 0) ++ " = " ++ (← argValue 1) ++ ";")
    else if i.opcode = .accessChain then accessChain t i
    else if i.opcode = .fNegate ∨ i.opcode = .sNegate then declare t i ("-" ++ (← argValue 0))
    else if [Opcode.convertUToF, .convertSToF, .fConvert, .compositeConstruct].contains i.opcode then
      let type ← naming (typeName t i.resultType)
      declare t i (type ++ "(" ++ (← values t i.args) ++ ")")
    else if i.opcode = .compositeExtract then
      let expr ← argValue 0
      let type ← valueType t (← arg 0)
      declare t i (← extract t id expr type (i.args.drop 1))
    else if i.opcode = .vectorShuffle then declare t i (← shuffle t i)
    else if i.opcode = .dot then
      declare t i ("dot(" ++ (← argValue 0) ++ ", " ++ (← argValue 1) ++ ")")
    else if i.opcode = .select then
      declare t i ((← argValue 0) ++ " ? " ++ (← argValue 1) ++ " : " ++ (← argValue 2))
    else if i.opcode = .extInst then extended t i
    else if i.opcode = .sampledImage then
      let image ← argValue 0
      let sampler ← argValue 1
      modify fun e => { e with sampled := (id, image, sampler) :: e.sampled }
    else if i.opcode = .imageSampleImplicitLod ∨ i.opcode = .imageSampleExplicitLod then sample t i
    else if i.opcode = .imageWrite then
      let image ← argValue 0
      let texel ← argValue 2
      line (image ++ ".write(" ++ texel ++ ", " ++ (← argValue 1) ++ ");")
    else fail id s!"unsupported instruction {i.opcode.name}"

/-- The values of a phi with the blocks they come from. -/
def phiPairs : List UInt32 → List (UInt32 × UInt32)
  | value :: parent :: rest => (value, parent) :: phiPairs rest
  | _ => []

/-- Assigns the phis of block `target` with the values that come from block `source`. -/
def assignPhis (t : Tables) (source target : UInt32) : Emit Unit := do
  match t.block? target with
  | none => return
  | some b =>
    b.phis.forM fun phi =>
      (phiPairs phi.args).forM fun (id, parent) => do
        if parent = source then
          let name := ((← get).exprs.lookup phi.result).getD ""
          line (name ++ " = " ++ (← value t id) ++ ";")

/-- Refuses a walk from block `label`: the block is not there, or was written before. -/
def refuse {α : Type} (t : Tables) (label : UInt32) : Emit α :=
  if (t.block? label).isNone then fail label "branch to undefined block"
  else fail label "unstructured control flow: block reached twice"

/-- Writes the blocks from `label` on, up to block `stop`, in at most `budget` rounds. -/
def blocksFrom (t : Tables) : Nat → UInt32 → UInt32 → Emit Unit
  | budget, label, stop => do
    if label = stop then return
    match budget, t.block? label with
    | 0, _ => t.cutOff
    | _, none => refuse t label
    | budget + 1, some b =>
      if (← get).visited.contains label then refuse t label
      modify fun e => { e with visited := label :: e.visited }
      b.instructions.forM (instruction t)
      let ops := b.terminator.operands
      if b.terminator.opcode = .returnVoid then
        line (if (← get).hasOutputs then "return out;" else "return;")
      else if b.terminator.opcode = .branch then
        let target ← operand ops 0
        assignPhis t label target
        blocksFrom t budget target stop
      else if b.terminator.opcode = .branchConditional then
        if b.merge = 0 then fail label "conditional branch without a selection merge"
        let arm (target : UInt32) : Emit Unit :=
          braces (if target = b.merge then assignPhis t label b.merge
            else blocksFrom t budget target b.merge)
        line ("if (" ++ (← value t (← operand ops 0)) ++ ")")
        arm (← operand ops 1)
        line "else"
        arm (← operand ops 2)
        blocksFrom t budget b.merge stop
      else fail label s!"unsupported block terminator {b.terminator.opcode.name}"

/-! ### Declarations -/

/-- A struct declaration followed by an empty line. -/
def structDecl (name : String) (members : List String) : Emit Unit := do
  line ("struct " ++ name)
  line "\x7b"
  members.forM fun m => line ("    " ++ m)
  line "\x7d;"
  line ""

/-- The number of the built-in that is a parameter of its own. -/
def gridPosition : String := "thread_position_in_grid"

/-- The mark of a stage input or output. -/
def markOf (b : Binding) (model : ExecutionModel) : String :=
  if b.builtIn ≠ "" then b.builtIn
  else if b.kind = .stageInput ∧ model = .vertex then s!"attribute({b.index})"
  else if b.kind = .stageOutput ∧ model = .fragment then s!"color({b.index})"
  else s!"user(locn{b.index})"

/-- Declares the stage inputs and outputs and gives their expressions. -/
def stageStructs (model : ExecutionModel) (bindings : List Binding) : Emit Unit := do
  let outputs := ofClass bindings .stageOutput
  let inputs := (ofClass bindings .stageInput).filter (·.builtIn != gridPosition)
  let declaration (b : Binding) := s!"{b.format} {b.name} [[{markOf b model}]];"
  outputs.forM fun b => setExpr b.variable_ ("out." ++ b.name)
  (ofClass bindings .stageInput).forM fun b =>
    setExpr b.variable_ (if b.builtIn = gridPosition then b.name else "in." ++ b.name)
  if !outputs.isEmpty then structDecl "main0_out" (outputs.map declaration)
  if !inputs.isEmpty then structDecl "main0_in" (inputs.map declaration)
  modify fun e => { e with hasInputs := !inputs.isEmpty, hasOutputs := !outputs.isEmpty }

/-- The parameters of the entry point. -/
def parameters (t : Tables) (bindings : List Binding) : Emit (List String) := do
  let stageIn := if (← get).hasInputs then ["main0_in in [[stage_in]]"] else []
  let buffers ← (ofClass bindings .uniformBuffer).mapM fun b => do
    setExpr b.variable_ b.name
    return s!"constant {b.format}& {b.name} [[buffer({b.index})]]"
  let images ← (textures bindings).mapM fun b => do
    let type ← naming (typeName t (((← get).pointees.lookup b.variable_).getD 0))
    setExpr b.variable_ b.name
    return s!"{type} {b.name} [[texture({b.index})]]"
  let samplers ← (ofClass bindings .sampler).mapM fun b => do
    setExpr b.variable_ b.name
    return s!"sampler {b.name} [[sampler({b.index})]]"
  let grid := ((ofClass bindings .stageInput).filter (·.builtIn == gridPosition)).map fun b =>
    s!"{b.format} {b.name} [[{b.builtIn}]]"
  return stageIn ++ buffers ++ images ++ samplers ++ grid

/-- The keyword of the entry point. -/
def qualifier? : ExecutionModel → Option String
  | .vertex => some "vertex"
  | .fragment => some "fragment"
  | .compute => some "kernel"
  | .other _ => none

/-- Declares the variable of a phi. -/
def declarePhi (t : Tables) (phi : Instruction) : Emit Unit := do
  let id := phi.result
  let type ← naming (typeName t phi.resultType)
  line s!"{type} _{id};"
  setExpr id s!"_{id}"
  modify fun e => { e with valueTypes := (id, phi.resultType) :: e.valueTypes }

/-- The phis of the blocks in order; a label that stands twice brings the phis of its last block
both times. -/
def phis (t : Tables) : List Instruction :=
  t.blocks.flatMap fun b => ((t.block? b.label).map (·.phis)).getD []

/-- Writes the entry point. -/
def entryPoint (t : Tables) (model : ExecutionModel) (entry : UInt32) (bindings : List Binding) :
    Emit Unit := do
  let params ← parameters t bindings
  match qualifier? model with
  | none => fail entry s!"unsupported execution model {model.name}"
  | some qualifier =>
    let hasOutputs := (← get).hasOutputs
    let result := if hasOutputs then "main0_out" else "void"
    line (qualifier ++ " " ++ result ++ " main0(" ++ ", ".intercalate params ++ ")")
    braces do
      if hasOutputs then line "main0_out out = \x7b\x7d;"
      (phis t).forM (declarePhi t)
      blocksFrom t (t.rounds t.blocks.length) t.first 0

/-- Writes the whole source. -/
def source (t : Tables) (model : ExecutionModel) (entry : UInt32) (bindings : List Binding) :
    Emit Unit := do
  t.globals.forM fun v => do
    let element := (← t.typeOf v.pointer).element
    modify fun e => { e with pointees := (v.id, element) :: e.pointees }
  ["#include <metal_stdlib>", "#include <simd/simd.h>", "", "using namespace metal;", ""].forM line
  (ofClass bindings .uniformBuffer).forM fun b =>
    structDecl b.format (b.members.map fun m => s!"{m.type} {m.name};")
  stageStructs model bindings
  entryPoint t model entry bindings

end Emit

/-- A module written in Metal. -/
structure Program where
  model : ExecutionModel
  source : String
  bindings : List Binding
  localSize : List UInt32

namespace Program

/-- The binding of a variable. -/
def binding? (r : Program) (id : UInt32) : Option Binding :=
  r.bindings.find? (·.variable_ == id)

/-- Writes a module by its tables. -/
def ofTables (t : Tables) : Result Program := do
  let (bindings, names) ← (reflect t).run {}
  let (model, entry) := t.entry.getD (.vertex, 0)
  let (_, e) ← (Emit.source t model entry bindings).run { names }
  return { model, source := String.join (e.lines.toList.map (· ++ "\n")), bindings,
           localSize := t.localSize }

/-- Writes a parsed module, followed as far as the limit says. -/
def ofModuleWithin (limit : Limit) (m : Module) : Result Program := do
  ofTables { ← Tables.load m with limit }

/-- Writes a parsed module. -/
def ofModule (m : Module) : Result Program := ofModuleWithin {} m

/-- Writes a module given by its words, followed as far as the limit says. -/
def ofWordsWithin (limit : Limit) (words : List UInt32) : Result Program :=
  match Module.parse words with
  | .error e => .error ⟨0, .malformed e⟩
  | .ok m => ofModuleWithin limit m

/-- Writes a module given by its words. -/
def ofWords (words : List UInt32) : Result Program := ofWordsWithin {} words

end Program

end NodeShader.Metal
