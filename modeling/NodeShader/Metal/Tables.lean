import NodeShader.Spirv.Module
import NodeShader.Spirv.Vocabulary
import NodeShader.Text.Quoted

/-!
# Modules as Metal programs see them

What a writer of programs needs to know of a module, and how it fails.
-/

/-!
## Errors of Metal programs

Writing a program fails at an identifier of the module, or at 0 where the failure belongs to none.
-/

namespace NodeShader.Metal

/-- Why a module has no Metal program. -/
inductive Cause where
  | malformed (e : Spirv.ParseError)
  | missingOperand
  | rejected (reason : String)
  deriving DecidableEq

def Cause.message : Cause → String
  | malformed e => e.message
  | missingOperand => "runtime error"
  | rejected reason => reason

structure Error where
  id : UInt32
  cause : Cause
  deriving DecidableEq

/-- The text of an error at an identifier. -/
def errorText (id : UInt32) (reason : String) : String :=
  if id = 0 then s!"msl: {reason}" else s!"msl: %{id}: {reason}"

def Error.message (e : Error) : String := errorText e.id e.cause.message

end NodeShader.Metal

/-!
## Tables of a module

What a writer needs to know of a module: names, decorations, types, constants, variables, the
entry point, and the body of its function split into blocks. Where an identifier is declared more
than once the last declaration holds.
-/

namespace NodeShader.Metal

open Spirv

/-- A step of reading or writing. -/
abbrev Result := Except Error

/-- Fails at an identifier. -/
def fail {α : Type} (id : UInt32) (reason : String) : Result α := .error ⟨id, .rejected reason⟩

/-- Fails for an operand that is not there. -/
def missing {α : Type} : Result α := .error ⟨0, .missingOperand⟩

/-- Operand number `i`. -/
def operand (ops : List UInt32) (i : Nat) : Result UInt32 :=
  match ops[i]? with
  | some w => .ok w
  | none => missing

/-- The operands from number `i` on; there are at least `i`. -/
def operandsFrom (ops : List UInt32) (i : Nat) : Result (List UInt32) :=
  if i ≤ ops.length then .ok (ops.drop i) else missing

/-- A declared type. Elements are components, columns, pointees or sampled types. -/
inductive TypeInfo where
  | void
  | bool
  | int (width : UInt32) (signed : Bool)
  | float (width : UInt32)
  | vector (element count : UInt32)
  | matrix (element count : UInt32)
  | image (element dim sampled format : UInt32)
  | sampler
  | sampledImage (element : UInt32)
  | struct (members : List UInt32)
  | pointer (storage element : UInt32)
  | function (element : UInt32)
  deriving DecidableEq, Repr

namespace TypeInfo

def element : TypeInfo → UInt32
  | vector e _ | matrix e _ | image e .. | sampledImage e | pointer _ e | function e => e
  | _ => 0

def count : TypeInfo → UInt32
  | vector _ n | matrix _ n => n
  | _ => 0

def members : TypeInfo → List UInt32
  | struct ms => ms
  | _ => []

/-- A value of one number or truth value. -/
def isScalar : TypeInfo → Bool
  | float _ | int .. | bool => true
  | _ => false

/-- An image, a sampler or both: loads of these stand for the variable. -/
def isOpaque : TypeInfo → Bool
  | image .. | sampler | sampledImage _ => true
  | _ => false

end TypeInfo

/-- A declared constant: its opcode, type, and literal words or parts. -/
structure ConstantInfo where
  opcode : Opcode
  type : UInt32
  operands : List UInt32

structure Variable where
  id : UInt32
  pointer : UInt32
  storage : UInt32

/-- A basic block: the merge block of a selection (0 for none), its phis, its other instructions, and
the instruction that ends it (`OpNop` for none). -/
structure Block where
  label : UInt32
  merge : UInt32
  phis : List Instruction
  instructions : List Instruction
  terminator : Instruction

/-- How far a module is followed from type to type, from constant to constant and from block to block: so
many rounds more than it has declarations or blocks, and then it is cut off. What is followed further than
any number of rounds is followed without end, and no run ever makes all the rounds there are by default. -/
structure Limit where
  rounds : Nat := 1 <<< 62
  cutOff : Error := ⟨0, .rejected "the module is followed without end"⟩

/-- The tables of a module. Lists of pairs hold the last declaration first. -/
structure Tables where
  names : List (UInt32 × List UInt8) := []
  memberNames : List ((UInt32 × UInt32) × List UInt8) := []
  decorations : List ((UInt32 × UInt32) × List UInt32) := []
  memberDecorations : List ((UInt32 × UInt32 × UInt32) × List UInt32) := []
  types : List (UInt32 × TypeInfo) := []
  constants : List (UInt32 × ConstantInfo) := []
  globals : List Variable := []
  imports : List UInt32 := []
  entry : Option (ExecutionModel × UInt32) := none
  localSize : List UInt32 := [0, 0, 0]
  function : UInt32 := 0
  blocks : List Block := []
  limit : Limit := {}

namespace Tables

/-- How many rounds are made through a number of declarations or blocks: more than there are. -/
def rounds (t : Tables) (declarations : Nat) : Nat := t.limit.rounds + (declarations + 2)

/-- Cuts off what is followed too far. -/
def cutOff {α : Type} (t : Tables) : Result α := .error t.limit.cutOff

def typeOf (t : Tables) (id : UInt32) : Result TypeInfo :=
  match t.types.lookup id with
  | some info => .ok info
  | none => fail id "undefined type"

/-- The parameters of a decoration. -/
def decoration? (t : Tables) (id decoration : UInt32) : Option (List UInt32) :=
  t.decorations.lookup (id, decoration)

/-- The block of a label, the last of several. -/
def block? (t : Tables) (label : UInt32) : Option Block :=
  t.blocks.reverse.find? (·.label == label)

/-- The label of the first block. -/
def first (t : Tables) : UInt32 := ((t.blocks.map (·.label)).find? (· != 0)).getD 0

/-- The value of a one-word constant. -/
def constantValue (t : Tables) (id : UInt32) : Result UInt32 :=
  match t.constants.lookup id with
  | some ⟨op, _, [w]⟩ => if op = .constant then .ok w else fail id "expected an integer constant"
  | _ => fail id "expected an integer constant"

/-- The offset of a struct member, if it is given. -/
def memberOffset? (t : Tables) (struct : UInt32) (member : Nat) : Option Nat :=
  match t.memberDecorations.lookup (struct, member.toUInt32, Decoration.offset) with
  | some (offset :: _) => some offset.toNat
  | _ => none

/-- Declares a type. -/
def addType (t : Tables) (id : UInt32) (info : TypeInfo) : Tables :=
  { t with types := (id, info) :: t.types }

/-- Reads a type declaration; `none` for other instructions. -/
def readType? (i : Instruction) : Option (Result TypeInfo) :=
  let ops := i.operands
  let op := operand ops
  let table : List (Opcode × Result TypeInfo) :=
    [(.typeVoid, .ok .void), (.typeBool, .ok .bool),
      (.typeInt, do return .int (← op 1) ((← op 2) != 0)),
      (.typeFloat, do return .float (← op 1)),
      (.typeVector, do return .vector (← op 1) (← op 2)),
      (.typeMatrix, do return .matrix (← op 1) (← op 2)),
      (.typeImage, do return .image (← op 1) (← op 2) (← op 6) (← op 7)),
      (.typeSampler, .ok .sampler),
      (.typeSampledImage, do return .sampledImage (← op 1)),
      (.typeStruct, do return .struct (← operandsFrom ops 1)),
      (.typePointer, do return .pointer (← op 1) (← op 2)),
      (.typeFunction, do return .function (← op 1))]
  table.lookup i.opcode

/-- Instructions that leave no trace in the source. -/
def skipped : List Opcode := [.capability, .memoryModel, .source, .extension]

/-- Reads an instruction outside of functions. -/
def readGlobal (t : Tables) (i : Instruction) : Result Tables := do
  let ops := i.operands
  let op := operand ops
  match readType? i with
  | some info => return t.addType (← op 0) (← info)
  | none =>
    if skipped.contains i.opcode then return t
    else if i.opcode = .extInstImport then
      let (name, _) := readName (← operandsFrom ops 1)
      if name ≠ Text.bytes extendedSet then
        fail (← op 0) s!"unsupported extended instruction set {Text.quoteBytes name}"
      return { t with imports := (← op 0) :: t.imports }
    else if i.opcode = .entryPoint then
      if t.entry.isSome then
        fail (← op 1) "modules with more than one entry point are not supported"
      return { t with entry := some (.ofCode (← op 0), ← op 1) }
    else if i.opcode = .executionMode then
      if (← op 1) = ExecutionMode.localSize ∧ 5 ≤ ops.length then
        return { t with localSize := (ops.drop 2).take 3 }
      return t
    else if i.opcode = .debugName then
      return { t with names := (← op 0, (readName (← operandsFrom ops 1)).1) :: t.names }
    else if i.opcode = .memberName then
      let key := (← op 0, ← op 1)
      return { t with memberNames := (key, (readName (← operandsFrom ops 2)).1) :: t.memberNames }
    else if i.opcode = .decorate then
      let key := (← op 0, ← op 1)
      return { t with decorations := (key, ← operandsFrom ops 2) :: t.decorations }
    else if i.opcode = .memberDecorate then
      let key := (← op 0, ← op 1, ← op 2)
      return { t with memberDecorations := (key, ← operandsFrom ops 3) :: t.memberDecorations }
    else if i.opcode = .constant ∨ i.opcode = .constantComposite then
      let info : ConstantInfo := ⟨i.opcode, ← op 0, ← operandsFrom ops 2⟩
      return { t with constants := (← op 1, info) :: t.constants }
    else if [Opcode.constantTrue, .constantFalse, .constantNull].contains i.opcode then
      return { t with constants := (← op 1, ⟨i.opcode, ← op 0, []⟩) :: t.constants }
    else if i.opcode = .variableDecl then
      return { t with globals := t.globals ++ [⟨← op 1, ← op 0, ← op 2⟩] }
    else if i.opcode = .function then
      if t.function ≠ 0 then
        fail (← op 1) "modules with more than one function are not supported"
      return { t with function := ← op 1 }
    else fail i.result s!"unsupported global instruction {i.opcode.name}"

/-- Instructions that end a block. -/
def terminators : List Opcode :=
  [.branch, .branchConditional, .returnVoid, .returnValue, .kill]

/-- Reading a module: the tables, whether inside a function, and the block that is open. -/
structure Loading where
  tables : Tables
  inFunction : Bool
  current : Option Block

/-- Adds the open block to the tables. -/
def Loading.close (s : Loading) (b : Block) : Loading :=
  { s with tables := { s.tables with blocks := s.tables.blocks ++ [b] }, current := none }

/-- Reads an instruction of a function. -/
def readLocal (s : Loading) (i : Instruction) : Result Loading := do
  if i.opcode = .functionEnd then
    match s.current with
    | some b => fail b.label "block is not terminated"
    | none => return { s with inFunction := false }
  else if i.opcode = .label then
    match s.current with
    | some b => fail b.label "block is not terminated"
    | none => return { s with current := some ⟨← operand i.operands 0, 0, [], [], ⟨.nop, []⟩⟩ }
  else
    match s.current with
    | none => fail i.result s!"instruction {i.opcode.name} outside of a block"
    | some b =>
      if i.opcode = .variableDecl ∨ i.opcode = .functionParameter then
        fail i.result s!"function scope {i.opcode.name} is not supported"
      else if i.opcode = .loopMerge then fail 0 "loops are not supported"
      else if i.opcode = .selectionMerge then
        return { s with current := some { b with merge := ← operand i.operands 0 } }
      else if i.opcode = .phi then
        return { s with current := some { b with phis := b.phis ++ [i] } }
      else if terminators.contains i.opcode then return s.close { b with terminator := i }
      else return { s with current := some { b with instructions := b.instructions ++ [i] } }

/-- Reads one instruction. -/
def read (s : Loading) (i : Instruction) : Result Loading := do
  if s.inFunction then readLocal s i
  else return { s with tables := ← s.tables.readGlobal i, inFunction := i.opcode == .function }

/-- The tables of a module with one entry point, whose function is defined and has a block. -/
def load (m : Module) : Result Tables := do
  let s ← m.instructions.foldlM read ⟨{}, false, none⟩
  let t := (s.current.elim s s.close).tables
  match t.entry with
  | none => fail 0 "module has no entry point"
  | some (_, entry) =>
    if entry ≠ t.function then fail entry "entry point function is not defined"
    if t.first = 0 then fail t.function "entry point function has no blocks"
    return t

end Tables

end NodeShader.Metal
