import NodeShader.Text.Basic

/-!
# Opcodes

The instructions of the intermediate language by their code, with the names of those whose operand
layout is known. A known instruction may start its operands with a result type and a result
identifier, in this order.
-/

namespace NodeShader.Spirv

/-- An instruction code. -/
structure Opcode where
  code : UInt16
  deriving DecidableEq, Repr, Inhabited

/-- The name of an instruction and which results it has. -/
structure OpcodeInfo where
  name : String
  hasType : Bool
  hasResult : Bool

namespace Opcode

def nop : Opcode := ⟨0⟩
def undef : Opcode := ⟨1⟩
def source : Opcode := ⟨3⟩
def debugName : Opcode := ⟨5⟩
def memberName : Opcode := ⟨6⟩
def string : Opcode := ⟨7⟩
def extension : Opcode := ⟨10⟩
def extInstImport : Opcode := ⟨11⟩
def extInst : Opcode := ⟨12⟩
def memoryModel : Opcode := ⟨14⟩
def entryPoint : Opcode := ⟨15⟩
def executionMode : Opcode := ⟨16⟩
def capability : Opcode := ⟨17⟩
def typeVoid : Opcode := ⟨19⟩
def typeBool : Opcode := ⟨20⟩
def typeInt : Opcode := ⟨21⟩
def typeFloat : Opcode := ⟨22⟩
def typeVector : Opcode := ⟨23⟩
def typeMatrix : Opcode := ⟨24⟩
def typeImage : Opcode := ⟨25⟩
def typeSampler : Opcode := ⟨26⟩
def typeSampledImage : Opcode := ⟨27⟩
def typeArray : Opcode := ⟨28⟩
def typeStruct : Opcode := ⟨30⟩
def typePointer : Opcode := ⟨32⟩
def typeFunction : Opcode := ⟨33⟩
def constantTrue : Opcode := ⟨41⟩
def constantFalse : Opcode := ⟨42⟩
def constant : Opcode := ⟨43⟩
def constantComposite : Opcode := ⟨44⟩
def constantNull : Opcode := ⟨46⟩
def function : Opcode := ⟨54⟩
def functionParameter : Opcode := ⟨55⟩
def functionEnd : Opcode := ⟨56⟩
def variableDecl : Opcode := ⟨59⟩
def load : Opcode := ⟨61⟩
def store : Opcode := ⟨62⟩
def accessChain : Opcode := ⟨65⟩
def decorate : Opcode := ⟨71⟩
def memberDecorate : Opcode := ⟨72⟩
def vectorShuffle : Opcode := ⟨79⟩
def compositeConstruct : Opcode := ⟨80⟩
def compositeExtract : Opcode := ⟨81⟩
def sampledImage : Opcode := ⟨86⟩
def imageSampleImplicitLod : Opcode := ⟨87⟩
def imageSampleExplicitLod : Opcode := ⟨88⟩
def imageWrite : Opcode := ⟨99⟩
def convertSToF : Opcode := ⟨111⟩
def convertUToF : Opcode := ⟨112⟩
def fConvert : Opcode := ⟨115⟩
def sNegate : Opcode := ⟨126⟩
def fNegate : Opcode := ⟨127⟩
def iAdd : Opcode := ⟨128⟩
def fAdd : Opcode := ⟨129⟩
def iSub : Opcode := ⟨130⟩
def fSub : Opcode := ⟨131⟩
def iMul : Opcode := ⟨132⟩
def fMul : Opcode := ⟨133⟩
def sDiv : Opcode := ⟨135⟩
def fDiv : Opcode := ⟨136⟩
def vectorTimesScalar : Opcode := ⟨142⟩
def matrixTimesVector : Opcode := ⟨145⟩
def matrixTimesMatrix : Opcode := ⟨146⟩
def dot : Opcode := ⟨148⟩
def select : Opcode := ⟨169⟩
def iEqual : Opcode := ⟨170⟩
def iNotEqual : Opcode := ⟨171⟩
def sGreaterThan : Opcode := ⟨173⟩
def sGreaterThanEqual : Opcode := ⟨175⟩
def sLessThan : Opcode := ⟨177⟩
def sLessThanEqual : Opcode := ⟨179⟩
def fOrdEqual : Opcode := ⟨180⟩
def fOrdNotEqual : Opcode := ⟨182⟩
def fOrdLessThan : Opcode := ⟨184⟩
def fOrdGreaterThan : Opcode := ⟨186⟩
def fOrdLessThanEqual : Opcode := ⟨188⟩
def fOrdGreaterThanEqual : Opcode := ⟨190⟩
def phi : Opcode := ⟨245⟩
def loopMerge : Opcode := ⟨246⟩
def selectionMerge : Opcode := ⟨247⟩
def label : Opcode := ⟨248⟩
def branch : Opcode := ⟨249⟩
def branchConditional : Opcode := ⟨250⟩
def kill : Opcode := ⟨252⟩
def returnVoid : Opcode := ⟨253⟩
def returnValue : Opcode := ⟨254⟩

/-- The known instructions by code. -/
def table : List (UInt16 × OpcodeInfo) := [
  (0, ⟨"OpNop", false, false⟩),
  (1, ⟨"OpUndef", true, true⟩),
  (3, ⟨"OpSource", false, false⟩),
  (5, ⟨"OpName", false, false⟩),
  (6, ⟨"OpMemberName", false, false⟩),
  (7, ⟨"OpString", false, true⟩),
  (10, ⟨"OpExtension", false, false⟩),
  (11, ⟨"OpExtInstImport", false, true⟩),
  (12, ⟨"OpExtInst", true, true⟩),
  (14, ⟨"OpMemoryModel", false, false⟩),
  (15, ⟨"OpEntryPoint", false, false⟩),
  (16, ⟨"OpExecutionMode", false, false⟩),
  (17, ⟨"OpCapability", false, false⟩),
  (19, ⟨"OpTypeVoid", false, true⟩),
  (20, ⟨"OpTypeBool", false, true⟩),
  (21, ⟨"OpTypeInt", false, true⟩),
  (22, ⟨"OpTypeFloat", false, true⟩),
  (23, ⟨"OpTypeVector", false, true⟩),
  (24, ⟨"OpTypeMatrix", false, true⟩),
  (25, ⟨"OpTypeImage", false, true⟩),
  (26, ⟨"OpTypeSampler", false, true⟩),
  (27, ⟨"OpTypeSampledImage", false, true⟩),
  (28, ⟨"OpTypeArray", false, true⟩),
  (30, ⟨"OpTypeStruct", false, true⟩),
  (32, ⟨"OpTypePointer", false, true⟩),
  (33, ⟨"OpTypeFunction", false, true⟩),
  (41, ⟨"OpConstantTrue", true, true⟩),
  (42, ⟨"OpConstantFalse", true, true⟩),
  (43, ⟨"OpConstant", true, true⟩),
  (44, ⟨"OpConstantComposite", true, true⟩),
  (46, ⟨"OpConstantNull", true, true⟩),
  (54, ⟨"OpFunction", true, true⟩),
  (55, ⟨"OpFunctionParameter", true, true⟩),
  (56, ⟨"OpFunctionEnd", false, false⟩),
  (59, ⟨"OpVariable", true, true⟩),
  (61, ⟨"OpLoad", true, true⟩),
  (62, ⟨"OpStore", false, false⟩),
  (65, ⟨"OpAccessChain", true, true⟩),
  (71, ⟨"OpDecorate", false, false⟩),
  (72, ⟨"OpMemberDecorate", false, false⟩),
  (79, ⟨"OpVectorShuffle", true, true⟩),
  (80, ⟨"OpCompositeConstruct", true, true⟩),
  (81, ⟨"OpCompositeExtract", true, true⟩),
  (86, ⟨"OpSampledImage", true, true⟩),
  (87, ⟨"OpImageSampleImplicitLod", true, true⟩),
  (88, ⟨"OpImageSampleExplicitLod", true, true⟩),
  (99, ⟨"OpImageWrite", false, false⟩),
  (111, ⟨"OpConvertSToF", true, true⟩),
  (112, ⟨"OpConvertUToF", true, true⟩),
  (115, ⟨"OpFConvert", true, true⟩),
  (126, ⟨"OpSNegate", true, true⟩),
  (127, ⟨"OpFNegate", true, true⟩),
  (128, ⟨"OpIAdd", true, true⟩),
  (129, ⟨"OpFAdd", true, true⟩),
  (130, ⟨"OpISub", true, true⟩),
  (131, ⟨"OpFSub", true, true⟩),
  (132, ⟨"OpIMul", true, true⟩),
  (133, ⟨"OpFMul", true, true⟩),
  (135, ⟨"OpSDiv", true, true⟩),
  (136, ⟨"OpFDiv", true, true⟩),
  (142, ⟨"OpVectorTimesScalar", true, true⟩),
  (145, ⟨"OpMatrixTimesVector", true, true⟩),
  (146, ⟨"OpMatrixTimesMatrix", true, true⟩),
  (148, ⟨"OpDot", true, true⟩),
  (169, ⟨"OpSelect", true, true⟩),
  (170, ⟨"OpIEqual", true, true⟩),
  (171, ⟨"OpINotEqual", true, true⟩),
  (173, ⟨"OpSGreaterThan", true, true⟩),
  (175, ⟨"OpSGreaterThanEqual", true, true⟩),
  (177, ⟨"OpSLessThan", true, true⟩),
  (179, ⟨"OpSLessThanEqual", true, true⟩),
  (180, ⟨"OpFOrdEqual", true, true⟩),
  (182, ⟨"OpFOrdNotEqual", true, true⟩),
  (184, ⟨"OpFOrdLessThan", true, true⟩),
  (186, ⟨"OpFOrdGreaterThan", true, true⟩),
  (188, ⟨"OpFOrdLessThanEqual", true, true⟩),
  (190, ⟨"OpFOrdGreaterThanEqual", true, true⟩),
  (245, ⟨"OpPhi", true, true⟩),
  (246, ⟨"OpLoopMerge", false, false⟩),
  (247, ⟨"OpSelectionMerge", false, false⟩),
  (248, ⟨"OpLabel", false, true⟩),
  (249, ⟨"OpBranch", false, false⟩),
  (250, ⟨"OpBranchConditional", false, false⟩),
  (252, ⟨"OpKill", false, false⟩),
  (253, ⟨"OpReturn", false, false⟩),
  (254, ⟨"OpReturnValue", false, false⟩)]

def info? (op : Opcode) : Option OpcodeInfo := table.lookup op.code

/-- Whether the operand layout of the instruction is known. -/
def isKnown (op : Opcode) : Bool := op.info?.isSome

def hasType (op : Opcode) : Bool := op.info?.any (·.hasType)

def hasResult (op : Opcode) : Bool := op.info?.any (·.hasResult)

def name (op : Opcode) : String :=
  match op.info? with
  | some info => info.name
  | none => s!"Op{op.code}"

end Opcode

end NodeShader.Spirv

/-!
## Instructions and words

An instruction is an opcode with operand words; its encoding starts with a word that holds its
length and opcode. Names are written as bytes that end in a zero, four to a word, the first in the
lowest place.
-/

namespace NodeShader.Spirv

/-- An opcode with its operands, result type and result identifier included. -/
structure Instruction where
  opcode : Opcode
  operands : List UInt32
  deriving DecidableEq, Repr, Inhabited

namespace Instruction

/-- The words of an instruction, the first with its length above its opcode. -/
def encode (i : Instruction) : List UInt32 :=
  ((i.operands.length + 1).toUInt32 <<< 16 ||| i.opcode.code.toUInt32) :: i.operands

/-- The result type, 0 if there is none. -/
def resultType (i : Instruction) : UInt32 :=
  if i.opcode.hasType then i.operands.headD 0 else 0

/-- The result identifier, 0 if there is none. -/
def result (i : Instruction) : UInt32 :=
  if i.opcode.hasResult then i.operands.getD (if i.opcode.hasType then 1 else 0) 0 else 0

/-- The number of operands before the arguments. -/
def resultCount (i : Instruction) : Nat :=
  (if i.opcode.hasType then 1 else 0) + (if i.opcode.hasResult then 1 else 0)

/-- The operands after result type and result identifier. -/
def args (i : Instruction) : List UInt32 := i.operands.drop i.resultCount

/-- Argument number `i`, if there is one. -/
def arg? (i : Instruction) (n : Nat) : Option UInt32 := i.args[n]?

end Instruction

/-! ### Names and byte streams -/

/-- The word of four bytes, the first in the lowest place. -/
def wordOfBytes (a b c d : UInt8) : UInt32 :=
  a.toUInt32 ||| b.toUInt32 <<< 8 ||| c.toUInt32 <<< 16 ||| d.toUInt32 <<< 24

/-- The four bytes of a word, the lowest first. -/
def bytesOfWord (w : UInt32) : List UInt8 :=
  [w.toUInt8, (w >>> 8).toUInt8, (w >>> 16).toUInt8, (w >>> 24).toUInt8]

/-- The words of a name: its bytes, a zero, and zeros up to a full word. -/
def nameWords : List UInt8 → List UInt32
  | a :: b :: c :: d :: rest => wordOfBytes a b c d :: nameWords rest
  | [a, b, c] => [wordOfBytes a b c 0]
  | [a, b] => [wordOfBytes a b 0 0]
  | [a] => [wordOfBytes a 0 0 0]
  | [] => [0]

/-- Reads a name: the bytes before the first zero, and the number of words they take up to there, or
all bytes if there is no zero. -/
def readName : List UInt32 → List UInt8 × Nat
  | [] => ([], 0)
  | w :: rest =>
    let bytes := (bytesOfWord w).takeWhile (· != 0)
    if bytes.length < 4 then (bytes, 1)
    else
      let (tail, n) := readName rest
      (bytes ++ tail, n + 1)

/-- A module as a byte stream. -/
def bytesOfWords (words : List UInt32) : List UInt8 := words.flatMap bytesOfWord

/-- Full groups of four bytes as words. -/
def groupWords : List UInt8 → List UInt32
  | a :: b :: c :: d :: rest => wordOfBytes a b c d :: groupWords rest
  | _ => []

/-- A byte stream as words; its length must be a multiple of four. -/
def wordsOfBytes? (bytes : List UInt8) : Option (List UInt32) :=
  if bytes.length % 4 = 0 then some (groupWords bytes) else none

/-- What is said of a byte stream that `wordsOfBytes?` refuses. -/
def unevenStream (length : Nat) : String :=
  s!"spirv: byte stream of {length} bytes is not a multiple of 4"

end NodeShader.Spirv
