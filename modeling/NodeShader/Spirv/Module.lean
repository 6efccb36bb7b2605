import NodeShader.Spirv.Instruction
import NodeShader.Spirv.Vocabulary
import NodeShader.Text.Quoted

/-!
# Modules

A module is a header of five words and a list of instructions. `Module.parse` checks the framing
only: the magic number, the lengths of the instructions, and that result identifiers lie below the
bound of the header.
-/

namespace NodeShader.Spirv

/-- The first word of every module. -/
def magic : UInt32 := 0x07230203

/-- The generator word of the modules made here. -/
def generatorWord : UInt32 := 1

structure Version where
  major : UInt8
  minor : UInt8
  deriving DecidableEq, Repr

namespace Version

def current : Version := ⟨1, 3⟩

def word (v : Version) : UInt32 := v.major.toUInt32 <<< 16 ||| v.minor.toUInt32 <<< 8

def ofWord (w : UInt32) : Version := ⟨(w >>> 16).toUInt8, (w >>> 8).toUInt8⟩

def text (v : Version) : String := s!"{v.major}.{v.minor}"

end Version

structure Module where
  version : Version
  generator : UInt32
  bound : UInt32
  instructions : List Instruction
  deriving DecidableEq

/-- What is wrong with a word list. -/
inductive ParseFault where
  | truncatedHeader
  | badMagic
  | zeroLength
  | pastEnd (opcode : Opcode)
  | resultOutOfBound (opcode : Opcode)
  deriving DecidableEq, Repr

def ParseFault.text : ParseFault → String
  | truncatedHeader => "truncated header"
  | badMagic => "bad magic number"
  | zeroLength => "instruction with zero word count"
  | pastEnd op => op.name ++ " extends past the end of the module"
  | resultOutOfBound op => op.name ++ " result id out of bound"

/-- A fault and the word it was found at. -/
structure ParseError where
  offset : Nat
  fault : ParseFault
  deriving DecidableEq, Repr

def ParseError.message (e : ParseError) : String :=
  s!"spirv: malformed module at word {e.offset}: {e.fault.text}"

/-- Whether the result identifier of an instruction is at or above a bound. -/
def Instruction.exceeds (i : Instruction) (bound : UInt32) : Bool :=
  i.result != 0 && bound ≤ i.result

/-- The length an instruction's first word tells. -/
def lengthOf (w : UInt32) : Nat := (w >>> 16).toNat

/-- The opcode an instruction's first word tells. -/
def opcodeOf (w : UInt32) : Opcode := ⟨w.toUInt16⟩

/-- Reads instructions up to the end of the words, the first at `offset`, after the `taken` words of
an instruction that was read. -/
def parseInstructionsAfter (bound : UInt32) : (taken offset : Nat) → List UInt32 →
    Except ParseError (List Instruction)
  | _, _, [] => .ok []
  | taken + 1, offset, _ :: rest => parseInstructionsAfter bound taken offset rest
  | 0, offset, w :: rest =>
    let count := lengthOf w
    let opcode := opcodeOf w
    if count = 0 then .error ⟨offset, .zeroLength⟩
    else if rest.length < count - 1 then .error ⟨offset, .pastEnd opcode⟩
    else
      let i : Instruction := ⟨opcode, rest.take (count - 1)⟩
      if i.exceeds bound then .error ⟨offset, .resultOutOfBound opcode⟩
      else (parseInstructionsAfter bound (count - 1) (offset + count) rest).map (i :: ·)

/-- Reads instructions up to the end of the words, the first at `offset`. -/
def parseInstructions (bound : UInt32) (offset : Nat) (words : List UInt32) :
    Except ParseError (List Instruction) := parseInstructionsAfter bound 0 offset words

namespace Module

/-- Reads a module from its words. -/
def parse : List UInt32 → Except ParseError Module
  | w :: version :: generator :: bound :: _ :: rest =>
    if w ≠ magic then .error ⟨0, .badMagic⟩
    else do
      let instructions ← parseInstructions bound 5 rest
      return { version := .ofWord version, generator, bound, instructions }
  | _ => .error ⟨0, .truncatedHeader⟩

/-- The instruction that defines an identifier, the last of several. -/
def definition? (m : Module) (id : UInt32) : Option Instruction :=
  if id = 0 then none else m.instructions.reverse.find? (·.result == id)

/-- The identifiers the module defines. -/
def defined (m : Module) : List UInt32 :=
  ((m.instructions.map (·.result)).filter (· != 0)).eraseDups

/-- The instructions with an opcode, in order. -/
def filter (m : Module) (op : Opcode) : List Instruction :=
  m.instructions.filter (·.opcode == op)

/-- The number of instructions with an opcode. -/
def count (m : Module) (op : Opcode) : Nat := m.instructions.countP (·.opcode == op)

end Module

end NodeShader.Spirv

/-!
## Assembly text

A module as text, one instruction a line: `%7 = OpFAdd %2 %5 %6`. Identifiers are written with a
percent sign, names in quotes and all else as numbers.
-/

namespace NodeShader.Spirv

/-- The operand at which the name of an instruction starts. -/
def nameOperand? (op : Opcode) : Option Nat :=
  [(Opcode.debugName, 1), (.memberName, 2), (.string, 1), (.extension, 0), (.extInstImport, 1),
    (.entryPoint, 2)].lookup op

/-- Opcodes that only the first operand of which is an identifier. -/
def firstIsId : List Opcode :=
  [.executionMode, .selectionMerge, .loopMerge, .decorate, .memberDecorate, .debugName, .memberName]

/-- Whether operand number `i` of an instruction is an identifier rather than a literal. -/
def isIdOperand (op : Opcode) (i : Nat) : Bool :=
  if [Opcode.capability, .memoryModel, .source, .typeFloat, .typeInt, .constant].contains op then
    false
  else if firstIsId.contains op then i == 0
  else if op = .entryPoint then i == 1 || 2 < i
  else if [Opcode.typeVector, .typeMatrix, .typeImage].contains op then i == 1
  else if op = .typePointer then i == 2
  else if op = .variableDecl then i < 2
  else if op = .function then i != 2
  else if op = .vectorShuffle then i < 4
  else if op = .compositeExtract then i < 3
  else if op = .extInst then i != 3
  else if op = .imageSampleExplicitLod then i != 4
  else true

/-- The operands from number `i` on. -/
def operandTexts (op : Opcode) (i : Nat) (words : List UInt32) : List String :=
  match words with
  | [] => []
  | w :: rest =>
    if nameOperand? op = some i then
      let (bytes, n) := readName (w :: rest)
      Text.quoteBytes bytes :: operandTexts op (i + 1 + (n - 1)) (rest.drop (n - 1))
    else
      let text :=
        if isIdOperand op i then s!"%{w}"
        else if op = .extInst ∧ i = 3 ∧ Extended.name w ≠ "" then Extended.name w
        else toString w
      text :: operandTexts op (i + 1) rest
termination_by words.length
decreasing_by all_goals (simp only [List.length_drop, List.length_cons]; omega)

/-- One instruction as text. -/
def Instruction.text (i : Instruction) : String :=
  let result := if i.result = 0 then [] else [s!"%{i.result} ="]
  let type :=
    match i.operands with
    | t :: _ => if i.opcode.hasType then [s!"%{t}"] else []
    | [] => []
  " ".intercalate (result ++ i.opcode.name :: type
    ++ operandTexts i.opcode (i.operands.length - i.args.length) i.args)

/-- A word in hexadecimal, without leading zeros. -/
def hexWord (w : UInt32) : String := "0x" ++ String.ofList (Nat.toDigits 16 w.toNat)

/-- A module as text. -/
def Module.text (m : Module) : String :=
  s!"; SPIR-V\n; Version: {m.version.text}\n; Generator: {hexWord m.generator}\n; Bound: {m.bound}\n"
    ++ String.join (m.instructions.map fun i => i.text ++ "\n")

end NodeShader.Spirv
