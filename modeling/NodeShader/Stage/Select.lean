import NodeShader.Graph.Kind
import NodeShader.Graph.Params
import NodeShader.Math.Expr
import NodeShader.Spirv.Instruction
import NodeShader.Spirv.Vocabulary

/-!
# Instruction selection

Which instruction computes an arithmetic function or a comparison, on floating point numbers and on
integers.
-/

namespace NodeShader

open Spirv Math

/-- An instruction of the language itself or of the extended set. -/
inductive Selection where
  | core (op : Opcode)
  | extended (function : UInt32)
  deriving DecidableEq

/-- The arithmetic function a node computes. -/
def NodeKind.operation? : NodeKind → Option Operation
  | add => some (.binary .add)
  | subtract => some (.binary .sub)
  | multiply => some (.binary .mul)
  | divide => some (.binary .div)
  | min => some (.binary .min)
  | max => some (.binary .max)
  | power => some (.binary .pow)
  | negate => some (.unary .neg)
  | abs => some (.unary .abs)
  | floor => some (.unary .floor)
  | fract => some (.unary .fract)
  | sqrt => some (.unary .sqrt)
  | sin => some (.unary .sin)
  | cos => some (.unary .cos)
  | normalize => some (.unary .normalize)
  | mix => some .mix
  | _ => none

/-- The instruction on floating point numbers. -/
def Math.Operation.floating : Operation → Selection
  | .binary .add => .core .fAdd
  | .binary .sub => .core .fSub
  | .binary .mul => .core .fMul
  | .binary .div => .core .fDiv
  | .unary .neg => .core .fNegate
  | .unary .abs => .extended Extended.fAbs
  | .binary .min => .extended Extended.fMin
  | .binary .max => .extended Extended.fMax
  | .unary .floor => .extended Extended.floor
  | .unary .fract => .extended Extended.fract
  | .unary .sqrt => .extended Extended.sqrt
  | .unary .sin => .extended Extended.sin
  | .unary .cos => .extended Extended.cos
  | .binary .pow => .extended Extended.pow
  | .mix => .extended Extended.fMix
  | .unary .normalize => .extended Extended.normalize

/-- The instruction on signed integers, for the functions that have one. -/
def Math.Operation.integral? : Operation → Option Selection
  | .binary .add => some (.core .iAdd)
  | .binary .sub => some (.core .iSub)
  | .binary .mul => some (.core .iMul)
  | .binary .div => some (.core .sDiv)
  | .unary .neg => some (.core .sNegate)
  | .unary .abs => some (.extended Extended.sAbs)
  | .binary .min => some (.extended Extended.sMin)
  | .binary .max => some (.extended Extended.sMax)
  | _ => none

/-- The instruction for operands of a type. -/
def Math.Operation.select? (f : Operation) (t : ValueType) : Option Selection :=
  if t.isInt then f.integral? else some f.floating

/-- The instructions of a comparison, on floating point numbers and on integers. -/
def Comparison.select? : Comparison → Option (Opcode × Opcode)
  | less => some (.fOrdLessThan, .sLessThan)
  | lessEqual => some (.fOrdLessThanEqual, .sLessThanEqual)
  | greater => some (.fOrdGreaterThan, .sGreaterThan)
  | greaterEqual => some (.fOrdGreaterThanEqual, .sGreaterThanEqual)
  | equal => some (.fOrdEqual, .iEqual)
  | notEqual => some (.fOrdNotEqual, .iNotEqual)
  | unknown _ => none

end NodeShader
