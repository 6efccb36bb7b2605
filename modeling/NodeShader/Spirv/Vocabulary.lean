/-!
# Vocabulary of modules

The numbered choices that operands of instructions make: execution models, storage classes,
decorations, and the functions of the extended instruction set.
-/

namespace NodeShader.Spirv

/-- The shader an entry point is for; a number outside the three is `other`. -/
inductive ExecutionModel where
  | vertex
  | fragment
  | compute
  | other (code : UInt32)
  deriving DecidableEq, Repr, Inhabited

namespace ExecutionModel

def ofCode : UInt32 → ExecutionModel
  | 0 => vertex
  | 4 => fragment
  | 5 => compute
  | code => other code

def code : ExecutionModel → UInt32
  | vertex => 0
  | fragment => 4
  | compute => 5
  | other code => code

def name : ExecutionModel → String
  | vertex => "vertex"
  | fragment => "fragment"
  | compute => "compute"
  | other code => s!"ExecutionModel({code})"

end ExecutionModel

namespace Capability
def shader : UInt32 := 1
def float16 : UInt32 := 9
def sampled1D : UInt32 := 43
end Capability

namespace ExecutionMode
def originUpperLeft : UInt32 := 7
def localSize : UInt32 := 17
end ExecutionMode

namespace StorageClass
def uniformConstant : UInt32 := 0
def input : UInt32 := 1
def uniform : UInt32 := 2
def output : UInt32 := 3
end StorageClass

namespace Decoration
def block : UInt32 := 2
def colMajor : UInt32 := 5
def matrixStride : UInt32 := 7
def builtIn : UInt32 := 11
def nonWritable : UInt32 := 24
def nonReadable : UInt32 := 25
def location : UInt32 := 30
def binding : UInt32 := 33
def descriptorSet : UInt32 := 34
def offset : UInt32 := 35
end Decoration

namespace BuiltIn
def position : UInt32 := 0
def fragCoord : UInt32 := 15
def globalInvocationId : UInt32 := 28
end BuiltIn

namespace Dim

/-- The code of a number of dimensions; other numbers count as three. -/
def ofCount : Int → UInt32
  | 1 => 0
  | 2 => 1
  | _ => 2

end Dim

/-- The memory model of shaders: logical addresses. -/
def addressingLogical : UInt32 := 0

def memoryModelShader : UInt32 := 1

namespace ImageFormat
def unknown : UInt32 := 0
def rgba32f : UInt32 := 1
end ImageFormat

/-- The mask bit that gives a level of detail to a sampling instruction. -/
def imageOperandsLod : UInt32 := 2

/-- The name of the extended instruction set. -/
def extendedSet : String := "GLSL.std.450"

namespace Extended

def fAbs : UInt32 := 4
def sAbs : UInt32 := 5
def floor : UInt32 := 8
def fract : UInt32 := 10
def sin : UInt32 := 13
def cos : UInt32 := 14
def pow : UInt32 := 26
def sqrt : UInt32 := 31
def fMin : UInt32 := 37
def sMin : UInt32 := 39
def fMax : UInt32 := 40
def sMax : UInt32 := 42
def fMix : UInt32 := 46
def length : UInt32 := 66
def normalize : UInt32 := 69

/-- The names of the functions in use. -/
def names : List (UInt32 × String) :=
  [(fAbs, "FAbs"), (sAbs, "SAbs"), (floor, "Floor"), (fract, "Fract"), (sin, "Sin"), (cos, "Cos"),
    (pow, "Pow"), (sqrt, "Sqrt"), (fMin, "FMin"), (sMin, "SMin"), (fMax, "FMax"), (sMax, "SMax"),
    (fMix, "FMix"), (length, "Length"), (normalize, "Normalize")]

/-- The name of a function of the extended set, empty for others. -/
def name (instruction : UInt32) : String := (names.lookup instruction).getD ""

end Extended

end NodeShader.Spirv
