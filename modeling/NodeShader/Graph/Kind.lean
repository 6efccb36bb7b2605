import NodeShader.ValueType

/-!
# Computation domains

How often a value may change: with the time, with the transforms, with the model. A value with none
of these flags is constant.
-/

namespace NodeShader

/-- A set of flags, one bit each. -/
structure Domain where
  flags : BitVec 8
  deriving DecidableEq, Repr, Inhabited

namespace Domain

def constant : Domain := ⟨0⟩

def timeVarying : Domain := ⟨1⟩

def transformDependent : Domain := ⟨2⟩

def modelDependent : Domain := ⟨4⟩

/-- The smallest domain that includes both. -/
def union (a b : Domain) : Domain := ⟨a.flags ||| b.flags⟩

/-- Whether every flag of `b` is one of `a`. -/
def includes (a b : Domain) : Bool := a.flags &&& b.flags == b.flags

def text (d : Domain) : String :=
  if d = constant then "constant"
  else
    "+".intercalate
      ((if d.includes timeVarying then ["time-varying"] else [])
        ++ (if d.includes transformDependent then ["transform-dependent"] else [])
        ++ (if d.includes modelDependent then ["model-dependent"] else []))

instance : ToString Domain := ⟨text⟩

end Domain

end NodeShader

/-!
## Node kinds

The closed palette of node kinds, with the ports, the domain and the kind of stage each of them has.
Kinds whose ports hang on the parameters of the node (constants, textures, combinations, math
expressions, compute fields) declare none here. A code outside the palette is an `unknown` kind.
-/

namespace NodeShader

/-- A node kind of the palette, `invalid`, or a code that names none. -/
inductive NodeKind where
  | invalid
  | constant | texture | time | position | normal | texCoord
  | add | subtract | multiply | divide | min | max | power
  | negate | abs | floor | fract | sqrt | sin | cos | normalize
  | length | dot
  | mix | compare | conditional | swizzle | combine | separate | mathExpression | sample
  | computeField | previewOutput | materialOutput
  | unknown (code : Int)
  deriving DecidableEq, Repr, Inhabited

/-- What a root compiles to. -/
inductive StageKind where
  | none
  | render
  | compute
  deriving DecidableEq, Repr, Inhabited

def StageKind.name : StageKind → String
  | .none => "none"
  | .render => "render"
  | .compute => "compute"

/-- A port of a node kind. A `required` input must be connected below a root. A `startsArm` input
feeds one arm of a branch: what it needs is evaluated only when that arm is taken. -/
structure PortSpec where
  name : String
  type : TypeSet
  required : Bool := false
  startsArm : Bool := false
  deriving DecidableEq, Inhabited

namespace NodeKind

/-- Every kind with its name, in the order of codes from 0 on. -/
def table : List (NodeKind × String) :=
  [(invalid, "invalid"), (constant, "constant"), (texture, "texture"), (time, "time"),
    (position, "position"), (normal, "normal"), (texCoord, "tex_coord"), (add, "add"),
    (subtract, "subtract"), (multiply, "multiply"), (divide, "divide"), (min, "min"), (max, "max"),
    (power, "power"), (negate, "negate"), (abs, "abs"), (floor, "floor"), (fract, "fract"),
    (sqrt, "sqrt"), (sin, "sin"), (cos, "cos"), (normalize, "normalize"), (length, "length"),
    (dot, "dot"), (mix, "mix"), (compare, "compare"), (conditional, "conditional"),
    (swizzle, "swizzle"), (combine, "combine"), (separate, "separate"),
    (mathExpression, "math_expression"), (sample, "sample"), (computeField, "compute_field"),
    (previewOutput, "preview_output"), (materialOutput, "material_output")]

def ofCode (code : Int) : NodeKind :=
  match code with
  | .ofNat n => (table[n]?.map (·.1)).getD (unknown code)
  | .negSucc _ => unknown code

def code : NodeKind → Int
  | unknown code => code
  | k => table.findIdx (·.1 == k)

def name : NodeKind → String
  | unknown code => s!"OpType({code})"
  | k => ((table.find? (·.1 == k)).map (·.2)).getD ""

instance : ToString NodeKind := ⟨name⟩

/-- Small letters: those of the Latin alphabet, and the two other characters whose small letter is
one of them. -/
def smallLetter (c : Char) : Char :=
  if c = '\u0130' then 'i' else if c = '\u212a' then 'k' else c.toLower

/-- Reads a name in any letter case. -/
def ofName? (name : String) : Option NodeKind :=
  let small := String.ofList (name.toList.map smallLetter)
  (table.find? (·.2 == small)).map (·.1)

/-- What is said of a name that `ofName?` refuses. -/
def unknownName (name : String) : String := name ++ " does not belong to OpType values"

/-- Whether the code is listed, `invalid` included. -/
def isListed : NodeKind → Bool
  | unknown _ => false
  | _ => true

/-- Whether nodes of the kind can be made. -/
def isValid : NodeKind → Bool
  | invalid | unknown _ => false
  | _ => true

/-- Two operands and a result of one type. -/
def isBinary : NodeKind → Bool
  | add | subtract | multiply | divide | min | max | power => true
  | _ => false

/-- One operand and a result of one type. -/
def isUnary : NodeKind → Bool
  | negate | abs | floor | fract | sqrt | sin | cos | normalize => true
  | _ => false

/-- The domain a node of the kind introduces. -/
def domain : NodeKind → Domain
  | time => .timeVarying
  | position => .transformDependent
  | normal | texCoord => .modelDependent
  | _ => .constant

/-- The stage a node of the kind is the root of. -/
def stage : NodeKind → StageKind
  | computeField => .compute
  | previewOutput | materialOutput => .render
  | _ => .none

def isRoot (k : NodeKind) : Bool := k.stage != .none

/-- The fixed inputs of a kind. -/
def inputs : NodeKind → List PortSpec
  | add | subtract | multiply | divide | min | max =>
    [⟨"a", .anyNumeric, false, false⟩, ⟨"b", .anyNumeric, false, false⟩]
  | power | dot => [⟨"a", .anyFloating, false, false⟩, ⟨"b", .anyFloating, false, false⟩]
  | negate | abs | swizzle | separate => [⟨"in", .anyNumeric, false, false⟩]
  | floor | fract | sqrt | sin | cos | normalize | length => [⟨"in", .anyFloating, false, false⟩]
  | mix =>
    [⟨"a", .anyFloating, false, false⟩, ⟨"b", .anyFloating, false, false⟩,
      ⟨"t", .anyFloating, false, false⟩]
  | compare => [⟨"a", .anyScalar, false, false⟩, ⟨"b", .anyScalar, false, false⟩]
  | conditional =>
    [⟨"condition", .singleton .bool, true, false⟩, ⟨"true", .anyNumeric, false, true⟩,
      ⟨"false", .anyNumeric, false, true⟩]
  | sample => [⟨"field", .anyField, true, false⟩, ⟨"position", .anyFloat, false, false⟩]
  | previewOutput => [⟨"color", .anyFloat, true, false⟩]
  | materialOutput =>
    [⟨"base_color", .singleton .float3, true, false⟩, ⟨"roughness", .singleton .float, false, false⟩,
      ⟨"emission", .singleton .float3, false, false⟩]
  | _ => []

/-- The one output port named `out`. -/
def outPort (type : TypeSet) : List PortSpec := [⟨"out", type, false, false⟩]

/-- The fixed outputs of a kind. -/
def outputs : NodeKind → List PortSpec
  | time => outPort (.singleton .float)
  | position | normal => outPort (.singleton .float3)
  | texCoord => outPort (.singleton .float2)
  | add | subtract | multiply | divide | min | max | negate | abs | conditional | swizzle =>
    outPort .anyNumeric
  | power | floor | fract | sqrt | sin | cos | normalize | mix => outPort .anyFloating
  | length | dot => outPort (.ofList [.float, .half])
  | compare => outPort (.singleton .bool)
  | separate => ["x", "y", "z", "w"].map fun name => ⟨name, .anyScalar, false, false⟩
  | sample => outPort (.singleton .float4)
  | _ => []

/-- Whether nodes of the kind choose between arms. -/
def isBranching (k : NodeKind) : Bool := k.inputs.any (·.startsArm)

end NodeKind

end NodeShader
