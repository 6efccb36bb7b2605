/-!
# Value types

The concrete type of a port: a scalar or a vector of floats, halves or integers, a truth value, or a
texture of one to three dimensions. A type is its code; the order of codes is the order of
preference in type resolution. Codes outside the table name no type.
-/

namespace NodeShader

/-- A type by its code. -/
structure ValueType where
  code : Int
  deriving DecidableEq, Repr, Inhabited

namespace ValueType

def invalid : ValueType := ⟨0⟩

def float : ValueType := ⟨1⟩
def float2 : ValueType := ⟨2⟩
def float3 : ValueType := ⟨3⟩
def float4 : ValueType := ⟨4⟩

def half : ValueType := ⟨5⟩

def int : ValueType := ⟨9⟩

def bool : ValueType := ⟨13⟩

def texture1D : ValueType := ⟨14⟩
def texture2D : ValueType := ⟨15⟩
def texture3D : ValueType := ⟨16⟩

/-- The names of the codes from 0 on. -/
def names : List String :=
  ["invalid", "float", "float2", "float3", "float4", "half", "half2", "half3", "half4",
    "int", "int2", "int3", "int4", "bool", "texture1d", "texture2d", "texture3d"]

/-- Whether the code is that of a type. -/
def isValid (t : ValueType) : Bool := 0 < t.code && t.code < 17

def name (t : ValueType) : String :=
  match t.code with
  | .ofNat n => names.getD n s!"DType({n})"
  | .negSucc n => s!"DType(-{n + 1})"

instance : ToString ValueType := ⟨name⟩

/-- The type of a name, `invalid` if there is none. -/
def ofName (name : String) : ValueType :=
  match names.findIdx? (· == name) with
  | some n => ⟨n⟩
  | none => invalid

/-- A 32-bit floating point scalar or vector. -/
def isFloat (t : ValueType) : Bool := 1 ≤ t.code && t.code ≤ 4

/-- A 16-bit floating point scalar or vector. -/
def isHalf (t : ValueType) : Bool := 5 ≤ t.code && t.code ≤ 8

/-- A signed 32-bit integer scalar or vector. -/
def isInt (t : ValueType) : Bool := 9 ≤ t.code && t.code ≤ 12

def isFloating (t : ValueType) : Bool := t.isFloat || t.isHalf

def isNumeric (t : ValueType) : Bool := t.isFloating || t.isInt

def isTexture (t : ValueType) : Bool := 14 ≤ t.code && t.code ≤ 16

/-- The scalar of the family a numeric type belongs to, the type itself for others. -/
def scalar (t : ValueType) : ValueType :=
  if t.isFloat then float else if t.isHalf then half else if t.isInt then int else t

/-- The number of components, or of dimensions of a texture; 0 for no type. -/
def size (t : ValueType) : Nat :=
  if t.isNumeric then (t.code - t.scalar.code).toNat + 1
  else if t.isTexture then (t.code - texture1D.code).toNat + 1
  else if t = bool then 1
  else 0

/-- A numeric type of two or more components. -/
def isVector (t : ValueType) : Bool := t.isNumeric && 1 < t.size

/-- The type of the same family with `size` components or dimensions, `invalid` if none. -/
def withSize (t : ValueType) (size : Int) : ValueType :=
  if size < 1 || 4 < size then invalid
  else if t.isNumeric then ⟨t.scalar.code + size - 1⟩
  else if t.isTexture then
    if 3 < size then invalid else ⟨texture1D.code + size - 1⟩
  else if t = bool ∧ size = 1 then bool
  else invalid

/-- The bytes of one component, 0 for textures. -/
def byteWidth (t : ValueType) : Nat :=
  if t.isHalf then 2 else if t.isFloat || t.isInt || t = bool then 4 else 0

end ValueType

end NodeShader

/-!
## Sets of value types

The declared type of a port is the set of value types it admits, and type resolution narrows such
sets. A set is a mask with one bit for each code below 32.
-/

namespace NodeShader

/-- A set of value types; bit `n` stands for the type of code `n`. -/
structure TypeSet where
  bits : BitVec 32
  deriving DecidableEq, Inhabited

namespace TypeSet

def empty : TypeSet := ⟨0⟩

/-- The mask of one code, empty for a code outside the mask. -/
def bitOf (t : ValueType) : BitVec 32 :=
  match t.code with
  | .ofNat n => 1 <<< n
  | .negSucc _ => 0

def singleton (t : ValueType) : TypeSet := ⟨bitOf t⟩

def union (a b : TypeSet) : TypeSet := ⟨a.bits ||| b.bits⟩

def inter (a b : TypeSet) : TypeSet := ⟨a.bits &&& b.bits⟩

def ofList (ts : List ValueType) : TypeSet := ts.foldl (fun s t => s.union (singleton t)) empty

/-- Whether a type of the table is in the set. -/
def has (s : TypeSet) (t : ValueType) : Bool := t.isValid && s.bits &&& bitOf t ≠ 0

def isEmpty (s : TypeSet) : Bool := s.bits == 0

/-- The members in order of preference. -/
def toList (s : TypeSet) : List ValueType :=
  ((List.range 32).filter fun n => s.bits.getLsbD n).map fun (n : Nat) => ⟨(n : Int)⟩

def length (s : TypeSet) : Nat := s.toList.length

def isSingleton (s : TypeSet) : Bool := s.length == 1

/-- The only member of a singleton, `invalid` otherwise. -/
def single (s : TypeSet) : ValueType :=
  match s.toList with
  | [t] => t
  | _ => .invalid

/-- The members that satisfy `keep`. -/
def filter (s : TypeSet) (keep : ValueType → Bool) : TypeSet := ofList (s.toList.filter keep)

def anyFloat : TypeSet := ofList [⟨1⟩, ⟨2⟩, ⟨3⟩, ⟨4⟩]

def anyFloatVector : TypeSet := ofList [⟨2⟩, ⟨3⟩, ⟨4⟩]

def anyHalf : TypeSet := ofList [⟨5⟩, ⟨6⟩, ⟨7⟩, ⟨8⟩]

def anyInt : TypeSet := ofList [⟨9⟩, ⟨10⟩, ⟨11⟩, ⟨12⟩]

def anyFloating : TypeSet := anyFloat.union anyHalf

def anyNumeric : TypeSet := anyFloating.union anyInt

def anyScalar : TypeSet := ofList [.float, .half, .int]

/-- The textures. -/
def anyField : TypeSet := ofList [.texture1D, .texture2D, .texture3D]

/-- The sets shown by a name of their own. -/
def namedSets : List (TypeSet × String) :=
  [(anyNumeric, "any-numeric"), (anyFloating, "any-floating-point"), (anyFloat, "any-float"),
    (anyFloatVector, "any-float-vector"), (anyHalf, "any-half"), (anyInt, "any-int"),
    (anyScalar, "any-scalar"), (anyField, "any-field")]

/-- A singleton by its member, a named set by its name, any other by its members. -/
def text (s : TypeSet) : String :=
  if s.isSingleton then s.single.name
  else
    match namedSets.find? (·.1 == s) with
    | some (_, name) => name
    | none => "\x7b" ++ "|".intercalate (s.toList.map ValueType.name) ++ "\x7d"

instance : ToString TypeSet := ⟨text⟩

/-- The set of a name: a named set or one value type. -/
def ofName? (name : String) : Option TypeSet :=
  match namedSets.find? (·.2 == name) with
  | some (s, _) => some s
  | none =>
    let t := ValueType.ofName name
    if t.isValid then some (singleton t) else none

end TypeSet

end NodeShader
