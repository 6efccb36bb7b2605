import NodeShader.Metal.Tables
import NodeShader.Number.Decimal

/-!
# Names in Metal source

Global identifiers are named after the names the module gives them, turned into identifiers of the
language and told apart by their number where two would be the same.
-/

namespace NodeShader.Metal

/-- Words a global name must not be. -/
def reserved : List String :=
  ["main0", "main0_in", "main0_out", "in", "out", "kernel", "vertex", "fragment", "constant",
    "device", "thread", "threadgroup", "texture", "sampler", "float", "half", "int", "uint", "bool",
    "struct", "return", "if", "else", "using", "namespace", "metal", "sample", "write", "read",
    "level"]

/-- A character of a name: letters, digits and underscores stay, all else becomes an underscore. -/
def nameChar : Text.Piece → Char
  | .scalar c => if c.isAlphanum || c = '_' then c else '_'
  | .stray _ => '_'

/-- A name as an identifier: it starts with a letter and is no reserved word. -/
def sanitize (name : List UInt8) : String :=
  let cs := (Text.pieces name).map nameChar
  let cs := if (cs.head?.any Char.isAlpha) then cs else 'v' :: cs
  let s := String.ofList cs
  if reserved.contains s || cs.take 3 = ['g', 'l', '_'] then s ++ "_" else s

/-- The names given so far, and the texts in use. -/
structure Names where
  given : List (UInt32 × String) := []
  used : List String := []

/-- A step that may name identifiers. -/
abbrev Naming := StateT Names Result

/-- The name of a global identifier, `fallback` and its number if the module gives it none. -/
def identifier (t : Tables) (id : UInt32) (fallback : String) : Naming String := do
  let names ← get
  match names.given.lookup id with
  | some name => return name
  | none =>
    let source := match t.names.lookup id with
      | some (b :: bs) => b :: bs
      | _ => Text.bytes s!"{fallback}{id}"
    let plain := sanitize source
    let name := if names.used.contains plain then s!"{plain}_{id}" else plain
    set { given := (id, name) :: names.given, used := name :: names.used : Names }
    return name

/-- Gives an identifier a fixed name. -/
def fixName (id : UInt32) (name : String) : Naming Unit :=
  modify fun names => { names with given := (id, name) :: names.given }

/-- The name of a struct member. -/
def memberName (t : Tables) (struct : UInt32) (member : Nat) : String :=
  match t.memberNames.lookup (struct, member.toUInt32) with
  | some (b :: bs) => sanitize (b :: bs)
  | _ => s!"m{member}"

end NodeShader.Metal

/-!
## Types and constants in Metal source

Types are written by name and constants as literals, which follows their declarations. Nothing keeps a
type or constant from referring to itself, and such a one is followed without end.
-/

namespace NodeShader.Metal

open Spirv

/-- The name of a texture of a dimension code. -/
def dimName? : UInt32 → Option String
  | 0 => some "1d"
  | 1 => some "2d"
  | 2 => some "3d"
  | _ => none

/-- The name of a type, nesting at most `depth` declarations. -/
def typeNameWithin (t : Tables) : Nat → UInt32 → Naming String
  | 0, _ => t.cutOff
  | depth + 1, id => do
    match ← t.typeOf id with
    | .void => return "void"
    | .bool => return "bool"
    | .int width signed =>
      return if width = 16 then (if signed then "short" else "ushort")
        else if signed then "int" else "uint"
    | .float width => return if width = 16 then "half" else "float"
    | .vector element count => return s!"{← typeNameWithin t depth element}{count}"
    | .matrix element count =>
      let column ← t.typeOf element
      return s!"{← typeNameWithin t depth column.element}{count}x{column.count}"
    | .image element dim sampled _ =>
      match dimName? dim with
      | none => fail id s!"unsupported image dimension {dim}"
      | some dim =>
        let access := if sampled = 2 then ", access::write" else ""
        return s!"texture{dim}<{← typeNameWithin t depth element}{access}>"
    | .sampler => return "sampler"
    | .struct _ => identifier t id "Struct"
    | _ => fail id "type has no MSL representation"

def typeName (t : Tables) (id : UInt32) : Naming String :=
  typeNameWithin t (t.rounds t.types.length) id

/-- Whether a member is a three-component vector whose fourth place holds the next member. Such a
member is declared packed, since the unpacked vector would take that place. -/
def isPacked (t : Tables) (struct : UInt32) (member : Nat) : Result Bool := do
  let info ← t.typeOf struct
  match info.members[member]? with
  | none => missing
  | some type =>
    match ← t.typeOf type with
    | .vector element 3 =>
      if (← t.typeOf element) ≠ .float 32 then return false
      if info.members.length ≤ member + 1 then return false
      match t.memberOffset? struct member, t.memberOffset? struct (member + 1) with
      | some offset, some next => return (next : Int) - offset = 12
      | _, _ => return false
    | _ => return false

/-- The type a member is declared with. -/
def memberType (t : Tables) (struct : UInt32) (member : Nat) : Naming String := do
  if ← isPacked t struct member then return "packed_float3"
  let info ← t.typeOf struct
  match info.members[member]? with
  | some type => typeName t type
  | none => missing

/-- A floating point literal: the shortest digits of single precision, always with a point or an
exponent. -/
def floatLiteral (value : FloatValue) (suffix : String) : String :=
  match value with
  | .nan => "NAN"
  | .infinite false => "INFINITY"
  | .infinite true => "(-INFINITY)"
  | .finite .. =>
    let s := value.text .binary32 "" "" ""
    let marked := s.toList.any fun c => c = '.' || c = 'e'
    s ++ (if marked then "" else ".0") ++ suffix

/-- The value of a half precision pattern, on the scale of single precision. -/
def halfValue (word : UInt32) : FloatValue :=
  FloatFormat.binary32.decode (FloatFormat.binary16.convert .binary32 (word.toNat % 65536))

/-- The literal of the zero of a type. -/
def zeroLiteral (t : Tables) (type : UInt32) : Naming String := do
  match ← t.typeOf type with
  | .bool => return "false"
  | .struct _ => return (← typeName t type) ++ "\x7b\x7d"
  | _ => return (← typeName t type) ++ "(0)"

/-- A word as a signed number. -/
def signedWord (w : UInt32) : Int := w.toInt32.toInt

/-- The literal of a constant, nesting at most `depth` parts. -/
def literalWithin (t : Tables) : Nat → UInt32 → Naming String
  | 0, _ => t.cutOff
  | depth + 1, id => do
    let c := (t.constants.lookup id).getD ⟨.nop, 0, []⟩
    if c.opcode = .constantTrue then return "true"
    else if c.opcode = .constantFalse then return "false"
    else if c.opcode = .constantNull then zeroLiteral t c.type
    else if c.opcode = .constantComposite then
      let parts ← c.operands.mapM (literalWithin t depth)
      return (← typeName t c.type) ++ "(" ++ ", ".intercalate parts ++ ")"
    else
      let info ← t.typeOf c.type
      let word ← operand c.operands 0
      match info with
      | .float width =>
        if width = 16 then return floatLiteral (halfValue word) "h"
        else return floatLiteral (FloatFormat.binary32.decode word.toNat) "f"
      | .int _ true => return toString (signedWord word)
      | .int _ false => return s!"{word}u"
      | _ => fail id s!"unsupported constant of type {← typeName t c.type}"

def literal (t : Tables) (id : UInt32) : Naming String :=
  literalWithin t (t.rounds t.constants.length) id

end NodeShader.Metal
