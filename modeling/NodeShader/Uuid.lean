import NodeShader.Digest.Sha
import NodeShader.Text.Quoted

/-!
# Identifiers of 128 bits

An identifier is shown in the 36-character form and read from four: with dashes, with dashes between
two delimiters, with the prefix `urn:uuid:`, and as 32 digits. `Uuid.named` derives an identifier
from a name in a namespace.
-/

namespace NodeShader

/-- Sixteen bytes, most significant first. -/
structure Uuid where
  bytes : Vector UInt8 16
  deriving DecidableEq

namespace Uuid

/-- The identifier of the first sixteen bytes of a list, zeros where it is shorter. -/
def ofBytes (bs : List UInt8) : Uuid := ⟨Vector.ofFn fun i => bs.getD i 0⟩

def toBytes (u : Uuid) : List UInt8 := u.bytes.toList

/-- All bytes zero. -/
def zero : Uuid := ofBytes []

/-- The lower-case form `xxxxxxxx-xxxx-xxxx-xxxx-xxxxxxxxxxxx`. -/
def text (u : Uuid) : String :=
  let part (start stop : Nat) := Text.hexOfBytes ((u.toBytes.take stop).drop start)
  "-".intercalate [part 0 4, part 4 6, part 6 8, part 8 10, part 10 16]

instance : ToString Uuid := ⟨text⟩

/-- Why a text is no identifier. -/
inductive ParseError where
  | length (n : Nat)
  | format
  | urn (start : List UInt8)
  deriving DecidableEq, Repr

def ParseError.message : ParseError → String
  | .length n => s!"invalid UUID length: {n}"
  | .format => "invalid UUID format"
  | .urn start => "invalid urn prefix: " ++ Text.quoteBytes start

/-- Reads 32 hexadecimal digits. -/
def ofDigits (digits : List UInt8) : Except ParseError Uuid :=
  match Text.bytesOfHex? (digits.map fun b => Char.ofNat b.toNat) with
  | some bs => .ok (ofBytes bs)
  | none => .error .format

/-- Reads digits in groups of 8, 4, 4, 4 and 12 with dashes between. -/
def ofDashed (bs : List UInt8) : Except ParseError Uuid :=
  let dash (i : Nat) : Bool := bs[i]? == some 0x2d
  let group (start stop : Nat) := (bs.take stop).drop start
  if dash 8 && dash 13 && dash 18 && dash 23 then
    ofDigits (group 0 8 ++ group 9 13 ++ group 14 18 ++ group 19 23 ++ group 24 36)
  else .error .format

/-- A capital letter of the Latin alphabet as its small one. -/
def smallLetter (b : UInt8) : UInt8 := if 0x41 ≤ b ∧ b ≤ 0x5a then b + 0x20 else b

/-- Reads any of the four forms, told apart by their length in bytes. -/
def parse (s : String) : Except ParseError Uuid :=
  let bs := Text.bytes s
  match bs.length with
  | 36 => ofDashed bs
  | 45 =>
    if (bs.take 9).map smallLetter = Text.bytes "urn:uuid:" then ofDashed (bs.drop 9)
    else .error (.urn (bs.take 9))
  | 38 => ofDashed (bs.drop 1)
  | 32 => ofDigits bs
  | n => .error (.length n)

/-- The version 5 identifier of a name in a namespace. -/
def named (space : Uuid) (name : List UInt8) : Uuid :=
  let bs := Digest.Sha1.digest (space.toBytes ++ name)
  ofBytes (bs.mapIdx fun i b =>
    if i = 6 then (b &&& 0x0f) ||| 0x50 else if i = 8 then (b &&& 0x3f) ||| 0x80 else b)

end Uuid

end NodeShader
