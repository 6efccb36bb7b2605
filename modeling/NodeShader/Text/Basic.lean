/-!
# Texts, bytes and digits

The characters that count as space around a text, bytes and numbers as hexadecimal digits, and texts
as their UTF-8 bytes.
-/

namespace NodeShader.Text

/-! ### Blanks -/

/-- Whether a character is a blank. -/
def isBlank (c : Char) : Bool :=
  let n := c.toNat
  (9 ≤ n && n ≤ 13) || n == 0x20 || n == 0x85 || n == 0xA0 || n == 0x1680
    || (0x2000 ≤ n && n ≤ 0x200a) || n == 0x2028 || n == 0x2029 || n == 0x202f || n == 0x205f
    || n == 0x3000

/-- A text without the blanks at its ends. -/
def trim (s : String) : String :=
  String.ofList (((s.toList.dropWhile isBlank).reverse.dropWhile isBlank).reverse)

/-! ### Hexadecimal digits

Bytes and numbers are written in lower case, and bytes are read back from either case. -/

/-- The lower-case hexadecimal digit of `n % 16`. -/
def hexDigit (n : Nat) : Char :=
  let n := n % 16
  if n < 10 then Char.ofNat (48 + n) else Char.ofNat (87 + n)

/-- The value of a hexadecimal digit of either case. -/
def hexValue? (c : Char) : Option Nat :=
  if '0' ≤ c ∧ c ≤ '9' then some (c.toNat - 48)
  else if 'a' ≤ c ∧ c ≤ 'f' then some (c.toNat - 87)
  else if 'A' ≤ c ∧ c ≤ 'F' then some (c.toNat - 55)
  else none

/-- The last `width` hexadecimal digits of `n`, most significant first. -/
def hexDigits : Nat → Nat → List Char
  | 0, _ => []
  | width + 1, n => hexDigits width (n / 16) ++ [hexDigit n]

/-- Two digits for each byte. -/
def hexOfBytes (bs : List UInt8) : String :=
  String.ofList (bs.flatMap fun b => [hexDigit (b.toNat / 16), hexDigit b.toNat])

/-- Reads pairs of digits; `none` for an odd count or another character. -/
def bytesOfHex? : List Char → Option (List UInt8)
  | [] => some []
  | [_] => none
  | a :: b :: rest => do
    let high ← hexValue? a
    let low ← hexValue? b
    let tail ← bytesOfHex? rest
    return UInt8.ofNat (high * 16 + low) :: tail

/-! ### Texts as bytes

A text is written as its UTF-8 bytes. Reading goes the other way on any byte list: well-formed
sequences give their character, and a byte that starts none is kept as it is (`Piece.stray`). -/

/-- The UTF-8 bytes of a text. -/
def bytes (s : String) : List UInt8 := s.toList.flatMap String.utf8EncodeChar

/-- The number of UTF-8 bytes of a text. -/
def byteLength (s : String) : Nat := s.utf8ByteSize

/-- One unit of a byte list read as UTF-8. -/
inductive Piece where
  | scalar (c : Char)
  | stray (b : UInt8)
  deriving DecidableEq, Repr

/-- The low six bits of a continuation byte. -/
def continuation? (b : UInt8) : Option Nat :=
  if 0x80 ≤ b ∧ b ≤ 0xBF then some (b.toNat - 0x80) else none

/-- The character that starts with byte `b` followed by `rest`, and how many bytes of `rest` it
takes: the shortest form only, and no surrogates. -/
def sequence? (b : UInt8) (rest : List UInt8) : Option (Char × Nat) :=
  let b := b.toNat
  let cont (i : Nat) : Option Nat := rest[i]?.bind continuation?
  if b < 0x80 then some (Char.ofNat b, 0)
  else if 0xC2 ≤ b ∧ b ≤ 0xDF then do
    let c1 ← cont 0
    return (Char.ofNat ((b - 0xC0) * 64 + c1), 1)
  else if 0xE0 ≤ b ∧ b ≤ 0xEF then do
    let c1 ← cont 0
    let c2 ← cont 1
    let n := (b - 0xE0) * 4096 + c1 * 64 + c2
    if n < 0x800 ∨ (0xD800 ≤ n ∧ n ≤ 0xDFFF) then none else some (Char.ofNat n, 2)
  else if 0xF0 ≤ b ∧ b ≤ 0xF4 then do
    let c1 ← cont 0
    let c2 ← cont 1
    let c3 ← cont 2
    let n := (b - 0xF0) * 262144 + c1 * 4096 + c2 * 64 + c3
    if n < 0x10000 ∨ 0x10FFFF < n then none else some (Char.ofNat n, 3)
  else none

/-- Reads a byte list as UTF-8, after the `taken` bytes of a character that was read. -/
def piecesAfter : (taken : Nat) → List UInt8 → List Piece
  | _, [] => []
  | taken + 1, _ :: rest => piecesAfter taken rest
  | 0, b :: rest =>
    match sequence? b rest with
    | some (c, n) => .scalar c :: piecesAfter n rest
    | none => .stray b :: piecesAfter 0 rest

/-- Reads a byte list as UTF-8, byte by byte where it is malformed. -/
def pieces (bs : List UInt8) : List Piece := piecesAfter 0 bs

/-- The text of a byte list, each stray byte shown as the replacement character. -/
def ofBytes (bs : List UInt8) : String :=
  String.ofList ((pieces bs).map fun
    | .scalar c => c
    | .stray _ => '\uFFFD')

end NodeShader.Text
