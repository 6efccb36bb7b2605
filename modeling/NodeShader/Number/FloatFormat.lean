/-!
# Binary floating point formats

A format has a sign bit, an exponent field and a fraction field. `FloatFormat.decode` reads the
number a bit pattern stands for and `FloatFormat.round` gives the pattern nearest to a ratio of
naturals, a tie going to the even pattern. Narrowing a number to a smaller format is decoding in the
one and rounding in the other (`FloatFormat.convert`), so nothing depends on machine conversions.
-/

namespace NodeShader

/-- The sizes of the fraction and exponent fields. -/
structure FloatFormat where
  fraction : Nat
  exponent : Nat
  deriving DecidableEq, Repr

/-- What a bit pattern stands for: a finite number is `± mantissa · 2 ^ scale`. -/
inductive FloatValue where
  | nan
  | infinite (negative : Bool)
  | finite (negative : Bool) (mantissa : Nat) (scale : Int)
  deriving DecidableEq, Repr

namespace FloatFormat

def binary64 : FloatFormat := ⟨52, 11⟩

def binary32 : FloatFormat := ⟨23, 8⟩

def binary16 : FloatFormat := ⟨10, 5⟩

/-- The exponent field of infinities and of values that are no number. -/
def topField (f : FloatFormat) : Nat := (1 <<< f.exponent) - 1

/-- The scale of the smallest positive number. -/
def minScale (f : FloatFormat) : Int := 2 - (1 <<< (f.exponent - 1) : Nat) - f.fraction

/-- The position of the sign bit. -/
def signBit (f : FloatFormat) : Nat := 1 <<< (f.fraction + f.exponent)

/-- The number a bit pattern stands for. -/
def decode (f : FloatFormat) (bits : Nat) : FloatValue :=
  let negative := bits / f.signBit % 2 == 1
  let field := (bits >>> f.fraction) % (1 <<< f.exponent)
  let fraction := bits % (1 <<< f.fraction)
  if field = f.topField then
    if fraction = 0 then .infinite negative else .nan
  else if field = 0 then .finite negative fraction f.minScale
  else .finite negative ((1 <<< f.fraction) + fraction) (f.minScale + (field - 1 : Nat))

/-- The quotient `num / den` to the nearest natural, a tie to the even one. -/
def roundQuotient (num den : Nat) : Nat :=
  let q := num / den
  let r := num % den
  if 2 * r < den then q
  else if den < 2 * r then q + 1
  else q + q % 2

/-- `num / (den · 2 ^ scale)` as a ratio of naturals. -/
def rescale (num den : Nat) : Int → Nat × Nat
  | .ofNat n => (num, den <<< n)
  | .negSucc n => (num <<< (n + 1), den)

/-- The scale of the last place of `num / den` in the format. -/
def scaleOf (f : FloatFormat) (num den : Nat) : Int :=
  let guess : Int := (num.log2 : Int) - den.log2 - f.fraction
  let (n, d) := rescale num den guess
  max f.minScale (if n / d < 1 <<< f.fraction then guess - 1 else guess)

/-- The bits below the sign of the number nearest to `num / den`; infinity above the range. -/
def roundRatio (f : FloatFormat) (num den : Nat) : Nat :=
  if num = 0 then 0
  else
    let scale := f.scaleOf num den
    let (n, d) := rescale num den scale
    let bits := ((scale - f.minScale).toNat <<< f.fraction) + roundQuotient n d
    min bits (f.topField <<< f.fraction)

/-- The pattern of the number nearest to `± num / den`. -/
def round (f : FloatFormat) (negative : Bool) (num den : Nat) : Nat :=
  (if negative then f.signBit else 0) + f.roundRatio num den

/-- The pattern nearest to a value; what is no number has one positive quiet pattern. -/
def encode (f : FloatFormat) : FloatValue → Nat
  | .nan => (f.topField <<< f.fraction) + (1 <<< (f.fraction - 1))
  | .infinite negative =>
    (if negative then f.signBit else 0) + (f.topField <<< f.fraction)
  | .finite negative mantissa (.ofNat n) => f.round negative (mantissa <<< n) 1
  | .finite negative mantissa (.negSucc n) => f.round negative mantissa (1 <<< (n + 1))

/-- The pattern in format `g` nearest to what `bits` stands for in format `f`. -/
def convert (f g : FloatFormat) (bits : Nat) : Nat := g.encode (f.decode bits)

/-- The pattern nearest to `± digits · 10 ^ power`. -/
def ofDecimal (f : FloatFormat) (negative : Bool) (digits : Nat) : Int → Nat
  | .ofNat n => f.round negative (digits * Nat.pow 10 n) 1
  | .negSucc n => f.round negative digits (Nat.pow 10 (n + 1))

end FloatFormat

/-- The number a double stands for. -/
def floatValue (x : Float) : FloatValue := FloatFormat.binary64.decode x.toBits.toNat

/-- The double of a binary64 pattern. -/
def floatOfPattern (bits : Nat) : Float := Float.ofBits bits.toUInt64

/-- The binary32 pattern nearest to a double. -/
def singleBits (x : Float) : UInt32 :=
  (FloatFormat.binary64.convert .binary32 x.toBits.toNat).toUInt32

/-- The double that a binary32 pattern stands for. -/
def floatOfSingle (bits : UInt32) : Float :=
  floatOfPattern (FloatFormat.binary32.convert .binary64 bits.toNat)

/-- The binary16 pattern nearest to a double. -/
def halfBits (x : Float) : UInt32 :=
  (FloatFormat.binary64.convert .binary16 x.toBits.toNat).toUInt32

/-- The double that a binary16 pattern stands for. -/
def floatOfHalf (bits : UInt32) : Float :=
  floatOfPattern (FloatFormat.binary16.convert .binary64 bits.toNat)

/-- The whole part of a number, 0 where there is none. -/
def FloatValue.whole : FloatValue → Int
  | .finite negative mantissa scale =>
    let n : Nat :=
      match scale with
      | .ofNat n => mantissa <<< n
      | .negSucc n => mantissa >>> (n + 1)
    if negative then -n else n
  | _ => 0

/-- The whole part of a double as a signed word; the lowest word stands for what is out of range. -/
def signedWord (x : Float) : UInt32 :=
  let lowest : UInt32 := 0x80000000
  match floatValue x with
  | .finite negative mantissa scale =>
    let n := FloatValue.whole (.finite negative mantissa scale)
    if -0x80000000 ≤ n ∧ n < 0x80000000 then (n % 0x100000000).toNat.toUInt32 else lowest
  | _ => lowest

/-- A number without its fraction, which keeps its sign: the bits of its fraction are cleared. -/
def truncated (x : Float) : Float :=
  match floatValue x with
  | .finite negative mantissa (.negSucc n) =>
    if mantissa >>> (n + 1) = 0 then
      floatOfPattern (if negative then FloatFormat.binary64.signBit else 0)
    else floatOfPattern (x.toBits.toNat - mantissa % Nat.pow 2 (n + 1))
  | _ => x

/-- A number rounded to single precision. -/
def toSingle (x : Float) : Float := floatOfSingle (singleBits x)

/-- A number rounded to half precision, by way of single precision. -/
def toHalf (x : Float) : Float := floatOfHalf (halfBits (toSingle x))

end NodeShader
