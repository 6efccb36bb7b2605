import NodeShader.Number.FloatFormat

/-!
# Elementary functions of doubles

Sine, cosine and powers, computed step by step.
-/

/-!
## Sine and cosine

An angle is taken apart into an even number of octants (eighths of a turn) and what is left, at most
one octant to either side; a polynomial then gives the sine or cosine of the rest. Angles below
`wideAngle` are reduced with an octant in three parts, larger ones with as many binary digits of its
inverse as their size asks for.
-/

namespace NodeShader

/-- An angle as octants, of which the whole turns are dropped, and what is left. -/
structure Octant where
  count : Nat
  rest : Float

namespace Octant

/-- Angles from here on are reduced with more digits. -/
def wideAngle : Float := 536870912

/-- The octants in one radian. -/
def perRadian : Float := 1.2732395447351628

/-- The radians in one octant. -/
def radians : Float := 0.7853981633974483

/-- The radians in one octant as a sum: products of the first two with a count are exact. -/
def radiansHigh : Float := 7.85398125648498535156e-1

def radiansMiddle : Float := 3.77489470793079817668e-8

def radiansLow : Float := 2.69515142907905952645e-15

/-- An odd count is rounded up to the next even one, so that zeros of the sine are in the middle. -/
def evened (count : Nat) : Nat := if count % 2 = 1 then count + 1 else count

/-- The octants of an angle below `wideAngle`. -/
def ofNarrow (x : Float) : Octant :=
  let count := evened (x * perRadian).toUInt64.toNat
  let y := floatOfPattern (FloatFormat.binary64.round false count 1)
  ⟨count % 8, ((x - y * radiansHigh) - y * radiansMiddle) - y * radiansLow⟩

/-- The octants in one radian, in units of `2 ^ -1216`. -/
def perRadianDigits : Nat :=
  0x145f306dc9c882a53f84eafa3ea69bb81b6c52b3278872083fca2c757bd778ac36e48dc74849ba5c00c925dd413a32439fc3bd63962534e7dd1046bea5d768909d338e04d68befc827323ac7306a673e93908bf177bf250763ff12fffbc0b301fde5e2316b414da3eda6cfd9e4f96136e9e8c7ecd3cbfd45aea4f758fd7cbe2f67a0e73ef14a525d4d7f6bf623f1aba10ac06608df8f6d757

/-- The places of `perRadianDigits`: 64 before the point and the rest behind it. -/
def places : Nat := 1280

/-- The octants of `mantissa · 2 ^ scale` in units of `2 ^ -125`, without whole turns. The 192 places
of the inverse that matter start where they bring the product down to a few turns. -/
def wideProduct (mantissa : Nat) (scale : Int) : Nat :=
  let window := (perRadianDigits >>> (places - 192 - (scale + 61).toNat)) % (1 <<< 192)
  ((window * mantissa) >>> 64) % (1 <<< 128)

/-- A fraction given by its first 64 places and the 64 of `low` as a number. Places that the first 64
start with in vain are made up for with those of `low`. -/
def fraction (high low : Nat) : Float :=
  let bits := if high = 0 then 0 else high.log2 + 1
  let zeros := 64 - bits
  let filled := if zeros = 64 then 0 else low >>> (63 - zeros)
  let digits := ((high <<< (zeros + 1)) % (1 <<< 64) ||| filled) >>> 12
  floatOfPattern (((1023 - (zeros + 1)) <<< 52) ||| digits)

/-- The octants of an angle of any size from `wideAngle` on. -/
def ofWide (x : Float) : Octant :=
  match floatValue x with
  | .finite _ mantissa scale =>
    let product := wideProduct mantissa scale
    let count := product >>> 125
    let z := fraction ((product >>> 61) % (1 <<< 64)) (product % (1 <<< 64))
    ⟨evened count % 8, (if count % 2 = 1 then z - 1 else z) * radians⟩
  | _ => ⟨0, x⟩

/-- The octants of an angle that is not negative. -/
def ofAngle (x : Float) : Octant := if wideAngle ≤ x then ofWide x else ofNarrow x

/-- A polynomial at a point, the highest coefficient first. -/
def polynomial (coefficients : List Float) (x : Float) : Float :=
  match coefficients with
  | [] => 0
  | first :: rest => rest.foldl (fun acc c => acc * x + c) first

def sineCoefficients : List Float :=
  [1.58962301576546568060e-10, -2.50507477628578072866e-8, 2.75573136213857245213e-6,
    -1.98412698295895385996e-4, 8.33333333332211858878e-3, -1.66666666666666307295e-1]

def cosineCoefficients : List Float :=
  [-1.13585365213876817300e-11, 2.08757008419747316778e-9, -2.75573141792967388112e-7,
    2.48015872888517045348e-5, -1.38888888888730564116e-3, 4.16666666666665929218e-2]

/-- The sine of what is left. -/
def restSine (o : Octant) : Float :=
  let zz := o.rest * o.rest
  o.rest + o.rest * zz * polynomial sineCoefficients zz

/-- The cosine of what is left. -/
def restCosine (o : Octant) : Float :=
  let zz := o.rest * o.rest
  1 - 0.5 * zz + zz * zz * polynomial cosineCoefficients zz

/-- Whether sine and cosine change places. -/
def isTurned (o : Octant) : Bool := o.count % 4 == 1 || o.count % 4 == 2

end Octant

/-- What is no number, as functions return it. -/
def notANumber : Float := floatOfPattern (FloatFormat.binary64.encode .nan)

/-- The sine of an angle in radians. -/
def sine (x : Float) : Float :=
  if x == 0 || x.isNaN then x
  else if x.isInf then notANumber
  else
    let o := Octant.ofAngle x.abs
    let y := if o.isTurned then o.restCosine else o.restSine
    if (x < 0) != (3 < o.count) then -y else y

/-- The cosine of an angle in radians. -/
def cosine (x : Float) : Float :=
  if x.isNaN || x.isInf then notANumber
  else
    let o := Octant.ofAngle x.abs
    let y := if o.isTurned then o.restSine else o.restCosine
    if decide (3 < o.count) != decide (1 < o.count % 4) then -y else y

end NodeShader

/-!
## Powers

`power x y` takes the fractional part of the exponent through the logarithm and the whole part through
repeated squaring, with the exponents of two kept apart so that nothing overflows on the way.
-/

namespace NodeShader

/-- Whether a number is an odd integer. -/
def isOddWhole (x : Float) : Bool :=
  match floatValue x with
  | .finite _ mantissa scale => 0 ≤ scale + 52 && scale ≤ 0 && isOddAt mantissa (-scale).toNat
  | _ => false
where
  /-- Whether a number in units of `2 ^ -places` is an odd integer. -/
  isOddAt (mantissa places : Nat) : Bool := mantissa % (1 <<< (places + 1)) == 1 <<< places

/-- A number as `fraction · 2 ^ exponent`. -/
structure Scaled where
  fraction : Float
  exponent : Int

namespace Scaled

/-- Exponents of two beyond this in either direction leave the range of numbers for good. -/
def exponentLimit : Int := 4096

/-- The square, with a fraction of at least a half. -/
def square (x : Scaled) : Scaled :=
  let f := x.fraction * x.fraction
  if f < 0.5 then ⟨f + f, 2 * x.exponent - 1⟩ else ⟨f, 2 * x.exponent⟩

/-- `acc · x ^ n`, for the factors of two that the digits of `n` ask for. -/
def timesPower (acc x : Scaled) (n : Nat) : Scaled :=
  if n = 0 then acc
  else if x.exponent < -exponentLimit ∨ exponentLimit < x.exponent then
    { acc with exponent := acc.exponent + x.exponent }
  else
    let acc := if n % 2 = 1 then ⟨acc.fraction * x.fraction, acc.exponent + x.exponent⟩ else acc
    timesPower acc x.square (n / 2)
termination_by n

def inverse (x : Scaled) : Scaled := ⟨1 / x.fraction, -x.exponent⟩

/-- The number meant; far exponents give zero or an infinity. -/
def value (x : Scaled) : Float := x.fraction.scaleB x.exponent

end Scaled

/-- The infinity that is not negative. -/
def infinity : Float := floatOfPattern (FloatFormat.binary64.encode (.infinite false))

/-- The power of an ordinary number to an ordinary exponent. -/
def ordinaryPower (x y : Float) : Float :=
  let size := y.abs
  let whole := size.floor
  let part := size - whole
  if part != 0 && x < 0 then notANumber
  else if 9223372036854775808 ≤ whole then
    if x == -1 then 1
    else if (x.abs < 1) == (0 < y) then 0
    else infinity
  else
    let (whole, part) := if 0.5 < part then (whole + 1, part - 1) else (whole, part)
    let start : Scaled := ⟨if part != 0 then (part * x.log).exp else 1, 0⟩
    let (fraction, exponent) := x.frExp
    let result := start.timesPower ⟨fraction, exponent⟩ whole.toUInt64.toNat
    (if y < 0 then result.inverse else result).value

/-- The power of zero, of either sign. -/
def zeroPower (x y : Float) : Float :=
  let signed := isOddWhole y
  if y < 0 then if signed then 1 / x else infinity
  else if signed then x
  else 0

/-- The power of a number. -/
def power (x y : Float) : Float :=
  if y == 0 || x == 1 then 1
  else if y == 1 then x
  else if x.isNaN || y.isNaN then notANumber
  else if x == 0 then zeroPower x y
  else if y.isInf then
    if x == -1 then 1
    else if (x.abs < 1) == (0 < y) then 0
    else infinity
  else if x.isInf then
    if x < 0 then zeroPower (1 / x) (-y)
    else if y < 0 then 0
    else infinity
  else if y == 0.5 then x.sqrt
  else if y == -0.5 then 1 / x.sqrt
  else ordinaryPower x y

end NodeShader
