import NodeShader.Number.Decimal
import NodeShader.Number.FloatFormat
import NodeShader.Text.Scalar

/-!
# Numbers with a precision of their own

A `Precise` number is a finite binary number or an infinity together with the count of bits that it was
rounded to. Operations are exact up to one rounding, to the nearest number and on a tie to the even
one; a sum, difference or quotient has the larger precision of its operands. Exponents of two have 32
bits, so nothing ordinary leaves the range. What would be no number at all has no result.
-/

namespace NodeShader

inductive Magnitude where
  | infinite
  /-- The number `mantissa · 2 ^ scale`. -/
  | finite (mantissa : Nat) (scale : Int)
  deriving DecidableEq, Repr

structure Precise where
  precision : Nat
  negative : Bool
  magnitude : Magnitude
  deriving DecidableEq, Repr

/-- The count of binary digits of a natural. -/
def bitLength (n : Nat) : Nat := if n = 0 then 0 else n.log2 + 1

namespace Precise

/-! ### Rounding -/

/-- The exponents of two a number may have, as the place above its first digit. -/
def minExponent : Int := -0x80000000

def maxExponent : Int := 0x7fffffff

def zero (precision : Nat) (negative : Bool) : Precise := ⟨precision, negative, .finite 0 0⟩

def infinity (precision : Nat) (negative : Bool) : Precise := ⟨precision, negative, .infinite⟩

/-- A mantissa without its last `drop` digits, rounded. -/
def dropDigits (mantissa drop : Nat) : Nat := FloatFormat.roundQuotient mantissa (1 <<< drop)

/-- The number of the given precision nearest to `± mantissa · 2 ^ scale`. -/
def round (precision : Nat) (negative : Bool) (mantissa : Nat) (scale : Int) : Precise :=
  let size := bitLength mantissa
  let exponent := scale + size
  if mantissa = 0 ∨ exponent < minExponent then zero precision negative
  else if maxExponent < exponent then infinity precision negative
  else
    let drop := size - precision
    let digits := dropDigits mantissa drop
    if maxExponent < scale + drop + bitLength digits then infinity precision negative
    else ⟨precision, negative, .finite digits (scale + drop)⟩

/-- The number of the given precision nearest to `± num / den · 2 ^ scale`. The quotient is taken with
two digits more than needed, and one that tells whether there are others behind. -/
def roundRatio (precision : Nat) (negative : Bool) (num den : Nat) (scale : Int) : Precise :=
  let more := precision + 2 + bitLength den - bitLength num
  let quotient := (num <<< more) / den
  let sticky := if (num <<< more) % den = 0 then 0 else 1
  round precision negative (2 * quotient + sticky) (scale - more - 1)

/-- A number rounded to a precision. -/
def withPrecision (precision : Nat) (x : Precise) : Precise :=
  match x.magnitude with
  | .infinite => { x with precision }
  | .finite mantissa scale => round precision x.negative mantissa scale

/-- A whole number that fits into the precision. -/
def ofNat (precision n : Nat) : Precise := round precision false n 0

/-! ### Arithmetic -/

def neg (x : Precise) : Precise := { x with negative := !x.negative }

def isZero (x : Precise) : Bool :=
  match x.magnitude with
  | .finite mantissa _ => mantissa == 0
  | .infinite => false

/-- A mantissa with its sign. -/
def signed (negative : Bool) (mantissa : Nat) : Int := if negative then -mantissa else mantissa

/-- The sum of two finite numbers in units of the smaller power of two, and that power. -/
def exactSum (m n : Int) (s t : Int) : Int × Int :=
  let low := min s t
  (m <<< (s - low).toNat + n <<< (t - low).toNat, low)

/-- A number so far below the last digit of a sum that only its sign counts is replaced by one unit just
below that digit. -/
def nearby (precision : Nat) (m : Nat) (s : Int) (n : Nat) (t : Int) : Nat × Int :=
  let floor := s + bitLength m - (max precision (bitLength m) : Nat) - 3
  if n ≠ 0 ∧ t + bitLength n < floor then (1, floor - 1) else (n, t)

/-- The sum rounded to a precision; opposite infinities have none. Numbers that cancel out leave the
positive zero. -/
def addTo? (precision : Nat) (x y : Precise) : Option Precise :=
  match x.magnitude, y.magnitude with
  | .infinite, .infinite =>
    if x.negative = y.negative then some { x with precision } else none
  | .infinite, .finite .. => some { x with precision }
  | .finite .., .infinite => some { y with precision }
  | .finite m s, .finite n t =>
    if m = 0 ∧ n = 0 then some (zero precision (x.negative && y.negative))
    else if n = 0 then some (x.withPrecision precision)
    else if m = 0 then some (y.withPrecision precision)
    else
      let (n', t') := nearby precision m s n t
      let (m', s') := nearby precision n t m s
      let (sum, low) := exactSum (signed x.negative m') (signed y.negative n') s' t'
      some (round precision (sum < 0) sum.natAbs low)

def sharedPrecision (x y : Precise) : Nat := max x.precision y.precision

def add? (x y : Precise) : Option Precise := addTo? (sharedPrecision x y) x y

def sub? (x y : Precise) : Option Precise := add? x y.neg

/-- The product rounded to a precision; zero times an infinity has none. -/
def mulTo? (precision : Nat) (x y : Precise) : Option Precise :=
  let negative := x.negative != y.negative
  match x.magnitude, y.magnitude with
  | .finite m s, .finite n t => some (round precision negative (m * n) (s + t))
  | _, _ => if x.isZero || y.isZero then none else some (infinity precision negative)

/-- The quotient; zero by zero and infinity by infinity have none. -/
def divTo? (precision : Nat) (x y : Precise) : Option Precise :=
  let negative := x.negative != y.negative
  match x.magnitude, y.magnitude with
  | .finite m s, .finite n t =>
    if n = 0 then if m = 0 then none else some (infinity precision negative)
    else some (roundRatio precision negative m n (s - t))
  | .infinite, .finite .. => some (infinity precision negative)
  | .finite .., .infinite => some (zero precision negative)
  | .infinite, .infinite => none

def div? (x y : Precise) : Option Precise := divTo? (sharedPrecision x y) x y

/-- The number of zeros at the end of a mantissa's binary digits, at most `fuel`. -/
def trailingZeros : (fuel n : Nat) → Nat
  | 0, _ => 0
  | fuel + 1, n => if n % 2 = 0 then trailingZeros fuel (n / 2) + 1 else 0

/-- The least precision that holds the number exactly. -/
def neededPrecision (x : Precise) : Nat :=
  match x.magnitude with
  | .finite 0 _ | .infinite => 0
  | .finite mantissa _ => bitLength mantissa - trailingZeros (bitLength mantissa) mantissa

/-- The product, in no less than the precision of its factors. If it needs more it has more, up to
`limit`. -/
def mulUpTo? (limit : Nat) (x y : Precise) : Option Precise :=
  (mulTo? limit x y).map fun product =>
    product.withPrecision (max (sharedPrecision x y) product.neededPrecision)

/-- The whole part of a finite number. -/
def whole? (x : Precise) : Option Precise :=
  match x.magnitude with
  | .infinite => none
  | .finite mantissa scale =>
    let (digits, scale) : Nat × Int :=
      match scale with
      | .ofNat n => (mantissa, n)
      | .negSucc n => (mantissa >>> (n + 1), 0)
    some { x with negative := x.negative && digits != 0, magnitude := .finite digits scale }

/-- What is left of `x` after taking away whole multiples of `y`; with none to take, `x` itself. The
steps after the quotient are rounded to the precision of `x`. -/
def mod? (x y : Precise) : Option Precise :=
  if y.isZero then some x
  else do
    let quotient ← div? x y
    let times ← quotient.whole?
    let part ← mulTo? x.precision y (times.withPrecision x.precision)
    addTo? x.precision x part.neg

/-! ### Order -/

/-- The place above the first digit of a finite number that is not zero. -/
def exponent (mantissa : Nat) (scale : Int) : Int := scale + bitLength mantissa

/-- How two magnitudes compare. -/
def compareMagnitude : Magnitude → Magnitude → Ordering
  | .infinite, .infinite => .eq
  | .infinite, .finite .. => .gt
  | .finite .., .infinite => .lt
  | .finite m s, .finite n t =>
    if m = 0 ∨ n = 0 then Ord.compare (min m 1) (min n 1)
    else
      match Ord.compare (exponent m s) (exponent n t) with
      | .eq => Ord.compare (m <<< (s - min s t).toNat) (n <<< (t - min s t).toNat)
      | other => other

/-- The sign: that of zero is 0. -/
def sign (x : Precise) : Int := if x.isZero then 0 else if x.negative then -1 else 1

/-- How two numbers compare; the two zeros are equal. -/
def compare (x y : Precise) : Ordering :=
  match Ord.compare x.sign y.sign with
  | .eq =>
    if x.sign = 0 then .eq
    else if x.negative then compareMagnitude y.magnitude x.magnitude
    else compareMagnitude x.magnitude y.magnitude
  | other => other

/-! ### Machine numbers -/

/-- Numbers whose exponents are beyond this are out of range for doubles, or nothing to them. -/
def doubleReach : Int := 1200

/-- The nearest double, unless a finite number is beyond the range. -/
def toFloat? (x : Precise) : Option Float :=
  let encode (v : FloatValue) : Float := floatOfPattern (FloatFormat.binary64.encode v)
  match x.magnitude with
  | .infinite => some (encode (.infinite x.negative))
  | .finite mantissa scale =>
    if mantissa = 0 ∨ exponent mantissa scale < -doubleReach then
      some (encode (.finite x.negative 0 0))
    else if doubleReach < exponent mantissa scale then none
    else
      let y := encode (.finite x.negative mantissa scale)
      if y.isInf then none else some y

/-- The signed 64-bit integer that the number is, if it is one. -/
def toInt? (x : Precise) : Option Int :=
  match x.magnitude with
  | .infinite => none
  | .finite mantissa scale =>
    if mantissa = 0 then some 0
    else if 64 < exponent mantissa scale ∨ exponent mantissa scale ≤ 0 then none
    else
      let (num, den) := FloatFormat.rescale mantissa 1 (-scale)
      let n := signed x.negative (num / den)
      if num % den = 0 ∧ -0x8000000000000000 ≤ n ∧ n < 0x8000000000000000 then some n else none

end Precise

end NodeShader

/-!
## Text of numbers with a precision of their own

`Precise.parse?` reads digits with an optional point and an exponent of ten or two. The digits count as
they are; powers of five are taken in a precision somewhat above that of the result.
`Precise.text` writes a number without an exponent, with digits enough that no other number of its
precision has the same: digits are written until one of the two ways to end there stays within half
a unit in the last binary place.
-/

namespace NodeShader.Precise

/-! ### Reading -/

/-- `acc · f ^ n` by repeated squaring, each factor with its own precision. -/
def timesPower? (acc f : Precise) (n : Nat) : Option Precise :=
  if n = 0 then some acc
  else do
    let acc ← if n % 2 = 1 then mulTo? acc.precision acc f else some acc
    timesPower? acc (← mulTo? f.precision f f) (n / 2)
termination_by n

/-- The largest power of five in one word. -/
def wordPower : Nat := 27

/-- A power of five to a precision. -/
def powerOfFive? (precision n : Nat) : Option Precise :=
  let start := ofNat precision (Nat.pow 5 (min n wordPower))
  timesPower? start (ofNat (precision + 64) 5) (n - wordPower)

/-- Exponents are whole numbers of 64 bits. -/
def exponent? (cs : List Char) : Option Int := do
  let (negative, digits) := Text.splitSign cs
  let n ← Text.digitsValue? digits
  let limit := if negative then 0x8000000000000000 else 0x7fffffffffffffff
  if limit < n then none else return signed negative n

/-- The number nearest to `± digits · 2 ^ twos · 5 ^ fives`, unless the exponent of two is out of range
before the powers of five are counted. -/
def ofPowers? (precision : Nat) (negative : Bool) (digits : Nat) (twos fives : Int) :
    Option Precise := do
  let top := twos + bitLength digits
  if top < minExponent ∨ maxExponent < top then none
  else
    let power ← powerOfFive? (precision + 64) fives.natAbs
    let exact : Precise := ⟨precision, negative, .finite digits twos⟩
    if fives = 0 then some (round precision negative digits twos)
    else if fives < 0 then divTo? precision exact power
    else mulTo? precision exact power

/-- Reads a number of the given precision, or an infinity. -/
def parse? (precision : Nat) (cs : List Char) : Option Precise :=
  let (negative, word) := Text.splitSign cs
  if word = ['i', 'n', 'f'] ∨ word = ['I', 'n', 'f'] then some (infinity precision negative)
  else do
    let isMark (c : Char) : Bool := c == 'e' || c == 'E' || c == 'p' || c == 'P'
    let parts ← Text.decimalParts? (cs.takeWhile fun c => !isMark c)
    let (exponent, isBinary) : Int × Bool ←
      match cs.dropWhile fun c => !isMark c with
      | [] => some (0, false)
      | mark :: rest => (exponent? rest).map fun n => (n, mark == 'p' || mark == 'P')
    if parts.digits = 0 then return zero precision parts.negative
    else
      let fives := if isBinary then parts.power else parts.power + exponent
      ofPowers? precision parts.negative parts.digits (parts.power + exponent) fives

/-! ### Writing -/

/-- A positive number below ten, of which digits are taken off the front. -/
structure Digits where
  num : Nat
  den : Nat

namespace Digits

/-- `mantissa · 2 ^ scale` with its point after the first digit, and the exponent of ten of that digit. -/
def ofScaled (mantissa : Nat) (scale : Int) : Digits × Int :=
  let (num, den) := FloatFormat.rescale mantissa 1 (-scale)
  let top := Decimal.leadingExponent num den
  let (num, den) := Decimal.shift num den top
  (⟨num, den⟩, top)

def first (d : Digits) : Nat := d.num / d.den

def rest (d : Digits) : Digits := { d with num := 10 * (d.num % d.den) }

/-- Whether only zeros are left. -/
def isDone (d : Digits) : Bool := d.num == 0

end Digits

/-- The digits of a number, those of `value`, up to the first at which it may end, given the bounds that
it must stay within (`closed` if it may be one of them). The result is a count of units in the last
place and the number of places before that. -/
def shortestDigits (closed : Bool) :
    (fuel : Nat) → (low value high : Digits) → (written places : Nat) → Nat × Nat
  | 0, _, _, _, written, places => (written, places)
  | fuel + 1, low, value, high, written, places =>
    let digit := value.first
    let written := 10 * written + digit
    let mayCut := low.first ≠ digit ∨ (closed ∧ low.first ≠ 0 ∧ low.rest.isDone)
    let mayRaise := high.first ≠ digit ∧ (closed ∨ digit + 1 < high.first ∨ !high.rest.isDone)
    if value.rest.isDone ∨ (mayCut ∧ ¬ mayRaise) then (written, places)
    else if mayCut then
      let half := 5 * value.den
      let next := value.rest.num
      let up := half < next ∨ (next = half ∧ written % 2 = 1)
      (if up then written + 1 else written, places)
    else if mayRaise then (written + 1, places)
    else shortestDigits closed fuel low.rest value.rest high.rest written (places + 1)

/-- The decimal of `mantissa · 2 ^ scale` that tells it from other numbers of the precision. -/
def decimal (precision mantissa : Nat) (scale : Int) : Decimal :=
  if mantissa = 0 then ⟨['0'], 0⟩
  else
    let more := precision + 1 - bitLength mantissa
    let wide := mantissa <<< more
    let scale := scale - more
    let (low, _) := Digits.ofScaled (wide - 1) scale
    let (value, top) := Digits.ofScaled wide scale
    let (high, _) := Digits.ofScaled (wide + 1) scale
    let (written, places) := shortestDigits (wide % 4 == 0) (precision + 2) low value high 0 0
    Decimal.ofUnits written (top - places)

/-- A number as text, without an exponent. -/
def text (x : Precise) : String :=
  match x.magnitude with
  | .infinite => if x.negative then "-Inf" else "+Inf"
  | .finite mantissa scale =>
    (if x.negative then "-" else "") ++ (decimal x.precision mantissa scale).positionalText

/-- Whether two numbers have the same sign and the same text. -/
def sameText (x y : Precise) : Bool :=
  x.sign == y.sign && (x.sign == 0 || (closeBy x.magnitude y.magnitude && x.text == y.text))
where
  /-- Whether two magnitudes are within a few doublings, as those of equal text are. -/
  closeBy : Magnitude → Magnitude → Bool
    | .infinite, .infinite => true
    | .finite m s, .finite n t => (exponent m s - exponent n t).natAbs ≤ 1
    | _, _ => false

end NodeShader.Precise
