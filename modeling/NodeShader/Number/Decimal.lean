import NodeShader.Number.FloatFormat

/-!
# Decimal text of floating point numbers

`Decimal.shortest` gives the fewest digits that read back as the same number, the nearest such when
there are several. A decimal is laid out in positional form for decimal exponents from -4 to 5 and
in exponent form otherwise (`Decimal.text`). `Decimal.significant` gives a fixed count of digits.
-/

namespace NodeShader

/-- A decimal `d.ddd · 10 ^ exponent`, most significant digit first. -/
structure Decimal where
  digits : List Char
  exponent : Int
  deriving DecidableEq, Repr

namespace Decimal

/-- The ratio `num / den` divided by `10 ^ power`. -/
def shift (num den : Nat) : Int → Nat × Nat
  | .ofNat n => (num, den * Nat.pow 10 n)
  | .negSucc n => (num * Nat.pow 10 (n + 1), den)

/-- Whether `num / den` is at least `10 ^ power`. -/
def reaches (num den : Nat) (power : Int) : Bool :=
  let (n, d) := shift num den power
  d ≤ n

/-- The exponent of the first decimal digit of `num / den`, for a positive ratio. The binary digits
give it up to one. -/
def leadingExponent (num den : Nat) : Int :=
  let guess := ((num.log2 : Int) - den.log2) * 30103 / 100000
  if reaches num den (guess + 1) then guess + 1
  else if reaches num den guess then guess
  else guess - 1

/-- Drops the zeros at the end, but not the first digit. -/
def trimZeros (digits : List Char) : List Char :=
  match (digits.reverse.dropWhile (· == '0')).reverse with
  | [] => ['0']
  | ds => ds

/-- The decimal of the natural `n` counted in units of `10 ^ unit`. -/
def ofUnits (n : Nat) (unit : Int) : Decimal :=
  let ds := Nat.toDigits 10 n
  { digits := trimZeros ds, exponent := unit + (ds.length : Int) - 1 }

/-- An interval of ratios with denominator `den`; the ends belong to it iff `closed`. -/
structure Interval where
  low : Nat
  high : Nat
  den : Nat
  closed : Bool

/-- Whether `n · 10 ^ unit` lies in the interval. -/
def Interval.holds (i : Interval) (n : Nat) (unit : Int) : Bool :=
  let (point, den) := shift (n * i.den) 1 (-unit)
  let low := i.low * den
  let high := i.high * den
  if i.closed then low ≤ point && point ≤ high else low < point && point < high

/-- The multiple of `10 ^ unit` nearest to `num / i.den` among the two neighbours in the interval. -/
def neighbour? (i : Interval) (num : Nat) (unit : Int) : Option Nat :=
  let (n, d) := shift num i.den unit
  let below := n / d
  let down := i.holds below unit
  let up := i.holds (below + 1) unit
  if down && up then some (FloatFormat.roundQuotient n d)
  else if down then some below
  else if up then some (below + 1)
  else none

/-- The first grid, from coarse to fine, that has a point in the interval. -/
def search (i : Interval) (num : Nat) (top : Int) : Nat → Nat → Decimal
  | 0, count => ofUnits (FloatFormat.roundQuotient (shift num i.den (top - count)).1
      (shift num i.den (top - count)).2) (top - count)
  | fuel + 1, count =>
    match neighbour? i num (top - count) with
    | some n => ofUnits n (top - count)
    | none => search i num top fuel (count + 1)

/-- The fewest digits that read back as `mantissa · 2 ^ scale` in the format. No more than one digit
for every three bits, and two, are ever needed. -/
def shortest (f : FloatFormat) (mantissa : Nat) (scale : Int) : Decimal :=
  if mantissa = 0 then ⟨['0'], 0⟩
  else
    let gap := if mantissa = 1 <<< f.fraction ∧ f.minScale < scale then 1 else 2
    let (num, den) := FloatFormat.rescale (4 * mantissa) 4 (-scale)
    let width := num / (4 * mantissa)
    let i : Interval :=
      { low := num - gap * width, high := num + 2 * width, den, closed := mantissa % 2 == 0 }
    search i num (leadingExponent num den) (f.fraction / 3 + 2) 0

/-- Exponents written without an exponent part. -/
def positional (exponent : Int) : Bool := -4 ≤ exponent && exponent < 6

/-- The exponent part: a sign and at least two digits. -/
def exponentText (exponent : Int) : String :=
  let n := exponent.natAbs
  (if exponent < 0 then "e-" else "e+") ++ (if n < 10 then "0" else "") ++ toString n

/-- Digits with a point after the first `whole` of them, zeros filling the gap. -/
def pointAfter (digits : List Char) (whole : Nat) : String :=
  let padded := digits ++ List.replicate (whole - digits.length) '0'
  match padded.drop whole with
  | [] => String.ofList padded
  | rest => String.ofList (padded.take whole ++ '.' :: rest)

/-- Positional form, whatever the exponent. -/
def positionalText (d : Decimal) : String :=
  if d.exponent < 0 then
    String.ofList ("0.".toList ++ List.replicate (d.exponent.natAbs - 1) '0' ++ d.digits)
  else pointAfter d.digits (d.exponent.toNat + 1)

/-- Positional or exponent form. -/
def text (d : Decimal) : String :=
  if positional d.exponent then d.positionalText
  else pointAfter d.digits 1 ++ exponentText d.exponent

/-- The decimal of `count` digits nearest to `num / den`, a tie to the even one. -/
def significant (count num den : Nat) : List Char × Int :=
  if num = 0 then (List.replicate count '0', 0)
  else
    let top := leadingExponent num den
    let (n, d) := shift num den (top - (count - 1 : Nat))
    let rounded := FloatFormat.roundQuotient n d
    let ds := Nat.toDigits 10 rounded
    if count < ds.length then (ds.take count, top + 1) else (ds, top)

end Decimal

/-- A number as decimal text, with the given texts for what is not finite. -/
def FloatValue.text (f : FloatFormat) (nan positive infinity : String) : FloatValue → String
  | .nan => nan
  | .infinite negative => if negative then "-" ++ infinity else positive ++ infinity
  | .finite negative mantissa scale =>
    (if negative then "-" else "") ++ (Decimal.shortest f mantissa scale).text

/-- A double in the shortest digits, as messages write it. -/
def doubleText (x : Float) : String := (floatValue x).text .binary64 "NaN" "+" "Inf"

/-- A number in exponent form with ten significant digits. -/
def tenDigits (x : Float) (nan infinity : String) : String :=
  match floatValue x with
  | .nan => nan
  | .infinite negative => if negative then "-" ++ infinity else infinity
  | .finite negative mantissa scale =>
    let (num, den) := FloatFormat.rescale mantissa 1 (-scale)
    let (digits, exponent) := Decimal.significant 10 num den
    (if negative then "-" else "") ++ Decimal.pointAfter digits 1 ++ Decimal.exponentText exponent

end NodeShader
