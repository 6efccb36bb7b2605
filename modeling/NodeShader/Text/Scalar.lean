import NodeShader.Number.FloatFormat
import NodeShader.Text.Quoted

/-!
# Numbers and truth values as text

Readers for the values of options and flags, with the words that tell what is wrong.
-/

namespace NodeShader.Text

/-- Why a text is not the value it should be. -/
inductive ScalarFault where
  | invalid
  | outOfRange
  deriving DecidableEq, Repr

/-- The fault as told by the reader named `reader`. -/
def ScalarFault.message (reader text : String) (f : ScalarFault) : String :=
  let reason :=
    match f with
    | invalid => "invalid syntax"
    | outOfRange => "value out of range"
  s!"strconv.{reader}: parsing {quote text}: {reason}"

/-- Reads a truth value in one of its spellings. -/
def readBool (s : String) : Except ScalarFault Bool :=
  if ["1", "t", "T", "TRUE", "true", "True"].contains s then .ok true
  else if ["0", "f", "F", "FALSE", "false", "False"].contains s then .ok false
  else .error .invalid

/-- The value of decimal digits, `none` if there is another character or none at all. -/
def digitsValue? (cs : List Char) : Option Nat :=
  if cs.isEmpty || !cs.all Char.isDigit then none
  else some (cs.foldl (fun n c => 10 * n + (c.toNat - 48)) 0)

/-- Splits a sign off: whether it is a minus, and what follows. -/
def splitSign : List Char → Bool × List Char
  | '-' :: cs => (true, cs)
  | '+' :: cs => (false, cs)
  | cs => (false, cs)

/-- The value of a digit in bases up to 36. -/
def digitValue? (c : Char) : Option Nat :=
  if c.isDigit then some (c.toNat - 48)
  else if 'a' ≤ c.toLower ∧ c.toLower ≤ 'z' then some (c.toLower.toNat - 87)
  else none

/-- Digits read from the left onto a value. The first one that is no digit, or that makes the value too
large, ends the reading. -/
def readDigits (base largest : Nat) : (value : Nat) → List Char → Except ScalarFault Nat
  | value, [] => .ok value
  | value, c :: cs =>
    match digitValue? c with
    | none => .error .invalid
    | some d =>
      if base ≤ d then .error .invalid
      else if largest < base * value + d then .error .outOfRange
      else readDigits base largest (base * value + d) cs

/-- A number of `bits` bits with a sign. -/
def withSign (bits : Nat) (negative : Bool) (n : Nat) : Except ScalarFault Int :=
  let half := 1 <<< (bits - 1)
  if negative then if half < n then .error .outOfRange else .ok (-n)
  else if half ≤ n then .error .outOfRange
  else .ok n

/-- Reads a signed integer of `bits` bits. -/
def readInt (bits : Nat) (s : String) : Except ScalarFault Int := do
  let (negative, cs) := splitSign s.toList
  if cs.isEmpty then throw .invalid
  withSign bits negative (← readDigits 10 ((1 <<< bits) - 1) 0 cs)

/-- Whether a text has a mark of base two, eight or sixteen, and that base. -/
def baseMark? : List Char → Option Nat
  | '0' :: c :: _ =>
    match c.toLower with
    | 'b' => some 2
    | 'o' => some 8
    | 'x' => some 16
    | _ => none
  | _ => none

/-- The characters around an underscore. -/
inductive Neighbour where
  | digit
  | underscore
  | other
  deriving DecidableEq

/-- Whether every underscore stands between digits. -/
def spacedWell (hex : Bool) : (before : Neighbour) → List Char → Bool
  | before, [] => before != .underscore
  | before, c :: cs =>
    if c.isDigit || (hex && 'a' ≤ c.toLower && c.toLower ≤ 'f') then spacedWell hex .digit cs
    else if c = '_' then before == .digit && spacedWell hex .underscore cs
    else before != .underscore && spacedWell hex .other cs

/-- A text without its underscores, which must stand between digits or after the mark of a base. -/
def withoutUnderscores? (cs : List Char) : Option (List Char) :=
  if cs.contains '_' then
    let body := (splitSign cs).2
    let fine :=
      match baseMark? body with
      | some base => spacedWell (base == 16) .digit (body.drop 2)
      | none => spacedWell false .other body
    if fine then some (cs.filter (· != '_')) else none
  else some cs

/-- Reads a signed integer of `bits` bits in the base that its first characters tell: two, eight,
sixteen or ten. -/
def readMarkedInt (bits : Nat) (s : String) : Except ScalarFault Int := do
  let (negative, cs) := splitSign s.toList
  if cs.isEmpty then throw .invalid
  let (base, digits) :=
    match baseMark? cs with
    | some base => if 3 ≤ cs.length then (base, cs.drop 2) else (8, cs.drop 1)
    | none => if cs.head? = some '0' then (8, cs.drop 1) else (10, cs)
  let n ← readDigits base ((1 <<< bits) - 1) 0 (digits.filter (· != '_'))
  if (withoutUnderscores? s.toList).isNone then throw .invalid
  withSign bits negative n

/-- A decimal text taken apart: sign, digits without the point, and the power of ten of the last. -/
structure DecimalParts where
  negative : Bool
  digits : Nat
  power : Int

/-- Reads digits with an optional point and an optional exponent. -/
def decimalParts? (s : List Char) : Option DecimalParts := do
  let (negative, cs) := splitSign s
  let whole := cs.takeWhile Char.isDigit
  let rest := cs.dropWhile Char.isDigit
  let (part, rest) :=
    match rest with
    | '.' :: rest => (rest.takeWhile Char.isDigit, rest.dropWhile Char.isDigit)
    | rest => ([], rest)
  let digits ← digitsValue? (whole ++ part)
  let exponent : Int ←
    match rest with
    | [] => some 0
    | c :: rest =>
      if c = 'e' ∨ c = 'E' then
        let (negative, ds) := splitSign rest
        (digitsValue? ds).map fun (n : Nat) => if negative then -(n : Int) else n
      else none
  return { negative, digits, power := exponent - part.length }

/-- A hexadecimal text taken apart: sign, digits without the point, and the power of two of the
last. It always has an exponent. -/
def hexParts? (cs : List Char) : Option DecimalParts := do
  let (negative, cs) := splitSign cs
  if baseMark? cs ≠ some 16 then none
  else
    let isHex (c : Char) : Bool := (digitValue? c).any (· < 16)
    let cs := cs.drop 2
    let whole := cs.takeWhile isHex
    let rest := cs.dropWhile isHex
    let (part, rest) :=
      match rest with
      | '.' :: rest => (rest.takeWhile isHex, rest.dropWhile isHex)
      | rest => ([], rest)
    let digits := (whole ++ part).filterMap digitValue?
    match digits, rest with
    | [], _ | _, [] => none
    | digits, c :: rest =>
      if c = 'p' ∨ c = 'P' then
        let (down, ds) := splitSign rest
        let n ← digitsValue? ds
        let power : Int := if down then -(n : Int) else n
        some ⟨negative, digits.foldl (fun n d => 16 * n + d) 0, power - 4 * part.length⟩
      else none

/-- Exponents beyond this are taken for it: they are out of range in every format. -/
def exponentCap : Int := 100000

/-- The nearest pattern to `± digits · 2 ^ power`. -/
def ofBinaryParts (f : FloatFormat) (d : DecimalParts) : Nat :=
  let power := max (-exponentCap) (min d.power exponentCap)
  let (num, den) := FloatFormat.rescale d.digits 1 (-power)
  f.round d.negative num den

/-- The nearest pattern to `± digits · 10 ^ power`. -/
def ofDecimalParts (f : FloatFormat) (d : DecimalParts) : Nat :=
  let size : Int := (Nat.toDigits 10 d.digits).length + d.power
  if d.digits = 0 ∨ size < -400 then f.round d.negative 0 1
  else if 400 < size then f.encode (.infinite d.negative)
  else f.ofDecimal d.negative d.digits d.power

/-- Reads a number into the nearest pattern of a format. -/
def readFloat (f : FloatFormat) (s : String) : Except ScalarFault Nat :=
  let (negative, cs) := splitSign s.toList
  let word := String.ofList (cs.map Char.toLower)
  if word = "inf" ∨ word = "infinity" then .ok (f.encode (.infinite negative))
  else if word = "nan" ∧ cs.length = s.length then .ok (f.encode .nan)
  else
    let bits := (withoutUnderscores? s.toList).bind fun cs =>
      ((hexParts? cs).map (ofBinaryParts f)) <|> ((decimalParts? cs).map (ofDecimalParts f))
    match bits with
    | none => .error .invalid
    | some bits => if f.decode bits = .infinite negative then .error .outOfRange else .ok bits

end NodeShader.Text
