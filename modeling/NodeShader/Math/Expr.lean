import NodeShader.Number.Decimal
import NodeShader.Number.Power
import NodeShader.Text.Quoted

/-!
# Arithmetic expressions

The formulas of expression nodes: numbers, named inputs and functions that act on each component
of their arguments. Functions are split by how many arguments they take, so every expression has
as many as its function needs and evaluation can only fail on an input without a value.
-/

namespace NodeShader.Math

/-- Functions of one argument. -/
inductive Unary where
  | neg
  | sin
  | cos
  | abs
  | floor
  | fract
  | sqrt
  | normalize
  deriving DecidableEq, Repr, Inhabited

/-- Functions of two arguments. -/
inductive Binary where
  | add
  | sub
  | mul
  | div
  | pow
  | min
  | max
  deriving DecidableEq, Repr, Inhabited

/-- An expression over named inputs. -/
inductive Expr where
  | number (value : Float)
  | input (name : String)
  | unary (f : Unary) (x : Expr)
  | binary (f : Binary) (x y : Expr)
  | mix (x y t : Expr)
  deriving Inhabited

/-! ### Functions and their values -/

def Unary.all : List Unary := [neg, sin, cos, abs, floor, fract, sqrt, normalize]

def Unary.name : Unary → String
  | neg => "neg"
  | sin => "sin"
  | cos => "cos"
  | abs => "abs"
  | floor => "floor"
  | fract => "fract"
  | sqrt => "sqrt"
  | normalize => "normalize"

def Binary.all : List Binary := [add, sub, mul, div, pow, min, max]

def Binary.name : Binary → String
  | add => "+"
  | sub => "-"
  | mul => "*"
  | div => "/"
  | pow => "pow"
  | min => "min"
  | max => "max"

/-- Whether a function is written between its arguments. -/
def Binary.isInfixed : Binary → Bool
  | add | sub | mul | div => true
  | pow | min | max => false

/-- The sign bit, which tells the two zeros apart. -/
def isSigned (x : Float) : Bool := 0x8000000000000000 ≤ x.toBits

/-- The infinity of the given sign. -/
def isInfinity (negative : Bool) (x : Float) : Bool := floatValue x = .infinite negative

/-- The smaller of two numbers: negative infinity wins over what is no number, and the zero with
the sign over the other. -/
def minimum (x y : Float) : Float :=
  if isInfinity true x then x
  else if isInfinity true y then y
  else if x.isNaN || y.isNaN then notANumber
  else if x == 0 && y == 0 then if isSigned x then x else y
  else if x < y then x
  else y

/-- The larger of two numbers: infinity wins over what is no number, and the zero without the sign
over the other. -/
def maximum (x y : Float) : Float :=
  if isInfinity false x then x
  else if isInfinity false y then y
  else if x.isNaN || y.isNaN then notANumber
  else if x == 0 && y == 0 then if isSigned x then y else x
  else if y < x then x
  else y

def Unary.apply (x : Float) : Unary → Float
  | neg => -x
  | sin => sine x
  | cos => cosine x
  | abs => x.abs
  | floor => x.floor
  | fract => x - x.floor
  | sqrt => x.sqrt
  | normalize => if 0 < x then 1 else if x < 0 then -1 else 0

def Binary.apply (x y : Float) : Binary → Float
  | add => x + y
  | sub => x - y
  | mul => x * y
  | div => x / y
  | pow => power x y
  | min => minimum x y
  | max => maximum x y

/-- The blend of two numbers: the first at 0 and the second at 1. -/
def blend (x y t : Float) : Float := x * (1 - t) + y * t

/-! ### Functions by name -/

/-- A function of any number of arguments. -/
inductive Operation where
  | unary (f : Unary)
  | binary (f : Binary)
  | mix
  deriving DecidableEq, Repr, Inhabited

namespace Operation

def all : List Operation := Unary.all.map unary ++ Binary.all.map binary ++ [mix]

def name : Operation → String
  | unary f => f.name
  | binary f => f.name
  | mix => "mix"

def arity : Operation → Nat
  | unary _ => 1
  | binary _ => 2
  | mix => 3

def ofName? (s : String) : Option Operation := all.find? (·.name == s)

/-- The value at a list of arguments, which may have more than are needed but not fewer. -/
def valueAt? : Operation → List Float → Option Float
  | unary f, x :: _ => some (f.apply x)
  | binary f, x :: y :: _ => some (f.apply x y)
  | mix, x :: y :: t :: _ => some (blend x y t)
  | _, _ => none

/-- The expression that applies the function to exactly its arguments. -/
def expr? : Operation → List Expr → Option Expr
  | unary f, [x] => some (.unary f x)
  | binary f, [x, y] => some (.binary f x y)
  | mix, [x, y, t] => some (.mix x y t)
  | _, _ => none

/-- Whether the value is only known to the precision of the machine's own functions. -/
def isApproximate : Operation → Bool
  | unary .sin | unary .cos | binary .pow => true
  | _ => false

end Operation

namespace Expr

/-! ### Meaning -/

/-- The value with the given inputs; the name of an input without one otherwise. -/
def eval (inputs : String → Option Float) : Expr → Except String Float
  | number v => .ok v
  | input name =>
    match inputs name with
    | some v => .ok v
    | none => .error name
  | unary f x => return f.apply (← x.eval inputs)
  | binary f x y => do
    let x ← x.eval inputs
    let y ← y.eval inputs
    return f.apply x y
  | mix x y t => do
    let x ← x.eval inputs
    let y ← y.eval inputs
    let t ← t.eval inputs
    return blend x y t

/-- What evaluation says about an input without a value. -/
def missingValue (name : String) : String := s!"mathexpr: variable {Text.quote name} has no value"

/-- The names of the inputs, one for each place that has one. -/
def occurrences : Expr → List String
  | number _ => []
  | input name => [name]
  | unary _ x => x.occurrences
  | binary _ x y => x.occurrences ++ y.occurrences
  | mix x y t => x.occurrences ++ y.occurrences ++ t.occurrences

/-- The names of the inputs, sorted and without repetition. -/
def inputs (e : Expr) : List String :=
  e.occurrences.eraseDups.mergeSort fun a b => a ≤ b

def isApproximate : Expr → Bool
  | number _ => false
  | input _ => false
  | unary f x => (Operation.unary f).isApproximate || x.isApproximate
  | binary f x y => (Operation.binary f).isApproximate || x.isApproximate || y.isApproximate
  | mix x y t => x.isApproximate || y.isApproximate || t.isApproximate

/-- The fully parenthesised text. -/
def text : Expr → String
  | number v => doubleText v
  | input name => name
  | unary .neg x => "-" ++ x.text
  | unary f x => f.name ++ "(" ++ x.text ++ ")"
  | binary f x y =>
    if f.isInfixed then "(" ++ x.text ++ " " ++ f.name ++ " " ++ y.text ++ ")"
    else f.name ++ "(" ++ x.text ++ ", " ++ y.text ++ ")"
  | mix x y t => "mix(" ++ x.text ++ ", " ++ y.text ++ ", " ++ t.text ++ ")"

end Expr

end NodeShader.Math
