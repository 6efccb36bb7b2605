import NodeShader.ValueType

/-!
# Node parameters

What a node is given besides its inputs: the values of a constant, the comparison to make, the
components to select, and so on.
-/

namespace NodeShader

/-- The test a compare node makes; a code outside the six is `unknown`. -/
inductive Comparison where
  | less | lessEqual | greater | greaterEqual | equal | notEqual
  | unknown (code : Int)
  deriving DecidableEq, Repr, Inhabited

namespace Comparison

/-- The comparisons with their names, in the order of codes from 0 on. -/
def table : List (Comparison × String) :=
  [(less, "less"), (lessEqual, "less_equal"), (greater, "greater"),
    (greaterEqual, "greater_equal"), (equal, "equal"), (notEqual, "not_equal")]

def ofCode (code : Int) : Comparison :=
  match code with
  | .ofNat n => (table[n]?.map (·.1)).getD (unknown code)
  | .negSucc _ => unknown code

def code : Comparison → Int
  | unknown code => code
  | c => table.findIdx (·.1 == c)

def name : Comparison → String
  | unknown _ => "CompareOp(?)"
  | c => ((table.find? (·.1 == c)).map (·.2)).getD ""

def ofName? (name : String) : Option Comparison := (table.find? (·.2 == name)).map (·.1)

/-- The outcome on two numbers; every test with a value that is no number fails, but `notEqual`. -/
def eval : Comparison → Float → Float → Bool
  | less, a, b => a < b
  | lessEqual, a, b => a ≤ b
  | greater, a, b => b < a
  | greaterEqual, a, b => b ≤ a
  | equal, a, b => a == b
  | notEqual, a, b => a != b
  | unknown _, _, _ => false

end Comparison

/-- The parameters of a node. -/
inductive Params where
  | none
  | constant (values : List Float) (scalar : ValueType)
  | compare (test : Comparison)
  | swizzle (selector : String)
  | combine (count : Int)
  | math (expression : String) (inputs : List String)
  | texture (name : String) (dim : Int)
  | field (dim resolution : Int)
  deriving Inhabited

/-- The type of a constant: floats unless a scalar type is given. -/
def constantType (values : List Float) (scalar : ValueType) : ValueType :=
  (if scalar = .invalid then .float else scalar).withSize values.length

/-- The component a selector letter names. -/
def selectorIndex? : Char → Option Nat
  | 'x' | 'r' => some 0
  | 'y' | 'g' => some 1
  | 'z' | 'b' => some 2
  | 'w' | 'a' => some 3
  | _ => none

/-- The components of a selector of one to four letters. -/
def selectorComponents? (selector : String) : Option (List Nat) :=
  let letters := selector.toList
  if letters.length = 0 ∨ 4 < letters.length then none else letters.mapM selectorIndex?

/-- The resolution of a compute field that is given none. -/
def defaultResolution : Int := 256

namespace Params

/-- How messages name the parameters. -/
def typeName : Params → String
  | none => "<nil>"
  | constant .. => "graph.ConstantParams"
  | compare _ => "graph.CompareParams"
  | swizzle _ => "graph.SwizzleParams"
  | combine _ => "graph.CombineParams"
  | math .. => "graph.MathExpressionParams"
  | texture .. => "graph.TextureParams"
  | field .. => "graph.ComputeFieldParams"

def isNone : Params → Bool
  | none => true
  | _ => false

end Params

end NodeShader
