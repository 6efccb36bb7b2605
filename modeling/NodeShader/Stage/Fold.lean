import NodeShader.Branch.Labels
import NodeShader.Math.Expr

/-!
# Folding

What is known before a shader runs. A conditional whose condition is a constant, or a comparison of
constants, has one live arm (`Graph.foldCondition`). Arithmetic on constants has a constant result
(`foldComponents`), unless it divides by the integer zero or leaves the range of numbers.
-/

namespace NodeShader

/-- A number rounded to the precision of a type. -/
def ValueType.round (t : ValueType) (x : Float) : Float :=
  if t.isInt then truncated x
  else if t.isHalf then toHalf x
  else if t.isFloat then toSingle x
  else x

/-- The value of a scalar input that is a constant or not connected, at the precision of its type. -/
def Graph.scalarConstant? (g : Graph) (input : PortId) : Option Float :=
  match (g.producerPosition? input).bind (g.nodes[·]?) with
  | none => some 0
  | some n =>
    match n.kind, n.params with
    | .constant, .constant [v] scalar => some ((constantType [v] scalar).round v)
    | _, _ => none

/-- The truth value of a condition that is known: an open one is false. -/
def Graph.knownCondition? (g : Graph) (input : PortId) : Option Bool :=
  match (g.producerPosition? input).bind (g.nodes[·]?) with
  | none => some false
  | some n =>
    match n.kind, n.params, n.inputs with
    | .constant, .constant (v :: _) _, _ => some (v != 0)
    | .compare, .compare test, a :: b :: _ => do
      let a ← g.scalarConstant? a
      let b ← g.scalarConstant? b
      return test.eval a b
    | _, _, _ => none

/-- The live arm of a conditional whose condition is known: arm 0 if it holds, else arm 1. -/
def Graph.foldCondition (g : Graph) : LiveArm := fun i => do
  let n ← g.nodes[i]?
  if n.kind ≠ .conditional then none
  else
    let condition ← n.inputs.head?
    let holds ← g.knownCondition? condition
    return if holds then 0 else 1

/-- One component of some operands; a single value stands for every component. -/
def componentsAt (operands : List (List Float)) (k : Nat) : List Float :=
  operands.map fun values => if 1 < values.length then values.getD k 0 else values.getD 0 0

/-- One component of the result of an arithmetic function on constants. -/
def foldComponent (f : Math.Operation) (t : ValueType) (args : List Float) : Option Float :=
  if t.isInt && f = .binary .div && args.getD 1 0 == 0 then none
  else do
    let r := t.round (← f.valueAt? args)
    if r.isNaN || r.isInf then none else some r

/-- The components of the result of an arithmetic function on constants. Normalisation does not act
on each component alone and is left to run time. -/
def foldComponents (f : Math.Operation) (t : ValueType) (operands : List (List Float)) :
    Option (List Float) :=
  if f = .unary .normalize then none
  else (List.range t.size).mapM fun k => foldComponent f t (componentsAt operands k)

end NodeShader
