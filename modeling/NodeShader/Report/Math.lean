import NodeShader.Math.Read
import NodeShader.Report.Basic

/-!
# Reports on expressions
-/

namespace NodeShader.Report

open NodeShader.Math

/-- A tree of lists: a number is its text, anything else starts with what it is. -/
def tree : Expr → Report
  | .number v => float v
  | .input name => texts ["var", name]
  | .unary f x => list ["call", f.name, tree x]
  | .binary f x y => list ["call", f.name, tree x, tree y]
  | .mix x y t => list ["call", "mix", tree x, tree y, tree t]

/-- A computed number, by as many digits as are known. -/
def computed (approximate : Bool) (x : Float) : Report := if approximate then roughFloat x else float x

/-- The value of an expression for some inputs. -/
def evaluation (e : Expr) (inputs : List (String × Float)) : Report :=
  match e.eval (fun name => inputs.lookup name) with
  | .ok v => computed e.isApproximate v
  | .error name => error "error" (Expr.missingValue name)

/-- An expression read from text, with its values. -/
def expression (source : String) (inputs : List String) (evals : List (List (String × Float))) :
    Report :=
  match Expr.parse source inputs with
  | .error fault => error "error" fault.message
  | .ok e => record [("string", e.text), ("variables", texts e.inputs), ("tree", tree e),
      ("evals", each (evaluation e) evals)]

/-- The values of a function at lists of arguments. A function that is not known has no value
anywhere; one that lacks an argument stops everything. -/
def application (function : String) (args : List (List Float)) : Report :=
  match Operation.ofName? function with
  | none => record [("results", each (fun _ => float notANumber) args)]
  | some operation =>
    match args.mapM operation.valueAt? with
    | some values => record [("results", each (computed operation.isApproximate) values)]
    | none => crash "runtime error"

end NodeShader.Report
