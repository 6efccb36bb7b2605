import NodeShader.Failure
import NodeShader.Graph.Validate
import NodeShader.Math.Read
import NodeShader.Options
import NodeShader.Stage.Basic
import NodeShader.Stage.Fold

/-!
# Planning a compilation

Which stages a graph needs for one of its outputs, in an order in which each comes after the stages
it samples, and for each of them a plan. Every structural error and every error of type resolution is
found here, before any code is made.
-/

namespace NodeShader

namespace Graph

/-- What the stage of the root at a position needs, with conditionals of known outcome decided. -/
def stageLabels (g : Graph) (root : Nat) : Labels := ⟨g, root, g.foldCondition⟩

/-- A structural error at a node. -/
def structural {α : Type} (n : Node) (message : String) : Except Failure α :=
  .error (.ofMessage .structural (some n.id) message)

/-- Checks that the required inputs of a node are connected. -/
def checkRequired (g : Graph) (n : Node) : Except Failure Unit :=
  n.inputs.forM fun id =>
    match g.port? id with
    | none => .error .fault
    | some port =>
      if port.spec.required && !port.isConnected then
        structural n s!"required input {Text.quote port.name} of {n.text} is not connected"
      else .ok ()

/-- Checks that the formula of an expression node can be read. -/
def checkFormula (n : Node) : Except Failure Unit :=
  if n.kind ≠ .mathExpression then .ok ()
  else
    match n.params with
    | .math source inputs =>
      match Math.Expr.parse source inputs with
      | .ok _ => .ok ()
      | .error fault => .error (.classify .structural (some n.id) (some (.plain fault.message)))
    | _ => .error .fault

/-- Checks the nodes a stage has code for. -/
def checkStage (g : Graph) (l : Labels) : Except Failure Unit :=
  (l.nodes.filter fun i => !l.isForeignRoot i).forM fun i =>
    match g.nodes[i]? with
    | none => .error .fault
    | some n => do
      g.checkRequired n
      checkFormula n

/-- Adds the stage of a root to the stages found so far, after the stages it samples. `path` holds
the roots being visited and `fuel` bounds its length. -/
def discover (g : Graph) : (fuel : Nat) → (path found : List Nat) → Nat → Except Failure (List Nat)
  | 0, _, _, _ => .error .fault
  | fuel + 1, path, found, root =>
    if path.contains root then
      match g.nodes[root]? with
      | some n => structural n s!"{n.text} samples its own output through other fields"
      | none => .error .fault
    else if found.contains root then .ok found
    else do
      let l := g.stageLabels root
      g.checkStage l
      let found ← l.boundaries.foldlM (fun found b => g.discover fuel (root :: path) found b) found
      return found ++ [root]

/-- The roots of the stages needed for the root at a position, which comes last. -/
def stageRoots (g : Graph) (root : Nat) : Except Failure (List Nat) :=
  g.discover (g.nodes.size + 1) [] [] root

/-- A type for every port, or a failure of type resolution. -/
def typed (g : Graph) (budget : Int) : Except Failure (TypeAssignment × TypingStats) :=
  match g.resolveTypes budget with
  | (.ok types, stats) => .ok (types, stats)
  | (.error (.unsatisfiable e), _) =>
    .error (.classify .typeResolution (some e.node) (some (.unsatisfiable e)))
  | (.error e, _) => .error (.ofTyping e)

/-- The plan of the stage of a root. -/
def plan (g : Graph) (types : TypeAssignment) (fold : Bool) (root : Nat) :
    Except Failure StagePlan := do
  let l := g.stageLabels root
  let order ← (g.schedule l.nodes).mapError fun e =>
    .classify .structural (e.nodes.head?.map (·.id)) (some (.cycle e))
  let region ← (l.decompose (order.map l.idAt)).mapError fun e =>
    .classify .structural (some (l.idAt root)) (some (.plain e.message))
  return { labels := l, types, order, region, foldConstants := fold }

/-- The position of the output node of an identity. -/
def outputPosition (g : Graph) (id : NodeId) : Except Failure Nat :=
  match g.position? id with
  | none => .error (.ofMessage .structural none s!"root node {id} is not in the graph")
  | some i =>
    match g.nodes[i]? with
    | none => .error .fault
    | some n =>
      if n.kind.stage = .render then .ok i else structural n s!"{n.text} is not an output node"

end Graph

/-- A compilation before any code is made. -/
structure CompilationPlan where
  root : Nat
  types : TypeAssignment
  stats : TypingStats
  /-- The plan of each stage, after those of the stages it samples. -/
  stages : List StagePlan

/-- Plans the compilation of an output node. -/
def Graph.planCompilation (g : Graph) (root : NodeId) (options : Options) :
    Except Failure CompilationPlan := do
  g.validate.mapError fun e => .ofMessage .structural none e.message
  let root ← g.outputPosition root
  let roots ← g.stageRoots root
  let (types, stats) ← g.typed options.maxSearchNodes
  let stages ← roots.mapM (g.plan types options.foldConstants)
  return { root, types, stats, stages }

end NodeShader
