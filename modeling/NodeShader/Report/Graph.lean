import NodeShader.Branch.Labelling
import NodeShader.Branch.Labels
import NodeShader.Graph.Build
import NodeShader.Report.Basic
import NodeShader.Typing.Resolve

/-!
# Reports of graphs

Value types, node kinds, and graphs with their nodes, ports and edges.
-/

namespace NodeShader.Report

def valueType (t : ValueType) : Report :=
  record [("value", t.code), ("string", t.name), ("valid", t.isValid), ("float", t.isFloat),
    ("half", t.isHalf), ("int", t.isInt), ("floating", t.isFloating), ("numeric", t.isNumeric),
    ("texture", t.isTexture), ("vector", t.isVector), ("size", t.size), ("scalar", t.scalar.name),
    ("with_size", each (fun n => text (t.withSize n).name) [-1, 0, 1, 2, 3, 4, 5]),
    ("byte_width", t.byteWidth)]

/-- A set of types, combined with another and asked for a member. -/
def typeSet (a b : TypeSet) (t : ValueType) : Report :=
  record [("string", a.text), ("len", a.length), ("empty", a.isEmpty), ("singleton", a.isSingleton),
    ("single", a.single.name), ("values", texts (a.toList.map (·.name))),
    ("union", (a.union b).text), ("intersect", (a.inter b).text), ("has", a.has t),
    ("vectors", (a.filter (·.isVector)).text)]

def domain (a b : Domain) : Report :=
  record [("string", a.text), ("union", (a.union b).text), ("includes", a.includes b)]

def nodeKind (k : NodeKind) : Report :=
  record [("value", k.code), ("string", k.name), ("is_a", k.isListed), ("valid", k.isValid),
    ("domain", k.domain.text), ("stage", k.stage.name), ("root", k.isRoot),
    ("branching", k.isBranching), ("binary", k.isBinary), ("unary", k.isUnary)]

def nodeKinds : Report :=
  record [("values", ints (NodeKind.table.map (·.1.code))), ("strings", texts (NodeKind.table.map (·.2)))]

/-- A comparison with its outcomes. -/
def comparison (c : Comparison) (known : Bool) (outcomes : List Bool) : Report :=
  record [("value", c.code), ("found", known), ("string", c.name), ("results", each bool outcomes)]

def params : Params → Report
  | .none => null
  | .constant values scalar =>
    record [("constant", record [("values", each float values), ("scalar", scalar.name),
      ("dtype", (constantType values scalar).name)])]
  | .compare c => record [("compare", c.name)]
  | .swizzle s => record [("swizzle", s), ("components", optional nats (selectorComponents? s))]
  | .combine n => record [("combine", n)]
  | .math e inputs => record [("math", list [text e, texts inputs])]
  | .texture name dim => record [("texture", list [text name, int dim])]
  | .field dim resolution => record [("field", ints [dim, resolution])]

/-- The index of the node of an identity, -1 if there is none. -/
def indexOf (g : Graph) (id : NodeId) : Int := ((g.nodeOf? id).map (·.index)).getD (-1)

def port (g : Graph) (p : Port) : Report :=
  record [("id", p.id), ("node", indexOf g p.owner), ("dir", p.direction.name), ("index", p.index),
    ("name", p.name), ("type", p.type.text), ("required", p.spec.required), ("arm", p.arm),
    ("edges", ints p.edges), ("connected", p.isConnected)]

def edge (e : Edge) : Report := list [int e.id, int e.source, int e.target, text e.type.text]

def node (n : Node) : Report :=
  record [("id", id n.id), ("index", n.index), ("name", n.name), ("op", n.kind.name),
    ("string", n.text), ("params", params n.params), ("domain", n.domain.text),
    ("inputs", ints n.inputs), ("outputs", ints n.outputs)]

def roots (g : Graph) : Report :=
  ints (g.roots.filterMap fun i => (g.nodes[i]?).map (·.index))

def graph (g : Graph) : Report :=
  record [("nodes", each node g.nodes.toList), ("ports", each (port g) g.ports.toList),
    ("edges", each edge g.edges.toList), ("roots", roots g)]

/-- The counts of nodes, ports and edges. -/
def size (g : Graph) : Report := nats [g.nodes.size, g.ports.size, g.edges.size]

def buildError (e : BuildError) : Report := error "build" e.message

/-- The node a building step makes. -/
def madeNode (make : Build Nat) : Build Report := do
  let n ← Build.nodeAt (← make)
  return record [("node", n.index), ("id", id n.id), ("string", n.text)]

/-- The edge a building step makes. -/
def madeEdge (make : Build EdgeId) : Build Report := return record [("edge", ← make)]

/-- Sealing the builder. -/
def sealing : Build Report := do
  let _ ← Build.finish
  return "ok"

def validation (g : Graph) : Report :=
  match g.validate with
  | .ok () => "ok"
  | .error e => error "validate" e.message

/-- What feeds an input port. -/
def producer (port : PortId) : Build Report := do
  match ← Build.read fun g => g.producer port with
  | none => return record [("port", noPort), ("found", false), ("node", int (-1))]
  | some p =>
    let owner ← Build.read fun g => found (g.owner? p)
    return record [("port", p), ("found", true), ("node", owner.index)]

/-- What an output port feeds. -/
def consumers (port : PortId) : Build Report := do
  return optional ints (← Build.read fun g => g.consumers port)

/-- The ports of a node by name. -/
def portsNamed (position : Nat) (input output : String) : Build Report := do
  let n ← Build.nodeAt position
  let i ← Build.read fun g => g.inputNamed n input
  let o ← Build.read fun g => g.outputNamed n output
  return record [("input", i), ("output", o)]

end NodeShader.Report

/-!
## Reports of analyses

Type resolution, branch labels and schedules of a graph. A graph with references that point nowhere
has no analysis.
-/

namespace NodeShader.Report

/-- An analysis of a graph, unless its references point nowhere. -/
def onClosed (g : Graph) (analysis : Report) : Report :=
  if g.closed then analysis else crash Fault.dangling.message

def typeNames (a : TypeAssignment) : Report := texts (a.toList.map (·.name))

def typingStats (s : TypingStats) : Report :=
  record [("constraints", s.constraints), ("propagations", s.propagations),
    ("search_nodes", s.searchNodes)]

def check (g : Graph) (a : TypeAssignment) : Option Report :=
  match g.checkTypes a with
  | .ok () => none
  | .error e => some (failure (.ofCheck e))

/-- The domains left by propagation, and the types found by the search. -/
def resolution (g : Graph) (budget : Int) : Report :=
  match g.constraints with
  | .error e => crash (Failure.ofTyping (.constraints e)).message
  | .ok _ =>
    let narrowed :=
      match g.narrowTypes with
      | .ok d => texts (d.toList.map (·.text))
      | .error e => failure (.ofTyping e)
    let (result, stats) := g.resolveTypes budget
    let found :=
      match result with
      | .ok a => [("types", typeNames a), ("check", (check g a).getD null)]
      | .error e => [("types", failure (.ofTyping e))]
    record ([("narrow", narrowed), ("stats", typingStats stats)] ++ found)

def checking (g : Graph) (a : TypeAssignment) : Report :=
  (check g a).getD (record [("ok", true)])

def schedule (g : Graph) (nodes : List Nat) : Report :=
  match g.schedule nodes with
  | .ok order => record [("order", nats order)]
  | .error e => failure (.cycle e)

def region (r : Region) : Report :=
  let arms := r.arms.mergeSort fun a b => a.1 ≤ b.1
  record [("nodes", nats r.shared), ("all", nats r.all),
    ("arms", each (fun (b, lists) => list [b, each nats lists]) arms)]

/-- An order of identities as positions, -1 for one that is not in the graph. -/
def positions (g : Graph) (order : List NodeId) : Report :=
  each (fun id => (g.position? id).elim (int (-1)) fun i => int i) order

/-- The labels of a stage, its schedule or the order given instead, and the region of that. -/
def labels (l : Labels) (order : Option (List NodeId)) : Report :=
  let found := l.label
  let tags := (List.range found.tags.size).map found.sortedTags
  let folded := found.nodes.filterMap fun i => (found.foldedArm? i).map (i, ·)
  let scheduled : Except CycleError (List NodeId) :=
    match order with
    | some order => .ok order
    | none => (l.graph.schedule l.nodes).map (List.map l.idAt)
  let rest :=
    match scheduled with
    | .error e => [("schedule", failure (.cycle e))]
    | .ok order =>
      let split :=
        match l.decompose order with
        | .ok r => region r
        | .error e => error "error" e.message
      [("schedule", positions l.graph order), ("region", split)]
  record ([("tags", each (fun ts => texts (ts.map fun t => tagText (l.idAt t.node) t.arm)) tags),
    ("nodes", nats found.nodes), ("pruned", nats found.pruned),
    ("boundaries", nats found.boundaries),
    ("folded", each (fun (i, arm) => list [int i, int arm]) folded)] ++ rest)

end NodeShader.Report
