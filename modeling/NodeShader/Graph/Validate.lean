import NodeShader.Graph.Basic

/-!
# Validation of stored graphs

Checks what the builder guarantees: nodes stand at their index and are found by their identity, own
the ports they list, ports list edges attached to them, an input at most one, and edges go from an
output to an input of another node. The first violation in the order nodes, ports, edges is told.
-/

namespace NodeShader

/-- What is wrong with a stored graph. -/
inductive StructureError where
  | misplaced (node : Node) (position : Nat)
  | unknownKind (node : Node)
  | notIndexed (node : Node)
  | foreignPort (node : Node) (port : PortId)
  | orphanPort (port : Port)
  | manyEdges (port : Port) (owner : Node)
  | danglingReference (port : Port) (owner : Node) (edge : EdgeId)
  | detachedEdge (port : Port) (owner : Node) (edge : EdgeId)
  | danglingEdge (edge : Edge)
  | wrongDirection (edge : Edge) (source target : Direction)
  | selfLoop (edge : Edge) (owner : Node)

namespace StructureError

/-- A port by direction, name and owner. -/
def portText (p : Port) (owner : Node) : String :=
  s!"{p.direction.name} {Text.quote p.name} of {owner.text}"

def message : StructureError → String
  | misplaced n position =>
    s!"node {n.text} has index {n.index}, but it is stored at position {position}"
  | unknownKind n => s!"node {n.text} has an unknown kind"
  | notIndexed n => s!"node {n.text} is not indexed by its id {n.id}"
  | foreignPort n port => s!"node {n.text} references port #{port} owned by another node"
  | orphanPort p => s!"port #{p.id} {Text.quote p.name} belongs to no node"
  | manyEdges p owner =>
    s!"input {Text.quote p.name} of {owner.text} has {p.edges.length} incoming edges, at most one is allowed"
  | danglingReference p owner edge => s!"{portText p owner} references dangling edge #{edge}"
  | detachedEdge p owner edge =>
    s!"{portText p owner} references edge #{edge} which is not attached to it"
  | danglingEdge e => s!"dangling edge #{e.id} ({e.source} -> {e.target})"
  | wrongDirection e source target =>
    s!"edge #{e.id} connects a {source.name} to a {target.name}, it must go from an output to an input"
  | selfLoop e owner => s!"edge #{e.id} connects {owner.text} to itself"

end StructureError

namespace Graph

/-- Fails with `e` if the condition does not hold. -/
def require (condition : Bool) (e : StructureError) : Except StructureError Unit :=
  if condition then .ok () else .error e

def validateNode (g : Graph) (i : Nat) (n : Node) : Except StructureError Unit := do
  require (n.index == i) (.misplaced n i)
  require n.kind.isValid (.unknownKind n)
  require (g.position? n.id == some i) (.notIndexed n)
  (n.inputs ++ n.outputs).forM fun id =>
    require ((g.port? id).any fun p => p.ownerIndex == (i : Int) && p.owner == n.id) (.foreignPort n id)

def validatePort (g : Graph) (p : Port) : Except StructureError Unit :=
  match Array.at? g.nodes p.ownerIndex with
  | none => .error (.orphanPort p)
  | some owner => do
    require (p.direction != .input || p.edges.length ≤ 1) (.manyEdges p owner)
    p.edges.forM fun id =>
      match g.edge? id with
      | none => .error (.danglingReference p owner id)
      | some e => require (e.source == p.id || e.target == p.id) (.detachedEdge p owner id)

def validateEdge (g : Graph) (e : Edge) : Except StructureError Unit :=
  match g.port? e.source, g.port? e.target with
  | some source, some target => do
    require (source.direction == .output && target.direction == .input)
      (.wrongDirection e source.direction target.direction)
    match Array.at? g.nodes source.ownerIndex with
    | some owner => require (source.ownerIndex != target.ownerIndex) (.selfLoop e owner)
    | none => .error (.orphanPort source)
  | _, _ => .error (.danglingEdge e)

/-- Succeeds on consistent graphs and tells the first violation of others. -/
def validate (g : Graph) : Except StructureError Unit := do
  (g.nodes.toList.zipIdx).forM fun (n, i) => g.validateNode i n
  g.ports.toList.forM g.validatePort
  g.edges.toList.forM g.validateEdge

end Graph

end NodeShader
