import NodeShader.Graph.Basic

/-!
# Unchecked edits

Changes to single fields of a graph with no regard to its consistency, such as a damaged store would
show. They serve to exercise validation.
-/

namespace NodeShader

/-- A change to one field of node, port or edge number `i`. -/
inductive GraphEdit where
  | nodeIndex | nodeKind | nodeUnindex | nodeIdOf | nodeAddInput | nodeAddOutput | nodeClearPorts
  | portOwnerIndex | portOwnerOf | portDirection | portAddEdge | portClearEdges
  | edgeSource | edgeTarget | edgeAdd | edgesClear
  deriving DecidableEq, Repr

namespace GraphEdit

/-- The edits by name. -/
def table : List (String × GraphEdit) :=
  [("node_index", nodeIndex), ("node_op", nodeKind), ("node_unindex", nodeUnindex),
    ("node_id_of", nodeIdOf), ("node_add_input", nodeAddInput), ("node_add_output", nodeAddOutput),
    ("node_clear_ports", nodeClearPorts), ("port_node_index", portOwnerIndex),
    ("port_node_of", portOwnerOf), ("port_direction", portDirection),
    ("port_add_edge", portAddEdge), ("port_clear_edges", portClearEdges),
    ("edge_from", edgeSource), ("edge_to", edgeTarget), ("edge_add", edgeAdd),
    ("edges_clear", edgesClear)]

def ofName? (name : String) : Option GraphEdit := table.lookup name

end GraphEdit

namespace Graph

/-- Changes the node at a position; `none` if there is none. -/
def editNode (g : Graph) (i : Int) (f : Node → Node) : Option Graph :=
  (Array.at? g.nodes i).map fun _ => { g with nodes := g.nodes.modify i.toNat f }

/-- Changes the port at a position; `none` if there is none. -/
def editPort (g : Graph) (i : Int) (f : Port → Port) : Option Graph :=
  (Array.at? g.ports i).map fun _ => { g with ports := g.ports.modify i.toNat f }

/-- Changes the edge at a position; `none` if there is none. -/
def editEdge (g : Graph) (i : Int) (f : Edge → Edge) : Option Graph :=
  (Array.at? g.edges i).map fun _ => { g with edges := g.edges.modify i.toNat f }

/-- Applies an edit with operands `i` and `v`; `none` if an operand is out of range. -/
def edit (g : Graph) (e : GraphEdit) (i v : Int) : Option Graph :=
  match e with
  | .nodeIndex => g.editNode i ({ · with index := v })
  | .nodeKind => g.editNode i ({ · with kind := .ofCode v })
  | .nodeUnindex => do
    let n ← Array.at? g.nodes i
    return { g with positions := g.positions.filter (·.1 != n.id) }
  | .nodeIdOf => do
    let n ← Array.at? g.nodes v
    g.editNode i ({ · with id := n.id })
  | .nodeAddInput => g.editNode i fun n => { n with inputs := n.inputs ++ [v] }
  | .nodeAddOutput => g.editNode i fun n => { n with outputs := n.outputs ++ [v] }
  | .nodeClearPorts => g.editNode i ({ · with inputs := [], outputs := [] })
  | .portOwnerIndex => g.editPort i ({ · with ownerIndex := v })
  | .portOwnerOf => do
    let n ← Array.at? g.nodes v
    g.editPort i ({ · with owner := n.id })
  | .portDirection => g.editPort i ({ · with direction := if v = 0 then .input else .output })
  | .portAddEdge => g.editPort i fun p => { p with edges := p.edges ++ [v] }
  | .portClearEdges => g.editPort i ({ · with edges := [] })
  | .edgeSource => g.editEdge i ({ · with source := v })
  | .edgeTarget => g.editEdge i ({ · with target := v })
  | .edgeAdd =>
    some { g with edges := g.edges.push { id := g.edges.size, source := i, target := v, type := .empty } }
  | .edgesClear => some { g with edges := #[] }

end Graph

end NodeShader
