import NodeShader.Graph.Kind
import NodeShader.Graph.Params
import NodeShader.Uuid

/-!
# Shader graphs

Nodes, their ports and the edges between ports, each in an array and referring to one another by
identifier. A graph is plain data: the builder makes only consistent ones and `Graph.validate`
tells whether stored ones are. A look-up therefore answers `none` where a reference points nowhere,
or `Fault` where the caller has no use for that.
-/

namespace NodeShader

/-- A node's identity, kept from one compilation to the next. -/
abbrev NodeId := Uuid

/-- The namespace in which the identities of nodes are derived. -/
def nodeSpace : Uuid :=
  Uuid.ofBytes [0x8a, 0x5f, 0x1c, 0x36, 0x4a, 0x35, 0x4c, 0x8f,
    0x9a, 0x3c, 0x6a, 0x0e, 0x1b, 0x1f, 0x4c, 0x52]

/-- The identity derived from a key. -/
def NodeId.derive (key : String) : NodeId := Uuid.named nodeSpace (Text.bytes key)

/-- A position in the port array, possibly outside it. -/
abbrev PortId := Int

/-- A position in the edge array, possibly outside it. -/
abbrev EdgeId := Int

/-- The reference to no port. -/
def noPort : PortId := -1

inductive Direction where
  | input
  | output
  deriving DecidableEq, Repr, Inhabited

def Direction.name : Direction → String
  | .input => "input"
  | .output => "output"

structure Node where
  id : NodeId
  index : Int
  name : String
  kind : NodeKind
  params : Params
  inputs : List PortId
  outputs : List PortId

/-- A port of a node. `arm` numbers the arm-starting inputs of the node and is -1 elsewhere. -/
structure Port where
  id : PortId
  owner : NodeId
  ownerIndex : Int
  direction : Direction
  index : Nat
  arm : Int
  spec : PortSpec
  edges : List EdgeId

/-- An edge from an output port to an input port, with the types both admit. -/
structure Edge where
  id : EdgeId
  source : PortId
  target : PortId
  type : TypeSet

structure Graph where
  nodes : Array Node
  ports : Array Port
  edges : Array Edge
  /-- The position of each node by its identity. -/
  positions : List (NodeId × Nat)

/-- A reference in a graph that points nowhere. -/
inductive Fault where
  | dangling
  deriving DecidableEq, Repr

def Fault.message : Fault → String
  | .dangling => "runtime error"

/-- The element at a position, if there is one. -/
def Array.at? {α : Type} (xs : Array α) : Int → Option α
  | .ofNat n => xs[n]?
  | .negSucc _ => none

/-- A found element, or the fault of not finding it. -/
def found {α : Type} : Option α → Except Fault α
  | some a => .ok a
  | none => .error .dangling

/-- The node as messages show it. -/
def Node.text (n : Node) : String :=
  if n.name = "" then s!"{n.kind} #{n.index}"
  else s!"{n.kind} {Text.quote n.name} (#{n.index})"

def Node.domain (n : Node) : Domain := n.kind.domain

def Port.name (p : Port) : String := p.spec.name

def Port.type (p : Port) : TypeSet := p.spec.type

def Port.isConnected (p : Port) : Bool := !p.edges.isEmpty

namespace Graph

def empty : Graph := ⟨#[], #[], #[], []⟩

instance : Inhabited Graph := ⟨empty⟩

def port? (g : Graph) (id : PortId) : Option Port := Array.at? g.ports id

def edge? (g : Graph) (id : EdgeId) : Option Edge := Array.at? g.edges id

/-- The position of the node of an identity. -/
def position? (g : Graph) (id : NodeId) : Option Nat := g.positions.lookup id

/-- The node of an identity. -/
def nodeOf? (g : Graph) (id : NodeId) : Option Node := (g.position? id).bind (g.nodes[·]?)

/-- The position of the node that owns a port. -/
def ownerPosition? (g : Graph) (id : PortId) : Option Nat := do
  let p ← g.port? id
  let n := p.ownerIndex.toNat
  if 0 ≤ p.ownerIndex ∧ n < g.nodes.size then some n else none

/-- The node that owns a port. -/
def owner? (g : Graph) (id : PortId) : Option Node := (g.ownerPosition? id).bind (g.nodes[·]?)

/-- The output port that feeds an input port, if any. -/
def producer (g : Graph) (input : PortId) : Except Fault (Option PortId) :=
  match g.port? input with
  | none => .ok none
  | some p =>
    if p.direction ≠ .input then .ok none
    else
      match p.edges with
      | [] => .ok none
      | e :: _ => (found (g.edge? e)).map fun e => some e.source

/-- The output port that feeds an input port, with dangling references taken for none. -/
def producer? (g : Graph) (input : PortId) : Option PortId :=
  match g.producer input with
  | .ok output => output
  | .error _ => none

/-- The position of the node that feeds an input port. -/
def producerPosition? (g : Graph) (input : PortId) : Option Nat :=
  (g.producer? input).bind g.ownerPosition?

/-- The input ports that an output port feeds, in order of connection; `none` for other ports. -/
def consumers (g : Graph) (output : PortId) : Except Fault (Option (List PortId)) :=
  match g.port? output with
  | none => .ok none
  | some p =>
    if p.direction ≠ .output then .ok none
    else (p.edges.mapM fun e => (found (g.edge? e)).map (·.target)).map some

/-- The positions of the stage roots. -/
def roots (g : Graph) : List Nat :=
  (List.range g.nodes.size).filter fun i => (g.nodes[i]?.map (·.kind.isRoot)).getD false

/-- The first port of a list that has the name. -/
def findPort (g : Graph) (ports : List PortId) (name : String) : Except Fault PortId :=
  match ports with
  | [] => .ok noPort
  | p :: rest => do
    let port ← found (g.port? p)
    if port.name = name then return p else g.findPort rest name

/-- The input of a node that has the name, `noPort` if none has. -/
def inputNamed (g : Graph) (n : Node) (name : String) : Except Fault PortId :=
  g.findPort n.inputs name

/-- The output of a node that has the name, `noPort` if none has. -/
def outputNamed (g : Graph) (n : Node) (name : String) : Except Fault PortId :=
  g.findPort n.outputs name

/-- Whether every reference between ports, edges and nodes is in range. -/
def closed (g : Graph) : Bool :=
  g.nodes.all (fun n => (n.inputs ++ n.outputs).all fun p => (g.port? p).isSome)
    && g.ports.all (fun p =>
      0 ≤ p.ownerIndex && p.ownerIndex < g.nodes.size && p.edges.all fun e => (g.edge? e).isSome)
    && g.edges.all fun e => (g.port? e.source).isSome && (g.port? e.target).isSome

end Graph

end NodeShader

/-!
## Reachability

A breadth-first walk over positions. The walk keeps the positions it has not met yet, so it ends:
each step either meets a new one or shortens the queue.
-/

namespace NodeShader

/-- The positions of `unmet` that are not in `met`. -/
def without (unmet met : List Nat) : List Nat := unmet.filter fun j => !met.contains j

/-- The positions met from `queue`, after those of `visited`, in order of discovery. Only positions
in `unmet` are met. -/
def walk (next : Nat → List Nat) (unmet queue visited : List Nat) : List Nat :=
  match queue with
  | [] => visited
  | i :: rest =>
    match _hf : ((next i).filter unmet.contains).eraseDups with
    | [] => walk next unmet rest visited
    | x :: fresh =>
      walk next (without unmet (x :: fresh)) (rest ++ x :: fresh) (visited ++ x :: fresh)
termination_by (unmet.length, queue.length)
decreasing_by
  · exact Prod.Lex.right _ (by simp)
  · apply Prod.Lex.left
    apply List.length_filter_lt_length_iff_exists.2
    refine ⟨x, ?_, by simp⟩
    have hx : x ∈ ((next i).filter unmet.contains).eraseDups := by rw [_hf]; simp
    rw [List.mem_eraseDups] at hx
    simpa using (List.mem_filter.1 hx).2

/-- The positions below `size` reached from `start` along `next`, in order of discovery. -/
def reach (size : Nat) (next : Nat → List Nat) (start : List Nat) : List Nat :=
  let start := (start.filter (· < size)).eraseDups
  walk next (without (List.range size) start) start start

namespace Graph

/-- The positions of the nodes that feed a node, one for each connected input, in input order. -/
def sources (g : Graph) (n : Node) : List Nat := n.inputs.filterMap g.producerPosition?

/-- The positions of the nodes that a node feeds, one for each edge, in output and edge order. -/
def sinks (g : Graph) (n : Node) : List Nat :=
  n.outputs.flatMap fun p =>
    match g.consumers p with
    | .ok (some ports) => ports.filterMap g.ownerPosition?
    | _ => []

end Graph

end NodeShader
