import NodeShader.Graph.Basic

/-!
# Branch labels

Which nodes a stage needs, and for which arms of its conditionals. A node needed through ordinary
inputs carries the tags of its consumers; a node that feeds arm `k` of a conditional `C` carries the
tag of that arm. The walk stops at the roots of other stages, and at a conditional with a known live
arm it follows that arm alone.

A tag therefore spreads from where it starts along ordinary inputs: the root tag from the root, the
tag of an arm from the producer of that arm (`Labels.tagsOf`).
-/

namespace NodeShader

/-- The arm of the tag of the stage root. -/
def rootArm : Int := -1

/-- A mark on a node: it is needed by arm `arm` of the node at `node`, or by the root itself. -/
structure Tag where
  node : Nat
  arm : Int
  deriving DecidableEq, Repr

/-- Whether the tag is that of an arm. -/
def Tag.isArm (t : Tag) : Bool := 0 ≤ t.arm

/-- A tag by the identity of its node. -/
def tagText (id : NodeId) (arm : Int) : String :=
  if arm = rootArm then s!"root({id})" else s!"{id}[{arm}]"

/-- The only arm a branching node can take, where that is known. -/
abbrev LiveArm := Nat → Option Int

/-- Where an input of a node leads: to a producer, and the arm it starts there (-1 for none). -/
structure Feed where
  producer : Nat
  arm : Int
  deriving DecidableEq

/-- What a stage needs, seen from its root. -/
structure Labels where
  graph : Graph
  root : Nat
  live : LiveArm

namespace Labels

/-- The node at a position. -/
def node? (l : Labels) (i : Nat) : Option Node := l.graph.nodes[i]?

/-- Whether the node at a position is the root of another stage. -/
def isForeignRoot (l : Labels) (i : Nat) : Bool :=
  i != l.root && ((l.node? i).map (·.kind.isRoot)).getD false

/-- The live arm of the node at a position, for a branching node of this stage. -/
def liveArm (l : Labels) (i : Nat) : Option Int :=
  match l.node? i with
  | some n => if n.kind.isBranching then l.live i else none
  | none => none

/-- Whether a node needs an input that starts arm `arm` (-1: an ordinary input). Once a live arm is
known the condition and the other arms are not needed. -/
def needs (l : Labels) (i : Nat) (arm : Int) : Bool :=
  match l.liveArm i with
  | some live => live < 0 || arm == live
  | none => true

/-- The needed connected inputs of the node at a position, in order; none across a stage boundary. -/
def feeds (l : Labels) (i : Nat) : List Feed :=
  match l.node? i with
  | none => []
  | some n =>
    if l.isForeignRoot i then []
    else
      n.inputs.filterMap fun p => do
        let producer ← l.graph.producerPosition? p
        let port ← l.graph.port? p
        if l.needs i port.arm then some ⟨producer, port.arm⟩ else none

/-- The producers of the needed inputs. -/
def producers (l : Labels) (i : Nat) : List Nat := (l.feeds i).map (·.producer)

/-- The producers of the needed ordinary inputs: tags pass to these. -/
def ordinary (l : Labels) (i : Nat) : List Nat :=
  ((l.feeds i).filter (·.arm < 0)).map (·.producer)

/-- The nodes the stage needs, in order of discovery from the root. -/
def discovered (l : Labels) : List Nat := reach l.graph.nodes.size l.producers [l.root]

/-- The nodes the stage needs, in graph order. -/
def nodes (l : Labels) : List Nat :=
  let found := l.discovered
  (List.range l.graph.nodes.size).filter found.contains

/-- The nodes the stage does not need. -/
def pruned (l : Labels) : List Nat :=
  let found := l.discovered
  (List.range l.graph.nodes.size).filter fun i => !found.contains i

/-- The roots of other stages whose output the stage uses, in order of discovery. -/
def boundaries (l : Labels) : List Nat := l.discovered.filter l.isForeignRoot

/-- The branching nodes of the stage whose live arm is known, with that arm, in graph order. -/
def folded (l : Labels) : List (Nat × Int) :=
  l.nodes.filterMap fun i => (l.liveArm i).map (i, ·)

/-- The nodes a tag that starts at `start` spreads to. -/
def spread (l : Labels) (start : List Nat) : List Nat :=
  reach l.graph.nodes.size l.ordinary start

/-- Every tag of the stage with the nodes it is on: the root tag, then arm by arm. -/
def tagged (l : Labels) : List (Tag × List Nat) :=
  let arms := l.nodes.flatMap fun i =>
    ((l.feeds i).filter (0 ≤ ·.arm)).map fun f => (⟨i, f.arm⟩, f.producer)
  (⟨l.root, rootArm⟩, l.spread [l.root]) :: arms.map fun (tag, producer) =>
    (tag, l.spread [producer])

/-- Whether tag `a` is listed before tag `b`: by node, then by arm. -/
def tagBefore (a b : Tag) : Bool := a.node < b.node || (a.node == b.node && a.arm ≤ b.arm)

/-- The tags of each node, in order. -/
def tags (l : Labels) : Array (List Tag) :=
  let all := l.tagged
  (Array.range l.graph.nodes.size).map fun i =>
    (((all.filter fun entry => entry.2.contains i).map (·.1)).eraseDups).mergeSort tagBefore

/-- The arm in which a node with these tags is evaluated; `none` for the shared part. A folded
branch evaluates its live arm in place. -/
def home? (l : Labels) (tags : List Tag) : Option Tag :=
  match tags with
  | [tag] => if tag.isArm && (l.liveArm tag.node).isNone then some tag else none
  | _ => none

end Labels

end NodeShader

/-!
## Regions

The scheduled nodes of a stage split into the shared list, evaluated always, and one private list
for each arm of each conditional. A node whose only tag is an arm belongs to that arm; all lists keep
the order of the schedule.
-/

namespace NodeShader

/-- The lists of a stage. An arm list may hold conditionals, whose arms are listed in turn. -/
structure Region where
  shared : List Nat
  arms : List (Nat × List (List Nat))

/-- Why a schedule cannot be split. -/
inductive RegionError where
  | unlabelled (id : NodeId)
  | unscheduled (node : Node) (arm : Int) (branch : NodeId)

def RegionError.message : RegionError → String
  | unlabelled id => s!"branches: scheduled node {id} is not part of the labeled stage"
  | unscheduled n arm branch =>
    s!"branches: node {n.text} tagged with arm {arm} of {branch}, which is not scheduled"

namespace Region

/-- The arm lists of a branching node. -/
def armsOf (r : Region) (branch : Nat) : List (List Nat) := (r.arms.lookup branch).getD []

/-- The list of one arm. -/
def armNodes (r : Region) (branch arm : Nat) : List Nat := (r.armsOf branch).getD arm []

/-- The nodes in the arms of a branching node, inner arms after the list that holds them; `depth`
bounds the nesting. -/
def nested (r : Region) : Nat → Nat → List Nat
  | 0, _ => []
  | depth + 1, branch =>
    (r.armsOf branch).flatMap fun arm => arm ++ arm.flatMap (r.nested depth)

/-- Every node of the region: the shared list, then the arms. -/
def all (r : Region) : List Nat :=
  r.shared ++ r.shared.flatMap (r.nested (r.arms.length + 1))

end Region

namespace Labels

/-- The number of arms of the node at a position. -/
def armCount (l : Labels) (i : Nat) : Nat :=
  match l.node? i with
  | none => 0
  | some n => n.inputs.countP fun p => (l.graph.port? p).any fun port => 0 ≤ port.arm

/-- The identity of the node at a position. -/
def idAt (l : Labels) (i : Nat) : NodeId := ((l.node? i).map (·.id)).getD Uuid.zero

/-- The scheduled nodes as positions; an identity that is none of the stage's is refused. -/
def scheduled (l : Labels) (order : List NodeId) : Except RegionError (List Nat) :=
  let needed := l.nodes
  order.mapM fun id =>
    match l.graph.position? id with
    | some i => if needed.contains i then .ok i else .error (.unlabelled id)
    | none => .error (.unlabelled id)

/-- Whether the node at a position branches. -/
def isBranching (l : Labels) (i : Nat) : Bool :=
  ((l.node? i).map (·.kind.isBranching)).getD false

/-- Splits a schedule of the labelled nodes into the shared list and the arm lists. -/
def decompose (l : Labels) (order : List NodeId) : Except RegionError Region := do
  let order ← l.scheduled order
  let tags := l.tags
  let homes := order.map fun i => (i, l.home? (tags.getD i []))
  let branches := (order.filter l.isBranching).eraseDups
  homes.forM fun (i, home) =>
    match home, l.node? i with
    | some tag, some n =>
      if branches.contains tag.node then .ok ()
      else .error (.unscheduled n tag.arm (l.idAt tag.node))
    | _, _ => .ok ()
  let members (home : Option Tag) := (homes.filter (·.2 == home)).map (·.1)
  return {
    shared := members none
    arms := branches.map fun b =>
      (b, (List.range (l.armCount b)).map fun (arm : Nat) => members (some ⟨b, arm⟩)) }

end Labels

end NodeShader
