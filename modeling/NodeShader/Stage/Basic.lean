import NodeShader.Branch.Labels
import NodeShader.Spirv.Vocabulary
import NodeShader.Stage.Field
import NodeShader.Stage.ResourceClass
import NodeShader.Typing.Resolve

/-!
# Stages

A stage is the code of one root and of everything the root needs: a vertex and a fragment body for
what is rendered, one compute body for a field. Nodes are given by their positions in the graph.

A `StagePlan` is what the code is made from: the labelled nodes in order, split into the shared part
and the arms, and a type for each port.
-/

namespace NodeShader

/-- A global variable of a body, as it is declared. -/
structure Resource where
  name : String
  kind : ResourceClass
  variable_ : UInt32 := 0
  /-- The texture or field node it belongs to. -/
  node : Option Nat := none
  /-- The dimensions of an image, 0 for others. -/
  dim : Int := 0
  /-- The type of a stage input or output. -/
  type : ValueType := .invalid
  /-- The texel format of an image, the layout of a buffer, the type of a stage variable. -/
  format : String := ""
  set : Nat := 0
  slot : Nat := 0
  /-- The location of a stage input or output, -1 for built-in and bound ones. -/
  location : Int := -1
  builtIn : String := ""
  deriving DecidableEq, Inhabited

/-- A complete module with one entry point. -/
structure Body where
  model : Spirv.ExecutionModel
  words : List UInt32
  resources : List Resource
  /-- The node whose code made a result, by the identifier of the result. -/
  origins : List (UInt32 × Nat)

structure Stage where
  root : Nat
  id : NodeId
  kind : StageKind
  domain : Domain
  /-- The compute fields that are sampled. -/
  dependencies : List Nat
  nodes : List Nat
  bodies : List Body
  field : Option Field

/-- The stage as messages show it. -/
def Stage.text (s : Stage) : String :=
  s!"stage {s.id} ({s.kind.name}, domain {s.domain}, {s.nodes.length} nodes, " ++
    s!"{s.dependencies.length} dependencies)"

/-- What the code of a stage is made from. -/
structure StagePlan where
  labels : Labels
  types : TypeAssignment
  order : List Nat
  region : Region
  foldConstants : Bool

namespace StagePlan

def graph (p : StagePlan) : Graph := p.labels.graph

def root (p : StagePlan) : Nat := p.labels.root

/-- The type of a port. -/
def typeOf (p : StagePlan) (port : PortId) : ValueType := (Array.at? p.types port).getD .invalid

end StagePlan

end NodeShader
