import NodeShader.Config.Content
import NodeShader.Graph.Build
import NodeShader.Options

/-!
# Problems of graph files

What can be wrong with a file that is well-formed as a configuration. A problem has a summary; those
of graphs have a detail too and mostly point to a place.
-/

namespace NodeShader.GraphFile

inductive Problem where
  | config (problem : Config.Problem)
  | duplicateNode (name : String) (place : Config.Span)
  | unknownKind (name op : String) (place : Config.Span)
  | identity (name : String) (error : Uuid.ParseError) (place : Config.Span)
  | inputName (node : String) (place : Config.Span)
  | notReference (input node : String) (place : Config.Span)
  | outputByName (input node : String) (place : Config.Span)
  | tooManyParts (input node : String) (place : Config.Span)
  | scalarType (node scalar : String) (place : Config.Span)
  | operator (node operator : String) (place : Config.Span)
  | node (name : String) (error : BuildError) (place : Config.Span)
  | unknownNode (input node source : String) (place : Config.Span)
  | noOutputs (source : String) (place : Config.Span)
  | connection (error : BuildError) (place : Config.Span)
  | graph (error : BuildError)
  | unknownOutput (name : String)

namespace Problem

def summary : Problem → String
  | config p => p.summary
  | duplicateNode .. => "Duplicate node"
  | unknownKind .. => "Unknown node kind"
  | identity .. => "Invalid node id"
  | inputName .. => "Invalid input name"
  | notReference .. | outputByName .. | tooManyParts .. | noOutputs .. => "Invalid reference"
  | scalarType .. => "Invalid scalar type"
  | operator .. => "Invalid operator"
  | node .. => "Invalid node"
  | unknownNode .. => "Unknown node"
  | connection .. => "Invalid connection"
  | graph _ => "Invalid graph"
  | unknownOutput _ => "Unknown output"

/-- The kinds a node can have, as messages list them. -/
def kindList : String :=
  "[" ++ " ".intercalate ((NodeKind.table.drop 1).map fun k => Text.quote k.2) ++ "]"

def detail? : Problem → Option String
  | config _ => none
  | duplicateNode name _ => some s!"node {Text.quote name} is defined more than once"
  | unknownKind name op _ =>
    some s!"node {Text.quote name} has unknown op {Text.quote op}, valid ops are {kindList}"
  | identity name error _ => some s!"node {Text.quote name}: {error.message}"
  | inputName owner _ => some s!"input names of node {Text.quote owner} must be strings"
  | notReference input owner _ =>
    some <| s!"input {Text.quote input} of node {Text.quote owner} must reference a node output, "
      ++ "e.g. noise.out"
  | outputByName input owner _ =>
    some s!"input {Text.quote input} of node {Text.quote owner}: output must be referenced by name"
  | tooManyParts input owner _ =>
    some s!"input {Text.quote input} of node {Text.quote owner}: reference has too many parts"
  | scalarType owner scalar _ =>
    some s!"node {Text.quote owner}: {Text.quote scalar} is not a scalar type"
  | operator owner text _ => some s!"node {Text.quote owner}: unknown comparison {Text.quote text}"
  | node name error _ => some s!"node {Text.quote name}: {error.message}"
  | unknownNode input owner source _ =>
    some <| s!"input {Text.quote input} of node {Text.quote owner} references undefined node "
      ++ Text.quote source
  | noOutputs source _ => some s!"node {Text.quote source} has no outputs"
  | connection error _ => some error.message
  | graph error => some error.message
  | unknownOutput name => some s!"output references undefined node {name}"

/-- The place a problem points to. -/
def place? : Problem → Option Config.Span
  | duplicateNode _ place | inputName _ place | noOutputs _ place | connection _ place => some place
  | unknownKind _ _ place | identity _ _ place | scalarType _ _ place | operator _ _ place
  | node _ _ place | notReference _ _ place | outputByName _ _ place | tooManyParts _ _ place =>
    some place
  | unknownNode _ _ _ place => some place
  | config _ | graph _ | unknownOutput _ => none

/-- A problem on one line. -/
def message (p : Problem) : String :=
  let place := p.place?.elim "" fun s => s!"{s.start.line},{s.start.column}: "
  place ++ p.summary ++ p.detail?.elim "" fun d => s!"; {d}"

end Problem

end NodeShader.GraphFile

/-!
## Blocks of graph files

A graph file selects an output, may set options and has a block for each node. `NodeBlock.draft`
turns a block into all that is needed to make the node and its connections; it looks at nothing
but the block, so it does not matter where the block stands.
-/

namespace NodeShader.GraphFile

/-- The options a file sets. -/
structure FileOptions where
  foldConstants : Option Bool
  maxSearchNodes : Option Int
  deriving DecidableEq, Repr

/-- Options with those of a file applied. -/
def FileOptions.applyTo (f : FileOptions) (o : Options) : Options :=
  { foldConstants := f.foldConstants.getD o.foldConstants
    maxSearchNodes := f.maxSearchNodes.getD o.maxSearchNodes }

/-- A node as the file gives it: its kind, identity and inputs, and the attributes that depend on the
kind. -/
structure NodeBlock where
  name : String
  op : String
  id : Option String
  inputs : Option Config.Expr
  rest : Config.Body
  heading : Config.Span

/-- The decoded contents of a file. -/
structure Content where
  output : String
  options : FileOptions
  nodes : List NodeBlock

/-! ### Decoding -/

def fileSchema : Config.Schema := ⟨[], ["output"], [("node", ["name"]), ("options", [])]⟩

def optionsSchema : Config.Schema := ⟨[], ["fold_constants", "max_search_nodes"], []⟩

def decodeOptions (b : Config.Body) : Config.Decode FileOptions := do
  Config.Decode.tell (b.check optionsSchema)
  let fold ← b.read "fold_constants" (.optional .bool)
  let budget ← b.read "max_search_nodes" (.optional .integer)
  return ⟨fold.join, budget.join⟩

/-- The options of a file, which has at most one block of them. -/
def decodeOptionBlocks (blocks : List Config.Block) : Config.Decode FileOptions := do
  match blocks with
  | [] => return ⟨none, none⟩
  | [b] => decodeOptions b.body
  | _ =>
    Config.Decode.tell [.repeatedBlock "options"]
    return ⟨none, none⟩

/-- A node block. What is not common to all kinds of nodes is left for later. -/
def decodeNode (block : Config.Block) : Config.Decode NodeBlock := do
  let b := block.body
  if (b.attribute? "op").isNone then Config.Decode.tell [.missingAttribute]
  let op ← b.read "op" .text
  let id ← b.read "id" (.optional .text)
  return {
    name := block.labels.headD "", op := op.getD "", id := id.join, inputs := b.attribute? "inputs",
    rest := b.without ["op", "id", "inputs"], heading := block.heading }

def decodeContent (b : Config.Body) : Config.Decode Content := do
  Config.Decode.tell (b.check fileSchema)
  let output ← b.read "output" .text
  let options ← decodeOptionBlocks (b.blocksOf fileSchema "options")
  let nodes ← (b.blocksOf fileSchema "node").mapM decodeNode
  return ⟨output.getD "", options, nodes⟩

/-! ### Connections -/

/-- The connection of an input to the output of a node; without a name, to its first output. -/
structure Connection where
  input : String
  source : String
  output : Option String
  place : Config.Span

/-- A connection from the value of an input, which must be a reference. -/
def reference (node input : String) (value : Config.Expr) (place : Config.Span) : Except Problem Connection :=
  match value.path? with
  | none => .error (.notReference input node place)
  | some (source, steps) =>
    match steps with
    | [] => .ok ⟨input, source, none, place⟩
    | [.field output] => .ok ⟨input, source, some output, place⟩
    | [.index _] => .error (.outputByName input node place)
    | _ => .error (.tooManyParts input node place)

/-- The connection an item of the inputs makes. -/
def connectionOf (node : String) (item : Config.Item) : Except (List Problem) Connection :=
  match item with
  | .mk _ _ keySpan value valueSpan =>
    match item.keyValue .none with
    | (key, []) =>
      match Config.Reading.text.read key with
      | some input => (reference node input value valueSpan).mapError fun p => [p]
      | none => .error [.inputName node keySpan]
    | (_, faults) => .error (faults.map fun f => .config (.fault f))

/-- Splits results into what succeeded and all that went wrong. -/
def gather {α : Type} (rs : List (Except (List Problem) α)) : List α × List Problem :=
  rs.foldr
    (fun r (as, ps) =>
      match r with
      | .ok a => (a :: as, ps)
      | .error qs => (as, qs ++ ps)) ([], [])

/-- The connections of a block; its inputs are written as an object. -/
def NodeBlock.connections (b : NodeBlock) : Except (List Problem) (List Connection) :=
  match b.inputs with
  | none => .ok []
  | some (.object items) =>
    match gather (items.map (connectionOf b.name)) with
    | (connections, []) => .ok connections
    | (_, problems) => .error problems
  | some _ => .error [.config .notObject]

/-! ### Parameters -/

/-- The components that a combination's inputs name, in order. -/
def componentNames : List String := ["x", "y", "z", "w"]

/-- The number of components up to the last that is connected, at least two. -/
def defaultCount (connections : List Connection) : Int :=
  connections.foldl
    (fun count c =>
      match componentNames.idxOf? c.input with
      | some i => max count (i + 1)
      | none => count) 2

/-- Names in the order of their bytes, which is that of their characters. -/
def sortNames (names : List String) : List String := names.mergeSort fun a b => a ≤ b

/-- The result of reading attributes, with problems of the file. -/
def decoded {α : Type} (d : Config.Decode α) : Except (List Problem) α :=
  d.run.mapError fun ps => ps.map .config

/-- The parameters of a kind of node, from the attributes of its block. -/
def NodeBlock.params (b : NodeBlock) (kind : NodeKind) (connections : List Connection) :
    Except (List Problem) Params :=
  let check (required optional : List String) : Config.Decode Unit :=
    Config.Decode.tell (b.rest.check ⟨required, optional, []⟩)
  match kind with
  | .constant => do
    let (values, scalar) ← decoded do
      check ["values"] ["scalar"]
      let values ← b.rest.read "values" (.list .float)
      let scalar ← b.rest.read "scalar" (.optional .text)
      return (values.join.getD [], scalar.join)
    match scalar with
    | none => return .constant values .invalid
    | some s =>
      let type := ValueType.ofName s
      if !type.isValid || type.isTexture || type.size != 1 then
        throw [.scalarType b.name s b.heading]
      return .constant values type
  | .texture => decoded do
    check ["dim"] ["name"]
    let dim ← b.rest.read "dim" .integer
    let name ← b.rest.read "name" (.optional .text)
    return .texture (name.join.getD b.name) (dim.getD 0)
  | .compare => do
    let operator ← decoded do
      check ["operator"] []
      b.rest.read "operator" .text
    let operator := operator.getD ""
    match Comparison.ofName? operator with
    | some c => return .compare c
    | none => throw [.operator b.name operator b.heading]
  | .swizzle => decoded do
    check ["selector"] []
    let selector ← b.rest.read "selector" .text
    return .swizzle (selector.getD "")
  | .combine => decoded do
    check [] ["count"]
    let count ← b.rest.read "count" (.optional .integer)
    return .combine (count.join.getD (defaultCount connections))
  | .mathExpression => decoded do
    check ["expression"] ["variables"]
    let expression ← b.rest.read "expression" .text
    let listed ← b.rest.read "variables" (.list .text)
    let inputs := listed.join.getD (sortNames (connections.map (·.input)))
    return .math (expression.getD "") inputs
  | .computeField => decoded do
    check ["dim"] ["resolution"]
    let dim ← b.rest.read "dim" .integer
    let resolution ← b.rest.read "resolution" (.optional .integer)
    return .field (dim.getD 0) (resolution.join.getD 0)
  | _ => decoded do
    check [] []
    return .none

/-! ### Drafts -/

/-- A node ready to be made, and the connections of its inputs. -/
structure NodeDraft where
  id : NodeId
  name : String
  kind : NodeKind
  params : Params
  connections : List Connection
  place : Config.Span

/-- The identity of a block: the one it gives, or else one derived from its name. -/
def NodeBlock.identity (b : NodeBlock) : Except Uuid.ParseError NodeId :=
  match b.id with
  | some id => Uuid.parse id
  | none => .ok (NodeId.derive ("name:" ++ b.name))

/-- What a block says of its node, or all that is wrong with it. -/
def NodeBlock.draft (b : NodeBlock) : Except (List Problem) NodeDraft :=
  match NodeKind.ofName? b.op with
  | none | some .invalid => .error [.unknownKind b.name b.op b.heading]
  | some kind => do
    let id ← b.identity.mapError fun e => [.identity b.name e b.heading]
    let connections ← b.connections
    let params ← b.params kind connections
    return ⟨id, b.name, kind, params, connections, b.heading⟩

end NodeShader.GraphFile
