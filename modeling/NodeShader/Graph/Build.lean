import NodeShader.Graph.Validate

/-!
# Building graphs

A builder grows a graph by nodes and edges and refuses what would make it inconsistent; a refused
step changes nothing. The steps that make a node and connect it may stop in between, so a `Build`
keeps the state it reached when it fails.
-/

namespace NodeShader

/-- Why a builder refuses a step. -/
inductive BuildError where
  | closed
  | builtTwice
  | kind (kind : NodeKind)
  | kindName (name : String)
  | identity (error : Uuid.ParseError)
  | usedId (id : NodeId) (owner : Node)
  | paramsType (kind : NodeKind) (expected given : String)
  | noParams (kind : NodeKind) (given : String)
  | valueCount (count : Nat)
  | constantType (scalar : ValueType) (count : Nat)
  | textureDim (name : String) (dim : Int)
  | selector (selector : String)
  | combineCount (count : Int)
  | variableName (position : Nat) (name : String)
  | fieldDim (dim : Int)
  | fieldResolution (resolution : Int)
  | unknownPorts (source target : PortId)
  | direction (source target : Port)
  | selfLoop (node : Node)
  | connected (input : Port) (node : Node)
  | types (output : Port) (source : Node) (input : Port) (target : Node)
  | noOutput (node : Node) (name : String)
  | noInput (node : Node) (name : String)
  | notBinary (kind : NodeKind)
  | notUnary (kind : NodeKind)
  | structural (error : StructureError)
  | fault (fault : Fault)

namespace BuildError

/-- The reason without the part that names the builder; `none` where that part is not written. -/
def detail? : BuildError → Option String
  | closed => some "graph already built, no more changes allowed"
  | builtTwice => some "Build called more than once"
  | kind k => some s!"invalid node kind {k}"
  | usedId id owner => some s!"node id {id} already used by {owner.text}"
  | paramsType k expected given =>
    some s!"node kind {k} requires parameters of type {expected}, got {given}"
  | noParams k given => some s!"node kind {k} takes no parameters, got {given}"
  | valueCount n => some s!"constant must have 1 to 4 values, got {n}"
  | constantType scalar n => some s!"constant of scalar {scalar} with {n} values is not supported"
  | textureDim name dim => some s!"texture {Text.quote name} has invalid dimension {dim}"
  | selector s => some s!"invalid swizzle selector {Text.quote s}"
  | combineCount n => some s!"combine of {n} components is not supported, it takes 2 to 4"
  | variableName i name =>
    some s!"math expression variable #{i} has empty or duplicate name {Text.quote name}"
  | fieldDim dim => some s!"compute field has invalid dimension {dim}"
  | fieldResolution r => some s!"compute field has invalid resolution {r}"
  | unknownPorts source target => some s!"connect({source}, {target}) references unknown ports"
  | direction source target =>
    some <| "edges must go from an output to an input port, got "
      ++ s!"{source.direction.name} {Text.quote source.name} -> "
      ++ s!"{target.direction.name} {Text.quote target.name}"
  | selfLoop n => some s!"node {n.text} can't be connected to itself"
  | connected input n => some s!"input {Text.quote input.name} of {n.text} is already connected"
  | types output source input target =>
    some <| s!"can't connect output {Text.quote output.name} of {source.text} ({output.type}) to "
      ++ s!"input {Text.quote input.name} of {target.text} ({input.type})"
  | noOutput n name => some s!"{n.text} has no output named {Text.quote name}"
  | noInput n name => some s!"{n.text} has no input named {Text.quote name}"
  | notBinary k => some s!"{k} is not a binary operation"
  | notUnary k => some s!"{k} is not a unary operation"
  | kindName _ | identity _ | structural _ | fault _ => none

def message (e : BuildError) : String :=
  match e with
  | kindName name => NodeKind.unknownName name
  | identity error => error.message
  | structural error => error.message
  | fault f => f.message
  | _ => "graph.Builder: " ++ e.detail?.getD ""

end BuildError

/-- The vector types a combination can have. -/
def combineType : TypeSet := TypeSet.anyNumeric.filter ValueType.isVector

/-- The inputs of a math expression, one for each variable; names are distinct and not empty. -/
def variablePorts (names : List String) : Except BuildError (List PortSpec) :=
  (names.zipIdx).mapM fun (name, i) =>
    if name = "" ∨ (names.take i).contains name then .error (.variableName i name)
    else .ok ⟨name, .anyFloating, false, false⟩

/-- The inputs and outputs of a node with the given parameters. -/
def portSpecs (kind : NodeKind) (params : Params) :
    Except BuildError (List PortSpec × List PortSpec) :=
  let wrong (expected : String) : BuildError := .paramsType kind expected params.typeName
  match kind with
  | .constant =>
    match params with
    | .constant values scalar =>
      let type := constantType values scalar
      if values.length < 1 ∨ 4 < values.length then .error (.valueCount values.length)
      else if !type.isValid || type.isTexture then .error (.constantType scalar values.length)
      else .ok ([], NodeKind.outPort (.singleton type))
    | _ => .error (wrong "graph.ConstantParams")
  | .texture =>
    match params with
    | .texture name dim =>
      if dim < 1 ∨ 3 < dim then .error (.textureDim name dim)
      else .ok ([], NodeKind.outPort (.singleton (ValueType.texture1D.withSize dim)))
    | _ => .error (wrong "graph.TextureParams")
  | .compare =>
    match params with
    | .compare _ => .ok (kind.inputs, kind.outputs)
    | _ => .error (wrong "graph.CompareParams")
  | .swizzle =>
    match params with
    | .swizzle selector =>
      if (selectorComponents? selector).isNone then .error (.selector selector)
      else .ok (kind.inputs, kind.outputs)
    | _ => .error (wrong "graph.SwizzleParams")
  | .combine =>
    match params with
    | .combine count =>
      if count < 2 ∨ 4 < count then .error (.combineCount count)
      else
        .ok ((["x", "y", "z", "w"].take count.toNat).map fun name =>
          ⟨name, .anyNumeric, false, false⟩, NodeKind.outPort combineType)
    | _ => .error (wrong "graph.CombineParams")
  | .mathExpression =>
    match params with
    | .math _ inputs =>
      (variablePorts inputs).map fun ports => (ports, NodeKind.outPort .anyFloating)
    | _ => .error (wrong "graph.MathExpressionParams")
  | .computeField =>
    match params with
    | .field dim resolution =>
      if dim < 1 ∨ 3 < dim then .error (.fieldDim dim)
      else if resolution < 0 then .error (.fieldResolution resolution)
      else
        .ok ([⟨"value", .anyFloat, true, false⟩],
          [⟨"field", .singleton (ValueType.texture1D.withSize dim), false, false⟩])
    | _ => .error (wrong "graph.ComputeFieldParams")
  | _ =>
    if params.isNone then .ok (kind.inputs, kind.outputs)
    else .error (.noParams kind params.typeName)

namespace Graph

/-- The number of arm-starting ports among the first `i`. -/
def armsBefore (specs : List PortSpec) (i : Nat) : Nat := (specs.take i).countP (·.startsArm)

/-- The ports of a new node at position `position`, the first with identifier `first`. -/
def newPorts (id : NodeId) (position first : Nat) (direction : Direction) (specs : List PortSpec) :
    List Port :=
  specs.zipIdx.map fun (spec, i) =>
    { id := (first + i : Nat), owner := id, ownerIndex := position, direction, index := i,
      arm := if direction = .input ∧ spec.startsArm then armsBefore specs i else -1,
      spec, edges := [] }

/-- Adds a node with its ports at the end. -/
def addNode (g : Graph) (id : NodeId) (name : String) (kind : NodeKind) (params : Params) :
    Except BuildError Graph :=
  if !kind.isValid then .error (.kind kind)
  else
    match g.nodeOf? id with
    | some owner => .error (.usedId id owner)
    | none => do
      let (inputs, outputs) ← portSpecs kind params
      let position := g.nodes.size
      let first := g.ports.size
      let inPorts := newPorts id position first .input inputs
      let outPorts := newPorts id position (first + inputs.length) .output outputs
      let node : Node :=
        { id, index := position, name, kind, params,
          inputs := inPorts.map (·.id), outputs := outPorts.map (·.id) }
      return { g with
        nodes := g.nodes.push node
        ports := g.ports ++ inPorts ++ outPorts
        positions := (id, position) :: g.positions }

/-- Appends an edge to what a port lists. -/
def attach (ports : Array Port) (port : PortId) (edge : EdgeId) : Array Port :=
  ports.modify port.toNat fun p => { p with edges := p.edges ++ [edge] }

/-- Adds an edge from an output port to an unconnected input port of another node that admits a
common type. -/
def connect (g : Graph) (source target : PortId) : Except BuildError Graph :=
  match g.port? source, g.port? target with
  | some output, some input => do
    let owner (id : PortId) : Except BuildError Node :=
      match g.owner? id with
      | some n => .ok n
      | none => .error (.fault .dangling)
    if output.direction ≠ .output ∨ input.direction ≠ .input then
      throw (.direction output input)
    if output.owner = input.owner then
      throw (.selfLoop (← owner source))
    if input.isConnected then
      throw (.connected input (← owner target))
    let type := output.type.inter input.type
    if type.isEmpty then
      throw (.types output (← owner source) input (← owner target))
    let id : EdgeId := g.edges.size
    return { g with
      edges := g.edges.push { id, source, target, type }
      ports := attach (attach g.ports source id) target id }
  | _, _ => .error (.unknownPorts source target)

end Graph

/-- A graph under construction; `sealed` once it is built. -/
structure Builder where
  graph : Graph
  isSealed : Bool

def Builder.new : Builder := ⟨.empty, false⟩

/-- A step of building, which keeps the state it reached when it fails. -/
abbrev Build := ExceptT BuildError (StateM Builder)

namespace Build

/-- Replaces the graph by the result of a change, or fails and keeps it. -/
def change (f : Graph → Except BuildError Graph) : Build Unit := do
  let b ← get
  if b.isSealed then throw .closed
  match f b.graph with
  | .ok g => set { b with graph := g }
  | .error e => throw e

/-- Reads from the graph; a dangling reference fails the step. -/
def read {α : Type} (f : Graph → Except Fault α) : Build α := do
  match f (← get).graph with
  | .ok a => pure a
  | .error e => throw (.fault e)

/-- The node at a position. -/
def nodeAt (position : Nat) : Build Node := read fun g => found g.nodes[position]?

/-- Adds a node with a given identity and gives its position. -/
def nodeWithId (id : NodeId) (name : String) (kind : NodeKind) (params : Params) : Build Nat := do
  let position := (← get).graph.nodes.size
  change fun g => g.addNode id name kind params
  return position

/-- Adds a node whose identity is derived from its position. -/
def node (kind : NodeKind) (params : Params) : Build Nat := do
  nodeWithId (NodeId.derive s!"node#{(← get).graph.nodes.size}") "" kind params

/-- Adds a node whose identity is derived from its name. -/
def namedNode (name : String) (kind : NodeKind) (params : Params) : Build Nat :=
  nodeWithId (NodeId.derive ("name:" ++ name)) name kind params

/-- Adds an edge between two ports and gives its identifier. -/
def connect (source target : PortId) : Build EdgeId := do
  let id := (← get).graph.edges.size
  change fun g => g.connect source target
  return id

/-- Connects the named output of a node to the named input of another. -/
def connectNodes (source : Nat) (output : String) (target : Nat) (input : String) :
    Build EdgeId := do
  let src ← nodeAt source
  let dst ← nodeAt target
  let out ← read fun g => g.outputNamed src output
  let inp ← read fun g => g.inputNamed dst input
  if out = noPort then throw (.noOutput src output)
  if inp = noPort then throw (.noInput dst input)
  connect out inp

/-- Adds a float constant. -/
def constant (values : List Float) : Build Nat := node .constant (.constant values .invalid)

/-- Connects the first output of a node to input number `i` of another. -/
def feed (source target i : Nat) : Build Unit := do
  let out ← read fun g => do found (← found g.nodes[source]?).outputs.head?
  let inp ← read fun g => do found (← found g.nodes[target]?).inputs[i]?
  let _ ← connect out inp

/-- Adds a binary node fed by the first outputs of two nodes. -/
def binary (kind : NodeKind) (x y : Nat) : Build Nat := do
  if !kind.isBinary && kind != .dot then throw (.notBinary kind)
  let n ← node kind .none
  feed x n 0
  feed y n 1
  return n

/-- Adds a unary node fed by the first output of a node. -/
def unary (kind : NodeKind) (x : Nat) : Build Nat := do
  if !kind.isUnary && kind != .length then throw (.notUnary kind)
  let n ← node kind .none
  feed x n 0
  return n

/-- Seals the builder and validates its graph. -/
def finish : Build Graph := do
  let b ← get
  if b.isSealed then throw .builtTwice
  set { b with isSealed := true }
  match b.graph.validate with
  | .ok () => return b.graph
  | .error e => throw (.structural e)

/-- The graph that a sequence of steps builds from nothing. -/
def graph {α : Type} (steps : Build α) : Except BuildError Graph :=
  ((do let _ ← steps; finish : Build Graph).run.run Builder.new).1

end Build

end NodeShader
