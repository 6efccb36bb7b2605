import NodeShader.Config.Read
import NodeShader.Disk
import NodeShader.GraphFile.Block

/-!
# Graphs from files

All nodes are made first and then connected, so a block may refer to one that follows it. A file with
a problem gives no graph, but all the problems of the step that found one: reading the text, decoding
its contents, making nodes, connecting them.
-/

namespace NodeShader

/-- A graph read from a file. -/
structure GraphFile where
  graph : Graph
  /-- The selected node; the zero identity when none is. -/
  output : NodeId
  /-- The identities of the nodes by name, in the order of the file. -/
  nodes : List (String × NodeId)
  options : GraphFile.FileOptions

namespace GraphFile

/-- Why a file gives no graph. -/
inductive Error where
  | malformed
  | content (problems : List Problem)
  | graph (problems : List Problem)

/-- The step that failed and the problems it found. -/
def Error.message : Error → String
  | malformed => "failed to parse graph file"
  | content ps => s!"failed to decode graph file: {listed ps}"
  | graph ps => s!"invalid graph file: {listed ps}"
where
  listed (ps : List Problem) : String := ", ".intercalate (ps.map Problem.message)

/-! ### Nodes -/

/-- A node that was made, and its position. -/
structure Placed where
  draft : NodeDraft
  position : Nat

/-- A graph under construction from blocks. -/
structure Assembly where
  builder : Builder
  placed : List Placed
  problems : List Problem

namespace Assembly

def empty : Assembly := ⟨.new, [], []⟩

def tell (a : Assembly) (problems : List Problem) : Assembly :=
  { a with problems := a.problems ++ problems }

/-- The node of a name. -/
def named? (a : Assembly) (name : String) : Option Placed :=
  a.placed.find? fun p => p.draft.name == name

/-- Makes the node of a block, unless one of its name was made. -/
def addBlock (a : Assembly) (b : NodeBlock) : Assembly :=
  if (a.named? b.name).isSome then a.tell [.duplicateNode b.name b.heading]
  else
    match b.draft with
    | .error problems => a.tell problems
    | .ok d =>
      match (Build.nodeWithId d.id d.name d.kind d.params).run.run a.builder with
      | (.ok position, builder) => { a with builder, placed := a.placed ++ [⟨d, position⟩] }
      | (.error e, builder) => { a with builder }.tell [.node b.name e b.heading]

/-! ### Connections -/

/-- The name of a node's first output. -/
def firstOutput? (a : Assembly) (p : Placed) : Option String := do
  let node ← a.builder.graph.nodes[p.position]?
  let port ← a.builder.graph.port? (← node.outputs.head?)
  return port.name

/-- Connects an input of a node. -/
def connect (a : Assembly) (target : Placed) (c : Connection) : Assembly :=
  match a.named? c.source with
  | none => a.tell [.unknownNode c.input target.draft.name c.source c.place]
  | some source =>
    match c.output <|> a.firstOutput? source with
    | none => a.tell [.noOutputs c.source c.place]
    | some output =>
      match (Build.connectNodes source.position output target.position c.input).run.run a.builder with
      | (.ok _, builder) => { a with builder }
      | (.error e, builder) => { a with builder }.tell [.connection e c.place]

/-- Connects all inputs of a node. -/
def connectAll (a : Assembly) (target : Placed) : Assembly :=
  target.draft.connections.foldl (fun a c => a.connect target c) a

/-- The assembly, if nothing was wrong so far. -/
def checked (a : Assembly) : Except (List Problem) Assembly :=
  match a.problems with
  | [] => .ok a
  | problems => .error problems

end Assembly

/-! ### The whole -/

/-- The node that a file selects: the one it names, or else its only render output. -/
def selected (output : String) (g : Graph) (nodes : List (String × NodeId)) :
    Except (List Problem) NodeId :=
  if output ≠ "" then
    match nodes.lookup output with
    | some id => .ok id
    | none => .error [.unknownOutput output]
  else
    match g.nodes.toList.filter fun n => n.kind.stage = .render with
    | [n] => .ok n.id
    | _ => .ok Uuid.zero

/-- The graph of the decoded contents of a file. -/
def build (c : Content) : Except (List Problem) GraphFile := do
  let made ← (c.nodes.foldl Assembly.addBlock .empty).checked
  let connected ← (made.placed.foldl Assembly.connectAll made).checked
  match (Build.finish.run.run connected.builder).1 with
  | .error e => .error [.graph e]
  | .ok graph =>
    let nodes := connected.placed.map fun p => (p.draft.name, p.draft.id)
    return { graph, output := ← selected c.output graph nodes, nodes, options := c.options }

/-- Reads a graph file. -/
def parse (source : String) : Except Error GraphFile :=
  match Config.Body.parse? source with
  | none => .error .malformed
  | some body =>
    match decoded (decodeContent body) with
    | .error problems => .error (.content problems)
    | .ok content => (build content).mapError .graph

/-- The options for compiling the graph of a file. -/
def applyOptions (f : GraphFile) (o : Options) : Options := f.options.applyTo o

/-- The identity of a named node. -/
def nodeNamed? (f : GraphFile) (name : String) : Option NodeId := f.nodes.lookup name

/-! ### Files on disk -/

/-- Why a file on disk gives no graph. -/
inductive LoadError where
  | unreadable (error : DiskError)
  | file (error : Error)

/-- The text of some bytes, if they are UTF-8 throughout. -/
def textOf? (content : List UInt8) : Option String :=
  let chars := (Text.pieces content).mapM fun
    | .scalar c => some c
    | .stray _ => none
  chars.map String.ofList

/-- Reads the graph in the contents of a file. -/
def parseBytes (content : List UInt8) : Except Error GraphFile :=
  match textOf? content with
  | some source => parse source
  | none => .error .malformed

/-- Reads the graph file at a path. -/
def load (d : Disk) (path : String) : Except LoadError GraphFile :=
  match d.read path with
  | .error e => .error (.unreadable e)
  | .ok content => (parseBytes content).mapError .file

/-- The message for a file that cannot be read. -/
def unreadableMessage (reason : String) : String := s!"failed to read graph file: {reason}"

end GraphFile

end NodeShader
