import NodeShader.Compile.Basic
import NodeShader.Report.Graph
import NodeShader.Report.Metal

/-!
# Reports of compilations
-/

namespace NodeShader.Report

/-- Which parts of a report are wanted beyond the usual ones. -/
structure Wanted where
  vertex : Bool
  words : Bool

def field (f : Field) : Report :=
  record [("dim", f.dim), ("resolution", f.resolution), ("local_size", ints f.localSize),
    ("dispatch", optional ints f.dispatchSize?)]

/-- The fields that tell what a stage is, given the stages that depend on it. -/
def stageFields (s : Stage) (dependants : List Nat) : List (String × Report) :=
  [("id", id s.id), ("kind", s.kind.name), ("domain", s.domain.text), ("string", s.text),
    ("dependencies", nats s.dependencies), ("dependants", nats dependants), ("nodes", nats s.nodes),
    ("field", optional field s.field)]

def disassembly (words : List UInt32) : Report :=
  match Spirv.Module.parse words with
  | .ok m => text m.text
  | .error e => failure (.malformed e)

/-- Results with the nodes they come from, by identifier. -/
def origins (b : Body) : Report :=
  each (fun (id, node) => list [int (UInt32.toNat id), int (node : Nat)])
    (b.origins.mergeSort fun x y => x.1 ≤ y.1)

def optionalNat (n : Option Nat) : Report := optional (fun (n : Nat) => int n) n

def shaderBinding (b : ShaderBinding) : Report :=
  let r := b.resource
  record [("name", r.name), ("class", r.kind.name), ("node", optionalNat r.node), ("dim", r.dim),
    ("format", r.format), ("msl_name", b.reflected.name), ("msl_type", b.reflected.format),
    ("members", each member b.reflected.members), ("set", r.set), ("binding", r.slot),
    ("location", r.location), ("index", b.reflected.index), ("access", b.reflected.kind.access),
    ("builtin", b.reflected.builtIn)]

def shader (w : Wanted) (s : Shader) : Report :=
  let summary : List (String × Report) :=
    [("model", s.body.model.name), ("num_words", s.body.words.length)]
  if s.body.model = .vertex && !w.vertex then record summary
  else
    let words : List (String × Report) :=
      if w.words then [("words", bytes (Spirv.bytesOfWords s.body.words))] else []
    record (summary ++
      [("bindings", each shaderBinding s.bindings),
        ("local_size", each (fun (w : UInt32) => w) s.localSize),
        ("spirv", disassembly s.body.words), ("msl", s.source), ("origins", origins s.body)] ++ words)

def compiledStage (w : Wanted) (c : Compilation) (s : CompiledStage) : Report :=
  record (stageFields s.stage (c.dependants s) ++
    [("hash", bytes s.hash), ("shaders", each (shader w) s.shaders)])

def compilation (w : Wanted) (c : Compilation) : Report :=
  let last := c.stages.getLast?.map (·.stage.root)
  record [("root", c.root), ("types", typeNames c.types), ("stats", typingStats c.stats),
    ("pruned", nats c.pruned), ("stages", each (compiledStage w c) c.stages),
    ("root_stage_is_last", (c.stageOf? c.root).map (·.stage.root) == last)]

/-- A failure to compile; one that is not classified stopped the compiler. -/
def compileFailure (f : Failure) : Report :=
  match f.classification? with
  | some _ => failure f
  | none => crash f.message

/-- A compilation or why there is none. -/
def compile (w : Wanted) (g : Graph) (root : NodeId) (o : Options) : Report :=
  match g.compile root o with
  | .ok c => compilation w c
  | .error f => compileFailure f

def resource (r : Resource) : Report :=
  record [("name", r.name), ("class", r.kind.name), ("access", r.kind.access),
    ("bound", r.kind.isBound), ("variable", r.variable_), ("node", optionalNat r.node),
    ("dim", r.dim), ("dtype", r.type.name), ("format", r.format), ("set", r.set),
    ("binding", r.slot), ("location", r.location), ("builtin", r.builtIn)]

def body (b : Body) : Report :=
  record [("model", b.model.name), ("spirv", disassembly b.words),
    ("resources", each resource b.resources), ("origins", origins b)]

/-- The code of one stage, from types to bodies. -/
def generated (w : Wanted) (l : Labels) (fold : Bool) : Report :=
  let result : Except Failure Stage := do
    let types ← (l.graph.resolveTypes 0).1.mapError .ofTyping
    let order ← (l.graph.schedule l.nodes).mapError .cycle
    let region ← (l.decompose (order.map l.idAt)).mapError fun e => .plain e.message
    StagePlan.generate { labels := l, types, order, region, foldConstants := fold }
  match result with
  | .error f => failure f
  | .ok s =>
    let bodies := s.bodies.filter fun b => w.vertex || b.model != .vertex
    record (stageFields s [] ++ [("bodies", each body bodies)])

end NodeShader.Report
