import NodeShader.Command.Line
import NodeShader.Command.Table
import NodeShader.Disk
import NodeShader.Evaluate.Wedge
import NodeShader.GraphFile.Build
import NodeShader.Spirv.Module
import NodeShader.Total

/-!
# Commands

Both commands compile the selected output of a graph file. `compile` lists the stages and bindings and
can show or write every shader; `wedge` tells the hash of each stage evaluated with given inputs. A
command is a list of actions, which ends early with `Action.stop` when something fails.
-/

namespace NodeShader.Command

/-- Why a command stops. -/
inductive CommandError where
  | usage (error : UsageError)
  | home (error : Path.HomeError)
  | unreadable (reason : String)
  | file (error : GraphFile.Error)
  | options (message : String)
  | unknownOutput (path name : String)
  | noOutput (path : String)
  | compile (failure : Failure)
  | model (error : Uuid.ParseError)
  | argument (text : String)
  /-- An operation on the disk, with what it was for. -/
  | disk (purpose reason : String)

def CommandError.message : CommandError → String
  | usage e => e.message
  | home e => e.message
  | unreadable reason => GraphFile.unreadableMessage reason
  | file e => e.message
  | options message => message
  | unknownOutput path name => s!"graph file {path} has no node named {Text.quote name}"
  | noOutput path => s!"graph file {path} doesn't select an output, use --output"
  | compile f => f.message
  | model e => s!"invalid --model: {e.message}"
  | argument text => s!"--arg {Text.quote text} is not in the form key=value"
  | disk purpose reason => s!"{purpose}: {reason}"

/-- One thing that a command does. -/
inductive Action where
  | print (text : String)
  | makeDirectory (path : String)
  /-- Writes a file, which is for the given purpose. -/
  | write (purpose path : String) (content : List UInt8)
  | stop (error : CommandError)

/-- What commands take from their surroundings. -/
structure Environment where
  homes : Path.Homes
  /-- The options for every compilation. -/
  options : Option String

/-! ### Compilation -/

/-- The options for a file: those of the environment, then the file's, then the flags. -/
def optionsFor (env : Environment) (a : Arguments) (f : GraphFile) : Except CommandError Options :=
  match Options.standard.ofEnvironment env.options with
  | (_, some message) => .error (.options message)
  | (o, none) =>
    let o := f.applyOptions o
    let o :=
      match a.value? "fold_constants" with
      | some (.bool b) => { o with foldConstants := b }
      | _ => o
    match a.value? "max_search_nodes" with
    | some (.int n) => .ok { o with maxSearchNodes := n }
    | _ => .ok o

/-- The output to compile: the one that a flag names, or else the file's. -/
def outputOf (path : String) (a : Arguments) (f : GraphFile) : Except CommandError NodeId := do
  let name := a.textOf "output"
  let id ←
    if name = "" then pure f.output
    else
      match f.nodeNamed? name with
      | some id => pure id
      | none => throw (.unknownOutput path name)
  if id = Uuid.zero then throw (.noOutput path) else return id

/-- A failure that belongs to a named node, with its name in front. -/
def named (g : Graph) (f : Failure) : Failure :=
  match (f.classification?.bind (·.node)).bind g.nodeOf? with
  | some n => if n.name = "" then f else .annotated s!"node {Text.quote n.name}" f
  | none => f

/-- A file and the compilation of its output. -/
structure Compiled where
  file : GraphFile
  result : Compilation

/-- Compiles the graph in the contents of a file. -/
def compiled (env : Environment) (path : String) (a : Arguments)
    (content : Except String (List UInt8)) : Except CommandError Compiled := do
  let content ← content.mapError .unreadable
  let file ← (GraphFile.parseBytes content).mapError .file
  let options ← optionsFor env a file
  let root ← outputOf path a file
  let result ← (file.graph.compile root options).mapError fun f => .compile (named file.graph f)
  return ⟨file, result⟩

/-- The name of a stage: that of its root, or else the identity. -/
def Compiled.stageName (c : Compiled) (s : Stage) : String :=
  match (c.file.graph.nodeOf? s.id).map (·.name) with
  | some "" | none => toString s.id
  | some name => name

/-! ### Listing stages -/

/-- What kind of stage it is, with the size of its field. -/
def kindText (s : Stage) : String :=
  match s.field with
  | some f => s!"{s.kind.name} {f.dim}D@{f.resolution}"
  | none => s.kind.name

/-- The bytes of a stage's code. -/
def codeSize (s : CompiledStage) : Nat := total (4 * ·.body.words.length) s.shaders

def Compiled.stageRow (c : Compiled) (s : CompiledStage) : List String :=
  let needed := s.stage.dependencies.filterMap fun root =>
    (c.result.stageOf? root).map fun t => c.stageName t.stage
  [c.stageName s.stage, kindText s.stage, s.stage.domain.text, ", ".intercalate needed,
    grouped s.stage.nodes.length, "+".intercalate (s.shaders.map fun h => h.body.model.name),
    sizeText (codeSize s), Text.hexOfBytes (s.hash.take 6)]

def Compiled.stagesTable (c : Compiled) : Table :=
  ⟨["Stage", "Kind", "Domain", "Depends on", "Nodes", "Shaders", "Size", "Hash"],
    c.result.stages.map c.stageRow⟩

def bindingRow (stage : String) (model : Spirv.ExecutionModel) (b : ShaderBinding) : List String :=
  let r := b.resource
  let slot := if r.kind.isBound then s!"{r.set}/{r.slot}" else "-"
  let index := if b.reflected.builtIn = "" then toString b.reflected.index else b.reflected.builtIn
  [stage, model.name, r.name, r.kind.name, b.reflected.kind.access, slot, b.reflected.format, index]

def Compiled.bindingsTable (c : Compiled) : Table :=
  ⟨["Stage", "Shader", "Name", "Class", "Access", "Set/Binding", "MSL", "Index"],
    c.result.stages.flatMap fun s => s.shaders.flatMap fun h =>
      h.bindings.map (bindingRow (c.stageName s.stage) h.body.model)⟩

/-! ### Shaders -/

/-- Shows a shader as asked. -/
def showShader (a : Arguments) (stage : String) (h : Shader) : List Action :=
  let all := a.isOn "all"
  let model := h.body.model.name
  let assembly :=
    if all || a.isOn "spirv" then
      match Spirv.Module.parse h.body.words with
      | .ok m => [.print (title s!"SPIR-V: {stage} {model}"), .print m.text]
      | .error e =>
        [.stop (.compile (.annotated s!"failed to disassemble {stage} {model}" (.malformed e)))]
    else []
  let source :=
    if all || a.isOn "msl" then [.print (title s!"MSL: {stage} {model}"), .print h.source] else []
  assembly ++ source

/-- Writes the code of a shader into a directory. -/
def writeShader (env : Environment) (dir stage : String) (h : Shader) : List Action :=
  match Path.expandHome env.homes dir with
  | .error e => [.stop (.home e)]
  | .ok dir =>
    let base := Path.join [dir, s!"{stage}_{h.body.model.name}"]
    [.makeDirectory dir,
      .write s!"failed to write SPIR-V of {stage}" (base ++ ".spv")
        (Spirv.bytesOfWords h.body.words),
      .write s!"failed to write MSL of {stage}" (base ++ ".metal") (Text.bytes h.source)]

def compileActions (env : Environment) (a : Arguments) (c : Compiled) : List Action :=
  let pruned := c.result.pruned.length
  let dir := a.textOf "out_dir"
  [.print (title "Stages"), .print c.stagesTable.render, .print (title "Bindings"),
      .print c.bindingsTable.render]
    ++ (if 0 < pruned then [.print s!"{pruned} pruned nodes\n"] else [])
    ++ c.result.stages.flatMap fun s => s.shaders.flatMap fun h =>
      let stage := c.stageName s.stage
      showShader a stage h ++ if dir = "" then [] else writeShader env dir stage h

/-! ### Hashes of evaluations -/

/-- The pattern of one in single precision. -/
def singleOne : UInt32 := singleBits 1

/-- The transform that changes nothing, column by column. -/
def identityTransform : Vector UInt32 16 :=
  Vector.ofFn fun i => if i.val % 5 = 0 then singleOne else 0

/-- Adds an argument given as `key=value`; the last value of a key counts. -/
def addArgument (acc : List (String × String)) (s : String) :
    Except CommandError (List (String × String)) :=
  match splitValue s.toList with
  | (key, some value) => .ok ((acc.filter fun p => p.1 != key) ++ [(key, value)])
  | (_, none) => .error (.argument s)

/-- The inputs of an evaluation from flags. -/
def wedgeInputs (a : Arguments) : Except CommandError WedgeInputs := do
  let time : UInt32 :=
    match a.value? "time" with
    | some (.single bits) => bits
    | _ => 0
  let model ←
    match a.textOf "model" with
    | "" => pure Uuid.zero
    | s => (Uuid.parse s).mapError .model
  let given := (a.valuesOf "arg").filterMap fun
    | .text s => some s
    | _ => none
  let arguments ← given.foldlM addArgument []
  return { time, transform := identityTransform, model, arguments }

def wedgeActions (a : Arguments) (c : Compiled) : List Action :=
  match wedgeInputs a with
  | .error e => [.stop e]
  | .ok inputs =>
    (c.result.stages.zip (c.result.wedgeHashes inputs)).map fun (s, hash) =>
      .print s!"{c.stageName s.stage}\t{s.stage.domain.text}\t{Text.hexOfBytes hash}\n"

/-! ### The whole -/

/-- What a command does, given the contents of its file or why they cannot be read. -/
def actions (env : Environment) (verb : Verb) (path : String) (a : Arguments)
    (content : Except String (List UInt8)) : List Action :=
  match compiled env path a content with
  | .error e => [.stop e]
  | .ok c =>
    match verb with
    | .compile => compileActions env a c
    | .wedge => wedgeActions a c

/-- What came of a command. -/
structure Outcome where
  output : String
  disk : Disk
  error : Option CommandError

/-- Does actions one after the other, up to the first that fails. -/
def perform (o : Outcome) : List Action → Outcome
  | [] => o
  | action :: rest =>
    match action with
    | .print s => perform { o with output := o.output ++ s } rest
    | .makeDirectory path =>
      match o.disk.ensureDirectory path with
      | .ok disk => perform { o with disk } rest
      | .error e => { o with error := some (.disk "failed to create output directory" e.message) }
    | .write purpose path content =>
      match o.disk.write path content with
      | .ok disk => perform { o with disk } rest
      | .error e => { o with error := some (.disk purpose e.message) }
    | .stop e => { o with error := some e }

/-- Runs a command line in a working directory. -/
def run (env : Environment) (disk : Disk) (args : List String) : Outcome :=
  let start : Outcome := ⟨"", disk, none⟩
  match Request.parse args with
  | .error e => { start with error := some (.usage e) }
  | .ok .help => start
  | .ok (.run verb path a) =>
    match Path.expandHome env.homes path with
    | .error e => { start with error := some (.home e) }
    | .ok path =>
      let content := (disk.read path).mapError DiskError.message
      perform start (actions env verb path a content)

end NodeShader.Command
