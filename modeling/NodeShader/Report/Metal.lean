import NodeShader.Metal.Emit
import NodeShader.Report.Basic
import NodeShader.Spirv.Builder
import NodeShader.Spirv.Module
import NodeShader.Typing.Constraint

/-!
# Reports of modules and Metal programs

A parsed module with its text, results and instruction counts, a program with its source and bindings,
and the names of the numbers modules are made of.
-/

namespace NodeShader.Report

open Spirv

def opcodeCounts (m : Module) : Report :=
  each (fun (op : Opcode) => list [text op.name, m.count op, (m.filter op).length, bool op.isKnown])
    (m.instructions.map (·.opcode)).eraseDups

def module (m : Module) : Report :=
  record [("version", m.version.text), ("generator", m.generator), ("bound", m.bound),
    ("text", m.text), ("results", each (fun i => i.result) m.instructions),
    ("result_types", each (fun i => i.resultType) m.instructions), ("counts", opcodeCounts m),
    ("num_defs", m.defined.length)]

/-- The module of a word list, with the results of the steps that built it. -/
def assembled (words : List UInt32) (results : Option (List UInt32)) : Report :=
  let parsed :=
    match Module.parse words with
    | .ok m => module m
    | .error e => failure (.malformed e)
  let steps :=
    match results with
    | some rs => [("results", each (fun (w : UInt32) => w) rs), ("bytes", bytes (bytesOfWords words))]
    | none => []
  record (("module", parsed) :: steps)

def member (m : Metal.Member) : Report := list [text m.name, text m.type, m.offset]

def binding (r : Metal.Program) (b : Metal.Binding) : Report :=
  let access := ((r.binding? b.variable_).map (·.kind.access)).getD ""
  record [("name", b.name), ("variable", b.variable_), ("class", b.kind.name), ("access", access),
    ("dim", b.dim), ("format", b.format), ("members", each member b.members), ("set", b.set),
    ("binding", b.slot), ("index", b.index), ("builtin", b.builtIn)]

/-- The Metal program of a word list, with the results of the steps that built it. -/
def metalProgram (words : List UInt32) (results : Option (List UInt32)) : Report :=
  match Metal.Program.ofWords words with
  | .error e => failure (.metal e)
  | .ok r =>
    let steps :=
      match results with
      | some rs => [("results", each (fun (w : UInt32) => w) rs)]
      | none => []
    record (("model", text r.model.name) :: ("source", text r.source)
      :: ("bindings", each (binding r) r.bindings)
      :: ("local_size", each (fun (w : UInt32) => w) r.localSize) :: steps)

/-- What a number names in each vocabulary, and what a word list spells. -/
def names (value : UInt32) (words : List UInt32) : Report :=
  let op : Opcode := ⟨value.toUInt16⟩
  let code := value.toInt32.toInt
  let (spelled, used) := readName words
  record [("opcode", op.name), ("known", op.isKnown), ("glsl", Extended.name value),
    ("model", (ExecutionModel.ofCode value).name), ("class", ResourceClass.nameOfCode "Class" code),
    ("access", ResourceClass.accessOfCode code),
    ("resource_class", ResourceClass.nameOfCode "ResourceClass" code),
    ("resource_access", ResourceClass.accessOfCode code),
    ("resource_bound", ResourceClass.isBoundCode code), ("propagation", (Effect.ofCode code).name),
    ("decoded", bytes spelled), ("decoded_words", used)]

end NodeShader.Report
