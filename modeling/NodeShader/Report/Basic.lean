import NodeShader.Branch.Labels
import NodeShader.Failure
import NodeShader.Number.Decimal
import NodeShader.Options
import NodeShader.Text.Basic

/-!
# Reports

Results as plain structured data, for tools that want them in a format of their own. The modules
beside this one say what is reported of graphs, types, modules and stages.
-/

namespace NodeShader

/-- Structured data: scalars, lists, and records with named fields. -/
inductive Report where
  | null
  | bool (value : Bool)
  | int (value : Int)
  | text (value : String)
  | list (items : List Report)
  | record (fields : List (String × Report))
  deriving Inhabited

namespace Report

instance : Coe String Report := ⟨text⟩

instance : Coe Bool Report := ⟨bool⟩

instance : Coe Int Report := ⟨int⟩

instance : Coe Nat Report := ⟨fun n => int n⟩

instance : Coe UInt32 Report := ⟨fun w => int w.toNat⟩

/-- A list of things that are reported alike. -/
def each {α : Type} (f : α → Report) (xs : List α) : Report := list (xs.map f)

def texts (xs : List String) : Report := each text xs

def ints (xs : List Int) : Report := each int xs

def nats (xs : List Nat) : Report := each (fun (n : Nat) => int n) xs

/-- Something that may be absent. -/
def optional {α : Type} (f : α → Report) : Option α → Report
  | some a => f a
  | none => null

/-- A number by its shortest digits. -/
def float (x : Float) : Report := text ((floatValue x).text .binary64 "nan" "" "inf")

/-- A number by ten digits. -/
def roughFloat (x : Float) : Report := text (tenDigits x "nan" "inf")

/-- Bytes in hexadecimal. -/
def bytes (bs : List UInt8) : Report := text (Text.hexOfBytes bs)

/-- An error of a kind with its message. -/
def error (kind message : String) : Report := record [("error", kind), ("message", message)]

/-- An operation that stopped on a reference to nothing. -/
def crash (message : String) : Report := error "panic" message

end Report

end NodeShader

/-!
## Reports of failures

A failure is reported by its kind: that of its classification, or else of the part of the chain that
says most.
-/

namespace NodeShader.Report

def id (id : NodeId) : Report := text (toString id)

/-- What a failure is reported as when it is no classified one. -/
def unclassified (f : Failure) : Option Report :=
  match f with
  | .metal e => some (record [("error", "msl"), ("message", e.message), ("id", e.id)])
  | .unsatisfiable e =>
    some (record [("error", "unsatisfiable"), ("message", e.message), ("node", id e.node),
      ("constraint", e.constraint), ("budget_exhausted", e.budgetExhausted)])
  | .cycle e =>
    some (record [("error", "cycle"), ("message", e.message), ("nodes", each (fun n => id n.id) e.nodes)])
  | .malformed e =>
    some (record [("error", "spirv_parse"), ("message", e.message), ("offset", e.offset)])
  | .dependency e => some (error "dependency" e.message)
  | _ => none

/-- Whether the first cause is a reference to nothing. -/
def isFaulty (f : Failure) : Bool :=
  match f.origin with
  | .fault => true
  | _ => false

def failure (f : Failure) : Report :=
  let message := if isFaulty f then Fault.dangling.message else f.message
  match f.classification? with
  | some c => record [("error", c.kind.name), ("message", message), ("node", optional id c.node)]
  | none =>
    match (f.find? fun part => (unclassified part).isSome).bind unclassified with
    | some report => report
    | none => error "error" message

/-- A failure in detail: its message, classification and whether it has a cause. -/
def diagnosis (f : Option Failure) : Report :=
  let c := f.bind Failure.classification?
  let kind := (c.map (·.kind)).getD (.other 0)
  let node := c.bind (·.node)
  record [("message", optional (fun f => text f.message) f), ("kind", kind.code),
    ("kind_name", kind.name), ("typed", c.isSome), ("node", id (node.getD Uuid.zero)),
    ("has_node", node.isSome),
    ("is", each (fun (n : Int) => bool (c.any fun c => c.kind == .ofCode n)) [0, 1, 2, 3, 4, 5]),
    ("unwraps", (f.bind Failure.cause?).isSome)]

def options (o : Options) (e : Option String) : Report :=
  record [("fold_constants", o.foldConstants), ("max_search_nodes", o.maxSearchNodes),
    ("error", optional text e)]

/-- The texts of the failures about a node, another node and an identifier. -/
def failureTexts (node other : NodeId) (constraint : String) (exhausted : Bool) (arm : Int)
    (at_ : UInt32) : Report :=
  record [("unsatisfiable", Unsatisfiable.message ⟨node, constraint, exhausted⟩),
    ("dependency", DependencyError.message ⟨node, other⟩), ("tag", tagText node arm),
    ("msl", Metal.errorText at_ constraint)]

end NodeShader.Report
