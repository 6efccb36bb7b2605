import NodeShader.Config.Eval

/-!
# Contents of bodies

What a body may hold is given by a `Schema`: its attributes, some of them required, and its blocks
with the names of their labels. Attributes are then read as machine values. A reading of a body
(`Decode`) goes on after a problem, so that all of them are told.
-/

namespace NodeShader.Config

/-- Why the contents of a body are not what they should be. -/
inductive Problem where
  | fault (fault : Fault)
  | unsuitable
  | missingAttribute
  | extraAttribute
  | extraBlock
  | extraLabel (kind : String)
  | missingLabel (label kind : String)
  | repeatedBlock (kind : String)
  | notObject
  deriving DecidableEq, Repr

def Problem.summary : Problem → String
  | fault f => f.summary
  | unsuitable => "Unsuitable value type"
  | missingAttribute => "Missing required argument"
  | extraAttribute => "Unsupported argument"
  | extraBlock => "Unsupported block type"
  | extraLabel kind => s!"Extraneous label for {kind}"
  | missingLabel label kind => s!"Missing {label} for {kind}"
  | repeatedBlock kind => s!"Duplicate {kind} block"
  | notObject => "Invalid expression"

/-- What a body may hold. -/
structure Schema where
  required : List String
  optional : List String
  /-- The kinds of blocks with the names of their labels. -/
  blocks : List (String × List String)

/-- A reading that gathers problems as it goes. -/
abbrev Decode := StateM (List Problem)

namespace Decode

def tell (problems : List Problem) : Decode Unit := modify (· ++ problems)

/-- The result of a reading, or all its problems. -/
def run {α : Type} (d : Decode α) : Except (List Problem) α :=
  match StateT.run d [] with
  | (a, []) => .ok a
  | (_, problems) => .error problems

end Decode

/-! ### Machine values -/

/-- How a machine value is read: the type to turn a value into, and what to take from the result. -/
structure Reading (α : Type) where
  shape : Shape
  take : Value → Option α

namespace Reading

/-- The machine value, if the value can be read so. -/
def read {α : Type} (r : Reading α) (v : Value) : Option α := (v.convert? r.shape).bind r.take

def text : Reading String where
  shape := .text
  take
    | .text s => some s
    | _ => none

def bool : Reading Bool where
  shape := .bool
  take
    | .bool b => some b
    | _ => none

/-- A whole number of 64 bits. -/
def integer : Reading Int where
  shape := .number
  take
    | .number n => n.toInt?
    | _ => none

def float : Reading Float where
  shape := .number
  take
    | .number n => n.toFloat?
    | _ => none

/-- Null stands for no value. -/
def optional {α : Type} (r : Reading α) : Reading (Option α) where
  shape := r.shape
  take v := if v.isNull then some none else (r.take v).map some

/-- A list, or none for null. -/
def list {α : Type} (r : Reading α) : Reading (Option (List α)) where
  shape := .list r.shape
  take
    | .null _ => some none
    | .list _ items => (items.mapM r.take).map some
    | _ => none

end Reading

/-! ### Bodies -/

/-- The problems with the labels of a block of a known kind. -/
def Block.labelProblems (b : Block) (names : List String) : List Problem :=
  if names.length < b.labels.length then [.extraLabel b.kind]
  else
    match names[b.labels.length]? with
    | some missing => [.missingLabel missing b.kind]
    | none => []

namespace Body

def attribute? (b : Body) (name : String) : Option Expr :=
  (b.attributes.find? fun a => a.name == name).map (·.expr)

/-- The body without some of its attributes. -/
def without (b : Body) (names : List String) : Body :=
  { b with attributes := b.attributes.filter fun a => !names.contains a.name }

/-- The problems of a body against a schema: attributes that are missing, labels, then whatever the
schema does not know. -/
def check (b : Body) (s : Schema) : List Problem :=
  let missing := s.required.filter fun name => (b.attribute? name).isNone
  let known := s.required ++ s.optional
  let labels := b.blocks.flatMap fun block =>
    match s.blocks.lookup block.kind with
    | some names => block.labelProblems names
    | none => []
  missing.map (fun _ => .missingAttribute) ++ labels
    ++ (b.attributes.filter fun a => !known.contains a.name).map (fun _ => .extraAttribute)
    ++ (b.blocks.filter fun block => (s.blocks.lookup block.kind).isNone).map fun _ => .extraBlock

/-- The blocks of a kind whose labels are right. -/
def blocksOf (b : Body) (s : Schema) (kind : String) : List Block :=
  match s.blocks.lookup kind with
  | some names => b.blocks.filter fun block => block.kind == kind && (block.labelProblems names).isEmpty
  | none => []

/-- The value of an attribute, if the body has it and it can be read. -/
def read {α : Type} (b : Body) (name : String) (reading : Reading α) : Decode (Option α) := do
  match b.attribute? name with
  | none => return none
  | some e =>
    let (v, faults) := e.eval .none
    let result := reading.read v
    Decode.tell (faults.map .fault ++ if result.isNone then [.unsuitable] else [])
    return result

end Body

end NodeShader.Config
