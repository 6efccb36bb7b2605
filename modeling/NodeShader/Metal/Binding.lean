import NodeShader.Metal.Types
import NodeShader.Stage.ResourceClass

/-!
# Bindings

How the entry point receives the global variables of a module. Each argument table (buffers,
textures, samplers) is numbered in ascending order of set and binding; stage inputs and outputs keep
their locations, and built-in ones have the number -1.
-/

namespace NodeShader.Metal

open Spirv

/-- A member of a uniform buffer. -/
structure Member where
  name : String
  type : String
  offset : Nat
  deriving DecidableEq

/-- One resource of the entry point. -/
structure Binding where
  name : String := ""
  variable_ : UInt32
  kind : ResourceClass := .uniformBuffer
  dim : Nat := 0
  format : String := ""
  members : List Member := []
  set : Nat := 0
  slot : Nat := 0
  index : Int := -1
  builtIn : String := ""
  deriving DecidableEq, Inhabited

/-- The name and attribute of a built-in variable. -/
def builtIn? (code : UInt32) : Option (String × String) :=
  [(BuiltIn.position, ("gl_Position", "position")), (BuiltIn.fragCoord, ("gl_FragCoord", "position")),
    (BuiltIn.globalInvocationId, ("gl_GlobalInvocationID", "thread_position_in_grid"))].lookup code

/-- The number of dimensions of a dimension code. -/
def dimOf : UInt32 → Nat
  | 0 => 1
  | 1 => 2
  | _ => 3

/-- A uniform buffer with its members. -/
def bufferOf (t : Tables) (b : Binding) (struct : UInt32) (members : List UInt32) :
    Naming Binding := do
  let format ← typeName t struct
  let members ← (List.range members.length).mapM fun i => do
    return { name := memberName t struct i, type := ← memberType t struct i,
             offset := (t.memberOffset? struct i).getD 0 : Member }
  return { b with kind := .uniformBuffer, format, members }

/-- A stage input or output: at a location or built in. -/
def stageVariable (t : Tables) (b : Binding) (type : UInt32) : Naming Binding := do
  let format ← typeName t type
  let id := b.variable_
  match t.decoration? id Decoration.location with
  | some params => return { b with format, index := (← operand params 0).toNat }
  | none =>
    match t.decoration? id Decoration.builtIn with
    | none => fail id "stage variable has neither location nor builtin"
    | some params =>
      let code ← operand params 0
      match builtIn? code with
      | none => fail id s!"unsupported builtin {code}"
      | some (name, mark) =>
        fixName id name
        return { b with format, builtIn := mark }

/-- The class, shape and contents of a variable. -/
def classifyVariable (t : Tables) (v : Variable) : Naming Binding := do
  match ← t.typeOf v.pointer with
  | .pointer _ element =>
    let pointee ← t.typeOf element
    let b : Binding := { variable_ := v.id }
    if v.storage = StorageClass.uniform then
      match pointee with
      | .struct members => bufferOf t b element members
      | _ => fail v.id "uniform variable is not a block"
    else if v.storage = StorageClass.uniformConstant then
      match pointee with
      | .image _ dim sampled format =>
        return { b with
          kind := if sampled = 2 then .storageImage else .sampledImage
          dim := dimOf dim
          format := if format = ImageFormat.rgba32f then "rgba32f" else "" }
      | .sampler => return { b with kind := .sampler }
      | _ => fail v.id "unsupported uniform constant variable"
    else if v.storage = StorageClass.input then
      stageVariable t { b with kind := .stageInput } element
    else if v.storage = StorageClass.output then
      stageVariable t { b with kind := .stageOutput } element
    else fail v.id s!"unsupported storage class {v.storage}"
  | _ => fail v.id "variable type is not a pointer"

/-- The binding of a variable, not yet numbered. -/
def bindVariable (t : Tables) (v : Variable) : Naming Binding := do
  let b ← classifyVariable t v
  let b ←
    if b.kind.isBound then
      match t.decoration? v.id Decoration.descriptorSet, t.decoration? v.id Decoration.binding with
      | some set, some slot =>
        pure { b with set := (← operand set 0).toNat, slot := (← operand slot 0).toNat }
      | _, _ => fail v.id s!"{b.kind.name} has no descriptor set and binding"
    else pure b
  return { b with name := ← identifier t v.id "var" }

/-- Puts a binding before the first one that does not come earlier. -/
def insertBinding {α : Type} (before : α → α → Bool) (a : α) : List α → List α
  | [] => [a]
  | b :: bs => if before a b then a :: b :: bs else b :: insertBinding before a bs

/-- The bindings in order; those of equal rank keep their order. -/
def sortBindings {α : Type} (before : α → α → Bool) : List α → List α
  | [] => []
  | a :: as => insertBinding before a (sortBindings before as)

/-- Whether a set and binding come no later than others. -/
def Binding.before (a b : Binding) : Bool :=
  a.set < b.set || (a.set == b.set && a.slot ≤ b.slot)

/-- The bindings of an argument table in the order of their numbers. -/
def ofTable (bindings : List Binding) (table : ArgumentTable) : List Binding :=
  sortBindings Binding.before (bindings.filter (·.kind.table? == some table))

/-- The binding with its number in its argument table. -/
def number (bindings : List (Binding × Nat)) (entry : Binding × Nat) : Binding :=
  match entry.1.kind.table? with
  | none => entry.1
  | some table =>
    let sorted := sortBindings (fun a b => a.1.before b.1)
      (bindings.filter (·.1.kind.table? == some table))
    { entry.1 with index := sorted.findIdx (·.2 == entry.2) }

/-- The numbered bindings of all variables, in order of declaration. -/
def reflect (t : Tables) : Naming (List Binding) := do
  let bindings ← t.globals.mapM (bindVariable t)
  let entries := bindings.zipIdx
  return entries.map (number entries)

/-- The bindings of a class in the order of their numbers. -/
def ofClass (bindings : List Binding) (kind : ResourceClass) : List Binding :=
  sortBindings (fun a b => a.index ≤ b.index) (bindings.filter (·.kind == kind))

/-- The images in the order of their numbers. -/
def textures (bindings : List Binding) : List Binding :=
  sortBindings (fun a b => a.index ≤ b.index)
    (bindings.filter (·.kind.table? == some .texture))

end NodeShader.Metal
