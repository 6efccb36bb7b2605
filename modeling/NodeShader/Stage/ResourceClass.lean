/-!
# Classes of resources

What a global variable of a shader is: a uniform buffer, an image, a sampler, or an input or output
of the stage.
-/

namespace NodeShader

inductive ResourceClass where
  | uniformBuffer
  | sampledImage
  | sampler
  | storageImage
  | stageInput
  | stageOutput
  deriving DecidableEq, Repr, Inhabited

namespace ResourceClass

/-- The classes in the order of their codes. -/
def all : List ResourceClass :=
  [uniformBuffer, sampledImage, sampler, storageImage, stageInput, stageOutput]

def name : ResourceClass → String
  | uniformBuffer => "uniform_buffer"
  | sampledImage => "sampled_image"
  | sampler => "sampler"
  | storageImage => "storage_image"
  | stageInput => "stage_input"
  | stageOutput => "stage_output"

/-- How the shader uses the resource. -/
def access : ResourceClass → String
  | uniformBuffer => "uniform"
  | sampledImage | sampler => "sampled"
  | storageImage => "storage"
  | stageInput => "input"
  | stageOutput => "output"

/-- Whether the resource has a set and a binding, rather than a location. -/
def isBound : ResourceClass → Bool
  | stageInput | stageOutput => false
  | _ => true

/-- The class of a code. -/
def ofCode? : Int → Option ResourceClass
  | .ofNat n => all[n]?
  | .negSucc _ => none

/-- The name of the class of a code, `label(code)` where there is none. -/
def nameOfCode (label : String) (code : Int) : String :=
  match ofCode? code with
  | some c => c.name
  | none => s!"{label}({code})"

/-- The access of the class of a code; a code of no class counts as an output. -/
def accessOfCode (code : Int) : String := ((ofCode? code).map access).getD "output"

/-- Whether the class of a code is bound; a code of no class is. -/
def isBoundCode (code : Int) : Bool := ((ofCode? code).map isBound).getD true

end ResourceClass

/-- The tables that arguments of an entry point are numbered in. -/
inductive ArgumentTable where
  | buffer
  | texture
  | sampler
  deriving DecidableEq, Repr

/-- The table of a bound class. -/
def ResourceClass.table? : ResourceClass → Option ArgumentTable
  | uniformBuffer => some .buffer
  | sampledImage | storageImage => some .texture
  | sampler => some .sampler
  | stageInput | stageOutput => none

end NodeShader
