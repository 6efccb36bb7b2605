import NodeShader.Compile.Basic

/-!
# Wedge hashes

The hash of a stage evaluated with some inputs, by which a caller tells whether an earlier output is
still valid. Only inputs in the domain of the stage take part, and the arguments always do, in the
order of their names.
-/

namespace NodeShader

/-- The inputs of an evaluation. Numbers are patterns in single precision. -/
structure WedgeInputs where
  time : UInt32
  transform : Vector UInt32 16
  model : Uuid
  arguments : List (String × String)

/-- A text with its length in bytes in front. -/
def sizedBytes (s : String) : List UInt8 :=
  Spirv.bytesOfWords [(Text.byteLength s).toUInt32] ++ Text.bytes s

/-- The arguments by name. -/
def WedgeInputs.sortedArguments (i : WedgeInputs) : List (String × String) :=
  i.arguments.mergeSort fun a b => a.1 ≤ b.1

/-- The bytes that are hashed for a stage of the given hash and domain. -/
def WedgeInputs.hashedBytes (hash : List UInt8) (domain : Domain) (i : WedgeInputs) : List UInt8 :=
  hash
    ++ (if domain.includes .timeVarying then Text.bytes "time" ++ Spirv.bytesOfWords [i.time] else [])
    ++ (if domain.includes .transformDependent then
          Text.bytes "transform" ++ Spirv.bytesOfWords i.transform.toList
        else [])
    ++ (if domain.includes .modelDependent then Text.bytes "model" ++ i.model.toBytes else [])
    ++ i.sortedArguments.flatMap fun (key, value) => sizedBytes key ++ sizedBytes value

/-- The hash of an evaluation. -/
def wedgeHash (hash : List UInt8) (domain : Domain) (i : WedgeInputs) : List UInt8 :=
  Digest.Sha256.digest (i.hashedBytes hash domain)

/-- The hashes of the stages of a compilation for the same inputs. -/
def Compilation.wedgeHashes (c : Compilation) (i : WedgeInputs) : List (List UInt8) :=
  c.stages.map fun s => wedgeHash s.hash s.stage.domain i

end NodeShader
