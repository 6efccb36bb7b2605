import NodeShader.Text.Basic
import NodeShader.Text.Scalar
import NodeShader.Typing.Resolve

/-!
# Compiler options

Whether constant operands are folded, and how many choices type resolution may try. Options are read
from a comma-separated list of `key=value`; those before a faulty one take effect.
-/

namespace NodeShader

structure Options where
  foldConstants : Bool
  maxSearchNodes : Int
  deriving DecidableEq, Repr

/-- Why a list of options is refused. -/
inductive OptionError where
  | noValue (part : String)
  | unknown (key : String)
  | value (key reader text : String) (fault : Text.ScalarFault)
  deriving DecidableEq

def OptionError.message : OptionError → String
  | noValue part => s!"compiler option {Text.quote part} is not in the form key=value"
  | unknown key => s!"unknown compiler option {Text.quote key}"
  | value key reader text fault =>
    s!"compiler option {Text.quote key}: {fault.message reader text}"

namespace Options

def standard : Options := ⟨false, defaultBudget⟩

/-- The variable that holds options for every compilation. -/
def variableName : String := "SHADERGRAPH_OPTIONS"

/-- What comes before and after the first equals sign. -/
def cut? (s : String) : Option (String × String) :=
  let cs := s.toList
  match cs.dropWhile (· != '=') with
  | [] => none
  | _ :: value => some (String.ofList (cs.takeWhile (· != '=')), String.ofList value)

/-- Applies one `key=value`. -/
def set (o : Options) (part : String) : Except OptionError Options :=
  match cut? part with
  | none => .error (.noValue part)
  | some (key, value) =>
    let key := Text.trim key
    let value := Text.trim value
    if key = "fold_constants" then
      match Text.readBool value with
      | .ok fold => .ok { o with foldConstants := fold }
      | .error e => .error (.value key "ParseBool" value e)
    else if key = "max_search_nodes" then
      match Text.readInt 64 value with
      | .ok n => .ok { o with maxSearchNodes := n }
      | .error e => .error (.value key "Atoi" value e)
    else .error (.unknown key)

/-- Applies parts in order up to the first faulty one. -/
def setAll (o : Options) : List String → Options × Option OptionError
  | [] => (o, none)
  | part :: rest =>
    let part := Text.trim part
    if part = "" then setAll o rest
    else
      match o.set part with
      | .ok o => setAll o rest
      | .error e => (o, some e)

/-- Applies a comma-separated list. -/
def parse (o : Options) (config : String) : Options × Option OptionError :=
  setAll o (config.splitOn ",")

/-- Applies the options of the environment, if it holds any. -/
def ofEnvironment (o : Options) (config : Option String) : Options × Option String :=
  match config with
  | none => (o, none)
  | some config =>
    let (o, e) := o.parse config
    (o, e.map fun e => s!"parsing ${variableName}: {e.message}")

end Options

end NodeShader
