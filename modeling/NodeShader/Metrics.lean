import NodeShader.Compile.Basic

/-!
# Compilation metrics

Counts of compilations by result, of stages by kind, and of the choices type resolution made.
-/

namespace NodeShader

/-- What has been recorded. -/
structure Metrics where
  /-- The label of each compilation. -/
  results : List String
  /-- The kind of each stage. -/
  stages : List String
  /-- The choices of each compilation that succeeded. -/
  choices : List Nat

namespace Metrics

def empty : Metrics := ⟨[], [], []⟩

/-- The label of a failure: its kind with underscores. -/
def failureLabel (f : Failure) : String :=
  match f.classification? with
  | none => "error"
  | some c => String.ofList (c.kind.name.toList.map fun x => if x = ' ' then '_' else x)

/-- Records one compilation. -/
def observe (m : Metrics) : Except Failure Compilation → Metrics
  | .error f => { m with results := failureLabel f :: m.results }
  | .ok c =>
    { results := "success" :: m.results
      stages := c.stages.map (·.stage.kind.name) ++ m.stages
      choices := c.stats.searchNodes :: m.choices }

/-- How often each label occurs, by label. -/
def counts (labels : List String) : List (String × Nat) :=
  (labels.eraseDups.mergeSort fun a b => a ≤ b).map fun l => (l, labels.count l)

/-- The upper bounds of the buckets for choices. -/
def bounds : List Nat := (List.range 8).map (Nat.pow 4)

/-- How many compilations stayed within each bound. -/
def buckets (m : Metrics) : List (Nat × Nat) :=
  bounds.map fun b => (b, m.choices.countP (· ≤ b))

/-- The name of a measured quantity. -/
def qualified (name : String) : String := "shadergraph_compiler_" ++ name

end Metrics

end NodeShader
