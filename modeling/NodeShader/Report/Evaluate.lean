import NodeShader.Disk
import NodeShader.Evaluate.Dispatch
import NodeShader.Evaluate.Wedge
import NodeShader.Metrics
import NodeShader.NameSet
import NodeShader.Report.Compile
import NodeShader.Total

/-!
# Reports of evaluations

Wedge hashes, dispatched stages, recorded metrics, and the small tools they are made with.
-/

namespace NodeShader.Report

/-- The hashes of a stage of given hash and domain. -/
def wedgeHashes (hash : List UInt8) (domain : Domain) (inputs : List WedgeInputs) : Report :=
  record [("hashes", each (fun i => list [bytes (wedgeHash hash domain i)]) inputs)]

/-- The hashes of all stages of a compilation. -/
def compiledWedgeHashes (g : Graph) (root : NodeId) (o : Options) (inputs : List WedgeInputs) :
    Report :=
  match g.compile root o with
  | .error f => compileFailure f
  | .ok c => record [("hashes", each (fun i => each bytes (c.wedgeHashes i)) inputs)]

/-- Whether each started stage comes after its dependencies, which all succeeded. -/
def isOrdered (tasks : List Task) : (before started : List Nat) → Bool
  | _, [] => true
  | before, i :: rest =>
    let succeeded := before.filterMap fun j => (tasks[j]?.filter (·.failure.isNone)).map (·.id)
    (tasks[i]?.all fun t => t.dependencies.all succeeded.contains) && isOrdered tasks (i :: before) rest

/-- A run of named stages. -/
def dispatch (named : List (String × Task)) (limit : PoolLimit) (cancelled : Bool) : Report :=
  let tasks := named.map (·.2)
  let s := Dispatch.run tasks limit cancelled
  let names := s.started.filterMap fun i => named[i]?.map (·.1)
  record [("ran", texts (names.mergeSort fun a b => a ≤ b)),
    ("ordered", isOrdered tasks [] s.started), ("error", optional text s.error)]

/-- The outcome of one compilation among several. -/
def outcome : Except Failure Compilation → Report
  | .ok c => record [("stages", c.stages.length), ("search_nodes", c.stats.searchNodes)]
  | .error f => (f.classification?.map fun c => text c.kind.name).getD (compileFailure f)

/-- The counts of one quantity by label. -/
def countSeries (name label : String) (labels : List String) : List Report :=
  (Metrics.counts labels).map fun (value, count) =>
    record [("name", Metrics.qualified name), ("labels", texts [label ++ "=" ++ value]), ("count", count)]

/-- All that has been recorded, by name and label. -/
def metricSeries (m : Metrics) : Report :=
  list (countSeries "compilation_duration_seconds" "result" m.results
    ++ countSeries "stages_total" "kind" m.stages
    ++ [record [("name", Metrics.qualified "type_search_nodes"), ("labels", list []),
        ("count", m.choices.length), ("sum", total (fun n => n) m.choices),
        ("buckets", each (fun (b : Nat × Nat) => list [int b.1, int b.2]) m.buckets)]])

/-- Several compilations, of which some could not be asked for, and what they recorded. -/
def metrics (requests : List (Except Report (Graph × NodeId × Options))) : Report :=
  let results := requests.map fun r => r.map fun (g, root, o) => g.compile root o
  let recorded := results.foldl
    (fun m r =>
      match r with
      | .ok c => m.observe c
      | .error _ => m) Metrics.empty
  let outcomes := results.map fun
    | .ok c => outcome c
    | .error e => e
  record [("outcomes", list outcomes), ("series", metricSeries recorded)]

/-! ### Pools, latches, sets and paths -/

inductive PoolStep where
  | attempt
  | start
  | release

/-- One step of a pool. -/
def poolStep (p : Pool) : PoolStep → Pool × Report
  | .attempt =>
    match p.start? with
    | some p => (p, bool true)
    | none => (p, bool false)
  | .start =>
    let (p, waited) := p.startOrWait
    (p, text (if waited then "blocked" else "started"))
  | .release => (p.release, null)

/-- The steps of a pool, each with how many tasks run after it. -/
def poolSteps : Pool → List PoolStep → List Report
  | _, [] => []
  | p, s :: rest =>
    let (p, result) := poolStep p s
    record [("result", result), ("running", p.running)] :: poolSteps p rest

/-- Steps of a new pool. The processors of the machine are not known here and taken to be enough. -/
def pool (max : Int) (steps : List PoolStep) : Report :=
  let limit := PoolLimit.ofInt max
  record [("steps", list (poolSteps (.new steps.length limit) steps)),
    ("unlimited", bool (limit == .unlimited)),
    ("max", if limit = .machine then text "cpus" else int max)]

/-- Triggers a latch or one with a value, step by step: a step names one of the two or neither. -/
def latchSteps : Latch Unit → Latch String → List (Option (Option String)) → List Report
  | _, _, [] => []
  | plain, valued, s :: rest =>
    let plain := if s = some none then plain.trigger () else plain
    let valued := (s.getD none).elim valued valued.trigger
    record [("plain", plain.isTriggered), ("plain_chan", plain.isTriggered),
      ("valued", valued.isTriggered), ("valued_chan", valued.isTriggered),
      ("value", optional text valued.value)] :: latchSteps plain valued rest

inductive SetStep where
  | makeWith (names : List String)
  | insert (names : List String)
  | insertSet (source : String)
  | clone (source : String)
  | union (a b : String)
  | sub (a b : String)
  | equal (other : String)
  | has (name : String)
  | single
  | byLength

/-- Named sets; a name not seen before names the empty set. -/
abbrev SetStore := List (String × NameSet)

def SetStore.get (store : SetStore) (name : String) : NameSet := (store.lookup name).getD .empty

/-- One step on the set of a name: its new value and what the step tells. -/
def setStep (store : SetStore) (name : String) : SetStep → NameSet × Report :=
  let s := store.get name
  fun
  | .makeWith names => (.ofList names, null)
  | .insert names => (s.insertAll names, null)
  | .insertSet source => (s.union (store.get source), bool (s.union (store.get source) != s))
  | .clone source => (store.get source, null)
  | .union a b => ((store.get a).union (store.get b), null)
  | .sub a b => ((store.get a).sub (store.get b), null)
  | .equal other => (s, bool (s == store.get other))
  | .has x => (s, bool (s.has x))
  | .single => (s, list [text (s.single?.getD ""), bool s.single?.isSome])
  | .byLength => (s, texts s.byLength)

def setSteps : SetStore → List (String × SetStep) → List Report
  | _, [] => []
  | store, (name, step) :: rest =>
    let (s, result) := setStep store name step
    record [("result", result), ("set", texts s.names)] :: setSteps ((name, s) :: store) rest

/-- The numbers doubled, in 64 bits, and the even ones among them. -/
def doubledAndEven (xs : List Int) : Report :=
  let even := xs.filter fun x => x % 2 == 0
  record [("doubled", ints (xs.map fun x => Int.bmod (2 * x) 0x10000000000000000)), ("even", ints even),
    ("even_nil", bool even.isEmpty)]

def expandedHome (homes : Path.Homes) (path : String) : Report :=
  match Path.expandHome homes path with
  | .ok path => record [("path", path)]
  | .error e => error "error" e.message

end NodeShader.Report
