import NodeShader.Typing.Constraint

/-!
# Type resolution

Chooses one type for every port. Constraints are propagated from a queue until no domain changes;
then the most constrained port is tried with its types in order of preference, depth first, until
every port has one type or the search budget is spent.
-/

namespace NodeShader

/-- The constraints of a graph, and for each port the numbers of those that touch it. -/
structure ConstraintSystem where
  graph : Graph
  constraints : Array Constraint
  byPort : Array (List Nat)

/-- No choice of types satisfies the constraints, or the search gave up. -/
structure Unsatisfiable where
  node : NodeId
  constraint : String
  budgetExhausted : Bool
  deriving DecidableEq

def Unsatisfiable.message (e : Unsatisfiable) : String :=
  if e.budgetExhausted then s!"types unsatisfiable: search budget exhausted at node {e.node}"
  else if e.constraint = "" then
    s!"types unsatisfiable: no valid type assignment for node {e.node}"
  else s!"types unsatisfiable: no valid type assignment for node {e.node} ({e.constraint})"

/-- Why type resolution fails. -/
inductive TypingError where
  | unsatisfiable (e : Unsatisfiable)
  | constraints (e : ConstraintError)

/-- What a resolution cost. -/
structure TypingStats where
  constraints : Nat
  propagations : Nat
  searchNodes : Nat
  deriving DecidableEq, Inhabited

/-- The search budget where none is given. -/
def defaultBudget : Nat := 10000

namespace ConstraintSystem

def ofGraph (g : Graph) : Except ConstraintError ConstraintSystem := do
  let constraints ← g.constraints
  let byPort := (constraints.zipIdx).foldl
    (fun (table : Array (List Nat)) (entry : Constraint × Nat) =>
      entry.1.rule.ports.foldl (fun table p => table.modify p.toNat (· ++ [entry.2])) table)
    (Array.replicate g.ports.size [])
  return { graph := g, constraints := constraints.toArray, byPort }

/-- The numbers of the constraints that touch a port. -/
def touching (s : ConstraintSystem) (p : PortId) : List Nat := (Array.at? s.byPort p).getD []

/-- The numbers of all constraints. -/
def all (s : ConstraintSystem) : List Nat := List.range s.constraints.size

/-- The queue after constraint `current` has changed some ports: what touches them is added unless
it waits already. -/
def enqueue (s : ConstraintSystem) (current : Nat) (queue : List Nat) (touched : List PortId) :
    List Nat :=
  (touched.flatMap s.touching).foldl
    (fun queue i => if i = current ∨ queue.contains i then queue else queue ++ [i]) queue

/-- How propagation ended, after how many steps. -/
structure Outcome where
  result : Except Constraint Domains
  steps : Nat

/-- Applies the queued constraints, first in first out, until no domain changes or a constraint has
no solution. Ends because a step that queues others takes a type away from some port. -/
def propagate (s : ConstraintSystem) (d : Domains) (queue : List Nat) (steps : Nat) : Outcome :=
  match queue with
  | [] => ⟨.ok d, steps⟩
  | i :: rest =>
    match s.constraints[i]? with
    | none => propagate s d rest steps
    | some c =>
      match hd : c.rule.narrow d with
      | none => ⟨.error c, steps + 1⟩
      | some (_, []) => propagate s d rest (steps + 1)
      | some (d', p :: touched) =>
        propagate s d' (s.enqueue i rest (p :: touched)) (steps + 1)
termination_by (d.weight, queue.length)
decreasing_by
  · exact Prod.Lex.right _ (by simp)
  · exact Prod.Lex.right _ (by simp)
  · exact Prod.Lex.left _ _ (by have := Domains.weight_narrow hd; simp at this; omega)

/-- The state of the search: what to try next, the last constraint that failed, and the cost. -/
structure Search where
  stack : List (Domains × PortId × ValueType)
  failed : Option Constraint
  stats : TypingStats

/-- The choices for the most constrained port, to be tried first. -/
def choices (d : Domains) : List (Domains × PortId × ValueType) :=
  match d.mostConstrained? with
  | none => []
  | some p => (d.typesOf p).toList.map fun t => (d, p, t)

/-- The node that owns a port, by identity. -/
def ownerId (s : ConstraintSystem) (p : PortId) : NodeId :=
  ((s.graph.owner? p).map (·.id)).getD Uuid.zero

/-- What is told of a failure. -/
def unsatisfiable (failed : Option Constraint) : Unsatisfiable :=
  match failed with
  | some c => { node := c.node, constraint := c.text, budgetExhausted := false }
  | none => { node := Uuid.zero, constraint := "", budgetExhausted := false }

/-- Where propagation starts once a port is decided. A port that no constraint touches restarts
them all. -/
def startQueue (s : ConstraintSystem) (p : PortId) : List Nat :=
  match s.touching p with
  | [] => s.all
  | queue => queue

/-- Depth-first search with `budget` choices left; `first` is the port of the first choice. -/
def search (s : ConstraintSystem) (first : PortId) :
    Nat → Search → Except Unsatisfiable Domains × TypingStats
  | budget, ⟨stack, failed, stats⟩ =>
    match stack with
    | [] => (.error { unsatisfiable failed with node := s.ownerId first }, stats)
    | (d, p, t) :: stack =>
      let stats := { stats with searchNodes := stats.searchNodes + 1 }
      match budget with
      | 0 => (.error { node := s.ownerId p, constraint := "", budgetExhausted := true }, stats)
      | budget + 1 =>
        let decided := d.setIfInBounds p.toNat (.singleton t)
        let outcome := s.propagate decided (s.startQueue p) 0
        let stats := { stats with propagations := stats.propagations + outcome.steps }
        match outcome.result with
        | .error c => search s first budget ⟨stack, some c, stats⟩
        | .ok d' =>
          if d'.isComplete then (.ok d', stats)
          else search s first budget ⟨choices d' ++ stack, failed, stats⟩

end ConstraintSystem

/-- The domains of all ports after propagation alone. -/
def Graph.narrowTypes (g : Graph) : Except TypingError Domains :=
  match ConstraintSystem.ofGraph g with
  | .error e => .error (.constraints e)
  | .ok s =>
    match (s.propagate g.domains s.all 0).result with
    | .ok d => .ok d
    | .error c => .error (.unsatisfiable (ConstraintSystem.unsatisfiable (some c)))

/-- A type for each port. -/
abbrev TypeAssignment := Array ValueType

/-- The one type of each port. -/
def Domains.assignment (d : Domains) : TypeAssignment := d.map TypeSet.single

/-- A type for every port, found with at most `budget` choices (0 or less: the default). -/
def Graph.resolveTypes (g : Graph) (budget : Int) :
    Except TypingError TypeAssignment × TypingStats :=
  let budget := if budget ≤ 0 then defaultBudget else budget.toNat
  match ConstraintSystem.ofGraph g with
  | .error e => (.error (.constraints e), default)
  | .ok s =>
    let outcome := s.propagate g.domains s.all 0
    let stats : TypingStats :=
      { constraints := s.constraints.size, propagations := outcome.steps, searchNodes := 0 }
    match outcome.result with
    | .error c => (.error (.unsatisfiable (ConstraintSystem.unsatisfiable (some c))), stats)
    | .ok d =>
      if d.isComplete then (.ok d.assignment, stats)
      else
        let first := d.mostConstrained?.getD noPort
        let (result, stats) :=
          s.search first budget ⟨ConstraintSystem.choices d, none, stats⟩
        match result with
        | .ok d => (.ok d.assignment, stats)
        | .error e => (.error (.unsatisfiable e), stats)

/-! ### Checking assignments

An assignment is sound for a graph if every port has one of its declared types and every constraint
holds. -/

/-- Why an assignment is refused. -/
inductive CheckError where
  | size (given expected : Nat)
  | undeclared (port : Port) (owner : Node) (type : ValueType)
  | violated (constraint : Constraint)
  | constraints (e : ConstraintError)

def CheckError.message : CheckError → String
  | size given expected => s!"assignment has {given} ports, graph has {expected}"
  | undeclared p owner t =>
    s!"port {Text.quote p.name} of {owner.text} assigned {t}, not in its declared type {p.type}"
  | violated c => s!"constraint {c.text} violated by assignment"
  | constraints (.noRule k) => s!"typeresolve: no constraints defined for node kind {k}"
  | constraints (.fault f) => f.message

/-- Whether each port has one of its declared types. -/
def Graph.checkDeclared (g : Graph) (a : TypeAssignment) : Except CheckError Unit :=
  (g.ports.toList.zip a.toList).forM fun (p, t) =>
    if p.type.has t then .ok ()
    else
      match g.owner? p.id with
      | some owner => .error (.undeclared p owner t)
      | none => .error (.constraints (.fault .dangling))

/-- Succeeds on sound assignments and tells the first violation of others. -/
def Graph.checkTypes (g : Graph) (a : TypeAssignment) : Except CheckError Unit := do
  if a.size ≠ g.ports.size then throw (.size a.size g.ports.size)
  g.checkDeclared a
  match g.constraints with
  | .error e => throw (.constraints e)
  | .ok cs =>
    let d : Domains := a.map .singleton
    cs.forM fun c => if c.rule.holds d then .ok () else .error (.violated c)

end NodeShader
