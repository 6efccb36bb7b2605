import NodeShader.Failure
import NodeShader.Total

/-!
# Worker pools and latches

A pool bounds how many tasks run at a time. A latch is triggered once, with a value, and stays as it
is from then on.
-/

namespace NodeShader

/-- How many tasks may run at a time. -/
inductive PoolLimit where
  | unlimited
  /-- As many as the machine has processors. -/
  | machine
  | workers (count : Nat)
  deriving DecidableEq, Repr

/-- A negative number is no limit, and zero stands for the machine's own. -/
def PoolLimit.ofInt (n : Int) : PoolLimit :=
  if n < 0 then unlimited else if n = 0 then machine else workers n.toNat

/-- The number of workers on a machine of so many processors, if there is a limit. -/
def PoolLimit.capacity? (processors : Nat) : PoolLimit → Option Nat
  | unlimited => none
  | machine => some processors
  | workers count => some count

structure Pool where
  capacity : Option Nat
  running : Nat
  deriving DecidableEq, Repr

namespace Pool

def new (processors : Nat) (limit : PoolLimit) : Pool := ⟨limit.capacity? processors, 0⟩

def isFull (p : Pool) : Bool := p.capacity.any (· ≤ p.running)

/-- Ends a task, if one runs. -/
def release (p : Pool) : Pool := { p with running := p.running - 1 }

/-- Starts a task, unless the pool is full. -/
def start? (p : Pool) : Option Pool := if p.isFull then none else some { p with running := p.running + 1 }

/-- Starts a task, waiting for the end of another if the pool is full. Tells whether it waited. -/
def startOrWait (p : Pool) : Pool × Bool :=
  match p.start? with
  | some p => (p, false)
  | none => ({ p.release with running := p.release.running + 1 }, true)

end Pool

structure Latch (α : Type) where
  value : Option α
  deriving DecidableEq, Repr

namespace Latch

variable {α : Type}

def new : Latch α := ⟨none⟩

def isTriggered (l : Latch α) : Bool := l.value.isSome

/-- Triggers the latch; only the first value is kept. -/
def trigger (l : Latch α) (a : α) : Latch α := ⟨some (l.value.getD a)⟩

theorem trigger_trigger (l : Latch α) (a b : α) : (l.trigger a).trigger b = l.trigger a := rfl

end Latch

end NodeShader

/-!
## Dispatching stages

Stages run in parallel on a pool of workers, each after all the stages it depends on have succeeded.
A failed stage keeps those that depend on it from running, and no others. Cancellation keeps stages
from starting.

A `Dispatch` is the state of such a run, and a `Move` one thing that can happen next: what can happen
at any time is `Dispatch.perform?`, and a run in any order is a list of moves. `Dispatch.drive` makes
the moves of the first stages first.
-/

namespace NodeShader

/-- A stage to run. -/
structure Task where
  id : NodeId
  kind : StageKind
  dependencies : List NodeId
  /-- What its run ends with: nothing, or an error. -/
  failure : Option String

/-- How a stage ended. -/
inductive Outcome where
  | succeeded
  | failed (message : String)
  | skipped (dependency : NodeId)
  | cancelled
  deriving DecidableEq

/-- What a stage that is run ends with. -/
def Task.outcome (t : Task) : Outcome := t.failure.elim .succeeded .failed

/-- Where a stage is. -/
inductive Phase where
  /-- It waits for its dependency of this number; past the last one it is about to go on. -/
  | waiting (next : Nat)
  /-- It will not run, and has not told so yet. -/
  | leaving (outcome : Outcome)
  /-- It has told that it is cancelled, which is not yet recorded. -/
  | aborted
  /-- It asks for a worker. -/
  | queued
  /-- It sleeps until it is told that a worker is free. -/
  | asleep
  /-- It has a worker, which has not called its runner yet. -/
  | admitted
  | running
  /-- Its runner has returned, and an error of it is not yet recorded. -/
  | returned
  /-- Its outcome is recorded and not yet told. -/
  | recorded
  /-- Its outcome is told and its worker not yet free. -/
  | settled
  | ended
  deriving DecidableEq

/-- Whether the stage holds a worker. -/
def Phase.isBusy : Phase → Bool
  | admitted | running | returned | recorded | settled => true
  | _ => false

/-- Why a list of stages is refused. -/
inductive DispatchError where
  | unscheduled (stage dependency : NodeId)
  | repeated (stage : NodeId)
  deriving DecidableEq

def DispatchError.message : DispatchError → String
  | unscheduled stage dependency =>
    s!"stages: stage {stage} depends on {dependency}, which is not scheduled before it"
  | repeated stage => s!"stages: stage {stage} is listed twice"

/-- Checks that each stage is listed once and after its dependencies. -/
def checkTasks (listed : List NodeId) : List Task → Except DispatchError Unit
  | [] => .ok ()
  | t :: rest =>
    match t.dependencies.find? fun d => !listed.contains d with
    | some d => .error (.unscheduled t.id d)
    | none =>
      if listed.contains t.id then .error (.repeated t.id) else checkTasks (t.id :: listed) rest

/-- The state of a run. -/
structure Dispatch where
  tasks : List Task
  pool : Pool
  phases : List Phase
  /-- What each stage has told of its outcome. -/
  latches : List (Latch Outcome)
  cancelled : Bool
  /-- The first error of a runner or of the cancellation. -/
  firstError : Latch String
  /-- The stages whose runner was started, the last first. -/
  started : List Nat

/-- Something that can happen. -/
inductive Move where
  /-- A stage sees the outcome of the dependency it waits for, or goes on after the last one. -/
  | advance (stage : Nat)
  /-- A stage that waits for a dependency sees the cancellation. -/
  | notice (stage : Nat)
  /-- A stage finds a free worker. -/
  | enter (stage : Nat)
  /-- A stage finds no free worker. -/
  | sleep (stage : Nat)
  /-- A worker calls the runner of its stage. -/
  | start (stage : Nat)
  /-- The runner of a stage returns. -/
  | finish (stage : Nat)
  /-- The error of a runner, or the cancellation of a stage, is recorded. -/
  | record (stage : Nat)
  /-- The outcome of a stage is told to those that depend on it. -/
  | tell (stage : Nat)
  /-- The worker of a stage becomes free and wakes one of the stages that sleep, if there are any. -/
  | release (stage : Nat) (sleeper : Option Nat)
  /-- The run is cancelled. -/
  | cancel
  deriving DecidableEq, Repr

namespace Dispatch

def new (tasks : List Task) (pool : Pool) (cancelled : Bool) : Dispatch where
  tasks
  pool
  phases := tasks.map fun _ => .waiting 0
  latches := tasks.map fun _ => .new
  cancelled
  firstError := .new
  started := []

/-- What is told of a cancelled run. -/
def cancellation : String := "context canceled"

/-- The outcome that the stage of an identity has told. -/
def outcomeOf? (d : Dispatch) (id : NodeId) : Option Outcome := do
  let i ← d.tasks.findIdx? (·.id == id)
  (← d.latches[i]?).value

def setPhase (d : Dispatch) (i : Nat) (p : Phase) : Dispatch := { d with phases := d.phases.set i p }

/-- A runner's error with the stage it belongs to. -/
def runnerError (t : Task) (message : String) : String := s!"stage {t.id} ({t.kind.name}): {message}"

def advance? (d : Dispatch) (i : Nat) : Option Dispatch :=
  match d.tasks[i]?, d.phases[i]? with
  | some t, some (.waiting next) =>
    match t.dependencies[next]? with
    | some dependency =>
      match d.outcomeOf? dependency with
      | none => none
      | some .succeeded => some (d.setPhase i (.waiting (next + 1)))
      | some _ => some (d.setPhase i (.leaving (.skipped dependency)))
    | none => some (d.setPhase i (if d.cancelled then .leaving .cancelled else .queued))
  | _, _ => none

def notice? (d : Dispatch) (i : Nat) : Option Dispatch :=
  match d.tasks[i]?, d.phases[i]? with
  | some t, some (.waiting next) =>
    if d.cancelled && next < t.dependencies.length then some (d.setPhase i (.leaving .cancelled))
    else none
  | _, _ => none

def enter? (d : Dispatch) (i : Nat) : Option Dispatch :=
  match d.phases[i]? with
  | some .queued => d.pool.start?.map fun pool => { d.setPhase i .admitted with pool }
  | _ => none

def sleep? (d : Dispatch) (i : Nat) : Option Dispatch :=
  match d.phases[i]? with
  | some .queued => if d.pool.isFull then some (d.setPhase i .asleep) else none
  | _ => none

def start? (d : Dispatch) (i : Nat) : Option Dispatch :=
  match d.phases[i]? with
  | some .admitted => some { d.setPhase i .running with started := i :: d.started }
  | _ => none

def finish? (d : Dispatch) (i : Nat) : Option Dispatch :=
  match d.phases[i]? with
  | some .running => some (d.setPhase i .returned)
  | _ => none

def record? (d : Dispatch) (i : Nat) : Option Dispatch :=
  match d.tasks[i]?, d.phases[i]? with
  | some t, some .returned =>
    let error := (t.failure.map (runnerError t)).elim d.firstError d.firstError.trigger
    some { d.setPhase i .recorded with firstError := error }
  | some _, some .aborted =>
    some { d.setPhase i .ended with firstError := d.firstError.trigger cancellation }
  | _, _ => none

/-- Tells an outcome, after which the stage is in the given phase. -/
def told (d : Dispatch) (i : Nat) (o : Outcome) (p : Phase) : Dispatch :=
  { d.setPhase i p with latches := d.latches.modify i (·.trigger o) }

def tell? (d : Dispatch) (i : Nat) : Option Dispatch :=
  match d.tasks[i]?, d.phases[i]? with
  | some t, some .recorded => some (d.told i t.outcome .settled)
  | some _, some (.leaving o) => some (d.told i o (if o = .cancelled then .aborted else .ended))
  | _, _ => none

/-- Wakes a stage that sleeps. Only where none does, none is woken. -/
def wake? (d : Dispatch) : Option Nat → Option Dispatch
  | none => if d.phases.contains .asleep then none else some d
  | some j => if d.phases[j]? = some .asleep then some (d.setPhase j .queued) else none

def release? (d : Dispatch) (i : Nat) (sleeper : Option Nat) : Option Dispatch :=
  match d.phases[i]? with
  | some .settled => { d.setPhase i .ended with pool := d.pool.release }.wake? sleeper
  | _ => none

/-- The state after a move, if it can be made. -/
def perform? (d : Dispatch) : Move → Option Dispatch
  | .advance i => d.advance? i
  | .notice i => d.notice? i
  | .enter i => d.enter? i
  | .sleep i => d.sleep? i
  | .start i => d.start? i
  | .finish i => d.finish? i
  | .record i => d.record? i
  | .tell i => d.tell? i
  | .release i sleeper => d.release? i sleeper
  | .cancel => some { d with cancelled := true }

/-- The moves of one stage; a worker that becomes free wakes the first of those that sleep. -/
def movesOf (d : Dispatch) (i : Nat) : List Move :=
  [.release i (d.phases.findIdx? (· == .asleep)), .tell i, .record i, .finish i, .start i, .enter i,
    .sleep i, .advance i, .notice i]

/-- The moves of all stages, those of the first stage first. -/
def moves (d : Dispatch) : List Move := (List.range d.tasks.length).flatMap d.movesOf

/-- Makes the first move that can be made, `steps` times or until there is none. -/
def drive : (steps : Nat) → Dispatch → Dispatch
  | 0, d => d
  | steps + 1, d =>
    match d.moves.findSome? d.perform? with
    | some d => drive steps d
    | none => d

/-- A stage moves at most once for each dependency and nine times more, not counting the times it
falls asleep again: those it makes up for by the stage that woke it. -/
def moveBound (tasks : List Task) : Nat := total (·.dependencies.length + 9) tasks

/-- The outcome of a run of stages. -/
structure Summary where
  /-- The stages whose runner was started, in order. -/
  started : List Nat
  error : Option String

/-- Runs stages. The processors of the machine are not known here and taken to be enough. -/
def run (tasks : List Task) (limit : PoolLimit) (cancelled : Bool) : Summary :=
  match checkTasks [] tasks with
  | .error e => { started := [], error := some e.message }
  | .ok () =>
    let d := drive (moveBound tasks) (new tasks (.new tasks.length limit) cancelled)
    { started := d.started.reverse, error := d.firstError.value }

end Dispatch

end NodeShader
