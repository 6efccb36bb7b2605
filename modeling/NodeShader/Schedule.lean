import NodeShader.Graph.Basic
import NodeShader.Total

/-!
# Scheduling

Orders nodes so that each comes after the producers of its inputs among them. Of the nodes ready at a
time the first in the graph is taken. Nodes on a cycle, or downstream of one, cannot be ordered.

A node waits for one release per edge from a node of the list. `Schedule.potential` counts the ready
nodes and the releases still awaited; taking a node lowers it, so scheduling ends.
-/

namespace NodeShader

/-- The nodes that could not be ordered. -/
structure CycleError where
  nodes : List Node

def CycleError.message (e : CycleError) : String :=
  s!"dependency cycle among {e.nodes.length} nodes: " ++ ", ".intercalate (e.nodes.map Node.text)

/-- The ready nodes, ascending, and how many releases each node awaits. -/
structure Schedule where
  ready : List Nat
  pending : List Int

namespace Schedule

/-- Inserts into an ascending list. -/
def insertSorted (i : Nat) : List Nat → List Nat
  | [] => [i]
  | j :: rest => if i ≤ j then i :: j :: rest else j :: insertSorted i rest

/-- One release of node `i`; the last awaited one makes it ready. -/
def release (s : Schedule) (i : Nat) : Schedule :=
  match s.pending[i]? with
  | none => s
  | some n =>
    { ready := if n = 1 then insertSorted i s.ready else s.ready
      pending := s.pending.set i (n - 1) }

/-- The releases still awaited. -/
def awaited (pending : List Int) : Nat := total Int.toNat pending

/-- Ready nodes and awaited releases together. -/
def potential (s : Schedule) : Nat := s.ready.length + awaited s.pending

theorem length_insertSorted (i : Nat) (l : List Nat) :
    (insertSorted i l).length = l.length + 1 := by
  induction l with
  | nil => rfl
  | cons j rest ih => simp only [insertSorted]; split <;> simp [ih]

theorem potential_release_le (s : Schedule) (i : Nat) : (s.release i).potential ≤ s.potential := by
  unfold release
  split
  · exact Nat.le_refl _
  · rename_i n hn
    obtain ⟨hi, hget⟩ := List.getElem?_eq_some_iff.1 hn
    have hsum := total_set Int.toNat s.pending i (n - 1) hi
    rw [hget] at hsum
    simp only [potential, awaited]
    split
    · rename_i h1
      subst h1
      rw [length_insertSorted]
      simp only [Int.reduceSub] at hsum ⊢
      have h1 : Int.toNat 1 = 1 := rfl
      have h0 : Int.toNat 0 = 0 := rfl
      omega
    · omega

theorem potential_foldl_release_le (l : List Nat) (s : Schedule) :
    (l.foldl release s).potential ≤ s.potential := by
  induction l generalizing s with
  | nil => exact Nat.le_refl _
  | cons i l ih => exact Nat.le_trans (ih _) (potential_release_le s i)

/-- Takes ready nodes until none is left. Gives the order and the releases still awaited. -/
def drain (sinks : Nat → List Nat) (s : Schedule) : List Nat × List Int :=
  match _hs : s.ready with
  | [] => ([], s.pending)
  | i :: rest =>
    let (order, pending) := drain sinks ((sinks i).foldl release { s with ready := rest })
    (i :: order, pending)
termination_by s.potential
decreasing_by
  have := potential_foldl_release_le (sinks i) { s with ready := rest }
  simp only [potential, _hs, List.length_cons] at this ⊢
  omega

end Schedule

/-- Orders the nodes at the given positions; producers outside the list are taken as done. -/
def Graph.schedule (g : Graph) (nodes : List Nat) : Except CycleError (List Nat) :=
  let size := g.nodes.size
  let count (i : Nat) : Int :=
    match g.nodes[i]? with
    | some n => if nodes.contains i then (g.sources n).countP nodes.contains else 0
    | none => 0
  let pending := (List.range size).map count
  let ready := nodes.foldl (fun ready i => if count i = 0 then Schedule.insertSorted i ready else ready) []
  let sinks (i : Nat) : List Nat :=
    match g.nodes[i]? with
    | some n => (g.sinks n).filter nodes.contains
    | none => []
  let (order, pending) := Schedule.drain sinks { ready, pending }
  if order.length = nodes.length then .ok order
  else
    .error ⟨((List.range size).filter fun i => nodes.contains i && decide (0 < pending.getD i 0)).filterMap
      fun i => g.nodes[i]?⟩

end NodeShader
