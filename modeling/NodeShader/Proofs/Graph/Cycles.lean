import Mathlib
import NodeShader.Proofs.Graph.Scheduling

/-!
# What cannot be scheduled

Scheduling fails exactly if the nodes have a cycle among them, and then tells the nodes on a cycle or
downstream of one (`Built.schedule_cyclic`).

A node that was taken comes after all it needs, so neither it nor anything upstream of it is on a
cycle.  A node that was left over needs another that was left over, and among finitely many nodes this
leads back to a cycle (`exists_cycle`).
-/

namespace NodeShader

open Relation

/-- Going back along a relation within finitely many elements, a cycle is met. -/
theorem exists_cycle {α : Type} {R : α → α → Prop} {S : Set α} (hS : S.Finite)
    (hback : ∀ a ∈ S, ∃ b ∈ S, R b a) {a : α} (ha : a ∈ S) :
    ∃ k, TransGen R k k ∧ ReflTransGen R k a := by
  by_contra hnone
  simp only [not_exists, not_and] at hnone
  -- without a cycle, going back from `a` is well-founded, but it never ends
  let T := {b // b ∈ S ∧ ReflTransGen R b a}
  let before : T → T → Prop := fun b c => TransGen R b.1 c.1
  have : Finite T := (hS.subset fun b (hb : b ∈ S ∧ ReflTransGen R b a) => hb.1).to_subtype
  have : IsTrans T before := ⟨fun _ _ _ hab hbc => TransGen.trans hab hbc⟩
  have : Std.Irrefl before := ⟨fun b hb => hnone b.1 hb b.2.2⟩
  have hwf : WellFounded before := Finite.wellFounded_of_trans_of_irrefl before
  obtain ⟨b, -, hmin⟩ := hwf.has_min Set.univ ⟨⟨a, ha, .refl⟩, trivial⟩
  obtain ⟨c, hc, hcb⟩ := hback b.1 b.2.1
  exact hmin ⟨c, hc, .head hcb b.2.2⟩ trivial (.single hcb)

theorem map_some_filterMap {α β : Type} {f : α → Option β} {l : List α}
    (h : ∀ a ∈ l, (f a).isSome = true) : (l.filterMap f).map some = l.map f := by
  induction l with
  | nil => rfl
  | cons a l ih =>
    rw [List.forall_mem_cons] at h
    obtain ⟨b, hb⟩ := Option.isSome_iff_exists.1 h.1
    rw [List.filterMap_cons, hb, List.map_cons, List.map_cons, hb, ih h.2]

namespace Graph

variable {g : Graph} {nodes order : List Nat} {i j : Nat}

/-- Within a list of nodes, one feeds an input of another. -/
def Feeds (g : Graph) (nodes : List Nat) (j i : Nat) : Prop :=
  j ∈ nodes ∧ i ∈ nodes ∧ ∃ n, g.nodes[i]? = some n ∧ j ∈ g.sources n

/-- A node on a dependency cycle within a list of nodes. -/
def OnCycle (g : Graph) (nodes : List Nat) (i : Nat) : Prop := TransGen (g.Feeds nodes) i i

/-- A node on such a cycle or downstream of one. -/
def Blocked (g : Graph) (nodes : List Nat) (i : Nat) : Prop :=
  ∃ k, g.OnCycle nodes k ∧ ReflTransGen (g.Feeds nodes) k i

theorem feeds_iff : g.Feeds nodes j i ↔ i ∈ nodes ∧ j ∈ g.needs nodes i := by
  constructor
  · rintro ⟨hj, hi, n, hn, hjn⟩
    exact ⟨hi, (mem_needs hn).2 ⟨hjn, hj⟩⟩
  · rintro ⟨hi, hj⟩
    cases hn : g.nodes[i]? with
    | none =>
      simp only [needs, hn] at hj
      cases hj
    | some n =>
      rw [mem_needs hn] at hj
      exact ⟨hj.2, hi, n, hn, hj.1⟩

theorem OnCycle.mem (h : g.OnCycle nodes i) : i ∈ nodes := by
  obtain ⟨j, -, hj⟩ := TransGen.tail'_iff.1 h
  exact hj.2.1

theorem Blocked.mem (h : g.Blocked nodes i) : i ∈ nodes := by
  obtain ⟨k, hk, hki⟩ := h
  rcases ReflTransGen.cases_tail hki with rfl | ⟨j, -, hj⟩
  · exact hk.mem
  · exact hj.2.1

/-! ### What is taken -/

/-- Whatever leads to a node of an order that respects needs comes before it. -/
theorem idxOf_lt_of_feeds (hnd : order.Nodup) (hord : Schedule.Follows (g.needs nodes) [] order)
    (h : TransGen (g.Feeds nodes) j i) (hi : i ∈ order) :
    j ∈ order ∧ order.idxOf j < order.idxOf i := by
  have hstep : ∀ j i, g.Feeds nodes j i → i ∈ order → j ∈ order ∧ order.idxOf j < order.idxOf i := by
    intro j i hji hi
    obtain ⟨A, B, hAB⟩ := List.append_of_mem hi
    have hjA : j ∈ A := hord A i B hAB (feeds_iff.1 hji).2
    have hiA : i ∉ A := by
      rw [hAB] at hnd
      exact fun hiA => (List.nodup_append.1 hnd).2.2 i hiA i List.mem_cons_self rfl
    rw [hAB, List.idxOf_append_of_mem hjA, List.idxOf_append_of_notMem hiA, List.idxOf_cons_self]
    exact ⟨List.mem_append_left _ hjA, List.idxOf_lt_length_iff.2 hjA⟩
  induction h using TransGen.head_induction_on with
  | single hji => exact hstep _ _ hji hi
  | head hjk _ ih =>
    obtain ⟨hj, hlt⟩ := hstep _ _ hjk ih.1
    exact ⟨hj, Nat.lt_trans hlt ih.2⟩

/-- Nothing blocked is taken. -/
theorem Blocked.notMem (h : g.Blocked nodes i) (hnd : order.Nodup)
    (hord : Schedule.Follows (g.needs nodes) [] order) : i ∉ order := by
  obtain ⟨k, hk, hki⟩ := h
  intro hi
  have hko : k ∈ order := by
    rcases reflTransGen_iff_eq_or_transGen.1 hki with rfl | hki
    · exact hi
    · exact (idxOf_lt_of_feeds hnd hord hki hi).1
  exact Nat.lt_irrefl _ (idxOf_lt_of_feeds hnd hord hk hko).2

/-! ### What is left over -/

variable (g nodes) in
/-- The nodes that draining takes. -/
def taken : List Nat := (Schedule.drain (g.frees nodes) (g.start nodes)).1

variable (g nodes) in
/-- The releases that are still awaited after draining. -/
def owed : List Int := (Schedule.drain (g.frees nodes) (g.start nodes)).2

/-- Draining ends exact, with no node ready. -/
theorem taken_exact (hnd : nodes.Nodup) (hlt : ∀ i ∈ nodes, i < g.nodes.size) :
    Schedule.Exact nodes (g.needs nodes) ((g.taken nodes).reverse ++ [])
      (Schedule.released (g.frees nodes) ((g.taken nodes).reverse ++ [])) ⟨[], g.owed nodes⟩ :=
  (start_exact hnd hlt).drain fun _ _ => mem_of_mem_frees

/-- What still awaits releases was not taken. -/
theorem mem_stuck (hnd : nodes.Nodup) (hlt : ∀ i ∈ nodes, i < g.nodes.size) :
    i ∈ g.stuck nodes (g.owed nodes) ↔ i ∈ nodes ∧ i ∉ g.taken nodes := by
  have hend := taken_exact hnd hlt
  have howed : i ∈ nodes → (0 < (g.owed nodes).getD i 0 ↔ i ∉ g.taken nodes) := by
    intro hi
    have hmet := hend.met i
    have hcomplete := hend.complete i hi
    simp only [List.append_nil, List.mem_reverse] at hmet hcomplete
    rw [List.getD_eq_getElem?_getD, hend.counts i hi, Option.getD_some]
    simp only [List.append_nil]
    constructor
    · intro h hi
      have := (hmet hi).2
      omega
    · intro h
      have := mt hcomplete h
      omega
  rw [stuck, List.mem_filter, List.mem_range, Bool.and_eq_true, List.contains_iff_mem,
    decide_eq_true_eq]
  constructor
  · rintro ⟨-, hi, h⟩
    exact ⟨hi, (howed hi).1 h⟩
  · rintro ⟨hi, h⟩
    exact ⟨hlt i hi, hi, (howed hi).2 h⟩

namespace Consistent

variable (hg : g.Consistent) (hnd : nodes.Nodup) (hlt : ∀ i ∈ nodes, i < g.nodes.size)
include hg hnd hlt

theorem taken_sorted : (g.taken nodes).Nodup ∧ (∀ i ∈ g.taken nodes, i ∈ nodes) ∧
    Schedule.Follows (g.needs nodes) [] (g.taken nodes) :=
  Schedule.drain_sorted (fun _ _ => mem_of_mem_frees) (hg.count_frees hlt) (start_invariant hnd hlt)

/-- A node is taken exactly if all it needs is. -/
theorem mem_taken_iff (hi : i ∈ nodes) : i ∈ g.taken nodes ↔ g.needs nodes i ⊆ g.taken nodes := by
  have h := (taken_exact hnd hlt).mem_iff (hg.count_frees hlt) hi
  simpa [List.subset_def] using h

/-- **Draining leaves exactly the blocked nodes.** -/
theorem notMem_taken_iff (hi : i ∈ nodes) : i ∉ g.taken nodes ↔ g.Blocked nodes i := by
  obtain ⟨hord, -, hfollows⟩ := hg.taken_sorted hnd hlt
  refine ⟨fun hleft => ?_, fun h => h.notMem hord hfollows⟩
  have hS : Set.Finite {k | k ∈ nodes ∧ k ∉ g.taken nodes} :=
    (List.finite_toSet nodes).subset fun k hk => hk.1
  refine exists_cycle hS ?_ ⟨hi, hleft⟩
  -- what is left over needs something that is left over
  rintro k ⟨hk, hkt⟩
  have hopen : ∃ j ∈ g.needs nodes k, j ∉ g.taken nodes := by
    by_contra hnone
    simp only [not_exists, not_and, not_not] at hnone
    exact hkt ((hg.mem_taken_iff hnd hlt hk).2 hnone)
  obtain ⟨j, hj, hjt⟩ := hopen
  have hfeeds := feeds_iff.2 ⟨hk, hj⟩
  exact ⟨j, ⟨hfeeds.1, hjt⟩, hfeeds⟩

/-- Everything is taken unless a node is blocked. -/
theorem length_taken : (g.taken nodes).length = nodes.length ↔ ∀ i, ¬ g.Blocked nodes i := by
  obtain ⟨hord, hsub, -⟩ := hg.taken_sorted hnd hlt
  have hperm := List.subperm_of_subset hord hsub
  constructor
  · intro hl i hi
    have hp := hperm.perm_of_length_le (Nat.le_of_eq hl.symm)
    exact (hg.notMem_taken_iff hnd hlt hi.mem).2 hi (hp.mem_iff.2 hi.mem)
  · intro hnone
    have hall : nodes ⊆ g.taken nodes := fun i hi => by
      by_contra hleft
      exact hnone i ((hg.notMem_taken_iff hnd hlt hi).1 hleft)
    exact Nat.le_antisymm hperm.length_le (List.subperm_of_subset hnd hall).length_le

end Consistent

theorem blocked_iff_onCycle : (∃ i, g.Blocked nodes i) ↔ ∃ i, g.OnCycle nodes i :=
  ⟨fun ⟨_, k, hk, _⟩ => ⟨k, hk⟩, fun ⟨i, hi⟩ => ⟨i, i, hi, .refl⟩⟩

/-- **Scheduling fails exactly on cycles.**  The schedule of distinct nodes fails if and only if there
is a dependency cycle among them, and then tells, in the order of the graph and each once, the nodes
on such a cycle or downstream of one. -/
theorem Built.schedule_cyclic (hg : g.Built) (hnd : nodes.Nodup)
    (hlt : ∀ i ∈ nodes, i < g.nodes.size) :
    ((∃ e, g.schedule nodes = .error e) ↔ ∃ i, g.OnCycle nodes i) ∧
    ∀ e, g.schedule nodes = .error e → ∃ blocked : List Nat, blocked.Pairwise (· < ·) ∧
      (∀ i, i ∈ blocked ↔ g.Blocked nodes i) ∧
      e.nodes.map some = blocked.map fun i => g.nodes[i]? := by
  have hg := hg.consistent
  have hschedule : g.schedule nodes = if (g.taken nodes).length = nodes.length then .ok (g.taken nodes)
      else .error ⟨(g.stuck nodes (g.owed nodes)).filterMap fun i => g.nodes[i]?⟩ := schedule_eq
  rw [hschedule]
  constructor
  · rw [← blocked_iff_onCycle]
    split
    · rename_i hl
      have hnone := (hg.length_taken hnd hlt).1 hl
      exact ⟨fun ⟨e, he⟩ => (by cases he), fun ⟨i, hi⟩ => absurd hi (hnone i)⟩
    · rename_i hl
      refine ⟨fun _ => ?_, fun _ => ⟨_, rfl⟩⟩
      by_contra hnone
      exact hl ((hg.length_taken hnd hlt).2 (not_exists.1 hnone))
  · intro e he
    split at he
    · cases he
    cases he
    refine ⟨g.stuck nodes (g.owed nodes), List.pairwise_lt_range.filter _, ?_, ?_⟩
    · intro i
      rw [mem_stuck hnd hlt]
      exact ⟨fun ⟨hi, hl⟩ => (hg.notMem_taken_iff hnd hlt hi).1 hl,
        fun hi => ⟨hi.mem, (hg.notMem_taken_iff hnd hlt hi.mem).2 hi⟩⟩
    · refine map_some_filterMap fun i hi => ?_
      rw [Array.getElem?_eq_getElem (hlt i ((mem_stuck hnd hlt).1 hi).1)]
      rfl

/-- Two nodes that feed each other, and a third that one of them feeds: no schedule takes the three of
them, but it takes a fourth. -/
theorem schedule_cyclic_pair :
    let g := Graph.grown [.node (Uuid.ofBytes [1]) "" .add .none,
      .node (Uuid.ofBytes [2]) "" .add .none, .node (Uuid.ofBytes [3]) "" .negate .none,
      .node (Uuid.ofBytes [4]) "" .time .none, .edge 2 3, .edge 5 0, .edge 5 6, .edge 8 1]
    [3, 2, 1, 0].Nodup ∧ (∀ i ∈ [3, 2, 1, 0], i < g.nodes.size) ∧ (∃ i, g.OnCycle [3, 2, 1, 0] i) ∧
      ∃ e, g.schedule [3, 2, 1, 0] = .error e ∧ e.nodes.map (·.index) = [0, 1, 2] ∧
        ∃ blocked : List Nat, blocked.Pairwise (· < ·) ∧
          (∀ i, i ∈ blocked ↔ g.Blocked [3, 2, 1, 0] i) ∧
          e.nodes.map some = blocked.map fun i => g.nodes[i]? := by
  intro g
  have hlt : ∀ i ∈ [3, 2, 1, 0], i < g.nodes.size := by decide +kernel
  have h : (match g.schedule [3, 2, 1, 0] with
      | .ok _ => []
      | .error e => e.nodes.map (·.index)) = [0, 1, 2] := by decide +kernel
  obtain ⟨hiff, herror⟩ := (Built.grown _ : g.Built).schedule_cyclic (by decide) hlt
  cases he : g.schedule [3, 2, 1, 0] with
  | ok order =>
    rw [he] at h
    cases h
  | error e =>
    rw [he] at h
    exact ⟨by decide, hlt, hiff.1 ⟨e, he⟩, e, rfl, h, herror e he⟩

end Graph

end NodeShader
