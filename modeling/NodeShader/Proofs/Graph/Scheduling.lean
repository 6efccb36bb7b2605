import Mathlib
import NodeShader.Proofs.Graph.Ordering
import NodeShader.Proofs.Outcome

/-!
# The least schedule

Of the ready nodes the first in the graph is taken, so a schedule is the lexicographically least
order in which every node comes after its producers (`Built.schedule_least`).

Draining is exact (`Schedule.Exact`): the ready nodes ascend, and *every* node that has got its
releases is ready or done.  An order that respects producers starts with a node whose needs are done;
that node is ready, so it is not before the one that is taken.  When draining ends, only nodes with
needs that were never done are left (`Exact.drain`).
-/

namespace NodeShader

namespace Schedule

variable {nodes : List Nat} {needs sinks : Nat → List Nat} {done other : List Nat} {given : Nat → Nat}
  {s : Schedule}

theorem pairwise_insertSorted {i : Nat} {l : List Nat} (h : l.Pairwise (· ≤ ·)) :
    (insertSorted i l).Pairwise (· ≤ ·) := by
  induction l with
  | nil => exact List.pairwise_singleton _ i
  | cons j rest ih =>
    obtain ⟨hj, hrest⟩ := List.pairwise_cons.1 h
    rw [insertSorted]
    split
    · rename_i hij
      refine List.pairwise_cons.2 ⟨fun k hk => ?_, h⟩
      rcases List.mem_cons.1 hk with rfl | hk
      · exact hij
      · exact Nat.le_trans hij (hj k hk)
    · refine List.pairwise_cons.2 ⟨fun k hk => ?_, ih hrest⟩
      rcases List.mem_cons.1 ((perm_insertSorted i rest).mem_iff.1 hk) with rfl | hk
      · omega
      · exact hj k hk

theorem pairwise_foldl_insertSorted (test : Nat → Bool) {l acc : List Nat}
    (h : acc.Pairwise (· ≤ ·)) :
    (l.foldl (fun ready i => if test i then insertSorted i ready else ready) acc).Pairwise
      (· ≤ ·) := by
  induction l generalizing acc with
  | nil => exact h
  | cons i l ih =>
    rw [List.foldl_cons]
    refine ih ?_
    split
    · exact pairwise_insertSorted h
    · exact h

/-- The exact state of draining: ready nodes ascend, and all that got their releases are ready or
done. -/
structure Exact (nodes : List Nat) (needs : Nat → List Nat) (done : List Nat) (given : Nat → Nat)
    (s : Schedule) : Prop extends Invariant nodes needs done given s where
  ascending : s.ready.Pairwise (· ≤ ·)
  complete : ∀ i ∈ nodes, (needs i).length ≤ given i → i ∈ done ++ s.ready

namespace Exact

theorem release {i : Nat} (h : Exact nodes needs done given s) (hi : i ∈ nodes) :
    Exact nodes needs done (fun k => given k + [i].count k) (s.release i) where
  toInvariant := h.toInvariant.release hi
  ascending := by
    rw [Schedule.release, h.counts i hi]
    dsimp only
    split
    · exact pairwise_insertSorted h.ascending
    · exact h.ascending
  complete := by
    intro k hk hle
    rw [Schedule.release, h.counts i hi]
    dsimp only
    have hkeep : k ∈ done ++ s.ready → k ∈ done ++ insertSorted i s.ready := by
      simp only [List.mem_append, (perm_insertSorted i s.ready).mem_iff, List.mem_cons]
      exact Or.imp_right .inr
    by_cases hki : k = i
    · subst hki
      rw [List.count_singleton_self] at hle
      split
      · rw [List.mem_append, (perm_insertSorted k s.ready).mem_iff]
        exact .inr List.mem_cons_self
      · -- it got its last release before
        exact h.complete k hk (by omega)
    · rw [List.count_eq_zero_of_not_mem (by simpa using hki)] at hle
      have hold := h.complete k hk hle
      split
      · exact hkeep hold
      · exact hold

/-- The least ready node is taken and releases the nodes that need it. -/
theorem take {i : Nat} {rest : List Nat} (hsinks : ∀ j, ∀ i ∈ sinks j, i ∈ nodes)
    (h : Exact nodes needs done (released sinks done) s) (hs : s.ready = i :: rest) :
    Exact nodes needs (i :: done) (released sinks (i :: done))
      ((sinks i).foldl Schedule.release { s with ready := rest }) := by
  have htake : Exact nodes needs (i :: done) (released sinks done) { s with ready := rest } := by
    refine ⟨h.toInvariant.take hs, ?_, fun k hk hle => ?_⟩
    · exact (List.pairwise_cons.1 (hs ▸ h.ascending)).2
    · have hk := h.complete k hk hle
      rw [hs] at hk
      exact List.perm_middle.mem_iff.1 hk
  have hnext := releases_induction (fun _ _ _ hi h => h.release hi) (hsinks i) htake
  simp only [← released_cons] at hnext
  exact hnext

/-- **A node is ready or done exactly if all of its needs are done.** -/
theorem mem_iff {i : Nat} (h : Exact nodes needs done (released sinks done) s)
    (hcount : ∀ i ∈ nodes, ∀ j ∈ nodes, (sinks j).count i = (needs i).count j) (hi : i ∈ nodes) :
    i ∈ done ++ s.ready ↔ needs i ⊆ done := by
  have hd : done.Nodup := (List.nodup_append.1 h.nodup).1
  have hsub : ∀ j ∈ done, j ∈ nodes := fun j hj => (h.met j (List.mem_append_left _ hj)).1
  constructor
  · intro hm
    exact needs_subset_of_released hi hd hsub hcount (h.met i hm).2
  · intro hn
    refine h.complete i hi (Nat.le_of_eq ?_)
    rw [released_eq hi hd hsub hcount]
    exact (List.countP_eq_length.2 fun j hj => by simpa using hn hj).symm

/-- **Draining ends exact**, with no node ready. -/
theorem drain (hsinks : ∀ j, ∀ i ∈ sinks j, i ∈ nodes)
    (h : Exact nodes needs done (released sinks done) s) :
    Exact nodes needs ((Schedule.drain sinks s).1.reverse ++ done)
      (released sinks ((Schedule.drain sinks s).1.reverse ++ done))
      ⟨[], (Schedule.drain sinks s).2⟩ := by
  fun_induction Schedule.drain sinks s generalizing done with
  | case1 s hs =>
    obtain ⟨ready, pending⟩ := s
    cases hs
    exact h
  | case2 s i rest hs order pending heq ih =>
    have hend := ih (h.take hsinks hs)
    rw [heq] at hend
    simpa using hend

/-- **What draining gives is least** among the orders that respect the needs. -/
theorem drain_le (hsinks : ∀ j, ∀ i ∈ sinks j, i ∈ nodes)
    (hcount : ∀ i ∈ nodes, ∀ j ∈ nodes, (sinks j).count i = (needs i).count j)
    (h : Exact nodes needs done (released sinks done) s) (hnd : (done ++ other).Nodup)
    (hmem : ∀ i, i ∈ nodes ↔ i ∈ done ++ other) (hother : Follows needs done other) :
    (Schedule.drain sinks s).1 = other ∨ List.Lex (· < ·) (Schedule.drain sinks s).1 other := by
  fun_induction Schedule.drain sinks s generalizing done other with
  | case1 s hs =>
    cases other with
    | nil => exact .inl rfl
    | cons k other => exact .inr .nil
  | case2 s i rest hs order pending heq ih =>
    have hready : i ∈ s.ready := by
      rw [hs]
      exact List.mem_cons_self
    have hdisj : i ∉ done := fun hid => (List.nodup_append.1 h.nodup).2.2 i hid i hready rfl
    cases other with
    | nil =>
      have hi := (hmem i).1 (h.met i (List.mem_append_right _ hready)).1
      rw [List.append_nil] at hi
      exact absurd hi hdisj
    | cons k other =>
      have hk : k ∈ nodes := (hmem k).2 (by simp)
      have hkd : k ∉ done := fun hkd => (List.nodup_append.1 hnd).2.2 k hkd k List.mem_cons_self rfl
      obtain ⟨hneeds, hrest⟩ := follows_cons.1 hother
      -- the first node of the other order is ready too
      have hkr : k ∈ i :: rest := by
        rw [← hs]
        exact (List.mem_append.1 ((h.mem_iff hcount hk).2 hneeds)).resolve_left hkd
      have hle : i ≤ k := by
        rcases List.mem_cons.1 hkr with rfl | hkr
        · exact Nat.le_refl k
        · exact (List.pairwise_cons.1 (hs ▸ h.ascending)).1 k hkr
      rcases Nat.lt_or_eq_of_le hle with hlt | rfl
      · exact .inr (.rel hlt)
      · have hend := ih (h.take hsinks hs) (List.perm_middle.nodup_iff.1 hnd)
          (fun j => (hmem j).trans List.perm_middle.mem_iff) hrest
        rw [heq] at hend
        exact hend.imp (congrArg (i :: ·)) .cons

end Exact

end Schedule

namespace Graph

variable {g : Graph} {nodes order : List Nat}

/-- **An order in which every node comes after the producers of its inputs** that are in it. -/
def Topological (g : Graph) (order : List Nat) : Prop :=
  ∀ i n, g.nodes[i]? = some n → i ∈ order → ∀ j ∈ g.sources n, j ∈ order →
    order.idxOf j < order.idxOf i

theorem Topological.follows (h : g.Topological order) (hnd : order.Nodup)
    (hmem : ∀ i, i ∈ nodes ↔ i ∈ order) : Schedule.Follows (g.needs nodes) [] order := by
  intro A i B hAB j hj
  cases hn : g.nodes[i]? with
  | none =>
    simp only [needs, hn] at hj
    cases hj
  | some n =>
    rw [mem_needs hn] at hj
    have hi : i ∈ order := by
      rw [hAB]
      exact List.mem_append_right A List.mem_cons_self
    have hlt := h i n hn hi j hj.1 ((hmem j).1 hj.2)
    subst hAB
    have hiA : i ∉ A := fun hiA => (List.nodup_append.1 hnd).2.2 i hiA i List.mem_cons_self rfl
    rw [List.idxOf_append_of_notMem hiA, List.idxOf_cons_self] at hlt
    by_contra hjA
    rw [List.nil_append] at hjA
    rw [List.idxOf_append_of_notMem hjA] at hlt
    omega

theorem pairwise_start : (g.start nodes).ready.Pairwise (· ≤ ·) := by
  have := Schedule.pairwise_foldl_insertSorted (fun i => g.waits nodes i = 0) (l := nodes)
    List.Pairwise.nil
  simpa [start] using this

/-- Draining starts exact. -/
theorem start_exact (hnd : nodes.Nodup) (hlt : ∀ i ∈ nodes, i < g.nodes.size) :
    Schedule.Exact nodes (g.needs nodes) [] (Schedule.released (g.frees nodes) []) (g.start nodes) where
  toInvariant := Consistent.start_invariant hnd hlt
  ascending := pairwise_start
  complete := by
    intro i hi hle
    rw [Schedule.released, total, Nat.le_zero] at hle
    rw [List.nil_append, perm_start.mem_iff, List.mem_filter, decide_eq_true_eq, waits_eq hlt hi, hle]
    exact ⟨hi, rfl⟩

/-- **The order of the argument does not matter.** -/
theorem schedule_perm {nodes' : List Nat} (h : nodes'.Perm nodes) :
    g.schedule nodes' = g.schedule nodes := by
  have hc : ∀ i, nodes'.contains i = nodes.contains i := by
    intro i
    rw [Bool.eq_iff_iff, List.contains_iff_mem, List.contains_iff_mem, h.mem_iff]
  have hwaits : g.waits nodes' = g.waits nodes := by
    funext i
    simp only [waits, hc, funext hc]
  have hfrees : g.frees nodes' = g.frees nodes := by
    funext i
    simp only [frees, funext hc]
  have hready : (g.start nodes').ready = (g.start nodes).ready := by
    refine List.Perm.eq_of_pairwise (fun _ _ _ _ => Nat.le_antisymm) pairwise_start pairwise_start ?_
    refine perm_start.trans (List.Perm.trans ?_ perm_start.symm)
    rw [hwaits]
    exact h.filter _
  have hstart : g.start nodes' = g.start nodes := by
    have hpending : (g.start nodes').pending = (g.start nodes).pending := by
      rw [start, start, hwaits]
    exact congrArg₂ Schedule.mk hready hpending
  have hstuck : g.stuck nodes' = g.stuck nodes := by
    funext pending
    simp only [stuck, hc]
  rw [schedule_eq, schedule_eq, hfrees, hstart, hstuck, h.length_eq]

/-- **Schedules are least.**  The schedule of distinct nodes is a permutation of them in which every
node comes after its producers, the lexicographically least of these, however the nodes are given. -/
theorem Built.schedule_least (hg : g.Built) (hnd : nodes.Nodup) (hlt : ∀ i ∈ nodes, i < g.nodes.size)
    (h : g.schedule nodes = .ok order) :
    order.Perm nodes ∧ g.Topological order ∧
    (∀ other, other.Perm nodes → g.Topological other →
      order = other ∨ List.Lex (· < ·) order other) ∧
    ∀ nodes', nodes'.Perm nodes → g.schedule nodes' = .ok order := by
  obtain ⟨hord, hmem, hsorted⟩ := hg.consistent.schedule_sorted hnd hlt h
  refine ⟨(List.perm_ext_iff_of_nodup hord hnd).2 hmem, ?_, ?_, ?_⟩
  · exact fun i n hn hi j hj hjo => hsorted i n hn hi j hj ((hmem j).1 hjo)
  · intro other hperm htop
    have hnd' := hperm.nodup_iff.2 hnd
    rw [← (drain_of_schedule h).1]
    exact (start_exact hnd hlt).drain_le (fun _ _ => mem_of_mem_frees) (hg.consistent.count_frees hlt)
      hnd' (fun i => hperm.mem_iff.symm) (htop.follows hnd' fun i => hperm.mem_iff.symm)
  · intro nodes' hperm
    rw [schedule_perm hperm, h]

/-- Two nodes feed a third that was made before them: of the two, the one made first comes first. -/
theorem schedule_least_sum :
    let g := Graph.grown [.node (Uuid.ofBytes [1]) "" .add .none,
      .node (Uuid.ofBytes [2]) "" .time .none, .node (Uuid.ofBytes [3]) "" .time .none,
      .edge 3 1, .edge 4 0]
    [0, 2, 1].Nodup ∧ (∀ i ∈ [0, 2, 1], i < g.nodes.size) ∧ g.schedule [0, 2, 1] = .ok [1, 2, 0] ∧
      [1, 2, 0].Perm [0, 2, 1] ∧ g.Topological [1, 2, 0] ∧
      (∀ other, other.Perm [0, 2, 1] → g.Topological other →
        [1, 2, 0] = other ∨ List.Lex (· < ·) [1, 2, 0] other) ∧
      ∀ nodes', nodes'.Perm [0, 2, 1] → g.schedule nodes' = .ok [1, 2, 0] := by
  intro g
  have hlt : ∀ i ∈ [0, 2, 1], i < g.nodes.size := by decide +kernel
  have h : (g.schedule [0, 2, 1]).toOption = some [1, 2, 0] := by decide +kernel
  have h : g.schedule [0, 2, 1] = .ok [1, 2, 0] := toOption_eq_some.1 h
  exact ⟨by decide, hlt, h, (Built.grown _).schedule_least (by decide) hlt h⟩

end Graph

end NodeShader
