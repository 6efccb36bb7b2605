import Mathlib.Data.List.Perm.Subperm
import NodeShader.Proofs.Graph.Wiring
import NodeShader.Schedule

/-!
# Schedules

A schedule lists each node once, after the producers of its inputs among the nodes
(`Consistent.schedule_sorted`).

The invariant of draining (`Schedule.Invariant`) counts releases: a node awaits as many releases as
it has needs, less those already given, and a node that is ready or done awaits none.  A node gets a
release for each edge from a done node, so when it is ready all of its needs are done.
-/

namespace NodeShader

namespace Schedule

/-- The state of draining: `needs` are the nodes a node waits for, `done` those taken, and `given`
the releases each node got. -/
structure Invariant (nodes : List Nat) (needs : Nat → List Nat) (done : List Nat)
    (given : Nat → Nat) (s : Schedule) : Prop where
  counts : ∀ i ∈ nodes, s.pending[i]? = some ((needs i).length - given i : Int)
  met : ∀ i ∈ done ++ s.ready, i ∈ nodes ∧ (needs i).length ≤ given i
  nodup : (done ++ s.ready).Nodup

variable {nodes : List Nat} {needs sinks : Nat → List Nat} {done : List Nat} {given : Nat → Nat}
  {s : Schedule}

theorem perm_insertSorted (i : Nat) (l : List Nat) : (insertSorted i l).Perm (i :: l) := by
  induction l with
  | nil => exact List.Perm.refl _
  | cons j rest ih =>
    rw [insertSorted]
    split
    · exact List.Perm.refl _
    · exact (ih.cons j).trans (List.Perm.swap i j rest)

theorem Invariant.release {i : Nat} (h : Invariant nodes needs done given s) (hi : i ∈ nodes) :
    Invariant nodes needs done (fun k => given k + [i].count k) (s.release i) := by
  have hp := h.counts i hi
  rw [Schedule.release, hp]
  refine ⟨?_, ?_, ?_⟩
  · intro k hk
    show (s.pending.set i _)[k]? = _
    rw [List.getElem?_set]
    by_cases hki : i = k
    · subst hki
      rw [if_pos rfl, if_pos (List.getElem?_eq_some_iff.1 hp).1, List.count_singleton_self]
      congr 1
      omega
    · rw [if_neg hki, h.counts k hk, List.count_eq_zero_of_not_mem (by simpa using Ne.symm hki)]
      rfl
  · intro k hk
    dsimp only at hk
    have hmet : k ∈ done ++ s.ready → k ∈ nodes ∧ (needs k).length ≤ given k + [i].count k :=
      fun hk => ⟨(h.met k hk).1, Nat.le_add_right_of_le (h.met k hk).2⟩
    split at hk
    · rename_i h1
      rw [List.mem_append, (perm_insertSorted i s.ready).mem_iff, List.mem_cons] at hk
      rcases hk with hk | rfl | hk
      · exact hmet (List.mem_append_left _ hk)
      · refine ⟨hi, ?_⟩
        rw [List.count_singleton_self]
        omega
      · exact hmet (List.mem_append_right _ hk)
    · exact hmet hk
  · dsimp only
    split
    · rename_i h1
      -- a node that awaits a release is neither ready nor done
      have hnot : i ∉ done ++ s.ready := fun hm => by
        have := (h.met i hm).2
        omega
      have hperm : (done ++ insertSorted i s.ready).Perm (i :: (done ++ s.ready)) :=
        (List.Perm.append_left done (perm_insertSorted i s.ready)).trans List.perm_middle
      exact hperm.nodup_iff.2 (List.nodup_cons.2 ⟨hnot, h.nodup⟩)
    · exact h.nodup

/-- What a release keeps, any number of them keep. -/
theorem releases_induction {P : (Nat → Nat) → Schedule → Prop} {l : List Nat}
    (hstep : ∀ given s, ∀ i ∈ nodes, P given s → P (fun k => given k + [i].count k) (s.release i))
    (hl : ∀ i ∈ l, i ∈ nodes) (h : P given s) :
    P (fun k => given k + l.count k) (l.foldl Schedule.release s) := by
  induction l generalizing given s with
  | nil => simpa using h
  | cons i l ih =>
    have hrest := ih (fun j hj => hl j (List.mem_cons_of_mem i hj))
      (hstep given s i (hl i List.mem_cons_self) h)
    have he : (fun k => given k + [i].count k + l.count k) = fun k => given k + (i :: l).count k := by
      funext k
      rw [show i :: l = [i] ++ l from rfl, List.count_append, Nat.add_assoc]
    rw [he] at hrest
    exact hrest

/-- The releases from done nodes. -/
def released (sinks : Nat → List Nat) (done : List Nat) (i : Nat) : Nat :=
  total (fun j => (sinks j).count i) done

/-- The releases that a node has got are those of its needs that are done. -/
theorem released_eq {i : Nat} (hi : i ∈ nodes) (hd : done.Nodup) (hsub : ∀ j ∈ done, j ∈ nodes)
    (hcount : ∀ i ∈ nodes, ∀ j ∈ nodes, (sinks j).count i = (needs i).count j) :
    released sinks done i = (needs i).countP done.contains := by
  have ht := total_countP (fun j : Nat => j) (fun _ => true) (needs i) hd
  simp only [Bool.and_true] at ht
  rw [← ht, released]
  exact total_congr fun j hj => hcount i hi j (hsub j hj)

/-- A node with as many releases from done nodes as it has needs has only done needs. -/
theorem needs_subset_of_released {i : Nat} (hi : i ∈ nodes) (hd : done.Nodup)
    (hsub : ∀ j ∈ done, j ∈ nodes)
    (hcount : ∀ i ∈ nodes, ∀ j ∈ nodes, (sinks j).count i = (needs i).count j)
    (h : (needs i).length ≤ released sinks done i) : needs i ⊆ done := by
  have hall : (needs i).countP done.contains = (needs i).length :=
    Nat.le_antisymm List.countP_le_length (released_eq hi hd hsub hcount ▸ h)
  intro j hj
  have := List.countP_eq_length.1 hall j hj
  simpa using this

theorem released_cons (j i : Nat) :
    released sinks (j :: done) i = released sinks done i + (sinks j).count i := by
  rw [released, released, total, Nat.add_comm]

/-- The first ready node is taken. -/
theorem Invariant.take {i : Nat} {rest : List Nat}
    (h : Invariant nodes needs done given s) (hs : s.ready = i :: rest) :
    Invariant nodes needs (i :: done) given { s with ready := rest } := by
  have hmid : (done ++ s.ready).Perm (i :: done ++ rest) := by
    rw [hs]
    exact List.perm_middle
  exact ⟨h.counts, fun k hk => h.met k (hmid.symm.subset hk), hmid.nodup_iff.1 h.nodup⟩

/-- An order in which the needs of each node are done or come before it. -/
def Follows (needs : Nat → List Nat) (done order : List Nat) : Prop :=
  ∀ A i B, order = A ++ i :: B → needs i ⊆ done ++ A

theorem follows_cons {i : Nat} {order : List Nat} :
    Follows needs done (i :: order) ↔ needs i ⊆ done ∧ Follows needs (i :: done) order := by
  constructor
  · intro h
    refine ⟨?_, fun A k B hAB j hj => ?_⟩
    · have := h [] i order rfl
      rwa [List.append_nil] at this
    · exact List.perm_middle.mem_iff.1 (h (i :: A) k B (by rw [hAB]; rfl) hj)
  · rintro ⟨hi, h⟩ A k B hAB
    cases A with
    | nil =>
      cases hAB
      rw [List.append_nil]
      exact hi
    | cons a A =>
      rw [List.cons_append, List.cons.injEq] at hAB
      obtain ⟨rfl, hAB⟩ := hAB
      exact fun j hj => List.perm_middle.mem_iff.2 (h A k B hAB hj)

/-- **Draining keeps nodes apart and puts each after its needs.** -/
theorem drain_sorted (hsinks : ∀ j, ∀ i ∈ sinks j, i ∈ nodes)
    (hcount : ∀ i ∈ nodes, ∀ j ∈ nodes, (sinks j).count i = (needs i).count j)
    (h : Invariant nodes needs done (released sinks done) s) :
    (done ++ (drain sinks s).1).Nodup ∧ (∀ i ∈ (drain sinks s).1, i ∈ nodes) ∧
      Follows needs done (drain sinks s).1 := by
  fun_induction drain sinks s generalizing done with
  | case1 s hs =>
    refine ⟨?_, by simp, by simp [Follows]⟩
    rw [List.append_nil]
    exact (List.nodup_append.1 h.nodup).1
  | case2 s i rest hs order pending heq ih =>
    have hnext := releases_induction (fun _ _ _ hi h => h.release hi) (hsinks i) (h.take hs)
    simp only [← released_cons] at hnext
    obtain ⟨hnd, hsub, hord⟩ := ih hnext
    rw [heq] at hnd hsub hord
    have hi := h.met i (List.mem_append_right _ (by rw [hs]; exact List.mem_cons_self))
    have hneeds := needs_subset_of_released hi.1 (List.nodup_append.1 h.nodup).1
      (fun j hj => (h.met j (List.mem_append_left _ hj)).1) hcount hi.2
    exact ⟨List.perm_middle.nodup_iff.2 hnd, List.forall_mem_cons.2 ⟨hi.1, hsub⟩,
      follows_cons.2 ⟨hneeds, hord⟩⟩

/-- Collecting the nodes that a test selects. -/
theorem perm_foldl_insertSorted (test : Nat → Bool) (l acc : List Nat) :
    (l.foldl (fun ready i => if test i then insertSorted i ready else ready) acc).Perm
      (l.filter test ++ acc) := by
  induction l generalizing acc with
  | nil => exact List.Perm.refl _
  | cons i l ih =>
    rw [List.foldl_cons, List.filter_cons]
    split
    · exact (ih _).trans ((List.Perm.append_left _ (perm_insertSorted i acc)).trans
        List.perm_middle)
    · exact ih acc

end Schedule

namespace Graph

/-- The releases a node of a list waits for. -/
def waits (g : Graph) (nodes : List Nat) (i : Nat) : Int :=
  match g.nodes[i]? with
  | some n => if nodes.contains i then (g.sources n).countP nodes.contains else 0
  | none => 0

/-- The nodes of a list that a node releases. -/
def frees (g : Graph) (nodes : List Nat) (i : Nat) : List Nat :=
  match g.nodes[i]? with
  | some n => (g.sinks n).filter nodes.contains
  | none => []

/-- The producers of a node in a list. -/
def needs (g : Graph) (nodes : List Nat) (i : Nat) : List Nat :=
  match g.nodes[i]? with
  | some n => (g.sources n).filter nodes.contains
  | none => []

/-- Where draining a list of nodes starts. -/
def start (g : Graph) (nodes : List Nat) : Schedule :=
  ⟨nodes.foldl (fun ready i => if g.waits nodes i = 0 then Schedule.insertSorted i ready else ready) [],
    (List.range g.nodes.size).map (g.waits nodes)⟩

variable {g : Graph} {nodes order : List Nat}

theorem mem_of_mem_frees {i j : Nat} (h : i ∈ g.frees nodes j) : i ∈ nodes := by
  rw [frees] at h
  split at h
  · simpa using (List.mem_filter.1 h).2
  · cases h

theorem mem_needs {i j : Nat} {n : Node} (hn : g.nodes[i]? = some n) :
    j ∈ g.needs nodes i ↔ j ∈ g.sources n ∧ j ∈ nodes := by
  simp only [needs, hn, List.mem_filter, List.contains_iff_mem]

/-- A node waits for one release for each of its needs. -/
theorem waits_eq (hlt : ∀ i ∈ nodes, i < g.nodes.size) {i : Nat} (hi : i ∈ nodes) :
    g.waits nodes i = (g.needs nodes i).length := by
  have hn := Array.getElem?_eq_getElem (hlt i hi)
  have hc : nodes.contains i = true := by simpa using hi
  simp only [waits, needs, hn, hc, if_true, List.countP_eq_length_filter]

/-- The nodes that wait for nothing are ready from the start. -/
theorem perm_start : (g.start nodes).ready.Perm (nodes.filter fun i => g.waits nodes i = 0) := by
  have := Schedule.perm_foldl_insertSorted (fun i => g.waits nodes i = 0) nodes []
  simpa [start] using this

/-- The nodes of a list that still await releases. -/
def stuck (g : Graph) (nodes : List Nat) (pending : List Int) : List Nat :=
  (List.range g.nodes.size).filter fun i => nodes.contains i && decide (0 < pending.getD i 0)

/-- A schedule is what draining gives, if that is all nodes; else some nodes are stuck. -/
theorem schedule_eq : g.schedule nodes =
    if (Schedule.drain (g.frees nodes) (g.start nodes)).1.length = nodes.length then
      .ok (Schedule.drain (g.frees nodes) (g.start nodes)).1
    else
      .error ⟨(g.stuck nodes (Schedule.drain (g.frees nodes) (g.start nodes)).2).filterMap
        fun i => g.nodes[i]?⟩ := rfl

theorem drain_of_schedule (h : g.schedule nodes = .ok order) :
    (Schedule.drain (g.frees nodes) (g.start nodes)).1 = order ∧ order.length = nodes.length := by
  rw [schedule_eq] at h
  split at h
  · rename_i hl
    cases h
    exact ⟨rfl, hl⟩
  · cases h

namespace Consistent

/-- **Draining starts from the invariant**, with nothing done. -/
theorem start_invariant (hnd : nodes.Nodup) (hlt : ∀ i ∈ nodes, i < g.nodes.size) :
    Schedule.Invariant nodes (g.needs nodes) [] (Schedule.released (g.frees nodes) [])
      (g.start nodes) := by
  refine ⟨?_, ?_, ?_⟩
  · intro i hi
    show ((List.range g.nodes.size).map (g.waits nodes))[i]? = _
    rw [List.getElem?_map, List.getElem?_range (hlt i hi), Option.map_some, waits_eq hlt hi]
    simp [Schedule.released, total]
  · intro i hi
    rw [List.nil_append, perm_start.mem_iff, List.mem_filter, decide_eq_true_eq] at hi
    have := waits_eq hlt hi.1
    exact ⟨hi.1, by omega⟩
  · rw [List.nil_append]
    exact perm_start.nodup_iff.2 (hnd.filter _)

/-- A node is released by another as often as it needs it. -/
theorem count_frees (hg : g.Consistent) (hlt : ∀ i ∈ nodes, i < g.nodes.size) :
    ∀ i ∈ nodes, ∀ j ∈ nodes, (g.frees nodes j).count i = (g.needs nodes i).count j := by
  intro i hi j hj
  have hn := Array.getElem?_eq_getElem (hlt i hi)
  have hm := Array.getElem?_eq_getElem (hlt j hj)
  simp only [frees, needs, hn, hm]
  rw [List.count_filter (by simpa using hi), List.count_filter (by simpa using hj),
    hg.count_sinks hn hm]

/-- **A schedule of distinct nodes lists each once, after the producers of its inputs.** -/
theorem schedule_sorted (hg : g.Consistent) (hnd : nodes.Nodup) (hlt : ∀ i ∈ nodes, i < g.nodes.size)
    (h : g.schedule nodes = .ok order) :
    order.Nodup ∧ (∀ i, i ∈ order ↔ i ∈ nodes) ∧
      ∀ i n, g.nodes[i]? = some n → i ∈ order → ∀ j ∈ g.sources n, j ∈ nodes →
        order.idxOf j < order.idxOf i := by
  obtain ⟨hord, hsub, hprefix⟩ := Schedule.drain_sorted (fun _ _ => mem_of_mem_frees)
    (hg.count_frees hlt) (start_invariant hnd hlt)
  obtain ⟨rfl, hlen⟩ := drain_of_schedule h
  rw [List.nil_append] at hord
  have hmem : ∀ i, i ∈ (Schedule.drain (g.frees nodes) (g.start nodes)).1 ↔ i ∈ nodes := by
    have hp := (List.subperm_of_subset hord hsub).perm_of_length_le (Nat.le_of_eq hlen.symm)
    exact fun i => hp.mem_iff
  refine ⟨hord, hmem, ?_⟩
  intro i n hn hi j hj hjn
  obtain ⟨A, B, hAB⟩ := List.append_of_mem hi
  have hjA : j ∈ A := hprefix A i B hAB ((mem_needs hn).2 ⟨hj, hjn⟩)
  have hiA : i ∉ A := by
    rw [hAB] at hord
    intro hiA
    exact (List.nodup_append.1 hord).2.2 i hiA i List.mem_cons_self rfl
  rw [hAB, List.idxOf_append_of_mem hjA, List.idxOf_append_of_notMem hiA, List.idxOf_cons_self]
  exact Nat.lt_of_lt_of_le (List.idxOf_lt_length_iff.2 hjA) (Nat.le_add_right _ _)

end Consistent

end Graph

end NodeShader
