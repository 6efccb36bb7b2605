import Mathlib
import NodeShader.Proofs.Branch.Regions

/-!
# A region holds every node once

A node is moved to the list of its home, so a region could lose nodes: whoever reads it starts from
the shared list and follows conditionals into their arms.  Nothing is lost, because the conditional
of a home is scheduled after the node, and the chain of homes ends in the shared list.

* `Scheduled.count_upTo`: a node is met once, if arms are followed as deep as there are conditionals
  after it.
* `Graph.Built.decompose_partition`: **the region is a partition of the schedule**, whatever arms are
  taken for live.
-/

namespace NodeShader

/-- The nodes met from the shared list if arms are followed `depth` deep. -/
def Region.upTo (r : Region) (depth : Nat) : List Nat :=
  r.shared ++ r.shared.flatMap (r.nested depth)

/-- What is met below a conditional: the members of its arms, and what is met below these. -/
theorem Region.count_nested_succ (r : Region) (depth b x : Nat) :
    (r.nested (depth + 1) b).count x = total (fun arm => arm.count x) (r.armsOf b) +
      total (fun arm => total (fun c => (r.nested depth c).count x) arm) (r.armsOf b) := by
  rw [nested, count_flatMap_eq_total, ← total_add]
  refine total_congr fun arm _ => ?_
  rw [List.count_append, count_flatMap_eq_total]

/-- **A node is reached** from the shared list through the arms of reached conditionals. -/
inductive Region.Reached (r : Region) : Nat → Prop
  | shared {i : Nat} : i ∈ r.shared → r.Reached i
  | arm {b i k : Nat} : r.Reached b → i ∈ r.armNodes b k → r.Reached i

/-- **A region is a partition of a schedule**: every node stands once in the shared list or in one
list of an arm, the lists of the arms are reached from the shared list through the conditionals that
own them, and each list keeps the order of the schedule. -/
structure Region.Partitions (r : Region) (order : List Nat) : Prop where
  all : r.all.Perm order
  lists : (r.shared ++ r.arms.flatMap fun e => e.2.flatten).Perm order
  arms : ∀ e ∈ r.arms, r.Reached e.1 ∧ r.armsOf e.1 = e.2 ∧ ∀ arm ∈ e.2, arm.Sublist order
  shared : r.shared.Sublist order

namespace Labels

variable {l : Labels} {order : List Nat} {i b : Nat} {t : Tag}

namespace Scheduled

/-! ### Following arms -/

/-- A node with a home stands once in the lists of its conditional, and in no others. -/
theorem count_armsOf (hs : l.Scheduled order) (hg : l.graph.Consistent) (hi : l.home i = some t)
    (b : Nat) : total (fun arm => arm.count i) ((l.region order).armsOf b) =
      if t.node = b then 1 else 0 := by
  obtain ⟨hbr, k, hk, htk⟩ := home_arm_lt hg hi
  obtain ⟨hio, hto, -⟩ := hs.home_before hi
  have hcount : ∀ home : Option Tag, (l.members order home).count i =
      if home = some t then 1 else 0 := by
    intro home
    split
    · rename_i hh
      rw [hh]
      exact List.count_eq_one_of_mem (hs.nodup.filter _) (mem_members.2 ⟨hio, hi⟩)
    · rename_i hh
      refine List.count_eq_zero_of_not_mem fun hm => hh ?_
      rw [← (mem_members.1 hm).2, hi]
  rw [armsOf_region]
  by_cases hb : t.node = b
  · subst hb
    rw [if_pos (mem_branches.2 ⟨hto, hbr⟩), if_pos rfl, total_map]
    have hall : ∀ j ∈ List.range (l.armCount t.node),
        (l.members order (some ⟨t.node, j⟩)).count i = if j == k then 1 else 0 := by
      intro j _
      rw [hcount]
      refine if_congr ?_ rfl rfl
      rw [Option.some.injEq, beq_iff_eq]
      constructor
      · intro h
        rw [← h] at htk
        exact Int.ofNat.inj htk
      · rintro rfl
        rw [← htk]
    rw [total_congr hall, ← countP_eq_total]
    exact List.count_eq_one_of_mem List.nodup_range (List.mem_range.2 hk)
  · rw [if_neg hb]
    split
    · rw [total_map]
      refine total_eq_zero fun j _ => ?_
      rw [hcount, if_neg]
      intro h
      rw [← Option.some.inj h] at hb
      exact hb rfl
    · rfl

/-- What stands in the list of an arm has the arm for its home. -/
theorem mem_of_mem_armsOf {arm : List Nat} (harm : arm ∈ (l.region order).armsOf b) (hm : i ∈ arm) :
    i ∈ order ∧ ∃ t, l.home i = some t := by
  rw [armsOf_region] at harm
  split at harm
  · obtain ⟨k, -, rfl⟩ := List.mem_map.1 harm
    exact ⟨(mem_members.1 hm).1, _, (mem_members.1 hm).2⟩
  · cases harm

/-- A node without a home stands in no arm. -/
theorem count_nested_shared (hi : l.home i = none) (depth b : Nat) :
    ((l.region order).nested depth b).count i = 0 := by
  induction depth generalizing b with
  | zero => rfl
  | succ depth ih =>
    refine List.count_eq_zero_of_not_mem fun hm => ?_
    rw [Region.nested, List.mem_flatMap] at hm
    obtain ⟨arm, harm, hm⟩ := hm
    rcases List.mem_append.1 hm with hm | hm
    · obtain ⟨-, t, ht⟩ := mem_of_mem_armsOf harm hm
      rw [hi] at ht
      cases ht
    · obtain ⟨c, -, hm⟩ := List.mem_flatMap.1 hm
      exact absurd (ih c) (Nat.ne_of_gt (List.count_pos_iff.2 hm))

/-- What stands in an arm is scheduled. -/
theorem mem_of_mem_nested {depth : Nat} (h : i ∈ (l.region order).nested depth b) : i ∈ order := by
  induction depth generalizing b with
  | zero => cases h
  | succ depth ih =>
    rw [Region.nested, List.mem_flatMap] at h
    obtain ⟨arm, harm, h⟩ := h
    rcases List.mem_append.1 h with h | h
    · exact (mem_of_mem_armsOf harm h).1
    · obtain ⟨c, -, h⟩ := List.mem_flatMap.1 h
      exact ih h

/-- **One step along a home**: a node in an arm is met as often, one level deeper, as the conditional
of the arm. -/
theorem count_nested (hs : l.Scheduled order) (hg : l.graph.Consistent) (hi : l.home i = some t)
    (depth b : Nat) : ((l.region order).nested (depth + 1) b).count i =
      (if t.node = b then 1 else 0) + ((l.region order).nested depth b).count t.node := by
  induction depth generalizing b with
  | zero =>
    have hbelow : total (fun arm => total (fun c => ((l.region order).nested 0 c).count i) arm)
        ((l.region order).armsOf b) = 0 := total_eq_zero fun _ _ => total_eq_zero fun _ _ => rfl
    rw [Region.count_nested_succ, hs.count_armsOf hg hi, hbelow]
    rfl
  | succ depth ih =>
    rw [Region.count_nested_succ _ (depth + 1), hs.count_armsOf hg hi,
      Region.count_nested_succ _ depth, ← total_add]
    congr 1
    refine total_congr fun arm _ => ?_
    rw [total_congr fun c _ => ih c, total_add, List.count_eq_countP, countP_eq_total]
    congr 1
    refine total_congr fun c _ => if_congr ?_ rfl rfl
    rw [beq_iff_eq, eq_comm]

/-! ### Every node is met -/

/-- The conditionals that come after a node. -/
def later (l : Labels) (order : List Nat) (i : Nat) : Nat :=
  (l.branches order).countP fun b => order.idxOf i < order.idxOf b

/-- Fewer conditionals come after the conditional of a home. -/
theorem later_lt (hs : l.Scheduled order) (hg : l.graph.Consistent) (hi : l.home i = some t) :
    later l order t.node < later l order i := by
  obtain ⟨-, hto, hlt⟩ := hs.home_before hi
  have hb : t.node ∈ l.branches order := mem_branches.2 ⟨hto, (home_arm_lt hg hi).1⟩
  refine countP_lt_countP (fun b _ h => ?_) hb (decide_eq_false (Nat.lt_irrefl _))
    (decide_eq_true hlt)
  rw [decide_eq_true_eq] at h ⊢
  omega

theorem count_upTo_eq (r : Region) (depth x : Nat) : (r.upTo depth).count x =
    r.shared.count x + total (fun b => (r.nested depth b).count x) r.shared := by
  rw [Region.upTo, List.count_append, count_flatMap_eq_total]

/-- A node without a home is met in the shared list alone. -/
theorem count_shared (hs : l.Scheduled order) (hi : i ∈ order) (hh : l.home i = none)
    (depth : Nat) : ((l.region order).upTo depth).count i = 1 := by
  rw [count_upTo_eq, total_eq_zero fun b _ => count_nested_shared hh depth b]
  exact List.count_eq_one_of_mem (hs.nodup.filter _) (mem_members.2 ⟨hi, hh⟩)

/-- A node with a home does not stand in the shared list. -/
theorem count_shared_of_home (hi : l.home i = some t) : (l.region order).shared.count i = 0 := by
  refine List.count_eq_zero_of_not_mem fun hm => ?_
  have hnone : l.home i = none := (mem_members.1 hm).2
  rw [hi] at hnone
  cases hnone

/-- A node in an arm is met as often as the conditional of the arm, one level less deep. -/
theorem count_upTo_succ (hs : l.Scheduled order) (hg : l.graph.Consistent) (hi : l.home i = some t)
    (depth : Nat) : ((l.region order).upTo (depth + 1)).count i =
      ((l.region order).upTo depth).count t.node := by
  rw [count_upTo_eq, total_congr fun b _ => hs.count_nested hg hi depth b, total_add,
    count_shared_of_home hi, Nat.zero_add, count_upTo_eq _ depth, List.count_eq_countP, countP_eq_total]
  congr 1
  refine total_congr fun c _ => if_congr ?_ rfl rfl
  rw [beq_iff_eq, eq_comm]

/-- **A node is met once**, if arms are followed as deep as there are conditionals after it. -/
theorem count_upTo (hs : l.Scheduled order) (hg : l.graph.Consistent) {depth : Nat} (hi : i ∈ order)
    (hd : later l order i ≤ depth) : ((l.region order).upTo depth).count i = 1 := by
  induction depth generalizing i with
  | zero =>
    cases hh : l.home i with
    | none => exact count_shared hs hi hh 0
    | some t =>
      have := hs.later_lt hg hh
      omega
  | succ depth ih =>
    cases hh : l.home i with
    | none => exact count_shared hs hi hh (depth + 1)
    | some t =>
      have := hs.later_lt hg hh
      rw [hs.count_upTo_succ hg hh]
      exact ih (hs.home_before hh).2.1 (by omega)

/-- **Reading a region meets every node once.** -/
theorem perm_all (hs : l.Scheduled order) (hg : l.graph.Consistent) :
    (l.region order).all.Perm order := by
  rw [List.perm_iff_count]
  intro i
  have hall : (l.region order).all = (l.region order).upTo ((l.region order).arms.length + 1) := rfl
  have hlen : (l.region order).arms.length = (l.branches order).length := List.length_map _
  rw [hall]
  by_cases hi : i ∈ order
  · rw [List.count_eq_one_of_mem hs.nodup hi]
    refine hs.count_upTo hg hi ?_
    have : later l order i ≤ (l.branches order).length := List.countP_le_length
    omega
  · rw [List.count_eq_zero_of_not_mem hi]
    refine List.count_eq_zero_of_not_mem fun hm => hi ?_
    rcases List.mem_append.1 hm with hm | hm
    · exact (mem_members.1 hm).1
    · obtain ⟨b, -, hm⟩ := List.mem_flatMap.1 hm
      exact mem_of_mem_nested hm

/-- Every node is reached through the arms of reached conditionals. -/
theorem reached (hs : l.Scheduled order) (hg : l.graph.Consistent) (hi : i ∈ order) :
    (l.region order).Reached i := by
  generalize hn : order.length - order.idxOf i = n
  induction n using Nat.strongRecOn generalizing i with
  | ind n ih =>
    cases hh : l.home i with
    | none => exact .shared (mem_members.2 ⟨hi, hh⟩)
    | some t =>
      obtain ⟨-, hto, hlt⟩ := hs.home_before hh
      obtain ⟨hbr, k, hk, htk⟩ := home_arm_lt hg hh
      have hle := List.idxOf_lt_length_iff.2 hto
      refine .arm (k := k) (ih _ (by omega) hto rfl) ?_
      rw [armNodes_region hto hbr hk, mem_members, hh, ← htk]
      exact ⟨hi, rfl⟩

/-- The shared list and the lists of the arms hold every node once. -/
theorem perm_lists (hs : l.Scheduled order) (hg : l.graph.Consistent) :
    ((l.region order).shared ++ (l.region order).arms.flatMap fun e => e.2.flatten).Perm order := by
  rw [List.perm_iff_count]
  intro i
  have harms : ((l.region order).arms.flatMap fun e => e.2.flatten).count i =
      total (fun b => total (fun arm => arm.count i) ((l.region order).armsOf b))
        (l.branches order) := by
    rw [count_flatMap_eq_total, region, total_map]
    refine total_congr fun b hb => ?_
    rw [← region, armsOf_region, if_pos hb, ← List.flatMap_id, count_flatMap_eq_total]
    rfl
  rw [List.count_append, harms]
  by_cases hi : i ∈ order
  · rw [List.count_eq_one_of_mem hs.nodup hi]
    cases hh : l.home i with
    | none =>
      rw [total_eq_zero fun b _ => total_eq_zero fun arm harm =>
        List.count_eq_zero_of_not_mem fun hm => by
          obtain ⟨-, t, ht⟩ := mem_of_mem_armsOf harm hm
          rw [hh] at ht
          cases ht]
      exact List.count_eq_one_of_mem (hs.nodup.filter _) (mem_members.2 ⟨hi, hh⟩)
    | some t =>
      have hb : t.node ∈ l.branches order :=
        mem_branches.2 ⟨(hs.home_before hh).2.1, (home_arm_lt hg hh).1⟩
      have hone : ∀ b ∈ l.branches order,
          total (fun arm => arm.count i) ((l.region order).armsOf b) =
            if b == t.node then 1 else 0 := by
        intro b _
        rw [hs.count_armsOf hg hh b]
        refine if_congr ?_ rfl rfl
        rw [beq_iff_eq, eq_comm]
      rw [count_shared_of_home hh, total_congr hone, ← countP_eq_total, Nat.zero_add]
      exact List.count_eq_one_of_mem (nodup_eraseDups _) hb
  · rw [List.count_eq_zero_of_not_mem hi, total_eq_zero fun b _ => total_eq_zero fun arm harm =>
      List.count_eq_zero_of_not_mem fun hm => hi (mem_of_mem_armsOf harm hm).1]
    exact List.count_eq_zero_of_not_mem fun hm => hi (mem_members.1 hm).1

/-- **The region of a schedule is a partition of it.** -/
theorem partitions (hs : l.Scheduled order) (hg : l.graph.Consistent) :
    (l.region order).Partitions order where
  all := hs.perm_all hg
  lists := hs.perm_lists hg
  arms := by
    intro e he
    obtain ⟨b, hb, rfl⟩ := List.mem_map.1 he
    refine ⟨hs.reached hg (mem_branches.1 hb).1, ?_, ?_⟩
    · rw [armsOf_region, if_pos hb]
    · intro arm harm
      obtain ⟨k, -, rfl⟩ := List.mem_map.1 harm
      exact List.filter_sublist
  shared := List.filter_sublist

end Scheduled

end Labels

/-- **Branch partition**: if what a root needs can be scheduled, the schedule can be split, and the
region is a partition of it. -/
theorem Graph.Built.decompose_partition {g : Graph} (hg : g.Built) (root : Nat) (live : LiveArm)
    {order : List Nat} (h : g.schedule (Labels.mk g root live).nodes = .ok order) :
    order.Perm (Labels.mk g root live).nodes ∧
      ∃ r, (Labels.mk g root live).decompose (order.map (Labels.mk g root live).idAt) = .ok r ∧
        r.Partitions order := by
  have hs := Labels.scheduled_of_schedule (l := ⟨g, root, live⟩) hg.consistent h
  refine ⟨?_, _, hs.decompose_eq hg.consistent, hs.partitions hg.consistent⟩
  exact (List.perm_ext_iff_of_nodup hs.nodup Labels.nodup_nodes).2 hs.mem

/-- A conditional in an arm of another: both arms are met, though the node of the inner one is two
levels down. -/
theorem Graph.decompose_partition_nested :
    let g := Graph.grown [.node (Uuid.ofBytes [1]) "" .time .none,
      .node (Uuid.ofBytes [2]) "" .compare (.compare .less),
      .node (Uuid.ofBytes [3]) "" .negate .none, .node (Uuid.ofBytes [4]) "" .conditional .none,
      .node (Uuid.ofBytes [5]) "" .conditional .none,
      .edge 0 1, .edge 3 6, .edge 0 4, .edge 5 7, .edge 3 10, .edge 9 11, .edge 0 12]
    let l : Labels := ⟨g, 4, fun _ => none⟩
    g.schedule l.nodes = .ok [0, 1, 2, 3, 4] ∧ [0, 1, 2, 3, 4].Perm l.nodes ∧
      ∃ r, l.decompose ([0, 1, 2, 3, 4].map l.idAt) = .ok r ∧ r.Partitions [0, 1, 2, 3, 4] := by
  intro g l
  have hwithin : l.scheduleWithin? 20 = some [0, 1, 2, 3, 4] := by decide +kernel
  have h : g.schedule l.nodes = .ok [0, 1, 2, 3, 4] := Labels.schedule_of_within hwithin
  exact ⟨h, (Built.grown _).decompose_partition 4 (fun _ => none) h⟩

end NodeShader
