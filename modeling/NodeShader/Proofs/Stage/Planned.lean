import Mathlib.Data.List.Nodup
import NodeShader.Compile.Plan
import NodeShader.Proofs.Branch.Regions

/-!
# What a plan keeps

A plan puts together a typing, an order of the nodes and their split into lists.  `StagePlan.Planned`
states what the code generator relies on: every node comes after what feeds it, and the shared list
and the lists of the arms are the nodes by their homes, in that order.

The list of an arm is written while its conditional is.  `StagePlan.Within` says which nodes that
concerns: a node is within itself, and within whatever the conditional of its home is within.

* `Planned.home_before`: a node in an arm comes before the conditional of the arm.
* `Planned.not_within`: of two nodes with the same home, none is within the other.
* `Within.linear`: what is within two nodes makes one of them within the other.
-/

namespace NodeShader

variable {p : StagePlan} {i j k : Nat}

/-- The place of a node in the order. -/
def StagePlan.rank (p : StagePlan) (i : Nat) : Nat := p.order.idxOf i

/-- The home of a node. -/
def StagePlan.home (p : StagePlan) (i : Nat) : Option Tag := p.labels.home i

/-- The nodes with a home, in order. -/
def StagePlan.members (p : StagePlan) (home : Option Tag) : List Nat :=
  p.order.filter fun i => p.home i == home

/-- **What the code generator relies on.** -/
structure StagePlan.Planned (p : StagePlan) : Prop where
  consistent : p.graph.Consistent
  typed : p.graph.Typed p.typeOf
  live : p.labels.live = p.graph.foldCondition
  nodup : p.order.Nodup
  mem_order : ∀ i, i ∈ p.order ↔ i ∈ p.labels.nodes
  before : ∀ i ∈ p.order, ∀ f ∈ p.labels.feeds i,
    f.producer ∈ p.order ∧ p.rank f.producer < p.rank i
  shared : p.region.shared = p.members none
  arms : ∀ i ∈ p.order, p.labels.isBranching i = true → ∀ k < p.labels.armCount i,
    p.region.armNodes i k = p.members (some ⟨i, k⟩)

/-- **Plans are as the code generator relies on.** -/
theorem Graph.plan_planned {g : Graph} {budget : Int} {types : TypeAssignment} {fold : Bool}
    {root : Nat} (hg : g.Consistent) (ht : (g.resolveTypes budget).1 = .ok types)
    (h : g.plan types fold root = .ok p) :
    p.Planned ∧ p.labels = g.stageLabels root ∧ p.foldConstants = fold := by
  rw [plan] at h
  obtain ⟨order, ho, h⟩ := bind_eq_ok.1 h
  obtain ⟨region, hr, h⟩ := bind_eq_ok.1 h
  cases h
  rw [mapError_eq_ok] at ho hr
  have hs := Labels.scheduled_of_schedule (l := g.stageLabels root) hg ho
  rw [hs.decompose_eq hg] at hr
  cases hr
  exact ⟨⟨hg, hg.typed ht, rfl, hs.nodup, hs.mem, hs.before, rfl,
    fun b hb hbr k hk => Labels.armNodes_region hb hbr hk⟩, rfl, rfl⟩

/-- A stage has a plan if its nodes can be scheduled. -/
theorem Graph.plan_of_within {g : Graph} {fuel root : Nat} {order : List Nat} (hg : g.Consistent)
    (h : (g.stageLabels root).scheduleWithin? fuel = some order) (types : TypeAssignment) (fold : Bool) :
    g.plan types fold root =
      .ok ⟨g.stageLabels root, types, order, (g.stageLabels root).region order, fold⟩ := by
  have hschedule := Labels.schedule_of_within h
  have hs := Labels.scheduled_of_schedule (l := g.stageLabels root) hg hschedule
  exact bind_eq_ok.2 ⟨order, mapError_eq_ok.2 hschedule,
    bind_eq_ok.2 ⟨_, mapError_eq_ok.2 (hs.decompose_eq hg), rfl⟩⟩

/-- The plan of a stage without conditionals. -/
theorem Graph.plan_plain {g : Graph} {fuel root : Nat} {order : List Nat} (hg : g.Consistent)
    (h : (g.stageLabels root).scheduleWithin? fuel = some order)
    (hplain : ∀ i ∈ order, (g.stageLabels root).isBranching i = false) (types : TypeAssignment)
    (fold : Bool) :
    g.plan types fold root = .ok ⟨g.stageLabels root, types, order, ⟨order, []⟩, fold⟩ := by
  have hs := Labels.scheduled_of_schedule (l := g.stageLabels root) hg (Labels.schedule_of_within h)
  rw [plan_of_within hg h, hs.region_plain hg hplain]

/-- A plan keeps the typing it is made with. -/
theorem Graph.plan_types {g : Graph} {types : TypeAssignment} {fold : Bool} {root : Nat}
    (h : g.plan types fold root = .ok p) : p.types = types := by
  rw [plan] at h
  obtain ⟨order, -, h⟩ := bind_eq_ok.1 h
  obtain ⟨region, -, h⟩ := bind_eq_ok.1 h
  cases h
  rfl

namespace StagePlan.Planned

variable {t : Tag}

/-- A node in an arm comes before the conditional of the arm. -/
theorem home_before (hp : p.Planned) (h : p.home j = some t) :
    j ∈ p.order ∧ t.node ∈ p.order ∧ p.rank j < p.rank t.node :=
  Labels.Scheduled.home_before ⟨hp.nodup, hp.mem_order, hp.before⟩ h

theorem mem_members {home : Option Tag} : i ∈ p.members home ↔ i ∈ p.order ∧ p.home i = home := by
  rw [members, List.mem_filter, beq_iff_eq]

/-- Lists of members are in order. -/
theorem members_pairwise (hp : p.Planned) (home : Option Tag) :
    (p.members home).Pairwise fun a b => p.rank a < p.rank b := by
  refine List.Pairwise.filter _ (List.pairwise_iff_getElem.2 fun a b ha hb hab => ?_)
  rw [rank, rank, hp.nodup.idxOf_getElem, hp.nodup.idxOf_getElem]
  exact hab

end StagePlan.Planned

/-- A node is within itself, and within what the conditional of its home is within. -/
inductive StagePlan.Within (p : StagePlan) (i : Nat) : Nat → Prop
  | self : p.Within i i
  | arm {j : Nat} {t : Tag} : p.home j = some t → p.Within i t.node → p.Within i j

namespace StagePlan.Within

theorem trans (h₁ : p.Within i j) (h₂ : p.Within j k) : p.Within i k := by
  induction h₂ with
  | self => exact h₁
  | arm hh _ ih => exact .arm hh ih

theorem rank_le (hp : p.Planned) (h : p.Within i j) : p.rank j ≤ p.rank i := by
  induction h with
  | self => exact Nat.le_refl _
  | arm hh _ ih => exact Nat.le_trans (Nat.le_of_lt (hp.home_before hh).2.2) ih

/-- What is within two nodes makes one of them within the other. -/
theorem linear (h₁ : p.Within i k) (h₂ : p.Within j k) : p.Within i j ∨ p.Within j i := by
  induction h₁ with
  | self => exact .inr h₂
  | arm hh hw ih =>
    cases h₂ with
    | self => exact .inl (.arm hh hw)
    | arm hh' hw' =>
      rw [hh] at hh'
      cases hh'
      exact ih hw'

end StagePlan.Within

/-- **Of two nodes with the same home, none is within the other.** -/
theorem StagePlan.Planned.not_within (hp : p.Planned) (hij : i ≠ j) (hh : p.home i = p.home j) :
    ¬ p.Within i j := by
  intro h
  cases h with
  | self => exact hij rfl
  | arm hj hw =>
    have hi := (hp.home_before (hh.trans hj)).2.2
    have := hw.rank_le hp
    omega

/-- Nothing is within two nodes with the same home. -/
theorem StagePlan.Planned.disjoint (hp : p.Planned) (hij : i ≠ j) (hh : p.home i = p.home j)
    (hi : p.Within i k) (hj : p.Within j k) : False := by
  rcases hi.linear hj with h | h
  · exact hp.not_within hij hh h
  · exact hp.not_within (Ne.symm hij) hh.symm h

/-- Nothing is within nodes of different arms of a conditional. -/
theorem StagePlan.Planned.disjoint_arms (hp : p.Planned) {b : Nat} {x y : Int} (hxy : x ≠ y)
    (hi : p.home i = some ⟨b, x⟩) (hj : p.home j = some ⟨b, y⟩) (hik : p.Within i k)
    (hjk : p.Within j k) : False := by
  have hne : ∀ {i j : Nat} {x y : Int}, x ≠ y → p.home i = some ⟨b, x⟩ → p.home j = some ⟨b, y⟩ →
      ¬ p.Within i j := by
    intro i j x y hxy hi hj h
    cases h with
    | self =>
      rw [hi] at hj
      cases hj
      exact hxy rfl
    | arm hh hw =>
      rw [hj] at hh
      cases hh
      have hle : p.rank b ≤ p.rank i := hw.rank_le hp
      have hlt : p.rank i < p.rank b := (hp.home_before hi).2.2
      omega
  rcases hik.linear hjk with h | h
  · exact hne hxy hi hj h
  · exact hne (Ne.symm hxy) hj hi h

/-! ### Ports of nodes within a node -/

/-- An output port of a node within another. -/
def StagePlan.Owns (p : StagePlan) (i : Nat) (out : PortId) : Prop :=
  ∃ j m, p.Within i j ∧ p.graph.nodes[j]? = some m ∧ out ∈ m.outputs

namespace StagePlan.Owns

variable {n : Node} {out : PortId} {b : Nat} {x y : Int}

theorem self (hn : p.graph.nodes[i]? = some n) (ho : out ∈ n.outputs) : p.Owns i out :=
  ⟨i, n, .self, hn, ho⟩

/-- A conditional owns what is in its arms. -/
theorem arm {t : Tag} (ht : p.home j = some t) (h : p.Owns j out) : p.Owns t.node out := by
  obtain ⟨k, m, hw, hm, ho⟩ := h
  exact ⟨k, m, (Within.arm ht .self).trans hw, hm, ho⟩

/-- What owns a port owns it within one node. -/
theorem within (hp : p.Planned) (hi : p.Owns i out) (hj : p.Owns j out) :
    ∃ k, p.Within i k ∧ p.Within j k := by
  obtain ⟨k, m, hw, hm, ho⟩ := hi
  obtain ⟨k', m', hw', hm', ho'⟩ := hj
  have h := hp.consistent.ownerPosition?_of_mem hm (show out ∈ m.portsOf .output from ho)
  rw [hp.consistent.ownerPosition?_of_mem hm' (show out ∈ m'.portsOf .output from ho')] at h
  cases h
  exact ⟨k, hw, hw'⟩

theorem disjoint (hp : p.Planned) (hij : i ≠ j) (hh : p.home i = p.home j) (hi : p.Owns i out) :
    ¬ p.Owns j out := by
  intro hj
  obtain ⟨k, hik, hjk⟩ := within hp hi hj
  exact hp.disjoint hij hh hik hjk

theorem disjoint_arms (hp : p.Planned) (hxy : x ≠ y) (hi : p.home i = some ⟨b, x⟩)
    (hj : p.home j = some ⟨b, y⟩) (h : p.Owns i out) : ¬ p.Owns j out := by
  intro h'
  obtain ⟨k, hik, hjk⟩ := within hp h h'
  exact hp.disjoint_arms hxy hi hj hik hjk

/-- The arms of a conditional do not own its output ports. -/
theorem not_mem_outputs (hp : p.Planned) (hn : p.graph.nodes[b]? = some n)
    (hi : p.home i = some ⟨b, x⟩) (h : p.Owns i out) : out ∉ n.outputs := by
  intro ho
  obtain ⟨k, m, hw, hm, hom⟩ := h
  have hk := hp.consistent.ownerPosition?_of_mem hm (show out ∈ m.portsOf .output from hom)
  rw [hp.consistent.ownerPosition?_of_mem hn (show out ∈ n.portsOf .output from ho)] at hk
  cases hk
  have hle : p.rank b ≤ p.rank i := hw.rank_le hp
  have hlt : p.rank i < p.rank b := (hp.home_before hi).2.2
  omega

end StagePlan.Owns

/-- **The lists that code is written for**: nodes of one home, in order. -/
structure StagePlan.Listing (p : StagePlan) (l : List Nat) : Prop where
  sorted : l.Pairwise fun a b => p.rank a < p.rank b
  mem : ∀ i ∈ l, i ∈ p.order
  home : ∀ i ∈ l, ∀ j ∈ l, p.home i = p.home j

namespace StagePlan.Listing

variable {l : List Nat}

theorem tail (h : p.Listing (i :: l)) : p.Listing l where
  sorted := (List.pairwise_cons.1 h.sorted).2
  mem := fun j hj => h.mem j (List.mem_cons_of_mem _ hj)
  home := fun j hj k hk => h.home j (List.mem_cons_of_mem _ hj) k (List.mem_cons_of_mem _ hk)

theorem rank_lt (h : p.Listing (i :: l)) (hj : j ∈ l) : p.rank i < p.rank j :=
  (List.pairwise_cons.1 h.sorted).1 j hj

theorem members (hp : p.Planned) (home : Option Tag) : p.Listing (p.members home) where
  sorted := hp.members_pairwise home
  mem := fun _ hi => (Planned.mem_members.1 hi).1
  home := fun _ hi _ hj => by rw [(Planned.mem_members.1 hi).2, (Planned.mem_members.1 hj).2]

end StagePlan.Listing

end NodeShader
