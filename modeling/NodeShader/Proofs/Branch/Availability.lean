import Mathlib
import NodeShader.Proofs.Branch.Labelling
import NodeShader.Proofs.Branch.Partition

/-!
# Values are available where they are used

Regions are split by homes, which are a matter of each node and its tags.  Whoever evaluates a region
list by list, and enters an arm where its conditional stands, needs more: the value of every input in
use must be there by then.  `Region.Available` says so of nested lists.

* `Scheduled.available_shared`: what is shared is available at every node that comes after it.
* `Scheduled.private_arm`: what is in an arm is used in that arm, or by its conditional through it.
* `Graph.Built.decompose_available`: **in the region of a schedule every used value is available**.
-/

namespace NodeShader

/-- What comes earlier in a list stands before in it. -/
theorem pair_sublist_of_idxOf_lt {α : Type} [BEq α] [LawfulBEq α] {l : List α} {a b : α} (hb : b ∈ l)
    (h : l.idxOf a < l.idxOf b) : [a, b].Sublist l := by
  have hlt := List.idxOf_lt_length_iff.2 hb
  have ha : a ∈ l.take (l.idxOf b) := by
    have hal : l.idxOf a < l.length := Nat.lt_trans h hlt
    rw [List.mem_take_iff_getElem]
    exact ⟨l.idxOf a, by omega, List.getElem_idxOf hal⟩
  have hdrop : b ∈ l.drop (l.idxOf b) := by
    rw [List.drop_eq_getElem_cons hlt, List.getElem_idxOf hlt]
    exact List.mem_cons_self
  have := (List.singleton_sublist.2 ha).append (List.singleton_sublist.2 hdrop)
  rwa [List.take_append_drop] at this

/-- The lists of a region. -/
def Region.IsList (r : Region) (nodes : List Nat) : Prop :=
  nodes = r.shared ∨ ∃ b k, nodes = r.armNodes b k

/-- **The value of a node is available at another**: it comes earlier in the list of that node, or it
is available at the conditional in whose arm that node stands. -/
inductive Region.Available (r : Region) (p : Nat) : Nat → Prop
  | earlier {nodes : List Nat} {n : Nat} (hl : r.IsList nodes) (h : [p, n].Sublist nodes) :
      r.Available p n
  | outer {n b k : Nat} (hn : n ∈ r.armNodes b k) (hb : r.Available p b) : r.Available p n

namespace Labels

variable {l : Labels} {order : List Nat} {i p n b k : Nat} {t : Tag} {f : Feed} {a : Int}

/-- Nodes of one home stand in its list as in the schedule. -/
theorem sublist_members {home : Option Tag} (hn : n ∈ order) (hlt : order.idxOf p < order.idxOf n)
    (hp : l.home p = home) (hh : l.home n = home) : [p, n].Sublist (l.members order home) := by
  have := (pair_sublist_of_idxOf_lt hn hlt).filter fun i => l.home i == home
  simpa [members, hp, hh] using this

namespace Scheduled

/-- A node with a home stands in the list of that arm. -/
theorem mem_armNodes (hs : l.Scheduled order) (hg : l.graph.Consistent) (hh : l.home n = some t) :
    ∃ k : Nat, t.arm = k ∧ n ∈ (l.region order).armNodes t.node k ∧
      (l.region order).armNodes t.node k = l.members order (some t) := by
  obtain ⟨hbr, k, hk, htk⟩ := home_arm_lt hg hh
  obtain ⟨hn, hb, -⟩ := hs.home_before hh
  have hnodes : (l.region order).armNodes t.node k = l.members order (some t) := by
    rw [armNodes_region hb hbr hk, ← htk]
  exact ⟨k, htk, by rw [hnodes, mem_members]; exact ⟨hn, hh⟩, hnodes⟩

/-- What stands in the list of an arm is scheduled, and the arm is its home. -/
theorem home_of_mem_armNodes (hn : n ∈ (l.region order).armNodes b k) :
    n ∈ order ∧ l.home n = some ⟨b, k⟩ := by
  rw [Region.armNodes, armsOf_region] at hn
  split at hn
  · by_cases hk : k < l.armCount b
    · rw [List.getD_eq_getElem?_getD, List.getElem?_map, List.getElem?_range hk] at hn
      exact mem_members.1 hn
    · rw [List.getD_eq_getElem?_getD, List.getElem?_eq_none (by simpa using hk)] at hn
      cases hn
  · cases hn

/-- **What is shared is available at every node that comes after it.** -/
theorem available_shared (hs : l.Scheduled order) (hg : l.graph.Consistent) (hp : l.home p = none)
    (hn : n ∈ order) (hlt : order.idxOf p < order.idxOf n) : (l.region order).Available p n := by
  -- from the conditional of an arm to that of the arm it stands in: each comes later
  generalize hm : order.length - order.idxOf n = m
  induction m using Nat.strongRecOn generalizing n with
  | ind m ih =>
    cases hh : l.home n with
    | none => exact .earlier (.inl rfl) (sublist_members hn hlt hp hh)
    | some t =>
      obtain ⟨k, -, hmem, -⟩ := hs.mem_armNodes hg hh
      obtain ⟨-, hb, hbefore⟩ := hs.home_before hh
      have hle := List.idxOf_lt_length_iff.2 hb
      exact .outer hmem (ih _ (by omega) hb (by omega) rfl)

/-- **An input in use is available**, or it feeds an arm that is not folded and stands in that arm. -/
theorem available (hs : l.Scheduled order) (hg : l.graph.Consistent) (hn : n ∈ order)
    (hf : f ∈ l.feeds n) : (l.region order).Available f.producer n ∨
      ∃ k : Nat, f.arm = k ∧ l.liveArm n = none ∧ f.producer ∈ (l.region order).armNodes n k := by
  have hin := (hs.mem n).1 hn
  obtain ⟨-, hlt⟩ := hs.before n hn f hf
  by_cases ha : f.arm < 0
  · refine .inl ?_
    cases hp : l.home f.producer with
    | none => exact hs.available_shared hg hp hn hlt
    | some t =>
      have hh : l.home n = some t := by
        rcases home_ordinary hin hf ha with h | h
        · rw [hp] at h
          cases h
        · rw [← h, hp]
      obtain ⟨k, -, -, hnodes⟩ := hs.mem_armNodes hg hh
      exact .earlier (.inr ⟨t.node, k, hnodes.symm⟩) (sublist_members hn hlt hp hh)
  · rcases home_arm hin hf (Int.not_lt.1 ha) with hp | ⟨hp, hlive⟩
    · exact .inl (hs.available_shared hg hp hn hlt)
    · obtain ⟨k, hk, hmem, -⟩ := hs.mem_armNodes hg hp
      exact .inr ⟨k, hk, hlive, hmem⟩

/-- **What is in an arm is private to it**: it is used in the arm, or by its conditional through
it. -/
theorem private_arm (hs : l.Scheduled order) (hg : l.graph.Consistent)
    (hp : f.producer ∈ (l.region order).armNodes b k) (hn : n ∈ order) (hf : f ∈ l.feeds n) :
    n ∈ (l.region order).armNodes b k ∨ n = b ∧ f.arm = k := by
  have hin := (hs.mem n).1 hn
  have hhome := (home_of_mem_armNodes hp).2
  by_cases ha : f.arm < 0
  · rcases home_ordinary hin hf ha with h | h
    · rw [hhome] at h
      cases h
    · obtain ⟨k', hk', hmem, -⟩ := hs.mem_armNodes hg (h.symm.trans hhome)
      rw [← Int.ofNat.inj hk'] at hmem
      exact .inl hmem
  · rcases home_arm hin hf (Int.not_lt.1 ha) with h | ⟨h, -⟩
    · rw [hhome] at h
      cases h
    · obtain ⟨hb, hk⟩ := Tag.mk.inj (Option.some.inj (h.symm.trans hhome))
      exact .inr ⟨hb, hk⟩

end Scheduled

end Labels

/-- **What a region uses is available where it is used.**  Every input in use of a node of the region
comes earlier in the list of the node, or before a conditional around it, or it feeds an arm of a
conditional that is not folded and stands in that arm; and what stands in an arm is used in the arm
alone, or by its conditional through it. -/
theorem Graph.Built.decompose_available {g : Graph} (hg : g.Built) (root : Nat) (live : LiveArm)
    (hl : (Labels.mk g root live).ChoosesArms) {order : List Nat}
    (h : g.schedule (Labels.mk g root live).nodes = .ok order) :
    ∃ r, (Labels.mk g root live).decompose (order.map (Labels.mk g root live).idAt) = .ok r ∧
      (∀ n ∈ r.all, ∀ a p, (Labels.mk g root live).Uses n a p → r.Available p n ∨
        ∃ k : Nat, a = k ∧ (Labels.mk g root live).isBranching n = true ∧ live n = none ∧
          p ∈ r.armNodes n k) ∧
      ∀ b k p, p ∈ r.armNodes b k → ∀ n ∈ r.all, ∀ a, (Labels.mk g root live).Uses n a p →
        n ∈ r.armNodes b k ∨ n = b ∧ a = k := by
  have hc := hg.consistent
  have hs := Labels.scheduled_of_schedule (l := ⟨g, root, live⟩) hc h
  have hall : ∀ n, n ∈ ((Labels.mk g root live).region order).all → n ∈ order :=
    fun n hn => (hs.perm_all hc).mem_iff.1 hn
  refine ⟨_, hs.decompose_eq hc, fun n hn a p hu => ?_, fun b k p hp n hn a hu => ?_⟩
  · have hf : (Feed.mk p a) ∈ (Labels.mk g root live).feeds n := (Labels.mem_feeds_iff hl).2 hu
    refine (hs.available hc (hall n hn) hf).imp_right ?_
    rintro ⟨k, hk, hlive, hmem⟩
    have hk : a = k := hk
    have hbr := (Labels.feed_arm hc hf (by show 0 ≤ a; omega)).1
    rw [Labels.liveArm_eq, if_pos hbr] at hlive
    exact ⟨k, hk, hbr, hlive, hmem⟩
  · exact hs.private_arm hc (f := ⟨p, a⟩) hp (hall n hn) ((Labels.mem_feeds_iff hl).2 hu)

/-- A conditional in an arm of another: what both share comes before the outer one, and what the inner
one compares feeds it in the arm of the outer one. -/
theorem Graph.decompose_available_nested :
    let g := Graph.grown [.node (Uuid.ofBytes [1]) "" .time .none,
      .node (Uuid.ofBytes [2]) "" .compare (.compare .less),
      .node (Uuid.ofBytes [3]) "" .negate .none, .node (Uuid.ofBytes [4]) "" .conditional .none,
      .node (Uuid.ofBytes [5]) "" .conditional .none,
      .edge 0 1, .edge 3 6, .edge 0 4, .edge 5 7, .edge 3 10, .edge 9 11, .edge 0 12]
    let l : Labels := ⟨g, 4, fun _ => none⟩
    l.ChoosesArms ∧ g.schedule l.nodes = .ok [0, 1, 2, 3, 4] ∧
      ∃ r, l.decompose ([0, 1, 2, 3, 4].map l.idAt) = .ok r ∧
        (∀ n ∈ r.all, ∀ a p, l.Uses n a p → r.Available p n ∨
          ∃ k : Nat, a = k ∧ l.isBranching n = true ∧ l.live n = none ∧ p ∈ r.armNodes n k) ∧
        ∀ b k p, p ∈ r.armNodes b k → ∀ n ∈ r.all, ∀ a, l.Uses n a p →
          n ∈ r.armNodes b k ∨ n = b ∧ a = k := by
  intro g l
  have hl : l.ChoosesArms := fun i a _ ha => nomatch ha
  have hwithin : l.scheduleWithin? 20 = some [0, 1, 2, 3, 4] := by decide +kernel
  have h : g.schedule l.nodes = .ok [0, 1, 2, 3, 4] := Labels.schedule_of_within hwithin
  exact ⟨hl, h, (Built.grown _).decompose_available 4 (fun _ => none) hl h⟩

end NodeShader
