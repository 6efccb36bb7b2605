import NodeShader.Proofs.Branch.Homes
import NodeShader.Proofs.Graph.Ordering
import NodeShader.Proofs.Outcome
import NodeShader.Proofs.Typing.Kinds

/-!
# The lists of a region

A schedule of the labelled nodes puts each after what feeds it (`Labels.Scheduled`), so a node in an
arm comes before the conditional of the arm (`Scheduled.home_before`).  The schedule is split by
homes (`Labels.region`): the shared list holds the nodes without a home, and the list of an arm those
whose home it is, in the order of the schedule.

* `home_arm_lt`: the home of a node is one of the arms of a conditional.
* `Scheduled.decompose_eq`: **a schedule can always be split**.
-/

namespace NodeShader

/-- Looking up a key in a table that is made from its keys. -/
theorem lookup_map_self {α β : Type} [BEq α] [LawfulBEq α] (f : α → β) {l : List α} {a : α}
    (h : a ∈ l) : (l.map fun b => (b, f b)).lookup a = some (f a) := by
  induction l with
  | nil => cases h
  | cons b l ih =>
    rw [List.map_cons, List.lookup_cons]
    by_cases hab : a = b
    · subst hab
      simp
    · rw [beq_eq_false_iff_ne.2 hab]
      exact ih ((List.mem_cons.1 h).resolve_left hab)

deriving instance DecidableEq for Region

namespace Labels

variable {l : Labels} {order : List Nat} {i b k : Nat} {t : Tag} {f : Feed} {n : Node}

/-- **A schedule of the labelled nodes**: each of them once, after what feeds it. -/
structure Scheduled (l : Labels) (order : List Nat) : Prop where
  nodup : order.Nodup
  mem : ∀ i, i ∈ order ↔ i ∈ l.nodes
  before : ∀ i ∈ order, ∀ f ∈ l.feeds i,
    f.producer ∈ order ∧ order.idxOf f.producer < order.idxOf i

/-- What scheduling gives is a schedule of the labelled nodes. -/
theorem scheduled_of_schedule (hg : l.graph.Consistent) (h : l.graph.schedule l.nodes = .ok order) :
    l.Scheduled order := by
  obtain ⟨hnd, hmem, hsorted⟩ := hg.schedule_sorted nodup_nodes (fun i hi => lt_of_mem_nodes hi) h
  refine ⟨hnd, hmem, fun i hi f hf => ?_⟩
  have hin := producer_mem_nodes ((hmem i).1 hi) hf
  obtain ⟨n, q, port, hn, -, hq, hk, -⟩ := mem_feeds.1 hf
  exact ⟨(hmem _).2 hin,
    hsorted i n hn hi f.producer (List.mem_filterMap.2 ⟨q, hq, hk⟩) hin⟩

/-- A node in an arm comes before the conditional of the arm. -/
theorem Scheduled.home_before {j : Nat} {t : Tag} (hs : l.Scheduled order) (h : l.home j = some t) :
    j ∈ order ∧ t.node ∈ order ∧ order.idxOf j < order.idxOf t.node := by
  obtain ⟨hnode, -, hj⟩ := home_induction
    (P := fun x => x ∈ order ∧ order.idxOf x < order.idxOf t.node) h
    (fun hn f hf _ => hs.before t.node ((hs.mem _).2 hn) f hf)
    (fun x hx f hf _ => by
      obtain ⟨hin, hlt⟩ := hs.before x hx.1 f hf
      exact ⟨hin, Nat.lt_trans hlt hx.2⟩)
  exact ⟨hj.1, (hs.mem _).2 hnode, hj.2⟩

/-- The nodes of a stage are found by their identities. -/
theorem scheduled_idAt (hg : l.graph.Consistent) (h : ∀ i ∈ order, i ∈ l.nodes) :
    l.scheduled (order.map l.idAt) = .ok order := by
  rw [scheduled]
  induction order with
  | nil => rfl
  | cons i order ih =>
    have hi := h i List.mem_cons_self
    obtain ⟨n, hn⟩ := exists_node hi
    have hp := (hg.node i n hn).position
    have hid : l.idAt i = n.id := by
      rw [idAt, node?, hn]
      rfl
    rw [List.map_cons, List.mapM_cons, ih fun j hj => h j (List.mem_cons_of_mem i hj), hid, hp]
    simp only [List.contains_iff_mem, hi, if_true]
    rfl

/-! ### Arms -/

/-- A conditional has two arms. -/
theorem armCount_conditional (hg : l.graph.Consistent) (hn : l.graph.nodes[i]? = some n)
    (hk : n.kind = .conditional) : l.armCount i = 2 := by
  obtain ⟨c, x, y, hin, hc, hx, hy⟩ := Graph.conditional_ports hg hn hk
  obtain ⟨pc, hpc, hac⟩ := Option.map_eq_some_iff.1 hc
  obtain ⟨px, hpx, hax⟩ := Option.map_eq_some_iff.1 hx
  obtain ⟨py, hpy, hay⟩ := Option.map_eq_some_iff.1 hy
  rw [armCount, show l.node? i = some n from hn]
  simp [hin, hpc, hpx, hpy, hac, hax, hay]

/-- A feed that starts an arm is one of a branching node, and the arm is one of its arms. -/
theorem feed_arm (hg : l.graph.Consistent) (hf : f ∈ l.feeds i) (ha : 0 ≤ f.arm) :
    l.isBranching i = true ∧ ∃ k, k < l.armCount i ∧ f.arm = (k : Nat) := by
  obtain ⟨n, q, p, hn, -, hq, -, hp, harm, -⟩ := mem_feeds.1 hf
  have hkind : n.kind = .conditional := by
    by_contra hk
    have := Graph.ordinary_port hg hn hk hq hp
    omega
  refine ⟨by rw [isBranching, hn, Option.map_some, hkind]; rfl, ?_⟩
  obtain ⟨c, x, y, hin, hc, hx, hy⟩ := Graph.conditional_ports hg hn hkind
  rw [armCount_conditional hg hn hkind]
  rw [hin] at hq
  simp only [List.mem_cons, List.not_mem_nil, or_false] at hq
  rcases hq with rfl | rfl | rfl
  · rw [hp] at hc
    have hneg : p.arm = -1 := Option.some.inj hc
    omega
  · rw [hp] at hx
    exact ⟨0, by omega, harm.symm.trans (Option.some.inj hx)⟩
  · rw [hp] at hy
    exact ⟨1, by omega, harm.symm.trans (Option.some.inj hy)⟩

/-- The home of a node is an arm of a branching node. -/
theorem home_arm_lt (hg : l.graph.Consistent) (h : l.home i = some t) :
    l.isBranching t.node = true ∧ ∃ k, k < l.armCount t.node ∧ t.arm = (k : Nat) := by
  obtain ⟨-, ⟨f, hf, hfa⟩, -⟩ := home_induction (P := fun _ => True) h
    (fun _ _ _ _ => trivial) fun _ _ _ _ _ => trivial
  have harm : 0 ≤ t.arm := by simpa [Tag.isArm] using (home_eq_some.1 h).2.1
  have := feed_arm hg hf (by omega)
  rwa [hfa] at this

/-! ### Splitting a schedule -/

/-- The branching nodes of a schedule. -/
def branches (l : Labels) (order : List Nat) : List Nat := (order.filter l.isBranching).eraseDups

/-- The nodes of a schedule with a home. -/
def members (l : Labels) (order : List Nat) (home : Option Tag) : List Nat :=
  order.filter fun i => l.home i == home

/-- The nodes of a schedule by their homes. -/
def region (l : Labels) (order : List Nat) : Region where
  shared := l.members order none
  arms := (l.branches order).map fun b =>
    (b, (List.range (l.armCount b)).map fun (k : Nat) => l.members order (some ⟨b, k⟩))

theorem mem_members {home : Option Tag} : i ∈ l.members order home ↔ i ∈ order ∧ l.home i = home := by
  rw [members, List.mem_filter, beq_iff_eq]

theorem mem_branches : b ∈ l.branches order ↔ b ∈ order ∧ l.isBranching b = true := by
  rw [branches, List.mem_eraseDups, List.mem_filter]

/-- The lists of a branching node, one for each arm; others have none. -/
theorem armsOf_region (l : Labels) (order : List Nat) (b : Nat) :
    (l.region order).armsOf b = if b ∈ l.branches order then
      (List.range (l.armCount b)).map fun (k : Nat) => l.members order (some ⟨b, k⟩) else [] := by
  rw [Region.armsOf, region]
  dsimp only
  by_cases hb : b ∈ l.branches order
  · rw [lookup_map_self (fun b => (List.range (l.armCount b)).map fun (k : Nat) =>
      l.members order (some ⟨b, k⟩)) hb, if_pos hb, Option.getD_some]
  · have hnone : ((l.branches order).map fun b => (b, (List.range (l.armCount b)).map fun (k : Nat) =>
        l.members order (some ⟨b, k⟩))).lookup b = none := by
      rw [List.lookup_eq_none_iff]
      intro e he
      obtain ⟨c, hc, rfl⟩ := List.mem_map.1 he
      rw [bne_iff_ne]
      rintro rfl
      exact hb hc
    rw [hnone, if_neg hb, Option.getD_none]

/-- The list of an arm holds the nodes whose home it is. -/
theorem armNodes_region (hb : b ∈ order) (hbr : l.isBranching b = true) (hk : k < l.armCount b) :
    (l.region order).armNodes b k = l.members order (some ⟨b, k⟩) := by
  rw [Region.armNodes, armsOf_region, if_pos (mem_branches.2 ⟨hb, hbr⟩),
    List.getD_eq_getElem?_getD, List.getElem?_map, List.getElem?_range hk]
  rfl

/-- **A schedule can always be split**, by the homes of its nodes. -/
theorem Scheduled.decompose_eq (hs : l.Scheduled order) (hg : l.graph.Consistent) :
    l.decompose (order.map l.idAt) = .ok (l.region order) := by
  have hmembers : ∀ home : Option Tag,
      (((order.map fun i => (i, l.home i)).filter (·.2 == home)).map (·.1)) =
        l.members order home := by
    intro home
    rw [List.filter_map, List.map_map]
    exact List.map_id _
  rw [decompose, scheduled_idAt hg fun i hi => (hs.mem i).1 hi]
  refine bind_eq_ok.2 ⟨order, rfl, bind_eq_ok.2 ⟨(), ?_, ?_⟩⟩
  · rw [forM_eq_ok]
    intro e he
    obtain ⟨i, hi, rfl⟩ := List.mem_map.1 he
    dsimp only
    split
    · rename_i t n hhome hn
      have hb : t.node ∈ (order.filter l.isBranching).eraseDups :=
        mem_branches.2 ⟨(hs.home_before hhome).2.1, (home_arm_lt hg hhome).1⟩
      rw [if_pos (List.contains_iff_mem.2 hb)]
    · rfl
  · show Except.ok _ = _
    rw [region]
    simp only [← hmembers]
    rfl

/-- **Without conditionals all is shared.** -/
theorem Scheduled.region_plain (hs : l.Scheduled order) (hg : l.graph.Consistent)
    (hplain : ∀ i ∈ order, l.isBranching i = false) : l.region order = ⟨order, []⟩ := by
  have hhome : ∀ i, l.home i = none := by
    intro i
    cases h : l.home i with
    | none => rfl
    | some t =>
      have hbranching := (home_arm_lt hg h).1
      rw [hplain t.node (hs.home_before h).2.1] at hbranching
      cases hbranching
  have hbranches : order.filter l.isBranching = [] :=
    List.filter_eq_nil_iff.2 fun i hi => by rw [hplain i hi]; exact Bool.false_ne_true
  have hshared : l.members order none = order :=
    List.filter_eq_self.2 fun i _ => by rw [hhome]; rfl
  rw [region, hshared, branches, hbranches]
  rfl

/-! ### Schedules in a bounded number of steps -/

/-- The nodes that a stage needs, if they are found within `fuel` steps. -/
def discoveredWithin? (l : Labels) (fuel : Nat) : Option (List Nat) :=
  reachWithin fuel l.graph.nodes.size l.producers [l.root]

theorem discovered_of_within {fuel : Nat} {found : List Nat} (h : l.discoveredWithin? fuel = some found) :
    l.discovered = found := reach_of_within h

/-- The schedule of the nodes that are found so. -/
def scheduleWithin? (l : Labels) (fuel : Nat) : Option (List Nat) := do
  let found ← l.discoveredWithin? fuel
  (l.graph.schedule ((List.range l.graph.nodes.size).filter found.contains)).toOption

theorem schedule_of_within {fuel : Nat} (h : l.scheduleWithin? fuel = some order) :
    l.graph.schedule l.nodes = .ok order := by
  obtain ⟨found, hfound, h⟩ := Option.bind_eq_some_iff.1 h
  rw [nodes, discovered_of_within hfound]
  exact toOption_eq_some.1 h

/-- The nodes that the tags of arms spread to, if they are found within `fuel` steps. -/
def spreadWithin? (l : Labels) (fuel : Nat) : List (Tag × Nat) → Option (List (Tag × List Nat))
  | [] => some []
  | (tag, producer) :: starts => do
    let spread ← reachWithin fuel l.graph.nodes.size l.ordinary [producer]
    let rest ← l.spreadWithin? fuel starts
    return (tag, spread) :: rest

theorem spread_of_within {fuel : Nat} {starts : List (Tag × Nat)} {all : List (Tag × List Nat)}
    (h : l.spreadWithin? fuel starts = some all) :
    starts.map (fun (tag, producer) => (tag, l.spread [producer])) = all := by
  induction starts generalizing all with
  | nil => exact Option.some.inj h
  | cons start starts ih =>
    obtain ⟨spread, hspread, h⟩ := Option.bind_eq_some_iff.1 h
    obtain ⟨rest, hrest, h⟩ := Option.bind_eq_some_iff.1 h
    cases h
    rw [List.map_cons, ih hrest]
    exact congrArg (fun nodes => (start.1, nodes) :: rest) (reach_of_within hspread)

/-- The region of a schedule, if its tags spread within `fuel` steps. -/
def regionWithin? (l : Labels) (fuel : Nat) (order : List Nat) : Option Region := do
  let found ← l.discoveredWithin? fuel
  let arms := ((List.range l.graph.nodes.size).filter found.contains).flatMap fun i =>
    ((l.feeds i).filter (0 ≤ ·.arm)).map fun f => ((⟨i, f.arm⟩ : Tag), f.producer)
  let all ← l.spreadWithin? fuel ((⟨l.root, rootArm⟩, l.root) :: arms)
  -- nodes have the same home with their tags in any order
  let tags := (Array.range l.graph.nodes.size).map fun i =>
    ((all.filter fun entry => entry.2.contains i).map (·.1)).eraseDups
  let home := fun i => l.home? (tags.getD i [])
  return ⟨order.filter fun i => home i == none, (l.branches order).map fun b =>
    (b, (List.range (l.armCount b)).map fun (k : Nat) =>
      order.filter fun i => home i == some ⟨b, k⟩)⟩

theorem region_of_within {fuel : Nat} {region : Region}
    (h : l.regionWithin? fuel order = some region) : l.region order = region := by
  obtain ⟨found, hfound, h⟩ := Option.bind_eq_some_iff.1 h
  obtain ⟨all, hall, h⟩ := Option.bind_eq_some_iff.1 h
  have htagged : l.tagged = all := by
    rw [← spread_of_within hall, tagged, nodes, discovered_of_within hfound]
    rfl
  have hhome : l.home = fun i => l.home? (((Array.range l.graph.nodes.size).map fun i =>
      ((all.filter fun entry => entry.2.contains i).map (·.1)).eraseDups).getD i []) := by
    funext i
    refine home?_perm ?_
    rw [tagsAt, tags, htagged]
    simp only [Array.getD_eq_getD_getElem?, Array.getElem?_map]
    cases (Array.range l.graph.nodes.size)[i]? with
    | none => exact .refl _
    | some j => exact List.mergeSort_perm _ _
  rw [← Option.some.inj h]
  simp only [Labels.region, members, hhome]

end Labels

end NodeShader
