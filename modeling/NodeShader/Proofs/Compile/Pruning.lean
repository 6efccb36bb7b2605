import NodeShader.Proofs.Compile.CrossCompiling

/-!
# The nodes a compilation prunes

Each stage walks back from its own root and stops at the compute fields it samples, whose stages walk
on.  No walk follows a dead edge.  So the nodes that have code in some stage are read off one relation
of the graph, `Graph.Leads`, and what is left is pruned.

* `Graph.mem_nodes_of_leads`: whatever leads to the selected root has code in some stage.
* `Graph.leads_of_mem_nodes`: a stage has code only for what leads to the selected root.
* `Graph.Built.compile_prunes`: **pruned is what no live path leads from**, and everything else has
  code in a stage, once in each stage that has code for it.
-/

namespace NodeShader

namespace Graph

variable {g : Graph} {i root : Nat} {roots : List Nat} {stages : List CompiledStage}

theorem mem_unused : i ∈ g.unused stages ↔
    i < g.nodes.size ∧ ∀ s ∈ stages, i ∉ s.stage.nodes := by
  rw [unused, List.mem_filter, List.mem_range, Bool.not_eq_true', List.any_eq_false]
  simp

/-- **Nothing live is lost**: what leads to the selected root has code in some stage. -/
theorem mem_nodes_of_leads (hg : g.Consistent) (hlt : root < g.nodes.size)
    (hroots : g.stageRoots root = .ok roots) (hs : List.Forall₂ g.Realizes roots stages)
    (h : g.Leads i root) : ∃ s ∈ stages, i ∈ s.stage.nodes := by
  obtain ⟨hio, hlast, -⟩ := stageRoots_spec hg hlt hroots
  obtain ⟨x, hx, hi⟩ := discovered_of_leads hg (List.mem_of_getLast? hlast) hlt hio.closed h
  -- the root of another stage has its code there
  cases hf : (g.stageLabels x).isForeignRoot i with
  | false =>
    obtain ⟨s, hs, hr⟩ := exists_of_mem_left hs hx
    exact ⟨s, hs, (hr.mem_nodes i).2 ⟨hi, hf⟩⟩
  | true =>
    have hir : i ∈ roots := hio.closed x hx i (List.mem_filter.2 ⟨hi, hf⟩)
    obtain ⟨s, hs, hr⟩ := exists_of_mem_left hs hir
    exact ⟨s, hs, (hr.mem_nodes i).2 ⟨root_mem_discovered (lt_of_mem_reach hi), isForeignRoot_root⟩⟩

/-- **Nothing dead is kept**: what a stage has code for leads to the selected root. -/
theorem leads_of_mem_nodes (hg : g.Consistent) (hlt : root < g.nodes.size)
    (hroots : g.stageRoots root = .ok roots) (hs : List.Forall₂ g.Realizes roots stages)
    {s : CompiledStage} (hmem : s ∈ stages) (hi : i ∈ s.stage.nodes) : g.Leads i root := by
  obtain ⟨x, hx, hr⟩ := exists_of_mem_right hs hmem
  have hix : g.Leads i x := (leads_of_discovered hg ((hr.mem_nodes i).1 hi).1).1
  by_cases hxr : x = root
  · exact hxr ▸ hix
  · obtain ⟨-, -, hothers⟩ := stageRoots_spec hg hlt hroots
    exact hix.trans ((hothers x hxr).1 hx).2

/-- **Pruning**: a node is pruned if and only if no path of live edges leads from it to the selected
root, and every other node is among the nodes of some stage, once in each. -/
theorem Built.compile_prunes (hg : g.Built) {id : NodeId} {options : Options} {c : Compilation}
    (h : g.compile id options = .ok c) :
    g.position? id = some c.root ∧
      (∀ i < g.nodes.size, i ∈ c.pruned ↔ ¬ g.Leads i c.root) ∧
      (∀ i ∈ c.pruned, i < g.nodes.size) ∧
      (∀ i < g.nodes.size, i ∉ c.pruned → ∃ s ∈ c.stages, i ∈ s.stage.nodes) ∧
      ∀ s ∈ c.stages, s.stage.nodes.Nodup := by
  obtain ⟨⟨hpos, hlt, -⟩, hpruned, roots, hroots, hstages⟩ := hg.compile_realizes h
  have hused : ∀ i < g.nodes.size, i ∉ c.pruned ↔ ∃ s ∈ c.stages, i ∈ s.stage.nodes := by
    intro i hi
    rw [hpruned, mem_unused, not_and]
    push Not
    exact ⟨fun h => h hi, fun h _ => h⟩
  refine ⟨hpos, fun i hi => ?_, fun i hi => ?_, fun i hi => (hused i hi).1, fun s hs => ?_⟩
  · rw [← not_iff_not, not_not, hused i hi]
    constructor
    · rintro ⟨s, hs, his⟩
      exact leads_of_mem_nodes hg.consistent hlt hroots hstages hs his
    · exact mem_nodes_of_leads hg.consistent hlt hroots hstages
  · rw [hpruned, mem_unused] at hi
    exact hi.1
  · obtain ⟨_, -, hr⟩ := exists_of_mem_right hstages hs
    exact hr.nodup_nodes

/-- The nodes that lead to the root of the only stage. -/
theorem leads_iff_of_alone (hg : g.Consistent) (hlt : root < g.nodes.size)
    (h : g.stageRoots root = .ok [root]) : g.Leads i root ↔ i ∈ (g.stageLabels root).discovered := by
  obtain ⟨hio, -, -⟩ := stageRoots_spec hg hlt h
  constructor
  · intro hi
    obtain ⟨x, hx, hi⟩ := discovered_of_leads hg List.mem_cons_self hlt hio.closed hi
    rwa [List.mem_singleton.1 hx] at hi
  · exact fun hi => (leads_of_discovered hg hi).1

/-- A comparison of known outcome is pruned, and so is what only the arm that is not taken uses. -/
theorem compile_prunes_choice :
    ∃ c, ChoiceExample.graph.compile (Uuid.ofBytes [10]) ⟨false, 0⟩ = .ok c ∧ c.root = 9 ∧
      ChoiceExample.graph.Leads 1 9 ∧ ¬ ChoiceExample.graph.Leads 5 9 ∧
      (∀ i, i ∈ c.pruned ↔ i = 4 ∨ i = 5) ∧ ∃ s ∈ c.stages, 1 ∈ s.stage.nodes := by
  have hg := ChoiceExample.consistent
  obtain ⟨c, -, hc, -⟩ := ChoiceExample.compiles false
  obtain ⟨hpos, hiff, hlt, hused, -⟩ := ChoiceExample.built.compile_prunes hc
  obtain ⟨hsize, hpos'⟩ : ChoiceExample.graph.nodes.size = 10 ∧
      ChoiceExample.graph.position? (Uuid.ofBytes [10]) = some 9 := by decide +kernel
  have hroot : c.root = 9 := Option.some.inj (hpos.symm.trans hpos')
  have hleads : ∀ i, ChoiceExample.graph.Leads i 9 ↔ i ∈ ChoiceExample.order := by
    intro i
    obtain ⟨-, -, -, houtline, -⟩ := ChoiceExample.evaluated
    obtain ⟨hplanned, hlabels, -⟩ :=
      plan_planned hg ChoiceExample.resolved (ChoiceExample.plan_eq false)
    rw [leads_iff_of_alone hg (by omega) (stageRoots_alone hg houtline), ← Labels.mem_nodes]
    exact (hplanned.mem_order i).symm
  rw [hroot, hsize] at hiff
  rw [hsize] at hlt hused
  have hpruned : ∀ i, i ∈ c.pruned ↔ i = 4 ∨ i = 5 := by
    have hothers : ∀ i < 10, i ∉ ChoiceExample.order ↔ i = 4 ∨ i = 5 := by decide
    intro i
    by_cases hi : i < 10
    · rw [hiff i hi, hleads, hothers i hi]
    · exact ⟨fun h => absurd (hlt i h) hi, fun h => by omega⟩
  exact ⟨c, hc, hroot, (hleads 1).2 (by decide), fun h => absurd ((hleads 5).1 h) (by decide), hpruned,
    hused 1 (by omega) (by rw [hpruned]; omega)⟩

end Graph

end NodeShader
