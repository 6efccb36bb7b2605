import Mathlib
import NodeShader.Compile.Basic
import NodeShader.Proofs.Stage.Planned
import NodeShader.Proofs.Stage.Sampled

/-!
# The stages of a compilation

Stages are found twice: by a walk from the selected root over the boundaries of what each stage needs
(`Graph.discover`), and by the code generator, which notes the fields that a stage samples.  Both are
read off the *live* edges of the graph (`Graph.LiveEdge`), so they agree.

* `stage_lists`: the walk lists each root once, after the roots whose fields its stage samples.
* `mem_boundaries`: these fields are the compute fields that lead to the root inside its stage.
* `StagePlan.mem_dependencies`: the code generator notes the same fields.
* `Graph.Built.compile_staged`: **the stages of a compilation** are those of the selected root and of
  the compute fields that lead to it along live edges, each after the stages it samples.
-/

namespace NodeShader

namespace Graph

variable {g : Graph} {i j root b : Nat}

/-- **A live edge** leads from the producer of an input to its consumer.  The inputs of a conditional
whose condition is known are dead, but for the arm that is chosen. -/
def LiveEdge (g : Graph) (j i : Nat) : Prop :=
  ∃ n q port, g.nodes[i]? = some n ∧ q ∈ n.inputs ∧ g.producerPosition? q = some j ∧
    g.port? q = some port ∧ ∀ arm, g.foldCondition i = some arm → port.arm = arm

/-- A node leads to another along live edges. -/
abbrev Leads (g : Graph) : Nat → Nat → Prop := Relation.ReflTransGen g.LiveEdge

/-- Whether the node at a position is a compute field. -/
def IsField (g : Graph) (i : Nat) : Prop := g.nodes[i]?.map (·.kind) = some .computeField

/-! ### What a stage needs -/

/-- Only conditionals are decided, for one of their arms. -/
theorem foldCondition_eq_some {arm : Int} (h : g.foldCondition i = some arm) :
    ∃ n, g.nodes[i]? = some n ∧ n.kind = .conditional ∧ 0 ≤ arm := by
  rw [foldCondition, Option.bind_eq_bind, Option.bind_eq_some_iff] at h
  obtain ⟨n, hn, h⟩ := h
  split at h
  · cases h
  · rename_i hk
    rw [ne_eq, not_not] at hk
    simp only [Option.bind_eq_bind, Option.bind_eq_some_iff] at h
    obtain ⟨_, -, holds, -, h⟩ := h
    refine ⟨n, hn, hk, ?_⟩
    rw [← Option.some.inj h]
    split
    · exact Int.le_refl 0
    · exact Int.one_nonneg

/-- A stage needs an input unless the condition of its node is known and chooses another arm. -/
theorem needs_iff {arm : Int} : (g.stageLabels root).needs i arm = true ↔
    ∀ a, g.foldCondition i = some a → arm = a := by
  have hlive : (g.stageLabels root).liveArm i = g.foldCondition i := by
    have hnode : (g.stageLabels root).node? i = g.nodes[i]? := rfl
    rw [Labels.liveArm, hnode]
    cases hn : g.nodes[i]? with
    | none =>
      rw [foldCondition, hn]
      rfl
    | some n =>
      dsimp only
      split
      · rfl
      · rename_i hb
        cases hf : g.foldCondition i with
        | none => rfl
        | some arm =>
          obtain ⟨m, hm, hk, -⟩ := foldCondition_eq_some hf
          rw [hn] at hm
          cases hm
          rw [hk] at hb
          exact absurd rfl hb
  rw [Labels.needs, hlive]
  cases hf : g.foldCondition i with
  | none => simp
  | some a =>
    obtain ⟨n, -, -, ha⟩ := foldCondition_eq_some hf
    have : ¬ a < 0 := by omega
    simp [this]

/-- **What a stage needs next**: the producers along live edges, but nothing beyond the root of
another stage. -/
theorem mem_producers : j ∈ (g.stageLabels root).producers i ↔
    (g.stageLabels root).isForeignRoot i = false ∧ g.LiveEdge j i := by
  rw [Labels.producers, List.mem_map]
  constructor
  · rintro ⟨f, hf, rfl⟩
    obtain ⟨n, q, port, hn, hroot, hq, hk, hp, -, hneeds⟩ := Labels.mem_feeds.1 hf
    exact ⟨hroot, n, q, port, hn, hq, hk, hp, needs_iff.1 hneeds⟩
  · rintro ⟨hroot, n, q, port, hn, hq, hk, hp, hneeds⟩
    exact ⟨⟨j, port.arm⟩, Labels.mem_feeds.2
      ⟨n, q, port, hn, hroot, hq, hk, hp, rfl, needs_iff.2 hneeds⟩, rfl⟩

/-- A stage needs its root. -/
theorem root_mem_discovered (hr : root < g.nodes.size) : root ∈ (g.stageLabels root).discovered :=
  start_mem_reach (List.mem_singleton.2 rfl) hr

theorem isForeignRoot_root : (g.stageLabels root).isForeignRoot root = false := by
  rw [Labels.isForeignRoot]
  simp [stageLabels]

theorem LiveEdge.lt (hg : g.Consistent) (h : g.LiveEdge j i) : j < g.nodes.size := by
  obtain ⟨n, q, port, -, -, hk, -⟩ := h
  obtain ⟨m, hm, -⟩ := hg.producer_outputs hk
  exact (Array.getElem?_eq_some_iff.1 hm).1

/-- A root that something is produced by is a compute field: outputs produce nothing. -/
theorem LiveEdge.isField (hg : g.Consistent) (h : g.LiveEdge j i)
    (hroot : (g.nodes[j]?.map (·.kind.isRoot)).getD false = true) : g.IsField j := by
  obtain ⟨n, q, port, -, -, hk, -⟩ := h
  obtain ⟨m, hm, out, hout⟩ := hg.producer_outputs hk
  rw [hm, Option.map_some, Option.getD_some] at hroot
  rw [IsField, hm, Option.map_some, Option.some.injEq]
  by_contra hfield
  obtain ⟨ins, outs, hs, -, ho⟩ := (hg.node j m hm).ports
  have hnone : m.outputs = [] := by
    cases hkind : m.kind <;> rw [hkind] at hroot hs hfield <;> cases hroot
    · exact absurd rfl hfield
    · obtain ⟨-, rfl⟩ := fixedSpecs hs
      exact no_ports ho.specs
    · obtain ⟨-, rfl⟩ := fixedSpecs hs
      exact no_ports ho.specs
  rw [hnone] at hout
  cases hout

/-- What a stage needs leads to its root, and its boundaries are compute fields. -/
theorem leads_of_discovered (hg : g.Consistent) (h : i ∈ (g.stageLabels root).discovered) :
    g.Leads i root ∧ ((g.stageLabels root).isForeignRoot i = true → g.IsField i) := by
  refine reach_induction (P := fun i => g.Leads i root ∧
    ((g.stageLabels root).isForeignRoot i = true → g.IsField i)) ?_ ?_ h
  · intro s hs _
    have hs : s = root := List.mem_singleton.1 hs
    rw [hs, isForeignRoot_root]
    exact ⟨.refl, fun hf => absurd hf Bool.false_ne_true⟩
  · intro k hk j hj _
    obtain ⟨-, hlive⟩ := mem_producers.1 hj
    refine ⟨.head hlive hk.1, fun hf => hlive.isField hg ?_⟩
    rw [Labels.isForeignRoot, Bool.and_eq_true] at hf
    exact hf.2

theorem isForeignRoot_iff (hf : g.IsField i) :
    (g.stageLabels root).isForeignRoot i = true ↔ i ≠ root := by
  have hkind : ((g.stageLabels root).node? i).map (·.kind.isRoot) = some true := by
    obtain ⟨n, hn, hk⟩ := Option.map_eq_some_iff.1 hf
    show g.nodes[i]?.map (·.kind.isRoot) = _
    rw [hn, Option.map_some, hk]
    rfl
  rw [Labels.isForeignRoot, hkind, Option.getD_some, Bool.and_true, bne_iff_ne]
  exact Iff.rfl

/-- **The boundaries of a stage** are the compute fields it needs besides its root. -/
theorem mem_boundaries (hg : g.Consistent) : b ∈ (g.stageLabels root).boundaries ↔
    b ∈ (g.stageLabels root).discovered ∧ g.IsField b ∧ b ≠ root := by
  rw [Labels.boundaries, List.mem_filter]
  constructor
  · rintro ⟨hb, hf⟩
    have hfield := (leads_of_discovered hg hb).2 hf
    exact ⟨hb, hfield, (isForeignRoot_iff hfield).1 hf⟩
  · rintro ⟨hb, hfield, hne⟩
    exact ⟨hb, (isForeignRoot_iff hfield).2 hne⟩

/-! ### Discovering stages -/

/-- **Roots in order**: each once, after the boundaries of its stage. -/
structure InOrder (g : Graph) (roots : List Nat) : Prop where
  nodup : roots.Nodup
  before : ∀ A x B, roots = A ++ x :: B → ∀ b ∈ (g.stageLabels x).boundaries, b ∈ A

/-- The walk went on from `found` to `found'`: it kept what was found, and added only `root` itself and
compute fields that lead to it, none of them on the path. -/
structure Extends (g : Graph) (path : List Nat) (root : Nat) (found found' : List Nat) : Prop where
  kept : found <+: found'
  added : ∀ x ∈ found', x ∈ found ∨ x ∉ path ∧ g.Leads x root ∧ (x = root ∨ g.IsField x)
  inOrder : g.InOrder found → g.InOrder found'

variable {path found found' : List Nat}

theorem InOrder.snoc (h : g.InOrder found) (hnew : root ∉ found)
    (hb : ∀ b ∈ (g.stageLabels root).boundaries, b ∈ found) : g.InOrder (found ++ [root]) where
  nodup := by
    rw [List.nodup_append]
    refine ⟨h.nodup, List.nodup_singleton root, fun a ha b hb' => ?_⟩
    rw [List.mem_singleton.1 hb']
    rintro rfl
    exact hnew ha
  before := by
    intro A x B hAB
    rcases List.eq_nil_or_concat B with rfl | ⟨B, y, rfl⟩
    · obtain ⟨rfl, hx⟩ := List.append_inj' hAB rfl
      cases hx
      exact hb
    · rw [List.concat_eq_append, ← List.cons_append, ← List.append_assoc] at hAB
      obtain ⟨rfl, -⟩ := List.append_inj' hAB rfl
      exact h.before A x B rfl

/-- The boundaries of the stages of such roots are among the roots. -/
theorem InOrder.closed {roots : List Nat} (h : g.InOrder roots) :
    ∀ x ∈ roots, ∀ b ∈ (g.stageLabels x).boundaries, b ∈ roots := by
  intro x hx b hb
  obtain ⟨A, B, rfl⟩ := List.append_of_mem hx
  exact List.mem_append_left _ (h.before A x B rfl b hb)

/-- Discovering several stages, one after the other. -/
theorem extends_foldlM {bs : List Nat} {step : List Nat → Nat → Except Failure (List Nat)}
    (hstep : ∀ b ∈ bs, ∀ found found', step found b = .ok found' →
      b ∈ found' ∧ g.Extends path root found found')
    (h : bs.foldlM step found = .ok found') :
    (∀ b ∈ bs, b ∈ found') ∧ g.Extends path root found found' := by
  induction bs generalizing found with
  | nil =>
    cases h
    exact ⟨fun b hb => absurd hb List.not_mem_nil, List.prefix_rfl, fun x hx => .inl hx, id⟩
  | cons b bs ih =>
    rw [List.foldlM_cons] at h
    obtain ⟨found₁, h₁, h⟩ := bind_eq_ok.1 h
    obtain ⟨hb, e₁⟩ := hstep b List.mem_cons_self _ _ h₁
    obtain ⟨hbs, e⟩ := ih (fun c hc => hstep c (List.mem_cons_of_mem b hc)) h
    refine ⟨?_, e₁.kept.trans e.kept, ?_, fun hi => e.inOrder (e₁.inOrder hi)⟩
    · intro c hc
      rcases List.mem_cons.1 hc with rfl | hc
      · exact e.kept.subset hb
      · exact hbs c hc
    · intro x hx
      rcases e.added x hx with hx | hx
      · exact e₁.added x hx
      · exact .inr hx

/-- **Discovering a stage**: its root is found, after the roots of the stages it samples. -/
theorem discover_spec (hg : g.Consistent) {fuel : Nat}
    (h : g.discover fuel path found root = .ok found') :
    root ∈ found' ∧ (root ∉ found → found'.getLast? = some root) ∧
      g.Extends path root found found' := by
  induction fuel generalizing path found found' root with
  | zero => cases h
  | succ fuel ih =>
    rw [discover] at h
    split at h
    · split at h
      · cases h
      · cases h
    · rename_i hpath
      split at h
      · rename_i hfound
        cases h
        have hfound : root ∈ found := by simpa using hfound
        exact ⟨hfound, fun hnew => absurd hfound hnew, List.prefix_rfl, fun x hx => .inl hx, id⟩
      · rename_i hfound
        obtain ⟨_, -, h⟩ := bind_eq_ok.1 h
        obtain ⟨found₁, h₁, h⟩ := bind_eq_ok.1 h
        cases h
        have hstep : ∀ b ∈ (g.stageLabels root).boundaries, ∀ found found',
            g.discover fuel (root :: path) found b = .ok found' →
              b ∈ found' ∧ g.Extends (root :: path) root found found' := by
          intro b hb found found' hstep
          obtain ⟨hbf, -, e⟩ := ih hstep
          obtain ⟨hneeded, hfield, -⟩ := (mem_boundaries hg).1 hb
          refine ⟨hbf, e.kept, fun x hx => (e.added x hx).imp_right ?_, e.inOrder⟩
          rintro ⟨hp, hlead, hx⟩
          refine ⟨hp, hlead.trans (leads_of_discovered hg hneeded).1, .inr ?_⟩
          rcases hx with rfl | hx
          · exact hfield
          · exact hx
        obtain ⟨hbs, e⟩ := extends_foldlM hstep h₁
        have hpath' : root ∉ path := by simpa using hpath
        have hnew : root ∉ found₁ := by
          intro hr
          rcases e.added root hr with hr | ⟨hr, -⟩
          · exact hfound (by simpa using hr)
          · exact hr List.mem_cons_self
        refine ⟨by simp, fun _ => by simp, e.kept.trans (List.prefix_append _ _), ?_, fun hi =>
          (e.inOrder hi).snoc hnew hbs⟩
        intro x hx
        rcases List.mem_append.1 hx with hx | hx
        · exact (e.added x hx).imp_right fun hx =>
            ⟨fun hp => hx.1 (List.mem_cons_of_mem _ hp), hx.2⟩
        · rw [List.mem_singleton.1 hx]
          exact .inr ⟨hpath', .refl, .inl rfl⟩

/-- What leads to a root lies in one of the stages, if the boundaries of every stage are roots. -/
theorem discovered_of_leads (hg : g.Consistent) {roots : List Nat} (hroot : root ∈ roots)
    (hlt : root < g.nodes.size)
    (hclosed : ∀ x ∈ roots, ∀ b ∈ (g.stageLabels x).boundaries, b ∈ roots) (h : g.Leads i root) :
    ∃ x ∈ roots, i ∈ (g.stageLabels x).discovered := by
  induction h using Relation.ReflTransGen.head_induction_on with
  | refl => exact ⟨root, hroot, root_mem_discovered hlt⟩
  | @head j k hlive _ ih =>
    obtain ⟨x, hx, hk⟩ := ih
    -- at the boundary of a stage the walk goes on in the stage of the field
    cases hf : (g.stageLabels x).isForeignRoot k with
    | false => exact ⟨x, hx, reach_closed hk (mem_producers.2 ⟨hf, hlive⟩) (hlive.lt hg)⟩
    | true =>
      have hkr : k ∈ roots := hclosed x hx k (List.mem_filter.2 ⟨hk, hf⟩)
      exact ⟨k, hkr, reach_closed (root_mem_discovered (lt_of_mem_reach hk))
        (mem_producers.2 ⟨isForeignRoot_root, hlive⟩) (hlive.lt hg)⟩

/-- **The roots of the stages**: the selected one comes last, the others are the compute fields that
lead to it, and each comes after the boundaries of its stage. -/
theorem stageRoots_spec (hg : g.Consistent) (hlt : root < g.nodes.size) {roots : List Nat}
    (h : g.stageRoots root = .ok roots) :
    g.InOrder roots ∧ roots.getLast? = some root ∧
      ∀ i, i ≠ root → (i ∈ roots ↔ g.IsField i ∧ g.Leads i root) := by
  obtain ⟨hroot, hlast, e⟩ := discover_spec hg h
  have hio : g.InOrder roots :=
    e.inOrder ⟨List.nodup_nil, fun A x B hAB => absurd hAB.symm (by simp)⟩
  have hclosed := hio.closed
  refine ⟨hio, ?_, fun i hne => ⟨fun hi => ?_, fun ⟨hfield, hlead⟩ => ?_⟩⟩
  · exact hlast List.not_mem_nil
  · obtain ⟨-, hlead, hfield⟩ := (e.added i hi).resolve_left List.not_mem_nil
    exact ⟨hfield.resolve_left hne, hlead⟩
  · obtain ⟨x, hx, hi⟩ := discovered_of_leads hg hroot hlt hclosed hlead
    by_cases hix : i = x
    · rw [hix]
      exact hx
    · exact hclosed x hx i ((mem_boundaries hg).2 ⟨hi, hfield, hix⟩)

end Graph

/-! ### Building stages -/

variable {p : StagePlan} {g : Graph}

/-- **The code generator notes the boundaries** of a stage, each once. -/
theorem StagePlan.mem_dependencies {root i : Nat} (hp : p.Planned)
    (hl : p.labels = g.stageLabels root) :
    i ∈ p.order.filter p.isSampled ↔ i ∈ (g.stageLabels root).boundaries := by
  have hgraph : p.graph = g := by rw [graph, hl]; rfl
  have hroot : p.root = root := by rw [StagePlan.root, hl]; rfl
  rw [Graph.mem_boundaries (hgraph ▸ hp.consistent), List.mem_filter, hp.mem_order, hl,
    Labels.mem_nodes, isSampled, Bool.and_eq_true, bne_iff_ne, beq_iff_eq, hgraph, hroot]
  exact and_congr_right fun _ => and_comm

/-- What a built stage has of its plan. -/
structure StagePlan.Builds (p : StagePlan) (s : CompiledStage) : Prop where
  root : s.stage.root = p.root
  dependencies : s.stage.dependencies = p.order.filter p.isSampled
  nodes : s.stage.nodes = p.nodes
  bodies : ∃ t, p.generate = .ok t ∧ t.bodies = s.stage.bodies
  shaders : s.stage.bodies.mapM (Body.shader p.graph) = .ok s.shaders

theorem StagePlan.build_spec {built : List CompiledStage} {s : CompiledStage}
    (h : p.build built = .ok s) : p.Builds s := by
  rw [build] at h
  obtain ⟨t, ht, h⟩ := bind_eq_ok.1 h
  obtain ⟨shaders, hshaders, h⟩ := bind_eq_ok.1 h
  cases h
  have hgenerate : p.generate = .ok t := ht
  rw [generate, mapError_eq_ok, draft] at ht
  obtain ⟨n, -, ht⟩ := bind_eq_ok.1 ht
  obtain ⟨d, hd, ht⟩ := bind_eq_ok.1 ht
  dsimp only at ht
  split at ht
  · obtain ⟨bodies, -, ht⟩ := bind_eq_ok.1 ht
    cases ht
    exact ⟨rfl, draftBody_dependencies hd, rfl, ⟨_, hgenerate, rfl⟩, hshaders⟩
  · obtain ⟨bodies, -, ht⟩ := bind_eq_ok.1 ht
    cases ht
    exact ⟨rfl, draftBody_dependencies hd, rfl, ⟨_, hgenerate, rfl⟩, hshaders⟩

/-- **Every plan is built**, in order. -/
theorem buildStages_spec {plans : List StagePlan} {stages : List CompiledStage}
    (h : buildStages plans = .ok stages) : List.Forall₂ StagePlan.Builds plans stages := by
  have hrun : ∀ (plans done : List StagePlan) (built stages : List CompiledStage),
      List.Forall₂ StagePlan.Builds done built →
      plans.foldlM (fun built p => do return built ++ [← p.build built]) built = .ok stages →
      List.Forall₂ StagePlan.Builds (done ++ plans) stages := by
    intro plans
    induction plans with
    | nil =>
      intro done built stages hdone h
      cases h
      rw [List.append_nil]
      exact hdone
    | cons p plans ih =>
      intro done built stages hdone h
      rw [List.foldlM_cons] at h
      obtain ⟨built', hb, h⟩ := bind_eq_ok.1 h
      obtain ⟨s, hs, hb⟩ := bind_eq_ok.1 hb
      cases hb
      rw [List.append_cons]
      exact ih _ _ _ (List.rel_append hdone (.cons (StagePlan.build_spec hs) .nil)) h
  exact hrun plans [] [] stages .nil h

/-! ### Dependants -/

/-- A stage is a dependant as often as it depends. -/
theorem count_dependants {stages : List CompiledStage} {s : CompiledStage} (x : Nat)
    (hnd : (stages.map (·.stage.root)).Nodup) (hs : s ∈ stages) :
    (stages.flatMap fun t => (t.stage.dependencies.filter (· == x)).map fun _ => t.stage.root).count
      s.stage.root = s.stage.dependencies.count x := by
  have hcount : ∀ t : CompiledStage, (((t.stage.dependencies.filter (· == x)).map
      fun _ => t.stage.root).count s.stage.root) =
      if t.stage.root = s.stage.root then t.stage.dependencies.count x else 0 := by
    intro t
    rw [List.map_const', List.count_replicate, List.count_eq_length_filter]
    simp only [beq_iff_eq]
  rw [count_flatMap_eq_total, total_congr fun t _ => hcount t]
  induction stages with
  | nil => cases hs
  | cons t stages ih =>
    rw [List.map_cons, List.nodup_cons] at hnd
    rw [total]
    rcases List.mem_cons.1 hs with rfl | hs
    · rw [if_pos rfl, total_eq_zero, Nat.add_zero]
      intro t ht
      exact if_neg fun heq => hnd.1 (List.mem_map.2 ⟨t, ht, heq⟩)
    · have hne : t.stage.root ≠ s.stage.root := fun heq => hnd.1 (List.mem_map.2 ⟨s, hs, heq.symm⟩)
      rw [if_neg hne, Nat.zero_add, ih hnd.2 hs]

/-! ### Compilations -/

namespace Compilation

/-- The roots of the stages, in order. -/
def roots (c : Compilation) : List Nat := c.stages.map (·.stage.root)

/-- **The structure of the stages**: the selected root last and the compute fields that lead to it
before, none of them twice, each after the stages it depends on; and one stage is a dependant of
another exactly as often, at most once, as it depends on it. -/
structure Staged (c : Compilation) (g : Graph) : Prop where
  nodup : c.roots.Nodup
  last : c.roots.getLast? = some c.root
  others : ∀ i, i ∈ c.roots ∧ i ≠ c.root ↔ g.IsField i ∧ g.Leads i c.root
  earlier : ∀ A s B, c.stages = A ++ s :: B → ∀ d ∈ s.stage.dependencies, ∃ t ∈ A, t.stage.root = d
  dependants : ∀ s ∈ c.stages, ∀ t ∈ c.stages,
    (c.dependants t).count s.stage.root = s.stage.dependencies.count t.stage.root ∧
      s.stage.dependencies.count t.stage.root ≤ 1

end Compilation

/-- Types that resolution finds are the types of the compilation. -/
theorem Graph.typed_of_resolved {budget : Int} {types : TypeAssignment}
    (h : (g.resolveTypes budget).1 = .ok types) : ∃ stats, g.typed budget = .ok (types, stats) := by
  rw [typed]
  split
  · rename_i types' stats heq
    rw [heq] at h
    exact ⟨stats, by rw [Except.ok.inj h]⟩
  · rename_i heq
    rw [heq] at h
    cases h
  · rename_i heq
    rw [heq] at h
    cases h

/-- The parts of a plan make the plan of a compilation. -/
theorem Graph.planned_of_parts (options : Options) {id : NodeId} {root : Nat} {roots : List Nat}
    {types : TypeAssignment} {stages : List StagePlan} (hvalid : g.validate = .ok ())
    (hroot : g.outputPosition id = .ok root) (hroots : g.stageRoots root = .ok roots)
    (htypes : (g.resolveTypes options.maxSearchNodes).1 = .ok types)
    (hplans : List.Forall₂ (fun r p => g.plan types options.foldConstants r = .ok p) roots stages) :
    ∃ stats, g.planCompilation id options = .ok ⟨root, types, stats, stages⟩ := by
  obtain ⟨stats, htyped⟩ := typed_of_resolved htypes
  refine ⟨stats, ?_⟩
  rw [planCompilation, hvalid]
  exact bind_eq_ok.2 ⟨(), rfl, bind_eq_ok.2 ⟨root, hroot, bind_eq_ok.2 ⟨roots, hroots,
    bind_eq_ok.2 ⟨_, htyped, bind_eq_ok.2 ⟨_, mapM_eq_ok.2 hplans, rfl⟩⟩⟩⟩⟩

/-! ### Plans in a bounded number of steps -/

/-- Whether the node at a position passes the checks of the nodes a stage has code for. -/
def Graph.passes (g : Graph) (i : Nat) : Bool :=
  (g.nodes[i]?).any fun n => (g.checkRequired n).toOption.isSome && (checkFormula n).toOption.isSome

theorem Graph.checkStage_of_passes {l : Labels}
    (h : ∀ i ∈ l.nodes, l.isForeignRoot i = true ∨ g.passes i = true) : g.checkStage l = .ok () := by
  rw [checkStage, forM_eq_ok]
  intro i hi
  obtain ⟨hi, hown⟩ := List.mem_filter.1 hi
  have hpasses : g.passes i = true := (h i hi).resolve_left fun hforeign => by
    rw [hforeign] at hown
    cases hown
  obtain ⟨n, hn, hchecks⟩ := (Option.any_eq_true _ _).1 hpasses
  obtain ⟨hrequired, hformula⟩ := Bool.and_eq_true_iff.1 hchecks
  obtain ⟨u, hu⟩ := Option.isSome_iff_exists.1 hrequired
  obtain ⟨v, hv⟩ := Option.isSome_iff_exists.1 hformula
  rw [hn]
  exact bind_eq_ok.2 ⟨u, toOption_eq_some.1 hu, toOption_eq_some.1 hv⟩

/-- The roots of the fields that a stage samples and the order of its nodes, if these are found within
`fuel` steps and pass all checks. -/
def Graph.outlineWithin? (g : Graph) (fuel root : Nat) : Option (List Nat × List Nat) := do
  let l := g.stageLabels root
  let found ← l.discoveredWithin? fuel
  let order ← l.scheduleWithin? fuel
  if order.all fun i => l.isForeignRoot i || g.passes i then some (found.filter l.isForeignRoot, order)
  else none

theorem Graph.outline_of_within {fuel : Nat} {boundaries order : List Nat} (hg : g.Consistent)
    (h : g.outlineWithin? fuel root = some (boundaries, order)) :
    g.checkStage (g.stageLabels root) = .ok () ∧ (g.stageLabels root).boundaries = boundaries ∧
      (g.stageLabels root).scheduleWithin? fuel = some order := by
  obtain ⟨found, hfound, h⟩ := Option.bind_eq_some_iff.1 h
  obtain ⟨order', horder, h⟩ := Option.bind_eq_some_iff.1 h
  split at h
  · rename_i hall
    cases h
    have hs := Labels.scheduled_of_schedule (l := g.stageLabels root) hg (Labels.schedule_of_within horder)
    refine ⟨checkStage_of_passes fun i hi => ?_, ?_, horder⟩
    · exact Bool.or_eq_true_iff.1 (List.all_eq_true.1 hall i ((hs.mem i).2 hi))
    · rw [Labels.boundaries, Labels.discovered_of_within hfound]
  · cases h

/-- A root that is met for the first time is listed after those of its boundaries. -/
theorem Graph.discover_of_boundaries {fuel : Nat} {path found found' : List Nat}
    (hpath : path.contains root = false) (hnew : found.contains root = false)
    (hcheck : g.checkStage (g.stageLabels root) = .ok ())
    (hfold : (g.stageLabels root).boundaries.foldlM
      (fun found b => g.discover fuel (root :: path) found b) found = .ok found') :
    g.discover (fuel + 1) path found root = .ok (found' ++ [root]) := by
  rw [discover, hpath, hnew]
  exact bind_eq_ok.2 ⟨(), hcheck, bind_eq_ok.2 ⟨found', hfold, rfl⟩⟩

/-- A stage that samples no field is the only one of its root. -/
theorem Graph.stageRoots_alone {fuel : Nat} {order : List Nat} (hg : g.Consistent)
    (h : g.outlineWithin? fuel root = some ([], order)) : g.stageRoots root = .ok [root] := by
  obtain ⟨hcheck, hboundaries, -⟩ := outline_of_within hg h
  have hfold : (g.stageLabels root).boundaries.foldlM
      (fun found b => g.discover g.nodes.size [root] found b) [] = .ok [] := by
    rw [hboundaries]
    rfl
  exact discover_of_boundaries rfl rfl hcheck hfold

/-- The roots of a stage that samples one field, which samples none. -/
theorem Graph.stageRoots_pair {fuel : Nat} {order order' : List Nat} (hg : g.Consistent)
    (h : g.outlineWithin? fuel root = some ([b], order))
    (h' : g.outlineWithin? fuel b = some ([], order')) : g.stageRoots root = .ok [b, root] := by
  obtain ⟨hcheck, hboundaries, -⟩ := outline_of_within hg h
  obtain ⟨hcheck', hboundaries', -⟩ := outline_of_within hg h'
  obtain ⟨-, hfield, hne⟩ := (mem_boundaries hg).1 (show b ∈ (g.stageLabels root).boundaries by
    rw [hboundaries]
    exact List.mem_singleton_self b)
  -- there is fuel for two roots, as there are nodes
  obtain ⟨n, hn⟩ : ∃ n, g.nodes.size = n + 1 := by
    obtain ⟨m, hm, -⟩ := Option.map_eq_some_iff.1 hfield
    exact Nat.exists_eq_add_one.2 (Nat.zero_lt_of_lt (Array.getElem?_eq_some_iff.1 hm).1)
  have hinner : (g.stageLabels b).boundaries.foldlM
      (fun found b' => g.discover n [b, root] found b') [] = .ok [] := by
    rw [hboundaries']
    rfl
  have hsampled : g.discover (n + 1) [root] [] b = .ok [b] :=
    discover_of_boundaries (by simpa using hne) rfl hcheck' hinner
  have houter : (g.stageLabels root).boundaries.foldlM
      (fun found b' => g.discover g.nodes.size [root] found b') [] = .ok [b] := by
    rw [hboundaries, hn]
    exact bind_eq_ok.2 ⟨[b], hsampled, rfl⟩
  exact discover_of_boundaries rfl rfl hcheck houter

/-- **The plan of a compilation with one stage**, if its types and nodes are found in a bounded number of
steps. -/
theorem Graph.planned_alone (hg : g.Consistent) {fuel : Nat} {id : NodeId} {types : TypeAssignment}
    {order : List Nat} (hvalid : g.validate.toOption = some ())
    (hroot : (g.outputPosition id).toOption = some root) (htypes : g.typesWithin? fuel = some types)
    (hstage : g.outlineWithin? fuel root = some ([], order)) (fold : Bool) :
    ∃ stats, g.planCompilation id ⟨fold, 0⟩ = .ok ⟨root, types, stats,
      [⟨g.stageLabels root, types, order, (g.stageLabels root).region order, fold⟩]⟩ := by
  obtain ⟨-, -, horder⟩ := outline_of_within hg hstage
  exact planned_of_parts ⟨fold, 0⟩ (toOption_eq_some.1 hvalid) (toOption_eq_some.1 hroot)
    (stageRoots_alone hg hstage) (resolveTypes_of_within htypes)
    (.cons (plan_of_within hg horder types fold) .nil)

/-- The same, if that stage has no conditionals. -/
theorem Graph.planned_plain (hg : g.Consistent) {fuel : Nat} {id : NodeId} {types : TypeAssignment}
    {order : List Nat} (hvalid : g.validate.toOption = some ())
    (hroot : (g.outputPosition id).toOption = some root) (htypes : g.typesWithin? fuel = some types)
    (hstage : g.outlineWithin? fuel root = some ([], order))
    (hplain : ∀ i ∈ order, (g.stageLabels root).isBranching i = false) (fold : Bool) :
    ∃ stats, g.planCompilation id ⟨fold, 0⟩ = .ok ⟨root, types, stats,
      [⟨g.stageLabels root, types, order, ⟨order, []⟩, fold⟩]⟩ := by
  obtain ⟨-, -, horder⟩ := outline_of_within hg hstage
  have hs := Labels.scheduled_of_schedule (l := g.stageLabels root) hg (Labels.schedule_of_within horder)
  rw [← hs.region_plain hg hplain]
  exact planned_alone hg hvalid hroot htypes hstage fold

/-- What a plan of a compilation holds. -/
theorem Graph.planCompilation_spec {id : NodeId} {options : Options} {c : CompilationPlan}
    (h : g.planCompilation id options = .ok c) :
    (g.position? id = some c.root ∧ c.root < g.nodes.size ∧ ¬ g.IsField c.root) ∧
      ∃ roots, g.stageRoots c.root = .ok roots ∧
        (g.resolveTypes options.maxSearchNodes).1 = .ok c.types ∧
        List.Forall₂ (fun r p => g.plan c.types options.foldConstants r = .ok p) roots c.stages := by
  rw [planCompilation] at h
  obtain ⟨_, -, h⟩ := bind_eq_ok.1 h
  obtain ⟨root, hroot, h⟩ := bind_eq_ok.1 h
  obtain ⟨roots, hroots, h⟩ := bind_eq_ok.1 h
  obtain ⟨⟨types, stats⟩, htyped, h⟩ := bind_eq_ok.1 h
  obtain ⟨stages, hstages, h⟩ := bind_eq_ok.1 h
  cases h
  refine ⟨?_, roots, hroots, ?_, mapM_eq_ok.1 hstages⟩
  · rw [outputPosition] at hroot
    split at hroot
    · cases hroot
    · rename_i i hi
      split at hroot
      · cases hroot
      · rename_i n hn
        split at hroot
        · rename_i hk
          cases hroot
          refine ⟨hi, (Array.getElem?_eq_some_iff.1 hn).1, fun hfield => ?_⟩
          rw [IsField, hn, Option.map_some, Option.some.injEq] at hfield
          rw [hfield] at hk
          cases hk
        · cases hroot
  · rw [typed] at htyped
    split at htyped
    · rename_i heq
      cases htyped
      rw [heq]
    · cases htyped
    · cases htyped

/-- The stages of a compilation are built from plans. -/
theorem Graph.compile_plans {id : NodeId} {options : Options} {c : Compilation}
    (h : g.compile id options = .ok c) :
    (g.resolveTypes options.maxSearchNodes).1 = .ok c.types ∧
      ∀ s ∈ c.stages, ∃ p, g.plan c.types options.foldConstants s.stage.root = .ok p ∧
        p.types = c.types ∧ p.Builds s := by
  rw [compile] at h
  obtain ⟨plan, hplan, h⟩ := bind_eq_ok.1 h
  obtain ⟨stages, hstages, h⟩ := bind_eq_ok.1 h
  cases h
  obtain ⟨-, roots, -, htypes, hplans⟩ := planCompilation_spec hplan
  refine ⟨htypes, fun s hs => ?_⟩
  obtain ⟨p, hp, hbuilds⟩ := exists_of_mem_right (buildStages_spec hstages) hs
  obtain ⟨r, -, hr⟩ := exists_of_mem_right hplans hp
  have hplan := hr
  rw [Graph.plan] at hr
  obtain ⟨_, -, hr⟩ := bind_eq_ok.1 hr
  obtain ⟨_, -, hr⟩ := bind_eq_ok.1 hr
  cases hr
  refine ⟨_, ?_, rfl, hbuilds⟩
  rw [hbuilds.root]
  exact hplan

/-- **A built stage realizes a root**: it notes each boundary that the walk followed, once, and has
code, once, for each other node that the walk came by. -/
structure Graph.Realizes (g : Graph) (r : Nat) (s : CompiledStage) : Prop where
  root : s.stage.root = r
  nodup : s.stage.dependencies.Nodup
  mem : ∀ d, d ∈ s.stage.dependencies ↔ d ∈ (g.stageLabels r).boundaries
  nodup_nodes : s.stage.nodes.Nodup
  mem_nodes : ∀ i, i ∈ s.stage.nodes ↔
    i ∈ (g.stageLabels r).discovered ∧ (g.stageLabels r).isForeignRoot i = false

theorem Graph.realizes_of_plans {budget : Int} {types : TypeAssignment} {fold : Bool}
    {roots : List Nat} {plans : List StagePlan} {stages : List CompiledStage} (hg : g.Consistent)
    (ht : (g.resolveTypes budget).1 = .ok types)
    (hp : List.Forall₂ (fun r p => g.plan types fold r = .ok p) roots plans)
    (hs : List.Forall₂ StagePlan.Builds plans stages) : List.Forall₂ g.Realizes roots stages := by
  induction hp generalizing stages with
  | nil =>
    cases hs
    exact .nil
  | @cons r p roots plans hr _ ih =>
    obtain ⟨s, rest, hbuilds, hrest, rfl⟩ := List.forall₂_cons_left_iff.1 hs
    obtain ⟨hplanned, hlabels, -⟩ := plan_planned hg ht hr
    refine .cons ⟨?_, ?_, fun d => ?_, ?_, fun i => ?_⟩ (ih hrest)
    · rw [hbuilds.root, StagePlan.root, hlabels]
      rfl
    · rw [hbuilds.dependencies]
      exact hplanned.nodup.filter _
    · rw [hbuilds.dependencies]
      exact StagePlan.mem_dependencies hplanned hlabels
    · rw [hbuilds.nodes]
      exact hplanned.nodup.filter _
    · rw [hbuilds.nodes, StagePlan.nodes, List.mem_filter, hplanned.mem_order, Labels.mem_nodes,
        hlabels, Bool.not_eq_true']

/-- **What a compilation is made of**: the roots that the walk lists, each realized by a stage. -/
theorem Graph.Built.compile_realizes (hg : g.Built) {id : NodeId} {options : Options}
    {c : Compilation} (h : g.compile id options = .ok c) :
    (g.position? id = some c.root ∧ c.root < g.nodes.size ∧ ¬ g.IsField c.root) ∧
      c.pruned = g.unused c.stages ∧
      ∃ roots, g.stageRoots c.root = .ok roots ∧ List.Forall₂ g.Realizes roots c.stages := by
  rw [compile] at h
  obtain ⟨plan, hplan, h⟩ := bind_eq_ok.1 h
  obtain ⟨stages, hstages, h⟩ := bind_eq_ok.1 h
  cases h
  obtain ⟨hroot, roots, hroots, htypes, hplans⟩ := planCompilation_spec hplan
  exact ⟨hroot, rfl, roots, hroots,
    realizes_of_plans hg.consistent htypes hplans (buildStages_spec hstages)⟩

/-- **The stages of a compilation.** -/
theorem Graph.Built.compile_staged (hg : g.Built) {id : NodeId} {options : Options}
    {c : Compilation} (h : g.compile id options = .ok c) :
    g.position? id = some c.root ∧ c.Staged g := by
  have hc := hg.consistent
  obtain ⟨⟨hpos, hlt, hroot⟩, -, roots, hroots, hbuilt⟩ := hg.compile_realizes h
  obtain ⟨hio, hlast, hothers⟩ := stageRoots_spec hc hlt hroots
  have hmap : c.stages.map (·.stage.root) = roots := by
    rw [← List.forall₂_eq_eq_eq, List.forall₂_map_left_iff]
    exact (hbuilt.imp fun _ _ h => h.root).flip
  have hnoted : ∀ s ∈ c.stages, g.Realizes s.stage.root s := by
    intro s hs
    obtain ⟨r, -, hr⟩ := exists_of_mem_right hbuilt hs
    rw [hr.root]
    exact hr
  refine ⟨hpos, ?_, ?_, ?_, ?_, ?_⟩
  · rw [Compilation.roots, hmap]
    exact hio.nodup
  · rw [Compilation.roots, hmap]
    exact hlast
  · intro i
    rw [Compilation.roots, hmap]
    constructor
    · rintro ⟨hi, hne⟩
      exact (hothers i hne).1 hi
    · rintro ⟨hfield, hlead⟩
      have hne : i ≠ c.root := fun heq => hroot (heq ▸ hfield)
      exact ⟨(hothers i hne).2 ⟨hfield, hlead⟩, hne⟩
  · intro A s B hAB d hd
    have hs : s ∈ c.stages := by
      rw [hAB]
      simp
    have hsplit : roots = A.map (·.stage.root) ++ s.stage.root :: B.map (·.stage.root) := by
      rw [← hmap, hAB, List.map_append, List.map_cons]
    exact List.mem_map.1 (hio.before _ _ _ hsplit d (((hnoted s hs).mem d).1 hd))
  · intro s hs t ht
    refine ⟨count_dependants _ (hmap ▸ hio.nodup) hs, ?_⟩
    exact List.nodup_iff_count_le_one.1 (hnoted s hs).nodup _

/-- A graph that is planned and whose stages are built compiles. -/
theorem Graph.compile_of_build {id : NodeId} {options : Options} {plan : CompilationPlan}
    {roots : List Nat}
    (hplan : g.planCompilation id options = .ok plan)
    (hbuilds : (buildStages plan.stages).toOption.map (·.map (·.stage.root)) = some roots) :
    ∃ c, g.compile id options = .ok c ∧ c.roots = roots := by
  cases hs : buildStages plan.stages with
  | error e =>
    rw [hs] at hbuilds
    cases hbuilds
  | ok stages =>
    rw [hs] at hbuilds
    exact ⟨⟨plan.root, plan.types, plan.stats, stages, g.unused stages⟩,
      bind_eq_ok.2 ⟨plan, hplan, bind_eq_ok.2 ⟨stages, hs, rfl⟩⟩, Option.some.inj hbuilds⟩

/-! ### A field that is shown -/

namespace FieldExample

/-- The time fills a field, and an output shows what is sampled from it. -/
def graph : Graph :=
  .grown [.node (Uuid.ofBytes [1]) "" .time .none,
    .node (Uuid.ofBytes [2]) "" .computeField (.field 2 0),
    .node (Uuid.ofBytes [3]) "" .sample .none, .node (Uuid.ofBytes [4]) "" .previewOutput .none,
    .edge 0 1, .edge 2 3, .edge 5 6]

def types : TypeAssignment :=
  #[.float, .float, .texture2D, .texture2D, .float2, .float4, .float4]

/-- The plan of one of its two stages, which have no arms. -/
def stage (root : Nat) (order : List Nat) : StagePlan :=
  ⟨graph.stageLabels root, types, order, ⟨order, []⟩, false⟩

/-- What planning comes out as. -/
theorem evaluated : graph.validate.toOption = some () ∧
    (graph.outputPosition (Uuid.ofBytes [4])).toOption = some 3 ∧
    graph.typesWithin? 20 = some types ∧ graph.outlineWithin? 20 1 = some ([], [0, 1]) ∧
    graph.outlineWithin? 20 3 = some ([1], [1, 2, 3]) ∧
    (∀ i ∈ [0, 1], (graph.stageLabels 1).isBranching i = false) ∧
    ∀ i ∈ [1, 2, 3], (graph.stageLabels 3).isBranching i = false := by
  decide +kernel

theorem consistent : graph.Consistent := (Graph.Built.grown _).consistent

theorem resolved : (graph.resolveTypes 0).1 = .ok types := by
  obtain ⟨-, -, hwithin, -⟩ := evaluated
  exact Graph.resolveTypes_of_within hwithin

theorem plan_field : graph.plan types false 1 = .ok (stage 1 [0, 1]) := by
  obtain ⟨-, -, -, hfield, -, hplain, -⟩ := evaluated
  exact Graph.plan_plain consistent (Graph.outline_of_within consistent hfield).2.2 hplain types false

theorem plan_shown : graph.plan types false 3 = .ok (stage 3 [1, 2, 3]) := by
  obtain ⟨-, -, -, -, hshown, -, hplain⟩ := evaluated
  exact Graph.plan_plain consistent (Graph.outline_of_within consistent hshown).2.2 hplain types false

theorem planned : ∃ stats, graph.planCompilation (Uuid.ofBytes [4]) ⟨false, 0⟩ =
    .ok ⟨3, types, stats, [stage 1 [0, 1], stage 3 [1, 2, 3]]⟩ := by
  obtain ⟨hvalid, hroot, -, hfield, hshown, -⟩ := evaluated
  exact Graph.planned_of_parts ⟨false, 0⟩ (toOption_eq_some.1 hvalid) (toOption_eq_some.1 hroot)
    (Graph.stageRoots_pair consistent hshown hfield) resolved (.cons plan_field (.cons plan_shown .nil))

/-- It compiles. -/
theorem compiles : ∃ c, graph.compile (Uuid.ofBytes [4]) ⟨false, 0⟩ = .ok c ∧ c.roots = [1, 3] := by
  have hbuilds : (buildStages [stage 1 [0, 1], stage 3 [1, 2, 3]]).toOption.map
      (·.map (·.stage.root)) = some [1, 3] := by decide +kernel
  obtain ⟨stats, hplan⟩ := planned
  exact Graph.compile_of_build hplan hbuilds

end FieldExample

/-- Two stages, the field and the output that shows it. -/
theorem Graph.compile_staged_field :
    ∃ c, FieldExample.graph.compile (Uuid.ofBytes [4]) ⟨false, 0⟩ = .ok c ∧
      FieldExample.graph.position? (Uuid.ofBytes [4]) = some c.root ∧
      c.Staged FieldExample.graph ∧ c.roots = [1, 3] := by
  obtain ⟨c, hcompile, hroots⟩ := FieldExample.compiles
  obtain ⟨hpos, hstaged⟩ := (Built.grown _).compile_staged hcompile
  exact ⟨c, hcompile, hpos, hstaged, hroots⟩

/-! ### A choice that is shown -/

namespace ChoiceExample

/-- The time is compared with a sum.  An output shows the sum if the time is less, else the time
negated; another conditional, of known outcome, passes the sum on. -/
def graph : Graph :=
  .grown [.node (Uuid.ofBytes [1]) "" .time .none,
    .node (Uuid.ofBytes [2]) "" .constant (.constant [2] .float),
    .node (Uuid.ofBytes [3]) "" .add .none,
    .node (Uuid.ofBytes [4]) "" .compare (.compare .less),
    .node (Uuid.ofBytes [5]) "" .compare (.compare .greater),
    .node (Uuid.ofBytes [6]) "" .negate .none,
    .node (Uuid.ofBytes [7]) "" .conditional .none,
    .node (Uuid.ofBytes [8]) "" .negate .none,
    .node (Uuid.ofBytes [9]) "" .conditional .none,
    .node (Uuid.ofBytes [10]) "" .previewOutput .none,
    .edge 1 2, .edge 1 3, .edge 0 5, .edge 4 6, .edge 1 8, .edge 1 11, .edge 10 13, .edge 4 14,
    .edge 12 15, .edge 0 17, .edge 7 19, .edge 16 20, .edge 18 21, .edge 22 23]

def types : TypeAssignment :=
  #[.float, .float, .float, .float, .float, .float, .float, .bool, .float, .float, .bool, .float,
    .float, .bool, .float, .float, .float, .float, .float, .bool, .float, .float, .float, .float]

/-- Its nodes in order: all but the comparison of known outcome and what only the arm not taken uses. -/
def order : List Nat := [0, 1, 2, 3, 6, 7, 8, 9]

/-- The plan of its one stage. -/
def stage (fold : Bool) : StagePlan :=
  ⟨graph.stageLabels 9, types, order,
    ⟨[0, 1, 2, 3, 8, 9], [(6, [[], []]), (8, [[6], [7]])]⟩, fold⟩

/-- What planning comes out as. -/
theorem evaluated : graph.validate.toOption = some () ∧
    (graph.outputPosition (Uuid.ofBytes [10])).toOption = some 9 ∧
    graph.typesWithin? 60 = some types ∧ graph.outlineWithin? 30 9 = some ([], order) ∧
    (graph.stageLabels 9).regionWithin? 30 order = some (stage false).region := by
  decide +kernel

/-- The code of its fragments: a choice between nothing and a negation. -/
def opcodes : List Spirv.Opcode :=
  [.function, .label, .accessChain, .load, .fAdd, .fOrdLessThan, .selectionMerge, .branchConditional,
    .label, .branch, .label, .fNegate, .branch, .label, .phi, .compositeConstruct, .store, .returnVoid,
    .functionEnd]

/-- The lengths of its modules: with the sum folded, that of its fragments has one word less. -/
def lengths (fold : Bool) : List Nat := [376, if fold then 245 else 246]

/-- What is generated. -/
theorem generated :
    (∀ fold, (stage fold).generate.toOption.map (·.bodies.map (·.words.length)) =
      some (lengths fold)) ∧
    (stage false).draftBody.toOption.map (·.builder.nextId) = some 31 ∧
    (stage false).draftBody.toOption.map (·.builder.code.map (·.opcode)) = some opcodes := by
  decide +kernel

theorem built : graph.Built := Graph.Built.grown _

theorem consistent : graph.Consistent := built.consistent

theorem resolved : (graph.resolveTypes 0).1 = .ok types := by
  obtain ⟨-, -, hwithin, -⟩ := evaluated
  exact Graph.resolveTypes_of_within hwithin

theorem region_eq : (graph.stageLabels 9).region order = (stage false).region := by
  obtain ⟨-, -, -, -, hregion⟩ := evaluated
  exact Labels.region_of_within hregion

theorem plan_eq (fold : Bool) : graph.plan types fold 9 = .ok (stage fold) := by
  obtain ⟨-, -, -, houtline, -⟩ := evaluated
  have hplan :=
    Graph.plan_of_within consistent (Graph.outline_of_within consistent houtline).2.2 types fold
  rwa [region_eq] at hplan

theorem planned (fold : Bool) : ∃ stats, graph.planCompilation (Uuid.ofBytes [10]) ⟨fold, 0⟩ =
    .ok ⟨9, types, stats, [stage fold]⟩ := by
  obtain ⟨hvalid, hroot, -, houtline, -⟩ := evaluated
  exact Graph.planned_of_parts ⟨fold, 0⟩ (toOption_eq_some.1 hvalid) (toOption_eq_some.1 hroot)
    (Graph.stageRoots_alone consistent houtline) resolved (.cons (plan_eq fold) .nil)

/-- The code that is generated without folding. -/
theorem drafted : ∃ s d, (stage false).generate = .ok s ∧ (stage false).draftBody = .ok d ∧
    d.builder.nextId = 31 ∧ d.builder.code.map (·.opcode) = opcodes := by
  obtain ⟨hlengths, hnext, hcode⟩ := generated
  obtain ⟨s, hs, -⟩ := Option.map_eq_some_iff.1 (hlengths false)
  obtain ⟨d, hd, hnext⟩ := Option.map_eq_some_iff.1 hnext
  rw [hd] at hcode
  exact ⟨s, d, toOption_eq_some.1 hs, toOption_eq_some.1 hd, hnext, Option.some.inj hcode⟩

/-- Modules of that many words are short. -/
theorem short_of_lengths {bodies : List Body} {fold : Bool}
    (h : bodies.map (·.words.length) = lengths fold) : ∀ b ∈ bodies, b.words.length < 4294967296 := by
  intro b hb
  have hshort : ∀ k ∈ lengths fold, k < 4294967296 := by cases fold <;> decide
  exact hshort _ (h ▸ List.mem_map_of_mem hb)

/-- The modules of its one stage. -/
theorem lengths_of_compile {fold : Bool} {c : Compilation} {s : CompiledStage}
    (hc : graph.compile (Uuid.ofBytes [10]) ⟨fold, 0⟩ = .ok c) (hs : s ∈ c.stages)
    (hroot : s.stage.root = 9) : s.stage.bodies.map (·.words.length) = lengths fold := by
  obtain ⟨hlengths, -⟩ := generated
  obtain ⟨htypes, hplans⟩ := Graph.compile_plans hc
  obtain ⟨p, hp, -, hbuilds⟩ := hplans s hs
  obtain ⟨t, ht, hbodies⟩ := hbuilds.bodies
  rw [← Except.ok.inj (resolved.symm.trans htypes), hroot, plan_eq] at hp
  rw [← Except.ok.inj hp] at ht
  rw [← hbodies]
  have hlength := hlengths fold
  rw [ht] at hlength
  exact Option.some.inj hlength

end ChoiceExample

end NodeShader
