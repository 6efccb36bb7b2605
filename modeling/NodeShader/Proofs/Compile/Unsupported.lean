import NodeShader.Proofs.Compile.Typed
import NodeShader.Proofs.Stage.Failing

/-!
# Unsupported constructs

Generating a complete stage fails exactly if one of its nodes has no code, and then it tells of such a
node: `Graph.Built.generate_unsupported`.  Failures were traced step by step (`stageBody_fails`).  The
other way round, a stage that was generated has declared all its nodes, and has written all of them:

* `StagePlan.written_all`: nodes of the shared list are written with it, and those of an arm while the
  conditional of the arm is, from the last node to the first.
* `StagePlan.coded_of_draftBody`: so none of them is without code.
* `Labels.complete_iff`: the stages that are checked before any code is made are the complete ones.
-/

namespace NodeShader

open Spirv

/-! ### Complete stages -/

namespace Graph

variable {g : Graph} {i : Nat} {n : Node}

theorem checkRequired_eq_ok (hg : g.Consistent) (hn : g.nodes[i]? = some n) :
    g.checkRequired n = .ok () ↔ ∀ q ∈ n.inputs, ∀ port, g.port? q = some port →
      port.spec.required = true → port.isConnected = true := by
  rw [checkRequired, forM_eq_ok]
  refine forall₂_congr fun q hq => ?_
  obtain ⟨port, hport, -⟩ := hg.input_port hn hq
  simp only [hport, Option.some.injEq, forall_eq']
  cases port.spec.required with
  | false => simp
  | true =>
    cases port.isConnected with
    | false => simp [structural]
    | true => simp

theorem checkFormula_eq_ok (hg : g.Consistent) (hn : g.nodes[i]? = some n) :
    checkFormula n = .ok () ↔ (n.kind = .mathExpression → ∀ source names,
      n.params = .math source names → ∃ e, Math.Expr.parse source names = .ok e) := by
  rw [checkFormula]
  by_cases hk : n.kind = .mathExpression
  · rw [if_neg (not_not.2 hk)]
    obtain ⟨ins, outs, hs, -⟩ := (hg.node i n hn).ports
    rw [hk] at hs
    cases hparams : n.params with
    | math source names =>
      dsimp only
      cases hparse : Math.Expr.parse source names with
      | ok e => simp [hparse]
      | error fault => simp [hk, hparse]
    | _ =>
      rw [hparams] at hs
      cases hs
  · simp [hk]

end Graph

/-- **Checking a stage** before any code is made finds out whether it is complete. -/
theorem Labels.complete_iff {l : Labels} (hg : l.graph.Consistent) :
    l.graph.checkStage l = .ok () ↔ l.Complete := by
  have hnode : ∀ i ∈ l.nodes, ∃ n, l.graph.nodes[i]? = some n := fun i hi => exists_node hi
  rw [Graph.checkStage, forM_eq_ok]
  simp only [List.mem_filter, Bool.not_eq_true']
  constructor
  · intro h
    have hboth : ∀ i ∈ l.nodes, l.isForeignRoot i = false → ∀ n, l.graph.nodes[i]? = some n →
        l.graph.checkRequired n = .ok () ∧ Graph.checkFormula n = .ok () := by
      intro i hi hf n hn
      have hi := h i ⟨hi, hf⟩
      rw [hn] at hi
      obtain ⟨_, hr, hc⟩ := bind_eq_ok.1 hi
      exact ⟨hr, hc⟩
    exact ⟨fun i hi hf n hn => (Graph.checkRequired_eq_ok hg hn).1 (hboth i hi hf n hn).1,
      fun i hi hf n hn => (Graph.checkFormula_eq_ok hg hn).1 (hboth i hi hf n hn).2⟩
  · rintro h i ⟨hi, hf⟩
    obtain ⟨n, hn⟩ := hnode i hi
    rw [hn]
    exact bind_eq_ok.2 ⟨_, (Graph.checkRequired_eq_ok hg hn).2 (h.wired i hi hf n hn),
      (Graph.checkFormula_eq_ok hg hn).2 (h.readable i hi hf n hn)⟩

/-! ### All nodes are written -/

theorem NodeKind.eq_conditional {k : NodeKind} (h : k.isBranching = true) : k = .conditional := by
  cases k with
  | conditional => rfl
  | _ => cases h

namespace Drafting

variable {p : StagePlan} {d d' : Draft} {u : Unit} {i : Nat} {l : List Nat} {n : Node}

/-- Each step of a loop was taken. -/
theorem draws_forM_mem {f : Nat → Drafting Unit} (h : Draws (l.forM f) d u d') (hi : i ∈ l) :
    ∃ e u' e', Draws (f i) e u' e' := by
  induction l generalizing d with
  | nil => cases hi
  | cons j l ih =>
    rw [List.forM_eq_forM, List.forM_cons] at h
    obtain ⟨u', d₁, h₁, h⟩ := draws_bind.1 h
    rcases List.mem_cons.1 hi with rfl | hi
    · exact ⟨d, u', d₁, h₁⟩
    · exact ih h hi

end Drafting

open Drafting in
/-- **A node that was written**, with the arms below it. -/
def StagePlan.Written (p : StagePlan) (i : Nat) : Prop :=
  ∃ (depth : Nat) (n : Node) (d : Draft) (u : Unit) (e : Draft), p.graph.nodes[i]? = some n ∧
    Draws (writeNode p (fun arm => writeNodes p depth (p.region.armNodes i arm)) i n) d u e

namespace StagePlan

variable {p : StagePlan} {d d' : Draft} {u : Unit} {i j : Nat} {l : List Nat} {n root : Node} {t : Tag}

open Drafting

theorem written_of_mem {depth : Nat} (h : Draws (writeNodes p depth l) d u d') (hi : i ∈ l) :
    p.Written i := by
  cases depth with
  | zero => exact absurd h not_draws_throw
  | succ depth =>
    obtain ⟨e, u', e', h'⟩ :=
      draws_forM_mem (show Draws (l.forM (writeAt p depth)) d u d' from h) hi
    obtain ⟨n, hn, h'⟩ := draws_writeAt.1 h'
    exact ⟨depth, n, e, u', e', hn, h'⟩

/-- Both arms of a choice were written. -/
theorem draws_arm {arm : Nat → Drafting Unit} {c a b out : PortId} {k : Nat} (hk : k < 2)
    (h : Draws (writeChoice p arm i c a b out) d u d') : ∃ e u' e', Draws (arm k) e u' e' := by
  have harm : ∀ {step : Drafting Unit} {label merge : UInt32} {q : PortId} {xs : List UInt32}
      {d e : Draft}, Draws (writeArm p step label merge q) d xs e → ∃ e u' e', Draws step e u' e' := by
    intro step label merge q xs d e h
    obtain ⟨_, d₁, -, h⟩ := draws_bind.1 h
    obtain ⟨u', d₂, h₂, -⟩ := draws_bind.1 h
    exact ⟨d₁, u', d₂, h₂⟩
  obtain ⟨_, _, -, h⟩ := draws_bind.1 h
  obtain ⟨_, _, -, h⟩ := draws_bind.1 h
  obtain ⟨_, _, h₀, h⟩ := draws_bind.1 h
  obtain ⟨_, _, h₁, -⟩ := draws_bind.1 h
  have hcases : k = 0 ∨ k = 1 := by omega
  rcases hcases with rfl | rfl
  · exact harm h₀
  · exact harm h₁

/-- **What is in an arm was written** with the conditional of the arm. -/
theorem Written.arm (hp : p.Planned) (h : p.Written t.node) (hj : p.home j = some t) : p.Written j := by
  obtain ⟨depth, n, d, u, e, hn, h⟩ := h
  obtain ⟨-, hnode, -⟩ := hp.home_before hj
  obtain ⟨hbranching, k, hlt, harm⟩ := Labels.home_arm_lt (l := p.labels) hp.consistent hj
  have hlive : p.labels.liveArm t.node = none := (Labels.home_eq_some.1 hj).2.2
  rw [Labels.isBranching, show p.labels.node? t.node = some n from hn, Option.map_some] at hbranching
  have hk : n.kind = .conditional := NodeKind.eq_conditional hbranching
  rw [Labels.armCount_conditional (l := p.labels) hp.consistent hn hk] at hlt
  cases hp.typed.fits hp.consistent hn with
  | conditional _ hin hout hc ha hb =>
    simp only [writeNode, hk, NodeKind.operation?, hout] at h
    rw [writeConditional_choice hin hc ha hb hlive] at h
    obtain ⟨e', u', e'', h⟩ := draws_arm hlt h
    rw [armNodes_conditional hp hnode hn hk hlt] at h
    refine written_of_mem h (Planned.mem_members.2 ⟨(hp.home_before hj).1, ?_⟩)
    rw [hj, ← harm]
  | arithmetic hop => exact absurd hk (ordinary_of_operation hop).2.1
  | _ hk' =>
    rw [hk] at hk'
    cases hk'

/-- **All nodes were written** once the shared list is: from the last node to the first. -/
theorem written_all {depth : Nat} (hp : p.Planned)
    (h : Draws (writeNodes p depth p.region.shared) d u d') : ∀ i ∈ p.order, p.Written i := by
  have hbelow : ∀ m i, i ∈ p.order → p.order.length - p.rank i ≤ m → p.Written i := by
    intro m
    induction m with
    | zero =>
      intro i hi hle
      have hlt : p.rank i < p.order.length := List.idxOf_lt_length_of_mem hi
      omega
    | succ m ih =>
      intro i hi hle
      cases hh : p.home i with
      | none =>
        rw [hp.shared] at h
        exact written_of_mem h (Planned.mem_members.2 ⟨hi, hh⟩)
      | some t =>
        obtain ⟨-, hnode, hlt⟩ := hp.home_before hh
        exact (ih t.node hnode (by omega)).arm hp hh
  exact fun i hi => hbelow _ i hi (Nat.le_refl _)

/-! ### Nodes of a stage that was generated -/

section Drafted

variable [NameLimit] {P : List UInt32}

/-- Inputs of the fragment body are declared in a fragment body only. -/
theorem fragment_of_declared (hp : p.Planned) (hnames : p.graph.NamesFit) (hs : d.Sound P)
    (hf : d.Furnished p) (hc : d.Counted) (h : Draws (l.forM (declareNode p)) d u d') (hi : i ∈ l)
    (hn : p.graph.nodes[i]? = some n) (hk : n.kind = .normal ∨ n.kind = .texCoord) :
    d.model = .fragment := by
  induction l generalizing d with
  | nil => cases hi
  | cons j l ih =>
    rw [List.forM_eq_forM, List.forM_cons] at h
    obtain ⟨_, d₁, h₁, h⟩ := draws_bind.1 h
    rcases List.mem_cons.1 hi with rfl | hi
    · by_contra hm
      rw [declareNode, hn, draws_some_bind] at h₁
      rcases hk with hk | hk
      all_goals
        simp only [hk] at h₁
        rw [isFragment_bind, decide_eq_false hm] at h₁
        exact not_draws_unsupported h₁
    · obtain ⟨m, d₀, hm, -⟩ := draws_bind.1 (show Draws (demand p.graph.nodes[j]? >>= _) d _ d₁ from h₁)
      obtain ⟨hd, -⟩ := declareNode_spec hp hnames (draws_demand.1 hm).1 hs hf hc h₁
      rw [← hd.model]
      exact ih (hd.sound P hs) hd.furnished hd.counted h hi

/-- **No node of a stage with a body is without code.** -/
theorem coded_of_draftBody (hp : p.Planned) (hnames : p.graph.NamesFit) (h : p.draftBody = .ok d)
    (hi : i ∈ p.order) (hn : p.graph.nodes[i]? = some n) : ¬ p.Codeless i n := by
  obtain ⟨root, model, mode, params, u, hroot, he, hrun⟩ := root_of_draftBody h
  obtain ⟨o, d₁, ho, hcode, -⟩ := draws_stageBody.1 hrun
  obtain ⟨_, _, opened⟩ := opening_spec hp hnames ho
  intro hcodeless
  cases hcodeless with
  | line hr hk hparams =>
    obtain ⟨size, hsize⟩ := sized_of_execution hroot he n _ _ (hr ▸ hn) hk hparams
    cases hsize
  | @sample f rest hk hin ht =>
    obtain ⟨m, hm, hserves⟩ := opened.serves i hi
    rw [hn] at hm
    cases hm
    cases hp.typed.fits hp.consistent hn with
    | sample _ hin' =>
      rw [hin'] at hin
      cases hin
      have hsize := (hserves.sample hk _ _ _ hin').1
      rw [ht] at hsize
      exact absurd hsize (by decide)
    | arithmetic hop =>
      rw [hk] at hop
      cases hop
    | _ hk' =>
      rw [hk] at hk'
      cases hk'
  | input hk hroot' hstage =>
    rw [hroot] at hroot'
    cases hroot'
    obtain ⟨_, d₂, h₂, ho⟩ := draws_bind.1 ho
    obtain ⟨_, d₃, h₃, -⟩ := draws_bind.1 ho
    obtain ⟨hs, hf, hc, -, hmodel, -⟩ := begin_furnished (p := p) h₂
    have hfragment := fragment_of_declared hp hnames hs hf hc h₃ hi hn hk
    rcases Node.stage_of_execution he with ⟨hrender, -⟩ | ⟨-, hcompute⟩
    · rw [hstage] at hrender
      cases hrender
    · rw [hmodel, hcompute] at hfragment
      cases hfragment
  | compare hk hparams =>
    obtain ⟨depth, m, e, u', e', hm, hwrite⟩ := written_all hp hcode i hi
    rw [hn] at hm
    cases hm
    cases hp.typed.fits hp.consistent hn with
    | compare _ _ hin hout =>
      simp only [writeNode, hk, NodeKind.operation?, hin, hout] at hwrite
      rw [writeCompare, hparams] at hwrite
      exact not_draws_unsupported hwrite
    | arithmetic hop =>
      rw [hk] at hop
      cases hop
    | _ hk' =>
      rw [hk] at hk'
      cases hk'

/-! ### Failures of a stage -/

omit [NameLimit] in
/-- A root fails to say how its stage is executed if it is a field of one dimension. -/
theorem tells_of_execution {f : Failure} (hp : p.Planned) (hroot : p.graph.nodes[p.root]? = some root)
    (hstage : root.kind.isRoot = true) (he : root.execution = .error f) : p.Tells f := by
  have hmem : p.root ∈ p.order := (hp.mem_order _).2 (Labels.mem_nodes.2
    (start_mem_reach List.mem_cons_self (Array.getElem?_eq_some_iff.1 hroot).1))
  rw [Node.execution] at he
  split at he
  · cases he
  · rename_i hk
    have hfield := Node.kind_of_compute hk
    cases hp.typed.fits hp.consistent hroot with
    | @computeField dim _ _ _ _ hparams _ _ h1 h3 =>
      rw [hparams] at he
      dsimp only at he
      split at he
      · rename_i hsize
        obtain rfl : dim = 1 := by
          by_contra hne
          have hcases : dim = 2 ∨ dim = 3 := by omega
          rcases hcases with rfl | rfl <;> cases hsize
        cases he
        exact ⟨p.root, hmem, root, hroot, .line rfl hfield hparams, rfl⟩
      · cases he
    | arithmetic hop =>
      rw [hfield] at hop
      cases hop
    | _ hk' =>
      rw [hfield] at hk'
      cases hk'
  · rename_i hk
    rw [NodeKind.isRoot, hk] at hstage
    cases hstage

/-- **The body of a stage** fails at nodes without code only. -/
theorem tells_of_draftBody {f : Failure} (hp : p.Planned) (hnames : p.graph.NamesFit)
    (hcomplete : p.labels.Complete)
    (hopen : ∀ i ∈ p.order, p.labels.isBranching i = true → i ∈ p.region.arms.map (·.1))
    (hroot : p.graph.nodes[p.root]? = some root) (hstage : root.kind.isRoot = true)
    (h : p.draftBody = .error f) : p.Tells f := by
  rw [draftBody] at h
  rcases bind_eq_error.1 h with h | ⟨r, hr, h⟩
  · rw [rootNode_eq_ok.2 hroot] at h
    cases h
  · rw [rootNode_eq_ok.2 hroot] at hr
    cases hr
    rcases bind_eq_error.1 h with he | ⟨⟨model, mode, params⟩, he, h⟩
    · exact tells_of_execution hp hroot hstage he
    · exact stageBody_fails .trivial hp hnames hcomplete hopen hroot he f (map_eq_error.1 h)

/-- **A stage** fails at nodes without code only. -/
theorem tells_of_generate {f : Failure} (hp : p.Planned) (hnames : p.graph.NamesFit)
    (hcomplete : p.labels.Complete)
    (hopen : ∀ i ∈ p.order, p.labels.isBranching i = true → i ∈ p.region.arms.map (·.1))
    (hroot : p.graph.nodes[p.root]? = some root) (hstage : root.kind.isRoot = true)
    (h : p.generate = .error f) : p.Tells f := by
  rw [generate, mapError_eq_error] at h
  obtain ⟨f', h, rfl⟩ := h
  have htells : p.Tells f' := by
    rw [draft] at h
    rcases bind_eq_error.1 h with h | ⟨r, -, h⟩
    · rw [rootNode_eq_ok.2 hroot] at h
      cases h
    · rcases bind_eq_error.1 h with h | ⟨d, -, h⟩
      · exact tells_of_draftBody hp hnames hcomplete hopen hroot hstage h
      · dsimp only at h
        split at h
        · rcases bind_eq_error.1 h with h | ⟨bodies, -, h⟩
          · -- the vertex body is always there
            rw [map_eq_error, vertexBody, map_eq_error, Drafting.run, map_eq_error] at h
            exact (sure_vertex (fun _ => False) _ _ h).elim
          · cases h
        · cases h
  obtain ⟨i, hi, n, hn, hcodeless, hf⟩ := htells
  exact ⟨i, hi, n, hn, hcodeless, Failure.classification?_classify hf⟩

end Drafted

end StagePlan

/-- The region of a plan has lists for the arms of all its conditionals. -/
theorem Graph.plan_arms {g : Graph} {types : TypeAssignment} {fold : Bool} {root : Nat}
    {p : StagePlan} (hg : g.Consistent) (h : g.plan types fold root = .ok p) :
    ∀ i ∈ p.order, p.labels.isBranching i = true → i ∈ p.region.arms.map (·.1) := by
  rw [plan] at h
  obtain ⟨order, ho, h⟩ := bind_eq_ok.1 h
  obtain ⟨region, hr, h⟩ := bind_eq_ok.1 h
  cases h
  rw [mapError_eq_ok] at ho hr
  have hs := Labels.scheduled_of_schedule (l := g.stageLabels root) hg ho
  rw [hs.decompose_eq hg] at hr
  cases hr
  intro i hi hbranching
  refine List.mem_map.2 ⟨_, List.mem_map.2 ⟨i, Labels.mem_branches.2 ⟨hi, hbranching⟩, rfl⟩, rfl⟩

/-- **Code generation fails at unsupported constructs only.**  A complete stage of a root cannot be
generated exactly if one of its nodes has no code, and the failure is told of such a node. -/
theorem Graph.Built.generate_unsupported {g : Graph} (hg : g.Built) {budget : Int}
    {types : TypeAssignment} {fold : Bool} {root : Nat} {n : Node} {p : StagePlan}
    (ht : (g.resolveTypes budget).1 = .ok types) (hp : g.plan types fold root = .ok p)
    (hroot : g.nodes[root]? = some n) (hstage : n.kind.isRoot = true)
    (hcomplete : (g.stageLabels root).Complete) :
    ((∃ f, p.generate = .error f) ↔
      ∃ i ∈ (g.stageLabels root).nodes, ∃ m, g.nodes[i]? = some m ∧ p.Codeless i m) ∧
    ∀ f, p.generate = .error f → ∃ i ∈ (g.stageLabels root).nodes, ∃ m, g.nodes[i]? = some m ∧
      p.Codeless i m ∧ f.classification? = some ⟨.unsupported, some m.id⟩ := by
  obtain ⟨hplanned, hlabels, -⟩ := Graph.plan_planned hg.consistent ht hp
  obtain ⟨N, hnames⟩ := g.exists_nameLimit
  have hgraph : p.graph = g := by rw [StagePlan.graph, hlabels]; rfl
  have hpos : p.root = root := by rw [StagePlan.root, hlabels]; rfl
  have hmem : ∀ i, i ∈ p.order ↔ i ∈ (g.stageLabels root).nodes := fun i => by
    rw [hplanned.mem_order, hlabels]
  have htells : ∀ f, p.generate = .error f → ∃ i ∈ (g.stageLabels root).nodes, ∃ m,
      g.nodes[i]? = some m ∧ p.Codeless i m ∧ f.classification? = some ⟨.unsupported, some m.id⟩ := by
    intro f hf
    obtain ⟨i, hi, m, hm, h⟩ := StagePlan.tells_of_generate hplanned (hgraph ▸ hnames)
      (hlabels ▸ hcomplete) (Graph.plan_arms hg.consistent hp) (by rw [hgraph, hpos]; exact hroot)
      hstage hf
    exact ⟨i, (hmem i).1 hi, m, hgraph ▸ hm, h⟩
  refine ⟨⟨?_, ?_⟩, htells⟩
  · rintro ⟨f, hf⟩
    obtain ⟨i, hi, m, hm, hcodeless, -⟩ := htells f hf
    exact ⟨i, hi, m, hm, hcodeless⟩
  · rintro ⟨i, hi, m, hm, hcodeless⟩
    cases hs : p.generate with
    | error f => exact ⟨f, rfl⟩
    | ok s =>
      obtain ⟨d, hd, -⟩ := StagePlan.draftBody_of_generate hs
      exact absurd hcodeless (StagePlan.coded_of_draftBody hplanned (hgraph ▸ hnames) hd
        ((hmem i).2 hi) (hgraph ▸ hm))

namespace InputExample

/-- Texture coordinates fill a field, where there are none. -/
def graph : Graph :=
  .grown [.node (Uuid.ofBytes [1]) "" .texCoord .none,
    .node (Uuid.ofBytes [2]) "" .computeField (.field 2 0), .edge 0 1]

def types : TypeAssignment := #[.float2, .float2, .texture2D]

def stage : StagePlan := ⟨graph.stageLabels 1, types, [0, 1], ⟨[0, 1], []⟩, false⟩

/-- What checking and planning come out as. -/
theorem evaluated : graph.typesWithin? 20 = some types ∧
    graph.outlineWithin? 20 1 = some ([], [0, 1]) ∧
    ∀ i ∈ [0, 1], (graph.stageLabels 1).isBranching i = false := by
  decide +kernel

theorem consistent : graph.Consistent := (Graph.Built.grown _).consistent

theorem planned : graph.plan types false 1 = .ok stage := by
  obtain ⟨-, houtline, hplain⟩ := evaluated
  exact Graph.plan_plain consistent (Graph.outline_of_within consistent houtline).2.2 hplain types false

theorem complete : (graph.stageLabels 1).Complete := by
  obtain ⟨-, houtline, -⟩ := evaluated
  exact (Labels.complete_iff consistent).1 (Graph.outline_of_within consistent houtline).1

end InputExample

/-- The stage of the field cannot be generated, and that is told of one of its nodes. -/
theorem Graph.generate_unsupported_texCoord : ∃ f, InputExample.stage.generate = .error f ∧
    ∃ i ∈ (InputExample.graph.stageLabels 1).nodes, ∃ n, InputExample.graph.nodes[i]? = some n ∧
      InputExample.stage.Codeless i n ∧ f.classification? = some ⟨.unsupported, some n.id⟩ := by
  obtain ⟨hwithin, houtline, -⟩ := InputExample.evaluated
  have hschedule := Labels.schedule_of_within (Graph.outline_of_within InputExample.consistent houtline).2.2
  have hmem : 0 ∈ (InputExample.graph.stageLabels 1).nodes := by
    refine ((Labels.scheduled_of_schedule InputExample.consistent hschedule).mem 0).1 ?_
    exact List.mem_cons_self
  have hresolved : (InputExample.graph.resolveTypes 0).1 = .ok InputExample.types :=
    Graph.resolveTypes_of_within hwithin
  obtain ⟨hiff, htold⟩ := (Built.grown _).generate_unsupported hresolved
    InputExample.planned rfl rfl
    InputExample.complete
  obtain ⟨f, hf⟩ := hiff.2 ⟨0, hmem, _, rfl, .input (.inr rfl) rfl rfl⟩
  exact ⟨f, hf, htold f hf⟩

end NodeShader
