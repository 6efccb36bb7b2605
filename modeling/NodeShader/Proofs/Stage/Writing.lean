import NodeShader.Proofs.Stage.Selecting

/-!
# The code of a list of nodes

Every node of a planned stage has code as its kind demands (`writeNode_spec`, one case for each way
in which a node fits its types), and so have lists of nodes with the arms below them
(`writeNodes_handles`, by induction on how deep arms may nest).
-/

namespace NodeShader

open Spirv

variable [NameLimit] {I : Interpretation} {p : StagePlan} {d d₁ d' : Draft} {Γ Γ₁ Γ' : Context I}
  {P : List UInt32} {i : Nat} {l : List Nat} {n : Node} {u : Unit}

/-- A field that the stage fills has a size that workgroups cover. -/
def StagePlan.Sized (p : StagePlan) : Prop :=
  ∀ n dim resolution, p.graph.nodes[p.root]? = some n → n.kind = .computeField →
    n.params = .field dim resolution → ∃ size, localSize? dim = some size

namespace Draft

omit [NameLimit] in
theorem Stored.frame {e : String × PortId} {o : Output I.Value} (hf : d'.frame = d.frame)
    (h : d'.Stored p e o) : d.Stored p e o := by
  obtain ⟨v, a, hv, ho, ha⟩ := h
  rw [eq_of_view Draft.frame Draft.outputs (fun _ => rfl) hf] at hv
  refine ⟨v, a, hv, ho, ?_⟩
  rw [Draft.fragment, ← eq_of_view Draft.frame Draft.model (fun _ => rfl) hf]
  exact ha

omit [NameLimit] in
/-- What a node shows hangs on the frame of the draft only. -/
theorem Shows.frame {o : List (Output I.Value)} (hf : d'.frame = d.frame) (h : d'.Shows p i n o) :
    d.Shows p i n o := by
  cases h with
  | stored hk hs => exact .stored hk (hs.imp fun _ _ => Stored.frame hf)
  | texel hk hroot hin hparams ha =>
    refine .texel hk hroot hin hparams ?_
    rw [Draft.fragment, ← eq_of_view Draft.frame Draft.model (fun _ => rfl) hf]
    exact ha

/-- A node and then a list of nodes. -/
theorem WritesAll.cons {c k : Code} {vs vs₁ : List (PortId × UInt32)} {o o₁ : List (Output I.Value)}
    (hp : p.Planned) (ha : d.Awaits p Γ (i :: l)) (hl : p.Listing (i :: l))
    (hn : p.graph.nodes[i]? = some n) (w : d.Writes p Γ i c vs d₁ Γ₁ o) (hshows : d.Shows p i n o)
    (ws : d₁.WritesAll p Γ₁ l k vs₁ d' Γ' o₁) :
    d.WritesAll p Γ (i :: l) (c ++ k) (vs₁ ++ vs) d' Γ' (o ++ o₁) where
  emits := w.emits.trans ws.emits
  ready := by
    intro j hj
    rcases List.mem_cons.1 hj with rfl | hj
    · have hnext := ha.next hp hl w
      refine w.ready.mono ws.emits.goes ws.emits.runs.subset ws.emits.values fun e he => ?_
      obtain ⟨j, hj, ho⟩ := ws.owned e he
      exact hnext.fresh j hj e.1 ho
    · exact ws.ready j hj
  owned := by
    intro e he
    rcases List.mem_append.1 he with he | he
    · obtain ⟨j, hj, ho⟩ := ws.owned e he
      exact ⟨j, List.mem_cons_of_mem i hj, ho⟩
    · exact ⟨i, List.mem_cons_self, w.owned e he⟩
  shows := by
    obtain ⟨os, rfl, hos⟩ := ws.shows
    refine ⟨o :: os, rfl, .cons ⟨n, hn, hshows⟩ (hos.imp ?_)⟩
    rintro j o ⟨m, hm, hs⟩
    exact ⟨m, hm, hs.frame w.emits.frame⟩

end Draft

namespace Drafting

omit [NameLimit] in
/-- A node of no root kind, or the root itself, needs what feeds it. -/
theorem isForeignRoot_eq_false (hn : p.graph.nodes[i]? = some n)
    (h : n.kind.isRoot = false ∨ i = p.root) : p.labels.isForeignRoot i = false := by
  rw [Labels.isForeignRoot, show p.labels.node? i = some n from hn]
  rcases h with h | rfl
  · simp [h]
  · simp [StagePlan.root]

omit [NameLimit] in
/-- An output of the graph is the root. -/
theorem eq_root_of_outputNames (hp : p.Planned) (hi : i ∈ p.order)
    (hn : p.graph.nodes[i]? = some n) (h : n.kind.outputNames ≠ []) : i = p.root := by
  by_contra hne
  have hnil := namesAt_eq_nil hp hi hne
  rw [namesAt, hn] at hnil
  exact h hnil

omit [NameLimit] in
/-- Nodes that compute an operation are ordinary nodes. -/
theorem ordinary_of_operation {f : Math.Operation} (h : n.kind.operation? = some f) :
    n.kind ∉ [NodeKind.computeField, .previewOutput, .materialOutput] ∧ n.kind ≠ .conditional ∧
      n.kind.isRoot = false := by
  cases hk : n.kind <;> rw [hk] at h <;> first | exact ⟨by decide, by decide, rfl⟩ | cases h

omit [NameLimit] in
/-- Textures are no values. -/
theorem texture_isValue {dim : Int} (h1 : 1 ≤ dim) (h3 : dim ≤ 3) :
    (ValueType.texture1D.withSize dim).isValue = false := by
  have hcases : dim = 1 ∨ dim = 2 ∨ dim = 3 := by omega
  rcases hcases with rfl | rfl | rfl
  all_goals rfl

section Conditional

variable {arm : Nat → Drafting Unit} {c a b out : PortId} (hin : n.inputs = [c, a, b])
  (hc : (p.graph.port? c).map (·.arm) = some (-1)) (ha : (p.graph.port? a).map (·.arm) = some 0)
  (hb : (p.graph.port? b).map (·.arm) = some 1)
include hin hc ha hb

omit [NameLimit] in
/-- A conditional with a live arm takes its value. -/
theorem writeConditional_live {live : Int} {y : PortId} (hlive : p.labels.liveArm i = some live)
    (hcases : live = 0 ∨ live = 1) (hy : y = if live = 0 then a else b) :
    writeConditional p arm i n out = (do Drafting.bind n out (← operand p y)) := by
  rw [writeConditional, hin, arms_eq hc ha hb]
  simp only [hlive]
  rcases hcases with rfl | rfl
  all_goals
    subst hy
    rfl

omit [NameLimit] in
/-- Any other conditional chooses at run time. -/
theorem writeConditional_choice (hlive : p.labels.liveArm i = none) :
    writeConditional p arm i n out = writeChoice p arm i c a b out := by
  rw [writeConditional, hin, arms_eq hc ha hb]
  simp only [hlive]
  rfl

/-- **The code of a conditional.** -/
theorem writeConditional_spec (hp : p.Planned)
    (hs : d.Sound P) (haw : d.Awaits p Γ (i :: l)) (hl : p.Listing (i :: l))
    (hn : p.graph.nodes[i]? = some n) (hk : n.kind = .conditional) (hout : n.outputs = [out])
    (htc : p.typeOf c = .bool) (hta : p.typeOf a = p.typeOf out) (htb : p.typeOf b = p.typeOf out)
    (ht : (p.typeOf out).isNumeric = true)
    (harm : ∀ k : Nat, k < 2 → Handles I p (arm k) (p.members (some ⟨i, k⟩)))
    (h : Draws (writeConditional p arm i n out) d u d') : ∃ c vs Γ', d.Writes p Γ i c vs d' Γ' [] := by
  cases hlive : p.labels.liveArm i with
  | some live =>
    obtain ⟨hcases, -⟩ := hp.live_arm (I := I) d.fragment hn hin htc hlive
    rw [writeConditional_live hin hc ha hb hlive hcases rfl] at h
    exact writeLive_spec hp hs haw hl hn hk hin hout ha hb htc hta htb ht hlive rfl h
  | none =>
    rw [writeConditional_choice hin hc ha hb hlive] at h
    exact writeChoice_spec hp hs haw hl hn hk hin hout hc ha hb htc hta htb ht hlive
      (harm 0 (by decide)) (harm 1 (by decide)) h

end Conditional

/-- **The code of a node**, by what its kind demands of its ports. -/
theorem writeNode_spec {arm : Nat → Drafting Unit} (hp : p.Planned) (hsized : p.Sized)
    (hs : d.Sound P) (ha : d.Awaits p Γ (i :: l)) (hl : p.Listing (i :: l))
    (hn : p.graph.nodes[i]? = some n)
    (harm : n.kind = .conditional → ∀ k : Nat, k < 2 →
      Handles I p (arm k) (p.members (some ⟨i, k⟩)))
    (h : Draws (writeNode p arm i n) d u d') :
    ∃ c vs Γ' o, d.Writes p Γ i c vs d' Γ' o ∧ d.Shows p i n o := by
  have hi := hl.mem i List.mem_cons_self
  have hfit := hp.typed.fits hp.consistent hn
  have hf := ha.furnished
  obtain ⟨_, hn', hserves⟩ := ha.serves i hi
  rw [hn] at hn'
  cases hn'
  have hnew : ∀ out ∈ n.outputs, d.values.lookup out = none := fun out ho =>
    ha.fresh i List.mem_cons_self out (.self hn ho)
  have hfed : n.kind ≠ .conditional → n.kind.isRoot = false ∨ i = p.root →
      ∀ q ∈ n.inputs, d.Fed p Γ q := fun hk hr =>
    ha.fed_all hp hl hn (isForeignRoot_eq_false hn hr) hk
  -- a node that is no root shows nothing
  have hquiet : n.kind ∉ [NodeKind.computeField, .previewOutput, .materialOutput] →
      (∃ c vs Γ', d.Writes p Γ i c vs d' Γ' []) →
      ∃ c vs Γ' o, d.Writes p Γ i c vs d' Γ' o ∧ d.Shows p i n o := by
    rintro hk ⟨c, vs, Γ', w⟩
    exact ⟨c, vs, Γ', [], w, .nothing hk⟩
  cases hfit with
  | arithmetic hop hout hlen htypes hadm =>
    have hk := ordinary_of_operation hop
    simp only [writeNode, hop, hout] at h
    exact hquiet hk.1 (writeArithmetic_spec hp hs hn hop hout hlen htypes hadm
      (hfed hk.2.1 (.inl hk.2.2)) (hnew _ (by rw [hout]; simp)) h)
  | constant hk hparams hout ht hv =>
    simp only [writeNode, hk, NodeKind.operation?, hout, hparams] at h
    exact hquiet (by rw [hk]; decide) (writeConstant_spec hp hs hn hk hparams hout ht
      (hnew _ (by rw [hout]; simp)) h)
  | texture hk hparams hin hout h1 h3 ht =>
    simp only [writeNode, hk, NodeKind.operation?] at h
    obtain ⟨-, rfl⟩ := draws_pure.1 h
    refine hquiet (by rw [hk]; decide) ⟨_, [], Γ, .none hn ?_ (Draft.Quiet.refl _).emits⟩
    intro o ho
    rw [hout, List.mem_singleton] at ho
    rw [ho, ht]
    exact texture_isValue h1 h3
  | time hk hout ht =>
    simp only [writeNode, hk, NodeKind.operation?, hout] at h
    exact hquiet (by rw [hk]; decide) (writeTime_spec hp hs hf hn hk hout ht
      (hnew _ (by rw [hout]; simp)) h)
  | position hk hout ht =>
    simp only [writeNode, hk, NodeKind.operation?, hout] at h
    exact hquiet (by rw [hk]; decide) (writePosition_spec hp hs hf hserves hn hk hout ht
      (hnew _ (by rw [hout]; simp)) h)
  | normal hk hout ht =>
    simp only [writeNode, hk, NodeKind.operation?, hout] at h
    refine hquiet (by rw [hk]; decide) (defineInput_spec hp hs hf hn hout
      (hnew _ (by rw [hout]; simp)) (show _ = StageInput.normal.type from ht) (hserves.normal hk) (fun fuel => ?_) h)
    simp only [Graph.nodeValue, hk, Graph.operationOf]
    rfl
  | texCoord hk hout ht =>
    simp only [writeNode, hk, NodeKind.operation?, hout] at h
    refine hquiet (by rw [hk]; decide) (defineInput_spec hp hs hf hn hout
      (hnew _ (by rw [hout]; simp)) (show _ = StageInput.texCoord.type from ht)
      (hserves.texCoord hk) (fun fuel => ?_) h)
    simp only [Graph.nodeValue, hk, Graph.operationOf]
    rfl
  | length hk hin hout ht ht' =>
    simp only [writeNode, hk, NodeKind.operation?, hin, hout] at h
    exact hquiet (by rw [hk]; decide) (writeLength_spec hp hs hn hk hin hout ht ht'
      (hfed (by rw [hk]; decide) (.inl (by rw [hk]; rfl)) _ (by rw [hin]; simp))
      (hnew _ (by rw [hout]; simp)) h)
  | dot hk hin hout ha' hb ht =>
    simp only [writeNode, hk, NodeKind.operation?, hin, hout] at h
    exact hquiet (by rw [hk]; decide) (writeDot_spec hp hs hn hk hin hout ha' hb ht
      (hfed (by rw [hk]; decide) (.inl (by rw [hk]; rfl))) (hnew _ (by rw [hout]; simp)) h)
  | compare hk hparams hin hout ha' hb ht =>
    simp only [writeNode, hk, NodeKind.operation?, hin, hout] at h
    exact hquiet (by rw [hk]; decide) (writeCompare_spec hp hs hn hk hparams hin hout ha' hb ht
      (hfed (by rw [hk]; decide) (.inl (by rw [hk]; rfl))) (hnew _ (by rw [hout]; simp)) h)
  | conditional hk hin hout hc ha' hb htc hta htb ht =>
    simp only [writeNode, hk, NodeKind.operation?, hout] at h
    exact hquiet (by rw [hk]; decide) (writeConditional_spec hin hc ha' hb hp hs ha hl hn hk hout
      htc hta htb ht (harm hk) h)
  | swizzle hk hparams hks hin hout ha' hlt ht h1 h4 =>
    simp only [writeNode, hk, NodeKind.operation?, hin, hout] at h
    exact hquiet (by rw [hk]; decide) (writeSwizzle_spec hp hs hn hk hparams hks hin hout ha' hlt ht
      h1 h4 (hfed (by rw [hk]; decide) (.inl (by rw [hk]; rfl)) _ (by rw [hin]; simp))
      (hnew _ (by rw [hout]; simp)) h)
  | combine hk hout hvec hin htotal =>
    simp only [writeNode, hk, NodeKind.operation?, hout] at h
    exact hquiet (by rw [hk]; decide) (writeCombine_spec hp hs hn hk hout hvec hin htotal
      (hfed (by rw [hk]; decide) (.inl (by rw [hk]; rfl))) (hnew _ (by rw [hout]; simp)) h)
  | separate hk hin ha' hports =>
    simp only [writeNode, hk, NodeKind.operation?, hin] at h
    exact hquiet (by rw [hk]; decide) (writeSeparate_spec hp hs hn hk hin ha' hports
      (hfed (by rw [hk]; decide) (.inl (by rw [hk]; rfl)) _ (by rw [hin]; simp)) hnew h)
  | mathExpression hk hparams hout ht htypes =>
    simp only [writeNode, hk, NodeKind.operation?, hout] at h
    exact hquiet (by rw [hk]; decide) (writeExpression_spec hp hs hn hk hparams hout ht htypes
      (hfed (by rw [hk]; decide) (.inl (by rw [hk]; rfl))) (hnew _ (by rw [hout]; simp)) h)
  | sample hk hin hout htf hq hsize ht =>
    simp only [writeNode, hk, NodeKind.operation?, hin, hout] at h
    exact hquiet (by rw [hk]; decide) (writeSample_spec hp hs hf hserves hn hk hin hout hq hsize ht
      (hfed (by rw [hk]; decide) (.inl (by rw [hk]; rfl)) _ (by rw [hin]; simp))
      (hnew _ (by rw [hout]; simp)) h)
  | computeField hk hparams hin hout h1 h3 hv ht =>
    simp only [writeNode, hk, NodeKind.operation?, hin] at h
    have hout' : ∀ o ∈ n.outputs, (p.typeOf o).isValue = false := by
      intro o ho
      rw [hout, List.mem_singleton] at ho
      rw [ho, ht]
      exact texture_isValue h1 h3
    by_cases hroot : i = p.root
    · rw [if_pos hroot] at h
      obtain ⟨size, hsize⟩ := hsized n _ _ (hroot ▸ hn) hk hparams
      exact writeField_spec hp hs hf hserves hn hk hroot hin hparams hsize hout' hv
        (hfed (by rw [hk]; decide) (.inr hroot) _ (by rw [hin]; simp)) h
    · rw [if_neg hroot] at h
      obtain ⟨-, rfl⟩ := draws_pure.1 h
      refine ⟨_, [], Γ, [], .none hn hout' (Draft.Quiet.refl _).emits, .stored (fun h => hroot h.2) ?_⟩
      rw [Node.shown, hk]
      exact .nil
  | previewOutput hk hin hout ht =>
    have hroot := eq_root_of_outputNames hp hi hn (by rw [hk]; exact List.cons_ne_nil _ _)
    simp only [writeNode, hk, NodeKind.operation?, hin] at h
    exact writePreview_spec hp hs hf hserves hn hk hin hout ht
      (hfed (by rw [hk]; decide) (.inr hroot) _ (by rw [hin]; simp)) h
  | materialOutput hk hin hout hc hr hm htc htr htm =>
    have hroot := eq_root_of_outputNames hp hi hn (by rw [hk]; exact List.cons_ne_nil _ _)
    simp only [writeNode, hk, NodeKind.operation?] at h
    exact writeMaterial_spec hp hs hf hserves hn hk hin hout hc hr hm htc htr htm
      (hfed (by rw [hk]; decide) (.inr hroot)) h

/-! ### Lists of nodes -/

/-- **A list of nodes**, each written by a step. -/
theorem forM_handles {step : Nat → Drafting Unit} (hp : p.Planned)
    (hstep : ∀ (i : Nat) (l : List Nat) (d d' : Draft) (Γ : Context I) (P : List UInt32) (u : Unit),
      p.Listing (i :: l) → d.Sound P → d.Awaits p Γ (i :: l) → Draws (step i) d u d' →
      ∃ n c vs Γ' o, p.graph.nodes[i]? = some n ∧ d.Writes p Γ i c vs d' Γ' o ∧ d.Shows p i n o)
    (hl : p.Listing l) : Handles I p (l.forM step) l := by
  induction l with
  | nil =>
    intro d d' Γ P u _ _ h
    obtain ⟨-, rfl⟩ := draws_pure.1 h
    exact ⟨.done, [], Γ, [], (Draft.Quiet.refl _).emits, fun _ hi => absurd hi List.not_mem_nil,
      fun _ he => absurd he List.not_mem_nil, [], rfl, .nil⟩
  | cons i l ih =>
    intro d d' Γ P u hs ha h
    rw [List.forM_eq_forM, List.forM_cons] at h
    obtain ⟨_, d₁, h₁, h⟩ := draws_bind.1 h
    obtain ⟨n, c, vs, Γ₁, o, hn, w, hshows⟩ := hstep i l d d₁ Γ P _ hl hs ha h₁
    obtain ⟨k, vs₁, Γ', o₁, ws⟩ := ih hl.tail d₁ d' Γ₁ P _ (w.emits.sound P hs) (ha.next hp hl w) h
    exact ⟨_, _, _, _, .cons hp ha hl hn w hshows ws⟩

omit [NameLimit] in
/-- The lists of the arms of a conditional. -/
theorem armNodes_conditional (hp : p.Planned) (hi : i ∈ p.order)
    (hn : p.graph.nodes[i]? = some n) (hk : n.kind = .conditional) {k : Nat} (hlt : k < 2) :
    p.region.armNodes i k = p.members (some ⟨i, k⟩) := by
  refine hp.arms i hi ?_ k ?_
  · rw [Labels.isBranching, show p.labels.node? i = some n from hn, Option.map_some, hk]
    rfl
  · rwa [Labels.armCount_conditional (l := p.labels) hp.consistent hn hk]

omit [NameLimit] in
/-- The code of a node, with arms below it that are nested at most `depth` deep. -/
def writeAt (p : StagePlan) (depth i : Nat) : Drafting Unit := do
  let n ← demand p.graph.nodes[i]?
  writeNode p (fun arm => writeNodes p depth (p.region.armNodes i arm)) i n

omit [NameLimit] in
/-- The code of a node is that of its kind. -/
theorem draws_writeAt {depth : Nat} :
    Draws (writeAt p depth i) d u d' ↔ ∃ n, p.graph.nodes[i]? = some n ∧
      Draws (writeNode p (fun arm => writeNodes p depth (p.region.armNodes i arm)) i n) d u d' := by
  refine draws_bind.trans ⟨?_, ?_⟩
  · rintro ⟨n, d₁, h₁, h⟩
    obtain ⟨hn, rfl⟩ := draws_demand.1 h₁
    exact ⟨n, hn, h⟩
  · rintro ⟨n, hn, h⟩
    exact ⟨n, d, draws_demand.2 ⟨hn, rfl⟩, h⟩

/-- **The code of a node and of the arms below it.** -/
theorem writeAt_spec {depth : Nat} (hp : p.Planned) (hsized : p.Sized)
    (harms : ∀ l, p.Listing l → Handles I p (writeNodes p depth l) l) (hl : p.Listing (i :: l))
    (hs : d.Sound P) (ha : d.Awaits p Γ (i :: l)) (h : Draws (writeAt p depth i) d u d') :
    ∃ n c vs Γ' o, p.graph.nodes[i]? = some n ∧ d.Writes p Γ i c vs d' Γ' o ∧ d.Shows p i n o := by
  obtain ⟨n, hn, h⟩ := draws_writeAt.1 h
  have harm : n.kind = .conditional → ∀ k : Nat, k < 2 →
      Handles I p (writeNodes p depth (p.region.armNodes i k)) (p.members (some ⟨i, k⟩)) := by
    intro hk k hlt
    rw [armNodes_conditional hp (hl.mem i List.mem_cons_self) hn hk hlt]
    exact harms _ (.members hp _)
  obtain ⟨c, vs, Γ', o, w, hshows⟩ := writeNode_spec hp hsized hs ha hl hn harm h
  exact ⟨n, c, vs, Γ', o, hn, w, hshows⟩

/-- **Lists of nodes are written whole**, with the arms below them. -/
theorem writeNodes_handles (hp : p.Planned) (hsized : p.Sized) {depth : Nat} (hl : p.Listing l) :
    Handles I p (writeNodes p depth l) l := by
  induction depth generalizing l with
  | zero =>
    intro d d' Γ P u _ _ h
    cases h
  | succ depth ih =>
    exact forM_handles hp (fun _ _ _ _ _ _ _ hl hs ha h =>
      writeAt_spec hp hsized (fun _ => ih) hl hs ha h) hl

end Drafting

end NodeShader
