import NodeShader.Proofs.Stage.Awaiting

/-!
# The code of conditionals

A conditional with a live arm takes the value of that arm.  Any other chooses between two blocks, each
with the code of an arm, and a phi where they meet takes the value of the arm that was gone through.

* `Drafting.Handles`: a step that writes a list of nodes whenever the list waits for it.
* `writeArm_spec`: the nodes of an arm in a block of their own.
* `writeLive_spec`: the value of the live arm.
* `writeChoice_spec`: both arms, and the choice between them.
-/

namespace NodeShader

open Spirv

variable [NameLimit] {I : Interpretation} {p : StagePlan} {d d₁ d' : Draft} {Γ Γ' : Context I}
  {P : List UInt32} {i : Nat} {l : List Nat} {n : Node} {q out : PortId} {x label merge : UInt32}
  {vs : List (PortId × UInt32)} {u : Unit}

/-- **A step that writes a list of nodes.** -/
structure Draft.WritesAll (d : Draft) (p : StagePlan) (Γ : Context I) (l : List Nat) (c : Code)
    (vs : List (PortId × UInt32)) (d' : Draft) (Γ' : Context I) (o : List (Output I.Value)) :
    Prop where
  emits : d.Emits Γ [] c vs d' Γ' o
  ready : ∀ i ∈ l, d'.Ready p Γ' i
  owned : ∀ e ∈ vs, ∃ i ∈ l, p.Owns i e.1
  shows : ∃ os : List (List (Output I.Value)), o = os.flatten ∧
    List.Forall₂ (fun i o => ∃ n, p.graph.nodes[i]? = some n ∧ d.Shows p i n o) l os

/-- A step that writes a list of nodes whenever the list waits for it. -/
def Drafting.Handles (I : Interpretation) (p : StagePlan) (step : Drafting Unit) (l : List Nat) :
    Prop :=
  ∀ (d d' : Draft) (Γ : Context I) (P : List UInt32) (u : Unit), d.Sound P → d.Awaits p Γ l →
    Drafting.Draws step d u d' → ∃ c vs Γ' o, d.WritesAll p Γ l c vs d' Γ' o

/-- **An arm that was written**: its code in a block of its own, which leads to where the arms
meet. -/
structure Draft.WritesArm (d : Draft) (p : StagePlan) (Γ : Context I) (l : List Nat)
    (label merge : UInt32) (q : PortId) (x : UInt32) (c : Code) (vs : List (PortId × UInt32))
    (d' : Draft) (Γ' : Context I) : Prop where
  goes : d.Goes d'
  code : d'.code = d.code ++ (labelOf label :: c.instructions ++ [goto merge])
  values : d'.values = vs ++ d.values
  owned : ∀ e ∈ vs, ∃ i ∈ l, p.Owns i e.1
  runs : Runs (d'.surroundings I) Γ c Γ' []
  flows : d'.Flows p Γ' q x
  sound : ∀ P, d.Sound (label :: P) → d'.Sound P

namespace Draft

omit [NameLimit] in
/-- Nodes other than the root leave nothing behind. -/
theorem Shows.eq_nil {o : List (Output I.Value)} (hp : p.Planned) (hi : i ∈ p.order)
    (hne : i ≠ p.root) (hn : p.graph.nodes[i]? = some n) (h : d.Shows p i n o) : o = [] := by
  cases h with
  | texel _ hroot => exact absurd hroot hne
  | stored _ hs =>
    have hnames := Drafting.namesAt_eq_nil hp hi hne
    rw [Drafting.namesAt, hn] at hnames
    replace hnames : n.kind.outputNames = [] := hnames
    have hnil : n.shown = [] := by
      unfold Node.shown
      split
      · rename_i hk _
        rw [hk] at hnames
        cases hnames
      · rename_i hk _
        rw [hk] at hnames
        cases hnames
      · rfl
    rw [hnil] at hs
    cases hs
    rfl

theorem WritesAll.nothing {c : Code} {o : List (Output I.Value)} (hp : p.Planned)
    (hl : ∀ i ∈ l, i ∈ p.order ∧ i ≠ p.root) (h : d.WritesAll p Γ l c vs d' Γ' o) : o = [] := by
  obtain ⟨os, rfl, hos⟩ := h.shows
  rw [List.flatten_eq_nil_iff]
  intro o ho
  obtain ⟨i, hi, n, hn, hshows⟩ := exists_of_mem_right hos ho
  exact hshows.eq_nil hp (hl i hi).1 (hl i hi).2 hn

end Draft

namespace Drafting

/-! ### Blocks -/

/-- Opening a block. -/
theorem openBlock_spec (h : Draws (openBlock label) d u d') :
    d.Goes d' ∧ d'.values = d.values ∧ d'.code = d.code ++ [labelOf label] ∧ d'.label = label ∧
      ∀ P, d.Sound (label :: P) → d'.Sound P := by
  rw [openBlock] at h
  obtain ⟨_, d₁, h₁, h⟩ := draws_bind.1 h
  rw [draws_modify] at h₁
  subst h₁
  rw [draws_assemble] at h
  obtain ⟨-, rfl⟩ := h
  exact ⟨⟨(Draft.frame_push rfl rfl).trans rfl, ModuleBuilder.push_sublist _ _ _⟩, rfl,
    ModuleBuilder.sectionOf_push_self _ _ _, rfl,
    fun P hP => ModuleBuilder.sound_pushResult hP rfl fun h => absurd rfl h⟩

/-- Ending a block, or adding any instruction without a result. -/
theorem void_spec {op : Opcode} {args : List UInt32}
    (hr : (⟨op, args⟩ : Instruction).result? = none)
    (h : Draws (assemble (Assemble.void op args)) d u d') :
    d.Goes d' ∧ d'.values = d.values ∧ d'.code = d.code ++ [⟨op, args⟩] ∧
      ∀ P, d.Sound P → d'.Sound P := by
  rw [draws_assemble] at h
  obtain ⟨-, rfl⟩ := h
  exact ⟨⟨Draft.frame_push rfl rfl, ModuleBuilder.push_sublist _ _ _⟩, rfl,
    ModuleBuilder.sectionOf_push_self _ _ _,
    fun P hP => ModuleBuilder.sound_push hP hr fun h => absurd rfl h⟩

/-- **The nodes of an arm**, in a block of their own. -/
theorem writeArm_spec {step : Drafting Unit} {xs : List UInt32} (hp : p.Planned)
    (hstep : Handles I p step l) (hl : ∀ i ∈ l, i ∈ p.order ∧ i ≠ p.root)
    (hs : d.Sound (label :: P)) (ha : d.Awaits p Γ l)
    (hq : ∀ j, p.graph.producerPosition? q = some j → j ∈ l ∨ d.Ready p Γ j)
    (hv : (p.typeOf q).isValue = true) (h : Draws (writeArm p step label merge q) d xs d') :
    ∃ x c vs Γ', xs = [x, c.lastLabel label] ∧ d.WritesArm p Γ l label merge q x c vs d' Γ' := by
  rw [writeArm] at h
  obtain ⟨_, d₁, h₁, h⟩ := draws_bind.1 h
  obtain ⟨g₁, hv₁, hc₁, hl₁, hs₁⟩ := openBlock_spec h₁
  have ha₁ := ha.still g₁ hv₁
  obtain ⟨_, d₂, h₂, h⟩ := draws_bind.1 h
  obtain ⟨c, vs, Γ', o, w⟩ := hstep d₁ d₂ Γ P _ (hs₁ P hs) ha₁ h₂
  have ho := w.nothing hp hl
  subst ho
  have hnew : ∀ e ∈ vs, d₁.values.lookup e.1 = none := by
    intro e he
    obtain ⟨i, hi, ho⟩ := w.owned e he
    exact ha₁.fresh i hi e.1 ho
  -- the value of the arm is computed before it or in it
  have hfed : d₂.Fed p Γ' q := by
    intro out hout hvalue
    obtain ⟨_, _, _, j, _, -, -, -, -, -, -, -, -, -, -, -, hj⟩ := hp.consistent.producer?_some hout
    have hready : d₂.Ready p Γ' j := by
      rcases hq j hj with hm | hr
      · exact w.ready j hm
      · have hr₁ : d₁.Ready p Γ j := hr.mono g₁ (List.Subset.refl _)
          (hv₁.trans (List.nil_append _).symm) (fun _ hm => by cases hm)
        exact hr₁.mono w.emits.goes w.emits.runs.subset w.emits.values hnew
    exact hready.fed hp hj out hout hvalue
  obtain ⟨x, d₃, h₃, h⟩ := draws_bind.1 h
  obtain ⟨q₃, hx⟩ := operand_spec hp (w.emits.sound P (hs₁ P hs)) hfed hv h₃
  rw [draws_get_bind] at h
  obtain ⟨_, d₄, h₄, h⟩ := draws_bind.1 h
  obtain ⟨g₄, hv₄, hc₄, hs₄⟩ := void_spec rfl h₄
  obtain ⟨rfl, rfl⟩ := draws_pure.1 h
  refine ⟨x, c, vs, Γ', ?_, ⟨?_, ?_, ?_, w.owned, ?_, hx.mono g₄ (List.Subset.refl _), ?_⟩⟩
  · rw [q₃.label, w.emits.label, hl₁]
  · exact ((g₁.trans w.emits.goes).trans q₃.goes).trans g₄
  · rw [hc₄, q₃.code, w.emits.code, hc₁]
    simp only [List.append_assoc, List.cons_append, List.nil_append]
    rfl
  · rw [hv₄, q₃.values, w.emits.values, hv₁]
  · exact w.emits.runs.mono (q₃.goes.trans g₄).le
  · exact fun Q hQ => hs₄ Q (q₃.sound Q (w.emits.sound Q (hs₁ Q hQ)))

/-- The end of a block in which a choice is made: the labels of where the arms meet, and of both
arms. -/
def openChoice (condition : UInt32) : Assemble (UInt32 × UInt32 × UInt32) := do
  let merge ← Assemble.allocId
  let label₀ ← Assemble.allocId
  let label₁ ← Assemble.allocId
  Assemble.void .selectionMerge [merge, 0]
  Assemble.void .branchConditional [condition, label₀, label₁]
  return (merge, label₀, label₁)

theorem openChoice_spec {condition : UInt32} {r : UInt32 × UInt32 × UInt32}
    (h : Draws (assemble (openChoice condition)) d r d') :
    d.Goes d' ∧ d'.values = d.values ∧
      d'.code = d.code ++ [⟨.selectionMerge, [r.1, 0]⟩,
        ⟨.branchConditional, [condition, r.2.1, r.2.2]⟩] ∧
      ∀ P, d.Sound P → d'.Sound (r.2.1 :: r.2.2 :: r.1 :: P) := by
  simp only [openChoice, assemble_bind] at h
  obtain ⟨merge, d₁, h₁, h⟩ := draws_bind.1 h
  obtain ⟨label₀, d₂, h₂, h⟩ := draws_bind.1 h
  obtain ⟨label₁, d₃, h₃, h⟩ := draws_bind.1 h
  have r₁ := allocId_spec h₁
  have r₂ := allocId_spec h₂
  have r₃ := allocId_spec h₃
  obtain ⟨_, d₄, h₄, h⟩ := draws_bind.1 h
  obtain ⟨g₄, hv₄, hc₄, hs₄⟩ := void_spec rfl h₄
  obtain ⟨_, d₅, h₅, h⟩ := draws_bind.1 h
  obtain ⟨g₅, hv₅, hc₅, hs₅⟩ := void_spec rfl h₅
  rw [assemble_pure] at h
  obtain ⟨rfl, rfl⟩ := draws_pure.1 h
  have hcode : d₃.code = d.code := by
    show d₃.builder.sectionOf _ = d.builder.sectionOf _
    rw [ModuleBuilder.sectionOf, r₃.entries, r₂.entries, r₁.entries]
    rfl
  refine ⟨(((r₁.goes.trans r₂.goes).trans r₃.goes).trans g₄).trans g₅, ?_, ?_, ?_⟩
  · rw [hv₅, hv₄, r₃.values, r₂.values, r₁.values]
    rfl
  · rw [hc₅, hc₄, hcode, List.append_assoc]
    rfl
  · intro P hP
    refine hs₅ _ (hs₄ _ ?_)
    refine (r₃.sound _ (r₂.sound _ (r₁.sound P hP))).perm ?_
    exact List.Perm.swap label₀ label₁ (merge :: P)

/-- The phi of an output port. -/
theorem definePhi_spec {t : UInt32} {args : List UInt32} (hnew : d.values.lookup out = none)
    (h : Draws (define i out .phi t args) d u d') :
    ∃ y, d.Goes d' ∧ d'.values = (out, y) :: d.values ∧ d'.label = d.label ∧
      d'.code = d.code ++ [⟨.phi, t :: y :: args⟩] ∧ ∀ P, d.Sound P → d'.Sound P := by
  rw [define] at h
  obtain ⟨y, d₁, h₁, h⟩ := draws_bind.1 h
  obtain ⟨_, d₂, h₂, h⟩ := draws_bind.1 h
  have r := resultId_fresh hnew h₁
  rw [credit, draws_modify] at h
  subst h
  have hd₂ : d₂ = { d₁ with
      builder := d₁.builder.push .functions ⟨.phi, t :: y :: args⟩ } := (draws_assemble.1 h₂).2
  have g₂ : d₁.Goes d₂ := by
    rw [hd₂]
    exact ⟨Draft.frame_push rfl rfl, ModuleBuilder.push_sublist _ _ _⟩
  have hcode : d₁.code = d.code := by
    show d₁.builder.sectionOf _ = d.builder.sectionOf _
    rw [ModuleBuilder.sectionOf, r.entries]
    rfl
  have g₃ := r.goes.trans g₂
  refine ⟨y, ⟨g₃.frame, g₃.entries⟩, ?_, ?_, ?_, fun P hP => ?_⟩
  · show d₂.values = _
    rw [hd₂]
    exact r.values
  · show d₂.label = _
    rw [hd₂]
    exact r.label
  · show d₂.code = _
    rw [hd₂, ← hcode]
    exact ModuleBuilder.sectionOf_push_self d₁.builder _ _
  · show d₂.Sound P
    rw [hd₂]
    exact ModuleBuilder.sound_pushResult (r.sound P hP) rfl fun h => absurd rfl h

/-! ### Conditionals -/

variable {c a b : PortId}

omit [NameLimit] in
/-- The arms of a conditional are its second and third input. -/
theorem arms_eq (hc : (p.graph.port? c).map (·.arm) = some (-1))
    (ha : (p.graph.port? a).map (·.arm) = some 0) (hb : (p.graph.port? b).map (·.arm) = some 1) :
    ([c, a, b].filter fun q => (p.graph.port? q).any fun port => 0 ≤ port.arm) = [a, b] := by
  obtain ⟨pc, hc, hca⟩ := Option.map_eq_some_iff.1 hc
  obtain ⟨pa, ha, haa⟩ := Option.map_eq_some_iff.1 ha
  obtain ⟨pb, hb, hba⟩ := Option.map_eq_some_iff.1 hb
  simp [hc, ha, hb, hca, haa, hba]

omit [NameLimit] in
theorem conditional_nodeValue {g : Graph} {τ : PortId → ValueType} {fragment : Bool}
    {input : PortId → Option I.Value} {v w : I.Value} (hk : n.kind = .conditional)
    (hin : n.inputs = [c, a, b]) (hc : input c = some v)
    (hw : (if I.truth v then input a else input b) = some w) :
    g.nodeValue I τ fragment input n out = some w := by
  simp only [Graph.nodeValue, hk, Graph.operationOf, hin, hc]
  exact hw

omit [NameLimit] in
/-- A conditional is no root. -/
theorem isForeignRoot_conditional (hn : p.graph.nodes[i]? = some n) (hk : n.kind = .conditional) :
    p.labels.isForeignRoot i = false := by
  rw [Labels.isForeignRoot, show p.labels.node? i = some n from hn]
  simp [hk, NodeKind.isRoot, NodeKind.stage]

/-- **A conditional with a live arm.** -/
theorem writeLive_spec {live : Int} {y : PortId} (hp : p.Planned) (hs : d.Sound P)
    (haw : d.Awaits p Γ (i :: l)) (hl : p.Listing (i :: l)) (hn : p.graph.nodes[i]? = some n)
    (hk : n.kind = .conditional) (hin : n.inputs = [c, a, b]) (hout : n.outputs = [out])
    (ha : (p.graph.port? a).map (·.arm) = some 0) (hb : (p.graph.port? b).map (·.arm) = some 1)
    (htc : p.typeOf c = .bool) (hta : p.typeOf a = p.typeOf out) (htb : p.typeOf b = p.typeOf out)
    (ht : (p.typeOf out).isNumeric = true) (hlive : p.labels.liveArm i = some live)
    (hy : y = if live = 0 then a else b)
    (h : Draws (do Drafting.bind n out (← operand p y)) d u d') :
    ∃ c vs Γ', d.Writes p Γ i c vs d' Γ' [] := by
  obtain ⟨hcases, hmeaning⟩ := hp.live_arm (I := I) d.fragment hn hin htc hlive
  have hmem := (hp.mem_order i).1 (hl.mem i List.mem_cons_self)
  -- the live arm is needed, and shared since the conditional is folded
  have harm : y ∈ n.inputs ∧ (p.graph.port? y).map (·.arm) = some live ∧
      p.typeOf y = p.typeOf out := by
    rcases hcases with rfl | rfl
    · rw [if_pos rfl] at hy
      subst hy
      exact ⟨by rw [hin]; simp, ha, hta⟩
    · rw [if_neg (by decide)] at hy
      subst hy
      exact ⟨by rw [hin]; simp, hb, htb⟩
  obtain ⟨hyin, hport, hty⟩ := harm
  obtain ⟨port, hport, hpa⟩ := Option.map_eq_some_iff.1 hport
  have hneeds : p.labels.needs i port.arm = true := by
    rw [Labels.needs, hlive, hpa]
    simp
  have hfed : d.Fed p Γ y := by
    refine haw.fed_of_home hp hl hn (isForeignRoot_conditional hn hk) hyin hport hneeds ?_
    intro j hf
    rcases Labels.home_arm hmem hf (by show 0 ≤ port.arm; omega) with hh | ⟨-, hnone⟩
    · exact .inl hh
    · rw [hlive] at hnone
      cases hnone
  obtain ⟨x, d₁, h₁, h⟩ := draws_bind.1 h
  obtain ⟨q₁, hx⟩ := operand_spec hp hs hfed
    (by rw [hty]; exact ValueType.isValue_of_isNumeric ht) h₁
  obtain ⟨w, hkx, hw⟩ := flows_value q₁ hx
  rw [hty] at hkx
  refine writes_bind hp hn hout (haw.fresh i List.mem_cons_self out
    (.self hn (by rw [hout]; exact List.mem_singleton_self _))) q₁.emits hkx (fun he => ?_) h
  obtain ⟨v, ⟨N, hN⟩, htruth⟩ := hmeaning he.2
  obtain ⟨M, hM⟩ := hw he
  refine ⟨max N M, fun fuel hfuel => conditional_nodeValue hk hin (hN fuel (by omega)) ?_⟩
  rw [← hM fuel (by omega), hy]
  by_cases h0 : live = 0
  · rw [if_pos (htruth.2 h0), if_pos h0]
  · rw [if_neg fun ht => h0 (htruth.1 ht), if_neg h0]

omit [NameLimit] in
/-- What feeds an arm is ready before the conditional is written, or is one of the nodes of the
arm. -/
theorem ready_or_mem_arm {arm : Int} (hp : p.Planned) (haw : d.Awaits p Γ (i :: l))
    (hl : p.Listing (i :: l)) (hn : p.graph.nodes[i]? = some n) (hk : n.kind = .conditional)
    (hq : q ∈ n.inputs) (hport : (p.graph.port? q).map (·.arm) = some arm) (h0 : 0 ≤ arm)
    (hlive : p.labels.liveArm i = none) {j : Nat} (hj : p.graph.producerPosition? q = some j) :
    j ∈ p.members (some ⟨i, arm⟩) ∨ d.Ready p Γ j := by
  obtain ⟨port, hp', rfl⟩ := Option.map_eq_some_iff.1 hport
  have hf : ⟨j, port.arm⟩ ∈ p.labels.feeds i := Labels.mem_feeds.2 ⟨n, q, port, hn,
    isForeignRoot_conditional hn hk, hq, hj, hp', rfl, by rw [Labels.needs, hlive]⟩
  have hi := hl.mem i List.mem_cons_self
  obtain ⟨hmem, hlt⟩ := hp.before i hi _ hf
  rcases Labels.home_arm ((hp.mem_order i).1 hi) hf h0 with hh | ⟨hh, -⟩
  · exact .inr (haw.ready_before hl hmem hlt (.inl hh))
  · exact .inl (StagePlan.Planned.mem_members.2 ⟨hmem, hh⟩)

omit [NameLimit] in
/-- The nodes of an arm are no roots. -/
theorem members_arm_ne_root {t : Tag} {j : Nat} (hj : j ∈ p.members (some t)) :
    j ∈ p.order ∧ j ≠ p.root := by
  obtain ⟨hmem, hh⟩ := StagePlan.Planned.mem_members.1 hj
  refine ⟨hmem, ?_⟩
  rintro rfl
  have hnone : p.home p.root = none := p.labels.home_root
  rw [hnone] at hh
  cases hh

/-- **After the first arm** of a conditional is written, the second waits. -/
theorem awaits_second {c : Code} (hp : p.Planned) (haw : d.Awaits p Γ (i :: l))
    (hl : p.Listing (i :: l))
    (w : d.WritesArm p Γ (p.members (some ⟨i, 0⟩)) label merge q x c vs d' Γ') :
    (∀ e ∈ vs, d.values.lookup e.1 = none) ∧ d'.Awaits p Γ (p.members (some ⟨i, 1⟩)) := by
  have hnew : ∀ e ∈ vs, d.values.lookup e.1 = none := by
    intro e he
    obtain ⟨j, hj, ho⟩ := w.owned e he
    exact haw.fresh i List.mem_cons_self e.1 (ho.arm (StagePlan.Planned.mem_members.1 hj).2)
  refine ⟨hnew, (haw.arm hp hl 1).mono w.goes (List.Subset.refl _) w.values hnew ?_⟩
  intro e he j hj
  obtain ⟨k, hk, ho⟩ := w.owned e he
  exact StagePlan.Owns.disjoint_arms hp (by decide) (StagePlan.Planned.mem_members.1 hk).2
    (StagePlan.Planned.mem_members.1 hj).2 ho

/-- A choice between two arms. -/
def writeChoice (p : StagePlan) (arm : Nat → Drafting Unit) (i : Nat) (test first second out : PortId) :
    Drafting Unit := do
  let condition ← operand p test
  let (merge, label₀, label₁) ← assemble (openChoice condition)
  let chosen ← writeArm p (arm 0) label₀ merge first
  let other ← writeArm p (arm 1) label₁ merge second
  openBlock merge
  let type ← typeOf (p.typeOf out)
  define i out .phi type (chosen ++ other)

/-- **A conditional that chooses at run time.** -/
theorem writeChoice_spec {arm : Nat → Drafting Unit} (hp : p.Planned) (hs : d.Sound P)
    (haw : d.Awaits p Γ (i :: l)) (hl : p.Listing (i :: l)) (hn : p.graph.nodes[i]? = some n)
    (hk : n.kind = .conditional) (hin : n.inputs = [c, a, b]) (hout : n.outputs = [out])
    (hc : (p.graph.port? c).map (·.arm) = some (-1)) (ha : (p.graph.port? a).map (·.arm) = some 0)
    (hb : (p.graph.port? b).map (·.arm) = some 1) (htc : p.typeOf c = .bool)
    (hta : p.typeOf a = p.typeOf out) (htb : p.typeOf b = p.typeOf out)
    (ht : (p.typeOf out).isNumeric = true) (hlive : p.labels.liveArm i = none)
    (h₀ : Handles I p (arm 0) (p.members (some ⟨i, 0⟩)))
    (h₁ : Handles I p (arm 1) (p.members (some ⟨i, 1⟩)))
    (h : Draws (writeChoice p arm i c a b out) d u d') :
    ∃ c vs Γ', d.Writes p Γ i c vs d' Γ' [] := by
  rw [writeChoice] at h
  have hvo := ValueType.isValue_of_isNumeric ht
  have hcin : c ∈ n.inputs := by rw [hin]; simp
  have hain : a ∈ n.inputs := by rw [hin]; simp
  have hbin : b ∈ n.inputs := by rw [hin]; simp
  have hneeds : ∀ arm, p.labels.needs i arm = true := fun arm => by rw [Labels.needs, hlive]
  -- the condition
  obtain ⟨condition, d₁, hd₁, h⟩ := draws_bind.1 h
  obtain ⟨pc, hpc, hpca⟩ := Option.map_eq_some_iff.1 hc
  obtain ⟨q₁, hcondition⟩ := operand_spec hp hs (haw.fed hp hl hn (isForeignRoot_conditional hn hk)
    hcin hpc (by omega) (hneeds _)) (by rw [htc]; rfl) hd₁
  obtain ⟨⟨merge, label₀, label₁⟩, d₂, hd₂, h⟩ := draws_bind.1 h
  obtain ⟨g₂, hv₂, hc₂, hs₂⟩ := openChoice_spec hd₂
  have hv₂ : d₂.values = d.values := hv₂.trans q₁.values
  have g₂₂ := g₂
  have g₂ := q₁.goes.trans g₂
  have hsound₂ := hs₂ P (q₁.sound P hs)
  have haw₂ := haw.still g₂ hv₂
  -- the arms
  obtain ⟨chosen, d₃, hd₃, h⟩ := draws_bind.1 h
  obtain ⟨x₀, c₀, vs₀, Γ₀, rfl, w₀⟩ := writeArm_spec hp h₀ (fun _ => members_arm_ne_root) hsound₂
    (haw₂.arm hp hl 0) (fun _ => ready_or_mem_arm hp haw₂ hl hn hk hain ha (by omega) hlive)
    (by rw [hta]; exact hvo) hd₃
  have howned₀ : ∀ e ∈ vs₀, p.Owns i e.1 := by
    intro e he
    obtain ⟨j, hj, ho⟩ := w₀.owned e he
    exact ho.arm (StagePlan.Planned.mem_members.1 hj).2
  obtain ⟨hnew₀, haw₃⟩ := awaits_second hp haw₂ hl w₀
  have hsound₃ := w₀.sound _ hsound₂
  obtain ⟨other, d₄, hd₄, h⟩ := draws_bind.1 h
  obtain ⟨x₁, c₁, vs₁, Γ₁, rfl, w₁⟩ := writeArm_spec hp h₁ (fun _ => members_arm_ne_root) hsound₃
    haw₃ (fun j hj => (ready_or_mem_arm hp haw₂ hl hn hk hbin hb (by omega) hlive hj).imp id
      fun hr => hr.mono w₀.goes (List.Subset.refl _) w₀.values hnew₀)
    (by rw [htb]; exact hvo) hd₄
  have howned₁ : ∀ e ∈ vs₁, p.Owns i e.1 := by
    intro e he
    obtain ⟨j, hj, ho⟩ := w₁.owned e he
    exact ho.arm (StagePlan.Planned.mem_members.1 hj).2
  have hsound₄ := w₁.sound _ hsound₃
  -- where the arms meet
  obtain ⟨_, d₅, hd₅, h⟩ := draws_bind.1 h
  obtain ⟨g₅, hv₅, hc₅, hl₅, hs₅⟩ := openBlock_spec hd₅
  obtain ⟨t, d₆, hd₆, h⟩ := draws_bind.1 h
  obtain ⟨-, q₆, htype⟩ := typeOf_spec (hs₅ P hsound₄) hd₆
  have hvalues₆ : d₆.values = vs₁ ++ (vs₀ ++ d.values) := by
    rw [q₆.values, hv₅, w₁.values, w₀.values, hv₂]
  have hother : ∀ vs' : List (PortId × UInt32), ∀ k : Int,
      (∀ e ∈ vs', ∃ j ∈ p.members (some ⟨i, k⟩), p.Owns j e.1) → vs'.lookup out = none := by
    intro vs' k hvs'
    rw [List.lookup_eq_none_iff]
    intro e he
    obtain ⟨j, hj, ho⟩ := hvs' e he
    have hnot := StagePlan.Owns.not_mem_outputs hp hn (StagePlan.Planned.mem_members.1 hj).2 ho
    rw [bne_iff_ne]
    rintro rfl
    exact hnot (by rw [hout]; exact List.mem_singleton_self _)
  have hoin : out ∈ n.outputs := by rw [hout]; exact List.mem_singleton_self _
  have hnew : d₆.values.lookup out = none := by
    rw [hvalues₆, List.lookup_append, hother vs₁ 1 w₁.owned, Option.none_or, List.lookup_append,
      hother vs₀ 0 w₀.owned, Option.none_or]
    exact haw.fresh i List.mem_cons_self out (.self hn hoin)
  obtain ⟨y, g₇, hv₇, hl₇, hc₇, hs₇⟩ := definePhi_spec hnew h
  have g₁ := g₅.trans (q₆.goes.trans g₇)
  have g₀ := w₁.goes.trans g₁
  have g := g₂.trans (w₀.goes.trans g₀)
  obtain ⟨test, hktest, htest⟩ := hcondition
  obtain ⟨v, hkv, hvalue⟩ := w₀.flows
  obtain ⟨w, hkw, hwalue⟩ := w₁.flows
  rw [htc] at hktest
  rw [hta] at hkv
  rw [htb] at hkw
  have e : d.Emits Γ [] (.select ⟨condition, merge, label₀, label₁, t, y, x₀, x₁⟩ c₀ c₁ .done)
      ((out, y) :: (vs₁ ++ vs₀)) d'
      ((y, (p.typeOf out).shape, .value (if I.truth test then v else w)) :: Γ) [] := by
    refine ⟨g.frame, g.entries, ?_, ?_, ?_, ?_, fun Q hQ => ?_⟩
    · rw [hc₇, q₆.code, hc₅, w₁.code, w₀.code, hc₂, q₁.code]
      simp only [Code.instructions, List.append_assoc, List.cons_append, List.nil_append]
      rfl
    · rw [hl₇, q₆.label, hl₅]
      rfl
    · rw [hv₇, hvalues₆, List.cons_append, List.append_assoc]
    · have g₁₂ : (d₁.surroundings I).Le (d'.surroundings I) := (g₂₂.trans (w₀.goes.trans g₀)).le
      exact .select (hktest.mono g₁₂) (w₀.runs.mono g₀.le) (w₁.runs.mono g₁.le)
        (htype.mono g₇.decls) (ValueType.shape_component_isScalar hvo) (hkv.mono g₀.le)
        (hkw.mono g₁.le) .done
    · exact hs₇ _ (q₆.sound _ (hs₅ _ (w₁.sound _ (w₀.sound _ (hs₂ Q (q₁.sound Q hQ))))))
  have hgives : d'.Gives p ((y, (p.typeOf out).shape,
      .value (if I.truth test then v else w)) :: Γ) out y := by
    refine .of_node hp hn hoin (.inl List.mem_cons_self) fun he => ?_
    obtain ⟨N, hN⟩ := htest he
    obtain ⟨M, hM⟩ := hvalue he
    obtain ⟨K, hK⟩ := hwalue he
    refine ⟨max N (max M K), fun fuel hfuel => ?_⟩
    have hf₁ : d'.fragment = d₁.fragment := (g₂₂.trans (w₀.goes.trans g₀)).fragment
    refine conditional_nodeValue hk hin (by rw [hf₁]; exact hN fuel (by omega)) ?_
    cases htruth : I.truth test with
    | true =>
      rw [if_pos rfl, if_pos rfl, g₀.fragment]
      exact hM fuel (by omega)
    | false =>
      rw [if_neg Bool.false_ne_true, if_neg Bool.false_ne_true, g₁.fragment]
      exact hK fuel (by omega)
  refine ⟨_, _, _, e, ?_, ?_⟩
  · intro m hm out' ho' _ _ _ _
    rw [hn] at hm
    cases hm
    rw [hout, List.mem_singleton] at ho'
    subst ho'
    refine ⟨y, ?_, hgives⟩
    rw [e.values]
    exact List.lookup_cons_self
  · intro e' he'
    rcases List.mem_cons.1 he' with rfl | he'
    · exact .self hn hoin
    · rcases List.mem_append.1 he' with he' | he'
      · exact howned₁ e' he'
      · exact howned₀ e' he'

end Drafting

end NodeShader
