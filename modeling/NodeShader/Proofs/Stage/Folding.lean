import NodeShader.Proofs.Stage.Bodies
import NodeShader.Proofs.Stage.Lockstep

/-!
# Folding constants

Two plans that differ in whether arithmetic on constants is folded (`StagePlan.folding`) make the same
declarations, and their code goes the same way but for the nodes of arithmetic, which always have code
(`succeeds_writeArithmetic`).  So the code of a list of nodes can be written for one plan wherever it
can for the other (`writeNodes_parallel`), and so can the body of a stage (`draftBody_folding`).

The two runs are compared node by node, between drafts with one frame for which a list waits
(`Abreast`): the frame is kept by the code, so it is the same again for the rest of the list and for the
arms of a conditional (`Parallel`).
-/

namespace NodeShader

open Spirv

/-- A plan with arithmetic on constants folded, or not. -/
def StagePlan.folding (p : StagePlan) (fold : Bool) : StagePlan := { p with foldConstants := fold }

theorem StagePlan.Planned.folding {p : StagePlan} (hp : p.Planned) (fold : Bool) :
    (p.folding fold).Planned :=
  ⟨hp.consistent, hp.typed, hp.live, hp.nodup, hp.mem_order, hp.before, hp.shared, hp.arms⟩

theorem StagePlan.Listing.folding {p : StagePlan} {l : List Nat} (hl : p.Listing l) (fold : Bool) :
    (p.folding fold).Listing l := ⟨hl.sorted, hl.mem, hl.home⟩

/-- What a node needs comes from other nodes. -/
theorem StagePlan.Planned.clear {p : StagePlan} {i : Nat} {n : Node} {q : PortId} {port : Port}
    (hp : p.Planned) (hi : i ∈ p.order) (hn : p.graph.nodes[i]? = some n)
    (hforeign : p.labels.isForeignRoot i = false) (hq : q ∈ n.inputs)
    (hport : p.graph.port? q = some port) (hneeds : p.labels.needs i port.arm = true) :
    Drafting.Clear p (· ∈ n.outputs) q := by
  intro out hout ho
  obtain ⟨_, _, _, j, m, -, -, -, -, -, -, -, -, -, hm, hom, hj⟩ := hp.consistent.producer?_some hout
  have hf : ⟨j, port.arm⟩ ∈ p.labels.feeds i :=
    Labels.mem_feeds.2 ⟨n, q, port, hn, hforeign, hq, hj, hport, rfl, hneeds⟩
  have hlt := (hp.before i hi _ hf).2
  have hij := hp.consistent.ownerPosition?_of_mem hn (show out ∈ n.portsOf .output from ho)
  rw [hp.consistent.ownerPosition?_of_mem hm (show out ∈ m.portsOf .output from hom)] at hij
  cases hij
  exact Nat.lt_irrefl _ hlt

/-- What an ordinary node needs comes from other nodes. -/
theorem StagePlan.Planned.clear_all {p : StagePlan} {i : Nat} {n : Node} (hp : p.Planned)
    (hi : i ∈ p.order) (hn : p.graph.nodes[i]? = some n) (hk : n.kind ≠ .conditional)
    (hr : n.kind.isRoot = false ∨ i = p.root) : ∀ q ∈ n.inputs, Drafting.Clear p (· ∈ n.outputs) q := by
  intro q hq
  obtain ⟨port, hport, -⟩ := hp.consistent.input_port hn hq
  exact hp.clear hi hn (Drafting.isForeignRoot_eq_false hn hr) hq hport (Labels.needs_ordinary hn hk _)

namespace Drafting

variable {K K' : PortId → Prop} {p : StagePlan} {fold : Bool} {i : Nat} {n : Node} {q out : PortId}

/-! ### Arithmetic -/

theorem succeeds_arithmetic {f : Math.Operation} {t : ValueType} (h : f.Admits t) (i : Nat) (n : Node)
    (id : UInt32) (args : List UInt32) : Succeeds K K (arithmetic i n id f t args) := by
  refine succeeds_bind (succeeds_typeOf (isValue_of_admits h)) fun _ => ?_
  rcases select_instruction h with ⟨op, hop, -⟩ | ⟨k, hk, -⟩
  · rw [hop]
    exact succeeds_bind (succeeds_assemble _) fun _ => succeeds_credit i id
  · rw [hk]
    exact succeeds_get_bind fun _ => succeeds_bind (succeeds_assemble _) fun _ => succeeds_credit i id

/-- Asking what is known changes nothing. -/
theorem succeeds_folded? (p : StagePlan) (n : Node) (f : Math.Operation) (t : ValueType) :
    Succeeds K K (folded? p n f t) := by
  have hknown : ∀ q, Succeeds K K (knownOperand? p q) := by
    intro q
    unfold knownOperand?
    split
    · exact succeeds_pure _
    · exact succeeds_get_bind fun _ => succeeds_pure _
  refine succeeds_ite (fun _ => succeeds_pure _) fun _ =>
    succeeds_bind (succeeds_mapM fun q _ => hknown q) fun _ => ?_
  split
  · exact succeeds_pure _
  · exact succeeds_pure _

theorem succeeds_known (out : PortId) (vs : List Float) : Succeeds K K
    (modify fun d : Draft => { d with known := (out, vs) :: d.known }) :=
  succeeds_note (fun _ => rfl) fun _ => rfl

/-- **Arithmetic has code**, folded or not. -/
theorem succeeds_writeArithmetic {f : Math.Operation} (hclear : ∀ q ∈ n.inputs, Clear p (· = out) q)
    (htypes : ∀ q ∈ n.inputs, p.typeOf q = p.typeOf out) (h : f.Admits (p.typeOf out)) (i : Nat) :
    Succeeds (· = out) nowhere (writeArithmetic p i n f out) := by
  have hv := isValue_of_admits h
  refine succeeds_bind (succeeds_folded? p n f _) fun known => ?_
  split
  · exact succeeds_bind (succeeds_constant hv _) fun _ =>
      succeeds_bind (succeeds_bindTo (K := (· = out)) rfl nowhere_imp _) fun _ =>
        succeeds_known out _
  · refine succeeds_bind (succeeds_mapM fun q hq =>
      succeeds_operand (hclear q hq) (by rw [htypes q hq]; exact hv)) fun _ => ?_
    exact succeeds_bind (succeeds_resultId nowhere_imp) fun _ => succeeds_arithmetic h i n _ _

/-! ### Nodes -/

theorem lower_folding (p : StagePlan) (fold : Bool) (i : Nat) (n : Node) (t : ValueType)
    (e : Math.Expr) : lower (p.folding fold) i n t e = lower p i n t e := by
  induction e with
  | number v => rfl
  | input name => rfl
  | unary f x ihx => simp only [lower, ihx]
  | binary f x y ihx ihy => simp only [lower, ihx, ihy]
  | mix x y s ihx ihy ihs => simp only [lower, ihx, ihy, ihs]

theorem writeExpression_folding (p : StagePlan) (fold : Bool) (i : Nat) (n : Node) (out : PortId) :
    writeExpression (p.folding fold) i n out = writeExpression p i n out := by
  have hlower : lower (p.folding fold) i n = lower p i n :=
    funext fun t => funext fun e => lower_folding p fold i n t e
  unfold writeExpression
  rw [hlower]
  rfl

/-! ### Two runs -/

variable [NameLimit] {I : Interpretation} {d d' e e' : Draft} {Γ Γ' : Context I} {P P' : List UInt32}
  {l : List Nat} {u u' : Unit} {p' : StagePlan} {label merge label' merge' : UInt32}

/-- **Drafts abreast**: at one point of the runs for two plans, a list waits for both, and they have one
frame. -/
structure Abreast (p p' : StagePlan) (Γ Γ' : Context I) (P P' : List UInt32) (l : List Nat)
    (d d' : Draft) : Prop where
  sound : d.Sound P
  sound' : d'.Sound P'
  awaits : d.Awaits p Γ l
  awaits' : d'.Awaits p' Γ' l
  frame : d'.frame = d.frame

/-- **Steps that go in parallel**: each writes a list of nodes for its plan, and the second does wherever
the first does. -/
structure Parallel (I : Interpretation) (p p' : StagePlan) (step step' : Drafting Unit) (l : List Nat) :
    Prop where
  handles : Handles I p step l
  handles' : Handles I p' step' l
  echoes : ∀ (d d' e : Draft) (Γ Γ' : Context I) (P P' : List UInt32) (u : Unit),
    Abreast p p' Γ Γ' P P' l d d' → Draws step d u e → ∃ u' e', Draws step' d' u' e'

omit [NameLimit] in
/-- Drafts with one frame are twins. -/
theorem twin_of_frame (h : d'.frame = d.frame) : d.Twin nowhere d' :=
  ⟨Draft.memory_of_frame h, fun _ h => h.elim, fun _ h => h.elim⟩

/-- What both steps leave behind has one frame again. -/
theorem Parallel.twin {step step' : Drafting Unit} (hstep : Parallel I p p' step step' l)
    (A : Abreast p p' Γ Γ' P P' l d d') (h : Draws step d u e) (h' : Draws step' d' u' e') :
    e.Twin nowhere e' := by
  obtain ⟨_, _, _, _, w⟩ := hstep.handles d e Γ P u A.sound A.awaits h
  obtain ⟨_, _, _, _, w'⟩ := hstep.handles' d' e' Γ' P' u' A.sound' A.awaits' h'
  exact twin_of_frame (by rw [w'.emits.frame, A.frame, w.emits.frame])

/-- Before a node is written none of its output ports has a value. -/
theorem Abreast.twin (A : Abreast p (p.folding fold) Γ Γ' P P' (i :: l) d d')
    (hn : p.graph.nodes[i]? = some n) : d.Twin (· ∈ n.outputs) d' :=
  ⟨Draft.memory_of_frame A.frame, fun o ho => A.awaits.fresh i List.mem_cons_self o (.self hn ho),
    fun o ho => A.awaits'.fresh i List.mem_cons_self o (.self hn ho)⟩

/-- Blocks that are opened by both leave them abreast. -/
theorem Abreast.openBlock (A : Abreast p p' Γ Γ' (label :: P) (label' :: P') l d d')
    (h : Draws (openBlock label) d u e) (h' : Draws (Drafting.openBlock label') d' u' e') :
    Abreast p p' Γ Γ' P P' l e e' := by
  obtain ⟨g, hv, -, -, hs⟩ := openBlock_spec h
  obtain ⟨g', hv', -, -, hs'⟩ := openBlock_spec h'
  exact ⟨hs P A.sound, hs' P' A.sound', A.awaits.still g hv, A.awaits'.still g' hv',
    by rw [g'.frame, A.frame, g.frame]⟩

/-! ### Conditionals -/

omit [NameLimit] in
theorem succeeds_openBlock (label : UInt32) : Succeeds K K (openBlock label) :=
  succeeds_bind (succeeds_note (f := fun d => { d with label }) (fun _ => rfl) fun _ => rfl)
    fun _ => succeeds_assemble _

omit [NameLimit] in
theorem follows_openBlock (label label' : UInt32) :
    Follows K K (openBlock label) (openBlock label') :=
  (succeeds_openBlock label).follows (succeeds_openBlock label')

/-- **The arm of a conditional**, after the arm of another plan. -/
theorem writeArm_echoes {step step' : Drafting Unit} {xs : List UInt32}
    (hstep : Parallel I p p' step step' l) (hq : Follows nowhere nowhere (operand p q) (operand p' q))
    (A : Abreast p p' Γ Γ' (label :: P) (label' :: P') l d d')
    (h : Draws (writeArm p step label merge q) d xs e) :
    ∃ xs' e', Draws (writeArm p' step' label' merge' q) d' xs' e' ∧ e.Twin nowhere e' := by
  rw [writeArm] at h
  obtain ⟨_, d₁, h₁, h⟩ := draws_bind.1 h
  obtain ⟨_, d₁', h₁', -⟩ := follows_openBlock label label' (twin_of_frame A.frame) h₁
  have A₁ := A.openBlock h₁ h₁'
  obtain ⟨_, d₂, h₂, h⟩ := draws_bind.1 h
  obtain ⟨_, d₂', h₂'⟩ := hstep.echoes d₁ d₁' d₂ Γ Γ' P P' _ A₁ h₂
  obtain ⟨xs', e', h', ht⟩ := follows_bind hq (fun x x' => follows_get_bind fun a a' _ =>
    follows_bind (follows_assemble (Assemble.void .branch [merge]) (Assemble.void .branch [merge']))
      fun _ _ => follows_pure [x, a.label] [x', a'.label]) (hstep.twin A₁ h₂ h₂') h
  exact ⟨xs', e', draws_bind.2 ⟨_, d₁', h₁', draws_bind.2 ⟨_, d₂', h₂', h'⟩⟩, ht⟩

section Conditional

variable {arm arm' : Nat → Drafting Unit} {c a b : PortId} (hp : p.Planned) (hl : p.Listing (i :: l))
  (hn : p.graph.nodes[i]? = some n) (hk : n.kind = .conditional) (hin : n.inputs = [c, a, b])
include hp hl hn hk hin

/-- A conditional that chooses waits until its condition is there. -/
theorem awaits_openChoice {x : UInt32} {r : UInt32 × UInt32 × UInt32}
    (hc : (p.graph.port? c).map (·.arm) = some (-1)) (htc : p.typeOf c = .bool)
    (hlive : p.labels.liveArm i = none) (hs : d.Sound P) (haw : d.Awaits p Γ (i :: l))
    (h₁ : Draws (operand p c) d x d') (h₂ : Draws (assemble (openChoice x)) d' r e) :
    e.Sound (r.2.1 :: r.2.2 :: r.1 :: P) ∧ e.Awaits p Γ (i :: l) ∧ e.frame = d.frame := by
  obtain ⟨port, hport, hparm⟩ := Option.map_eq_some_iff.1 hc
  obtain ⟨q₁, -⟩ := operand_spec hp hs (haw.fed hp hl hn (isForeignRoot_conditional hn hk)
    (by rw [hin]; exact List.mem_cons_self) hport (by omega) (by rw [Labels.needs, hlive]))
    (by rw [htc]; rfl) h₁
  obtain ⟨g₂, hv₂, -, hs₂⟩ := openChoice_spec h₂
  have g := q₁.goes.trans g₂
  exact ⟨hs₂ P (q₁.sound P hs), haw.still g (hv₂.trans q₁.values), g.frame⟩

/-- Once its first arm is written a conditional waits with the second. -/
theorem awaits_writeArm {step : Drafting Unit} {xs : List UInt32}
    (ha : (p.graph.port? a).map (·.arm) = some 0) (hta : (p.typeOf a).isValue = true)
    (hlive : p.labels.liveArm i = none) (hstep : Handles I p step (p.members (some ⟨i, 0⟩)))
    (hs : d.Sound (label :: P)) (haw : d.Awaits p Γ (i :: l))
    (h : Draws (writeArm p step label merge a) d xs d') :
    d'.Sound P ∧ d'.Awaits p Γ (p.members (some ⟨i, 1⟩)) ∧ d'.frame = d.frame := by
  obtain ⟨_, _, _, _, -, w⟩ := writeArm_spec hp hstep (fun _ => members_arm_ne_root) hs
    (haw.arm hp hl 0) (fun _ => ready_or_mem_arm hp haw hl hn hk (by rw [hin]; simp) ha (by omega) hlive)
    hta h
  exact ⟨w.sound P hs, (awaits_second hp haw hl w).2, w.goes.frame⟩

variable (hc : (p.graph.port? c).map (·.arm) = some (-1))
  (ha : (p.graph.port? a).map (·.arm) = some 0) (htc : p.typeOf c = .bool)
  (hta : p.typeOf a = p.typeOf out) (ht : (p.typeOf out).isNumeric = true)
  (harm : ∀ k : Nat, k < 2 →
    Parallel I p (p.folding fold) (arm k) (arm' k) (p.members (some ⟨i, k⟩)))
  (A : Abreast p (p.folding fold) Γ Γ' P P' (i :: l) d d')
include hc ha htc hta ht harm A

/-- **A choice** can be written for the other plan. -/
theorem writeChoice_echoes (hlive : p.labels.liveArm i = none)
    (h : Draws (writeChoice p arm i c a b out) d u e) :
    ∃ u' e', Draws (writeChoice (p.folding fold) arm' i c a b out) d' u' e' := by
  have hp' := hp.folding fold
  have hl' := hl.folding fold
  have hvalue : (p.typeOf a).isValue = true := by
    rw [hta]
    exact ValueType.isValue_of_isNumeric ht
  have hoperand : ∀ q, Follows nowhere nowhere (operand p q) (operand (p.folding fold) q) := fun q =>
    follows_operand (p := p) fun _ _ h => h
  rw [writeChoice] at h
  obtain ⟨x, d₁, h₁, h⟩ := draws_bind.1 h
  obtain ⟨x', d₁', h₁', ht₁⟩ := hoperand c (twin_of_frame A.frame) h₁
  obtain ⟨r, d₂, h₂, h⟩ := draws_bind.1 h
  obtain ⟨r', d₂', h₂', -⟩ := follows_assemble (openChoice x) (openChoice x') ht₁ h₂
  obtain ⟨hs₂, haw₂, hf₂⟩ := awaits_openChoice hp hl hn hk hin hc htc hlive A.sound A.awaits h₁ h₂
  obtain ⟨hs₂', haw₂', hf₂'⟩ := awaits_openChoice hp' hl' hn hk hin hc htc hlive A.sound' A.awaits'
    h₁' h₂'
  have hframe₂ : d₂'.frame = d₂.frame := by rw [hf₂', A.frame, hf₂]
  -- the first arm waits, and once it is written the second does
  have harm₀ := harm 0 (by decide)
  have A₂ : Abreast p (p.folding fold) Γ Γ' _ _ (p.members (some ⟨i, 0⟩)) d₂ d₂' :=
    ⟨hs₂, hs₂', haw₂.arm hp hl 0, haw₂'.arm hp' hl' 0, hframe₂⟩
  obtain ⟨xs, d₃, h₃, h⟩ := draws_bind.1 h
  obtain ⟨xs', d₃', h₃', -⟩ := writeArm_echoes harm₀ (hoperand a) A₂ h₃
  obtain ⟨hs₃, haw₃, hf₃⟩ := awaits_writeArm hp hl hn hk hin ha hvalue hlive harm₀.handles hs₂ haw₂ h₃
  obtain ⟨hs₃', haw₃', hf₃'⟩ := awaits_writeArm hp' hl' hn hk hin ha hvalue hlive harm₀.handles' hs₂'
    haw₂' h₃'
  have A₃ : Abreast p (p.folding fold) Γ Γ' _ _ (p.members (some ⟨i, 1⟩)) d₃ d₃' :=
    ⟨hs₃, hs₃', haw₃, haw₃', by rw [hf₃', hframe₂, hf₃]⟩
  obtain ⟨ys, d₄, h₄, h⟩ := draws_bind.1 h
  obtain ⟨ys', d₄', h₄', ht₄⟩ := writeArm_echoes (harm 1 (by decide)) (hoperand b) A₃ h₄
  -- where the arms meet
  obtain ⟨u', e', h', -⟩ := follows_bind (follows_openBlock r.1 r'.1) (fun _ _ => follows_bind
    (follows_typeOf (p.typeOf out)) fun t t' => follows_define nowhere_imp i .phi .phi t t' (xs ++ ys)
      (xs' ++ ys')) ht₄ h
  exact ⟨u', e', draws_bind.2 ⟨x', d₁', h₁', draws_bind.2 ⟨r', d₂', h₂', draws_bind.2
    ⟨xs', d₃', h₃', draws_bind.2 ⟨ys', d₄', h₄', h'⟩⟩⟩⟩⟩

/-- **A conditional** can be written for the other plan. -/
theorem writeConditional_echoes (hb : (p.graph.port? b).map (·.arm) = some 1)
    (hout : n.outputs = [out]) (h : Draws (writeConditional p arm i n out) d u e) :
    ∃ u' e', Draws (writeConditional (p.folding fold) arm' i n out) d' u' e' := by
  cases hlive : p.labels.liveArm i with
  | none =>
    rw [writeConditional_choice hin hc ha hb hlive] at h
    rw [writeConditional_choice (p := p.folding fold) hin hc ha hb hlive]
    exact writeChoice_echoes hp hl hn hk hin hc ha htc hta ht harm A hlive h
  | some live =>
    obtain ⟨hcases, -⟩ := hp.live_arm (I := I) d.fragment hn hin htc hlive
    rw [writeConditional_live hin hc ha hb hlive hcases rfl] at h
    rw [writeConditional_live (p := p.folding fold) hin hc ha hb hlive hcases rfl]
    -- the arm that is taken is needed
    have hneeds : ∀ {q : PortId}, q ∈ n.inputs → (p.graph.port? q).map (·.arm) = some live →
        Clear p (· ∈ n.outputs) q := by
      intro q hq hport
      obtain ⟨port, hport, harm⟩ := Option.map_eq_some_iff.1 hport
      exact hp.clear (hl.mem i List.mem_cons_self) hn (isForeignRoot_conditional hn hk) hq hport
        (by rw [Labels.needs, hlive, harm]; simp)
    have hclear : Clear p (· ∈ n.outputs) (if live = 0 then a else b) := by
      rcases hcases with rfl | rfl
      · exact hneeds (by rw [hin]; simp) ha
      · exact hneeds (by rw [hin]; simp) hb
    have hmem : out ∈ n.outputs := by
      rw [hout]
      exact List.mem_singleton_self _
    obtain ⟨u', e', h', -⟩ := follows_bind (follows_operand hclear) (fun x x' =>
      follows_bindTo (n := n) hmem nowhere_imp x x') (A.twin hn) h
    exact ⟨u', e', h'⟩

end Conditional

/-! ### Nodes -/

/-- **A node** can be written for the other plan, after the node that the one plan wrote. -/
theorem writeNode_echoes {arm arm' : Nat → Drafting Unit} (hp : p.Planned) (hl : p.Listing (i :: l))
    (hn : p.graph.nodes[i]? = some n)
    (harm : n.kind = .conditional → ∀ k : Nat, k < 2 →
      Parallel I p (p.folding fold) (arm k) (arm' k) (p.members (some ⟨i, k⟩)))
    (A : Abreast p (p.folding fold) Γ Γ' P P' (i :: l) d d')
    (h : Draws (writeNode p arm i n) d u e) :
    ∃ u' e', Draws (writeNode (p.folding fold) arm' i n) d' u' e' := by
  have hi := hl.mem i List.mem_cons_self
  have hfit := hp.typed.fits hp.consistent hn
  have ht := A.twin hn
  -- steps that follow each other, for a node with one output port
  have hone : ∀ {out : PortId} {y : Drafting Unit} {x : Drafting Unit}, n.outputs = [out] →
      Draws x d u e → Follows (· = out) nowhere x y → ∃ u' e', Draws y d' u' e' := by
    intro out y x hout hx hfollows
    obtain ⟨u', e', hy, -⟩ := hfollows (ht.mono fun o ho => by
      rw [hout, List.mem_singleton]
      exact ho) hx
    exact ⟨u', e', hy⟩
  have hclear : ∀ {out : PortId}, n.outputs = [out] → n.kind ≠ .conditional →
      n.kind.isRoot = false ∨ i = p.root → ∀ q ∈ n.inputs, Clear p (· = out) q := by
    intro out hout hk hr q hq o ho heq
    refine hp.clear_all hi hn hk hr q hq o ho ?_
    show o ∈ n.outputs
    rw [hout, List.mem_singleton]
    exact heq
  cases hfit with
  | arithmetic hop hout hlen htypes hadm =>
    simp only [writeNode, hop, hout] at h ⊢
    obtain ⟨-, hk, hr⟩ := ordinary_of_operation hop
    obtain ⟨u', e', hy, -⟩ := succeeds_writeArithmetic (p := p.folding fold) (hclear hout hk (.inl hr))
      htypes hadm i d' (fun o ho => ht.right o (by rw [hout, List.mem_singleton]; exact ho))
    exact ⟨u', e', hy⟩
  | constant hk' hparams hout =>
    simp only [writeNode, hk', NodeKind.operation?, hout, hparams] at h ⊢
    exact hone hout h (follows_bind (follows_constant _ _ _) fun _ _ =>
      follows_bind (follows_bindTo (K := (· = _)) rfl nowhere_imp _ _) fun _ _ =>
        (succeeds_known _ _).follows (succeeds_known _ _))
  | texture hk' =>
    simp only [writeNode, hk', NodeKind.operation?] at h ⊢
    exact ⟨(), d', draws_pure.2 ⟨rfl, rfl⟩⟩
  | time hk' hout =>
    simp only [writeNode, hk', NodeKind.operation?, hout] at h ⊢
    exact hone hout h (follows_bind (follows_loadGlobal _) fun _ _ => follows_bind (follows_credit i _ _)
      fun _ _ => follows_bindTo (K := (· = _)) rfl nowhere_imp _ _)
  | position hk' hout =>
    simp only [writeNode, hk', NodeKind.operation?, hout] at h ⊢
    exact hone hout h (follows_isFragment_bind fun _ => follows_ite (follows_defineInput i _ _)
      (follows_bind (follows_texelCoordinate i 3) fun _ _ =>
        follows_bindTo (K := (· = _)) rfl nowhere_imp _ _))
  | normal hk' hout =>
    simp only [writeNode, hk', NodeKind.operation?, hout] at h ⊢
    exact hone hout h (follows_defineInput i _ _)
  | texCoord hk' hout =>
    simp only [writeNode, hk', NodeKind.operation?, hout] at h ⊢
    exact hone hout h (follows_defineInput i _ _)
  | length hk' hin hout =>
    simp only [writeNode, hk', NodeKind.operation?, hin, hout] at h ⊢
    have hc := hclear hout (by rw [hk']; decide) (.inl (by rw [hk']; rfl)) _ (by rw [hin]; exact List.mem_cons_self)
    exact hone hout h (follows_bind (follows_typeOf _) fun _ _ => follows_bind (follows_operand hc)
      fun _ _ => follows_get_bind fun _ _ _ => follows_define nowhere_imp i _ _ _ _ _ _)
  | dot hk' hin hout =>
    simp only [writeNode, hk', NodeKind.operation?, hin, hout] at h ⊢
    have hc := hclear hout (by rw [hk']; decide) (.inl (by rw [hk']; rfl))
    rw [hin] at hc
    exact hone hout h (follows_bind (follows_operand (hc _ (by simp))) fun _ _ => follows_bind
      (follows_operand (hc _ (by simp))) fun _ _ => follows_bind (follows_typeOf _) fun _ _ =>
        follows_define nowhere_imp i _ _ _ _ _ _)
  | compare hk' hparams hin hout =>
    simp only [writeNode, hk', NodeKind.operation?, hin, hout] at h ⊢
    exact hone hout h (follows_writeCompare p i n (hclear hout (by rw [hk']; decide) (.inl (by rw [hk']; rfl)))
      (by rw [hin]; simp) (by rw [hin]; simp))
  | conditional hk' hin hout hc hpa hpb htc hta htb hnum =>
    simp only [writeNode, hk', NodeKind.operation?, hout] at h ⊢
    exact writeConditional_echoes hp hl hn hk' hin hc hpa htc hta hnum (harm hk') A hpb hout h
  | swizzle hk' hparams hks hin hout =>
    simp only [writeNode, hk', NodeKind.operation?, hin, hout] at h ⊢
    exact hone hout h (follows_writeSwizzle p i n (hclear hout (by rw [hk']; decide) (.inl (by rw [hk']; rfl)))
      (by rw [hin]; simp))
  | combine hk' hout =>
    simp only [writeNode, hk', NodeKind.operation?, hout] at h ⊢
    have hc := hclear hout (by rw [hk']; decide) (.inl (by rw [hk']; rfl))
    exact hone hout h (follows_bind (follows_mapM fun q hq => follows_operand (hc q hq)) fun _ _ =>
      follows_bind (follows_typeOf _) fun _ _ => follows_define nowhere_imp i _ _ _ _ _ _)
  | separate hk' hin =>
    simp only [writeNode, hk', NodeKind.operation?, hin] at h ⊢
    have hc := hp.clear_all hi hn (by rw [hk']; decide) (.inl (by rw [hk']; rfl)) _ (by rw [hin]; exact List.mem_cons_self)
    obtain ⟨u', e', hy, -⟩ := follows_writeSeparate p i n hc (hp.consistent.nodup_ports hn .output) ht h
    exact ⟨u', e', hy⟩
  | mathExpression hk' hparams hout =>
    simp only [writeNode, hk', NodeKind.operation?, hout] at h ⊢
    rw [writeExpression_folding]
    exact hone hout h (follows_writeExpression p i n (hclear hout (by rw [hk']; decide) (.inl (by rw [hk']; rfl))))
  | sample hk' hin hout =>
    simp only [writeNode, hk', NodeKind.operation?, hin, hout] at h ⊢
    exact hone hout h (follows_writeSample p i n _
      (hclear hout (by rw [hk']; decide) (.inl (by rw [hk']; rfl)) _ (by rw [hin]; simp)))
  | computeField hk' hparams hin hout =>
    simp only [writeNode, hk', NodeKind.operation?, hin] at h ⊢
    by_cases hroot : i = p.root
    · rw [if_pos hroot] at h
      rw [if_pos (show i = (p.folding fold).root from hroot)]
      exact hone hout h ((follows_writeField p i
        (hclear hout (by rw [hk']; decide) (.inr hroot) _ (by rw [hin]; exact List.mem_cons_self))).mono nowhere_imp)
    · rw [if_neg (show ¬ i = (p.folding fold).root from hroot)]
      exact ⟨(), d', draws_pure.2 ⟨rfl, rfl⟩⟩
  | previewOutput hk' hin hout =>
    have hroot := eq_root_of_outputNames hp hi hn (by rw [hk']; exact List.cons_ne_nil _ _)
    simp only [writeNode, hk', NodeKind.operation?, hin] at h ⊢
    have hc := hp.clear_all hi hn (by rw [hk']; decide) (.inr hroot) _ (by rw [hin]; exact List.mem_cons_self)
    obtain ⟨u', e', hy, -⟩ := follows_bind (follows_operand hc) (fun _ _ => follows_bind
      (follows_toFloat4 i _ _ _) fun _ _ => follows_store _ _ _) ht h
    exact ⟨u', e', hy⟩
  | materialOutput hk' hin hout =>
    have hroot := eq_root_of_outputNames hp hi hn (by rw [hk']; exact List.cons_ne_nil _ _)
    simp only [writeNode, hk', NodeKind.operation?] at h ⊢
    obtain ⟨u', e', hy, -⟩ := follows_writeMaterial p i n (hp.clear_all hi hn (by rw [hk']; decide) (.inr hroot)) ht h
    exact ⟨u', e', hy⟩

/-! ### Lists of nodes -/

/-- The code of a node can be written with that of the arms below it. -/
theorem writeAt_echoes {depth : Nat} (hp : p.Planned)
    (harms : ∀ l, p.Listing l →
      Parallel I p (p.folding fold) (writeNodes p depth l) (writeNodes (p.folding fold) depth l) l)
    (hl : p.Listing (i :: l)) (A : Abreast p (p.folding fold) Γ Γ' P P' (i :: l) d d')
    (h : Draws (writeAt p depth i) d u e) :
    ∃ u' e', Draws (writeAt (p.folding fold) depth i) d' u' e' := by
  obtain ⟨n, hn, h⟩ := draws_writeAt.1 h
  have harm : n.kind = .conditional → ∀ k : Nat, k < 2 →
      Parallel I p (p.folding fold) (writeNodes p depth (p.region.armNodes i k))
        (writeNodes (p.folding fold) depth (p.region.armNodes i k)) (p.members (some ⟨i, k⟩)) := by
    intro hk k hlt
    rw [armNodes_conditional hp (hl.mem i List.mem_cons_self) hn hk hlt]
    exact harms _ (.members hp _)
  obtain ⟨u', e', h'⟩ := writeNode_echoes hp hl hn harm A h
  exact ⟨u', e', draws_writeAt.2 ⟨n, hn, h'⟩⟩

/-- **Lists of nodes** can be written for the other plan, by induction on how deep arms nest and for
each depth on the list. -/
theorem writeNodes_parallel (hp : p.Planned) (hsized : p.Sized) {depth : Nat} (hl : p.Listing l) :
    Parallel I p (p.folding fold) (writeNodes p depth l) (writeNodes (p.folding fold) depth l) l := by
  have hp' := hp.folding fold
  refine ⟨writeNodes_handles hp hsized hl, writeNodes_handles hp' hsized (hl.folding fold), ?_⟩
  induction depth generalizing l with
  | zero =>
    intro d d' e Γ Γ' P P' u _ h
    cases h
  | succ depth ih =>
    have harms : ∀ l, p.Listing l → Parallel I p (p.folding fold) (writeNodes p depth l)
        (writeNodes (p.folding fold) depth l) l := fun l hl =>
      ⟨writeNodes_handles hp hsized hl, writeNodes_handles hp' hsized (hl.folding fold), ih hl⟩
    show ∀ (d d' e : Draft) (Γ Γ' : Context I) (P P' : List UInt32) (u : Unit),
      Abreast p (p.folding fold) Γ Γ' P P' l d d' → Draws (l.forM (writeAt p depth)) d u e →
      ∃ u' e', Draws (l.forM (writeAt (p.folding fold) depth)) d' u' e'
    induction l with
    | nil => exact fun d d' e _ _ _ _ _ _ _ => ⟨(), d', draws_pure.2 ⟨rfl, rfl⟩⟩
    | cons i l ihl =>
      intro d d' e Γ Γ' P P' u A h
      rw [List.forM_eq_forM, List.forM_cons] at h ⊢
      obtain ⟨_, d₁, h₁, h⟩ := draws_bind.1 h
      obtain ⟨_, d₁', h₁'⟩ := writeAt_echoes hp harms hl A h₁
      -- what both runs leave behind has one frame, and the rest of the list waits for it
      obtain ⟨_, _, _, _, _, -, w, -⟩ := writeAt_spec hp hsized (fun l hl => (harms l hl).handles) hl
        A.sound A.awaits h₁
      obtain ⟨_, _, _, _, _, -, w', -⟩ := writeAt_spec hp' hsized
        (fun _ => writeNodes_handles hp' hsized) (hl.folding fold) A.sound' A.awaits' h₁'
      have A₁ : Abreast p (p.folding fold) _ _ P P' l d₁ d₁' :=
        ⟨w.emits.sound P A.sound, w'.emits.sound P' A.sound', A.awaits.next hp hl w,
          A.awaits'.next hp' (hl.folding fold) w', by rw [w'.emits.frame, A.frame, w.emits.frame]⟩
      obtain ⟨u', e', h'⟩ := ihl hl.tail d₁ d₁' e _ _ P P' _ A₁ h
      exact ⟨u', e', draws_bind.2 ⟨_, d₁', h₁', h'⟩⟩

/-! ### Bodies -/

omit [NameLimit] in
/-- The function of a stage can always be closed. -/
theorem succeeds_closing (mode : UInt32) (params : List UInt32) : Succeeds K K (closing mode params) := by
  refine succeeds_bind (succeeds_get_bind fun _ => ?_) fun _ => succeeds_get_bind fun _ =>
    succeeds_assemble _
  exact succeeds_assemble _

end Drafting

open Drafting in
/-- **The body of a stage** can be drafted for the other plan: the opening is the same, and what follows
goes the same way. -/
theorem StagePlan.draftBody_folding [NameLimit] {p : StagePlan} {d : Draft} (I : Interpretation)
    (hp : p.Planned) (hnames : p.graph.NamesFit) (fold : Bool) (h : p.draftBody = .ok d) :
    ∃ e, (p.folding fold).draftBody = .ok e := by
  obtain ⟨root, model, mode, params, u, hroot, he, hrun⟩ := root_of_draftBody h
  have hsized := sized_of_execution hroot he
  obtain ⟨o, d₁, ho, h₁, hclose⟩ := draws_stageBody.1 hrun
  have ho' : Draws (opening (p.folding fold)) (Draft.new model) () o := ho
  obtain ⟨_, _, opened⟩ := opening_spec hp hnames ho
  obtain ⟨_, _, opened'⟩ := opening_spec (hp.folding fold) hnames ho'
  have hl : p.Listing (p.members none) := .members hp none
  have A : Abreast (I := I) p (p.folding fold) [] [] [] [] (p.members none) o o :=
    ⟨opened.sound, opened.sound, awaits_shared opened.furnished opened.values opened.serves,
      awaits_shared opened'.furnished opened'.values opened'.serves, rfl⟩
  have hshared : Parallel I p (p.folding fold) (writeNodes p (p.region.arms.length + 1) _) _
    (p.members none) := writeNodes_parallel hp hsized hl
  rw [hp.shared] at h₁
  obtain ⟨_, d₁', h₁'⟩ := hshared.echoes o o d₁ [] [] [] [] () A h₁
  have hclosing := succeeds_closing (K := nowhere) mode params
  obtain ⟨u', e, hclose', -⟩ := hclosing.follows hclosing (hshared.twin A h₁ h₁') hclose
  rw [← hp.shared] at h₁'
  exact ⟨e, draws_draftBody.2 ⟨root, model, mode, params, u', rootNode_eq_ok.2 hroot, he,
    draws_stageBody.2 ⟨o, d₁', ho', h₁', hclose'⟩⟩⟩

end NodeShader
