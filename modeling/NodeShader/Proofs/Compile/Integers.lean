import NodeShader.Proofs.Compile.Hashing
import NodeShader.Proofs.Stage.Knowing
import NodeShader.Proofs.Stage.Signed

/-!
# Folded integers are what the code would compute

Where arithmetic on integers is folded, a constant stands for the result of an instruction.  The operands
of that instruction are constants of the module too, or the zeros of open inputs (`Draft.Carries`), so the
two can be compared in one module (`Draft.Computes`).

* `Draft.Recalls.words`: the components that are kept of an integer port are signed words, if constant
  nodes hold such and the results that are kept are in range.
* `Draft.Recalls.computes`: then the constant of a folded node is what its instruction computes.
* `Graph.Built.compile_integers`: **so it is in every stage of a compilation.**

It takes both conditions.  Of a constant node that holds a fraction, the fraction is kept for folding and
is not emitted (`Graph.compile_halves`).
-/

namespace NodeShader

open Spirv

/-- The constant nodes of integer types hold whole numbers, each of which is a signed word. -/
def Graph.WholeConstants (g : Graph) : Prop :=
  ∀ n ∈ g.nodes.toList, ∀ values scalar, n.kind = .constant → n.params = .constant values scalar →
    (constantType values scalar).isInt = true → ∀ x ∈ values, ∃ w, HoldsWord x w

namespace Draft

/-- The components that are kept of an output port are in the range of signed words. -/
def InRange (d : Draft) (out : PortId) : Prop :=
  ∀ values, (out, values) ∈ d.known → ∀ x ∈ values, InWord x

/-- What flows into an input port, as it is emitted: a constant of the module, or the zero of an open
input. -/
def Carries (I : Interpretation) (d : Draft) (p : StagePlan) (q : PortId) (v : I.Value) : Prop :=
  match p.graph.producer? q with
  | none => v = I.null (p.typeOf q).shape
  | some out => d.Constant (I := I) p out v

/-- **A constant in place of an instruction**: the value of an output port is a constant of the module,
and it is what the instruction that is selected for its node computes from what flows into the inputs. -/
def Computes (I : Interpretation) (d : Draft) (p : StagePlan) (n : Node) (out : PortId) : Prop :=
  ∃ f s args, n.kind.operation? = some f ∧ f.select? (p.typeOf out) = some s ∧
    List.Forall₂ (d.Carries I p) n.inputs args ∧
    d.Constant p out (I.apply s.call.1 s.call.2 (p.typeOf out).shape args)

section Folded

variable {p : StagePlan} {d : Draft} {n : Node} {q out : PortId} {values : List Float} {t : ValueType}
  {f : Math.Operation} {operands : List (List Float)}

/-- What is folded of integers is in words if it is in range: its fraction is dropped. -/
theorem words_of_fold (ht : t.isInt = true) (h : foldComponents f t operands = some values)
    (hr : ∀ x ∈ values, InWord x) : ∀ x ∈ values, ∃ w, HoldsWord x w := by
  intro x hx
  rw [foldComponents] at h
  split at h
  · cases h
  · obtain ⟨k, -, hk⟩ := exists_of_mem_right (mapM_eq_some.1 h) hx
    obtain ⟨-, raw, -, rfl⟩ := foldComponent_spec ht hk
    obtain ⟨m, hm⟩ := (hr _ hx).whole
    exact ⟨_, .of_whole hm (hr _ hx)⟩

variable (hr : d.Recalls .signed p) (hp : p.Planned) (hwhole : p.graph.WholeConstants)
include hr hp hwhole

/-- **The components that are kept of an integer port are signed words.** -/
theorem Recalls.words (ht : (p.typeOf out).isInt = true) (he : (out, values) ∈ d.known)
    (hrange : d.InRange out) : ∀ x ∈ values, ∃ w, HoldsWord x w := by
  cases hr.learnt out values he with
  | @constant i n scalar hn hkind hparams hout =>
    refine hwhole n (Array.mem_toList_iff.2 (Array.mem_of_getElem? hn)) values scalar hkind hparams ?_
    -- the port has the type of its constant
    cases hp.typed.fits hp.consistent hn with
    | constant _ hparams' hout' heq =>
      rw [hparams] at hparams'
      rw [hout] at hout'
      cases hparams'
      cases hout'
      exact heq ▸ ht
    | arithmetic hop => rw [hkind] at hop; cases hop
    | _ hkind' => rw [hkind] at hkind'; cases hkind'
  | folded _ _ _ _ hfold => exact words_of_fold ht hfold (hrange values he)

/-- What is known to flow into an integer input are signed words, and it is carried as they are. -/
theorem Recalls.operand (ht : (p.typeOf q).isInt = true) (hk : d.Knows p q values)
    (hrange : ∀ out, p.graph.producer? q = some out → d.InRange out) :
    (∀ x ∈ values, ∃ w, HoldsWord x w) ∧
      d.Carries .signed p q (Interpretation.signed.numbers (p.typeOf q) values) := by
  rw [Knows] at hk
  rw [Carries]
  cases hq : p.graph.producer? q with
  | none =>
    simp only [hq] at hk ⊢
    subst hk
    exact ⟨fun x hx => ⟨0, List.eq_of_mem_replicate hx ▸ holdsWord_zero⟩, (null_signed ht).symm⟩
  | some out =>
    simp only [hq] at hk ⊢
    have htype := typeOf_producer hp hq
    refine ⟨hr.words hp hwhole (htype ▸ ht) hk (hrange out hq), ?_⟩
    rw [← htype]
    exact hr.emitted out values hk

omit hwhole in
/-- A port whose components are kept has them from its own node. -/
theorem Recalls.folded (hn : n ∈ p.graph.nodes.toList) (hop : n.kind.operation? = some f)
    (hout : n.outputs = [out]) (he : (out, values) ∈ d.known) :
    ∃ operands, List.Forall₂ (d.Knows p) n.inputs operands ∧
      foldComponents f (p.typeOf out) operands = some values := by
  obtain ⟨i, hi⟩ := List.getElem?_of_mem hn
  rw [Array.getElem?_toList] at hi
  have howner : ∀ {j : Nat} {m : Node}, p.graph.nodes[j]? = some m → m.outputs = [out] →
      p.graph.ownerPosition? out = some j := by
    intro j m hm hmout
    have hmem : out ∈ m.outputs := hmout ▸ List.mem_singleton_self out
    exact hp.consistent.ownerPosition?_of_mem hm (show out ∈ m.portsOf .output from hmem)
  -- no two nodes have one port
  have hsame : ∀ {j : Nat} {m : Node}, p.graph.nodes[j]? = some m → m.outputs = [out] → m = n := by
    intro j m hm hmout
    cases (howner hm hmout).symm.trans (howner hi hout)
    exact Option.some.inj (hm.symm.trans hi)
  cases hr.learnt out values he with
  | constant hm hkind _ hmout =>
    rw [← hsame hm hmout, hkind] at hop
    cases hop
  | folded hm hop' hmout hoperands hfold =>
    obtain rfl := hsame hm hmout
    cases hop.symm.trans hop'
    exact ⟨_, hoperands, hfold⟩

/-- **The constant of a folded node is what its instruction computes**, in two's complement. -/
theorem Recalls.computes (hn : n ∈ p.graph.nodes.toList) (hop : n.kind.operation? = some f)
    (hout : n.outputs = [out]) (ht : (p.typeOf out).isInt = true) (he : (out, values) ∈ d.known)
    (hrange : d.InRange out)
    (hranges : ∀ q ∈ n.inputs, ∀ o, p.graph.producer? q = some o → d.InRange o) :
    d.Computes .signed p n out := by
  obtain ⟨operands, hoperands, hfold⟩ := hr.folded hp hn hop hout he
  obtain ⟨i, hi⟩ := List.getElem?_of_mem hn
  rw [Array.getElem?_toList] at hi
  obtain ⟨hlen, htypes, hadmits⟩ := (hp.typed.fits hp.consistent hi).of_operation hop hout
  obtain ⟨s, hs⟩ := Option.isSome_iff_exists.1 (hadmits.integral ht)
  -- each operand is in words, and is carried as they are
  have hargs : List.Forall₂ (fun q vs => (∀ x ∈ vs, ∃ w, HoldsWord x w) ∧
      d.Carries .signed p q (Interpretation.signed.numbers (p.typeOf out) vs)) n.inputs operands := by
    refine forall₂_imp_mem hoperands fun q hq vs _ hk => ?_
    rw [← htypes q hq] at ht ⊢
    exact hr.operand hp hwhole ht hk (hranges q hq)
  refine ⟨f, s, operands.map (Interpretation.signed.numbers (p.typeOf out)), hop, ?_, ?_, ?_⟩
  · rw [Math.Operation.select?, if_pos ht, hs]
  · exact List.forall₂_map_right_iff.2 (hargs.imp fun _ _ h => h.2)
  · rw [← foldComponents_signed ht hs (hoperands.length_eq.symm.trans hlen) ?_ hfold (hrange values he)]
    · exact hr.emitted out values he
    · intro vs hvs
      obtain ⟨q, -, hwords, -⟩ := exists_of_mem_right hargs hvs
      exact hwords

end Folded

end Draft

namespace Graph

/-- **The draft of each stage of a compilation** recalls what is known. -/
theorem Built.compile_recalls {g : Graph} (hg : g.Built) {id : NodeId} {options : Options}
    {c : Compilation} (h : g.compile id options = .ok c) :
    ∀ s ∈ c.stages, ∃ p d, g.plan c.types options.foldConstants s.stage.root = .ok p ∧
      p.draftBody = .ok d ∧ s.stage.bodies.getLast? = some d.body ∧ p.Planned ∧ p.graph = g ∧
      ∀ I, d.Recalls I p := by
  intro s hs
  obtain ⟨htypes, hplans⟩ := compile_plans h
  obtain ⟨p, hplan, -, hbuilds⟩ := hplans s hs
  obtain ⟨t, ht, hbodies⟩ := hbuilds.bodies
  obtain ⟨hplanned, hlabels, -⟩ := plan_planned hg.consistent htypes hplan
  obtain ⟨N, hnames⟩ := g.exists_nameLimit
  have hgraph : p.graph = g := by rw [StagePlan.graph, hlabels]; rfl
  obtain ⟨d, hd, hbody⟩ := StagePlan.draftBody_of_generate ht
  exact ⟨p, d, hplan, hd, hbodies ▸ hbody, hplanned, hgraph,
    fun I => StagePlan.draftBody_recalls I hplanned (hgraph ▸ hnames) hd⟩

/-- **Integers are folded to what the code would compute.**  In every stage of a compilation that folds
arithmetic, the constant in place of an integer node is what the instruction that is selected for the node
computes in two's complement, from the constants and zeros that are emitted for its operands: as long as
the integer constants of the graph are whole, and what is kept for the node and its operands is in the
range of signed words. -/
theorem Built.compile_integers {g : Graph} (hg : g.Built) (hwhole : g.WholeConstants) {id : NodeId}
    {budget : Int} {c : Compilation} (h : g.compile id ⟨true, budget⟩ = .ok c) :
    ∀ s ∈ c.stages, ∃ p d, g.plan c.types true s.stage.root = .ok p ∧ p.draftBody = .ok d ∧
      s.stage.bodies.getLast? = some d.body ∧
      ∀ (n : Node) (f : Math.Operation) (out : PortId) (values : List Float), n ∈ g.nodes.toList →
        n.kind.operation? = some f → n.outputs = [out] → (p.typeOf out).isInt = true →
        (out, values) ∈ d.known → d.InRange out →
        (∀ q ∈ n.inputs, ∀ o, g.producer? q = some o → d.InRange o) → d.Computes .signed p n out := by
  intro s hs
  obtain ⟨p, d, hplan, hd, hbody, hplanned, hgraph, hrecalls⟩ := hg.compile_recalls h s hs
  refine ⟨p, d, hplan, hd, hbody, fun n f out values hn hop hout hint he hrange hranges => ?_⟩
  subst hgraph
  exact (hrecalls .signed).computes hplanned hwhole hn hop hout hint he hrange hranges

end Graph

/-! ### A sum -/

namespace IntegerExample

/-- A number is added to itself, and an output shows 1 if the sum is negative. -/
def graph (x : Float) : Graph :=
  .grown [.node (Uuid.ofBytes [1]) "" .constant (.constant [x] .int),
    .node (Uuid.ofBytes [2]) "" .add .none,
    .node (Uuid.ofBytes [3]) "" .compare (.compare .less),
    .node (Uuid.ofBytes [4]) "" .constant (.constant [1] .float),
    .node (Uuid.ofBytes [5]) "" .conditional .none,
    .node (Uuid.ofBytes [6]) "" .previewOutput .none,
    .edge 0 1, .edge 0 2, .edge 3 4, .edge 6 8, .edge 7 9, .edge 11 12]

def types : TypeAssignment :=
  #[.int, .int, .int, .int, .int, .int, .bool, .float, .bool, .float, .float, .float, .float]

def stage (x : Float) : StagePlan :=
  ⟨(graph x).stageLabels 5, types, [0, 1, 2, 3, 4, 5], ⟨[0, 1, 2, 4, 5], [(4, [[3], []])]⟩, true⟩

/-- The node of the sum. -/
def sum : Node := ⟨Uuid.ofBytes [2], 1, "", .add, .none, [1, 2], [3]⟩

/-- What planning comes out as for 2 and for 2.5: the second number is in an arm of the conditional. -/
theorem evaluated : ∀ x ∈ [(2 : Float), 2.5], (graph x).validate.toOption = some () ∧
    ((graph x).outputPosition (Uuid.ofBytes [6])).toOption = some 5 ∧
    (graph x).producer? 1 = some 0 ∧ (graph x).producer? 2 = some 0 ∧
    (graph x).typesWithin? 20 = some types ∧
    (graph x).outlineWithin? 20 5 = some ([], [0, 1, 2, 3, 4, 5]) ∧
    ((graph x).stageLabels 5).regionWithin? 20 [0, 1, 2, 3, 4, 5] =
      some ⟨[0, 1, 2, 4, 5], [(4, [[3], []])]⟩ := by
  decide +kernel

variable {x : Float}

theorem resolved (hx : x ∈ [(2 : Float), 2.5]) : ((graph x).resolveTypes 0).1 = .ok types := by
  obtain ⟨-, -, -, -, hwithin, -⟩ := evaluated x hx
  exact Graph.resolveTypes_of_within hwithin

theorem planned (hx : x ∈ [(2 : Float), 2.5]) : (graph x).plan types true 5 = .ok (stage x) := by
  obtain ⟨-, -, -, -, -, houtline, hregion⟩ := evaluated x hx
  have hconsistent : (graph x).Consistent := (Graph.Built.grown _).consistent
  have hplan := Graph.plan_of_within hconsistent (Graph.outline_of_within hconsistent houtline).2.2 types true
  rwa [Labels.region_of_within hregion] at hplan

/-- It compiles if its one stage can be counted. -/
theorem compiles (hx : x ∈ [(2 : Float), 2.5]) (hcounted : (graph x).ShortNames ∧ (stage x).Countable) :
    ∃ c s, (graph x).compile (Uuid.ofBytes [6]) ⟨true, 0⟩ = .ok c ∧ s ∈ c.stages ∧
      (graph x).plan c.types true s.stage.root = .ok (stage x) := by
  obtain ⟨hvalid, hroot, -, -, hwithin, houtline, hregion⟩ := evaluated x hx
  have hbuilt : (graph x).Built := Graph.Built.grown _
  obtain ⟨stats, hplan⟩ := Graph.planned_alone hbuilt.consistent hvalid hroot hwithin houtline true
  rw [Labels.region_of_within hregion] at hplan
  obtain ⟨c, hc, hroots⟩ := hbuilt.compile_isOk hcounted.1 hplan
    (List.forall_mem_singleton.2 hcounted.2)
  obtain ⟨s, hs, hroot⟩ : ∃ s ∈ c.stages, s.stage.root = 5 :=
    List.mem_map.1 (show 5 ∈ c.roots by rw [hroots]; exact List.mem_singleton_self 5)
  have htypes : c.types = types := Except.ok.inj ((Graph.compile_plans hc).1.symm.trans (resolved hx))
  exact ⟨c, s, hc, hs, by rw [htypes, hroot, planned hx]⟩

/-- What is generated for 2 and for 2.5. -/
theorem computed :
    (∀ x ∈ [(2 : Float), 2.5], (graph x).ShortNames ∧ (stage x).Countable) ∧
    ((stage 2).draftBody.toOption.all fun d => (d.known.lookup 3).isSome &&
      d.known.all fun e => e.2.all fun x => decide (InWord x)) = true ∧
    ((stage 2.5).draftBody.toOption.all fun d =>
      decide ((d.known.lookup 0).map (Interpretation.signed.numbers .int) = some [2]) &&
        decide ((d.known.lookup 3).map (Interpretation.signed.numbers .int) = some [5])) = true ∧
    ((stage 2).generate.toOption.map (·.bodies.length)) = some 2 ∧ InWord 2.5 ∧ Whole 2 2 := by
  refine ⟨?_, ?_, ?_, ?_, ?_, ?_⟩ <;> decide +kernel

end IntegerExample

open IntegerExample in
/-- With 2 for the number, the sum is the constant 4, as the instruction for it computes. -/
theorem Graph.compile_integers_sum : ∃ (c : Compilation) (s : CompiledStage) (d : Draft),
    (graph 2).compile (Uuid.ofBytes [6]) ⟨true, 0⟩ = .ok c ∧ s ∈ c.stages ∧
      s.stage.bodies.getLast? = some d.body ∧ (graph 2).nodes[1]? = some sum ∧ sum.kind = .add ∧
      d.Computes .signed (stage 2) sum 3 := by
  obtain ⟨hcounted, hknown, -, -, -, htwo⟩ := computed
  have hx : (2 : Float) ∈ [(2 : Float), 2.5] := List.mem_cons_self
  have hn : (graph 2).nodes[1]? = some sum := rfl
  have hparams : (graph 2).nodes.toList.map (·.params) =
      [.constant [2] .int, .none, .compare .less, .constant [1] .float, .none, .none] := rfl
  have hwhole : (graph 2).WholeConstants := by
    intro m hm values scalar _ hconstant hint x hx
    have hmem : m.params ∈ (graph 2).nodes.toList.map (·.params) := List.mem_map.2 ⟨m, hm, rfl⟩
    rw [hparams, hconstant] at hmem
    have hcases : values = [2] ∧ scalar = .int ∨ values = [1] ∧ scalar = .float := by simpa using hmem
    rcases hcases with ⟨rfl, rfl⟩ | ⟨rfl, rfl⟩
    · rw [List.mem_singleton.1 hx]
      exact ⟨2, htwo⟩
    · cases hint
  obtain ⟨c, s, hc, hs, hplan⟩ := compiles hx (hcounted 2 hx)
  obtain ⟨p, d, hplan', hd, hbody, hall⟩ := (Built.grown _).compile_integers hwhole hc s hs
  obtain rfl := Except.ok.inj (hplan.symm.trans hplan')
  rw [hd] at hknown
  obtain ⟨hsome, hin⟩ : (d.known.lookup 3).isSome = true ∧
      (d.known.all fun e => e.2.all fun x => decide (InWord x)) = true := Bool.and_eq_true_iff.1 hknown
  obtain ⟨values, hvalues⟩ := Option.isSome_iff_exists.1 hsome
  have hrange : ∀ o, d.InRange o := fun o vs he x hx =>
    of_decide_eq_true (List.all_eq_true.1 (List.all_eq_true.1 hin _ he) x hx)
  refine ⟨c, s, d, hc, hs, hbody, hn, rfl, hall sum _ 3 values ?_ rfl rfl rfl (lookup_mem hvalues)
    (hrange 3) fun _ _ o _ => hrange o⟩
  exact Array.mem_toList_iff.2 (Array.mem_of_getElem? hn)

open IntegerExample in
/-- **With 2.5 for the number, the sum is the constant 5**, and the instruction for it computes 4 from
what is emitted for its operands. -/
theorem Graph.compile_halves : InWord 2.5 ∧ ∃ (c : Compilation) (s : CompiledStage) (d : Draft),
    (graph 2.5).compile (Uuid.ofBytes [6]) ⟨true, 0⟩ = .ok c ∧ s ∈ c.stages ∧
      s.stage.bodies.getLast? = some d.body ∧ (graph 2.5).nodes[1]? = some sum ∧ sum.kind = .add ∧
      List.Forall₂ (d.Carries .signed (stage 2.5)) sum.inputs [[2], [2]] ∧
      Interpretation.signed.apply .iAdd [] (.int 32 true) [[2], [2]] = [4] ∧
      d.Constant (I := .signed) (stage 2.5) 3 [5] := by
  obtain ⟨hcounted, -, hknown, -, hword, -⟩ := computed
  have hx : (2.5 : Float) ∈ [(2 : Float), 2.5] := List.mem_cons_of_mem _ (List.mem_singleton_self _)
  have hn : (graph 2.5).nodes[1]? = some sum := rfl
  obtain ⟨-, -, ha, hb, -⟩ := evaluated 2.5 hx
  obtain ⟨c, s, hc, hs, hplan⟩ := compiles hx (hcounted 2.5 hx)
  obtain ⟨p, d, hplan', hd, hbody, -, -, hrecalls⟩ := (Built.grown _).compile_recalls hc s hs
  obtain rfl := Except.ok.inj (hplan.symm.trans hplan')
  rw [hd] at hknown
  obtain ⟨hnumber, hsum⟩ := Bool.and_eq_true_iff.1 hknown
  have hconstant : ∀ {out : PortId} {v : List Int32}, (stage 2.5).typeOf out = .int →
      (d.known.lookup out).map (Interpretation.signed.numbers .int) = some v →
      d.Constant (I := .signed) (stage 2.5) out v := by
    intro out v ht hv
    obtain ⟨values, hvalues, rfl⟩ := Option.map_eq_some_iff.1 hv
    rw [← ht]
    exact (hrecalls .signed).emitted out values (lookup_mem hvalues)
  have hcarries : ∀ q, (graph 2.5).producer? q = some 0 → d.Carries .signed (stage 2.5) q [2] := by
    intro q hq
    have hq' : (stage 2.5).graph.producer? q = some 0 := hq
    rw [Draft.Carries, hq']
    exact hconstant rfl (of_decide_eq_true hnumber)
  exact ⟨hword, c, s, d, hc, hs, hbody, hn, rfl, .cons (hcarries 1 ha) (.cons (hcarries 2 hb) .nil),
    by decide, hconstant rfl (of_decide_eq_true hsum)⟩

end NodeShader
