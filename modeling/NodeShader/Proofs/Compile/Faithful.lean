import NodeShader.Proofs.Compile.CrossCompiling
import NodeShader.Proofs.Spirv.Machine
import NodeShader.Proofs.Stage.Conditions

/-!
# Stages compute what the graph means

The module of a stage is run on its own, with nothing of the graph but the contents of its resources
(`Body.machine`), and the graph is evaluated on its own, from the inputs of a root backwards.  Both
give the same: `Graph.Answers` says what the run of the stage of a root is to leave behind.

* `Draft.Holds.execute`: the body of a stage runs to its end and leaves behind what its nodes show.
* `Draft.Holds.answers`: only the root shows anything, and it shows what the graph means.
* `Graph.Built.compile_faithful`: **every stage of a compilation computes what the graph means**, under
  any interpretation of instructions and inputs.
-/

namespace NodeShader

open Spirv

/-- A machine for instructions of a body, whose resources hold what they are given. -/
def Body.machine (b : Body) (I : Interpretation) (code : List Instruction) : Machine I where
  code := code
  content v path := (b.resources.find? (·.variable_ == v)).bind (·.content? I path)

/-- The type of a port in a compilation. -/
def Compilation.typeOf (c : Compilation) (port : PortId) : ValueType :=
  (Array.at? c.types port).getD .invalid

/-- An output variable of a body that stores what is shown under its name: the value that flows into
an input of the graph. -/
def Body.Stores (b : Body) (I : Interpretation) (g : Graph) (τ : PortId → ValueType)
    (e : String × PortId) (o : Output I.Value) : Prop :=
  ∃ r ∈ b.resources, r.kind = .stageOutput ∧ r.name = e.1 ∧
    ∃ a, g.Supplies τ true e.2 a ∧ o = .stored r.variable_ (I.shown e.1 (τ e.2) a)

/-- **What the run of the stage of a root is to leave behind**, by the meaning of the graph.  An output
of the graph stores each input it shows in the variable of its name, and has no other output
variables; a field writes what flows into it at the texel of the invocation. -/
inductive Graph.Answers (g : Graph) (I : Interpretation) (τ : PortId → ValueType) (root : Nat)
    (b : Body) : List (Output I.Value) → Prop
  | shown {n : Node} {o : List (Output I.Value)} : g.nodes[root]? = some n → n.kind.stage = .render →
      List.Forall₂ (b.Stores I g τ) n.shown o →
      (∀ r ∈ b.resources, r.kind = .stageOutput → r.name ∈ n.shown.map (·.1)) → Answers g I τ root b o
  | filled {n : Node} {q : PortId} {dim resolution : Int} {a : I.Value} : g.nodes[root]? = some n →
      n.kind = .computeField → n.inputs = [q] → n.params = .field dim resolution →
      g.Supplies τ false q a →
      Answers g I τ root b [.texel (I.image root) (I.texelPlace dim) (I.colour (τ q) a)]

/-- Only one element of a list adds to what is laid end to end. -/
theorem exists_flatten_eq {α β : Type} {R : α → List β → Prop} {l : List α} {os : List (List β)}
    {a : α} (hl : l.Nodup) (ha : a ∈ l) (h : List.Forall₂ R l os)
    (hother : ∀ b ∈ l, b ≠ a → ∀ o, R b o → o = []) : ∃ o, R a o ∧ os.flatten = o := by
  induction h with
  | nil => cases ha
  | @cons b o l os hR hrest ih =>
    rw [List.nodup_cons] at hl
    rw [List.flatten_cons]
    rcases List.mem_cons.1 ha with rfl | ha
    · have hnone : os.flatten = [] := by
        rw [List.flatten_eq_nil_iff]
        intro o' ho'
        obtain ⟨c, hc, hRc⟩ := exists_of_mem_right hrest ho'
        exact hother c (List.mem_cons_of_mem _ hc) (fun hca => hl.1 (hca ▸ hc)) o' hRc
      exact ⟨o, hR, by rw [hnone, List.append_nil]⟩
    · have hnone := hother b List.mem_cons_self (fun hba => hl.1 (hba ▸ ha)) o hR
      obtain ⟨o', hR', ho'⟩ := ih hl.2 ha fun c hc => hother c (List.mem_cons_of_mem _ hc)
      exact ⟨o', hR', by rw [hnone, ho', List.nil_append]⟩

section Held

variable [NameLimit] {I : Interpretation} {p : StagePlan} {d : Draft} {void type entry mode : UInt32}
  {c : Code} {Γ : Context I} {o : List (Output I.Value)} {params : List UInt32} {root : Node}

/-- The identifiers of a body are told apart, if there are few enough. -/
theorem Draft.Holds.nodup_results (h : d.Holds p I void type entry c Γ o)
    (hfew : d.builder.nextId ≤ 4294967296) : d.builder.results.Nodup := by
  have hperm := h.sound.alloc
  rw [List.append_nil] at hperm
  exact hperm.nodup_iff.2 (ModuleBuilder.idsBelow_nodup hfew)

/-- The number of identifiers of a body. -/
theorem Draft.Holds.length_results (h : d.Holds p I void type entry c Γ o) (mode : UInt32)
    (params : List UInt32) :
    ((d.declareEntry mode params).builder.instructions.filterMap (·.result?)).length + 1 =
      d.builder.nextId := by
  have hperm := h.sound.alloc.length_eq
  have hstart := h.sound.start
  rw [(ModuleBuilder.results_perm _).length_eq, Draft.declareEntry_results]
  rw [List.append_nil, idsBelow, List.length_map, List.length_range'] at hperm
  omega

/-- The resources of a body are told apart by their variables. -/
theorem Draft.Holds.nodup_variables (h : d.Holds p I void type entry c Γ o)
    (hfew : d.builder.nextId ≤ 4294967296) : (d.resources.map (·.variable_)).Nodup :=
  (h.nodup_results hfew).sublist h.furnished.registered.distinct

/-- **The body of a stage runs to its end** and leaves behind what its code does. -/
theorem Draft.Holds.execute (h : d.Holds p I void type entry c Γ o)
    (hfew : d.builder.nextId ≤ 4294967296) :
    Settles ((d.declareEntry mode params).body.machine I
      (d.declareEntry mode params).builder.instructions).execute o := by
  have hsub := d.declareEntry_sublist mode params
  have hglobals : ∀ e : Section, e ≠ .functions →
      d.builder.sectionOf e ⊆ (d.declareEntry mode params).builder.globals := fun e he _ hi =>
    ModuleBuilder.sectionOf_subset_globals _ he (ModuleBuilder.sectionOf_subset hsub e hi)
  have hcode : (d.declareEntry mode params).builder.instructions =
      (d.declareEntry mode params).builder.globals ++ functionOf d.main void type entry c := by
    rw [ModuleBuilder.instructions_eq]
    exact congrArg _ ((Draft.declareEntry_code d mode params).trans h.code)
  have hserves : ((d.declareEntry mode params).body.machine I
      (d.declareEntry mode params).builder.instructions).Serves (d.surroundings I)
      (d.declareEntry mode params).builder.globals := by
    refine ⟨?_, ?_, hglobals .types (by decide), hglobals .imports (by decide)
      (ModuleBuilder.mem_sectionOf.2 h.furnished.registered.extended), ?_⟩
    · show ((d.declareEntry mode params).builder.instructions.filterMap (·.result?)).Nodup
      rw [(ModuleBuilder.results_perm _).nodup_iff, Draft.declareEntry_results]
      exact h.nodup_results hfew
    · show _ ⊆ (d.declareEntry mode params).builder.instructions
      rw [hcode]
      exact List.subset_append_left _ _
    · rintro v path a ⟨r, hr, rfl, ha⟩
      show (d.resources.find? (·.variable_ == r.variable_)).bind (·.content? I path) = some a
      rw [find?_key (h.nodup_variables hfew) hr]
      exact ha
  -- the entry point is the only instruction of its kind
  refine h.runs.execute_functionOf (e := ⟨.entryPoint,
    d.model.code :: d.main :: nameWords (Text.bytes "main") ++ d.interface⟩) hserves hcode ?_ rfl rfl ?_
  · refine ModuleBuilder.mem_globals.2 ⟨.entryPoints, by decide, ?_⟩
    rw [Draft.declareEntry_entries]
    simp
  · intro i hi hop
    obtain ⟨e, he, hi⟩ := ModuleBuilder.mem_globals.1 hi
    rw [Draft.declareEntry_entries, List.mem_append] at hi
    rcases hi with hi | hi
    · cases h.sound.forms e i hi he <;> cases hop
    · simp only [List.mem_cons, List.not_mem_nil, or_false, Prod.mk.injEq] at hi
      rcases hi with ⟨-, rfl⟩ | ⟨-, rfl⟩
      · rfl
      · cases hop

/-! ### What is left behind -/

omit [NameLimit] in
/-- A node that declares no outputs shows nothing. -/
theorem Node.shown_eq_nil {n : Node} (h : n.kind.outputNames = []) : n.shown = [] := by
  unfold shown
  split
  · rename_i hk _
    rw [hk] at h
    cases h
  · rename_i hk _
    rw [hk] at h
    cases h
  · rfl

omit [NameLimit] in
/-- What a node shows has the names of the outputs it declares. -/
theorem Node.Fits.mem_shown {g : Graph} {τ : PortId → ValueType} {n : Node} (h : n.Fits g τ)
    {name : String} (hname : name ∈ n.kind.outputNames) : name ∈ n.shown.map (·.1) := by
  cases h with
  | previewOutput hk hin =>
    rw [hk] at hname
    rw [Node.shown, hk, hin]
    exact hname
  | materialOutput hk hin =>
    rw [hk] at hname
    rw [Node.shown, hk, hin]
    simp only [NodeKind.outputNames, List.mem_cons, List.not_mem_nil, or_false] at hname
    rcases hname with rfl | rfl | rfl <;> simp
  | arithmetic hop =>
    exfalso
    cases hk : n.kind <;> rw [hk] at hop hname <;> cases hop
    all_goals exact List.not_mem_nil hname
  | _ hk =>
    rw [hk] at hname
    cases hname

/-- **The body of a stage leaves behind what the graph means**, at its root. -/
theorem Draft.Holds.answers (h : d.Holds p I void type entry c Γ o) (hp : p.Planned)
    (hexact : p.Exact I) (hroot : p.graph.nodes[p.root]? = some root)
    (he : root.execution = .ok (d.model, mode, params)) :
    p.graph.Answers I p.typeOf p.root (d.declareEntry mode params).body o := by
  have hmem : p.root ∈ p.order := by
    rw [hp.mem_order, Labels.mem_nodes]
    exact start_mem_reach (List.mem_singleton.2 rfl) (Array.getElem?_eq_some_iff.1 hroot).1
  obtain ⟨os, rfl, hos⟩ := h.shows
  obtain ⟨o, ⟨n, hn, hshows⟩, hflat⟩ := exists_flatten_eq (hp.nodup.filter _)
    (StagePlan.Planned.mem_members.2 ⟨hmem, p.labels.home_root⟩) hos (by
      rintro i hi hne o ⟨n, hn, hshows⟩
      have hnames := Drafting.namesAt_eq_nil hp (StagePlan.Planned.mem_members.1 hi).1 hne
      rw [Drafting.namesAt, hn] at hnames
      cases hshows with
      | stored _ ho =>
        rw [Node.shown_eq_nil hnames] at ho
        cases ho
        rfl
      | texel _ hir => exact absurd hir hne)
  rw [hroot] at hn
  cases hn
  rw [hflat]
  rcases Node.stage_of_execution he with ⟨hstage, hmodel⟩ | ⟨hstage, hmodel⟩
  · have hfragment : d.fragment = true := by rw [Draft.fragment, hmodel]; rfl
    cases hshows with
    | texel hk =>
      rw [hk] at hstage
      cases hstage
    | stored _ ho =>
      refine .shown hroot hstage (ho.imp ?_) fun r hr hk => ?_
      · rintro e o ⟨v, a, hv, rfl, ha⟩
        have hout : (e.1, v) ∈ d.outputs := by
          obtain ⟨l₁, l₂, heq, -⟩ := List.lookup_eq_some_iff.1 hv
          rw [heq]
          simp
        obtain ⟨r, hlisted, hk, hname⟩ := h.furnished.outputs _ hout
        refine ⟨r, hlisted.mem, hk, hname, a, ?_, by rw [hlisted.id]⟩
        rw [hfragment] at ha
        exact ha hexact
      · have hnamed : r.name ∈ d.outputs.map (·.1) :=
          List.mem_map.2 ⟨_, h.counted.stored r hr hk, rfl⟩
        rw [h.outputs, Drafting.namesAt_order hp hmem, Drafting.namesAt, hroot] at hnamed
        exact (hp.typed.fits hp.consistent hroot).mem_shown hnamed
  · have hfragment : d.fragment = false := by rw [Draft.fragment, hmodel]; rfl
    have hk := Node.kind_of_compute hstage
    cases hshows with
    | stored hne => exact absurd ⟨hk, rfl⟩ hne
    | texel _ _ hin hparams ha =>
      rw [hfragment] at ha
      exact .filled hroot hk hin hparams (ha hexact)

end Held

/-! ### Compilations -/

/-- **Compilation preserves meaning.**  Every stage of a compilation that leaves arithmetic to run time
has a module whose run, under any interpretation in which comparisons of constants come out as they
are decided beforehand, ends and leaves behind exactly what the graph means. -/
theorem Graph.Built.compile_faithful {g : Graph} (hg : g.Built) {id : NodeId} {budget : Int}
    {c : Compilation} (h : g.compile id ⟨false, budget⟩ = .ok c) :
    ∀ s ∈ c.stages, ∃ (b : Body) (code : List Instruction) (version : Version),
      s.stage.bodies.getLast? = some b ∧
      b.words = [magic, version.word, generatorWord,
          ((code.filterMap (·.result?)).length + 1).toUInt32, 0] ++ code.flatMap Instruction.encode ∧
      ((code.filterMap (·.result?)).length < 4294967296 →
        (b.resources.map (·.variable_)).Nodup ∧
        ∀ I : Interpretation, I.Agrees g c.typeOf →
          ∃ o, Settles (b.machine I code).execute o ∧ g.Answers I c.typeOf s.stage.root b o) := by
  intro s hs
  obtain ⟨htypes, hplans⟩ := compile_plans h
  obtain ⟨p, hplan, hptypes, hbuilds⟩ := hplans s hs
  obtain ⟨t, ht, hbodies⟩ := hbuilds.bodies
  obtain ⟨hplanned, hlabels, hfold⟩ := Graph.plan_planned hg.consistent htypes hplan
  obtain ⟨N, hnames⟩ := g.exists_nameLimit
  have hgraph : p.graph = g := by rw [StagePlan.graph, hlabels]; rfl
  have htypeOf : p.typeOf = c.typeOf := by
    funext port
    rw [StagePlan.typeOf, Compilation.typeOf, hptypes]
  obtain ⟨d', hd', hbody⟩ := StagePlan.draftBody_of_generate ht
  have hheld := fun I => StagePlan.draftBody_spec I hplanned (hgraph ▸ hnames) hd'
  refine ⟨d'.body, d'.builder.instructions, d'.builder.version, hbodies ▸ hbody, ?_, fun hfew => ?_⟩
  · obtain ⟨_, _, mode, params, d, void, type, entry, k, Γ, o, -, -, hd, -, -, rfl⟩ := hheld .trivial
    rw [hd.length_results]
    rfl
  refine ⟨?_, fun I hagrees => ?_⟩
  · obtain ⟨_, _, mode, params, d, void, type, entry, k, Γ, o, -, -, hd, -, -, rfl⟩ := hheld .trivial
    have hcount := hd.length_results mode params
    exact hd.nodup_variables (by omega)
  · obtain ⟨root, model, mode, params, d, void, type, entry, k, Γ, o, hroot, he, hd, hmodel, -, rfl⟩ :=
      hheld I
    have hcount := hd.length_results mode params
    refine ⟨o, hd.execute (by omega), ?_⟩
    have hanswers := hd.answers hplanned ⟨hfold, by rw [hgraph, htypeOf]; exact hagrees⟩ hroot
      (hmodel ▸ he)
    rwa [hgraph, htypeOf, ← hbuilds.root] at hanswers

/-- A previewed input is stored as a colour. -/
theorem Graph.Answers.previewed {g : Graph} {I : Interpretation} {τ : PortId → ValueType} {root : Nat}
    {b : Body} {o : List (Output I.Value)} {n : Node} {q : PortId} {a : I.Value}
    (h : g.Answers I τ root b o) (hn : g.nodes[root]? = some n) (hk : n.kind = .previewOutput)
    (hin : n.inputs = [q]) (ha : g.Supplies τ true q a) : ∃ v, o = [.stored v (I.colour (τ q) a)] := by
  cases h with
  | shown hn' _ hstores =>
    obtain rfl := Option.some.inj (hn'.symm.trans hn)
    rw [Node.shown, hk, hin] at hstores
    obtain ⟨_, _, ⟨r, -, -, -, a', ha', rfl⟩, hrest, rfl⟩ := List.forall₂_cons_left_iff.1 hstores
    rw [List.forall₂_nil_left_iff.1 hrest, ha'.unique ha]
    exact ⟨r.variable_, rfl⟩
  | filled hn' hk' =>
    obtain rfl := Option.some.inj (hn'.symm.trans hn)
    rw [hk] at hk'
    cases hk'

deriving instance DecidableEq for Params

namespace ChoiceExample

/-- What is shown at the times 1 and 8. -/
theorem supplied : ∀ e ∈ [((1 : Float), (4 : Float)), (8, -8)],
    graph.inputAt (.computing e.1) (stage false).typeOf true 12 23 = some [.number e.2] ∧
      (Interpretation.computing e.1).colour .float [.number e.2] =
        [.number e.2, .number e.2, .number e.2, .number 1] := by
  decide +kernel

/-- Its comparison of constants is decided as it comes out. -/
theorem agrees (time : Float) : (Interpretation.computing time).Agrees graph (stage false).typeOf := by
  have ht : graph.Typed (stage false).typeOf := consistent.typed resolved
  have hints : ∀ t ∈ types, t.isInt = false := by decide
  have htests : ∀ n ∈ graph.nodes.toList, n.params ≠ .compare .notEqual := by decide +kernel
  refine ht.agrees_computing consistent (ht.agrees_comparing consistent ?_ ?_) time
  · intro q x _ hint
    rw [StagePlan.typeOf] at hint
    cases hq : Array.at? (stage false).types q with
    | none =>
      rw [hq] at hint
      cases hint
    | some t =>
      obtain ⟨k, -, hk⟩ := at?_eq_some hq
      rw [hq, Option.getD_some, hints t (Array.mem_of_getElem? hk)] at hint
      cases hint
  · intro n hn _ _ _ _ hparams
    exact absurd hparams (htests n hn)

end ChoiceExample

/-- At time 1, which is less than the sum, the sum is shown; at time 8 the time is, negated. -/
theorem Graph.compile_faithful_choice : ∃ (c : Compilation) (s : CompiledStage) (b : Body)
    (code : List Instruction) (version : Version) (v w : UInt32),
    ChoiceExample.graph.compile (Uuid.ofBytes [10]) ⟨false, 0⟩ = .ok c ∧ s ∈ c.stages ∧
      s.stage.bodies.getLast? = some b ∧
      b.words = [magic, version.word, generatorWord,
        ((code.filterMap (·.result?)).length + 1).toUInt32, 0] ++ code.flatMap Instruction.encode ∧
      Settles (b.machine (.computing 1) code).execute
        [.stored v [.number 4, .number 4, .number 4, .number 1]] ∧
      Settles (b.machine (.computing 8) code).execute
        [.stored w [.number (-8), .number (-8), .number (-8), .number 1]] := by
  obtain ⟨c, s, hc, hstages, hroot⟩ := ChoiceExample.compiles false
  have hs : s ∈ c.stages := hstages ▸ List.mem_singleton_self s
  obtain ⟨b, code, version, hb, hwords, hrun⟩ := ChoiceExample.built.compile_faithful hc s hs
  have hfew : (code.filterMap (·.result?)).length < 4294967296 := by
    have hlt := ChoiceExample.short_of_lengths (ChoiceExample.lengths_of_compile hc hs hroot) b
      (List.mem_of_getLast? hb)
    have hle := length_results_le code
    rw [hwords, List.length_append] at hlt
    omega
  have htypes : c.typeOf = (ChoiceExample.stage false).typeOf := by
    funext q
    rw [Compilation.typeOf,
      ← Except.ok.inj (ChoiceExample.resolved.symm.trans (compile_plans hc).1)]
    rfl
  rw [hroot, htypes] at hrun
  obtain ⟨n, hn, hnode⟩ : ∃ n, ChoiceExample.graph.nodes[9]? = some n ∧
      (n.kind, n.inputs) = (.previewOutput, [23]) :=
    Option.map_eq_some_iff.1 (by decide +kernel)
  obtain ⟨hk, hin⟩ := Prod.mk.inj hnode
  -- the run for each time, and what is shown at it
  have hshown : ∀ e ∈ [((1 : Float), (4 : Float)), (8, -8)], ∃ v,
      Settles (b.machine (.computing e.1) code).execute
        [.stored v [.number e.2, .number e.2, .number e.2, .number 1]] := by
    intro e he
    obtain ⟨hinput, hcolour⟩ := ChoiceExample.supplied e he
    obtain ⟨o, ho, hanswers⟩ := (hrun hfew).2 (.computing e.1) (ChoiceExample.agrees e.1)
    obtain ⟨v, rfl⟩ := hanswers.previewed hn hk hin (supplies_iff.2 ⟨12, hinput⟩)
    exact ⟨v, hcolour ▸ ho⟩
  obtain ⟨v, hv⟩ := hshown (1, 4) List.mem_cons_self
  obtain ⟨w, hw⟩ := hshown (8, -8) (List.mem_cons_of_mem _ (List.mem_singleton_self _))
  exact ⟨c, s, b, code, version, v, w, hc, hs, hb, hwords, hv, hw⟩

end NodeShader
