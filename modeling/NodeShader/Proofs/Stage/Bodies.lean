import NodeShader.Proofs.Outcome
import NodeShader.Proofs.Spirv.Framed
import NodeShader.Proofs.Stage.Sampled
import NodeShader.Proofs.Stage.Writing
import NodeShader.Stage.Generate

/-!
# Generated stages

What a stage is made of: the node of its root, the draft of its own body, and the bodies in order.
-/

namespace NodeShader

variable {p : StagePlan} {s : Stage}

theorem StagePlan.rootNode_eq_ok {n : Node} : p.rootNode = .ok n ↔ p.graph.nodes[p.root]? = some n := by
  rw [rootNode]
  cases p.graph.nodes[p.root]? with
  | none => simp
  | some m => simp

/-- The stage of a compute field fills it. -/
theorem Node.kind_of_compute {n : Node} (h : n.kind.stage = .compute) : n.kind = .computeField := by
  cases hk : n.kind <;> rw [hk] at h <;> first | rfl | cases h

/-- How a stage is executed, by the kind of its root. -/
theorem Node.stage_of_execution {n : Node} {model : Spirv.ExecutionModel} {mode : UInt32}
    {params : List UInt32} (h : n.execution = .ok (model, mode, params)) :
    n.kind.stage = .render ∧ model = .fragment ∨ n.kind.stage = .compute ∧ model = .compute := by
  unfold execution at h
  split at h
  · rename_i hk
    cases h
    exact .inl ⟨hk, rfl⟩
  · rename_i hk
    split at h
    · split at h
      · cases h
      · cases h
        exact .inr ⟨hk, rfl⟩
    · cases h
  · cases h

/-- The bodies of a stage, given the draft of its own body. -/
inductive StageKind.Bodies (d : Draft) : StageKind → List Body → Prop
  | render {v : Body} : vertexBody = .ok v → Bodies d .render [v, d.body]
  | other {kind : StageKind} : kind ≠ .render → Bodies d kind [d.body]

/-- **A stage is made** of the node of its root and of the draft of its own body. -/
structure StagePlan.Generates (p : StagePlan) (s : Stage) (n : Node) (d : Draft) : Prop where
  node : p.graph.nodes[p.root]? = some n
  drafted : p.draftBody = .ok d
  bodies : n.kind.stage.Bodies d s.bodies
  parts : s = {
    root := p.root, id := n.id, kind := n.kind.stage, domain := p.domain,
    dependencies := d.dependencies, nodes := p.nodes, bodies := s.bodies, field := n.field? }

theorem StagePlan.generate_eq_ok : p.generate = .ok s ↔ ∃ n d, p.Generates s n d := by
  rw [generate, mapError_eq_ok, draft]
  constructor
  · intro h
    obtain ⟨n, hn, h⟩ := bind_eq_ok.1 h
    obtain ⟨d, hd, h⟩ := bind_eq_ok.1 h
    refine ⟨n, d, ?_⟩
    dsimp only at h
    split at h
    · rename_i hk
      obtain ⟨bodies, hb, h⟩ := bind_eq_ok.1 h
      obtain ⟨v, hv, rfl⟩ := map_eq_ok.1 hb
      cases h
      exact ⟨rootNode_eq_ok.1 hn, hd, hk ▸ .render hv, rfl⟩
    · rename_i hk
      cases h
      exact ⟨rootNode_eq_ok.1 hn, hd, .other hk, rfl⟩
  · rintro ⟨n, d, hn, hd, hbodies, hs⟩
    refine bind_eq_ok.2 ⟨n, rootNode_eq_ok.2 hn, bind_eq_ok.2 ⟨d, hd, ?_⟩⟩
    dsimp only
    generalize hk : n.kind.stage = kind at *
    generalize hb : s.bodies = bodies at *
    cases hbodies with
    | render hv => exact bind_eq_ok.2 ⟨_, map_eq_ok.2 ⟨_, hv, rfl⟩, congrArg Except.ok hs.symm⟩
    | other hne =>
      split
      · exact absurd rfl hne
      · exact congrArg Except.ok hs.symm

end NodeShader

/-!
## Bodies of stages

The body of a stage declares what its nodes need and opens its function (`opening`), writes the shared
list, and with it everything, and closes the function (`closing`).  `Draft.Opened` says what is there
before the code, and `Draft.Holds` what comes out: structured code between the frame of the function,
which runs from nothing and leaves behind what the nodes show.
-/

namespace NodeShader

open Spirv

variable [NameLimit] {I : Interpretation} {p : StagePlan} {d d' : Draft} {P : List UInt32} {u : Unit}

/-- **What the body of a stage holds**, before it is declared how it is executed: the code of its
function, and what that leaves behind. -/
structure Draft.Holds (d : Draft) (p : StagePlan) (I : Interpretation) (void type entry : UInt32)
    (c : Code) (Γ : Context I) (o : List (Output I.Value)) : Prop where
  sound : d.Sound []
  furnished : d.Furnished p
  counted : d.Counted
  outputs : d.outputs.map (·.1) = p.order.reverse.flatMap (Drafting.namesAt p)
  serves : ∀ i ∈ p.order, ∃ n, p.graph.nodes[i]? = some n ∧ d.Serves p i n
  code : d.code = functionOf d.main void type entry c
  void : TypeAt d.decls void .void
  type : TypeAt d.decls type (.function .void)
  runs : Runs (d.surroundings I) [] c Γ o
  shows : ∃ os : List (List (Output I.Value)), o = os.flatten ∧
    List.Forall₂ (fun i o => ∃ n, p.graph.nodes[i]? = some n ∧ d.Shows p i n o) (p.members none) os

/-- A draft with its entry point and how that is executed. -/
def Draft.declareEntry (d : Draft) (mode : UInt32) (params : List UInt32) : Draft :=
  { d with
    builder := (d.builder.push .entryPoints ⟨.entryPoint,
      d.model.code :: d.main :: nameWords (Text.bytes "main") ++ d.interface⟩).push
        .executionModes ⟨.executionMode, d.main :: mode :: params⟩ }

namespace Draft

/-! ### The entry point -/

omit [NameLimit] in
theorem declareEntry_entries (d : Draft) (mode : UInt32) (params : List UInt32) :
    (d.declareEntry mode params).builder.entries.toList = d.builder.entries.toList ++
      [(.entryPoints, ⟨.entryPoint,
        d.model.code :: d.main :: nameWords (Text.bytes "main") ++ d.interface⟩),
        (.executionModes, ⟨.executionMode, d.main :: mode :: params⟩)] := by
  rw [declareEntry, ModuleBuilder.push_entries, ModuleBuilder.push_entries, List.append_assoc]
  rfl

omit [NameLimit] in
theorem declareEntry_sublist (d : Draft) (mode : UInt32) (params : List UInt32) :
    d.builder.entries.toList.Sublist (d.declareEntry mode params).builder.entries.toList := by
  rw [declareEntry_entries]
  exact List.sublist_append_left _ _

omit [NameLimit] in
theorem declareEntry_code (d : Draft) (mode : UInt32) (params : List UInt32) :
    (d.declareEntry mode params).code = d.code :=
  (ModuleBuilder.sectionOf_push_of_ne _ _ (by decide)).trans
    (ModuleBuilder.sectionOf_push_of_ne _ _ (by decide))

omit [NameLimit] in
theorem declareEntry_results (d : Draft) (mode : UInt32) (params : List UInt32) :
    (d.declareEntry mode params).builder.results = d.builder.results := by
  rw [declareEntry, ModuleBuilder.results_push, ModuleBuilder.results_push]
  exact (List.append_nil _).trans (List.append_nil _)

end Draft

namespace Drafting

/-- **Opening the function**, whose identifier was reserved. -/
theorem beginMain_spec (hs : d.Sound (d.main :: P)) (hc : d.code = [])
    (h : Draws beginMain d u d') :
    d'.Sound P ∧ d.builder.entries.toList.Sublist d'.builder.entries.toList ∧
      d' = { d with builder := d'.builder, label := d'.label } ∧ d'.frame = d.frame ∧
      ∃ void type, TypeAt d'.decls void .void ∧ TypeAt d'.decls type (.function .void) ∧
        d'.code = [⟨.function, [void, d.main, 0, type]⟩, labelOf d'.label] := by
  rw [beginMain, draws_get_bind] at h
  obtain ⟨label, d₁, h₁, h⟩ := draws_bind.1 h
  rw [draws_modify] at h
  simp only [assemble_bind] at h₁
  obtain ⟨void, d₂, h₂, h₁⟩ := draws_bind.1 h₁
  obtain ⟨q₂, hvoid⟩ := typeVoid_spec hs h₂
  obtain ⟨type, d₃, h₃, h₁⟩ := draws_bind.1 h₁
  obtain ⟨q₃, htype⟩ := typeFunction_spec (q₂.sound _ hs) hvoid h₃
  have q := q₂.trans q₃
  obtain ⟨_, d₄, h₄, h₁⟩ := draws_bind.1 h₁
  obtain ⟨-, hd₄⟩ := draws_assemble.1 h₄
  have hs₄ : d₄.Sound P := by
    rw [hd₄]
    exact ModuleBuilder.sound_pushResult (q.sound _ hs) rfl fun h => absurd rfl h
  have hc₄ : d₄.code = [⟨.function, [void, d.main, 0, type]⟩] := by
    rw [hd₄]
    refine (ModuleBuilder.sectionOf_push_self d₃.builder _ _).trans ?_
    rw [show d₃.builder.sectionOf .functions = [] from q.code.trans hc]
    rfl
  have he₄ : d₃.builder.entries.toList.Sublist d₄.builder.entries.toList := by
    rw [hd₄]
    exact ModuleBuilder.push_sublist _ _ _
  have hf₄ : d₄ = { d with builder := d₄.builder } := by
    rw [hd₄, q.fields]
  have hm₄ : d₄.frame = d.frame := by
    rw [hd₄]
    exact (Draft.frame_push rfl rfl).trans q.frame
  obtain ⟨x, d₅, h₅, h₁⟩ := draws_bind.1 h₁
  have r := allocId_spec h₅
  obtain ⟨-, hd₅⟩ := draws_assemble.1 h₅
  obtain ⟨_, d₆, h₆, h₁⟩ := draws_bind.1 h₁
  obtain ⟨-, hd₆⟩ := draws_assemble.1 h₆
  rw [assemble_pure] at h₁
  obtain ⟨rfl, hd₁⟩ := draws_pure.1 h₁
  have hd' : d' = { d with builder := d₆.builder, label := label } := by
    rw [h, hd₁, hd₆, hd₅, hf₄]
  have he₆ : d₄.builder.entries.toList.Sublist d₆.builder.entries.toList := by
    rw [hd₆, ← r.entries]
    exact ModuleBuilder.push_sublist d₅.builder _ _
  have he : d₃.builder.entries.toList.Sublist d₆.builder.entries.toList := he₄.trans he₆
  have hm₆ : d₆.frame = d₅.frame := by
    rw [hd₆]
    exact Draft.frame_push rfl rfl
  rw [hd']
  refine ⟨?_, q.entries.trans he, rfl, ?_, void, type,
    (hvoid.mono q₃.decls).mono (ModuleBuilder.sectionOf_subset he _),
    htype.mono (ModuleBuilder.sectionOf_subset he _), ?_⟩
  · show d₆.builder.Sound P
    rw [hd₆]
    exact ModuleBuilder.sound_pushResult (r.sound P hs₄) rfl fun h => absurd rfl h
  · rw [Draft.frame, Draft.frame, ← Draft.frame_marks (hm₆.trans (r.frame.trans hm₄))]
  · show d₆.builder.sectionOf .functions = _
    rw [hd₆]
    refine (ModuleBuilder.sectionOf_push_self d₅.builder _ _).trans ?_
    rw [ModuleBuilder.sectionOf, r.entries]
    show d₄.code ++ _ = _
    rw [hc₄]
    rfl

/-- **Closing the function**, whose entry point is declared then. -/
theorem endMain_spec (h : Draws endMain d u d') :
    ∃ d₁, d.Goes d₁ ∧ d₁.code = d.code ++ [⟨.returnVoid, []⟩, ⟨.functionEnd, []⟩] ∧
      (∀ P, d.Sound P → d₁.Sound P) ∧ d' = { d₁ with
        builder := d₁.builder.push .entryPoints ⟨.entryPoint,
          d₁.model.code :: d₁.main :: nameWords (Text.bytes "main") ++ d₁.interface⟩ } := by
  rw [endMain, draws_get_bind] at h
  simp only [assemble_bind] at h
  obtain ⟨_, d₁, h₁, h⟩ := draws_bind.1 h
  obtain ⟨g₁, -, hc₁, hs₁⟩ := void_spec rfl h₁
  obtain ⟨_, d₂, h₂, h⟩ := draws_bind.1 h
  obtain ⟨g₂, -, hc₂, hs₂⟩ := void_spec rfl h₂
  obtain ⟨-, hd'⟩ := draws_assemble.1 h
  have hframe : d₂.frame = d.frame := (g₁.trans g₂).frame
  refine ⟨d₂, g₁.trans g₂, ?_, fun P hP => hs₂ P (hs₁ P hP), ?_⟩
  · rw [hc₂, hc₁, List.append_assoc]
    rfl
  · rw [hd', Draft.eq_of_view Draft.frame Draft.model (fun _ => rfl) hframe,
      Draft.eq_of_view Draft.frame Draft.main (fun _ => rfl) hframe,
      Draft.eq_of_view Draft.frame Draft.interface (fun _ => rfl) hframe]
    rfl

/-- Nothing but the global values is declared at the start. -/
theorem begin_furnished {model : ExecutionModel} (h : Draws begin (Draft.new model) u d) :
    d.Sound [d.main] ∧ d.Furnished p ∧ d.Counted ∧ d.code = [] ∧ d.model = model ∧ d.main = 2 ∧
      d.values = [] ∧ d.outputs = [] := by
  obtain ⟨hs, hr, hc, hres, hd⟩ := begin_spec h
  have hinputs : d.inputs = [] := by rw [hd]; rfl
  have hinvocation : d.invocation = none := by rw [hd]; rfl
  have houtputs : d.outputs = [] := by rw [hd]; rfl
  have hfields : d.fields = [] := by rw [hd]; rfl
  have hstorage : d.storage = none := by rw [hd]; rfl
  have hinterface : d.interface = [] := by rw [hd]; rfl
  have hmain : d.main = 2 := by rw [hd]
  refine ⟨by rw [hmain]; exact hs, ⟨hr, ?_, ?_, ?_, ?_, ?_⟩, ⟨?_, ?_, ?_, ?_, ?_, ?_⟩, hc, by rw [hd]; rfl,
    hmain, by rw [hd]; rfl, houtputs⟩
  · intro e he
    rw [hinputs] at he
    cases he
  · intro v hv
    rw [hinvocation] at hv
    cases hv
  · intro e he
    rw [houtputs] at he
    cases he
  · intro e he
    rw [hfields] at he
    cases he
  · intro f hf
    rw [hstorage] at hf
    cases hf
  · rw [hinputs]
    exact List.nodup_nil
  · intro r hr hk
    rw [hres r hr] at hk
    cases hk
  · rw [hinterface, hinputs, houtputs, hinvocation]
    rfl
  · rw [hfields]
    exact List.nodup_nil
  · intro r hr hk
    rw [hres r hr] at hk
    cases hk
  · intro r hr hk
    rw [hres r hr] at hk
    cases hk

omit [NameLimit] in
/-- Before any node is written the shared list waits for nothing. -/
theorem awaits_shared (hf : d.Furnished p) (hv : d.values = [])
    (hserves : ∀ i ∈ p.order, ∃ n, p.graph.nodes[i]? = some n ∧ d.Serves p i n) :
    d.Awaits (I := I) p [] (p.members none) where
  furnished := hf
  serves := hserves
  ready := by
    intro i hi j hj _ hh
    have hi := (StagePlan.Planned.mem_members.1 hi).2
    rw [hi, or_self] at hh
    exact .inl (StagePlan.Planned.mem_members.2 ⟨hj, hh⟩)
  fresh := by
    intro i _ out _
    rw [hv]
    rfl

/-- The declarations of a stage, and the start of its function. -/
def opening (p : StagePlan) : Drafting Unit := do
  begin
  p.order.forM (declareNode p)
  beginMain

/-- The end of the function of a stage, and how that is executed. -/
def closing (mode : UInt32) (params : List UInt32) : Drafting Unit := do
  endMain
  let main := (← get).main
  assemble (Assemble.executionMode main mode params)

omit [NameLimit] in
/-- The body of a stage is its opening, its code and its closing. -/
theorem draws_stageBody {mode : UInt32} {params : List UInt32} :
    Draws (stageBody p mode params) d u d' ↔ ∃ o e, Draws (opening p) d () o ∧
      Draws (writeNodes p (p.region.arms.length + 1) p.region.shared) o () e ∧
      Draws (closing mode params) e u d' := by
  constructor
  · intro h
    obtain ⟨_, d₁, h₁, h⟩ := draws_bind.1 h
    obtain ⟨_, d₂, h₂, h⟩ := draws_bind.1 h
    obtain ⟨_, o, ho, h⟩ := draws_bind.1 h
    obtain ⟨_, e, he, h⟩ := draws_bind.1 h
    exact ⟨o, e, draws_bind.2 ⟨_, d₁, h₁, draws_bind.2 ⟨_, d₂, h₂, ho⟩⟩, he, h⟩
  · rintro ⟨o, e, ho, he, h⟩
    obtain ⟨_, d₁, h₁, ho⟩ := draws_bind.1 ho
    obtain ⟨_, d₂, h₂, ho⟩ := draws_bind.1 ho
    exact draws_bind.2 ⟨_, d₁, h₁, draws_bind.2 ⟨_, d₂, h₂, draws_bind.2 ⟨_, o, ho,
      draws_bind.2 ⟨_, e, he, h⟩⟩⟩⟩

end Drafting

/-- **What is there once the function of a stage is open**: all that its nodes need is declared, and
nothing has a value. -/
structure Draft.Opened (d : Draft) (p : StagePlan) (model : ExecutionModel) (void type : UInt32) :
    Prop where
  sound : d.Sound []
  furnished : d.Furnished p
  counted : d.Counted
  outputs : d.outputs.map (·.1) = p.order.reverse.flatMap (Drafting.namesAt p)
  serves : ∀ i ∈ p.order, ∃ n, p.graph.nodes[i]? = some n ∧ d.Serves p i n
  values : d.values = []
  code : d.code = [⟨.function, [void, d.main, 0, type]⟩, labelOf d.label]
  void : TypeAt d.decls void .void
  type : TypeAt d.decls type (.function .void)
  model : d.model = model
  main : d.main = 2

namespace Drafting

/-- **The opening of a stage.** -/
theorem opening_spec {model : ExecutionModel} (hp : p.Planned) (hnames : p.graph.NamesFit)
    (h : Draws (opening p) (Draft.new model) u d) : ∃ void type, d.Opened p model void type := by
  obtain ⟨_, d₁, h₁, h⟩ := draws_bind.1 h
  obtain ⟨hs₁, hf₁, hcount₁, hc₁, hmodel₁, hmain₁, hv₁, ho₁⟩ := begin_furnished (p := p) h₁
  obtain ⟨_, d₂, h₂, h⟩ := draws_bind.1 h
  obtain ⟨hd₂, hserves⟩ := declareNodes_spec hp hnames hs₁ hf₁ hcount₁ h₂
  have hcore₂ : ∀ {α : Type} (f : Draft → α), (∀ d, f d.core = f d) → f d₂ = f d₁ := fun f hcore =>
    Draft.eq_of_view Draft.core f hcore hd₂.core
  have hmain₂ : d₂.main = d₁.main := hcore₂ Draft.main fun _ => rfl
  obtain ⟨hs, he, hd, hframe, void, type, hvoid, htype, hc⟩ :=
    beginMain_spec (P := []) (by rw [hmain₂]; exact hd₂.sound _ hs₁) (hd₂.code.trans hc₁) h
  have hmain : d.main = d₂.main := by rw [hd]
  have houtputs : d.outputs = d₂.outputs := by rw [hd]
  have hmodel : d.model = d₂.model := by rw [hd]
  refine ⟨void, type, hs, hd₂.furnished.mono he hframe, hd₂.counted.mono hframe, ?_,
    fun i hi => (hserves i hi).imp fun _ hn => ⟨hn.1, hn.2.frame hframe⟩, ?_, ?_, hvoid, htype, ?_, ?_⟩
  · rw [houtputs, hd₂.named, ho₁, List.map_nil, List.append_nil]
  · rw [hd]
    exact (hcore₂ Draft.values fun _ => rfl).trans hv₁
  · rw [hc, hmain]
  · rw [hmodel, hcore₂ Draft.model fun _ => rfl, hmodel₁]
  · rw [hmain, hmain₂, hmain₁]

/-- **The closing of a stage.** -/
theorem closing_spec {mode : UInt32} {params : List UInt32} (h : Draws (closing mode params) d u d') :
    ∃ e, d.Goes e ∧ e.code = d.code ++ [⟨.returnVoid, []⟩, ⟨.functionEnd, []⟩] ∧
      (∀ P, d.Sound P → e.Sound P) ∧ d' = e.declareEntry mode params := by
  obtain ⟨_, d₁, h₁, h⟩ := draws_bind.1 h
  rw [draws_get_bind] at h
  obtain ⟨-, hd'⟩ := draws_assemble.1 h
  obtain ⟨e, g, hc, hs, hd₁⟩ := endMain_spec h₁
  refine ⟨e, g, hc, hs, ?_⟩
  rw [hd', hd₁, Draft.declareEntry]
  rfl

/-- **The body of a stage**, once it is drafted: it goes on from its opening. -/
theorem stageBody_spec {model : ExecutionModel} {mode : UInt32} {params : List UInt32}
    (I : Interpretation) (hp : p.Planned) (hnames : p.graph.NamesFit) (hsized : p.Sized)
    (h : Draws (stageBody p mode params) (Draft.new model) u d') :
    ∃ (o d : Draft) (void type entry : UInt32) (c : Code) (Γ : Context I)
      (shown : List (Output I.Value)), Draws (opening p) (Draft.new model) () o ∧ o.Sound [] ∧
      o.Goes d ∧ d.Holds p I void type entry c Γ shown ∧ d.model = model ∧ d.main = 2 ∧
      d' = d.declareEntry mode params := by
  obtain ⟨o, e, ho, he, h⟩ := draws_stageBody.1 h
  obtain ⟨void, type, opened⟩ := opening_spec hp hnames ho
  rw [hp.shared] at he
  obtain ⟨c, vs, Γ, shown, w⟩ := writeNodes_handles (I := I) hp hsized (.members hp none) o e [] [] _
    opened.sound (awaits_shared opened.furnished opened.values opened.serves) he
  obtain ⟨d, g, hc, hs, rfl⟩ := closing_spec h
  have hgoes := w.emits.goes.trans g
  have hmain : d.main = o.main := Draft.eq_of_view Draft.frame Draft.main (fun _ => rfl) hgoes.frame
  refine ⟨o, d, void, type, o.label, c, Γ, shown, ho, opened.sound, hgoes, ⟨hs _ (w.emits.sound [] opened.sound), ?_,
    opened.counted.mono hgoes.frame, ?_, ?_, ?_, opened.void.mono hgoes.decls,
    opened.type.mono hgoes.decls, w.emits.runs.mono g.le, ?_⟩, ?_, hmain.trans opened.main, rfl⟩
  · exact opened.furnished.mono hgoes.entries hgoes.frame
  · rw [Draft.eq_of_view Draft.frame Draft.outputs (fun _ => rfl) hgoes.frame, opened.outputs]
  · exact fun i hi => (opened.serves i hi).imp fun _ hn => ⟨hn.1, hn.2.frame hgoes.frame⟩
  · rw [hc, w.emits.code, opened.code, hmain, functionOf]
  · obtain ⟨os, ho, hos⟩ := w.shows
    refine ⟨os, ho, hos.imp ?_⟩
    rintro i o' ⟨n, hn, hshows⟩
    exact ⟨n, hn, hshows.frame (d := d) hgoes.frame.symm⟩
  · exact (Draft.eq_of_view Draft.frame Draft.model (fun _ => rfl) hgoes.frame).trans opened.model

end Drafting

omit [NameLimit] in
/-- A field that a stage fills has a size, or there is no body. -/
theorem StagePlan.sized_of_execution {root : Node} {e : ExecutionModel × UInt32 × List UInt32}
    (hroot : p.graph.nodes[p.root]? = some root) (h : root.execution = .ok e) : p.Sized := by
  intro n dim resolution hn hk hparams
  rw [hroot] at hn
  cases hn
  rw [Node.execution, hk] at h
  simp only [NodeKind.stage, hparams] at h
  cases hsize : localSize? dim with
  | none =>
    rw [hsize] at h
    cases h
  | some size => exact ⟨size, rfl⟩

omit [NameLimit] in
/-- The root of a plan with a body. -/
theorem StagePlan.root_of_draftBody (h : p.draftBody = .ok d') :
    ∃ (root : Node) (model : ExecutionModel) (mode : UInt32) (params : List UInt32) (u : Unit),
      p.graph.nodes[p.root]? = some root ∧ root.execution = .ok (model, mode, params) ∧
      Drafting.Draws (Drafting.stageBody p mode params) (Draft.new model) u d' := by
  obtain ⟨root, model, mode, params, u, hroot, he, hrun⟩ := draws_draftBody.1 h
  exact ⟨root, model, mode, params, u, rootNode_eq_ok.1 hroot, he, hrun⟩

/-- **What a drafted stage holds.** -/
theorem StagePlan.draftBody_spec (I : Interpretation) (hp : p.Planned) (hnames : p.graph.NamesFit)
    (h : p.draftBody = .ok d') :
    ∃ (root : Node) (model : ExecutionModel) (mode : UInt32) (params : List UInt32) (d : Draft)
      (void type entry : UInt32) (c : Code) (Γ : Context I) (o : List (Output I.Value)),
      p.graph.nodes[p.root]? = some root ∧
      root.execution = .ok (model, mode, params) ∧ d.Holds p I void type entry c Γ o ∧
      d.model = model ∧ d.main = 2 ∧ d' = d.declareEntry mode params := by
  obtain ⟨root, model, mode, params, u, hnode, he, hrun⟩ := root_of_draftBody h
  obtain ⟨-, d, void, type, entry, c, Γ, o, -, -, -, hd⟩ :=
    Drafting.stageBody_spec I hp hnames (sized_of_execution hnode he) hrun
  exact ⟨root, model, mode, params, d, void, type, entry, c, Γ, o, hnode, he, hd⟩

end NodeShader
