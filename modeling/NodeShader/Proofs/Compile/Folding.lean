import NodeShader.Proofs.Compile.Joining
import NodeShader.Proofs.Metal.Sharing
import NodeShader.Proofs.Stage.Bodies
import NodeShader.Proofs.Stage.Folding

/-!
# Folding changes code only

Whether arithmetic on constants is folded is first asked when the code of a node is written.  By then all
variables of a body are declared and annotated, and code declares none (`Draft.Goes.scope`), so the two
bodies of a stage list the same resources, and the same bindings are reflected from them
(`Draft.Goes.alike`).  Everything else a stage is made of hangs on its plan.

* `StagePlan.draftBody_alike`: the bodies of a stage, folded or not, differ in their code only.
* `StagePlan.Generates.folding`: a stage is generated for one plan if it is for the other.
* `Graph.Built.compile_folding`: **folding changes the code of a compilation only**, and not whether there
  is one, as long as the words of modules can be counted.
-/

namespace NodeShader

open Spirv

/-! ### Bodies -/

/-- **Bodies that differ in their code only**: they have the same resources, and whatever shaders are
written for them have the same bindings. -/
structure Body.Alike (b b' : Body) : Prop where
  resources : b'.resources = b.resources
  bindings : ∀ (g : Graph) (x x' : Shader), b.shader g = .ok x → b'.shader g = .ok x' →
    x'.bindings = x.bindings

theorem Body.Alike.refl (b : Body) : b.Alike b :=
  ⟨rfl, fun _ _ _ h h' => by rw [Except.ok.inj (h.symm.trans h')]⟩

/-- Bindings are told by their resources and by what is reflected. -/
theorem ShaderBinding.eq_of_maps {l l' : List ShaderBinding}
    (h : l'.map (·.resource) = l.map (·.resource)) (h' : l'.map (·.reflected) = l.map (·.reflected)) :
    l' = l := by
  have hzip : ∀ l : List ShaderBinding,
      List.zipWith ShaderBinding.mk (l.map (·.resource)) (l.map (·.reflected)) = l := by
    intro l
    rw [List.zipWith_map, List.zipWith_self]
    exact List.map_id l
  rw [← hzip l', h, h', hzip l]

namespace Draft

variable [NameLimit] {o d e : Draft} {P : List UInt32} {modes modes' : List (List UInt32)} {t u : Metal.Tables}

/-- **What is made is in the scope of what was declared before its code.** -/
theorem Goes.scope (g : o.Goes d) (ho : o.Sound P) (hd : d.Coded) (hfew : d.builder.nextId ≤ 4294967296)
    (modes : List (List UInt32)) : Metal.Scope o.decls o.builder.annotations (o.builder.results ++ P)
      (d.withEntry modes).builder.globals where
  distinct := (hd.scope hfew modes).distinct
  decls := ((g.entries.filter _).map _).trans (hd.scope hfew modes).decls
  annotations := List.Subset.trans (ModuleBuilder.sectionOf_subset g.entries _)
    (hd.scope hfew modes).annotations
  forms := fun i hi => ho.forms .types i (ModuleBuilder.mem_sectionOf.1 hi) (by decide)
  placed := by
    intro k x s hi
    have hmark : (Section.types, (⟨.variableDecl, [k, x, s]⟩ : Instruction)) ∈ d.builder.marks :=
      List.mem_filter.2 ⟨ModuleBuilder.mem_sectionOf.1 ((hd.scope hfew modes).placed k x s hi), rfl⟩
    rw [frame_marks g.frame] at hmark
    exact ModuleBuilder.mem_sectionOf.2 (List.mem_filter.1 hmark).1
  decorated := (hd.scope hfew modes).decorated

/-- **Bodies with a common beginning** are kin. -/
theorem Goes.kin (g : o.Goes d) (g' : o.Goes e) (ho : o.Sound P) (hd : d.Coded) (he : e.Coded)
    (hfew : d.builder.nextId ≤ 4294967296) (hfew' : e.builder.nextId ≤ 4294967296)
    (hold : t.Hold (d.withEntry modes).builder.globals)
    (hold' : u.Hold (e.withEntry modes').builder.globals) :
    Metal.Kin o.decls o.builder.annotations (o.builder.results ++ P)
      (d.withEntry modes).builder.globals (e.withEntry modes').builder.globals t u := by
  have hmarks : e.builder.marks = d.builder.marks :=
    (frame_marks g'.frame).trans (frame_marks g.frame).symm
  -- each table that is asked is read from the marks
  have hread : ∀ {β : Type} {f : Instruction → Option β} {op : Opcode} {s : Section},
      (op, s) ∈ markSections → (∀ i b, f i = some b → i.opcode = op) →
      (e.withEntry modes').builder.globals.filterMap f = (d.withEntry modes).builder.globals.filterMap f := by
    intro β f op s hop hf
    rw [he.filterMap_globals hop hf, hd.filterMap_globals hop hf, hmarks]
  refine ⟨⟨?_, ?_, ?_, ?_, ?_⟩, g.scope ho hd hfew modes, g'.scope ho he hfew' modes', hold, hold'⟩
  · rw [hold'.names, hold.names, hread (s := .debug) (by decide) fun _ _ => Metal.opcode_of_name]
  · rw [hold'.memberNames, hold.memberNames,
      hread (s := .debug) (by decide) fun _ _ => Metal.opcode_of_member]
  · rw [hold'.decorations, hold.decorations,
      hread (s := .annotations) (by decide) fun _ _ => Metal.opcode_of_annotation]
  · rw [hold'.memberDecorations, hold.memberDecorations,
      hread (s := .annotations) (by decide) fun _ _ => Metal.opcode_of_memberAnnotation]
  · rw [hold'.globals, hold.globals,
      hread (s := .types) (by decide) fun _ _ => Metal.opcode_of_variable]

end Draft

/-- **Bodies with a common beginning differ in their code only.** -/
theorem Draft.Goes.alike {o d e : Draft} {P : List UInt32} {modes modes' : List (List UInt32)}
    (g : o.Goes d) (g' : o.Goes e) (ho : @Draft.Sound shortNames o P) (hd : @Draft.Coded shortNames d)
    (he : @Draft.Coded shortNames e) (hmodes : Modes modes) (hmodes' : Modes modes') :
    (d.withEntry modes).body.Alike (e.withEntry modes').body := by
  let _ := shortNames
  have hresources : e.resources = d.resources := by
    rw [frame_resources g'.frame, frame_resources g.frame]
  refine ⟨hresources, fun graph x x' hx hx' => ?_⟩
  have hfew := hd.few_of_shader hmodes hx
  have hfew' := he.few_of_shader hmodes' hx'
  obtain ⟨t, program, names, hold, hok, hreflect, -⟩ := hd.program (Nat.le_refl _) hmodes hfew
  obtain ⟨u, program', names', hold', hok', hreflect', -⟩ := he.program (Nat.le_refl _) hmodes' hfew'
  have hkin := g.kin g' ho hd he hfew.le hfew'.le hold hold'
  rw [hkin.reflect, hreflect] at hreflect'
  have hbindings : program'.bindings = program.bindings := by
    injection hreflect' with hpair
    injection hpair with hbs
    exact hbs.symm
  have hjoined := Body.Made.joined ⟨d, modes, hd, hmodes, rfl⟩ hx
  have hjoined' := Body.Made.joined ⟨e, modes', he, hmodes', rfl⟩ hx'
  have hbody := (Body.shader_spec hx).1
  have hbody' := (Body.shader_spec hx').1
  refine ShaderBinding.eq_of_maps ?_ ?_
  · rw [hjoined.resources, hjoined'.resources, hbody, hbody']
    exact hresources
  · obtain ⟨p, hp, hr⟩ := hjoined.reflected
    obtain ⟨p', hp', hr'⟩ := hjoined'.reflected
    rw [hbody, hok] at hp
    rw [hbody', hok'] at hp'
    rw [hr, hr', ← Except.ok.inj hp, ← Except.ok.inj hp', hbindings]

/-! ### Stages -/

variable {p : StagePlan} {fold : Bool} {s s' : Stage} {n n' : Node} {d e : Draft}

/-- **The bodies of a stage, folded or not, differ in their code only.** -/
theorem StagePlan.draftBody_alike (hp : p.Planned) (hnames : p.graph.ShortNames) (h : p.draftBody = .ok d)
    (h' : (p.folding fold).draftBody = .ok e) : d.body.Alike e.body := by
  let _ := shortNames
  obtain ⟨root, model, mode, params, u, hroot, hexecution, hrun⟩ := root_of_draftBody h
  obtain ⟨root', model', mode', params', u', hroot', hexecution', hrun'⟩ := root_of_draftBody h'
  obtain rfl : root = root' := Option.some.inj (hroot.symm.trans hroot')
  obtain ⟨rfl, rfl, rfl⟩ : model = model' ∧ mode = mode' ∧ params = params' := by
    rw [hexecution] at hexecution'
    cases hexecution'
    exact ⟨rfl, rfl, rfl⟩
  have hsized := sized_of_execution hroot hexecution
  obtain ⟨o, d₁, _, _, _, _, _, _, ho, hs, g, hd, hmodel, -, rfl⟩ :=
    Drafting.stageBody_spec .trivial hp hnames hsized hrun
  obtain ⟨o', e₁, _, _, _, _, _, _, ho', -, g', he, hmodel', -, rfl⟩ :=
    Drafting.stageBody_spec .trivial (hp.folding fold) hnames hsized hrun'
  -- the opening of both is the same
  have hopening : Drafting.Draws (Drafting.opening p) (Draft.new model) () o' := ho'
  obtain rfl : o = o' := congrArg Prod.snd (Except.ok.inj (ho.symm.trans hopening))
  rw [Draft.declareEntry_eq, Draft.declareEntry_eq]
  exact g.alike g' hs (hd.coded hp hroot (hmodel ▸ hexecution))
    (he.coded (hp.folding fold) hroot (hmodel' ▸ hexecution)) (Node.execution_modes hexecution)
    (Node.execution_modes hexecution)

/-- A stage without its code. -/
def Stage.outline (s : Stage) : Stage := { s with bodies := [] }

/-- **Stages that differ in their code only.** -/
structure Stage.Alike (s s' : Stage) : Prop where
  outline : s'.outline = s.outline
  bodies : List.Forall₂ Body.Alike s.bodies s'.bodies

/-- **A stage is generated for the other plan** if it is for the one. -/
theorem StagePlan.Generates.folding (h : p.Generates s n d) (hp : p.Planned) (hnames : p.graph.ShortNames)
    (fold : Bool) : ∃ s' e, (p.folding fold).Generates s' n e := by
  let _ := shortNames
  obtain ⟨e, he⟩ := draftBody_folding .trivial hp hnames fold h.drafted
  have hbodies : ∃ bodies, n.kind.stage.Bodies e bodies := by
    have hd := h.bodies
    generalize n.kind.stage = kind at hd
    generalize s.bodies = bodies at hd
    cases hd with
    | render hv => exact ⟨_, .render hv⟩
    | other hne => exact ⟨_, .other hne⟩
  obtain ⟨bodies, hbodies⟩ := hbodies
  exact ⟨⟨p.root, n.id, n.kind.stage, p.domain, e.dependencies, p.nodes, bodies, n.field?⟩, e,
    h.node, he, hbodies, rfl⟩

/-- **Stages of both plans differ in their code only.** -/
theorem StagePlan.Generates.alike (h : p.Generates s n d) (hp : p.Planned) (hnames : p.graph.ShortNames)
    (h' : (p.folding fold).Generates s' n' e) : s.Alike s' := by
  cases (h.node.symm.trans h'.node : some n = some n')
  have hbody := draftBody_alike hp hnames h.drafted h'.drafted
  have hdependencies : e.dependencies = d.dependencies :=
    (draftBody_dependencies h'.drafted).trans (draftBody_dependencies h.drafted).symm
  refine ⟨?_, ?_⟩
  · rw [h'.parts, h.parts, hdependencies]
    rfl
  · have hd := h.bodies
    have he := h'.bodies
    generalize n.kind.stage = kind at hd he
    generalize s.bodies = bodies at hd
    generalize s'.bodies = bodies' at he
    cases hd with
    | render hv =>
      cases he with
      | render hv' =>
        cases hv.symm.trans hv'
        exact .cons (.refl _) (.cons hbody .nil)
      | other hne => exact absurd rfl hne
    | other hne =>
      cases he with
      | render => exact absurd rfl hne
      | other => exact .cons hbody .nil

/-! ### Compiled stages -/

/-- **Compiled stages that differ in their code only**: their shaders, in order, have the same resources
and the same bindings. -/
structure CompiledStage.Alike (s s' : CompiledStage) : Prop where
  outline : s'.stage.outline = s.stage.outline
  resources : s'.shaders.map (·.body.resources) = s.shaders.map (·.body.resources)
  bindings : s'.shaders.map (·.bindings) = s.shaders.map (·.bindings)

/-- The shaders of bodies that differ in their code only. -/
theorem Body.shaders_alike {g : Graph} {bs bs' : List Body} {xs xs' : List Shader}
    (h : List.Forall₂ Body.Alike bs bs') (hx : List.Forall₂ (fun b x => b.shader g = .ok x) bs xs)
    (hx' : List.Forall₂ (fun b x => b.shader g = .ok x) bs' xs') :
    xs'.map (·.body.resources) = xs.map (·.body.resources) ∧
      xs'.map (·.bindings) = xs.map (·.bindings) := by
  induction h generalizing xs xs' with
  | nil =>
    cases hx
    cases hx'
    exact ⟨rfl, rfl⟩
  | cons hb _ ih =>
    cases hx with
    | cons hx hxs =>
      cases hx' with
      | cons hx' hxs' =>
        obtain ⟨hresources, hbindings⟩ := ih hxs hxs'
        simp only [List.map_cons]
        rw [hresources, hbindings, (shader_spec hx).1, (shader_spec hx').1, hb.resources,
          hb.bindings g _ _ hx hx']
        exact ⟨rfl, rfl⟩

variable {built built' stages stages' : List CompiledStage} {plans : List StagePlan}

/-- What is found of the stages that are built hangs on their outlines. -/
theorem CompiledStage.find?_alike (h : List.Forall₂ CompiledStage.Alike built built') (r : Nat) :
    (built'.find? (·.stage.root == r)).map (·.stage.domain) =
      (built.find? (·.stage.root == r)).map (·.stage.domain) := by
  induction h with
  | nil => rfl
  | @cons s s' _ _ hs _ ih =>
    have hroot : s'.stage.root = s.stage.root := (congrArg Stage.root hs.outline :)
    have hdomain : s'.stage.domain = s.stage.domain := (congrArg Stage.domain hs.outline :)
    rw [List.find?_cons, List.find?_cons, hroot]
    split
    · exact congrArg some hdomain
    · exact ih

/-- **The compiled stages of both plans differ in their code only**, if those built before do. -/
theorem StagePlan.build_alike {t t' : CompiledStage} (hp : p.Planned) (hnames : p.graph.ShortNames)
    (hbuilt : List.Forall₂ CompiledStage.Alike built built') (h : p.build built = .ok t)
    (h' : (p.folding fold).build built' = .ok t') : t.Alike t' := by
  obtain ⟨s, hs, h⟩ := bind_eq_ok.1 h
  obtain ⟨shaders, hshaders, h⟩ := bind_eq_ok.1 h
  obtain ⟨s', hs', h'⟩ := bind_eq_ok.1 h'
  obtain ⟨shaders', hshaders', h'⟩ := bind_eq_ok.1 h'
  cases h
  cases h'
  obtain ⟨n, d, hgenerates⟩ := generate_eq_ok.1 hs
  obtain ⟨n', e, hgenerates'⟩ := generate_eq_ok.1 hs'
  have halike := hgenerates.alike hp hnames hgenerates'
  obtain ⟨hresources, hbindings⟩ :=
    Body.shaders_alike halike.bodies (mapM_eq_ok.1 hshaders) (mapM_eq_ok.1 hshaders')
  refine ⟨?_, hresources, hbindings⟩
  have hdependencies : s'.dependencies = s.dependencies :=
    (congrArg Stage.dependencies halike.outline :)
  have hdomain : s'.domain = s.domain := (congrArg Stage.domain halike.outline :)
  -- the domains that are joined are those of the same stages
  have hsampled : (s'.dependencies.filterMap fun r => built'.find? (·.stage.root == r)).map
        (·.stage.domain) =
      (s.dependencies.filterMap fun r => built.find? (·.stage.root == r)).map (·.stage.domain) := by
    rw [List.map_filterMap, List.map_filterMap, hdependencies]
    exact List.filterMap_congr fun r _ => CompiledStage.find?_alike hbuilt r
  have hjoined := congrArg (List.foldl Domain.union s.domain) hsampled
  rw [List.foldl_map, List.foldl_map] at hjoined
  have houtline : ∀ (s : Stage) (d : Domain), ({ s with domain := d } : Stage).outline =
      { s.outline with domain := d } := fun _ _ => rfl
  refine (houtline s' _).trans (Eq.trans ?_ (houtline s _).symm)
  rw [halike.outline, hdomain, hjoined]

/-- **All compiled stages of both plans differ in their code only.** -/
theorem buildStages_alike (hplans : ∀ p ∈ plans, p.Planned ∧ p.graph.ShortNames)
    (h : buildStages plans = .ok stages)
    (h' : buildStages (plans.map (·.folding fold)) = .ok stages') :
    List.Forall₂ CompiledStage.Alike stages stages' := by
  have hrun : ∀ (plans : List StagePlan) (built built' stages stages' : List CompiledStage),
      (∀ p ∈ plans, p.Planned ∧ p.graph.ShortNames) → List.Forall₂ CompiledStage.Alike built built' →
      plans.foldlM (fun built p => do return built ++ [← p.build built]) built = .ok stages →
      (plans.map (·.folding fold)).foldlM (fun built p => do return built ++ [← p.build built]) built' =
        .ok stages' → List.Forall₂ CompiledStage.Alike stages stages' := by
    intro plans
    induction plans with
    | nil =>
      intro built built' stages stages' _ hbuilt h h'
      cases h
      cases h'
      exact hbuilt
    | cons p plans ih =>
      intro built built' stages stages' hplans hbuilt h h'
      rw [List.forall_mem_cons] at hplans
      rw [List.map_cons, List.foldlM_cons] at h'
      rw [List.foldlM_cons] at h
      obtain ⟨_, hb, h⟩ := bind_eq_ok.1 h
      obtain ⟨t, ht, hb⟩ := bind_eq_ok.1 hb
      obtain ⟨_, hb', h'⟩ := bind_eq_ok.1 h'
      obtain ⟨t', ht', hb'⟩ := bind_eq_ok.1 hb'
      cases hb
      cases hb'
      have halike := StagePlan.build_alike hplans.1.1 hplans.1.2 hbuilt ht ht'
      exact ih _ _ _ _ hplans.2 (List.rel_append hbuilt (.cons halike .nil)) h h'
  exact hrun plans [] [] stages stages' hplans .nil h h'

/-- **The stages of the other plans are built**, if they can be counted. -/
theorem buildStages_folding (hplans : ∀ p ∈ plans, p.Planned ∧ p.graph.ShortNames)
    (h : buildStages plans = .ok stages)
    (hfew : ∀ p ∈ plans, ∀ s, (p.folding fold).generate = .ok s → ∀ b ∈ s.bodies,
      b.words.length < 4294967296) : ∃ stages', buildStages (plans.map (·.folding fold)) = .ok stages' := by
  refine buildStages_isOk (List.forall_mem_map.2 fun p hp => ?_) (List.forall_mem_map.2 fun p hp => ?_)
  · exact ⟨(hplans p hp).1.folding fold, (hplans p hp).2⟩
  · -- the stage is generated, as that of the plan is
    obtain ⟨t, -, hbuilds⟩ := exists_of_mem_left (buildStages_spec h) hp
    obtain ⟨s, hs, -⟩ := hbuilds.bodies
    obtain ⟨n, d, hgenerates⟩ := StagePlan.generate_eq_ok.1 hs
    obtain ⟨s', e, hgenerates'⟩ := hgenerates.folding (hplans p hp).1 (hplans p hp).2 fold
    have hs' := StagePlan.generate_eq_ok.2 ⟨n, e, hgenerates'⟩
    exact ⟨s', hs', hfew p hp s' hs'⟩

/-! ### Compilations -/

/-- **Compilations that differ in their code only.** -/
structure Compilation.Alike (c c' : Compilation) : Prop where
  root : c'.root = c.root
  types : c'.types = c.types
  stats : c'.stats = c.stats
  pruned : c'.pruned = c.pruned
  stages : List.Forall₂ CompiledStage.Alike c.stages c'.stages
  dependants : c'.stages.map c'.dependants = c.stages.map c.dependants

/-- The outlines of stages that differ in their code only. -/
theorem CompiledStage.outlines_alike (h : List.Forall₂ CompiledStage.Alike stages stages') :
    stages'.map (·.stage.outline) = stages.map (·.stage.outline) := by
  induction h with
  | nil => rfl
  | cons hs _ ih => rw [List.map_cons, List.map_cons, hs.outline, ih]

theorem Graph.unused_alike (g : Graph) (h : List.Forall₂ CompiledStage.Alike stages stages') :
    g.unused stages' = g.unused stages := by
  have houtlines := CompiledStage.outlines_alike h
  refine List.filter_congr fun i _ => ?_
  have hany := congrArg (fun l : List Stage => l.any fun s => s.nodes.contains i) houtlines
  rw [List.any_map, List.any_map] at hany
  exact congrArg (! ·) hany

theorem Compilation.dependants_alike {c c' : Compilation}
    (h : List.Forall₂ CompiledStage.Alike c.stages c'.stages) :
    c'.stages.map c'.dependants = c.stages.map c.dependants := by
  have houtlines := CompiledStage.outlines_alike h
  have hread : ∀ c : Compilation, c.stages.map c.dependants =
      (c.stages.map (·.stage.outline)).map fun s => (c.stages.map (·.stage.outline)).flatMap
        fun t => (t.dependencies.filter (· == s.root)).map fun _ => t.root := by
    intro c
    rw [List.map_map]
    refine List.map_congr_left fun s _ => ?_
    rw [Function.comp_apply, List.flatMap_map]
    rfl
  rw [hread, hread, houtlines]

namespace Graph

variable {g : Graph}

/-- Plans do not hang on whether constants are folded. -/
theorem plan_folding {types : TypeAssignment} {root : Nat} (fold' : Bool)
    (h : g.plan types fold root = .ok p) : g.plan types fold' root = .ok (p.folding fold') := by
  obtain ⟨order, horder, h⟩ := bind_eq_ok.1 h
  obtain ⟨region, hregion, h⟩ := bind_eq_ok.1 h
  cases h
  exact bind_eq_ok.2 ⟨order, horder, bind_eq_ok.2 ⟨region, hregion, rfl⟩⟩

/-- What is planned of a compilation before its stages does not hang on it either. -/
theorem planCompilation_folding {id : NodeId} {budget : Int} {c : CompilationPlan} (fold' : Bool)
    (h : g.planCompilation id ⟨fold, budget⟩ = .ok c) :
    g.planCompilation id ⟨fold', budget⟩ = .ok { c with stages := c.stages.map (·.folding fold') } := by
  obtain ⟨_, hvalid, h⟩ := bind_eq_ok.1 h
  obtain ⟨root, hroot, h⟩ := bind_eq_ok.1 h
  obtain ⟨roots, hroots, h⟩ := bind_eq_ok.1 h
  obtain ⟨typed, htyped, h⟩ := bind_eq_ok.1 h
  obtain ⟨stages, hstages, h⟩ := bind_eq_ok.1 h
  cases h
  have hstages' : List.Forall₂ (fun r q => g.plan typed.1 fold' r = .ok q) roots
      (stages.map (·.folding fold')) := by
    rw [List.forall₂_map_right_iff]
    exact (mapM_eq_ok.1 hstages).imp fun _ _ h => plan_folding fold' h
  exact bind_eq_ok.2 ⟨_, hvalid, bind_eq_ok.2 ⟨root, hroot, bind_eq_ok.2 ⟨roots, hroots, bind_eq_ok.2
    ⟨typed, htyped, bind_eq_ok.2 ⟨_, mapM_eq_ok.2 hstages', rfl⟩⟩⟩⟩⟩

/-- **Folding changes the code of a compilation only**: with constants folded or not, an output compiles
if it does the other way, unless some module has more words than can be counted, and the two compilations
agree on all but the code of their stages and the text of their programs. -/
theorem Built.compile_folding (hg : g.Built) (hnames : g.ShortNames) (id : NodeId) (budget : Int)
    (fold fold' : Bool) {c : Compilation} (h : g.compile id ⟨fold, budget⟩ = .ok c) :
    (∀ c', g.compile id ⟨fold', budget⟩ = .ok c' → c.Alike c') ∧
      ((∃ c', g.compile id ⟨fold', budget⟩ = .ok c') ∨
        ∃ (plan : CompilationPlan) (p : StagePlan) (s : Stage) (b : Body),
          g.planCompilation id ⟨fold', budget⟩ = .ok plan ∧ p ∈ plan.stages ∧ p.generate = .ok s ∧
            b ∈ s.bodies ∧ 4294967296 ≤ b.words.length) := by
  obtain ⟨plan, hplan, h⟩ := bind_eq_ok.1 h
  obtain ⟨stages, hstages, h⟩ := bind_eq_ok.1 h
  cases h
  have hplan' := planCompilation_folding fold' hplan
  have hplans := hg.stages_planned hnames hplan
  constructor
  · intro c' h'
    obtain ⟨plan', hplan'', h'⟩ := bind_eq_ok.1 h'
    rw [hplan'] at hplan''
    obtain rfl := Except.ok.inj hplan''
    obtain ⟨stages', hstages', h'⟩ := bind_eq_ok.1 h'
    cases h'
    have halike := buildStages_alike hplans hstages hstages'
    exact ⟨rfl, rfl, rfl, g.unused_alike halike, halike, Compilation.dependants_alike halike⟩
  · by_cases hlong : ∀ p ∈ plan.stages, ∀ s, (p.folding fold').generate = .ok s → ∀ b ∈ s.bodies,
        b.words.length < 4294967296
    · obtain ⟨stages', hstages'⟩ := buildStages_folding hplans hstages hlong
      exact .inl ⟨_, bind_eq_ok.2 ⟨_, hplan', bind_eq_ok.2 ⟨stages', hstages', rfl⟩⟩⟩
    · push Not at hlong
      obtain ⟨p, hp, s, hs, b, hb, hlong⟩ := hlong
      exact .inr ⟨_, p.folding fold', s, b, hplan', List.mem_map.2 ⟨p, hp, rfl⟩, hs, hb, hlong⟩

end Graph

/-- With the sum of constants folded there is less code, and all else is alike. -/
theorem Graph.compile_folding_choice : ∃ (c c' : Compilation) (s s' : CompiledStage),
    ChoiceExample.graph.compile (Uuid.ofBytes [10]) ⟨false, 0⟩ = .ok c ∧
      ChoiceExample.graph.compile (Uuid.ofBytes [10]) ⟨true, 0⟩ = .ok c' ∧ c.Alike c' ∧
      c.stages = [s] ∧ c'.stages = [s'] ∧ s.stage.bodies.map (·.words.length) = [376, 246] ∧
      s'.stage.bodies.map (·.words.length) = [376, 245] := by
  obtain ⟨c, s, hc, hs, hroot⟩ := ChoiceExample.compiles false
  obtain ⟨c', s', hc', hs', hroot'⟩ := ChoiceExample.compiles true
  obtain ⟨halike, -⟩ := ChoiceExample.built.compile_folding ChoiceExample.names_short
    (Uuid.ofBytes [10]) 0 false true hc
  exact ⟨c, c', s, s', hc, hc', halike c' hc', hs, hs',
    ChoiceExample.lengths_of_compile hc (hs ▸ List.mem_cons_self) hroot,
    ChoiceExample.lengths_of_compile hc' (hs' ▸ List.mem_cons_self) hroot'⟩

end NodeShader
