import NodeShader.Proofs.Stage.Coding

/-!
# What has no code

A draft fails at nodes without code only (`StagePlan.Codeless`): fields of one dimension that are sampled
or filled, inputs of the fragment body in the body of a compute stage, and unknown comparisons.  Whatever
goes wrong is told of one of them (`StagePlan.Tells`), for each step of the body in turn:

* `declareNode_fails` and `declareNodes_fails`, for the declarations;
* `writeNode_fails`, for the code of a node;
* `writeNodes_fails`, for lists of nodes: by induction on how deep arms may nest, of which there is enough
  since every arm that is opened is one of the region (`StagePlan.beneath`).
-/

namespace NodeShader

open Spirv

/-- **Nodes without code** in the stage of a root. -/
inductive StagePlan.Codeless (p : StagePlan) (i : Nat) (n : Node) : Prop
  | line {resolution : Int} : i = p.root → n.kind = .computeField → n.params = .field 1 resolution →
      Codeless p i n
  | sample {f : PortId} {rest : List PortId} : n.kind = .sample → n.inputs = f :: rest →
      p.typeOf f = .texture1D → Codeless p i n
  | input {root : Node} : n.kind = .normal ∨ n.kind = .texCoord → p.graph.nodes[p.root]? = some root →
      root.kind.stage = .compute → Codeless p i n
  | compare {code : Int} : n.kind = .compare → n.params = .compare (.unknown code) → Codeless p i n

/-- **What is told of a node without code.** -/
def StagePlan.Tells (p : StagePlan) (f : Failure) : Prop :=
  ∃ i ∈ p.order, ∃ n, p.graph.nodes[i]? = some n ∧ p.Codeless i n ∧
    f.classification? = some ⟨.unsupported, some n.id⟩

/-- **A complete stage**: below its root every required input is connected, and every expression can be
read. -/
structure Labels.Complete (l : Labels) : Prop where
  wired : ∀ i ∈ l.nodes, l.isForeignRoot i = false → ∀ n, l.graph.nodes[i]? = some n → ∀ q ∈ n.inputs,
    ∀ port, l.graph.port? q = some port → port.spec.required = true → port.isConnected = true
  readable : ∀ i ∈ l.nodes, l.isForeignRoot i = false → ∀ n, l.graph.nodes[i]? = some n →
    n.kind = .mathExpression → ∀ source names, n.params = .math source names →
      ∃ e, Math.Expr.parse source names = .ok e

/-- The types of fields. -/
theorem ValueType.texture_cases {t : ValueType} (h : t.isTexture = true) :
    t = .texture1D ∨ t = .texture2D ∨ t = .texture3D := by
  obtain ⟨code⟩ := t
  rw [isTexture, Bool.and_eq_true, decide_eq_true_iff, decide_eq_true_iff] at h
  simp only [texture1D, texture2D, texture3D, ValueType.mk.injEq]
  dsimp only at h
  omega

/-- A field of less than two dimensions is one of a single one. -/
theorem ValueType.eq_texture1D {t : ValueType} (h : t.isTexture = true) (h2 : t.size < 2) :
    t = .texture1D := by
  rcases texture_cases h with rfl | rfl | rfl
  · rfl
  · exact absurd h2 (by decide)
  · exact absurd h2 (by decide)

theorem ValueType.isValue_scalar {t : ValueType} (h : t.isValue = true) : t.scalar.isValue = true := by
  have hall : ∀ t ∈ values, t.scalar.isValue = true := by decide
  exact hall t (mem_values h)

theorem ValueType.isValue_of_isFloating {t : ValueType} (h : t.isFloating = true) : t.isValue = true :=
  isValue_of_isNumeric (isNumeric_of_isFloating h)

theorem ValueType.isValue_of_isVector {t : ValueType} (h : t.isVector = true) : t.isValue = true :=
  isValue_of_isNumeric (Bool.and_eq_true_iff.1 h).1

/-- **Fields come from textures and from nodes that fill them**; all other outputs are values. -/
theorem Node.Fits.gives_field {g : Graph} {τ : PortId → ValueType} {n : Node} {o : PortId}
    (h : n.Fits g τ) (ho : o ∈ n.outputs) (ht : (τ o).isTexture = true) :
    n.kind = .texture ∨ n.kind = .computeField := by
  have hnone : ∀ t ∈ ValueType.values, t.isTexture = false := by decide
  have hvalue : (τ o).isValue = true → n.kind = .texture ∨ n.kind = .computeField := by
    intro hv
    rw [hnone _ (ValueType.mem_values hv)] at ht
    cases ht
  have hone : ∀ {out : PortId}, n.outputs = [out] → (τ out).isValue = true →
      n.kind = .texture ∨ n.kind = .computeField := by
    intro out hout hv
    rw [hout, List.mem_singleton] at ho
    exact hvalue (ho ▸ hv)
  cases h with
  | arithmetic _ hout _ _ hadm => exact hone hout (Drafting.isValue_of_admits hadm)
  | constant _ _ hout _ hv => exact hone hout hv
  | texture hk => exact .inl hk
  | time _ hout ht => exact hone hout (by rw [ht]; rfl)
  | position _ hout ht => exact hone hout (by rw [ht]; rfl)
  | normal _ hout ht => exact hone hout (by rw [ht]; rfl)
  | texCoord _ hout ht => exact hone hout (by rw [ht]; rfl)
  | length _ _ hout ha ht =>
    exact hone hout (by rw [ht]; exact ValueType.isValue_scalar (ValueType.isValue_of_isFloating ha))
  | dot _ _ hout ha _ ht =>
    exact hone hout (by rw [ht]; exact ValueType.isValue_scalar (ValueType.isValue_of_isFloating ha))
  | compare _ _ _ hout _ _ ht => exact hone hout (by rw [ht]; rfl)
  | conditional _ _ hout _ _ _ _ _ _ ht => exact hone hout (ValueType.isValue_of_isNumeric ht)
  | swizzle _ _ _ _ hout ha _ ht h1 h4 =>
    have hnumeric := (ValueType.withSize_shape ha h1 h4).1
    exact hone hout (by rw [ht]; exact ValueType.isValue_of_isNumeric hnumeric)
  | combine _ hout hvec => exact hone hout (ValueType.isValue_of_isVector hvec)
  | separate _ _ ha hports =>
    obtain ⟨k, hk⟩ := List.getElem?_of_mem ho
    exact hvalue (by rw [(hports k o hk).1]; exact ValueType.isValue_scalar (ValueType.isValue_of_isNumeric ha))
  | mathExpression _ _ hout ht => exact hone hout (ValueType.isValue_of_isFloating ht)
  | sample _ _ hout _ _ _ ht => exact hone hout (by rw [ht]; rfl)
  | computeField hk => exact .inr hk
  | previewOutput _ _ hout | materialOutput _ _ hout =>
    rw [hout] at ho
    cases ho

/-- The field of a sample must be connected. -/
theorem Graph.Consistent.field_required {g : Graph} {i : Nat} {n : Node} {f : PortId}
    {rest : List PortId} {port : Port} (hg : g.Consistent) (hn : g.nodes[i]? = some n)
    (hk : n.kind = .sample) (hin : n.inputs = f :: rest) (hport : g.port? f = some port) :
    port.spec.required = true := by
  obtain ⟨ins, outs, hs, hi, -⟩ := (hg.node i n hn).ports
  rw [hk] at hs
  obtain ⟨rfl, rfl⟩ := fixedSpecs hs
  have hspecs := hi.specs
  rw [hin] at hspecs
  obtain ⟨port', hport', hspec, -⟩ := (List.forall₂_cons.1 hspecs).1
  rw [hport] at hport'
  cases hport'
  rw [hspec]

namespace StagePlan.Planned

variable {p : StagePlan} {i : Nat}

/-- **The root of a stage comes last.** -/
theorem rank_le_root (hp : p.Planned) (hi : i ∈ p.order) : p.rank i ≤ p.rank p.root := by
  have hreach := Labels.mem_nodes.1 ((hp.mem_order i).1 hi)
  have h : i ∈ p.order ∧ p.rank i ≤ p.rank p.root := by
    refine reach_induction (P := fun i => i ∈ p.order ∧ p.rank i ≤ p.rank p.root) ?_ ?_ hreach
    · intro s hs hlt
      rw [List.mem_singleton.1 hs] at hlt ⊢
      exact ⟨(hp.mem_order _).2 (Labels.mem_nodes.2 (start_mem_reach List.mem_cons_self hlt)),
        Nat.le_refl _⟩
    · rintro k ⟨hk, hle⟩ j hj -
      obtain ⟨f, hf, rfl⟩ := List.mem_map.1 hj
      obtain ⟨hmem, hlt⟩ := hp.before k hk f hf
      exact ⟨hmem, by omega⟩
  exact h.2

end StagePlan.Planned

/-- The number of conditionals before a rank whose arms are lists of the region. -/
def StagePlan.beneath (p : StagePlan) (r : Nat) : Nat :=
  (p.region.arms.map (·.1)).countP fun b => p.rank b < r

theorem StagePlan.beneath_le (p : StagePlan) (r : Nat) : p.beneath r ≤ p.region.arms.length := by
  rw [beneath, ← List.length_map (·.1)]
  exact List.countP_le_length

/-- The arms of a conditional nest less deep than the list it is in. -/
theorem StagePlan.beneath_lt {p : StagePlan} {i r : Nat} (hi : i ∈ p.region.arms.map (·.1))
    (hr : p.rank i < r) : p.beneath (p.rank i) < p.beneath r := by
  refine countP_lt_countP (fun b _ hb => ?_) hi (by simp) (by simpa using hr)
  rw [decide_eq_true_iff] at hb ⊢
  exact Nat.lt_trans hb hr

namespace Drafting

variable {α β : Type} {K K' : PortId → Prop} {E : Failure → Prop} {x : Drafting α} {d d' : Draft}

/-! ### Failures of a step -/

/-- **What a step may fail with**, from a draft. -/
def FailsWith (E : Failure → Prop) (x : Drafting α) (d : Draft) : Prop :=
  ∀ f, StateT.run x d = .error f → E f

theorem Draws.failsWith {a : α} (h : Draws x d a d') : FailsWith E x d := by
  intro f hf
  rw [Draws, hf] at h
  cases h

/-- What does not fail as it may succeeds. -/
theorem FailsWith.draws (h : FailsWith (fun _ => False) x d) : ∃ a e, Draws x d a e := by
  cases hx : StateT.run x d with
  | error f => exact (h f hx).elim
  | ok r => exact ⟨r.1, r.2, hx⟩

theorem Succeeds.failsWith (h : Succeeds K K' x) (hd : ∀ out, K out → d.values.lookup out = none) :
    FailsWith E x d := by
  obtain ⟨a, e, hx, -⟩ := h d hd
  exact hx.failsWith

theorem failsWith_throw {f : Failure} (hf : E f) : FailsWith E (throw f : Drafting α) d := by
  intro f' h
  cases h
  exact hf

theorem failsWith_bind {f : α → Drafting β} (hx : FailsWith E x d)
    (hf : ∀ a e, Draws x d a e → FailsWith E (f a) e) : FailsWith E (x >>= f) d := by
  intro e h
  rw [StateT.run_bind] at h
  cases hrun : StateT.run x d with
  | error e' =>
    rw [hrun] at h
    cases h
    exact hx _ hrun
  | ok r =>
    rw [hrun] at h
    exact hf r.1 r.2 hrun e h

/-- What a step that succeeds anyway is followed by. -/
theorem Succeeds.failsWith_bind {f : α → Drafting β} (h : Succeeds nowhere K' x)
    (hf : ∀ a e, FailsWith E (f a) e) : FailsWith E (x >>= f) d :=
  Drafting.failsWith_bind (h.failsWith fun _ h => h.elim) fun a e _ => hf a e

/-! ### Steps that never fail -/

/-- **A step that never fails.** -/
def Sure (x : Drafting α) : Prop := ∀ E d, FailsWith E x d

theorem Succeeds.sure (h : Succeeds nowhere K' x) : Sure x :=
  fun _ _ => h.failsWith fun _ h => h.elim

theorem sure_bind {f : α → Drafting β} (hx : Sure x) (hf : ∀ a, Sure (f a)) : Sure (x >>= f) :=
  fun E d => failsWith_bind (hx E d) fun a e _ => hf a E e

theorem sure_pure (a : α) : Sure (pure a : Drafting α) := (succeeds_pure (K := nowhere) a).sure

theorem sure_get : Sure (get : Drafting Draft) := (succeeds_get_bind (K := nowhere) succeeds_pure).sure

theorem sure_assemble (s : Assemble α) : Sure (assemble s) := (succeeds_assemble (K := nowhere) s).sure

theorem sure_modify (f : Draft → Draft) : Sure (modify f : Drafting PUnit) :=
  fun _ d => (draws_modify.2 rfl : Draws (modify f) d () (f d)).failsWith

theorem sure_ite {P : Prop} [Decidable P] {x' : Drafting α} (hx : Sure x) (hx' : Sure x') :
    Sure (if P then x else x') := by
  split
  · exact hx
  · exact hx'

theorem sure_typeOf {t : ValueType} (h : t.isValue = true) : Sure (typeOf t) :=
  (succeeds_typeOf (K := nowhere) h).sure

theorem sure_unsignedType (size : Nat) : Sure (unsignedType size) :=
  (succeeds_unsignedType (K := nowhere) size).sure

/-! ### The frame of a body -/

theorem sure_stageVariable (kind : ResourceClass) (name : String) (type : ValueType) (typeId : UInt32)
    (format : String) (place : Place) : Sure (stageVariable kind name type typeId format place) :=
  sure_bind (sure_assemble _) fun _ => sure_bind (sure_modify _) fun _ => sure_pure _

theorem sure_valueVariable (kind : ResourceClass) (name : String) {type : ValueType} (place : Place)
    (h : type.isValue = true) : Sure (valueVariable kind name type place) :=
  sure_bind (sure_typeOf h) fun _ => sure_stageVariable _ _ _ _ _ _

theorem sure_boundVariable (typeId : UInt32) (node : Nat) (r : Resource) :
    Sure (boundVariable typeId node r) :=
  sure_bind sure_get fun _ => sure_bind (sure_assemble _) fun _ => sure_bind (sure_modify _) fun _ =>
    sure_pure _

theorem sure_begin : Sure begin := by
  have hglobals : Sure declareGlobals := by
    refine sure_bind (sure_assemble _) fun _ => sure_bind (sure_assemble _) fun _ => ?_
    refine sure_bind (sure_assemble _) fun _ => sure_bind (sure_assemble _) fun _ => ?_
    refine sure_bind (sure_assemble _) fun _ => sure_bind (sure_assemble _) fun _ => ?_
    exact sure_bind (sure_assemble _) fun _ => sure_modify _
  exact sure_bind (sure_assemble _) fun _ => sure_bind (sure_modify _) fun _ => hglobals

theorem sure_beginMain : Sure beginMain :=
  sure_bind sure_get fun _ => sure_bind (sure_assemble _) fun _ => sure_modify _

theorem sure_endMain : Sure endMain := sure_bind sure_get fun _ => sure_assemble _

/-- **The vertex body** can always be drafted. -/
theorem sure_vertex : Sure vertex := by
  have hpassed : ∀ input, Sure (passed input) := fun input =>
    sure_bind (sure_valueVariable _ _ _ (isValue_of_input input)) fun _ =>
      sure_bind (sure_valueVariable _ _ _ (isValue_of_input input)) fun _ => sure_pure _
  have hglobal : ∀ m, Sure (loadGlobal m) := fun m => (succeeds_loadGlobal (K := nowhere) m).sure
  refine sure_bind sure_begin fun _ => sure_bind (sure_typeOf (by decide)) fun _ => ?_
  refine sure_bind (sure_typeOf (by decide)) fun _ => sure_bind (sure_typeOf (by decide)) fun _ => ?_
  refine sure_bind (hpassed _) fun _ => sure_bind (hpassed _) fun _ => sure_bind (hpassed _) fun _ => ?_
  refine sure_bind (sure_stageVariable _ _ _ _ _ _) fun _ => sure_bind sure_beginMain fun _ => ?_
  refine sure_bind (succeeds_one (K := nowhere)).sure fun _ =>
    sure_bind (succeeds_zero (K := nowhere)).sure fun _ => ?_
  refine sure_bind (hglobal _) fun _ => sure_bind (hglobal _) fun _ => ?_
  exact sure_bind (sure_assemble _) fun _ => sure_endMain

/-! ### Declarations -/

theorem sure_stageInput (input : StageInput) : Sure (stageInput input) :=
  sure_bind sure_get fun _ => sure_ite (sure_bind (sure_valueVariable _ _ _ (isValue_of_input input))
    fun _ => sure_modify _) (sure_pure _)

theorem sure_invocationId : Sure invocationId :=
  sure_bind sure_get fun _ => sure_ite (sure_bind (sure_unsignedType 3) fun _ =>
    sure_bind (sure_stageVariable _ _ _ _ _ _) fun _ => sure_modify _) (sure_pure _)

theorem sure_stageOutput (name : String) {type : ValueType} (location : Nat) (h : type.isValue = true) :
    Sure (stageOutput name type location) :=
  sure_bind (sure_valueVariable _ _ _ h) fun _ => sure_modify _

theorem sure_sampledField (i : Nat) (out : PortId) (name : String) (dim : Int) (format : String) :
    Sure (sampledField i out name dim format) := by
  have hfield : Sure (do
      let imageType ← assemble do
        Assemble.typeImage (← Assemble.typeFloat 32) (Dim.ofCount dim) 1 ImageFormat.unknown
      let image ← boundVariable imageType i { name, kind := .sampledImage, dim, format }
      let samplerType ← assemble Assemble.typeSampler
      let sampler ← boundVariable samplerType i { name := name ++ "_sampler", kind := .sampler }
      modify fun d => { d with fields := (out, { image, sampler, imageType, dim }) :: d.fields }) :=
    sure_bind (sure_assemble _) fun _ => sure_bind (sure_boundVariable _ _ _) fun _ =>
      sure_bind (sure_assemble _) fun _ => sure_bind (sure_boundVariable _ _ _) fun _ => sure_modify _
  refine sure_bind sure_get fun _ => sure_ite ?_ (sure_pure _)
  exact sure_ite (sure_bind (sure_assemble _) fun _ => hfield) hfield

theorem sure_storageField (i : Nat) (n : Node) (dim : Int) : Sure (storageField i n dim) :=
  sure_bind (sure_assemble _) fun _ => sure_bind (sure_boundVariable _ _ _) fun _ =>
    sure_bind (sure_assemble _) fun _ => sure_modify _

theorem sure_isFragment : Sure isFragment := sure_bind sure_get fun _ => sure_pure _

theorem sure_implicitCoordinate (dim : Int) : Sure (implicitCoordinate dim) :=
  sure_bind sure_isFragment fun _ => sure_ite sure_invocationId
    (sure_ite (sure_stageInput _) (sure_stageInput _))

variable {p : StagePlan} {i : Nat} {n root : Node} {l : List Nat}

/-- A failure that tells of a node without code. -/
theorem tells_unsupported (hi : i ∈ p.order) (hn : p.graph.nodes[i]? = some n) (h : p.Codeless i n)
    (reason : String) : FailsWith p.Tells (unsupported n reason : Drafting α) d :=
  failsWith_throw ⟨i, hi, n, hn, h, rfl⟩

theorem failsWith_some_bind {a : β} {f : β → Drafting α} :
    FailsWith E (demand (some a) >>= f) d ↔ FailsWith E (f a) d := Iff.rfl

theorem failsWith_isFragment_bind {f : Bool → Drafting α} :
    FailsWith E (isFragment >>= f) d ↔ FailsWith E (f (decide (d.model = .fragment))) d := Iff.rfl

/-- **Declaring a node** fails if the node has no code only. -/
theorem declareNode_fails (hp : p.Planned) (hi : i ∈ p.order) (hn : p.graph.nodes[i]? = some n)
    (hroot : p.graph.nodes[p.root]? = some root)
    (hmodel : d.model ≠ .fragment → root.kind.stage = .compute) :
    FailsWith p.Tells (declareNode p i) d := by
  have htells : ∀ (reason : String) (d : Draft), p.Codeless i n →
      FailsWith p.Tells (unsupported n reason : Drafting Unit) d :=
    fun reason d h => tells_unsupported hi hn h reason
  have hsure : ∀ {x : Drafting Unit}, Sure x → FailsWith p.Tells x d := fun h => h _ _
  have hinput : n.kind = .normal ∨ n.kind = .texCoord → ∀ (reason : String) {x : Drafting Unit},
      Sure x → FailsWith p.Tells (isFragment >>= fun b => if !b then unsupported n reason else x) d := by
    intro hk reason x hx
    rw [failsWith_isFragment_bind]
    split
    · rename_i hm
      exact htells _ _ (.input hk hroot (hmodel (by simpa using hm)))
    · exact hsure hx
  rw [declareNode, hn, failsWith_some_bind]
  cases hp.typed.fits hp.consistent hn with
  | texture hk hparams hin hout =>
    simp only [hk, hparams, hout]
    exact hsure (sure_sampledField _ _ _ _ _)
  | computeField hk hparams hin hout =>
    simp only [hk, hparams, hout]
    exact hsure (sure_ite (sure_bind (sure_storageField _ _ _) fun _ => sure_invocationId)
      (sure_bind (sure_sampledField _ _ _ _ _) fun _ => sure_modify _))
  | position hk =>
    simp only [hk]
    exact hsure (sure_bind sure_isFragment fun _ => sure_ite (sure_stageInput _) sure_invocationId)
  | normal hk =>
    simp only [hk]
    exact hinput (.inl hk) _ (sure_stageInput _)
  | texCoord hk =>
    simp only [hk]
    exact hinput (.inr hk) _ (sure_stageInput _)
  | @sample f q out hk hin hout htf =>
    simp only [hk, hin]
    obtain ⟨port, hport, -⟩ := hp.consistent.input_port hn (show q ∈ n.inputs by rw [hin]; simp)
    have hrest : Sure (do
        let port ← demand (p.graph.port? q)
        if !port.isConnected then implicitCoordinate (p.typeOf f).size) := by
      rw [hport]
      exact sure_ite (sure_implicitCoordinate _) (sure_pure _)
    split
    · rename_i h2
      have hcodeless : p.Codeless i n := .sample hk hin (ValueType.eq_texture1D htf h2)
      exact failsWith_bind (htells _ _ hcodeless) fun _ _ h => absurd h not_draws_unsupported
    · exact hsure hrest
  | previewOutput hk =>
    simp only [hk]
    exact hsure (sure_stageOutput _ _ (by decide))
  | materialOutput hk =>
    simp only [hk]
    exact hsure (sure_bind (sure_stageOutput _ _ (by decide)) fun _ =>
      sure_bind (sure_stageOutput _ _ (by decide)) fun _ => sure_stageOutput _ _ (by decide))
  | arithmetic hop =>
    cases hk : n.kind <;> rw [hk] at hop <;> cases hop
    all_goals exact hsure (sure_pure _)
  | constant hk | time hk | length hk | dot hk | compare hk | conditional hk | swizzle hk
  | combine hk | separate hk | mathExpression hk =>
    simp only [hk]
    exact hsure (sure_pure _)

variable [NameLimit] {I : Interpretation} {Γ : Context I} {P : List UInt32} {q out : PortId}
  {label merge : UInt32}

/-- **The declarations of a stage** fail at nodes without code only. -/
theorem declareNodes_fails (hp : p.Planned) (hnames : p.graph.NamesFit) (hl : ∀ i ∈ l, i ∈ p.order)
    (hroot : p.graph.nodes[p.root]? = some root) (hs : d.Sound P) (hf : d.Furnished p) (hc : d.Counted)
    (hmodel : d.model ≠ .fragment → root.kind.stage = .compute) :
    FailsWith p.Tells (l.forM (declareNode p)) d := by
  induction l generalizing d with
  | nil => exact sure_pure () _ _
  | cons i l ih =>
    rw [List.forall_mem_cons] at hl
    obtain ⟨n, hn⟩ := Labels.exists_node ((hp.mem_order i).1 hl.1)
    rw [List.forM_eq_forM, List.forM_cons]
    refine failsWith_bind (declareNode_fails hp hl.1 hn hroot hmodel) fun _ e h => ?_
    obtain ⟨hd, -⟩ := declareNode_spec hp hnames hn hs hf hc h
    exact ih hl.2 (hd.sound P hs) hd.furnished hd.counted (by rw [hd.model]; exact hmodel)

/-! ### The code of conditionals -/

omit [NameLimit] in
theorem sure_operand (hv : (p.typeOf q).isValue = true) : Sure (operand p q) :=
  (succeeds_operand (K := nowhere) (fun _ _ h => h) hv).sure

/-- **A step that tells what goes wrong**: it writes a list of nodes whenever the list waits for it, or
fails at a node without code. -/
structure Reports (I : Interpretation) (p : StagePlan) (step : Drafting Unit) (l : List Nat) : Prop where
  handles : Handles I p step l
  fails : ∀ (d : Draft) (Γ : Context I) (P : List UInt32), d.Sound P → d.Awaits p Γ l →
    FailsWith p.Tells step d

theorem writeArm_fails {step : Drafting Unit} (hstep : Reports I p step l)
    (hv : (p.typeOf q).isValue = true) (hs : d.Sound (label :: P)) (haw : d.Awaits p Γ l) :
    FailsWith p.Tells (writeArm p step label merge q) d := by
  refine failsWith_bind ((succeeds_openBlock (K := nowhere) label).sure _ _) fun _ e h => ?_
  obtain ⟨g, hvalues, -, -, hs'⟩ := openBlock_spec h
  refine failsWith_bind (hstep.fails e Γ P (hs' P hs) (haw.still g hvalues)) fun _ _ _ => ?_
  exact sure_bind (sure_operand hv) (fun _ => sure_bind sure_get fun _ =>
    sure_bind (sure_assemble _) fun _ => sure_pure _) _ _

section Conditional

variable {arm : Nat → Drafting Unit} {c a b : PortId} (hp : p.Planned) (hl : p.Listing (i :: l))
  (hn : p.graph.nodes[i]? = some n) (hk : n.kind = .conditional) (hin : n.inputs = [c, a, b])
  (hc : (p.graph.port? c).map (·.arm) = some (-1))
  (ha : (p.graph.port? a).map (·.arm) = some 0) (hb : (p.graph.port? b).map (·.arm) = some 1)
  (htc : p.typeOf c = .bool) (hta : p.typeOf a = p.typeOf out) (htb : p.typeOf b = p.typeOf out)
  (ht : (p.typeOf out).isNumeric = true)
  (harm : ∀ k : Nat, k < 2 → Reports I p (arm k) (p.members (some ⟨i, k⟩)))
  (hs : d.Sound P) (haw : d.Awaits p Γ (i :: l))
include hp hl hn hk hin hc ha htc hta htb ht harm hs haw

/-- A conditional that chooses at run time fails where one of its arms does. -/
theorem writeChoice_fails (hlive : p.labels.liveArm i = none) :
    FailsWith p.Tells (writeChoice p arm i c a b out) d := by
  have hvalue : (p.typeOf out).isValue = true := ValueType.isValue_of_isNumeric ht
  have hav : (p.typeOf a).isValue = true := by rw [hta]; exact hvalue
  have hbv : (p.typeOf b).isValue = true := by rw [htb]; exact hvalue
  refine failsWith_bind (sure_operand (by rw [htc]; rfl) _ _) fun x d₁ h₁ => ?_
  refine failsWith_bind (sure_assemble _ _ _) fun r d₂ h₂ => ?_
  obtain ⟨hs₂, haw₂, -⟩ := awaits_openChoice hp hl hn hk hin hc htc hlive hs haw h₁ h₂
  refine failsWith_bind (writeArm_fails (harm 0 (by decide)) hav hs₂ (haw₂.arm hp hl 0)) fun _ d₃ h₃ => ?_
  obtain ⟨hs₃, haw₃, -⟩ := awaits_writeArm hp hl hn hk hin ha hav hlive (harm 0 (by decide)).handles hs₂
    haw₂ h₃
  refine failsWith_bind (writeArm_fails (harm 1 (by decide)) hbv hs₃ haw₃) fun _ _ _ => ?_
  -- where the arms meet
  refine sure_bind (succeeds_openBlock (K := nowhere) _).sure (fun _ => ?_) _ _
  exact sure_bind (sure_typeOf hvalue) fun _ => (succeeds_define (K := nowhere) nowhere_imp i _ _ _).sure

include hb

/-- **A conditional** fails where one of its arms does. -/
theorem writeConditional_fails (hout : n.outputs = [out]) :
    FailsWith p.Tells (writeConditional p arm i n out) d := by
  cases hlive : p.labels.liveArm i with
  | none =>
    rw [writeConditional_choice hin hc ha hb hlive]
    exact writeChoice_fails hp hl hn hk hin hc ha htc hta htb ht harm hs haw hlive
  | some live =>
    obtain ⟨hcases, -⟩ := hp.live_arm (I := I) d.fragment hn hin htc hlive
    rw [writeConditional_live hin hc ha hb hlive hcases rfl]
    have hmem : out ∈ n.outputs := by rw [hout]; exact List.mem_singleton_self _
    -- the arm that is taken is needed
    have hneeds : ∀ {q : PortId}, q ∈ n.inputs → (p.graph.port? q).map (·.arm) = some live →
        Clear p (· ∈ n.outputs) q := by
      intro q hq hport
      obtain ⟨port, hport, harm⟩ := Option.map_eq_some_iff.1 hport
      exact hp.clear (hl.mem i List.mem_cons_self) hn (isForeignRoot_conditional hn hk) hq hport
        (by rw [Labels.needs, hlive, harm]; simp)
    have hclear : Clear p (· ∈ n.outputs) (if live = 0 then a else b) := by
      rcases hcases with rfl | rfl
      · exact hneeds (by rw [hin]; simp) ha
      · exact hneeds (by rw [hin]; simp) hb
    have hv : (p.typeOf (if live = 0 then a else b)).isValue = true := by
      split
      · rw [hta]
        exact ValueType.isValue_of_isNumeric ht
      · rw [htb]
        exact ValueType.isValue_of_isNumeric ht
    exact (succeeds_bind (succeeds_operand hclear hv) fun x =>
      succeeds_bindTo (n := n) hmem nowhere_imp x).failsWith fun o ho =>
        haw.fresh i List.mem_cons_self o (.self hn ho)

end Conditional

/-! ### The code of nodes -/

omit [NameLimit] in
/-- **The field of a sample** was declared by the node that it comes from: a texture, or the field of
another stage, since the root comes last. -/
theorem sampled_field (hp : p.Planned) (hi : i ∈ p.order) (hn : p.graph.nodes[i]? = some n)
    (hk : n.kind = .sample) (hin : n.inputs = [q, out]) (ht : (p.typeOf q).isTexture = true)
    (hwired : (p.graph.producer? q).isSome)
    (hserves : ∀ i ∈ p.order, ∃ n, p.graph.nodes[i]? = some n ∧ d.Serves p i n) :
    ∃ field, (p.graph.producer? q).bind (d.fields.lookup ·) = some field := by
  obtain ⟨o, ho⟩ := Option.isSome_iff_exists.1 hwired
  obtain ⟨port, _, _, j, m, hport, -, -, -, -, -, -, -, -, hm, hom, hj⟩ := hp.consistent.producer?_some ho
  have hq : q ∈ n.inputs := by rw [hin]; exact List.mem_cons_self
  have hforeign := isForeignRoot_eq_false hn (.inl (by rw [hk]; rfl))
  have hf : ⟨j, port.arm⟩ ∈ p.labels.feeds i := Labels.mem_feeds.2 ⟨n, q, port, hn, hforeign, hq, hj,
    hport, rfl, Labels.needs_ordinary hn (by rw [hk]; decide) _⟩
  obtain ⟨hmem, hlt⟩ := hp.before i hi _ hf
  have hne : j ≠ p.root := by
    rintro rfl
    exact absurd (hp.rank_le_root hi) (Nat.not_le.2 hlt)
  obtain ⟨m', hm', hserve⟩ := hserves j hmem
  rw [hm] at hm'
  cases hm'
  have hto : (p.typeOf o).isTexture = true := by rw [Draft.typeOf_producer hp ho]; exact ht
  have hdeclared : ∃ field, (o, field) ∈ d.fields := by
    rcases (hp.typed.fits hp.consistent hm).gives_field hom hto with hk | hk
    · exact hserve.texture hk o hom
    · exact hserve.boundary hk hne o hom
  obtain ⟨field, hfield⟩ := hdeclared
  rw [ho, Option.bind_some]
  exact isSome_lookup hfield

/-- **The code of a node** fails if the node has no code only, or where one of its arms does. -/
theorem writeNode_fails {arm : Nat → Drafting Unit} (hp : p.Planned)
    (hcomplete : p.labels.Complete) (hl : p.Listing (i :: l))
    (hn : p.graph.nodes[i]? = some n)
    (harm : n.kind = .conditional → ∀ k : Nat, k < 2 → Reports I p (arm k) (p.members (some ⟨i, k⟩)))
    (hs : d.Sound P) (ha : d.Awaits p Γ (i :: l)) : FailsWith p.Tells (writeNode p arm i n) d := by
  have hi := hl.mem i List.mem_cons_self
  have hfresh : ∀ out ∈ n.outputs, d.values.lookup out = none := fun out ho =>
    ha.fresh i List.mem_cons_self out (.self hn ho)
  -- steps that succeed, for a node with one output port
  have hone : ∀ {out : PortId} {x : Drafting Unit}, n.outputs = [out] →
      Succeeds (· = out) nowhere x → FailsWith p.Tells x d := by
    intro out x hout hx
    refine hx.failsWith fun o ho => hfresh o ?_
    rw [hout, List.mem_singleton]
    exact ho
  have hclear : ∀ {out : PortId}, n.outputs = [out] → n.kind ≠ .conditional →
      n.kind.isRoot = false ∨ i = p.root → ∀ q ∈ n.inputs, Clear p (· = out) q := by
    intro out hout hk hr q hq o ho heq
    refine hp.clear_all hi hn hk hr q hq o ho ?_
    show o ∈ n.outputs
    rw [hout, List.mem_singleton]
    exact heq
  cases hp.typed.fits hp.consistent hn with
  | arithmetic hop hout hlen htypes hadm =>
    simp only [writeNode, hop, hout]
    obtain ⟨-, hk, hr⟩ := ordinary_of_operation hop
    exact hone hout (succeeds_writeArithmetic (hclear hout hk (.inl hr)) htypes hadm i)
  | constant hk hparams hout ht hv =>
    simp only [writeNode, hk, NodeKind.operation?, hout, hparams]
    refine hone hout (succeeds_bind (succeeds_constant (by rw [← ht]; exact hv) _) fun _ => ?_)
    exact succeeds_bind (succeeds_bound n _) fun _ => succeeds_known _ _
  | texture hk =>
    simp only [writeNode, hk, NodeKind.operation?]
    exact sure_pure () _ _
  | time hk hout =>
    simp only [writeNode, hk, NodeKind.operation?, hout]
    exact hone hout (succeeds_bind (succeeds_loadGlobal _) fun _ =>
      succeeds_bind (succeeds_credit i _) fun _ => succeeds_bound n _)
  | position hk hout =>
    simp only [writeNode, hk, NodeKind.operation?, hout]
    exact hone hout (succeeds_bind succeeds_isFragment fun _ => succeeds_ite
      (fun _ => succeeds_defineInput i _) fun _ =>
        succeeds_bind (succeeds_texelCoordinate i 3) fun _ => succeeds_bound n _)
  | normal hk hout =>
    simp only [writeNode, hk, NodeKind.operation?, hout]
    exact hone hout (succeeds_defineInput i _)
  | texCoord hk hout =>
    simp only [writeNode, hk, NodeKind.operation?, hout]
    exact hone hout (succeeds_defineInput i _)
  | length hk hin hout ht ht' =>
    simp only [writeNode, hk, NodeKind.operation?, hin, hout]
    have hc := hclear hout (by rw [hk]; decide) (.inl (by rw [hk]; rfl)) _
      (by rw [hin]; exact List.mem_cons_self)
    have hv := ValueType.isValue_of_isFloating ht
    refine hone hout (succeeds_bind (succeeds_typeOf ?_) fun _ =>
      succeeds_bind (succeeds_operand hc hv) fun _ => succeeds_get_bind fun _ => succeeds_defined i _ _ _)
    rw [ht']
    exact ValueType.isValue_scalar hv
  | dot hk hin hout hta htb ht =>
    simp only [writeNode, hk, NodeKind.operation?, hin, hout]
    have hc := hclear hout (by rw [hk]; decide) (.inl (by rw [hk]; rfl))
    rw [hin] at hc
    have hv := ValueType.isValue_of_isFloating hta
    refine hone hout (succeeds_bind (succeeds_operand (hc _ (by simp)) hv) fun _ =>
      succeeds_bind (succeeds_operand (hc _ (by simp)) (by rw [htb]; exact hv)) fun _ =>
        succeeds_bind (succeeds_typeOf ?_) fun _ => succeeds_defined i _ _ _)
    rw [ht]
    exact ValueType.isValue_scalar hv
  | @compare test a b out hk hparams hin hout hta htb =>
    simp only [writeNode, hk, NodeKind.operation?, hin, hout]
    have hv : (p.typeOf a).isValue = true := by
      have hall : ∀ t ∈ [ValueType.float, .half, .int], t.isValue = true := by decide
      exact hall _ hta
    by_cases htest : ∃ code, test = .unknown code
    · obtain ⟨code, rfl⟩ := htest
      rw [writeCompare, hparams]
      exact tells_unsupported hi hn (.compare hk hparams) _
    · exact hone hout (succeeds_writeCompare (hclear hout (by rw [hk]; decide) (.inl (by rw [hk]; rfl)))
        hparams (fun code h => htest ⟨code, h⟩) hin hv (by rw [htb]; exact hv))
  | conditional hk hin hout hc hpa hpb htc hta htb ht =>
    simp only [writeNode, hk, NodeKind.operation?, hout]
    exact writeConditional_fails hp hl hn hk hin hc hpa hpb htc hta htb ht (harm hk) hs ha hout
  | swizzle hk hparams hks hin hout hta hlt ht h1 h4 =>
    simp only [writeNode, hk, NodeKind.operation?, hin, hout]
    refine hone hout (succeeds_writeSwizzle (hclear hout (by rw [hk]; decide) (.inl (by rw [hk]; rfl)))
      hparams (by rw [hin]; exact List.mem_cons_self) (ValueType.isValue_of_isNumeric hta) ?_)
    rw [ht]
    exact ValueType.isValue_of_isNumeric (ValueType.withSize_shape hta h1 h4).1
  | combine hk hout hvec htypes =>
    simp only [writeNode, hk, NodeKind.operation?, hout]
    have hc := hclear hout (by rw [hk]; decide) (.inl (by rw [hk]; rfl))
    exact hone hout (succeeds_bind (succeeds_mapM fun q hq =>
      succeeds_operand (hc q hq) (ValueType.isValue_of_isNumeric (htypes q hq).1)) fun _ =>
        succeeds_bind (succeeds_typeOf (ValueType.isValue_of_isVector hvec)) fun _ =>
          succeeds_defined i _ _ _)
  | separate hk hin hta hports =>
    simp only [writeNode, hk, NodeKind.operation?, hin]
    have hv := ValueType.isValue_of_isNumeric hta
    have hc := hp.clear_all hi hn (by rw [hk]; decide) (.inl (by rw [hk]; rfl)) _
      (by rw [hin]; exact List.mem_cons_self)
    refine (succeeds_writeSeparate hp hn hc hv fun o ho => ?_).failsWith hfresh
    obtain ⟨k, hk⟩ := List.getElem?_of_mem ho
    rw [(hports k o hk).1]
    exact ValueType.isValue_scalar hv
  | mathExpression hk hparams hout ht htypes =>
    simp only [writeNode, hk, NodeKind.operation?, hout]
    have hforeign := isForeignRoot_eq_false hn (.inl (by rw [hk]; rfl))
    obtain ⟨e, he⟩ := hcomplete.readable i ((hp.mem_order i).1 hi) hforeign n hn hk _ _ hparams
    exact hone hout (succeeds_writeExpression (hclear hout (by rw [hk]; decide) (.inl (by rw [hk]; rfl)))
      hp hn hk hparams ht htypes he)
  | @sample f q out hk hin hout htf htq =>
    simp only [writeNode, hk, NodeKind.operation?, hin, hout]
    have hf : f ∈ n.inputs := by rw [hin]; exact List.mem_cons_self
    have hq : q ∈ n.inputs := by rw [hin]; simp
    have hforeign := isForeignRoot_eq_false hn (.inl (by rw [hk]; rfl))
    obtain ⟨port, hport, hdir, -⟩ := hp.consistent.input_port hn hf
    obtain ⟨port', hport', -⟩ := hp.consistent.input_port hn hq
    have hwired := hcomplete.wired i ((hp.mem_order i).1 hi) hforeign n hn f hf port hport
      (hp.consistent.field_required hn hk hin hport)
    rw [← hp.consistent.producer?_isSome hport hdir] at hwired
    obtain ⟨field, hfield⟩ := sampled_field hp hi hn hk hin htf hwired ha.serves
    have hc := hclear hout (by rw [hk]; decide) (.inl (by rw [hk]; rfl)) q hq
    obtain ⟨u, e, h⟩ := writeSample_succeeds (i := i) (n := n) hfield hport' hc
      (ValueType.isValue_of_isFloating (ValueType.isFloating_of_isFloat htq))
      (hfresh _ (by rw [hout]; exact List.mem_singleton_self _))
    exact h.failsWith
  | computeField hk hparams hin hout h1 h3 hv =>
    simp only [writeNode, hk, NodeKind.operation?, hin]
    by_cases hroot : i = p.root
    · obtain ⟨m, hm, hserves⟩ := ha.serves i hi
      rw [hn] at hm
      cases hm
      rw [if_pos hroot]
      obtain ⟨u, e, h⟩ := writeField_succeeds (p := p) (i := i) (hserves.field hk hroot).2
        (fun _ _ h => h) (ValueType.isValue_of_isFloating (ValueType.isFloating_of_isFloat hv))
      exact h.failsWith
    · rw [if_neg hroot]
      exact sure_pure () _ _
  | previewOutput hk hin hout ht =>
    simp only [writeNode, hk, NodeKind.operation?, hin]
    have hv := ValueType.isValue_of_isFloating (ValueType.isFloating_of_isFloat ht)
    exact sure_bind (sure_operand hv) (fun _ => (succeeds_bind (K := nowhere)
      (succeeds_toFloat4 i _ _) fun _ => succeeds_store _ _).sure) _ _
  | materialOutput hk hin hout hc hr hm htc htr htm =>
    simp only [writeNode, hk, NodeKind.operation?]
    refine (succeeds_writeMaterial (K := nowhere) hin hc hr hm (fun _ _ _ _ h => h) ?_).sure _ _
    rw [hin, List.forall_mem_cons, List.forall_mem_cons, List.forall_mem_singleton, htc, htr, htm]
    decide

/-! ### Lists of nodes -/

omit [NameLimit] in
/-- The code of a node, when the node is there. -/
theorem failsWith_writeAt {depth : Nat} (hn : p.graph.nodes[i]? = some n) :
    FailsWith E (writeAt p depth i) d ↔
      FailsWith E (writeNode p (fun arm => writeNodes p depth (p.region.armNodes i arm)) i n) d := by
  rw [writeAt, hn, failsWith_some_bind]

/-- **Lists of nodes** fail at nodes without code only, if arms may nest as deep as they can below a rank:
by induction on that depth, and for each on the list. -/
theorem writeNodes_fails (hp : p.Planned) (hsized : p.Sized) (hcomplete : p.labels.Complete)
    (hopen : ∀ i ∈ p.order, p.labels.isBranching i = true → i ∈ p.region.arms.map (·.1)) {depth r : Nat}
    (hl : p.Listing l) (hr : ∀ i ∈ l, p.rank i < r) (hdepth : p.beneath r < depth) :
    Reports I p (writeNodes p depth l) l := by
  refine ⟨writeNodes_handles hp hsized hl, ?_⟩
  induction depth generalizing l r with
  | zero => exact absurd hdepth (Nat.not_lt_zero _)
  | succ depth ih =>
    show ∀ (d : Draft) (Γ : Context I) (P : List UInt32), d.Sound P → d.Awaits p Γ l →
      FailsWith p.Tells (l.forM (writeAt p depth)) d
    induction l with
    | nil => exact fun d _ _ _ _ => sure_pure () _ d
    | cons i l ihl =>
      intro d Γ P hs ha
      have hi := hl.mem i List.mem_cons_self
      obtain ⟨n, hn⟩ := Labels.exists_node ((hp.mem_order i).1 hi)
      rw [List.forall_mem_cons] at hr
      -- the arms of a conditional may nest less deep, since the conditional itself is open
      have harm : n.kind = .conditional → ∀ k : Nat, k < 2 →
          Reports I p (writeNodes p depth (p.region.armNodes i k)) (p.members (some ⟨i, k⟩)) := by
        intro hk k hlt
        rw [armNodes_conditional hp hi hn hk hlt]
        have hmembers := StagePlan.Listing.members hp (some ⟨i, k⟩)
        have hbranching : p.labels.isBranching i = true := by
          rw [Labels.isBranching, show p.labels.node? i = some n from hn, Option.map_some, hk]
          rfl
        have hless : p.beneath (p.rank i) < p.beneath r :=
          StagePlan.beneath_lt (hopen i hi hbranching) hr.1
        exact ⟨writeNodes_handles hp hsized hmembers, ih (r := p.rank i) hmembers (fun j hj =>
          (hp.home_before (StagePlan.Planned.mem_members.1 hj).2).2.2) (by omega)⟩
      rw [List.forM_eq_forM, List.forM_cons]
      refine failsWith_bind ((failsWith_writeAt hn).2
        (writeNode_fails hp hcomplete hl hn harm hs ha)) fun _ e h => ?_
      obtain ⟨_, _, _, _, _, -, w, -⟩ := writeAt_spec hp hsized
        (fun _ => writeNodes_handles hp hsized) hl hs ha h
      exact ihl hl.tail hr.2 e _ P (w.emits.sound P hs) (ha.next hp hl w)

/-! ### The body -/

/-- **The body of a stage** fails at nodes without code only. -/
theorem stageBody_fails {model : ExecutionModel} {mode : UInt32} {params : List UInt32}
    (I : Interpretation) (hp : p.Planned) (hnames : p.graph.NamesFit) (hcomplete : p.labels.Complete)
    (hopen : ∀ i ∈ p.order, p.labels.isBranching i = true → i ∈ p.region.arms.map (·.1))
    (hroot : p.graph.nodes[p.root]? = some root) (he : root.execution = .ok (model, mode, params)) :
    FailsWith p.Tells (stageBody p mode params) (Draft.new model) := by
  have hsized := StagePlan.sized_of_execution hroot he
  refine failsWith_bind (sure_begin _ _) fun _ d₁ h₁ => ?_
  obtain ⟨hs, hf, hc, -, hmodel, -⟩ := begin_furnished (p := p) h₁
  refine failsWith_bind (declareNodes_fails hp hnames (fun _ hi => hi) hroot hs hf hc fun hm =>
    ((Node.stage_of_execution he).resolve_left fun h => hm (hmodel.trans h.2)).1) fun _ d₂ h₂ => ?_
  refine failsWith_bind (sure_beginMain _ _) fun _ o h₃ => ?_
  have ho : Draws (opening p) (Draft.new model) () o :=
    draws_bind.2 ⟨_, d₁, h₁, draws_bind.2 ⟨_, d₂, h₂, h₃⟩⟩
  obtain ⟨_, _, opened⟩ := opening_spec hp hnames ho
  have hshared : Reports I p (writeNodes p (p.region.arms.length + 1) p.region.shared)
      (p.members none) := by
    rw [hp.shared]
    exact writeNodes_fails hp hsized hcomplete hopen (r := p.order.length) (.members hp none)
      (fun i hi => List.idxOf_lt_length_of_mem (StagePlan.Planned.mem_members.1 hi).1)
      (Nat.lt_succ_of_le (p.beneath_le _))
  refine failsWith_bind (hshared.fails o [] [] opened.sound
    (awaits_shared opened.furnished opened.values opened.serves)) fun _ _ _ => ?_
  exact sure_bind sure_endMain (fun _ => sure_bind sure_get fun _ => sure_assemble _) _ _

end Drafting

end NodeShader
