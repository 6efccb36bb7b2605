import NodeShader.Proofs.Stage.Planned
import NodeShader.Proofs.Stage.Variables
import NodeShader.Stage.Write

/-!
# What code relies on

Before code is written, a draft has declared the block of global values and whatever the nodes of the
stage need.  `Draft.Furnished` says what the code may rely on: every variable that the draft remembers
is one of the module, with the type it is used at, and is listed as a resource.

* `Furnished.mono`: code leaves it as it is.
* `Declares.registered`: a variable that was declared is one more resource.
* `begin_spec`: a body begins with the instruction set and the global values.
-/

namespace NodeShader

open Spirv

/-- The type of the texel of the current invocation. -/
def invocationType : Ty := .vector (.int 32 false) 3

/-- The type of a matrix of the block of global values. -/
def matrixType : Ty := .matrix (.vector (.float 32) 4) 4

/-- The types of the members of the block of global values. -/
def memberTypes : List Ty := [matrixType, matrixType, .vector (.float 32) 3, .float 32]

/-- The type of an output of a fragment body. -/
def outputType (name : String) : ValueType :=
  if name = "roughness" then .float else if name = "emission" then .float3 else .float4

/-- A draft without what is added to it step by step, and without what it remembers of its
variables. -/
def Draft.core (d : Draft) : Draft :=
  { d with
    builder := .new .current, interface := [], resources := [], nextSlot := 0, origins := [],
    fields := [], inputs := [], outputs := [], invocation := none, storage := none,
    dependencies := [] }

/-- What a draft remembers of its variables. -/
def Draft.memory (d : Draft) : Draft :=
  { d.frame with
    builder := .new .current, interface := [], resources := [], nextSlot := 0, dependencies := [] }

/-- The variables of a field that is sampled, at its output port. -/
structure Draft.Samples (d : Draft) (p : StagePlan) (out : PortId) (f : FieldVariables) : Prop where
  dim : 1 ≤ f.dim ∧ f.dim ≤ 3
  typed : p.typeOf out = ValueType.texture1D.withSize f.dim
  output : ∃ (j : Nat) (n : Node), p.graph.nodes[j]? = some n ∧ out ∈ n.outputs
  imageType : TypeAt d.decls f.imageType (sampledType f.dim)
  listed : ∃ j image sampler, p.graph.ownerPosition? out = some j ∧
    d.Listed f.image StorageClass.uniformConstant (sampledType f.dim) image ∧
    image.kind = .sampledImage ∧ image.node = some j ∧
    d.Listed f.sampler StorageClass.uniformConstant .sampler sampler ∧
    sampler.kind = .sampler ∧ sampler.node = some j

/-- The variable of the field that is written. -/
structure Draft.Stores (d : Draft) (p : StagePlan) (f : FieldVariables) : Prop where
  imageType : TypeAt d.decls f.imageType (storageType f.dim)
  listed : ∃ r, d.Listed f.image StorageClass.uniformConstant (storageType f.dim) r ∧
    r.kind = .storageImage ∧ r.node = some p.root
  dim : ∃ n resolution, p.graph.nodes[p.root]? = some n ∧ n.params = .field f.dim resolution

/-- The block of global values. -/
structure Draft.HasGlobals (d : Draft) : Prop where
  listed : ∃ id r ms, d.Listed d.globals StorageClass.uniform (.struct id) r ∧
    r.kind = .uniformBuffer ∧ ⟨.typeStruct, id :: ms⟩ ∈ d.decls ∧
    List.Forall₂ (TypeAt d.decls) ms memberTypes

/-- A resource with the declaration and the annotations of its variable. -/
def Draft.Catalogues (d : Draft) (r : Resource) (l : List Instruction) : Prop :=
  ∃ t storage ty decs, TypeAt d.decls t (.pointer storage ty) ∧ r.Holding storage ty ∧
    r.Placing decs ∧ l = Drafting.placingsOf t r.variable_ storage decs

/-- **Resources are the variables of the module**, in order, and those that are bound have one slot
after the other. -/
structure Draft.Catalogued (d : Draft) : Prop where
  placings : ∃ ls, d.builder.placings = ls.flatten ∧ List.Forall₂ d.Catalogues d.resources ls
  slots : (d.resources.filter (·.kind.isBound)).map (·.slot) = List.range d.nextSlot

/-- What all bodies have: the instruction set, the global values, and resources that are variables of
the module, each of its own. -/
structure Draft.Registered (d : Draft) : Prop where
  extended : (Section.imports, ⟨.extInstImport,
    d.extended :: nameWords (Text.bytes extendedSet)⟩) ∈ d.builder.entries.toList
  globals : d.HasGlobals
  listed : ∀ r ∈ d.resources, ∃ s ty, d.Listed r.variable_ s ty r
  distinct : (d.resources.map (·.variable_)).Sublist d.builder.results
  interface : ∀ v ∈ d.interface, v ∈ d.builder.results
  catalogued : d.Catalogued

/-- The variable of an input of the fragment body. -/
def Draft.InputAt (d : Draft) (input : StageInput) (v : UInt32) : Prop :=
  ∃ r, d.Listed v StorageClass.input input.type.shape r ∧ r.kind = .stageInput ∧ r.builtIn = "" ∧
    r.name = input.name

/-- The variable of the texel of the current invocation. -/
def Draft.TexelAt (d : Draft) (v : UInt32) : Prop :=
  ∃ r, d.Listed v StorageClass.input invocationType r ∧ r.kind = .stageInput ∧ r.builtIn ≠ ""

/-- The variable of an output of the fragment body. -/
def Draft.OutputAt (d : Draft) (name : String) (v : UInt32) : Prop :=
  ∃ r, d.Listed v StorageClass.output (outputType name).shape r ∧ r.kind = .stageOutput ∧
    r.name = name

/-- **What the code of a stage may rely on.** -/
structure Draft.Furnished (d : Draft) (p : StagePlan) : Prop where
  registered : d.Registered
  inputs : ∀ e ∈ d.inputs, d.InputAt e.1 e.2
  invocation : ∀ v, d.invocation = some v → d.TexelAt v
  outputs : ∀ e ∈ d.outputs, d.OutputAt e.1 e.2
  fields : ∀ e ∈ d.fields, d.Samples p e.1 e.2
  storage : ∀ f, d.storage = some f → d.Stores p f

/-- The interface is what was remembered of it, and so are the outputs, the images and the samplers among
the resources. -/
structure Draft.Counted (d : Draft) : Prop where
  keys : (d.inputs.map (·.1)).Nodup
  stored : ∀ r ∈ d.resources, r.kind = .stageOutput → (r.name, r.variable_) ∈ d.outputs
  length : d.interface.length =
    d.inputs.length + d.outputs.length + (if d.invocation.isSome then 1 else 0)
  fields : (d.fields.map (·.1)).Nodup
  images : ∀ r ∈ d.resources, r.kind = .sampledImage → ∃ e ∈ d.fields, e.2.image = r.variable_
  samplers : ∀ r ∈ d.resources, r.kind = .sampler → ∃ e ∈ d.fields, e.2.sampler = r.variable_

/-- More instructions and resources. -/
structure Draft.Wider (d d' : Draft) : Prop where
  entries : d.builder.entries.toList.Sublist d'.builder.entries.toList
  resources : d.resources ⊆ d'.resources

namespace Draft

variable {d d' : Draft} {p : StagePlan} {v storage : UInt32} {ty : Ty} {r : Resource}

theorem Wider.decls (w : d.Wider d') : d.decls ⊆ d'.decls :=
  ModuleBuilder.sectionOf_subset w.entries _

theorem Wider.listed (w : d.Wider d') (h : d.Listed v storage ty r) : d'.Listed v storage ty r :=
  h.mono w.entries w.resources

theorem Samples.mono (w : d.Wider d') {out : PortId} {f : FieldVariables}
    (h : d.Samples p out f) : d'.Samples p out f := by
  obtain ⟨j, image, sampler, ho, hl, hk, hn, hl', hk', hn'⟩ := h.listed
  exact ⟨h.dim, h.typed, h.output, h.imageType.mono w.decls, j, image, sampler, ho, w.listed hl, hk, hn,
    w.listed hl', hk', hn'⟩

theorem Stores.mono (w : d.Wider d') {f : FieldVariables} (h : d.Stores p f) : d'.Stores p f := by
  obtain ⟨hi, ⟨r, hl, hk, hn⟩, hd⟩ := h
  exact ⟨hi.mono w.decls, ⟨r, w.listed hl, hk, hn⟩, hd⟩

theorem InputAt.mono (w : d.Wider d') {input : StageInput} (h : d.InputAt input v) :
    d'.InputAt input v := by
  obtain ⟨r, hl, hk⟩ := h
  exact ⟨r, w.listed hl, hk⟩

theorem TexelAt.mono (w : d.Wider d') (h : d.TexelAt v) : d'.TexelAt v := by
  obtain ⟨r, hl, hk⟩ := h
  exact ⟨r, w.listed hl, hk⟩

theorem OutputAt.mono (w : d.Wider d') {name : String} (h : d.OutputAt name v) :
    d'.OutputAt name v := by
  obtain ⟨r, hl, hk⟩ := h
  exact ⟨r, w.listed hl, hk⟩

theorem HasGlobals.mono (w : d.Wider d') (hg : d'.globals = d.globals) (h : d.HasGlobals) :
    d'.HasGlobals := by
  obtain ⟨id, r, ms, hl, hk, hm, hms⟩ := h
  refine ⟨id, r, ms, ?_, hk, w.decls hm, hms.imp fun m t ht => ht.mono w.decls⟩
  rw [hg]
  exact w.listed hl

/-- What a view of drafts keeps is the same in drafts with the same view. -/
theorem eq_of_view {α : Type} (view : Draft → Draft) (f : Draft → α) (hd : ∀ d, f (view d) = f d)
    (h : view d' = view d) : f d' = f d := by
  rw [← hd d', h, hd]

theorem memory_of_frame (h : d'.frame = d.frame) : d'.memory = d.memory := by
  rw [memory, memory, h]

/-- Resources stay catalogued while neither they nor what is placed changes. -/
theorem Catalogued.keep (h : d.Catalogued) (he : d.decls ⊆ d'.decls)
    (hp : d'.builder.placings = d.builder.placings) (hr : d'.resources = d.resources)
    (hn : d'.nextSlot = d.nextSlot) : d'.Catalogued := by
  obtain ⟨ls, hls, hall⟩ := h.placings
  refine ⟨⟨ls, hp.trans hls, ?_⟩, by rw [hr, hn, h.slots]⟩
  rw [hr]
  refine hall.imp ?_
  rintro r l ⟨t, storage, ty, decs, ht, hrest⟩
  exact ⟨t, storage, ty, decs, ht.mono he, hrest⟩

/-- More instructions, none of which places a variable, leave the resources as they are. -/
theorem Registered.keep (h : d.Registered)
    (he : d.builder.entries.toList.Sublist d'.builder.entries.toList)
    (hp : d'.builder.placings = d.builder.placings) (hr : d'.resources = d.resources)
    (hx : d'.extended = d.extended) (hg : d'.globals = d.globals) (hi : d'.interface = d.interface)
    (hn : d'.nextSlot = d.nextSlot) : d'.Registered := by
  have w : d.Wider d' := ⟨he, by rw [hr]; exact List.Subset.refl _⟩
  refine ⟨?_, h.globals.mono w hg, ?_, ?_, ?_, h.catalogued.keep w.decls hp hr hn⟩
  · rw [hx]
    exact he.subset h.extended
  · intro r hm
    rw [hr] at hm
    obtain ⟨s, ty, hl⟩ := h.listed r hm
    exact ⟨s, ty, w.listed hl⟩
  · rw [hr]
    exact h.distinct.trans (ModuleBuilder.results_sublist he)
  · intro v hv
    rw [hi] at hv
    exact (ModuleBuilder.results_sublist he).subset (h.interface v hv)

/-- Code leaves the resources as they are. -/
theorem Registered.mono (h : d.Registered)
    (he : d.builder.entries.toList.Sublist d'.builder.entries.toList) (hf : d'.frame = d.frame) :
    d'.Registered :=
  h.keep he (by rw [ModuleBuilder.placings, frame_marks hf, ModuleBuilder.placings])
    (frame_resources hf) (frame_extended hf) (eq_of_view frame Draft.globals (fun _ => rfl) hf)
    (eq_of_view frame Draft.interface (fun _ => rfl) hf)
    (eq_of_view frame Draft.nextSlot (fun _ => rfl) hf)

/-- Names and annotations leave the resources as they are. -/
theorem Registered.silent [NameLimit] (h : d.Registered) (q : d.Silent d') : d'.Registered :=
  h.keep q.entries q.placings (by rw [q.fields]) (by rw [q.fields]) (by rw [q.fields])
    (by rw [q.fields]) (by rw [q.fields])

/-- **Drafts that remember the same and have more instructions and resources.** -/
theorem Furnished.widen (h : d.Furnished p) (w : d.Wider d') (hm : d'.memory = d.memory)
    (hr : d'.Registered) : d'.Furnished p := by
  refine ⟨hr, ?_, ?_, ?_, ?_, ?_⟩
  · rw [eq_of_view memory Draft.inputs (fun _ => rfl) hm]
    exact fun e he => (h.inputs e he).mono w
  · rw [eq_of_view memory Draft.invocation (fun _ => rfl) hm]
    exact fun v hv => (h.invocation v hv).mono w
  · rw [eq_of_view memory Draft.outputs (fun _ => rfl) hm]
    exact fun e he => (h.outputs e he).mono w
  · rw [eq_of_view memory Draft.fields (fun _ => rfl) hm]
    exact fun e he => (h.fields e he).mono w
  · rw [eq_of_view memory Draft.storage (fun _ => rfl) hm]
    exact fun f hf => (h.storage f hf).mono w

/-- A draft that forgets its variables. -/
def forget (d : Draft) : Draft :=
  { d with
    fields := [], inputs := [], outputs := [], invocation := none, storage := none,
    dependencies := [] }

theorem Registered.of_forget (h : d.Registered) (hd : d'.forget = d.forget) : d'.Registered := by
  have hb : d'.builder = d.builder := eq_of_view forget Draft.builder (fun _ => rfl) hd
  exact h.keep (by rw [hb]) (by rw [hb]) (eq_of_view forget Draft.resources (fun _ => rfl) hd)
    (eq_of_view forget Draft.extended (fun _ => rfl) hd)
    (eq_of_view forget Draft.globals (fun _ => rfl) hd)
    (eq_of_view forget Draft.interface (fun _ => rfl) hd)
    (eq_of_view forget Draft.nextSlot (fun _ => rfl) hd)

/-- **Remembering variables** that are what they are remembered as. -/
theorem Furnished.remember (h : d.Furnished p) (hd : d'.forget = d.forget)
    (hi : ∀ e ∈ d'.inputs, e ∈ d.inputs ∨ d.InputAt e.1 e.2)
    (ht : ∀ v, d'.invocation = some v → d.invocation = some v ∨ d.TexelAt v)
    (ho : ∀ e ∈ d'.outputs, e ∈ d.outputs ∨ d.OutputAt e.1 e.2)
    (hf : ∀ e ∈ d'.fields, e ∈ d.fields ∨ d.Samples p e.1 e.2)
    (hs : ∀ f, d'.storage = some f → d.storage = some f ∨ d.Stores p f) : d'.Furnished p := by
  have hb : d'.builder = d.builder := eq_of_view forget Draft.builder (fun _ => rfl) hd
  have hr : d'.resources = d.resources := eq_of_view forget Draft.resources (fun _ => rfl) hd
  have w : d.Wider d' := ⟨by rw [hb], by rw [hr]; exact List.Subset.refl _⟩
  refine ⟨h.registered.of_forget hd, ?_, ?_, ?_, ?_, ?_⟩
  · exact fun e he => ((hi e he).elim (h.inputs e) id).mono w
  · exact fun v hv => ((ht v hv).elim (h.invocation v) id).mono w
  · exact fun e he => ((ho e he).elim (h.outputs e) id).mono w
  · exact fun e he => ((hf e he).elim (h.fields e) id).mono w
  · exact fun f he => ((hs f he).elim (h.storage f) id).mono w

/-- Code leaves what it relies on as it is. -/
theorem Furnished.mono (h : d.Furnished p)
    (he : d.builder.entries.toList.Sublist d'.builder.entries.toList) (hf : d'.frame = d.frame) :
    d'.Furnished p :=
  h.widen ⟨he, by rw [frame_resources hf]; exact List.Subset.refl _⟩ (memory_of_frame hf)
    (h.registered.mono he hf)

theorem Counted.mono (h : d.Counted) (hf : d'.frame = d.frame) : d'.Counted := by
  refine ⟨?_, ?_, ?_, ?_, ?_, ?_⟩
  · rw [eq_of_view frame Draft.inputs (fun _ => rfl) hf]
    exact h.keys
  · rw [frame_resources hf, eq_of_view frame Draft.outputs (fun _ => rfl) hf]
    exact h.stored
  · rw [eq_of_view frame Draft.inputs (fun _ => rfl) hf, eq_of_view frame Draft.outputs (fun _ => rfl) hf,
      eq_of_view frame Draft.interface (fun _ => rfl) hf, eq_of_view frame Draft.invocation (fun _ => rfl) hf]
    exact h.length
  · rw [eq_of_view frame Draft.fields (fun _ => rfl) hf]
    exact h.fields
  · rw [frame_resources hf, eq_of_view frame Draft.fields (fun _ => rfl) hf]
    exact h.images
  · rw [frame_resources hf, eq_of_view frame Draft.fields (fun _ => rfl) hf]
    exact h.samplers

end Draft

namespace Drafting

variable [NameLimit] {d d' : Draft} {p : StagePlan} {P : List UInt32} {u : Unit} {v storage : UInt32} {ty : Ty}
  {r : Resource}

theorem Declares.wider (h : Declares d v storage ty r d') : d.Wider d' where
  entries := h.entries
  resources := by rw [h.resources]; exact List.subset_append_left _ _

/-- A step that places nothing before a variable is declared. -/
theorem Declares.after {d₁ : Draft} (h : Declares d₁ v storage ty r d') (q : d.Silent d₁) :
    Declares d v storage ty r d' where
  entries := q.entries.trans h.entries
  code := h.code.trans q.code
  sound := fun P hP => h.sound P (q.sound P hP)
  resources := by rw [h.resources, q.fields]
  results := ((ModuleBuilder.results_sublist q.entries).append_right _).trans h.results
  listed := h.listed
  holding := h.holding
  placed := by
    rw [← q.placings]
    exact h.placed
  slot := by
    have hslot := h.slot
    rwa [show d₁.nextSlot = d.nextSlot by rw [q.fields]] at hslot

/-- A variable that was declared is catalogued. -/
theorem Declares.catalogued (h : Declares d v storage ty r d') (hd : d.Catalogued) :
    d'.Catalogued := by
  obtain ⟨ls, hls, hall⟩ := hd.placings
  obtain ⟨t, decs, ht, hplace, hp⟩ := h.placed
  refine ⟨⟨ls ++ [placingsOf t v storage decs], by rw [hp, hls, List.flatten_append,
    List.flatten_singleton], ?_⟩, ?_⟩
  · rw [h.resources]
    refine List.rel_append (hall.imp ?_) (.cons ⟨t, storage, ty, decs, ht, h.holding, hplace, ?_⟩ .nil)
    · rintro r l ⟨t, storage, ty, decs, ht, hrest⟩
      exact ⟨t, storage, ty, decs, ht.mono h.wider.decls, hrest⟩
    · rw [h.listed.id]
  · have hslot := h.slot
    rw [h.resources, List.filter_append, List.map_append, hd.slots]
    cases hb : r.kind.isBound with
    | true =>
      rw [hb, if_pos rfl] at hslot
      rw [hslot.2, List.filter_cons_of_pos (by exact hb), List.range_succ, List.filter_nil,
        List.map_singleton, hslot.1]
    | false =>
      rw [hb, if_neg Bool.false_ne_true] at hslot
      rw [hslot, List.filter_cons_of_neg (by rw [hb]; exact Bool.false_ne_true)]
      exact List.append_nil _

/-- A variable that was declared is one more resource. -/
theorem Declares.registered (h : Declares d v storage ty r d') (hd : d.Registered)
    (he : d'.extended = d.extended) (hg : d'.globals = d.globals)
    (hi : ∀ x ∈ d'.interface, x ∈ d.interface ∨ x = v) : d'.Registered := by
  have w := h.wider
  refine ⟨?_, hd.globals.mono w hg, ?_, ?_, ?_, h.catalogued hd.catalogued⟩
  · rw [he]
    exact h.entries.subset hd.extended
  · intro r' hr'
    rw [h.resources, List.mem_append, List.mem_singleton] at hr'
    rcases hr' with hr' | rfl
    · obtain ⟨s, ty, hl⟩ := hd.listed r' hr'
      exact ⟨s, ty, w.listed hl⟩
    · refine ⟨storage, ty, ?_⟩
      rw [h.listed.id]
      exact h.listed
  · rw [h.resources, List.map_append, List.map_singleton, h.listed.id]
    exact (hd.distinct.append_right _).trans h.results
  · intro x hx
    rcases hi x hx with hx | rfl
    · exact (ModuleBuilder.results_sublist h.entries).subset (hd.interface x hx)
    · exact h.listed.mem_results

/-! ### The start of a draft -/

/-- The builder with one more struct type. -/
def withStruct (b : ModuleBuilder) (ms : List UInt32) : ModuleBuilder :=
  ({ b with nextId := b.nextId + 1 } : ModuleBuilder).push .types
    ⟨.typeStruct, b.nextId.toUInt32 :: ms⟩

/-- A new struct type. -/
theorem typeStruct_spec {ms : List UInt32} {x : UInt32}
    (hm : ∀ m ∈ ms, ∃ t, TypeAt d.decls m t ∧ (t.component.isScalar ∨ ∃ c n, t = .matrix c n))
    (hn : ms.length ≤ 4) (h : Draws (assemble (Assemble.typeStruct ms)) d x d') :
    d.Quiet d' ∧ ⟨.typeStruct, x :: ms⟩ ∈ d'.decls := by
  rw [draws_assemble] at h
  obtain ⟨rfl, rfl⟩ : x = d.builder.nextId.toUInt32 ∧
    d' = { d with builder := withStruct d.builder ms } := h
  refine ⟨.of_marks rfl (ModuleBuilder.push_sublist _ _ _)
    (ModuleBuilder.marks_push_of_not _ rfl)
    (ModuleBuilder.sectionOf_push_of_ne _ _ (by decide)) fun Q hQ => ?_, ?_⟩
  · exact ModuleBuilder.sound_pushResult (ModuleBuilder.sound_alloc hQ) rfl fun _ =>
      .typeStruct hm hn
  · show _ ∈ (withStruct d.builder ms).sectionOf .types
    rw [withStruct, ModuleBuilder.sectionOf_push_self]
    exact List.mem_append_right _ (List.mem_singleton_self _)

/-- The names and annotations of the members of the block of global values. -/
theorem annotateMember_spec {block : UInt32} (hb : block ∈ d.builder.results) (m : GlobalMember)
    (h : Draws (assemble (do
      let i := m.index.toUInt32
      Assemble.memberName block i m.name
      Assemble.memberDecorate block i Decoration.offset [m.offset]
      if m.isMatrix then
        Assemble.memberDecorate block i Decoration.colMajor []
        Assemble.memberDecorate block i Decoration.matrixStride [16])) d u d') : d.Silent d' := by
  have hname : ShortName m.name := by cases m <;> exact .of_lt (by decide)
  dsimp only at h
  rw [assemble_bind] at h
  obtain ⟨_, d₁, h₁, h⟩ := draws_bind.1 h
  have q₁ := memberName_spec hb hname h₁
  rw [assemble_bind] at h
  obtain ⟨_, d₂, h₂, h⟩ := draws_bind.1 h
  have q₂ := memberDecorate_spec (q₁.results hb) (by simp) h₂
  split at h
  · rw [assemble_bind] at h
    obtain ⟨_, d₃, h₃, h⟩ := draws_bind.1 h
    have q₃ := memberDecorate_spec (q₂.results (q₁.results hb)) (by simp) h₃
    have q₄ := memberDecorate_spec (q₃.results (q₂.results (q₁.results hb))) (by simp) h
    exact ((q₁.trans q₂).trans q₃).trans q₄
  · obtain ⟨-, rfl⟩ := draws_pure.1 h
    exact q₁.trans q₂

/-- **The block of global values.** -/
theorem declareGlobals_spec (hs : d.Sound P) (hslot : d.nextSlot = 0)
    (h : Draws declareGlobals d u d') :
    ∃ id r ms, Declares d d'.globals StorageClass.uniform (.struct id) r d' ∧
      d' = { d with
        builder := d'.builder, globals := d'.globals, resources := d.resources ++ [r],
        nextSlot := 1 } ∧
      r.kind = .uniformBuffer ∧ ⟨.typeStruct, id :: ms⟩ ∈ d'.decls ∧
      List.Forall₂ (TypeAt d'.decls) ms memberTypes := by
  rw [declareGlobals] at h
  obtain ⟨float, d₁, h₁, h⟩ := draws_bind.1 h
  obtain ⟨q₁, hfloat⟩ := typeFloat_spec hs h₁
  have hs₁ := q₁.sound P hs
  obtain ⟨vector3, d₂, h₂, h⟩ := draws_bind.1 h
  obtain ⟨q₂, hvector3⟩ := typeVector_spec hs₁ hfloat rfl (by decide) h₂
  have hs₂ := q₂.sound P hs₁
  obtain ⟨vector4, d₃, h₃, h⟩ := draws_bind.1 h
  obtain ⟨q₃, hvector4⟩ := typeVector_spec hs₂ (hfloat.mono q₂.decls) rfl (by decide) h₃
  have hs₃ := q₃.sound P hs₂
  obtain ⟨matrix, d₄, h₄, h⟩ := draws_bind.1 h
  obtain ⟨q₄, hmatrix⟩ := typeMatrix_spec hs₃ hvector4 h₄
  have hs₄ := q₄.sound P hs₃
  -- the members and their types
  have hms : List.Forall₂ (TypeAt d₄.decls) [matrix, matrix, vector3, float] memberTypes :=
    .cons hmatrix (.cons hmatrix (.cons (hvector3.mono (q₃.trans q₄).decls)
      (.cons (hfloat.mono ((q₂.trans q₃).trans q₄).decls) .nil)))
  obtain ⟨block, d₅, h₅, h⟩ := draws_bind.1 h
  obtain ⟨q₅, hblock⟩ := typeStruct_spec (fun m hm => by
    obtain ⟨t, ht, hmt⟩ := exists_of_mem_left hms hm
    refine ⟨t, hmt, ?_⟩
    simp only [memberTypes, matrixType, List.mem_cons, List.not_mem_nil, or_false] at ht
    rcases ht with rfl | rfl | rfl | rfl
    · exact .inr ⟨_, _, rfl⟩
    · exact .inr ⟨_, _, rfl⟩
    · exact .inl rfl
    · exact .inl rfl) (by simp) h₅
  have hb : block ∈ d₅.builder.results := ModuleBuilder.mem_results_of_mem hblock rfl
  obtain ⟨_, d₆, h₆, h⟩ := draws_bind.1 h
  have q₆ : d₅.Silent d₆ := by
    rw [assemble_bind] at h₆
    obtain ⟨_, e₁, hn, h₆⟩ := draws_bind.1 h₆
    have p₁ := name_spec hb (.of_lt (by decide)) hn
    rw [assemble_bind] at h₆
    obtain ⟨_, e₂, hd, h₆⟩ := draws_bind.1 h₆
    have p₂ := decorate_spec (p₁.results hb) .block (.inl rfl) hd
    rw [assemble_forM] at h₆
    exact (p₁.trans p₂).trans (forM_silent (fun m _ e _ _ q hm =>
      annotateMember_spec (q.results (p₂.results (p₁.results hb))) m hm) (.refl _) h₆)
  have hs₆ := q₆.sound P (q₅.sound P hs₄)
  obtain ⟨globals, d₇, h₇, h⟩ := draws_bind.1 h
  rw [draws_modify] at h
  rw [assemble_bind] at h₇
  obtain ⟨pointer, d₈, h₈, h₇⟩ := draws_bind.1 h₇
  obtain ⟨q₈, hpointer⟩ := typePointer_spec hs₆ ((TypeAt.struct hblock).mono q₆.decls) h₈
  rw [draws_assemble] at h₇
  obtain ⟨rfl, rfl⟩ : globals = d₈.builder.nextId.toUInt32 ∧ d₇ = { d₈ with
      builder := withVariable d₈.builder pointer StorageClass.uniform "globals"
        [(Decoration.descriptorSet, [0]), (Decoration.binding, [0])] } := h₇
  have q : d.Silent d₈ := ((((q₁.trans q₂).trans q₃).trans q₄).trans q₅).toSilent.trans
    (q₆.trans q₈.toSilent)
  have hsub : d₈.decls ⊆ (withVariable d₈.builder pointer StorageClass.uniform "globals"
      [(Decoration.descriptorSet, [0]), (Decoration.binding, [0])]).decls :=
    ModuleBuilder.sectionOf_subset withVariable_sublist .types
  subst h
  refine ⟨block, _, _, declares_withVariable q hpointer
    (.of_lt (show (Text.bytes "globals").length < 131072 by decide)) (.buffer rfl rfl)
    (.bound rfl rfl rfl) ?_ rfl rfl (by rw [q.fields]) (by rw [hslot]; exact ⟨rfl, rfl⟩),
    by rw [q.fields], rfl, hsub ((q₆.trans q₈.toSilent).decls hblock),
    hms.imp fun m t ht => (ht.mono (q₅.toSilent.trans (q₆.trans q₈.toSilent)).decls).mono hsub⟩
  simp only [List.forall_mem_cons, List.not_mem_nil, false_implies, implies_true, and_true]
  exact ⟨.descriptorSet 0, .binding 0⟩

/-- The module before the global values: the instruction set has identifier 1, and 2 waits for the
function. -/
def header : ModuleBuilder where
  version := .current
  nextId := 3
  entries := #[(.capabilities, ⟨.capability, [Capability.shader]⟩),
    (.imports, ⟨.extInstImport, 1 :: nameWords (Text.bytes extendedSet)⟩),
    (.memoryModel, ⟨.memoryModel, [addressingLogical, memoryModelShader]⟩),
    (.debug, ⟨.debugName, 2 :: nameWords (Text.bytes "main")⟩)]
  declared := []
  imported := [(extendedSet, 1)]

theorem sound_header : header.Sound [2] where
  start := by decide
  alloc := List.Perm.refl _
  declared := fun _ _ _ h => by cases h
  forms := by
    intro s i h _
    simp only [header, List.mem_cons, List.not_mem_nil, or_false, Prod.mk.injEq] at h
    rcases h with ⟨rfl, rfl⟩ | ⟨rfl, rfl⟩ | ⟨rfl, rfl⟩ | ⟨rfl, rfl⟩
    · exact .capability
    · exact .importSet
    · exact .memoryModel
    · exact .debugName (by decide) (ShortName.words (.of_lt (by decide)))

/-- **The start of a body.** -/
theorem begin_spec {model : ExecutionModel} (h : Draws begin (Draft.new model) u d) :
    d.Sound [2] ∧ d.Registered ∧ d.code = [] ∧ (∀ r ∈ d.resources, r.kind = .uniformBuffer) ∧
      d = { Draft.new model with
        builder := d.builder, extended := 1, main := 2, globals := d.globals,
        resources := d.resources, nextSlot := 1 } := by
  rw [begin] at h
  obtain ⟨⟨extended, main⟩, d₁, h₁, h⟩ := draws_bind.1 h
  rw [draws_assemble] at h₁
  obtain ⟨he, rfl⟩ : (extended, main) = (1, 2) ∧
    d₁ = { Draft.new model with builder := header } := h₁
  cases he
  dsimp only at h
  obtain ⟨_, d₂, h₂, h⟩ := draws_bind.1 h
  rw [draws_modify] at h₂
  subst h₂
  obtain ⟨id, r, ms, hd, hfields, hr, hm, hms⟩ := declareGlobals_spec (P := [2]) sound_header rfl h
  refine ⟨hd.sound _ sound_header, ?_, hd.code, ?_, ?_⟩
  · refine ⟨?_, ⟨id, r, ms, hd.listed, hr, hm, hms⟩, ?_, ?_, ?_, ?_⟩
    · have hx : d.extended = 1 := by rw [hfields]
      rw [hx]
      exact hd.entries.subset (List.mem_cons_of_mem _ List.mem_cons_self)
    · intro r' hr'
      rw [hd.resources] at hr'
      obtain rfl : r' = r := List.mem_singleton.1 hr'
      refine ⟨StorageClass.uniform, .struct id, ?_⟩
      rw [hd.listed.id]
      exact hd.listed
    · rw [hd.resources]
      show [r.variable_].Sublist _
      rw [hd.listed.id]
      exact (List.sublist_append_right _ _).trans hd.results
    · intro v hv
      rw [hfields] at hv
      cases hv
    · exact hd.catalogued ⟨⟨[], rfl, .nil⟩, rfl⟩
  · intro r' hr'
    rw [hd.resources] at hr'
    rw [List.mem_singleton.1 hr']
    exact hr
  · rw [hfields]

end Drafting

end NodeShader
