import NodeShader.Proofs.Stage.Emitting

/-!
# Variables of a draft

A variable is declared together with its name and its annotations, and it is listed among the
resources of the body (`Draft.Listed`).  The resource tells what type the variable has
(`Resource.Holding`) and where it is found (`Resource.Placing`).  Names and annotations of what exists
already place no variable.

* `stageVariable_spec`: an input or output of the stage.
* `boundVariable_spec`: an image or a sampler of a node.
-/

namespace NodeShader

open Spirv

/-- A name that fits into an instruction. -/
def ShortName [NameLimit] (name : String) : Prop := (Text.bytes name).length < NameLimit.bytes + 8

theorem ShortName.of_lt [NameLimit] {name : String} (h : (Text.bytes name).length < 131072) :
    ShortName name := by
  have hlarge := NameLimit.large
  show _ < _
  omega

theorem ShortName.words [NameLimit] {name : String} (h : ShortName name) :
    (nameWords (Text.bytes name)).length ≤ nameWordLimit := by
  rw [length_nameWords]
  have h' : (Text.bytes name).length < NameLimit.bytes + 8 := h
  show _ ≤ NameLimit.bytes / 4 + 3
  omega

theorem Spirv.Dim.ofCount_lt (dim : Int) : Dim.ofCount dim < 3 := by
  unfold ofCount
  split <;> decide

/-- The type of a sampled image of some dimensions. -/
def sampledType (dim : Int) : Ty := .image (.float 32) (Dim.ofCount dim) 1 ImageFormat.unknown

/-- The type of an image of some dimensions that is written. -/
def storageType (dim : Int) : Ty := .image (.float 32) (Dim.ofCount dim) 2 ImageFormat.rgba32f

/-- **What the variable of a resource holds**: its storage class and the type of its contents. -/
inductive Resource.Holding (r : Resource) : UInt32 → Ty → Prop
  | buffer {id : UInt32} : r.kind = .uniformBuffer → r.dim = 0 →
      r.Holding StorageClass.uniform (.struct id)
  | sampled : r.kind = .sampledImage → 1 ≤ r.dim ∧ r.dim ≤ 3 →
      r.Holding StorageClass.uniformConstant (sampledType r.dim)
  | written : r.kind = .storageImage → 1 ≤ r.dim ∧ r.dim ≤ 3 →
      r.Holding StorageClass.uniformConstant (storageType r.dim)
  | sampler : r.kind = .sampler → r.dim = 0 → r.Holding StorageClass.uniformConstant .sampler
  | input {ty : Ty} : r.kind = .stageInput → r.dim = 0 → ty.component.isScalar →
      r.Holding StorageClass.input ty
  | output {ty : Ty} : r.kind = .stageOutput → r.dim = 0 → ty.component.isScalar →
      r.Holding StorageClass.output ty

/-- **Where the variable of a resource is found**, as annotations. -/
inductive Resource.Placing (r : Resource) : List (UInt32 × List UInt32) → Prop
  | bound : r.kind.isBound = true → r.set = 0 → r.location = -1 →
      r.Placing [(Decoration.descriptorSet, [0]), (Decoration.binding, [r.slot.toUInt32])]
  | location {n : Nat} : r.kind.isBound = false → r.location = n → n < 4294967296 → r.builtIn = "" →
      r.Placing [(Decoration.location, [n.toUInt32])]
  | builtIn {code : UInt32} : r.kind.isBound = false → r.location = -1 → r.builtIn ≠ "" →
      r.Placing [(Decoration.builtIn, [code])]

namespace Resource

variable {r : Resource} {storage : UInt32} {ty : Ty} {decs : List (UInt32 × List UInt32)}

/-- The annotations of a resource place its variable. -/
theorem Placing.contains (h : r.Placing decs) : ∀ e ∈ decs, [Decoration.descriptorSet,
    Decoration.binding, Decoration.location, Decoration.builtIn].contains e.1 = true := by
  cases h <;> simp only [List.forall_mem_cons, List.not_mem_nil, false_implies, implies_true, and_true]
  · exact ⟨rfl, rfl⟩
  · rfl
  · rfl

/-- A variable that holds what it is to hold, and is annotated so, is well placed. -/
theorem Placing.placed {A : List Instruction} {x : UInt32} (h : r.Placing decs)
    (hr : r.Holding storage ty) (hA : ∀ e ∈ decs, ⟨.decorate, x :: e.1 :: e.2⟩ ∈ A) :
    Placed A x storage ty := by
  cases h with
  | bound hk =>
    have hb : Bound A x :=
      ⟨⟨_, hA _ List.mem_cons_self⟩, _, hA _ (List.mem_cons_of_mem _ List.mem_cons_self)⟩
    cases hr with
    | buffer => exact .block hb
    | sampled | written => exact .image (Dim.ofCount_lt _) hb
    | sampler => exact .sampler hb
    | input hk' | output hk' =>
      rw [hk'] at hk
      cases hk
  | location hk =>
    have hl : Located A x := .inl ⟨_, hA _ List.mem_cons_self⟩
    cases hr with
    | input _ _ hs => exact .input hs hl
    | output _ _ hs => exact .output hs hl
    | buffer hk' | sampled hk' | written hk' | sampler hk' =>
      rw [hk'] at hk
      cases hk
  | builtIn hk =>
    have hl : Located A x := .inr ⟨_, hA _ List.mem_cons_self⟩
    cases hr with
    | input _ _ hs => exact .input hs hl
    | output _ _ hs => exact .output hs hl
    | buffer hk' | sampled hk' | written hk' | sampler hk' =>
      rw [hk'] at hk
      cases hk

end Resource

/-- A variable of the module and the resource that stands for it. -/
structure Draft.Listed (d : Draft) (v storage : UInt32) (ty : Ty) (r : Resource) : Prop where
  declared : ∃ t, ⟨.variableDecl, [t, v, storage]⟩ ∈ d.decls ∧
    TypeAt d.decls t (.pointer storage ty)
  mem : r ∈ d.resources
  id : r.variable_ = v

namespace Draft.Listed

variable {d d' : Draft} {v storage : UInt32} {ty : Ty} {r : Resource}

theorem mono (he : d.builder.entries.toList.Sublist d'.builder.entries.toList)
    (hr : d.resources ⊆ d'.resources) (h : d.Listed v storage ty r) : d'.Listed v storage ty r := by
  obtain ⟨⟨t, hm, ht⟩, hmem, hid⟩ := h
  have hsub : d.decls ⊆ d'.decls := ModuleBuilder.sectionOf_subset he _
  exact ⟨⟨t, hsub hm, ht.mono hsub⟩, hr hmem, hid⟩

theorem global (h : d.Listed v storage ty r) (I : Interpretation) :
    GlobalAt I d.decls v (.pointer storage ty) (.place v []) := by
  obtain ⟨⟨t, hm, ht⟩, -, -⟩ := h
  exact .variable_ hm ht

theorem content (h : d.Listed v storage ty r) {I : Interpretation} {path : List UInt32}
    {a : I.Value} (hc : r.content? I path = some a) : (d.surroundings I).content v path a :=
  ⟨r, h.mem, h.id, hc⟩

theorem mem_results (h : d.Listed v storage ty r) : v ∈ d.builder.results := by
  obtain ⟨⟨t, hm, -⟩, -, -⟩ := h
  exact ModuleBuilder.mem_results_of_mem hm rfl

end Draft.Listed

namespace Drafting

variable [NameLimit] {d d' : Draft} {P : List UInt32} {x v : UInt32} {u : Unit}

/-! ### Names and annotations -/

/-- Adding a name or an annotation that places no variable. -/
theorem annotate_spec {s : Section} {op : Opcode} {operands : List UInt32}
    (hs : s ≠ .functions) (hr : (⟨op, operands⟩ : Instruction).result? = none)
    (hp : ModuleBuilder.isPlacing ⟨op, operands⟩ = false)
    (hf : Form d.decls d.builder.annotations d.builder.results s ⟨op, operands⟩)
    (h : Draws (assemble (Assemble.add s op operands)) d u d') : d.Silent d' := by
  rw [draws_assemble] at h
  obtain ⟨-, rfl⟩ := h
  refine ⟨rfl, ModuleBuilder.push_sublist d.builder _ _, ?_,
    ModuleBuilder.sectionOf_push_of_ne d.builder _ hs, fun Q hQ => ?_⟩
  · show (d.builder.push s ⟨op, operands⟩).placings = _
    rw [ModuleBuilder.placings, ModuleBuilder.marks_push, List.map_append, List.filter_append,
      ModuleBuilder.placings, List.append_right_eq_self, List.filter_eq_nil_iff]
    intro i hi
    obtain ⟨e, he, rfl⟩ := List.mem_map.1 hi
    rw [List.mem_singleton.1 (List.mem_filter.1 he).1, hp]
    exact Bool.false_ne_true
  · exact ModuleBuilder.sound_push hQ hr fun _ => hf.mono (List.Subset.refl _) (List.Subset.refl _)
      (List.subset_append_left _ _)

theorem name_spec {name : String} (hx : x ∈ d.builder.results) (hn : ShortName name)
    (h : Draws (assemble (Assemble.name x name)) d u d') : d.Silent d' :=
  annotate_spec (by decide) rfl rfl (.debugName hx hn.words) h

theorem memberName_spec {k : UInt32} {name : String} (hx : x ∈ d.builder.results)
    (hn : ShortName name) (h : Draws (assemble (Assemble.memberName x k name)) d u d') :
    d.Silent d' :=
  annotate_spec (by decide) rfl rfl (.memberName hx hn.words) h

theorem decorate_spec {dec : UInt32} {params : List UInt32} (hx : x ∈ d.builder.results)
    (hd : Decorated dec params) (hdec : dec = Decoration.block ∨ dec = Decoration.nonReadable)
    (h : Draws (assemble (Assemble.decorate x dec params)) d u d') : d.Silent d' := by
  refine annotate_spec (by decide) rfl ?_ (.decorate hx hd) h
  rcases hdec with rfl | rfl <;> rfl

theorem memberDecorate_spec {k dec : UInt32} {params : List UInt32} (hx : x ∈ d.builder.results)
    (hp : params.length ≤ 1) (h : Draws (assemble (Assemble.memberDecorate x k dec params)) d u d') :
    d.Silent d' :=
  annotate_spec (by decide) rfl rfl (.memberDecorate hx hp) h

omit [NameLimit] in
/-- Steps on the module over a list. -/
theorem assemble_forM {α : Type} (l : List α) (f : α → Assemble Unit) :
    assemble (l.forM f) = l.forM fun a => assemble (f a) := by
  induction l with
  | nil => rfl
  | cons a l ih =>
    show assemble (f a >>= fun _ => l.forM f) = assemble (f a) >>= fun _ => l.forM _
    rw [assemble_bind, ih]

/-- A silent step for each element of a list. -/
theorem forM_silent {α : Type} {f : α → Drafting Unit} {l : List α} {d₀ : Draft}
    (step : ∀ a ∈ l, ∀ d₁ u d₂, d₀.Silent d₁ → Draws (f a) d₁ u d₂ → d₁.Silent d₂)
    (hd : d₀.Silent d) (h : Draws (l.forM f) d u d') : d.Silent d' := by
  induction l generalizing d with
  | nil =>
    obtain ⟨-, rfl⟩ := draws_pure.1 h
    exact .refl _
  | cons a l ih =>
    obtain ⟨_, d₁, h₁, h⟩ := draws_bind.1 (show Draws (f a >>= fun _ => l.forM f) d u d' from h)
    have q₁ := step a List.mem_cons_self d _ d₁ hd h₁
    exact q₁.trans (ih (fun b hb => step b (List.mem_cons_of_mem a hb)) (hd.trans q₁) h)

/-! ### Variables -/

/-- The instructions of a variable: its declaration, its name, its annotations. -/
def variableEntries (t v storage : UInt32) (name : String) (decs : List (UInt32 × List UInt32)) :
    List (Section × Instruction) :=
  (.types, ⟨.variableDecl, [t, v, storage]⟩) ::
    (.debug, ⟨.debugName, v :: nameWords (Text.bytes name)⟩) ::
    decs.map fun e => (.annotations, ⟨.decorate, v :: e.1 :: e.2⟩)

/-- The declaration of a variable and its annotations. -/
def placingsOf (t v storage : UInt32) (decs : List (UInt32 × List UInt32)) : List Instruction :=
  ⟨.variableDecl, [t, v, storage]⟩ :: decs.map fun e => ⟨.decorate, v :: e.1 :: e.2⟩

/-- The builder with one more variable. -/
def withVariable (b : ModuleBuilder) (t storage : UInt32) (name : String)
    (decs : List (UInt32 × List UInt32)) : ModuleBuilder :=
  ({ b with nextId := b.nextId + 1 } : ModuleBuilder).extend
    (variableEntries t b.nextId.toUInt32 storage name decs)

section WithVariable

variable {b : ModuleBuilder} {t storage : UInt32} {ty : Ty} {name : String}
  {decs : List (UInt32 × List UInt32)}

omit [NameLimit] in
theorem withVariable_entries : (withVariable b t storage name decs).entries.toList =
    b.entries.toList ++ variableEntries t b.nextId.toUInt32 storage name decs :=
  ModuleBuilder.extend_entries _ _

omit [NameLimit] in
theorem withVariable_sublist :
    b.entries.toList.Sublist (withVariable b t storage name decs).entries.toList := by
  rw [withVariable_entries]
  exact List.sublist_append_left _ _

omit [NameLimit] in
theorem withVariable_results : (withVariable b t storage name decs).results =
    b.results ++ [b.nextId.toUInt32] := by
  have hnone : (decs.map fun e => ((.annotations,
      ⟨.decorate, b.nextId.toUInt32 :: e.1 :: e.2⟩) : Section × Instruction)).filterMap
        (·.2.result?) = [] := by
    rw [List.filterMap_eq_nil_iff]
    intro e he
    obtain ⟨_, -, rfl⟩ := List.mem_map.1 he
    rfl
  rw [ModuleBuilder.results, withVariable_entries, List.filterMap_append, variableEntries,
    List.filterMap_cons, List.filterMap_cons, hnone]
  rfl

omit [NameLimit] in
/-- A variable leaves the code as it is. -/
theorem withVariable_code : (withVariable b t storage name decs).code = b.code := by
  have hnone : (variableEntries t b.nextId.toUInt32 storage name decs).filter
      (·.1 == .functions) = [] := by
    show (decs.map fun e => ((.annotations, ⟨.decorate, b.nextId.toUInt32 :: e.1 :: e.2⟩) :
      Section × Instruction)).filter (·.1 == .functions) = []
    rw [List.filter_eq_nil_iff]
    intro e he
    obtain ⟨_, -, rfl⟩ := List.mem_map.1 he
    exact Bool.false_ne_true
  rw [ModuleBuilder.code, ModuleBuilder.sectionOf, withVariable_entries, List.filter_append, hnone,
    List.append_nil]
  rfl

omit [NameLimit] in
theorem mem_withVariable : ⟨.variableDecl, [t, b.nextId.toUInt32, storage]⟩ ∈
    (withVariable b t storage name decs).decls := by
  rw [ModuleBuilder.decls, ModuleBuilder.mem_sectionOf, withVariable_entries]
  exact List.mem_append_right _ List.mem_cons_self

omit [NameLimit] in
/-- A variable is placed by its declaration and its annotations. -/
theorem withVariable_placings (hdecs : ∀ e ∈ decs, [Decoration.descriptorSet, Decoration.binding,
      Decoration.location, Decoration.builtIn].contains e.1 = true) :
    (withVariable b t storage name decs).placings =
      b.placings ++ placingsOf t b.nextId.toUInt32 storage decs := by
  have hmarks : (variableEntries t b.nextId.toUInt32 storage name decs).filter ModuleBuilder.isMark =
      variableEntries t b.nextId.toUInt32 storage name decs := by
    refine List.filter_eq_self.2 (List.forall_mem_cons.2 ⟨rfl, List.forall_mem_cons.2 ⟨rfl, ?_⟩⟩)
    intro e he
    obtain ⟨_, -, rfl⟩ := List.mem_map.1 he
    rfl
  have hplaces : (decs.map fun e => (⟨.decorate, b.nextId.toUInt32 :: e.1 :: e.2⟩ :
      Instruction)).filter ModuleBuilder.isPlacing = decs.map fun e =>
        ⟨.decorate, b.nextId.toUInt32 :: e.1 :: e.2⟩ := by
    refine List.filter_eq_self.2 fun i hi => ?_
    obtain ⟨e, he, rfl⟩ := List.mem_map.1 hi
    exact hdecs e he
  rw [withVariable, ModuleBuilder.placings_extend, hmarks, variableEntries, List.map_cons, List.map_cons,
    List.map_map, List.filter_cons_of_pos rfl,
    List.filter_cons_of_neg (show ¬ (false = true) from Bool.false_ne_true), placingsOf]
  exact congrArg (fun l => b.placings ++ (_ :: l)) hplaces

/-- **A variable with its name and annotations.** -/
theorem sound_withVariable (hs : b.Sound P) (ht : TypeAt b.decls t (.pointer storage ty))
    (hn : ShortName name) (hd : ∀ e ∈ decs, Decorated e.1 e.2)
    (hp : ∀ A : List Instruction, (∀ e ∈ decs, ⟨.decorate, b.nextId.toUInt32 :: e.1 :: e.2⟩ ∈ A) →
      Placed A b.nextId.toUInt32 storage ty) :
    (withVariable b t storage name decs).Sound P := by
  have hv : b.nextId.toUInt32 ∈ (withVariable b t storage name decs).results ++ P :=
    List.mem_append_left _ (ModuleBuilder.mem_results_of_mem mem_withVariable rfl)
  refine ModuleBuilder.sound_extend (R := [b.nextId.toUInt32]) (ModuleBuilder.sound_alloc hs) ?_ ?_
  · have hr : b.results ++ (variableEntries t b.nextId.toUInt32 storage name decs).filterMap
        (·.2.result?) = b.results ++ [b.nextId.toUInt32] := by
      rw [← withVariable_results (t := t), ModuleBuilder.results, ModuleBuilder.results,
        withVariable_entries, List.filterMap_append]
    exact List.append_cancel_left hr
  · intro s i hm _
    rcases List.mem_cons.1 hm with he | hm
    · cases he
      refine .variableDecl (ht.mono (ModuleBuilder.sectionOf_subset withVariable_sublist _))
        (hp _ fun e he => ?_)
      rw [ModuleBuilder.annotations, ModuleBuilder.mem_sectionOf, ModuleBuilder.extend_entries]
      exact List.mem_append_right _ (List.mem_cons_of_mem _
        (List.mem_cons_of_mem _ (List.mem_map.2 ⟨e, he, rfl⟩)))
    · rcases List.mem_cons.1 hm with he | hm
      · cases he
        exact .debugName hv hn.words
      · obtain ⟨e, he, heq⟩ := List.mem_map.1 hm
        cases heq
        exact .decorate hv (hd e he)

end WithVariable

/-- **A step that declares a variable** of a type and lists it as a resource. -/
structure Declares (d : Draft) (v storage : UInt32) (ty : Ty) (r : Resource) (d' : Draft) :
    Prop where
  entries : d.builder.entries.toList.Sublist d'.builder.entries.toList
  code : d'.code = d.code
  sound : ∀ P, d.Sound P → d'.Sound P
  resources : d'.resources = d.resources ++ [r]
  results : (d.builder.results ++ [v]).Sublist d'.builder.results
  listed : d'.Listed v storage ty r
  holding : r.Holding storage ty
  placed : ∃ t decs, TypeAt d'.decls t (.pointer storage ty) ∧ r.Placing decs ∧
    d'.builder.placings = d.builder.placings ++ placingsOf t v storage decs
  slot : if r.kind.isBound then r.slot = d.nextSlot ∧ d'.nextSlot = d.nextSlot + 1
    else d'.nextSlot = d.nextSlot

/-- A variable that was added for a resource is declared. -/
theorem declares_withVariable {d₁ : Draft} {t storage : UInt32} {ty : Ty} {r : Resource}
    {name : String} {decs : List (UInt32 × List UInt32)} (q : d.Silent d₁)
    (ht : TypeAt d₁.decls t (.pointer storage ty)) (hn : ShortName name) (hr : r.Holding storage ty)
    (hplace : r.Placing decs) (hdecs : ∀ e ∈ decs, Decorated e.1 e.2)
    (hid : r.variable_ = d₁.builder.nextId.toUInt32)
    (hd : d'.builder = withVariable d₁.builder t storage name decs)
    (hres : d'.resources = d.resources ++ [r])
    (hslot : if r.kind.isBound then r.slot = d.nextSlot ∧ d'.nextSlot = d.nextSlot + 1
      else d'.nextSlot = d.nextSlot) :
    Declares d d₁.builder.nextId.toUInt32 storage ty r d' := by
  have hsub : d₁.builder.entries.toList.Sublist d'.builder.entries.toList := by
    rw [hd]
    exact withVariable_sublist
  have ht' : TypeAt d'.decls t (.pointer storage ty) := ht.mono (ModuleBuilder.sectionOf_subset hsub _)
  have hmem : ⟨.variableDecl, [t, d₁.builder.nextId.toUInt32, storage]⟩ ∈ d'.decls := by
    show _ ∈ d'.builder.decls
    rw [hd]
    exact mem_withVariable
  refine ⟨q.entries.trans hsub, ?_, fun Q hQ => ?_, hres, ?_, ⟨⟨t, hmem, ht'⟩, ?_, hid⟩, hr,
    ⟨t, decs, ht', hplace, ?_⟩, hslot⟩
  · show d'.builder.code = _
    rw [hd, withVariable_code]
    exact q.code
  · show d'.builder.Sound Q
    rw [hd]
    exact sound_withVariable (q.sound Q hQ) ht hn hdecs fun A hA => hplace.placed hr hA
  · rw [hd, withVariable_results]
    exact (ModuleBuilder.results_sublist q.entries).append_right _
  · rw [hres]
    exact List.mem_append_right _ (List.mem_singleton_self _)
  · rw [hd, withVariable_placings hplace.contains, q.placings]

/-- Where a stage variable is found, as an annotation. -/
def Place.decoration : Place → UInt32 × List UInt32
  | .location n => (Decoration.location, [n.toUInt32])
  | .builtIn code _ => (Decoration.builtIn, [code])

/-- The places in use: locations that fit in a word, and built-in meanings. -/
def Place.Known : Place → Prop
  | .location n => n < 4294967296
  | .builtIn code name => (code = BuiltIn.position ∨ code = BuiltIn.globalInvocationId) ∧ name ≠ ""

omit [NameLimit] in
theorem Place.decorated {place : Place} (h : place.Known) :
    Decorated place.decoration.1 place.decoration.2 := by
  cases place with
  | location n => exact .location _
  | builtIn code name =>
    rcases h.1 with rfl | rfl
    · exact .position
    · exact .invocation

/-- **An input or output of the stage.** -/
theorem stageVariable_spec {kind : ResourceClass} {name format : String} {type : ValueType}
    {typeId : UInt32} {place : Place} {ty : Ty} (hs : d.Sound P) (ht : TypeAt d.decls typeId ty)
    (hsc : ty.component.isScalar) (hn : ShortName name) (hp : place.Known)
    (hkind : kind = .stageInput ∨ kind = .stageOutput)
    (h : Draws (stageVariable kind name type typeId format place) d v d') :
    ∃ r, Declares d v (if kind = .stageOutput then StorageClass.output else StorageClass.input) ty r
        d' ∧
      d' = { d with
        builder := d'.builder, interface := d.interface ++ [v], resources := d.resources ++ [r] } ∧
      r.kind = kind ∧ r.name = name ∧ (r.builtIn = "" ↔ ∃ n, place = .location n) := by
  rw [stageVariable] at h
  dsimp only at h
  generalize hst : (if kind = .stageOutput then StorageClass.output else StorageClass.input) =
    storage at h
  obtain ⟨w, d₁, hw, h⟩ := draws_bind.1 h
  obtain ⟨_, d₂, hm, h⟩ := draws_bind.1 h
  rw [draws_modify] at hm
  rw [draws_pure] at h
  obtain ⟨rfl, rfl⟩ := h
  have hbound : kind.isBound = false := by rcases hkind with rfl | rfl <;> rfl
  obtain ⟨r, rfl, hrv, hrk, hrd, hrn, hrb, hplaces⟩ : ∃ r : Resource, d' = { d₁ with
      interface := d₁.interface ++ [v], resources := d₁.resources ++ [r] } ∧ r.variable_ = v ∧
      r.kind = kind ∧ r.dim = 0 ∧ r.name = name ∧ (r.builtIn = "" ↔ ∃ n, place = .location n) ∧
      r.Placing [place.decoration] := by
    cases place with
    | location n =>
      exact ⟨_, hm, rfl, rfl, rfl, rfl, ⟨fun _ => ⟨n, rfl⟩, fun _ => rfl⟩, .location hbound rfl hp rfl⟩
    | builtIn code nm =>
      refine ⟨_, hm, rfl, rfl, rfl, rfl, ⟨fun h => absurd h hp.2, ?_⟩, .builtIn hbound rfl hp.2⟩
      rintro ⟨n, h⟩
      cases h
  have hholding : r.Holding storage ty := by
    rcases hkind with rfl | rfl
    · rw [← hst, if_neg (by decide)]
      exact .input hrk hrd hsc
    · rw [← hst, if_pos rfl]
      exact .output hrk hrd hsc
  rw [assemble_bind] at hw
  obtain ⟨pointer, d₃, hpt, hw⟩ := draws_bind.1 hw
  obtain ⟨q, hpt⟩ := typePointer_spec hs ht hpt
  have hbuild : v = d₃.builder.nextId.toUInt32 ∧ d₁ = { d₃ with
      builder := withVariable d₃.builder pointer storage name [place.decoration] } := by
    rw [draws_assemble] at hw
    cases place with
    | location n => exact hw
    | builtIn code nm => exact hw
  obtain ⟨rfl, rfl⟩ := hbuild
  refine ⟨r, declares_withVariable q.toSilent hpt hn hholding hplaces ?_ hrv rfl ?_ ?_, ?_, hrk, hrn, hrb⟩
  · intro e he
    rw [List.mem_singleton.1 he]
    exact Place.decorated hp
  · rw [q.fields]
  · rw [hrk, hbound, if_neg Bool.false_ne_true, q.fields]
  · rw [q.fields]

/-- **An image or a sampler of a node.** -/
theorem boundVariable_spec {typeId : UInt32} {node : Nat} {r : Resource} {ty : Ty} (hs : d.Sound P)
    (ht : TypeAt d.decls typeId ty) (hn : ShortName r.name)
    (hr : r.Holding StorageClass.uniformConstant ty) (hplace : r.set = 0 ∧ r.location = -1)
    (h : Draws (boundVariable typeId node r) d v d') :
    ∃ r', Declares d v StorageClass.uniformConstant ty r' d' ∧
      d' = { d with
        builder := d'.builder, nextSlot := d'.nextSlot, resources := d.resources ++ [r'],
        origins := d'.origins } ∧
      r'.kind = r.kind ∧ r'.node = some node := by
  rw [boundVariable, draws_get_bind] at h
  obtain ⟨w, d₁, hw, h⟩ := draws_bind.1 h
  obtain ⟨_, d₂, hm, h⟩ := draws_bind.1 h
  rw [draws_modify] at hm
  rw [draws_pure] at h
  obtain ⟨rfl, rfl⟩ := h
  subst hm
  rw [assemble_bind] at hw
  obtain ⟨pointer, d₃, hpt, hw⟩ := draws_bind.1 hw
  obtain ⟨q, hpt⟩ := typePointer_spec hs ht hpt
  rw [draws_assemble] at hw
  obtain ⟨rfl, rfl⟩ : v = d₃.builder.nextId.toUInt32 ∧ d₁ = { d₃ with
      builder := withVariable d₃.builder pointer StorageClass.uniformConstant r.name
        [(Decoration.descriptorSet, [0]), (Decoration.binding, [d.nextSlot.toUInt32])] } := hw
  have hbound : r.kind.isBound = true := by
    cases hr with
    | sampled hk | written hk | sampler hk => rw [hk]; rfl
  have hholding : ({ r with
      variable_ := d₃.builder.nextId.toUInt32, node := some node, slot := d.nextSlot } :
        Resource).Holding StorageClass.uniformConstant ty := by
    cases hr with
    | sampled hk hd => exact .sampled hk hd
    | written hk hd => exact .written hk hd
    | sampler hk hd => exact .sampler hk hd
  refine ⟨_, declares_withVariable q.toSilent hpt hn hholding (.bound hbound hplace.1 hplace.2) ?_ rfl
    rfl ?_ ?_, by rw [q.fields], rfl, rfl⟩
  · simp only [List.forall_mem_cons, List.not_mem_nil, false_implies, implies_true, and_true]
    exact ⟨.descriptorSet 0, .binding _⟩
  · rw [q.fields]
  · exact (if_pos hbound).mpr ⟨rfl, rfl⟩

end Drafting

end NodeShader
