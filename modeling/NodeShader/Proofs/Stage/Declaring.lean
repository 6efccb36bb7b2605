import NodeShader.Proofs.Stage.Furnished

/-!
# Declaring what nodes need

Each node of the order declares its variables before any code is written.

* `declareNode_spec`: declaring a node keeps the draft furnished, and then it serves the node
  (`Draft.Serves`).
* `declareNodes_spec`: so after the whole order it serves every node.
* `Draft.Counted.interface_le`: the interface stays small, since a stage has three inputs at most and
  only its root has outputs.
-/

namespace NodeShader

open Spirv

/-- Names as they are written into a module are shorter than `2 ^ 17` bytes. -/
def Graph.NamesFit [NameLimit] (g : Graph) : Prop :=
  ∀ n ∈ g.nodes.toList, (Text.bytes n.fieldName).length < NameLimit.bytes ∧
    ∀ name dim, n.params = .texture name dim → (Text.bytes name).length < NameLimit.bytes

/-- The outputs that a node of a kind declares, the last one first. -/
def NodeKind.outputNames : NodeKind → List String
  | .previewOutput => ["color"]
  | .materialOutput => ["emission", "roughness", "base_color"]
  | _ => []

/-- **A step that declares variables** and keeps what there is; the new outputs have some names. -/
structure Draft.Furnishes [NameLimit] (d : Draft) (p : StagePlan) (names : List String) (d' : Draft) : Prop where
  core : d'.core = d.core
  entries : d.builder.entries.toList.Sublist d'.builder.entries.toList
  code : d'.code = d.code
  sound : ∀ P, d.Sound P → d'.Sound P
  furnished : d'.Furnished p
  counted : d'.Counted
  inputs : d.inputs ⊆ d'.inputs
  invocation : d.invocation.isSome → d'.invocation.isSome
  outputs : d.outputs ⊆ d'.outputs
  fields : d.fields ⊆ d'.fields
  storage : d.storage.isSome → d'.storage.isSome
  named : d'.outputs.map (·.1) = names ++ d.outputs.map (·.1)

/-- What the coordinate of a sample without a position needs. -/
def Draft.HasCoordinate (d : Draft) (dim : Nat) : Prop :=
  if d.model = .fragment then ∃ v, ((if dim = 2 then StageInput.texCoord else .position), v) ∈ d.inputs
  else d.invocation.isSome

/-- **A draft that has what the code of a node needs.** -/
structure Draft.Serves (d : Draft) (p : StagePlan) (i : Nat) (n : Node) : Prop where
  position : n.kind = .position → d.HasCoordinate 3
  normal : n.kind = .normal → ∃ v, (StageInput.normal, v) ∈ d.inputs
  texCoord : n.kind = .texCoord → ∃ v, (StageInput.texCoord, v) ∈ d.inputs
  sample : n.kind = .sample → ∀ f q rest, n.inputs = f :: q :: rest → 2 ≤ (p.typeOf f).size ∧
    ∀ port, p.graph.port? q = some port → port.isConnected = false →
      d.HasCoordinate (p.typeOf f).size
  texture : n.kind = .texture → ∀ out ∈ n.outputs, ∃ f, (out, f) ∈ d.fields
  boundary : n.kind = .computeField → i ≠ p.root → ∀ out ∈ n.outputs, ∃ f, (out, f) ∈ d.fields
  field : n.kind = .computeField → i = p.root → d.invocation.isSome ∧ d.storage.isSome
  preview : n.kind = .previewOutput → ∃ v, ("color", v) ∈ d.outputs
  material : n.kind = .materialOutput → ∀ name ∈ ["base_color", "roughness", "emission"],
    ∃ v, (name, v) ∈ d.outputs

namespace Draft

variable [NameLimit] {d d₁ d₂ d' : Draft} {p : StagePlan} {i : Nat} {n : Node} {names names' : List String}

theorem Furnishes.refl (hf : d.Furnished p) (hc : d.Counted) : d.Furnishes p [] d where
  core := rfl
  entries := List.Sublist.refl _
  code := rfl
  sound := fun _ h => h
  furnished := hf
  counted := hc
  inputs := List.Subset.refl _
  invocation := id
  outputs := List.Subset.refl _
  fields := List.Subset.refl _
  storage := id
  named := rfl

theorem Furnishes.trans (h₁ : d.Furnishes p names d₁) (h₂ : d₁.Furnishes p names' d₂) :
    d.Furnishes p (names' ++ names) d₂ where
  core := h₂.core.trans h₁.core
  entries := h₁.entries.trans h₂.entries
  code := h₂.code.trans h₁.code
  sound := fun P hP => h₂.sound P (h₁.sound P hP)
  furnished := h₂.furnished
  counted := h₂.counted
  inputs := List.Subset.trans h₁.inputs h₂.inputs
  invocation := fun h => h₂.invocation (h₁.invocation h)
  outputs := List.Subset.trans h₁.outputs h₂.outputs
  fields := List.Subset.trans h₁.fields h₂.fields
  storage := fun h => h₂.storage (h₁.storage h)
  named := by rw [h₂.named, h₁.named, List.append_assoc]

theorem Furnishes.model (h : d.Furnishes p names d') : d'.model = d.model :=
  eq_of_view Draft.core Draft.model (fun _ => rfl) h.core

omit [NameLimit] in
theorem HasCoordinate.mono {dim : Nat} (hm : d'.model = d.model) (hi : d.inputs ⊆ d'.inputs)
    (hv : d.invocation.isSome → d'.invocation.isSome) (h : d.HasCoordinate dim) :
    d'.HasCoordinate dim := by
  rw [HasCoordinate, hm]
  rw [HasCoordinate] at h
  split at h
  · rename_i hfrag
    rw [if_pos hfrag]
    obtain ⟨v, hv⟩ := h
    exact ⟨v, hi hv⟩
  · rename_i hfrag
    rw [if_neg hfrag]
    exact hv h

omit [NameLimit] in
/-- What serves a node goes on serving it. -/
theorem Serves.mono (hm : d'.model = d.model) (hi : d.inputs ⊆ d'.inputs)
    (hv : d.invocation.isSome → d'.invocation.isSome) (ho : d.outputs ⊆ d'.outputs)
    (hf : d.fields ⊆ d'.fields) (hs : d.storage.isSome → d'.storage.isSome) (h : d.Serves p i n) :
    d'.Serves p i n where
  position := fun hk => (h.position hk).mono hm hi hv
  normal := fun hk => (h.normal hk).imp fun _ hx => hi hx
  texCoord := fun hk => (h.texCoord hk).imp fun _ hx => hi hx
  sample := fun hk f q rest hin => ⟨(h.sample hk f q rest hin).1, fun port hp hc =>
    ((h.sample hk f q rest hin).2 port hp hc).mono hm hi hv⟩
  texture := fun hk out ho => (h.texture hk out ho).imp fun _ hx => hf hx
  boundary := fun hk hr out ho => (h.boundary hk hr out ho).imp fun _ hx => hf hx
  field := fun hk hr => ⟨hv (h.field hk hr).1, hs (h.field hk hr).2⟩
  preview := fun hk => (h.preview hk).imp fun _ hx => ho hx
  material := fun hk name hn => (h.material hk name hn).imp fun _ hx => ho hx

omit [NameLimit] in
/-- Code leaves what serves a node as it is. -/
theorem Serves.frame (hf : d'.frame = d.frame) (h : d.Serves p i n) : d'.Serves p i n := by
  refine h.mono (eq_of_view Draft.frame Draft.model (fun _ => rfl) hf) ?_ ?_ ?_ ?_ ?_
  · rw [eq_of_view Draft.frame Draft.inputs (fun _ => rfl) hf]
    exact List.Subset.refl _
  · rw [eq_of_view Draft.frame Draft.invocation (fun _ => rfl) hf]
    exact id
  · rw [eq_of_view Draft.frame Draft.outputs (fun _ => rfl) hf]
    exact List.Subset.refl _
  · rw [eq_of_view Draft.frame Draft.fields (fun _ => rfl) hf]
    exact List.Subset.refl _
  · rw [eq_of_view Draft.frame Draft.storage (fun _ => rfl) hf]
    exact id

omit [NameLimit] in
/-- A stage has three inputs at most. -/
theorem Counted.inputs_le (h : d.Counted) : d.inputs.length ≤ 3 := by
  have hsub : d.inputs.map (·.1) ⊆ StageInput.all := by
    intro s _
    cases s <;> decide
  have := (List.subperm_of_subset h.keys hsub).length_le
  rwa [List.length_map] at this

omit [NameLimit] in
theorem Counted.interface_le (h : d.Counted) (ho : d.outputs.length ≤ 3) :
    d.interface.length ≤ 7 := by
  have := h.inputs_le
  rw [h.length]
  split <;> omega

end Draft

namespace Drafting

variable [NameLimit] {d d' : Draft} {p : StagePlan} {P : List UInt32} {u : Unit} {v : UInt32} {i : Nat} {n : Node}

omit [NameLimit] in
theorem isSome_lookup {α β : Type} [BEq α] [LawfulBEq α] {l : List (α × β)} {a : α} {b : β}
    (h : (a, b) ∈ l) : ∃ c, l.lookup a = some c := by
  cases hl : l.lookup a with
  | some c => exact ⟨c, rfl⟩
  | none =>
    rw [List.lookup_eq_none_iff] at hl
    exact absurd (hl (a, b) h) (by simp)

/-- An input or output of a value type. -/
theorem valueVariable_spec {kind : ResourceClass} {name : String} {type : ValueType} {k : Nat}
    (hs : d.Sound P) (hn : ShortName name) (hk : k < 4294967296)
    (hkind : kind = .stageInput ∨ kind = .stageOutput)
    (h : Draws (valueVariable kind name type (.location k)) d v d') :
    ∃ r, Declares d v (if kind = .stageOutput then StorageClass.output else StorageClass.input)
        type.shape r d' ∧
      d' = { d with
        builder := d'.builder, interface := d.interface ++ [v], resources := d.resources ++ [r] } ∧
      r.kind = kind ∧ r.name = name ∧ r.builtIn = "" := by
  rw [valueVariable] at h
  obtain ⟨t, d₁, ht, h⟩ := draws_bind.1 h
  obtain ⟨hv, q, ht⟩ := typeOf_spec hs ht
  have hp : (Place.location k).Known := hk
  obtain ⟨r, hd, hfields, hk, hname, hb⟩ := stageVariable_spec (q.sound P hs) ht
    (ValueType.shape_component_isScalar hv) hn hp hkind h
  refine ⟨r, hd.after q.toSilent, ?_, hk, hname, hb.2 ⟨k, rfl⟩⟩
  rw [hfields, q.fields]

/-- A variable is registered, and the draft remembers what it did. -/
theorem Declares.furnished {storage : UInt32} {ty : Ty} {r : Resource}
    (h : Declares d v storage ty r d') (hf : d.Furnished p) (hm : d'.memory = d.memory)
    (hi : ∀ x ∈ d'.interface, x ∈ d.interface ∨ x = v) : d'.Furnished p :=
  hf.widen h.wider hm (h.registered hf.registered
    (Draft.eq_of_view Draft.memory Draft.extended (fun _ => rfl) hm)
    (Draft.eq_of_view Draft.memory Draft.globals (fun _ => rfl) hm) hi)

omit [NameLimit] in
/-- One more resource of another class. -/
theorem kind_snoc {l : List Resource} {Q : Resource → Prop} {k : ResourceClass} {r : Resource}
    (h : ∀ r ∈ l, r.kind = k → Q r) (hr : r.kind ≠ k) : ∀ r' ∈ l ++ [r], r'.kind = k → Q r' := by
  intro r' hr' hk
  rw [List.mem_append, List.mem_singleton] at hr'
  rcases hr' with hr' | rfl
  · exact h r' hr' hk
  · exact absurd hk hr

omit [NameLimit] in
theorem mem_snoc {α : Type} {l : List α} {a x : α} (h : x ∈ l ++ [a]) : x ∈ l ∨ x = a := by
  rwa [List.mem_append, List.mem_singleton] at h

/-- An input of the fragment body. -/
theorem stageInput_spec {input : StageInput} (hs : d.Sound P) (hf : d.Furnished p)
    (hc : d.Counted) (h : Draws (stageInput input) d u d') :
    d.Furnishes p [] d' ∧ ∃ v, (input, v) ∈ d'.inputs := by
  rw [stageInput, draws_get_bind] at h
  cases hl : d.inputs.lookup input with
  | some v =>
    rw [hl] at h
    obtain ⟨-, rfl⟩ := draws_pure.1 h
    exact ⟨.refl hf hc, v, lookup_mem hl⟩
  | none =>
    rw [hl] at h
    obtain ⟨v, d₁, h₁, h⟩ := draws_bind.1 h
    rw [draws_modify] at h
    have hname : ShortName input.name := by cases input <;> exact .of_lt (by decide)
    obtain ⟨r, hd, hfields, hk, hn, hb⟩ := valueVariable_spec hs hname
      (by cases input <;> decide) (.inl rfl) h₁
    have hf₁ : d₁.Furnished p := hd.furnished hf (by rw [hfields]; rfl) (by
      rw [hfields]
      exact fun x hx => mem_snoc hx)
    have hin : d₁.inputs = d.inputs := by rw [hfields]
    subst h
    refine ⟨⟨by rw [hfields]; rfl, hd.entries, hd.code, hd.sound, ?_, ⟨?_, ?_, ?_, ?_, ?_, ?_⟩, ?_, ?_, ?_,
      ?_, ?_, ?_⟩, v, List.mem_cons_self⟩
    · refine hf₁.remember rfl ?_ (fun _ => .inl) (fun _ => .inl) (fun _ => .inl) (fun _ => .inl)
      intro e he
      rcases List.mem_cons.1 he with rfl | he
      · exact .inr ⟨r, hd.listed, hk, hb, hn⟩
      · exact .inl he
    · show (input :: d₁.inputs.map (·.1)).Nodup
      rw [hin, List.nodup_cons]
      refine ⟨?_, hc.keys⟩
      intro hm
      obtain ⟨⟨s, w⟩, he, rfl⟩ := List.mem_map.1 hm
      obtain ⟨c, hc⟩ := isSome_lookup he
      rw [hl] at hc
      cases hc
    · rw [hfields]
      exact kind_snoc hc.stored (by rw [hk]; decide)
    · show d₁.interface.length = (d₁.inputs.length + 1) + d₁.outputs.length + _
      have hlen := hc.length
      rw [hfields]
      simp only [List.length_append, List.length_singleton] at hlen ⊢
      omega
    · rw [hfields]
      exact hc.fields
    · rw [hfields]
      exact kind_snoc hc.images (by rw [hk]; decide)
    · rw [hfields]
      exact kind_snoc hc.samplers (by rw [hk]; decide)
    · show d.inputs ⊆ (input, v) :: d₁.inputs
      rw [hin]
      exact List.subset_cons_self _ _
    · rw [hfields]
      exact id
    · rw [hfields]
      exact List.Subset.refl _
    · rw [hfields]
      exact List.Subset.refl _
    · rw [hfields]
      exact id
    · rw [hfields]
      rfl

/-- The texel of the current invocation. -/
theorem invocationId_spec (hs : d.Sound P) (hf : d.Furnished p) (hc : d.Counted)
    (h : Draws invocationId d u d') : d.Furnishes p [] d' ∧ d'.invocation.isSome := by
  rw [invocationId, draws_get_bind] at h
  cases hl : d.invocation with
  | some v =>
    rw [hl] at h
    obtain ⟨-, rfl⟩ := draws_pure.1 h
    exact ⟨.refl hf hc, by rw [hl]; rfl⟩
  | none =>
    rw [hl] at h
    obtain ⟨t, d₀, h₀, h⟩ := draws_bind.1 h
    obtain ⟨q, ht⟩ := unsignedType_spec hs (by decide) h₀
    obtain ⟨v, d₁, h₁, h⟩ := draws_bind.1 h
    rw [draws_modify] at h
    have hp : (Place.builtIn BuiltIn.globalInvocationId "global_invocation_id").Known :=
      ⟨.inr rfl, by decide⟩
    obtain ⟨r, hd, hfields, hk, hn, hb⟩ := stageVariable_spec (q.sound P hs) ht rfl
      (.of_lt (by decide)) hp (.inl rfl) h₁
    have hfields : d₁ = { d with
        builder := d₁.builder, interface := d.interface ++ [v], resources := d.resources ++ [r] } := by
      rw [hfields, q.fields]
    have hd := hd.after q.toSilent
    have hf₁ : d₁.Furnished p := hd.furnished hf (by rw [hfields]; rfl) (by
      rw [hfields]
      exact fun x hx => mem_snoc hx)
    subst h
    refine ⟨⟨by rw [hfields]; rfl, hd.entries, hd.code, hd.sound, ?_, ⟨?_, ?_, ?_, ?_, ?_, ?_⟩, ?_,
      fun _ => rfl, ?_, ?_, ?_, ?_⟩, rfl⟩
    · refine hf₁.remember rfl (fun _ => .inl) ?_ (fun _ => .inl) (fun _ => .inl) (fun _ => .inl)
      intro w hw
      cases hw
      refine .inr ⟨r, hd.listed, hk, fun hr => ?_⟩
      obtain ⟨k, hk⟩ := hb.1 hr
      cases hk
    · rw [hfields]
      exact hc.keys
    · rw [hfields]
      exact kind_snoc hc.stored (by rw [hk]; decide)
    · show d₁.interface.length = d₁.inputs.length + d₁.outputs.length + 1
      have hlen := hc.length
      rw [hl] at hlen
      rw [hfields]
      simp only [List.length_append, List.length_singleton, Option.isSome_none] at hlen ⊢
      simpa using hlen
    · rw [hfields]
      exact hc.fields
    · rw [hfields]
      exact kind_snoc hc.images (by rw [hk]; decide)
    · rw [hfields]
      exact kind_snoc hc.samplers (by rw [hk]; decide)
    · rw [hfields]
      exact List.Subset.refl _
    · rw [hfields]
      exact List.Subset.refl _
    · rw [hfields]
      exact List.Subset.refl _
    · rw [hfields]
      exact id
    · rw [hfields]
      rfl

/-- An output of the fragment body. -/
theorem stageOutput_spec {name : String} {type : ValueType} {k : Nat} (hs : d.Sound P)
    (hf : d.Furnished p) (hc : d.Counted) (hname : ShortName name) (ht : type = outputType name)
    (hk : k < 4294967296) (h : Draws (stageOutput name type k) d u d') :
    d.Furnishes p [name] d' ∧ ∃ v, (name, v) ∈ d'.outputs := by
  rw [stageOutput] at h
  obtain ⟨v, d₁, h₁, h⟩ := draws_bind.1 h
  rw [draws_modify] at h
  obtain ⟨r, hd, hfields, hk, hn, -⟩ := valueVariable_spec hs hname hk (.inr rfl) h₁
  have hf₁ : d₁.Furnished p := hd.furnished hf (by rw [hfields]; rfl) (by
    rw [hfields]
    exact fun x hx => mem_snoc hx)
  have hout : d₁.outputs = d.outputs := by rw [hfields]
  subst h
  refine ⟨⟨by rw [hfields]; rfl, hd.entries, hd.code, hd.sound, ?_, ⟨?_, ?_, ?_, ?_, ?_, ?_⟩, ?_, ?_, ?_, ?_,
    ?_, ?_⟩, v, List.mem_cons_self⟩
  · refine hf₁.remember rfl (fun _ => .inl) (fun _ => .inl) ?_ (fun _ => .inl) (fun _ => .inl)
    intro e he
    rcases List.mem_cons.1 he with rfl | he
    · refine .inr ⟨r, ?_, hk, hn⟩
      rw [← ht]
      exact hd.listed
    · exact .inl he
  · rw [hfields]
    exact hc.keys
  · intro r' hr' hk'
    rw [hd.resources] at hr'
    show (r'.name, r'.variable_) ∈ (name, v) :: d₁.outputs
    rw [hout]
    rcases mem_snoc hr' with hr' | rfl
    · exact List.mem_cons_of_mem _ (hc.stored r' hr' hk')
    · rw [hn, hd.listed.id]
      exact List.mem_cons_self
  · show d₁.interface.length = d₁.inputs.length + (d₁.outputs.length + 1) + _
    have hlen := hc.length
    rw [hfields]
    simp only [List.length_append, List.length_singleton] at hlen ⊢
    omega
  · rw [hfields]
    exact hc.fields
  · rw [hfields]
    exact kind_snoc hc.images (by rw [hk]; decide)
  · rw [hfields]
    exact kind_snoc hc.samplers (by rw [hk]; decide)
  · rw [hfields]
    exact List.Subset.refl _
  · rw [hfields]
    exact id
  · show d.outputs ⊆ (name, v) :: d₁.outputs
    rw [hout]
    exact List.subset_cons_self _ _
  · rw [hfields]
    exact List.Subset.refl _
  · rw [hfields]
    exact id
  · show name :: d₁.outputs.map (·.1) = name :: d.outputs.map (·.1)
    rw [hout]

/-- The type of an image. -/
theorem imageType_spec {dim : Int} {sampled format x : UInt32} (hs : d.Sound P)
    (h : Draws (assemble (do
      Assemble.typeImage (← Assemble.typeFloat 32) (Dim.ofCount dim) sampled format)) d x d') :
    d.Quiet d' ∧ TypeAt d'.decls x (.image (.float 32) (Dim.ofCount dim) sampled format) := by
  rw [assemble_bind] at h
  obtain ⟨float, d₁, h₁, h⟩ := draws_bind.1 h
  obtain ⟨q₁, hfloat⟩ := typeFloat_spec hs h₁
  obtain ⟨q₂, hx⟩ := typeImage_spec (q₁.sound P hs) hfloat (Dim.ofCount_lt dim) h
  exact ⟨q₁.trans q₂, hx⟩

/-- A capability that some drafts need, and what follows. -/
theorem capability_before {b : Prop} [Decidable b] {c : UInt32} {f : Unit → Drafting Unit}
    (h : Draws (if b then assemble (Assemble.capability c) >>= f else f ()) d u d') :
    ∃ d₁, d.Quiet d₁ ∧ Draws (f ()) d₁ u d' := by
  split at h
  · obtain ⟨_, d₁, h₁, h⟩ := draws_bind.1 h
    exact ⟨d₁, capability_spec h₁, h⟩
  · exact ⟨d, .refl d, h⟩

omit [NameLimit] in
/-- The suffix of the name of a sampler. -/
theorem bytes_append (a b : String) : Text.bytes (a ++ b) = Text.bytes a ++ Text.bytes b := by
  rw [Text.bytes, String.toList_append, List.flatMap_append, Text.bytes, Text.bytes]

/-- The image and the sampler of a field that is sampled. -/
theorem sampledField_spec {out : PortId} {name format : String} {dim : Int} (hs : d.Sound P)
    (hf : d.Furnished p) (hc : d.Counted) (hname : (Text.bytes name).length < NameLimit.bytes)
    (hdim : 1 ≤ dim ∧ dim ≤ 3) (ht : p.typeOf out = ValueType.texture1D.withSize dim)
    (hp : p.Planned) (hn : p.graph.nodes[i]? = some n) (ho : out ∈ n.outputs)
    (h : Draws (sampledField i out name dim format) d u d') :
    d.Furnishes p [] d' ∧ ∃ f, (out, f) ∈ d'.fields := by
  rw [sampledField, draws_get_bind] at h
  cases hl : d.fields.lookup out with
  | some f =>
    rw [hl] at h
    obtain ⟨-, rfl⟩ := draws_pure.1 h
    exact ⟨.refl hf hc, f, lookup_mem hl⟩
  | none =>
    rw [hl, Option.isNone_none, if_pos rfl] at h
    dsimp only at h
    have hshort : ShortName name := Nat.lt_of_lt_of_le hname (by omega)
    have hshort' : ShortName (name ++ "_sampler") := by
      rw [ShortName, bytes_append, List.length_append]
      have : (Text.bytes "_sampler").length = 8 := by decide
      omega
    obtain ⟨d₁, q₁, h⟩ := capability_before h
    obtain ⟨imageType, d₂, h₂, h⟩ := draws_bind.1 h
    obtain ⟨q₂, himage⟩ := imageType_spec (q₁.sound P hs) h₂
    have q₁₂ := q₁.trans q₂
    obtain ⟨image, d₃, h₃, h⟩ := draws_bind.1 h
    obtain ⟨ri, hdi, hfi, hki, hni⟩ := boundVariable_spec
      (r := { name, kind := .sampledImage, dim, format }) (q₁₂.sound P hs) himage hshort
      (.sampled rfl hdim) ⟨rfl, rfl⟩ h₃
    obtain ⟨samplerType, d₄, h₄, h⟩ := draws_bind.1 h
    obtain ⟨q₄, hsampler⟩ := typeSampler_spec (hdi.sound P (q₁₂.sound P hs)) h₄
    obtain ⟨sampler, d₅, h₅, h⟩ := draws_bind.1 h
    obtain ⟨rs, hds, hfs, hks, hns⟩ := boundVariable_spec
      (r := { name := name ++ "_sampler", kind := .sampler })
      (q₄.sound P (hdi.sound P (q₁₂.sound P hs))) hsampler hshort' (.sampler rfl rfl)
      ⟨rfl, rfl⟩ h₅
    rw [draws_modify] at h
    have himage := himage.mono (ModuleBuilder.sectionOf_subset hdi.entries .types)
    have hdi := hdi.after q₁₂.toSilent
    have hds := hds.after q₄.toSilent
    -- both variables are resources of the field
    have hfields₃ : d₃ = { d with
        builder := d₃.builder, nextSlot := d₃.nextSlot, resources := d₃.resources,
        origins := d₃.origins } := by rw [hfi, q₁₂.fields]
    have hfields : d₅ = { d with
        builder := d₅.builder, nextSlot := d₅.nextSlot, resources := d₅.resources,
        origins := d₅.origins } := by rw [hfs, q₄.fields, hfields₃]
    have hf₃ : d₃.Furnished p := hdi.furnished hf (by rw [hfields₃]; rfl) (by
      rw [hfields₃]
      exact fun x => .inl)
    have hf₅ : d₅.Furnished p := hds.furnished hf₃ (by rw [hfs, q₄.fields]; rfl) (by
      rw [hfs, q₄.fields]
      exact fun x => .inl)
    have hsamples : d₅.Samples p out { image, sampler, imageType, dim } :=
      ⟨hdim, ht, ⟨i, n, hn, ho⟩, himage.mono (ModuleBuilder.sectionOf_subset hds.entries .types), i, ri, rs,
        hp.consistent.ownerPosition?_of_mem hn (show out ∈ n.portsOf .output from ho),
        hds.wider.listed hdi.listed, hki, hni, hds.listed, hks, hns⟩
    subst h
    have hlisted : d₅.resources = d.resources ++ [ri] ++ [rs] := by rw [hds.resources, hdi.resources]
    have hremembered : d₅.fields = d.fields := by rw [hfields]
    refine ⟨⟨by rw [hfields]; rfl, hdi.entries.trans hds.entries, hds.code.trans hdi.code,
      fun Q hQ => hds.sound Q (hdi.sound Q hQ), ?_, ⟨?_, ?_, ?_, ?_, ?_, ?_⟩, ?_, ?_, ?_, ?_, ?_, ?_⟩,
      _, List.mem_cons_self⟩
    · refine hf₅.remember rfl (fun _ => .inl) (fun _ => .inl) (fun _ => .inl) ?_ (fun _ => .inl)
      intro e he
      rcases List.mem_cons.1 he with rfl | he
      · exact .inr hsamples
      · exact .inl he
    · rw [hfields]
      exact hc.keys
    · rw [show d₅.outputs = d.outputs by rw [hfields]]
      show ∀ r ∈ d₅.resources, _
      rw [hlisted]
      exact kind_snoc (kind_snoc hc.stored (by rw [hki]; exact fun h => by cases h))
        (by rw [hks]; exact fun h => by cases h)
    · rw [hfields]
      exact hc.length
    · show (out :: d₅.fields.map (·.1)).Nodup
      rw [hremembered, List.nodup_cons]
      refine ⟨fun hm => ?_, hc.fields⟩
      obtain ⟨⟨o, f⟩, he, rfl⟩ := List.mem_map.1 hm
      obtain ⟨c, hc⟩ := isSome_lookup he
      rw [hl] at hc
      cases hc
    · show ∀ r ∈ d₅.resources, r.kind = .sampledImage → ∃ e ∈ (out, _) :: d₅.fields, _
      rw [hlisted, hremembered]
      refine kind_snoc ?_ (by rw [hks]; exact fun h => by cases h)
      intro r hr hk
      rcases mem_snoc hr with hr | rfl
      · exact (hc.images r hr hk).imp fun e he => ⟨List.mem_cons_of_mem _ he.1, he.2⟩
      · exact ⟨_, List.mem_cons_self, hdi.listed.id.symm⟩
    · show ∀ r ∈ d₅.resources, r.kind = .sampler → ∃ e ∈ (out, _) :: d₅.fields, _
      rw [hlisted, hremembered]
      intro r hr hk
      rcases mem_snoc hr with hr | rfl
      · have hold := kind_snoc hc.samplers (show ri.kind ≠ .sampler by
          rw [hki]
          exact fun h => by cases h) r hr hk
        exact hold.imp fun e he => ⟨List.mem_cons_of_mem _ he.1, he.2⟩
      · exact ⟨_, List.mem_cons_self, hds.listed.id.symm⟩
    · rw [hfields]
      exact List.Subset.refl _
    · rw [hfields]
      exact id
    · rw [hfields]
      exact List.Subset.refl _
    · show d.fields ⊆ (out, _) :: d₅.fields
      rw [hremembered]
      exact List.subset_cons_self _ _
    · rw [hfields]
      exact id
    · rw [hfields]
      rfl

/-- The image that a compute stage writes. -/
theorem storageField_spec {dim resolution : Int} (hs : d.Sound P) (hf : d.Furnished p)
    (hc : d.Counted) (hname : (Text.bytes n.fieldName).length < NameLimit.bytes)
    (hdim : 1 ≤ dim ∧ dim ≤ 3) (hn : p.graph.nodes[p.root]? = some n) (hparams : n.params = .field dim resolution)
    (h : Draws (storageField p.root n dim) d u d') :
    d.Furnishes p [] d' ∧ d'.storage.isSome := by
  rw [storageField] at h
  have hshort : ShortName n.fieldName := Nat.lt_of_lt_of_le hname (by omega)
  obtain ⟨imageType, d₁, h₁, h⟩ := draws_bind.1 h
  obtain ⟨q₁, himage⟩ := imageType_spec hs h₁
  obtain ⟨image, d₂, h₂, h⟩ := draws_bind.1 h
  obtain ⟨r, hd, hfields, hk, hnode⟩ := boundVariable_spec
    (r := { name := n.fieldName, kind := .storageImage, dim, format := "rgba32f" })
    (q₁.sound P hs) himage hshort (.written rfl hdim) ⟨rfl, rfl⟩ h₂
  obtain ⟨_, d₃, h₃, h⟩ := draws_bind.1 h
  have q₃ := decorate_spec hd.listed.mem_results .nonReadable (.inr rfl) h₃
  rw [draws_modify] at h
  have himage := himage.mono (ModuleBuilder.sectionOf_subset hd.entries .types)
  have hd := hd.after q₁.toSilent
  have hfields₃ : d₃ = { d with
      builder := d₃.builder, nextSlot := d₃.nextSlot, resources := d₃.resources,
      origins := d₃.origins } := by rw [q₃.fields, hfields, q₁.fields]
  have hf₂ : d₂.Furnished p := hd.furnished hf (by rw [hfields, q₁.fields]; rfl) (by
    rw [hfields, q₁.fields]
    exact fun x => .inl)
  have w₃ : d₂.Wider d₃ := ⟨q₃.entries, by rw [q₃.fields]; exact List.Subset.refl _⟩
  have hf₃ : d₃.Furnished p := hf₂.widen w₃ (by rw [q₃.fields]; rfl) (hf₂.registered.silent q₃)
  have hstores : d₃.Stores p { image, imageType, dim } :=
    ⟨himage.mono q₃.decls,
      ⟨r, w₃.listed hd.listed, hk, hnode⟩, n, resolution, hn, hparams⟩
  have hlisted : d₃.resources = d.resources ++ [r] := by
    rw [show d₃.resources = d₂.resources by rw [q₃.fields], hd.resources]
  subst h
  refine ⟨⟨by rw [hfields₃]; rfl, hd.entries.trans q₃.entries, q₃.code.trans hd.code,
    fun Q hQ => q₃.sound Q (hd.sound Q hQ), ?_, ⟨?_, ?_, ?_, ?_, ?_, ?_⟩, ?_, ?_, ?_, ?_, fun _ => rfl, ?_⟩,
    rfl⟩
  · refine hf₃.remember rfl (fun _ => .inl) (fun _ => .inl) (fun _ => .inl) (fun _ => .inl) ?_
    intro f hf
    cases hf
    exact .inr hstores
  · rw [hfields₃]
    exact hc.keys
  · rw [show d₃.outputs = d.outputs by rw [hfields₃]]
    show ∀ r ∈ d₃.resources, _
    rw [hlisted]
    exact kind_snoc hc.stored (by rw [hk]; exact fun h => by cases h)
  · rw [hfields₃]
    exact hc.length
  · rw [hfields₃]
    exact hc.fields
  · show ∀ r ∈ d₃.resources, _ → ∃ e ∈ d₃.fields, _
    rw [hlisted, show d₃.fields = d.fields by rw [hfields₃]]
    exact kind_snoc hc.images (by rw [hk]; exact fun h => by cases h)
  · show ∀ r ∈ d₃.resources, _ → ∃ e ∈ d₃.fields, _
    rw [hlisted, show d₃.fields = d.fields by rw [hfields₃]]
    exact kind_snoc hc.samplers (by rw [hk]; exact fun h => by cases h)
  · rw [hfields₃]
    exact List.Subset.refl _
  · rw [hfields₃]
    exact id
  · rw [hfields₃]
    exact List.Subset.refl _
  · rw [hfields₃]
    exact List.Subset.refl _
  · rw [hfields₃]
    rfl

/-! ### Nodes -/

omit [NameLimit] in
theorem isFragment_bind {α : Type} {f : Bool → Drafting α} {a : α} :
    Draws (isFragment >>= f) d a d' ↔ Draws (f (d.model = .fragment)) d a d' := by
  rw [draws_bind]
  constructor
  · rintro ⟨b, d₁, hb, h⟩
    obtain ⟨rfl, rfl⟩ : b = decide (d.model = .fragment) ∧ d₁ = d := by
      rw [isFragment, draws_get_bind] at hb
      exact draws_pure.1 hb
    exact h
  · intro h
    refine ⟨_, d, ?_, h⟩
    rw [isFragment, draws_get_bind]
    exact draws_pure.2 ⟨rfl, rfl⟩

/-- The coordinate of a sample without a position. -/
theorem implicitCoordinate_spec {dim : Nat} (hs : d.Sound P) (hf : d.Furnished p)
    (hc : d.Counted) (h : Draws (implicitCoordinate dim) d u d') :
    d.Furnishes p [] d' ∧ d'.HasCoordinate dim := by
  rw [implicitCoordinate, isFragment_bind] at h
  by_cases hfrag : d.model = .fragment
  · rw [decide_eq_true hfrag, Bool.not_true, if_neg Bool.false_ne_true] at h
    have hinput : ∀ {input : StageInput}, Draws (stageInput input) d u d' →
        input = (if dim = 2 then .texCoord else .position) →
        d.Furnishes p [] d' ∧ d'.HasCoordinate dim := by
      intro input h hi
      obtain ⟨hd, v, hv⟩ := stageInput_spec hs hf hc h
      refine ⟨hd, ?_⟩
      rw [Draft.HasCoordinate, hd.model, if_pos hfrag, ← hi]
      exact ⟨v, hv⟩
    split at h
    · rename_i h2
      exact hinput h (by rw [if_pos (by omega)])
    · rename_i h2
      exact hinput h (by rw [if_neg (by omega)])
  · rw [decide_eq_false hfrag, Bool.not_false, if_pos rfl] at h
    obtain ⟨hd, hv⟩ := invocationId_spec hs hf hc h
    refine ⟨hd, ?_⟩
    rw [Draft.HasCoordinate, hd.model, if_neg hfrag]
    exact hv

section Kinds

variable (hs : d.Sound P) (hf : d.Furnished p) (hc : d.Counted)

include hf hc in
omit hs in
/-- Most kinds need nothing. -/
theorem nothing_served (hother : n.kind ∉ [NodeKind.position, .normal, .texCoord, .sample, .texture,
    .computeField, .previewOutput, .materialOutput]) (hnames : n.kind.outputNames = [])
    (h : Draws (pure ()) d u d') : d.Furnishes p n.kind.outputNames d' ∧ d'.Serves p i n := by
  obtain ⟨-, rfl⟩ := draws_pure.1 h
  rw [hnames]
  refine ⟨.refl hf hc, ?_⟩
  constructor <;> intro hk <;> exact absurd (by simp [hk]) hother

include hs hf hc

/-- The position is the coordinate of a sample of a field that is not flat. -/
theorem position_served (hk : n.kind = .position)
    (h : Draws (do if ← isFragment then stageInput .position else invocationId) d u d') :
    d.Furnishes p n.kind.outputNames d' ∧ d'.Serves p i n := by
  have hsame : (do if ← isFragment then stageInput .position else invocationId) =
      implicitCoordinate ((3 : Nat) : Int) := by
    refine bind_congr fun b => ?_
    cases b with
    | false => rw [if_neg Bool.false_ne_true, Bool.not_false, if_pos rfl]
    | true => rw [if_pos rfl, Bool.not_true, if_neg Bool.false_ne_true, if_neg (by decide)]
  rw [hsame] at h
  obtain ⟨hd, hv⟩ := implicitCoordinate_spec hs hf hc h
  rw [hk]
  refine ⟨hd, ?_⟩
  constructor <;> intro hk' <;> rw [hk] at hk' <;> cases hk'
  exact hv

/-- An input that render stages alone have. -/
theorem renderInput_spec (input : StageInput) {reason : String}
    (h : Draws (do if !(← isFragment) then unsupported n reason else stageInput input) d u d') :
    d.Furnishes p [] d' ∧ ∃ v, (input, v) ∈ d'.inputs := by
  rw [isFragment_bind] at h
  cases hfrag : decide (d.model = .fragment) <;> rw [hfrag] at h
  · exact absurd h not_draws_unsupported
  · exact stageInput_spec hs hf hc h

/-- A sample without a position has a coordinate of its own. -/
theorem sample_served {f q : PortId} (hk : n.kind = .sample) (hin : n.inputs = [f, q])
    (hdim : ¬ (p.typeOf f).size < 2)
    (h : Draws (do
      let port ← demand (p.graph.port? q)
      if !port.isConnected then implicitCoordinate (p.typeOf f).size) d u d') :
    d.Furnishes p n.kind.outputNames d' ∧ d'.Serves p i n := by
  have hserves : ∀ {d' : Draft}, (∀ port, p.graph.port? q = some port → port.isConnected = false →
      d'.HasCoordinate (p.typeOf f).size) → d'.Serves p i n := by
    intro d' hv
    constructor <;> intro hk' <;> rw [hk] at hk' <;> cases hk'
    intro f' q' rest hin'
    rw [hin] at hin'
    cases hin'
    exact ⟨by omega, hv⟩
  rw [hk]
  obtain ⟨port, d₁, hport, h⟩ := draws_bind.1 h
  obtain ⟨hsome, hd₁⟩ := draws_demand.1 hport
  rw [hd₁] at h
  cases hcon : port.isConnected <;> rw [hcon] at h
  · obtain ⟨hd, hv⟩ := implicitCoordinate_spec hs hf hc h
    exact ⟨hd, hserves fun _ _ _ => hv⟩
  · obtain ⟨-, rfl⟩ := draws_pure.1 h
    refine ⟨.refl hf hc, hserves fun port' hport' hcon' => ?_⟩
    cases hsome.symm.trans hport'
    cases hcon.symm.trans hcon'

/-- The root of a compute stage writes its field. -/
theorem ownField_served {dim resolution : Int} (hn : p.graph.nodes[p.root]? = some n)
    (hname : (Text.bytes n.fieldName).length < NameLimit.bytes) (hk : n.kind = .computeField)
    (hparams : n.params = .field dim resolution) (hdim : 1 ≤ dim ∧ dim ≤ 3)
    (h : Draws (do
      storageField p.root n dim
      invocationId) d u d') : d.Furnishes p n.kind.outputNames d' ∧ d'.Serves p p.root n := by
  rw [hk]
  obtain ⟨_, d₁, h₁, h⟩ := draws_bind.1 h
  obtain ⟨hd₁, hst⟩ := storageField_spec hs hf hc hname hdim hn hparams h₁
  obtain ⟨hd₂, hinv⟩ := invocationId_spec (hd₁.sound P hs) hd₁.furnished hd₁.counted h
  refine ⟨hd₁.trans hd₂, ?_⟩
  constructor <;> intro hk' <;> rw [hk] at hk' <;> cases hk'
  · exact fun hr => absurd rfl hr
  · exact fun _ => ⟨hinv, hd₂.storage hst⟩

/-- The field of another stage is sampled, and that stage is one that this one depends on. -/
theorem otherField_served {dim : Int} {out : PortId} (hp : p.Planned)
    (hn : p.graph.nodes[i]? = some n) (hname : (Text.bytes n.fieldName).length < NameLimit.bytes)
    (hroot : i ≠ p.root) (hk : n.kind = .computeField) (hout : n.outputs = [out]) (hdim : 1 ≤ dim ∧ dim ≤ 3)
    (ht : p.typeOf out = ValueType.texture1D.withSize dim)
    (h : Draws (do
      sampledField i out n.fieldName dim "rgba32f"
      modify fun d => { d with dependencies := d.dependencies ++ [i] }) d u d') :
    d.Furnishes p n.kind.outputNames d' ∧ d'.Serves p i n := by
  rw [hk]
  obtain ⟨_, d₁, h₁, h⟩ := draws_bind.1 h
  obtain ⟨hd, hfound⟩ := sampledField_spec hs hf hc hname hdim ht hp hn
    (by rw [hout]; exact List.mem_singleton_self _) h₁
  rw [draws_modify] at h
  subst h
  refine ⟨⟨hd.core, hd.entries, hd.code, hd.sound, hd.furnished.remember rfl (fun _ => .inl)
    (fun _ => .inl) (fun _ => .inl) (fun _ => .inl) (fun _ => .inl), ⟨hd.counted.keys,
    hd.counted.stored, hd.counted.length, hd.counted.fields, hd.counted.images,
    hd.counted.samplers⟩, hd.inputs, hd.invocation, hd.outputs, hd.fields, hd.storage, hd.named⟩, ?_⟩
  constructor <;> intro hk' <;> rw [hk] at hk' <;> cases hk'
  · rw [hout]
    exact fun _ => List.forall_mem_singleton.2 hfound
  · exact fun hr => absurd hr hroot

/-- A material has three outputs. -/
theorem material_served (hk : n.kind = .materialOutput)
    (h : Draws (do
      stageOutput "base_color" .float4 0
      stageOutput "roughness" .float 1
      stageOutput "emission" .float3 2) d u d') :
    d.Furnishes p n.kind.outputNames d' ∧ d'.Serves p i n := by
  rw [hk]
  obtain ⟨_, d₁, h₁, h⟩ := draws_bind.1 h
  obtain ⟨hd₁, v₁, hv₁⟩ := stageOutput_spec hs hf hc (.of_lt (by decide)) rfl (by decide) h₁
  obtain ⟨_, d₂, h₂, h⟩ := draws_bind.1 h
  obtain ⟨hd₂, v₂, hv₂⟩ := stageOutput_spec (hd₁.sound P hs) hd₁.furnished hd₁.counted
    (.of_lt (by decide)) rfl (by decide) h₂
  obtain ⟨hd₃, v₃, hv₃⟩ := stageOutput_spec (hd₂.sound P (hd₁.sound P hs)) hd₂.furnished
    hd₂.counted (.of_lt (by decide)) rfl (by decide) h
  refine ⟨(hd₁.trans hd₂).trans hd₃, ?_⟩
  constructor <;> intro hk' <;> rw [hk] at hk' <;> cases hk'
  intro name hname
  simp only [List.mem_cons, List.not_mem_nil, or_false] at hname
  rcases hname with rfl | rfl | rfl
  · exact ⟨v₁, hd₃.outputs (hd₂.outputs hv₁)⟩
  · exact ⟨v₂, hd₃.outputs hv₂⟩
  · exact ⟨v₃, hv₃⟩

end Kinds

/-- **Declaring a node.** -/
theorem declareNode_spec (hp : p.Planned) (hnames : p.graph.NamesFit)
    (hn : p.graph.nodes[i]? = some n) (hs : d.Sound P) (hf : d.Furnished p) (hc : d.Counted)
    (h : Draws (declareNode p i) d u d') :
    d.Furnishes p n.kind.outputNames d' ∧ d'.Serves p i n := by
  rw [declareNode, hn, draws_some_bind] at h
  obtain ⟨hfield, htexture⟩ := hnames n (Array.mem_toList_iff.2 (Array.mem_of_getElem? hn))
  cases hp.typed.fits hp.consistent hn with
  | arithmetic hop =>
    have hother : n.kind ∉ [NodeKind.position, .normal, .texCoord, .sample, .texture, .computeField,
        .previewOutput, .materialOutput] ∧ n.kind.outputNames = [] ∧ Draws (pure ()) d u d' := by
      cases hk : n.kind <;> rw [hk] at hop h <;> cases hop
      all_goals exact ⟨by decide, rfl, h⟩
    exact nothing_served hf hc hother.1 hother.2.1 hother.2.2
  | constant hk | time hk | length hk | dot hk | compare hk | conditional hk | swizzle hk | combine hk
  | separate hk | mathExpression hk =>
    rw [hk] at h
    exact nothing_served hf hc (by rw [hk]; decide) (by rw [hk]; rfl) h
  | texture hk hparams _ hout h1 h3 ht =>
    rw [hk, hparams, hout] at h
    obtain ⟨hd, hfound⟩ := sampledField_spec hs hf hc (htexture _ _ hparams) ⟨h1, h3⟩ ht hp hn
      (by rw [hout]; exact List.mem_singleton_self _) h
    rw [hk]
    refine ⟨hd, ?_⟩
    constructor <;> intro hk' <;> rw [hk] at hk' <;> cases hk'
    rw [hout]
    exact List.forall_mem_singleton.2 hfound
  | position hk =>
    rw [hk] at h
    exact position_served hs hf hc hk h
  | normal hk =>
    rw [hk] at h
    obtain ⟨hd, hv⟩ := renderInput_spec hs hf hc .normal h
    rw [hk]
    refine ⟨hd, ?_⟩
    constructor <;> intro hk' <;> rw [hk] at hk' <;> cases hk'
    exact hv
  | texCoord hk =>
    rw [hk] at h
    obtain ⟨hd, hv⟩ := renderInput_spec hs hf hc .texCoord h
    rw [hk]
    refine ⟨hd, ?_⟩
    constructor <;> intro hk' <;> rw [hk] at hk' <;> cases hk'
    exact hv
  | sample hk hin =>
    rw [hk, hin] at h
    dsimp only at h
    split at h
    · exact absurd (draws_bind.1 h) (by rintro ⟨_, _, h', -⟩; exact not_draws_unsupported h')
    · rename_i hdim
      exact sample_served hs hf hc hk hin (by omega) h
  | computeField hk hparams hin hout h1 h3 hv ht =>
    rw [hk, hparams, hout] at h
    dsimp only at h
    split at h
    · rename_i hroot
      subst hroot
      exact ownField_served hs hf hc hn hfield hk hparams ⟨h1, h3⟩ h
    · rename_i hroot
      exact otherField_served hs hf hc hp hn hfield hroot hk hout ⟨h1, h3⟩ ht h
  | previewOutput hk =>
    rw [hk] at h ⊢
    obtain ⟨hd, hv⟩ := stageOutput_spec hs hf hc (.of_lt (by decide)) rfl (by decide) h
    refine ⟨hd, ?_⟩
    constructor <;> intro hk' <;> rw [hk] at hk' <;> cases hk'
    exact hv
  | materialOutput hk =>
    rw [hk] at h
    exact material_served hs hf hc hk h

/-- The outputs that the node at a position declares. -/
def namesAt (p : StagePlan) (i : Nat) : List String :=
  ((p.graph.nodes[i]?).map fun n => n.kind.outputNames).getD []

/-- **Declaring a list of nodes.** -/
theorem declareNodes_spec (hp : p.Planned) (hnames : p.graph.NamesFit) {l : List Nat}
    (hs : d.Sound P) (hf : d.Furnished p) (hc : d.Counted)
    (h : Draws (l.forM (declareNode p)) d u d') :
    d.Furnishes p (l.reverse.flatMap (namesAt p)) d' ∧
      ∀ i ∈ l, ∃ n, p.graph.nodes[i]? = some n ∧ d'.Serves p i n := by
  induction l generalizing d with
  | nil =>
    obtain ⟨-, rfl⟩ := draws_pure.1 h
    exact ⟨.refl hf hc, fun i hi => by cases hi⟩
  | cons i l ih =>
    obtain ⟨_, d₁, h₁, h⟩ := draws_bind.1
      (show Draws (declareNode p i >>= fun _ => l.forM (declareNode p)) d u d' from h)
    cases hn : p.graph.nodes[i]? with
    | none =>
      rw [declareNode, hn] at h₁
      exact absurd (draws_bind.1 h₁) (by rintro ⟨_, _, h', -⟩; exact not_draws_throw h')
    | some n =>
      obtain ⟨hd₁, hserves⟩ := declareNode_spec hp hnames hn hs hf hc h₁
      obtain ⟨hd, hall⟩ := ih (hd₁.sound P hs) hd₁.furnished hd₁.counted h
      have hnames : namesAt p i = n.kind.outputNames := by
        rw [namesAt, hn]
        rfl
      refine ⟨?_, ?_⟩
      · rw [List.reverse_cons, List.flatMap_append, List.flatMap_singleton, hnames]
        exact hd₁.trans hd
      · intro j hj
        rcases List.mem_cons.1 hj with rfl | hj
        · exact ⟨n, hn, hserves.mono hd.model hd.inputs hd.invocation hd.outputs hd.fields hd.storage⟩
        · exact hall j hj

omit [NameLimit] in
/-- Only the root of a stage is an output of the graph. -/
theorem namesAt_eq_nil (hp : p.Planned) (hi : i ∈ p.order) (hne : i ≠ p.root) : namesAt p i = [] := by
  have hreach := Labels.mem_nodes.1 ((hp.mem_order i).1 hi)
  refine reach_induction (P := fun i => i ≠ p.root → namesAt p i = []) ?_ ?_ hreach hne
  · intro s hs _ hne
    exact absurd (List.mem_singleton.1 hs) hne
  · intro k _ j hj _ _
    obtain ⟨f, hf, rfl⟩ := List.mem_map.1 hj
    obtain ⟨n, q, port, hn, -, hq, hprod, -⟩ := Labels.mem_feeds.1 hf
    obtain ⟨m, hm, out, hout⟩ := hp.consistent.producer_outputs hprod
    rw [namesAt, show p.graph.nodes[f.producer]? = some m from hm]
    show m.kind.outputNames = []
    cases hp.typed.fits hp.consistent hm with
    | previewOutput _ _ h =>
      rw [h] at hout
      cases hout
    | materialOutput _ _ h =>
      rw [h] at hout
      cases hout
    | arithmetic hop =>
      cases hmk : m.kind <;> rw [hmk] at hop <;> cases hop
      all_goals rfl
    | _ hmk =>
      rw [hmk]
      rfl

omit [NameLimit] in
/-- The outputs of a stage are those of its root. -/
theorem namesAt_order (hp : p.Planned) (hroot : p.root ∈ p.order) :
    p.order.reverse.flatMap (namesAt p) = namesAt p p.root :=
  flatMap_eq_of_mem (List.nodup_reverse.2 hp.nodup) (List.mem_reverse.2 hroot) fun _ hi hne =>
    namesAt_eq_nil hp (List.mem_reverse.1 hi) hne

end Drafting

end NodeShader
