import NodeShader.Proofs.Compile.Accepting
import NodeShader.Proofs.Compile.Typed

/-!
# The vertex body

All render stages share one vertex body.  It declares seven variables besides the global values, and its
code is a straight line, which runs from nothing; so it is a draft with a whole function, as the bodies of
stages are.

* `Draft.Opens`: a step that declares variables of the interface.
* `Draft.Mesh`: the types and variables that the code works with.
* `vertex_spec`: **the vertex body has a whole function**.
-/

namespace NodeShader

open Spirv

/-- **A step that declares `k` variables of the interface** and keeps the rest. -/
structure Draft.Opens [NameLimit] (d : Draft) (k : Nat) (d' : Draft) : Prop where
  core : d'.core = d.core
  entries : d.builder.entries.toList.Sublist d'.builder.entries.toList
  code : d'.code = d.code
  sound : ∀ P, d.Sound P → d'.Sound P
  registered : d.Registered → d'.Registered
  resources : d.resources ⊆ d'.resources
  interface : d'.interface.length = d.interface.length + k

/-- The attribute of the mesh and the output for an input of the fragment body. -/
def Draft.Passes (d : Draft) (input : StageInput) (vars : UInt32 × UInt32) : Prop :=
  ∃ r r' : Resource, d.Listed vars.1 StorageClass.input input.type.shape r ∧ r.kind = .stageInput ∧
    r.builtIn = "" ∧ d.Listed vars.2 StorageClass.output input.type.shape r'

/-- **What the code of the vertex body works with**: three types of vectors, the global values, and
seven variables. -/
structure Draft.Mesh (d : Draft) (vec2 vec3 vec4 clip : UInt32)
    (position normal texCoord : UInt32 × UInt32) : Prop where
  globals : d.HasGlobals
  vec2 : TypeAt d.decls vec2 (.vector (.float 32) 2)
  vec3 : TypeAt d.decls vec3 (.vector (.float 32) 3)
  vec4 : TypeAt d.decls vec4 (.vector (.float 32) 4)
  position : d.Passes .position position
  normal : d.Passes .normal normal
  texCoord : d.Passes .texCoord texCoord
  clip : ∃ r, d.Listed clip StorageClass.output (.vector (.float 32) 4) r

namespace Draft

variable [NameLimit] {d d₁ d' : Draft} {j k : Nat} {v storage : UInt32} {ty : Ty} {r : Resource}

theorem Opens.trans (h : d.Opens j d₁) (h' : d₁.Opens k d') : d.Opens (j + k) d' where
  core := h'.core.trans h.core
  entries := h.entries.trans h'.entries
  code := h'.code.trans h.code
  sound := fun P hP => h'.sound P (h.sound P hP)
  registered := fun hr => h'.registered (h.registered hr)
  resources := fun _ hr => h'.resources (h.resources hr)
  interface := by rw [h'.interface, h.interface, Nat.add_assoc]

theorem Opens.wider (h : d.Opens k d') : d.Wider d' := ⟨h.entries, h.resources⟩

/-- Types and constants open nothing. -/
theorem Quiet.opens (q : d.Quiet d') : d.Opens 0 d' where
  core := by rw [q.fields]; rfl
  entries := q.entries
  code := q.code
  sound := q.sound
  registered := fun hr => hr.silent q.toSilent
  resources := by rw [q.fields]; exact List.Subset.refl _
  interface := by rw [q.fields]; rfl

omit [NameLimit] in
theorem Passes.mono (w : d.Wider d') {input : StageInput} {vars : UInt32 × UInt32}
    (h : d.Passes input vars) : d'.Passes input vars := by
  obtain ⟨r, r', hr, hk, hb, hr'⟩ := h
  exact ⟨r, r', w.listed hr, hk, hb, w.listed hr'⟩

omit [NameLimit] in
/-- A step of writing is wider. -/
theorem Goes.wider (g : d.Goes d') : d.Wider d' :=
  ⟨g.entries, by rw [frame_resources g.frame]; exact List.Subset.refl _⟩

omit [NameLimit] in
theorem Mesh.mono {vec2 vec3 vec4 clip : UInt32} {position normal texCoord : UInt32 × UInt32}
    (g : d.Goes d') (h : d.Mesh vec2 vec3 vec4 clip position normal texCoord) :
    d'.Mesh vec2 vec3 vec4 clip position normal texCoord where
  globals := h.globals.mono g.wider (eq_of_view frame Draft.globals (fun _ => rfl) g.frame)
  vec2 := h.vec2.mono g.decls
  vec3 := h.vec3.mono g.decls
  vec4 := h.vec4.mono g.decls
  position := h.position.mono g.wider
  normal := h.normal.mono g.wider
  texCoord := h.texCoord.mono g.wider
  clip := h.clip.imp fun _ => g.wider.listed

end Draft

namespace Drafting

variable [NameLimit] {I : Interpretation} {d d₁ d₂ d₃ d' : Draft} {P : List UInt32} {u : Unit}
  {Γ : Context I} {v vec2 vec3 vec4 clip x y z w m storage : UInt32} {ty : Ty} {r : Resource}
  {input : StageInput} {position normal texCoord vars : UInt32 × UInt32}

/-! ### Variables -/

/-- A variable that was declared, and its place in the interface. -/
theorem Declares.opens (h : Declares d v storage ty r d')
    (hd : d' = { d with
      builder := d'.builder, interface := d.interface ++ [v], resources := d.resources ++ [r] }) :
    d.Opens 1 d' where
  core := by rw [hd]; rfl
  entries := h.entries
  code := h.code
  sound := h.sound
  registered := fun hr => h.registered hr (by rw [hd]) (by rw [hd]) fun x hx => by
    rw [hd] at hx
    exact (List.mem_append.1 hx).imp_right List.mem_singleton.1
  resources := by rw [hd]; exact List.subset_append_left _ _
  interface := by rw [hd]; simp

/-- What a vertex has, and what it passes on. -/
theorem passed_spec (hs : d.Sound P) (h : Draws (passed input) d vars d') :
    d.Opens 2 d' ∧ d'.Passes input vars := by
  have hname : ∀ s : String, s = input.name ∨ s = "in_" ++ input.name → ShortName s := by
    rintro s (rfl | rfl) <;> cases input <;> exact .of_lt (by decide)
  have hlocation : input.location < 4294967296 := by cases input <;> decide
  rw [passed] at h
  obtain ⟨x, d₁, h₁, h⟩ := draws_bind.1 h
  obtain ⟨y, d₂, h₂, h⟩ := draws_bind.1 h
  obtain ⟨rfl, rfl⟩ := draws_pure.1 h
  obtain ⟨r, hr, hd₁, hk, -, hb⟩ := valueVariable_spec hs (hname _ (.inr rfl)) hlocation (.inl rfl) h₁
  obtain ⟨r', hr', hd₂, -⟩ := valueVariable_spec (hr.sound P hs) (hname _ (.inl rfl)) hlocation
    (.inr rfl) h₂
  have o := hr'.opens hd₂
  exact ⟨(hr.opens hd₁).trans o, r, r', o.wider.listed hr.listed, hk, hb, hr'.listed⟩

/-! ### Code -/

/-- Storing a value in an output. -/
theorem pass_spec {a : I.Value} (hl : d.Listed v storage ty r)
    (hx : Known (d.surroundings I) Γ x ty (.value a))
    (h : Draws (assemble (Assemble.void .store [v, x])) d u d') :
    d.Emits Γ [] (.single ⟨.store, [v, x]⟩) [] d' Γ [.stored v a] :=
  add_spec (.store (hl.global I) hx) h

/-- **An attribute of the mesh, transformed by a matrix**, as a point or as a direction. -/
theorem transform_spec {a b : I.Value} (hp : d.Passes input vars) (hi : input.type = .float3)
    (h3 : TypeAt d.decls vec3 (.vector (.float 32) 3)) (h4 : TypeAt d.decls vec4 (.vector (.float 32) 4))
    (hw : Known (d.surroundings I) Γ w (.float 32) (.value a))
    (hm : Known (d.surroundings I) Γ m matrixType (.value b))
    (h₁ : Draws (assemble (Assemble.op .load vec3 [vars.1])) d x d₁)
    (h₂ : Draws (assemble (Assemble.op .compositeConstruct vec4 [x, w])) d₁ y d₂)
    (h₃ : Draws (assemble (Assemble.op .matrixTimesVector vec4 [m, y])) d₂ z d₃) :
    ∃ c Γ' e, d.Emits Γ [] c [] d₃ Γ' [] ∧
      Known (d₃.surroundings I) Γ' z (.vector (.float 32) 4) (.value e) := by
  obtain ⟨r, -, hl, hk, hb, -⟩ := hp
  rw [hi, show ValueType.float3.shape = .vector (.float 32) 3 by rfl] at hl
  have e₁ := op_spec (Γ := Γ) ⟨rfl, rfl⟩ (load_step hl (Resource.content?_input hk hb) h3) h₁
  have e₂ := op_spec ⟨rfl, rfl⟩ (fun y => Step.ofValues (x := y) (by rfl) (by decide)
    (h4.mono e₁.le.decls) (.cons (.inl List.mem_cons_self) (.cons (e₁.keeps hw) .nil))
    (.construct (c := .float 32) (n := 4) rfl (by simp [Ty.component]) rfl)) h₂
  have e := e₁.trans e₂
  have e₃ := op_spec ⟨rfl, rfl⟩ (fun y => Step.ofValues (x := y) (by rfl) (by decide)
    (h4.mono e.le.decls) (.cons (e.keeps hm) (.cons (.inl List.mem_cons_self) .nil))
    .transform) h₃
  exact ⟨_, _, _, e.trans e₃, .inl List.mem_cons_self⟩

/-- The first three components of what was transformed, passed on. -/
theorem shorten_spec {a : I.Value} (hp : d.Passes input vars) (hi : input.type = .float3)
    (h3 : TypeAt d.decls vec3 (.vector (.float 32) 3))
    (hx : Known (d.surroundings I) Γ x (.vector (.float 32) 4) (.value a))
    (h₁ : Draws (assemble (Assemble.op .vectorShuffle vec3 [x, x, 0, 1, 2])) d y d₁)
    (h₂ : Draws (assemble (Assemble.void .store [vars.2, y])) d₁ u d₂) :
    ∃ c Γ' o, d.Emits Γ [] c [] d₂ Γ' o := by
  have hops : Operands (d.surroundings I) Γ [x, x]
      [(.vector (.float 32) 4, a), (.vector (.float 32) 4, a)] := .cons hx (.cons hx .nil)
  have hsig : Signature .vectorShuffle [0, 1, 2] [.vector (.float 32) 4, .vector (.float 32) 4]
      (.vector (.float 32) 3) := .shuffle (by simp) (by decide) rfl
  have e₁ := op_spec ⟨rfl, rfl⟩ (fun y => Step.ofLeading (x := y) (by rfl) (by decide) h3 hops hsig) h₁
  obtain ⟨-, r, -, -, -, hl⟩ := hp.mono e₁.goes.wider
  rw [hi] at hl
  exact ⟨_, _, _, e₁.trans (pass_spec hl (.inl List.mem_cons_self) h₂)⟩

/-- **The code of the vertex body** runs from nothing, whatever is done then. -/
theorem vertexCode_spec {rest : Drafting Unit} (hs : d.Sound P) (hd : d.Mesh vec2 vec3 vec4 clip position normal texCoord)
    (h : Draws (do
      let one ← one
      let zero ← zero
      let model ← loadGlobal .model
      let viewProjection ← loadGlobal .viewProjection
      assemble do
        let point ← Assemble.op .load vec3 [position.1]
        let point ← Assemble.op .compositeConstruct vec4 [point, one]
        let world ← Assemble.op .matrixTimesVector vec4 [model, point]
        let projected ← Assemble.op .matrixTimesVector vec4 [viewProjection, world]
        Assemble.void .store [clip, projected]
        let place ← Assemble.op .vectorShuffle vec3 [world, world, 0, 1, 2]
        Assemble.void .store [position.2, place]
        let direction ← Assemble.op .load vec3 [normal.1]
        let direction ← Assemble.op .compositeConstruct vec4 [direction, zero]
        let worldNormal ← Assemble.op .matrixTimesVector vec4 [model, direction]
        let turned ← Assemble.op .vectorShuffle vec3 [worldNormal, worldNormal, 0, 1, 2]
        Assemble.void .store [normal.2, turned]
        let given ← Assemble.op .load vec2 [texCoord.1]
        Assemble.void .store [texCoord.2, given]
      rest) d u d') :
    ∃ d₁ c Γ' o, d.Emits (I := I) [] [] c [] d₁ Γ' o ∧ Draws rest d₁ u d' := by
  -- the constants and the matrices
  obtain ⟨one, d₁, h₁, h⟩ := draws_bind.1 h
  obtain ⟨q₁, hone⟩ := constant_spec (I := I) hs h₁
  have hs₁ := q₁.sound P hs
  obtain ⟨zero, d₂, h₂, h⟩ := draws_bind.1 h
  obtain ⟨q₂, hzero⟩ := constant_spec (I := I) hs₁ h₂
  have hs₂ := q₂.sound P hs₁
  have hd₂ := hd.mono (q₁.trans q₂).goes
  obtain ⟨model, d₃, h₃, h⟩ := draws_bind.1 h
  obtain ⟨c₃, Γ₃, e₃, hmodel⟩ := loadGlobal_spec (I := I) (Γ := []) hs₂ hd₂.globals h₃
  have hd₃ := hd₂.mono e₃.goes
  obtain ⟨view, d₄, h₄, h⟩ := draws_bind.1 h
  obtain ⟨c₄, Γ₄, e₄, hview⟩ := loadGlobal_spec (Γ := Γ₃) (e₃.sound P hs₂) hd₃.globals h₄
  have hd₄ := hd₃.mono e₄.goes
  have f₄ := e₃.trans e₄
  obtain ⟨_, d₁₈, h, hrest⟩ := draws_bind.1 h
  simp only [assemble_bind] at h
  -- the place of the vertex
  obtain ⟨_, d₅, h₅, h⟩ := draws_bind.1 h
  obtain ⟨_, d₆, h₆, h⟩ := draws_bind.1 h
  obtain ⟨world, d₇, h₇, h⟩ := draws_bind.1 h
  obtain ⟨c₇, Γ₇, _, e₇, hworld⟩ := transform_spec hd₄.position rfl hd₄.vec3 hd₄.vec4
    (f₄.keeps (.inr (hone.mono q₂.decls))) (e₄.keeps hmodel) h₅ h₆ h₇
  have hd₇ := hd₄.mono e₇.goes
  have f₇ := f₄.trans e₇
  obtain ⟨projected, d₈, h₈, h⟩ := draws_bind.1 h
  have e₈ := op_spec ⟨rfl, rfl⟩ (fun y => Step.ofValues (x := y) (by rfl) (by decide) hd₇.vec4
    (.cons (e₇.keeps hview) (.cons hworld .nil)) .transform) h₈
  obtain ⟨rclip, hclip⟩ := (hd₇.mono e₈.goes).clip
  obtain ⟨_, d₉, h₉, h⟩ := draws_bind.1 h
  have e₉ := e₈.trans (pass_spec hclip (.inl List.mem_cons_self) h₉)
  have hd₉ := hd₇.mono e₉.goes
  obtain ⟨_, d₁₀, h₁₀, h⟩ := draws_bind.1 h
  obtain ⟨_, d₁₁, h₁₁, h⟩ := draws_bind.1 h
  obtain ⟨c₁₁, Γ₁₁, o₁₁, e₁₁⟩ := shorten_spec hd₉.position rfl hd₉.vec3
    (e₉.keeps hworld) h₁₀ h₁₁
  have hd₁₁ := hd₉.mono e₁₁.goes
  have f₁₁ := (e₇.trans e₉).trans e₁₁
  -- its normal
  obtain ⟨_, d₁₂, h₁₂, h⟩ := draws_bind.1 h
  obtain ⟨_, d₁₃, h₁₃, h⟩ := draws_bind.1 h
  obtain ⟨_, d₁₄, h₁₄, h⟩ := draws_bind.1 h
  obtain ⟨c₁₄, Γ₁₄, _, e₁₄, hnormal⟩ := transform_spec hd₁₁.normal rfl hd₁₁.vec3 hd₁₁.vec4
    ((f₄.trans f₁₁).keeps (.inr hzero)) ((e₄.trans f₁₁).keeps hmodel) h₁₂ h₁₃ h₁₄
  have hd₁₄ := hd₁₁.mono e₁₄.goes
  obtain ⟨_, d₁₅, h₁₅, h⟩ := draws_bind.1 h
  obtain ⟨_, d₁₆, h₁₆, h⟩ := draws_bind.1 h
  obtain ⟨c₁₆, Γ₁₆, o₁₆, e₁₆⟩ := shorten_spec hd₁₄.normal rfl hd₁₄.vec3 hnormal h₁₅ h₁₆
  have hd₁₆ := hd₁₄.mono e₁₆.goes
  -- its texture coordinates
  obtain ⟨_, d₁₇, h₁₇, h⟩ := draws_bind.1 h
  obtain ⟨r, r', hin, hk, hb, hout⟩ := hd₁₆.texCoord
  have e₁₇ := op_spec (Γ := Γ₁₆) ⟨rfl, rfl⟩
    (load_step hin (Resource.content?_input hk hb) hd₁₆.vec2) h₁₇
  have e₁₈ := e₁₇.trans (pass_spec (e₁₇.goes.wider.listed hout) (.inl List.mem_cons_self) h)
  exact ⟨_, _, _, _, ((f₄.trans f₁₁).trans ((e₁₄.trans e₁₆).trans e₁₈)).after (q₁.trans q₂), hrest⟩

/-- **The vertex body has a whole function.** -/
theorem vertex_spec (h : Draws vertex (Draft.new .vertex) u d') :
    ∃ d : Draft, d.Coded ∧ d' = d.withEntry [] := by
  rw [vertex] at h
  obtain ⟨_, d₁, h₁, h⟩ := draws_bind.1 h
  obtain ⟨hs₁, hr₁, hc₁, -, hd₁⟩ := begin_spec h₁
  have hmain₁ : d₁.main = 2 := by rw [hd₁]
  have hmodel₁ : d₁.model = .vertex := by rw [hd₁]; rfl
  have hinterface₁ : d₁.interface = [] := by rw [hd₁]; rfl
  -- the types and the variables
  obtain ⟨vec2, d₂, h₂, h⟩ := draws_bind.1 h
  obtain ⟨-, q₂, ht₂⟩ := typeOf_spec hs₁ h₂
  have hs₂ := q₂.sound _ hs₁
  obtain ⟨vec3, d₃, h₃, h⟩ := draws_bind.1 h
  obtain ⟨-, q₃, ht₃⟩ := typeOf_spec hs₂ h₃
  have hs₃ := q₃.sound _ hs₂
  obtain ⟨vec4, d₄, h₄, h⟩ := draws_bind.1 h
  obtain ⟨-, q₄, ht₄⟩ := typeOf_spec hs₃ h₄
  have hs₄ := q₄.sound _ hs₃
  obtain ⟨position, d₅, h₅, h⟩ := draws_bind.1 h
  obtain ⟨o₅, hposition⟩ := passed_spec hs₄ h₅
  have hs₅ := o₅.sound _ hs₄
  obtain ⟨normal, d₆, h₆, h⟩ := draws_bind.1 h
  obtain ⟨o₆, hnormal⟩ := passed_spec hs₅ h₆
  have hs₆ := o₆.sound _ hs₅
  obtain ⟨texCoord, d₇, h₇, h⟩ := draws_bind.1 h
  obtain ⟨o₇, htexCoord⟩ := passed_spec hs₆ h₇
  have hs₇ := o₇.sound _ hs₆
  have o := (o₅.trans o₆).trans o₇
  obtain ⟨clip, d₈, h₈, h⟩ := draws_bind.1 h
  have hplace : (Place.builtIn BuiltIn.position "position").Known := ⟨.inl rfl, by decide⟩
  obtain ⟨r, hr, hd₈, -⟩ := stageVariable_spec hs₇ (ht₄.mono o.wider.decls) rfl (.of_lt (by decide))
    hplace (.inr rfl) h₈
  have o₈ := hr.opens hd₈
  have hopens := (((q₂.trans q₃).trans q₄).opens.trans o).trans o₈
  have hcore₈ : ∀ {α : Type} (f : Draft → α), (∀ d, f d.core = f d) → f d₈ = f d₁ := fun f hcore =>
    Draft.eq_of_view Draft.core f hcore hopens.core
  have hmain₈ : d₈.main = d₁.main := hcore₈ Draft.main fun _ => rfl
  have hmesh₈ : d₈.Mesh vec2 vec3 vec4 clip position normal texCoord :=
    ⟨(hopens.registered hr₁).globals,
      ht₂.mono ((q₃.trans q₄).opens.trans (o.trans o₈)).wider.decls,
      ht₃.mono (q₄.opens.trans (o.trans o₈)).wider.decls, ht₄.mono (o.trans o₈).wider.decls,
      hposition.mono ((o₆.trans o₇).trans o₈).wider, hnormal.mono (o₇.trans o₈).wider,
      htexCoord.mono o₈.wider, r, hr.listed⟩
  -- the function
  obtain ⟨_, d₉, h₉, h⟩ := draws_bind.1 h
  obtain ⟨hs₉, he₉, hd₉, hframe₉, void, type, -, -, hc₉⟩ := beginMain_spec (P := [])
    (by rw [hmain₈, hmain₁]; exact hopens.sound _ hs₁) (hopens.code.trans hc₁) h₉
  have g₉ : d₈.Goes d₉ := ⟨hframe₉, he₉⟩
  obtain ⟨d₁₀, c, Γ, out, e, h⟩ := vertexCode_spec (I := .trivial) hs₉ (hmesh₈.mono g₉) h
  obtain ⟨d₁₁, g, hc₁₁, hs₁₁, rfl⟩ := endMain_spec h
  have hview : ∀ {α : Type} (f : Draft → α), (∀ d, f d.frame = f d) → f d₁₁ = f d₈ := fun f hf =>
    Draft.eq_of_view Draft.frame f hf ((g.frame.trans e.frame).trans hframe₉)
  refine ⟨d₁₁, ⟨hs₁₁ _ (e.sound [] hs₉), ?_, ?_, ⟨_, void, type, d₉.label, c, Γ, out, ?_,
    e.runs.mono g.le⟩, .inl ?_⟩, rfl⟩
  · exact ((hopens.registered hr₁).mono he₉ hframe₉).mono (e.goes.trans g).entries
      (e.goes.trans g).frame
  · rw [hview Draft.interface fun _ => rfl, hopens.interface, hinterface₁]
    decide
  · rw [hc₁₁, e.code, hc₉, hview Draft.main fun _ => rfl, functionOf]
  · rw [hview Draft.model fun _ => rfl, hcore₈ Draft.model fun _ => rfl, hmodel₁]

end Drafting

end NodeShader
