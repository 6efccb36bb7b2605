import NodeShader.Proofs.Lists
import NodeShader.Proofs.Metal.Walking

/-!
# Whole programs

Before its code a program declares what the entry point receives: each variable of the module is a
parameter, or a member of the struct of stage inputs or of stage outputs, and has a text from then on.

* `source_spec`: **the source of a module is written** if its tables hold code that runs.
* `Ready.program`: **a module becomes a program**, with a binding for each of its variables.
-/

namespace NodeShader.Metal

open Spirv

/-! ### Bindings by class -/

theorem mem_insertBinding {α : Type} {before : α → α → Bool} {a x : α} {l : List α} :
    x ∈ insertBinding before a l ↔ x = a ∨ x ∈ l := by
  induction l with
  | nil => simp [insertBinding]
  | cons b l ih =>
    rw [insertBinding]
    split
    · simp
    · rw [List.mem_cons, ih, List.mem_cons]
      tauto

theorem mem_sortBindings {α : Type} {before : α → α → Bool} {x : α} {l : List α} :
    x ∈ sortBindings before l ↔ x ∈ l := by
  induction l with
  | nil => rfl
  | cons a l ih => rw [sortBindings, mem_insertBinding, ih, List.mem_cons]

theorem mem_ofClass {bs : List Binding} {kind : ResourceClass} {b : Binding} :
    b ∈ ofClass bs kind ↔ b ∈ bs ∧ b.kind = kind := by
  rw [ofClass, mem_sortBindings, List.mem_filter, beq_iff_eq]

theorem mem_textures {bs : List Binding} {b : Binding} :
    b ∈ textures bs ↔ b ∈ bs ∧ b.kind.table? = some .texture := by
  rw [textures, mem_sortBindings, List.mem_filter, beq_iff_eq]

/-! ### Declarations -/

/-- **Declarations give texts** to identifiers and leave what is known of types alone. -/
structure Emission.Sets (xs : List UInt32) (e e' : Emission) : Prop where
  exprs : e.exprs <:+ e'.exprs
  valueTypes : e'.valueTypes = e.valueTypes
  pointees : e'.pointees = e.pointees
  visited : e'.visited = e.visited
  set : ∀ x ∈ xs, (e'.exprs.lookup x).isSome = true

theorem Emission.Sets.refl (e : Emission) : e.Sets [] e :=
  ⟨List.suffix_refl _, rfl, rfl, rfl, List.forall_mem_nil _⟩

section Introduces

variable {P : List (UInt32 × UInt32)} {α β : Type} {xs ys : List UInt32} {x : UInt32}

/-- A step of the declarations, which gives texts to some identifiers. -/
def Introduces (P : List (UInt32 × UInt32)) (x : Emit α) (xs : List UInt32) : Prop :=
  ∀ e : Emission, e.pointees = P → Yields x e fun _ e' => e.Sets xs e'

theorem introduces_pure (a : α) : Introduces P (pure a : Emit α) [] :=
  fun _ _ => yields_pure (.refl _)

theorem introduces_bind {x : Emit α} {f : α → Emit β} (hx : Introduces P x xs)
    (hf : ∀ a, Introduces P (f a) ys) : Introduces P (x >>= f) (xs ++ ys) := by
  intro e he
  refine yields_bind ((hx e he).mono fun a e₁ h₁ => ?_)
  refine (hf a e₁ (h₁.pointees.trans he)).mono fun b e₂ h₂ => ⟨h₁.exprs.trans h₂.exprs,
    h₂.valueTypes.trans h₁.valueTypes, h₂.pointees.trans h₁.pointees, h₂.visited.trans h₁.visited, ?_⟩
  intro y hy
  rcases List.mem_append.1 hy with hy | hy
  · exact Emission.isSome_lookup_of_suffix h₂.exprs (h₁.set y hy)
  · exact h₂.set y hy

theorem Introduces.widen {x : Emit α} (h : Introduces P x xs) (hys : ys ⊆ xs) : Introduces P x ys :=
  fun e he => (h e he).mono fun _ _ hs => { hs with set := fun y hy => hs.set y (hys hy) }

/-- Steps one after another, each for an identifier. -/
theorem introduces_mapM {f : α → Emit β} {g : α → UInt32} {l : List α}
    (h : ∀ a ∈ l, Introduces P (f a) [g a]) : Introduces P (l.mapM f) (l.map g) := by
  induction l with
  | nil => exact introduces_pure _
  | cons a l ih =>
    rw [List.mapM_cons]
    rw [List.forall_mem_cons] at h
    exact (introduces_bind h.1 fun b => introduces_bind (ih h.2) fun bs =>
      introduces_pure _).widen (by simp)

theorem introduces_forM {f : α → Emit PUnit} {g : α → List UInt32} {l : List α}
    (h : ∀ a ∈ l, Introduces P (f a) (g a)) : Introduces P (l.forM f) (l.flatMap g) := by
  induction l with
  | nil => exact introduces_pure _
  | cons a l ih =>
    rw [List.forall_mem_cons] at h
    exact introduces_bind h.1 fun _ => ih h.2

theorem introduces_modify {f : Emission → Emission} (h : ∀ e : Emission, e.Sets xs (f e)) :
    Introduces P (modify f) xs := fun e _ => yields_modify (h e)

theorem introduces_line (s : String) : Introduces P (Emit.line s) [] :=
  introduces_modify fun _ => ⟨List.suffix_refl _, rfl, rfl, rfl, List.forall_mem_nil _⟩

theorem introduces_setExpr (x : UInt32) (expr : String) : Introduces P (Emit.setExpr x expr) [x] :=
  introduces_modify fun _ => ⟨List.suffix_cons _ _, rfl, rfl, rfl, List.forall_mem_singleton.2 (Emission.isSome_lookup_self _ _ _)⟩

theorem introduces_naming {step : Naming α} (h : Total step) : Introduces P (Emit.naming step) [] := by
  refine fun e _ => yields_get ?_
  obtain ⟨a, names, hstep, -⟩ := h e.names
  exact yields_lift hstep (yields_bind (yields_modify (yields_pure
    ⟨List.suffix_refl _, rfl, rfl, rfl, List.forall_mem_nil _⟩)))

theorem introduces_structDecl (name : String) (members : List String) :
    Introduces P (Emit.structDecl name members) [] := by
  have hmembers : Introduces P (members.forM fun m => Emit.line ("    " ++ m)) [] :=
    (introduces_forM (g := fun _ => []) fun _ _ => introduces_line _).widen (List.nil_subset _)
  exact introduces_bind (introduces_line _) fun _ => introduces_bind (introduces_line _) fun _ =>
    introduces_bind hmembers fun _ => introduces_bind (introduces_line _) fun _ => introduces_line _

/-- **The stage inputs and outputs** have texts. -/
theorem introduces_stageStructs (model : ExecutionModel) (bs : List Binding) :
    Introduces P (Emit.stageStructs model bs) ((ofClass bs .stageOutput).map (·.variable_) ++
      (ofClass bs .stageInput).map (·.variable_)) := by
  have hdecl : ∀ (c : Bool) (name : String) (ms : List String) (k : Emit Unit), Introduces P k [] →
      Introduces P (if c then do Emit.structDecl name ms; k else k) [] := by
    intro c name ms k hk
    split
    · exact introduces_bind (introduces_structDecl name ms) fun _ => hk
    · exact hk
  have hflags : ∀ i o : Bool, Introduces P
      (modify fun e => { e with hasInputs := i, hasOutputs := o } : Emit PUnit) [] := fun i o =>
    introduces_modify fun _ => ⟨List.suffix_refl _, rfl, rfl, rfl, List.forall_mem_nil _⟩
  refine (introduces_bind (introduces_forM (g := fun b : Binding => [b.variable_]) fun b _ =>
    introduces_setExpr _ _) fun _ => introduces_bind
      (introduces_forM (g := fun b : Binding => [b.variable_]) fun b _ => introduces_setExpr _ _)
        fun _ => hdecl _ _ _ _ (hdecl _ _ _ _ (hflags _ _))).widen ?_
  simp [← List.map_eq_flatMap]

/-- **The parameters** have texts, if all images have types with names. -/
theorem introduces_parameters {t : Tables} {bs : List Binding}
    (h : ∀ b ∈ textures bs, Total (typeName t ((P.lookup b.variable_).getD 0))) :
    Introduces P (Emit.parameters t bs) ((ofClass bs .uniformBuffer).map (·.variable_) ++
      (textures bs).map (·.variable_) ++ (ofClass bs .sampler).map (·.variable_)) := by
  have himage : ∀ b ∈ textures bs, Introduces P (do
      let type ← Emit.naming (typeName t (((← get).pointees.lookup b.variable_).getD 0))
      Emit.setExpr b.variable_ b.name
      return s!"{type} {b.name} [[texture({b.index})]]") [b.variable_] := by
    intro b hb e he
    refine yields_get ?_
    rw [he]
    exact (introduces_bind (introduces_naming (h b hb)) fun _ => introduces_bind
      (introduces_setExpr _ _) fun _ => introduces_pure _).widen (by simp) e he
  intro e he
  refine yields_get ?_
  refine (introduces_bind (introduces_mapM (g := Binding.variable_) fun b _ =>
    (introduces_bind (introduces_setExpr _ _) fun _ => introduces_pure _).widen (by simp)) fun _ =>
      introduces_bind (introduces_mapM (g := Binding.variable_) himage) fun _ =>
        introduces_bind (introduces_mapM (g := Binding.variable_) fun b _ =>
          (introduces_bind (introduces_setExpr _ _) fun _ => introduces_pure _).widen (by simp))
            fun _ => introduces_pure _).widen ?_ e he
  simp

end Introduces

/-- Every binding of a known class is declared, one way or another. -/
theorem mem_classes {bs : List Binding} {b : Binding} (hb : b ∈ bs) :
    b.variable_ ∈ ((ofClass bs .stageOutput).map (·.variable_) ++
        (ofClass bs .stageInput).map (·.variable_)) ++
      ((ofClass bs .uniformBuffer).map (·.variable_) ++ (textures bs).map (·.variable_) ++
        (ofClass bs .sampler).map (·.variable_)) := by
  have hclass : ∀ kind, b.kind = kind → b.variable_ ∈ (ofClass bs kind).map (·.variable_) :=
    fun kind hk => List.mem_map.2 ⟨b, mem_ofClass.2 ⟨hb, hk⟩, rfl⟩
  simp only [List.mem_append]
  cases hk : b.kind with
  | stageOutput => exact .inl (.inl (hclass _ hk))
  | stageInput => exact .inl (.inr (hclass _ hk))
  | uniformBuffer => exact .inr (.inl (.inl (hclass _ hk)))
  | sampler => exact .inr (.inr (hclass _ hk))
  | sampledImage | storageImage =>
    exact .inr (.inl (.inr (List.mem_map.2 ⟨b, mem_textures.2 ⟨hb, by rw [hk]; rfl⟩, rfl⟩)))

/-- What is written before the function, up to its parameters. -/
def Emit.preamble (t : Tables) (model : ExecutionModel) (bs : List Binding) : Emit (List String) := do
  t.globals.forM fun v => do
    let element := (← t.typeOf v.pointer).element
    modify fun e => { e with pointees := (v.id, element) :: e.pointees }
  ["#include <metal_stdlib>", "#include <simd/simd.h>", "", "using namespace metal;", ""].forM line
  (ofClass bs .uniformBuffer).forM fun b =>
    structDecl b.format (b.members.map fun m => s!"{m.type} {m.name};")
  stageStructs model bs
  parameters t bs

/-- The function with its parameters. -/
def Emit.function (t : Tables) (model : ExecutionModel) (entry : UInt32) (params : List String) : Emit Unit := do
  match qualifier? model with
  | none => fail entry s!"unsupported execution model {model.name}"
  | some qualifier =>
    let hasOutputs := (← get).hasOutputs
    let result := if hasOutputs then "main0_out" else "void"
    line (qualifier ++ " " ++ result ++ " main0(" ++ ", ".intercalate params ++ ")")
    braces do
      if hasOutputs then line "main0_out out = \x7b\x7d;"
      (phis t).forM (declarePhi t)
      blocksFrom t (t.rounds t.blocks.length) t.first 0

/-- The source is what comes before the function, and the function. -/
theorem source_eq (t : Tables) (model : ExecutionModel) (entry : UInt32) (bs : List Binding) :
    Emit.source t model entry bs = (do
      let params ← Emit.preamble t model bs
      Emit.function t model entry params) := by
  rw [Emit.source, Emit.preamble]
  simp only [bind_assoc]
  rfl

/-- **What variables point to**, as it is known before anything is declared. -/
structure Pointed (D : List Instruction) (P : List (UInt32 × UInt32)) (vs : List Variable) : Prop where
  typed : ∀ x c, (x, c) ∈ P → ∃ p s, ⟨.variableDecl, [p, x, s]⟩ ∈ D ∧
    ∀ ty, TypeAt D p (.pointer s ty) → TypeAt D c ty
  found : ∀ v ∈ vs, (P.lookup v.id).isSome = true

section Source

variable [NameLimit] {I : Interpretation} {t : Tables} {s : Surroundings I} {A : List Instruction}
  {R : List UInt32} {globals W : List Instruction} {Γ Γ' : Context I} {c : Code}
  {o : List (Output I.Value)} {e : Emission}

variable (S : Setting t s A R globals W)
include S

/-- The variables point to the types they were declared with. -/
theorem pointees_spec (vs : List Variable) {l : List Variable} (hl : l ⊆ t.globals)
    (he : Pointed s.decls e.pointees vs) (hv : e.valueTypes = []) (hvisited : e.visited = []) :
    Yields (l.forM fun v => do
      let element := (← t.typeOf v.pointer).element
      modify fun e => { e with pointees := (v.id, element) :: e.pointees } : Emit PUnit) e
      fun _ e' => Pointed s.decls e'.pointees (l ++ vs) ∧ e'.valueTypes = [] ∧ e'.visited = [] := by
  induction l generalizing e vs with
  | nil => exact yields_pure ⟨he, hv, hvisited⟩
  | cons v l ih =>
    rw [List.cons_subset] at hl
    obtain ⟨ty, hp, -, hdecl⟩ := variable_placed S.toScope S.hold hl.1
    obtain ⟨info, hinfo, hd⟩ := typeOf_spec S.toScope S.hold hp
    refine yields_bind (yields_lift hinfo (yields_modify ?_))
    cases hd with
    | @pointer _ element _ hc =>
      have hnew : Pointed s.decls ((v.id, element) :: e.pointees) (v :: vs) := by
        refine ⟨fun x c hx => ?_, List.forall_mem_cons.2 ⟨Emission.isSome_lookup_self _ _ _, ?_⟩⟩
        · rcases List.mem_cons.1 hx with h | hx
          · cases h
            refine ⟨_, _, hdecl, fun ty' hty' => ?_⟩
            cases hp.unique S.nodup_decls hty'
            exact hc
          · exact he.typed x c hx
        · exact fun u hu =>
            Emission.isSome_lookup_of_suffix (List.suffix_cons _ _) (he.found u hu)
      refine (ih _ (e := { e with pointees := (v.id, element) :: e.pointees }) hl.2 hnew hv
        hvisited).mono fun _ e' h => ⟨⟨h.1.typed, ?_⟩, h.2⟩
      exact fun u hu => h.1.found u (List.perm_middle.mem_iff.2 hu)

/-- The variables of the phis are declared. -/
theorem declarePhis_spec {l : List Instruction} (he : e.Sound s.decls W) (hl : ∀ i ∈ l, i ∈ W ∧
      i.opcode.hasResult = true ∧ ∃ ty, TypeAt s.decls i.resultType ty ∧ named ty = true) :
    Yields (l.forM (Emit.declarePhi t)) e fun _ e' => e.Writes s.decls W e' ∧ e'.Declares l := by
  induction l generalizing e with
  | nil => exact yields_pure ⟨.refl e, List.forall_mem_nil _⟩
  | cons i l ih =>
    obtain ⟨⟨hi, hr, ty, hty, hn⟩, hl⟩ := List.forall_mem_cons.1 hl
    have hphi : Yields (Emit.declarePhi t i) e fun _ e' =>
        e.Writes s.decls W e' ∧ e'.Declares [i] := by
      refine yields_bind ((leads_naming (Γ := ([] : Context I))
        (total_typeName S.toScope S.hold hty hn) e he (List.forall_mem_nil _)).mono
          fun type e₁ w₁ => yields_bind ((leads_line (Γ := ([] : Context I)) _ e₁ (w₁.1.sound he)
            (List.forall_mem_nil _)).mono fun _ e₂ w₂ => yields_bind (yields_modify
              (yields_modify ?_))))
      have hle : e₂.Le { e₂ with
          exprs := (i.result, s!"_{i.result}") :: e₂.exprs
          valueTypes := (i.result, i.resultType) :: e₂.valueTypes } :=
        ⟨List.suffix_cons _ _, List.suffix_cons _ _, List.suffix_refl _, List.suffix_refl _⟩
      refine ⟨(w₁.1.trans w₂.1).trans ⟨hle, fun hs => hs.grow hle ?_ fun _ _ => .inl, rfl⟩,
        List.forall_mem_singleton.2 ⟨Emission.isSome_lookup_self _ _ _, List.mem_cons_self⟩⟩
      intro x c hx
      rcases List.mem_cons.1 hx with h | hx
      · cases h
        exact .inr ⟨i, hi, by rw [Instruction.result?, if_pos hr], rfl⟩
      · exact .inl hx
    refine yields_bind (hphi.mono fun _ e₁ h₁ => ?_)
    refine (ih (h₁.1.sound he) hl).mono fun _ e₂ h₂ => ⟨h₁.1.trans h₂.1, ?_⟩
    exact List.forall_mem_cons.2
      ⟨h₁.2.mono h₂.1.toLe i (List.mem_singleton_self i), h₂.2⟩

omit [NameLimit] S in
/-- The blocks of code with labels of its own are found. -/
theorem stretch_of_blocks {first : UInt32} {last : Instruction}
    (hblocks : t.blocks = Tables.blocksOf (Tables.emptyBlock first []) last c)
    (hnodup : (first :: c.opened).Nodup) (hzero : 0 ∉ first :: c.opened) {budget : Nat}
    (hbudget : t.blocks.length ≤ budget) : Stretch t (Tables.emptyBlock first []) last 0 c budget := by
  rw [List.mem_cons, not_or] at hzero
  have hlabels : t.blocks.map (·.label) = first :: c.opened := by
    rw [hblocks, Tables.labels_blocksOf]
    rfl
  refine ⟨fun B hB => ?_, List.nodup_cons.2 ⟨hzero.2, (List.nodup_cons.1 hnodup).2⟩, hzero.2, ?_⟩
  · refine find?_key (f := Block.label) ?_ (List.mem_reverse.2 (hblocks ▸ hB))
    rw [List.map_reverse, List.nodup_reverse, hlabels]
    exact hnodup
  · have hlen := congrArg List.length hlabels
    rw [List.length_map, List.length_cons] at hlen
    omega

omit [NameLimit] S in
/-- The first block of the tables is the first there is. -/
theorem first_of_blocks {first : UInt32} {last : Instruction}
    (hblocks : t.blocks = Tables.blocksOf (Tables.emptyBlock first []) last c) (hzero : 0 ∉ first :: c.opened) :
    t.first = first := by
  rw [Tables.first, hblocks, Tables.labels_blocksOf]
  show ((first :: c.opened).find? (· != 0)).getD 0 = first
  rw [List.find?_cons_of_pos (by simpa using fun h : first = 0 => hzero (h ▸ List.mem_cons_self))]
  rfl

omit [NameLimit] S in
/-- The phis of the tables are those of the code. -/
theorem phis_of_blocks {first : UInt32} {last : Instruction}
    (hblocks : t.blocks = Tables.blocksOf (Tables.emptyBlock first []) last c)
    (hnodup : (first :: c.opened).Nodup) (hzero : 0 ∉ first :: c.opened) : Emit.phis t = c.phis := by
  have hstretch := stretch_of_blocks hblocks hnodup hzero (Nat.le_refl _)
  have hown : ∀ B ∈ t.blocks, ((t.block? B.label).map (·.phis)).getD [] = B.phis := fun B hB => by
    rw [hstretch.blocks B (hblocks ▸ hB)]
    rfl
  rw [Emit.phis, List.flatMap_congr hown, hblocks, phis_blocksOf]
  rfl

omit [NameLimit] S in
/-- What a phi of the code is declared with. -/
theorem phis_declarable (h : Runs s Γ c Γ' o) (hW : c.instructions ⊆ W) : ∀ i ∈ c.phis, i ∈ W ∧
    i.opcode.hasResult = true ∧ ∃ ty, TypeAt s.decls i.resultType ty ∧ named ty = true := by
  intro i hi
  obtain ⟨hop, hmem, ty, hty, hs⟩ := phis_typed h i hi
  exact ⟨hW hmem, by rw [hop]; rfl, ty, hty, named_of_component hs⟩

/-- **The function is written**, once all variables have texts. -/
theorem function_spec {first entry : UInt32} {model : ExecutionModel} {params : List String}
    (h : Runs s [] c Γ' o) (hW : c.instructions ⊆ W)
    (hblocks : t.blocks = Tables.blocksOf (Tables.emptyBlock first []) ⟨.returnVoid, []⟩ c)
    (hnodup : (first :: c.opened).Nodup) (hzero : 0 ∉ first :: c.opened)
    (hmodel : (Emit.qualifier? model).isSome = true)
    (he : e.Sound s.decls W) (hv : e.visited = []) :
    Yields (Emit.function t model entry params) e fun _ _ => True := by
  obtain ⟨qualifier, hmodel⟩ := Option.isSome_iff_exists.1 hmodel
  have hstretch := stretch_of_blocks hblocks hnodup hzero
    (show t.blocks.length ≤ t.limit.rounds + t.blocks.length + 1 by omega)
  rw [Emit.function, hmodel]
  refine yields_get (yields_bind ((leads_line (Γ := ([] : Context I)) _ e he
    (List.forall_mem_nil _)).mono fun _ e₂ w₂ => ?_))
  have hvisited : ∀ {e' : Emission}, e.Writes s.decls W e' → ∀ x ∈ first :: c.opened, x ∉ e'.visited :=
    fun w x _ hx => by
      rw [w.visited, hv] at hx
      cases hx
  have hbody : ∀ e₁ : Emission, e.Writes s.decls W e₁ → Yields (do
      (Emit.phis t).forM (Emit.declarePhi t)
      Emit.blocksFrom t (t.rounds t.blocks.length) t.first 0) e₁
      fun _ e' => e₁.Walks s.decls W (first :: c.opened) e' := by
    intro e₁ w
    rw [phis_of_blocks hblocks hnodup hzero, first_of_blocks hblocks hzero, t.rounds_eq]
    refine yields_bind ((declarePhis_spec S (w.sound he) (phis_declarable h hW)).mono fun _ e' h' => ?_)
    · have w' := w.trans h'.1
      refine (enter_spec hstretch (fun h => hzero (h ▸ List.mem_cons_self)) hnodup (hvisited w')
        (w'.sound he) fun e'' hle he'' hv'' => walk_spec S h hW hstretch hv'' he''
          (List.forall_mem_nil _) (h'.2.mono hle) (.inl rfl)).mono fun _ _ w'' => ?_
      exact (h'.1.walks (w.sound he) _).trans w''
  refine (braces_spec (first :: c.opened) (w₂.1.sound he) fun e₃ w₃ => ?_).mono
    fun _ _ _ => trivial
  have w₃' := w₂.1.trans w₃
  split
  · refine yields_bind ((leads_line (Γ := ([] : Context I)) _ e₃ (w₃'.sound he)
      (List.forall_mem_nil _)).mono fun _ e₄ w₄ => ?_)
    exact (hbody e₄ (w₃'.trans w₄.1)).mono fun _ _ w₅ =>
      (w₄.1.walks (w₃'.sound he) _).trans w₅
  · exact hbody e₃ w₃'

/-- **What comes before the function is written**, and all variables have texts. -/
theorem preamble_spec {model : ExecutionModel} {bs : List Binding}
    (hbs : bs.map (·.variable_) = t.globals.map (·.id)) (names : Names) :
    Yields (Emit.preamble t model bs) { names } fun _ e => e.Sound s.decls W ∧ e.visited = [] := by
  have hvars : ∀ b ∈ bs, ∃ v ∈ t.globals, v.id = b.variable_ := fun b hb =>
    List.mem_map.1 (hbs ▸ List.mem_map.2 ⟨b, hb, rfl⟩)
  refine yields_bind ((pointees_spec S [] (List.Subset.refl _)
    ⟨fun _ _ hx => absurd hx List.not_mem_nil, List.forall_mem_nil _⟩ rfl rfl).mono fun _ e₁ h₁ => ?_)
  obtain ⟨hP, htypes₁, hvisited₁⟩ := h₁
  rw [List.append_nil] at hP
  generalize hpoints : e₁.pointees = P at hP
  have htextures : ∀ b ∈ textures bs, Total (typeName t ((P.lookup b.variable_).getD 0)) := by
    intro b hb
    obtain ⟨v, hv, hid⟩ := hvars b (mem_textures.1 hb).1
    obtain ⟨c, hc⟩ := Option.isSome_iff_exists.1 (hP.found v hv)
    obtain ⟨ty, hp, -, hdecl⟩ := variable_placed S.toScope S.hold hv
    obtain ⟨p, k, hdecl', hall⟩ := hP.typed _ _ (lookup_mem hc)
    cases NodeShader.Spirv.eq_of_result S.nodup_decls hdecl hdecl' rfl rfl
    rw [← hid, hc]
    exact total_typeName S.toScope S.hold (hall ty hp) (S.named_pointee hdecl hp)
  -- the declarations, up to the entry point
  have hstructs : Introduces P ((ofClass bs .uniformBuffer).forM fun b =>
      Emit.structDecl b.format (b.members.map fun m => s!"{m.type} {m.name};")) [] :=
    (introduces_forM (g := fun _ => []) fun _ _ => introduces_structDecl _ _).widen (List.nil_subset _)
  have hlines : ∀ l : List String, Introduces P (l.forM Emit.line) [] := fun l =>
    (introduces_forM (g := fun _ => []) fun _ _ => introduces_line _).widen (List.nil_subset _)
  refine yields_bind ((hlines _ e₁ hpoints).mono fun _ e₂ h₂ => ?_)
  refine yields_bind ((hstructs e₂ (h₂.pointees.trans hpoints)).mono fun _ e₃ h₃ => ?_)
  have hpoints₃ := h₃.pointees.trans (h₂.pointees.trans hpoints)
  refine yields_bind ((introduces_stageStructs model bs e₃ hpoints₃).mono fun _ e₄ h₄ => ?_)
  refine (introduces_parameters htextures e₄ (h₄.pointees.trans hpoints₃)).mono fun _ e₅ h₅ =>
    ⟨⟨?_, ?_, ?_⟩, ?_⟩
  · intro x ty hx
    rw [h₅.valueTypes, h₄.valueTypes, h₃.valueTypes, h₂.valueTypes, htypes₁] at hx
    cases hx
  · intro x c hx
    rw [h₅.pointees, h₄.pointees, hpoints₃] at hx
    exact .inr (hP.typed x c hx)
  · intro p x k hx
    have hglobal : (⟨x, p, k⟩ : Variable) ∈ t.globals := by
      rw [S.hold.globals]
      exact List.mem_filterMap.2 ⟨_, S.decls.subset hx, rfl⟩
    refine ⟨?_, ?_⟩
    · obtain ⟨b, hb, rfl⟩ : ∃ b ∈ bs, b.variable_ = x :=
        List.mem_map.1 (hbs ▸ List.mem_map.2 ⟨_, hglobal, rfl⟩)
      rcases List.mem_append.1 (mem_classes hb) with hb | hb
      · exact Emission.isSome_lookup_of_suffix h₅.exprs (h₄.set _ hb)
      · exact h₅.set _ hb
    · rw [h₅.pointees, h₄.pointees, hpoints₃]
      exact hP.found _ hglobal
  · rw [h₅.visited, h₄.visited, h₃.visited, h₂.visited, hvisited₁]

/-- **The source of a module is written.** -/
theorem source_spec (entry : UInt32) {first : UInt32} {model : ExecutionModel} {bs : List Binding}
    (h : Runs s [] c Γ' o) (hW : c.instructions ⊆ W)
    (hblocks : t.blocks = Tables.blocksOf (Tables.emptyBlock first []) ⟨.returnVoid, []⟩ c)
    (hnodup : (first :: c.opened).Nodup) (hzero : 0 ∉ first :: c.opened)
    (hmodel : (Emit.qualifier? model).isSome = true)
    (hbs : bs.map (·.variable_) = t.globals.map (·.id)) (names : Names) :
    Yields (Emit.source t model entry bs) { names } fun _ _ => True := by
  rw [source_eq]
  exact yields_bind ((preamble_spec S hbs names).mono fun params e he =>
    function_spec S h hW hblocks hnodup hzero hmodel he.1 he.2)

end Source

/-! ### Modules -/

/-- The function of a module, from the instruction that opens it. -/
def functionIn (is : List Instruction) : List Instruction := is.dropWhile (·.opcode ≠ .function)

/-- **A module as its program is written from it**: its tables, and the code of its one function, which
stands in the setting of the tables block by block. -/
structure Ready [NameLimit] {I : Interpretation} (m : Module) (t : Tables) (s : Surroundings I)
    (A : List Instruction) (R : List UInt32) (globals : List Instruction) (model main first : UInt32)
    (c : Code) : Prop where
  load : Tables.load m = .ok t
  setting : Setting t s A R globals c.instructions
  entry : t.entry = some (.ofCode model, main)
  blocks : t.blocks = Tables.blocksOf (Tables.emptyBlock first []) ⟨.returnVoid, []⟩ c
  opened : (first :: c.opened).Nodup
  proper : 0 ∉ first :: c.opened
  qualified : (Emit.qualifier? (.ofCode model)).isSome = true
  function : ∃ void type, functionIn m.instructions = functionOf main void type first c ∧
    Setting t s A R globals (functionOf main void type first c)

section Ready

variable [NameLimit] {I : Interpretation} {m : Module} {t : Tables} {s : Surroundings I}
  {A globals pre post : List Instruction} {R : List UInt32} {c : Code} {Γ' : Context I}
  {o : List (Output I.Value)} {model main type first void : UInt32} {interface words : List UInt32}
  {modes : List (List UInt32)}

/-- **A module is ready**, if its globals have their forms and its one function holds code that runs. -/
theorem ready_spec (S : Scope s.decls A R globals)
    (hpre : ∀ i ∈ pre, ∃ e, Form s.decls A R e i) (hpost : ∀ i ∈ post, ∃ e, Form s.decls A R e i)
    (hmodes : ∀ ps ∈ modes, ps ≠ []) (hset : ⟨.extInstImport, s.extended :: words⟩ ∈ globals)
    (hglobals : globals = pre ++ ⟨.entryPoint, model :: main :: interface⟩ ::
      (Tables.executions main modes ++ post))
    (hm : m.instructions = globals ++ functionOf main void type first c) (h : Runs s [] c Γ' o)
    (hnodup : (m.instructions.filterMap (·.result?)).Nodup)
    (hzero : 0 ∉ m.instructions.filterMap (·.result?))
    (hmodel : (Emit.qualifier? (.ofCode model)).isSome = true) :
    ∃ t, Ready m t s A R globals model main first c := by
  have hresults : (functionOf main void type first c).filterMap (·.result?) =
      main :: first :: (c.instructions.filterMap (·.result?) ++ []) := by
    rw [functionOf, List.filterMap_append, List.filterMap_append]
    rfl
  rw [hm, List.filterMap_append, hresults, List.append_nil] at hnodup hzero
  have hsub := c.opened_sublist
  have hopened : (first :: c.opened).Nodup :=
    (List.nodup_cons.1 (List.nodup_append.1 hnodup).2.1).2.sublist (hsub.cons_cons first)
  have hnone : 0 ∉ first :: c.opened := fun h0 => hzero (List.mem_append_right _
    (List.mem_cons_of_mem _ ((hsub.cons_cons first).subset h0)))
  obtain ⟨t, hload, loaded⟩ := Tables.load_spec hpre hpost hmodes h
    (fun h0 => hnone (h0 ▸ List.mem_cons_self)) (by rw [hm, hglobals])
  rw [← hglobals] at loaded
  have himport : s.extended ∈ t.imports := by
    rw [loaded.hold.imports, List.mem_reverse]
    exact List.mem_filterMap.2 ⟨_, hset, rfl⟩
  refine ⟨t, hload, ⟨S, loaded.hold, himport, ?_⟩, loaded.entry, loaded.blocks, hopened, hnone, hmodel,
    void, type, ?_, ⟨S, loaded.hold, himport, ?_⟩⟩
  · rw [List.filterMap_append]
    exact hnodup.sublist ((List.sublist_cons_of_sublist _ (List.sublist_cons_self _ _)).append_left _)
  · have hclear : ∀ i ∈ globals, i.opcode ≠ .function := by
      have hform : ∀ {i : Instruction}, (∃ e, Form s.decls A R e i) → i.opcode ≠ .function := by
        rintro i ⟨e, h⟩ hop
        cases h <;> cases hop
      rw [hglobals]
      simp only [List.forall_mem_append, List.forall_mem_cons]
      refine ⟨fun i hi => hform (hpre i hi), fun h => (by cases h), ?_, fun i hi => hform (hpost i hi)⟩
      intro i hi hop
      obtain ⟨ps, -, rfl⟩ := List.mem_map.1 hi
      cases hop
    rw [functionIn, hm, List.dropWhile_append_of_pos fun i hi => decide_eq_true (hclear i hi)]
    rfl
  · rw [List.filterMap_append, hresults, List.append_nil]
    exact hnodup

omit [NameLimit] in
/-- A module is written by its tables. -/
theorem Program.ofModule_eq (h : Tables.load m = .ok t) : Program.ofModule m = Program.ofTables t := by
  have hlimit : { t with limit := {} } = t := by rw [← Tables.load_limit h]
  rw [ofModule, ofModuleWithin, h]
  exact congrArg ofTables hlimit

omit [NameLimit] in
/-- Words are written by the module they are read as. -/
theorem Program.ofWords_eq {words : List UInt32} (h : Module.parse words = .ok m) :
    Program.ofWords words = Program.ofModule m := by
  rw [ofWords, ofWordsWithin, h, ofModule]

omit [NameLimit] in
/-- Words that become a program are those of a module with tables. -/
theorem Program.tables_of_ofWords {words : List UInt32} {r : Program} (h : Program.ofWords words = .ok r) :
    ∃ m t, Module.parse words = .ok m ∧ Tables.load m = .ok t ∧ Program.ofTables t = .ok r := by
  cases hm : Module.parse words with
  | error e =>
    rw [ofWords, ofWordsWithin, hm] at h
    cases h
  | ok m =>
    obtain ⟨t, ht, -⟩ := bind_eq_ok.1 (ofWords_eq hm ▸ h)
    rw [ofWords_eq hm, ofModule_eq ht] at h
    exact ⟨m, t, rfl, ht, h⟩

/-- **A module that is ready becomes a program**, with the bindings that are reflected from its tables. -/
theorem Ready.program (ready : Ready m t s A R globals model main first c) (h : Runs s [] c Γ' o) :
    ∃ program names, Program.ofModule m = .ok program ∧
      (reflect t).run {} = .ok (program.bindings, names) := by
  obtain ⟨bindings, names, hreflect, hbs⟩ := reflect_spec ready.setting.toScope ready.setting.hold {}
  obtain ⟨u, e, hsource, -⟩ := source_spec ready.setting main h (List.Subset.refl _) ready.blocks
    ready.opened ready.proper ready.qualified (ids_of_reflects hbs) names
  refine ⟨⟨.ofCode model, String.join (e.lines.toList.map (· ++ "\n")), bindings, t.localSize⟩, names, ?_,
    hreflect⟩
  rw [Program.ofModule_eq ready.load, Program.ofTables]
  show ((reflect t).run {} >>= _) = _
  rw [hreflect]
  show ((Emit.source t (t.entry.getD (.vertex, 0)).1 (t.entry.getD (.vertex, 0)).2 bindings).run
    { names } >>= _) = _
  rw [ready.entry]
  show ((Emit.source t (.ofCode model) main bindings).run { names } >>= _) = _
  rw [hsource]
  rfl

end Ready

end NodeShader.Metal
