import NodeShader.Proofs.Failure
import NodeShader.Proofs.Stage.Sampling
import NodeShader.Stage.Generate

/-!
# Steady steps

Most steps of a draft are *steady*: they leave the list of dependencies as it is, they keep to an
allowance of global values to read and of resources to list, and if they fail, that is no failure of
the backend.  Steadiness is shown for one step after the other here, down to the code of whole lists of
nodes (`steady_writeNodes`); only a node that notes another stage is not steady.

A global value is read by way of an access chain, whose last operand is a constant with the number of
the member.
-/

namespace NodeShader

open Spirv

/-! ### Reading global values -/

/-- The access chains of the code of a module. -/
def Spirv.ModuleBuilder.chains (b : ModuleBuilder) : List Instruction :=
  b.code.filter (·.opcode == .accessChain)

/-- Every constant that was declared stands among the declarations. -/
def Spirv.ModuleBuilder.Listed (b : ModuleBuilder) : Prop :=
  ∀ t w id, ((Opcode.constant, [t, w]), id) ∈ b.declared → ⟨.constant, [t, id, w]⟩ ∈ b.decls

/-- An access chain to one of the global values. -/
def GlobalMember.ReachedBy (m : GlobalMember) (D : List Instruction) (i : Instruction) : Prop :=
  ∃ pointer place base type index, i = ⟨.accessChain, [pointer, place, base, index]⟩ ∧
    ⟨.constant, [type, index, m.index.toUInt32]⟩ ∈ D

theorem GlobalMember.ReachedBy.mono {m : GlobalMember} {D D' : List Instruction} {i : Instruction}
    (h : m.ReachedBy D i) (hD : D ⊆ D') : m.ReachedBy D' i := by
  obtain ⟨pointer, place, base, type, index, rfl, hm⟩ := h
  exact ⟨pointer, place, base, type, index, rfl, hD hm⟩

/-! ### Steps on the module alone -/

namespace Spirv.Assemble

variable {α β : Type}

/-- A step that drops no declarations and adds no access chains. -/
structure Tame (x : Assemble α) : Prop where
  decls : ∀ b, b.decls ⊆ (x.run b).2.decls
  listed : ∀ b, b.Listed → (x.run b).2.Listed
  chains : ∀ b, (x.run b).2.chains = b.chains

theorem tame_pure (a : α) : Tame (pure a) :=
  ⟨fun _ => List.Subset.refl _, fun _ h => h, fun _ => rfl⟩

theorem tame_bind {x : Assemble α} {f : α → Assemble β} (hx : Tame x) (hf : ∀ a, Tame (f a)) :
    Tame (x >>= f) where
  decls b := List.Subset.trans (hx.decls b) ((hf _).decls _)
  listed b h := (hf _).listed _ (hx.listed b h)
  chains b := ((hf _).chains _).trans (hx.chains b)

theorem tame_forM {f : α → Assemble Unit} (hf : ∀ a, Tame (f a)) (l : List α) : Tame (l.forM f) := by
  induction l with
  | nil => exact tame_pure ()
  | cons a l ih => exact tame_bind (hf a) fun _ => ih

theorem tame_ite {P : Prop} [Decidable P] {x y : Assemble α} (hx : Tame x) (hy : Tame y) :
    Tame (if P then x else y) := by
  split
  · exact hx
  · exact hy

theorem tame_allocId : Tame allocId := ⟨fun _ => List.Subset.refl _, fun _ h => h, fun _ => rfl⟩

/-- Adding an instruction, unless it is an access chain. -/
theorem tame_add {s : Section} {op : Opcode} {operands : List UInt32}
    (h : s = .functions → op ≠ .accessChain) : Tame (add s op operands) := by
  have hdecls : ∀ b : ModuleBuilder, b.decls ⊆ (b.push s ⟨op, operands⟩).decls := fun b =>
    ModuleBuilder.sectionOf_subset (b.push_sublist s ⟨op, operands⟩) _
  refine ⟨hdecls, fun b hb t w id hm => hdecls b (hb t w id hm), fun b => ?_⟩
  show ((b.push s ⟨op, operands⟩).sectionOf .functions).filter _ = _
  by_cases hs : s = .functions
  · subst hs
    have hne : ((⟨op, operands⟩ : Instruction).opcode == .accessChain) = false :=
      beq_eq_false_iff_ne.2 (h rfl)
    rw [ModuleBuilder.sectionOf_push_self, List.filter_append, List.filter_cons_of_neg (by simp [hne]),
      List.filter_nil, List.append_nil]
    rfl
  · rw [ModuleBuilder.sectionOf_push_of_ne b _ hs]
    rfl

/-- Declaring a type or constant, with the type of a constant in front. -/
theorem tame_declare {op : Opcode} {k : Nat} {operands : List UInt32} (h : op = .constant → k = 1) :
    Tame (declare op k operands) := by
  have hnew : ∀ b : ModuleBuilder,
      Tame (add .types op (operands.take k ++ b.nextId.toUInt32 :: operands.drop k)) := fun b =>
    tame_add fun hs => absurd hs (by decide)
  refine ⟨fun b => ?_, fun b hb => ?_, fun b => ?_⟩
  · rw [Assemble.run_declare]
    split
    · exact List.Subset.refl _
    · exact (hnew b).decls _
  · rw [Assemble.run_declare]
    split
    · exact hb
    · intro t w id hm
      rcases List.mem_cons.1 hm with hm | hm
      · obtain ⟨⟨rfl, rfl⟩, rfl⟩ := Prod.mk.inj hm |>.imp_left Prod.mk.inj
        rw [h rfl]
        exact ModuleBuilder.mem_sectionOf.2 (by simp)
      · exact (hnew b).decls { b with nextId := b.nextId + 1 } (hb t w id hm)
  · rw [Assemble.run_declare]
    split
    · rfl
    · exact (hnew b).chains { b with nextId := b.nextId + 1 }

theorem tame_capability (c : UInt32) : Tame (capability c) := by
  have hadd : Tame (add .capabilities .capability [c]) := tame_add (by decide)
  refine ⟨fun b => ?_, fun b hb => ?_, fun b => ?_⟩
  · rw [Drafting.run_capability]
    split
    · exact List.Subset.refl _
    · exact hadd.decls b
  · rw [Drafting.run_capability]
    split
    · exact hb
    · exact hadd.listed b hb
  · rw [Drafting.run_capability]
    split
    · rfl
    · exact hadd.chains b

theorem tame_importSet (name : String) : Tame (importSet name) := by
  refine tame_bind  ⟨fun _ => List.Subset.refl _, fun _ h => h, fun _ => rfl⟩ fun b => ?_
  split
  · exact tame_pure _
  · refine tame_bind tame_allocId fun id => tame_bind (tame_add (by decide)) fun _ => ?_
    refine tame_bind  ⟨fun _ => List.Subset.refl _, fun _ h => h, fun _ => rfl⟩ ?_
    exact fun _ => tame_pure _

/-- Setting the memory model touches neither declarations nor code. -/
theorem tame_memoryModel (addressing model : UInt32) : Tame (memoryModel addressing model) := by
  refine tame_bind  ?_ fun _ => tame_add (by decide)
  have hsection : ∀ (b : ModuleBuilder) (s : Section), s ≠ .memoryModel →
      ({ b with entries := b.entries.filter (·.1 != .memoryModel) } : ModuleBuilder).sectionOf s =
        b.sectionOf s := by
    intro b s hs
    rw [ModuleBuilder.sectionOf, ModuleBuilder.sectionOf, Array.toList_filter, List.filter_filter]
    congr 1
    refine List.filter_congr fun e _ => ?_
    by_cases he : e.1 = s
    · simp [he, hs]
    · simp [he]
  have hdecls : ∀ b : ModuleBuilder, b.decls ⊆
      ({ b with entries := b.entries.filter (·.1 != .memoryModel) } : ModuleBuilder).decls := by
    intro b
    rw [ModuleBuilder.decls, ModuleBuilder.decls, hsection b .types (by decide)]
    exact List.Subset.refl _
  exact ⟨hdecls, fun b hb t w id hm => hdecls b (hb t w id hm),
    fun b => congrArg (List.filter _) (hsection b .functions (by decide))⟩

theorem tame_typeStruct (members : List UInt32) : Tame (typeStruct members) :=
  tame_bind tame_allocId fun _ => tame_bind (tame_add (by decide)) fun _ => tame_pure _

theorem tame_globalVariable (pointer storage : UInt32) : Tame (globalVariable pointer storage) :=
  tame_bind tame_allocId fun _ => tame_bind (tame_add (by decide)) fun _ => tame_pure _

/-- An instruction of a function, unless it is an access chain. -/
theorem tame_code {op : Opcode} {operands : List UInt32} (h : op ≠ .accessChain) :
    Tame (add .functions op operands) := tame_add fun _ => h

theorem tame_op {op : Opcode} {type : UInt32} {args : List UInt32} (h : op ≠ .accessChain) :
    Tame (Assemble.op op type args) :=
  tame_bind tame_allocId fun _ => tame_bind (tame_code h) fun _ => tame_pure _

end Spirv.Assemble

/-! ### Steps of a draft -/

/-- What steps may do: the global values that they may read, and the stage inputs that they may
declare. -/
structure Allowance where
  reads : GlobalMember → Prop
  inputs : String → Prop

/-- Anything may be read and declared. -/
def Allowance.all : Allowance := ⟨fun _ => True, fun _ => True⟩

/-- What is added to a draft keeps to an allowance. -/
structure Draft.Keeps (A : Allowance) (d d' : Draft) : Prop where
  decls : d.decls ⊆ d'.decls
  listed : d.builder.Listed → d'.builder.Listed
  chains : d.builder.Listed → ∀ i ∈ d'.builder.chains,
    i ∈ d.builder.chains ∨ ∃ m, A.reads m ∧ m.ReachedBy d'.decls i
  inputs : ∀ r ∈ d'.resources, r.kind = .stageInput → r ∈ d.resources ∨ A.inputs r.name

namespace Draft.Keeps

variable {A : Allowance} {d d₁ d₂ : Draft}

theorem refl (d : Draft) : d.Keeps A d :=
  ⟨List.Subset.refl _, id, fun _ _ hi => .inl hi, fun _ hr _ => .inl hr⟩

/-- A note changes neither the module nor the resources. -/
theorem of_note (hb : d₁.builder = d.builder) (hr : d₁.resources = d.resources) : d.Keeps A d₁ := by
  have hdecls : d₁.decls = d.decls := by rw [Draft.decls, hb]
  exact ⟨hdecls ▸ List.Subset.refl _, fun hl => by rwa [hb], fun _ i hi => .inl (by rwa [hb] at hi),
    fun r h _ => .inl (hr ▸ h)⟩

theorem trans (h₁ : d.Keeps A d₁) (h₂ : d₁.Keeps A d₂) : d.Keeps A d₂ where
  decls := List.Subset.trans h₁.decls h₂.decls
  listed h := h₂.listed (h₁.listed h)
  chains h i hi := by
    rcases h₂.chains (h₁.listed h) i hi with hi | hi
    · refine (h₁.chains h i hi).imp_right fun hreach => ?_
      obtain ⟨m, hm, hreach⟩ := hreach
      exact ⟨m, hm, hreach.mono h₂.decls⟩
    · exact .inr hi
  inputs r hr hk := (h₂.inputs r hr hk).elim (fun hr => h₁.inputs r hr hk) .inr

end Draft.Keeps

/-- Nodes among which the arms of a conditional lead to no others, and which read the time only if
that is allowed. -/
structure StagePlan.Confined (p : StagePlan) (A : Allowance) (S : Nat → Prop) : Prop where
  extent : A.reads .extent
  time : ∀ i n, S i → p.graph.nodes[i]? = some n → n.kind = .time → A.reads .time
  arms : ∀ i n, S i → p.graph.nodes[i]? = some n → n.kind = .conditional →
    ∀ k < 2, ∀ j ∈ p.region.armNodes i k, S j

namespace Drafting

variable {α β : Type} {A : Allowance}

/-- A step whose failures are none of the backend. -/
def FailsEarly (x : Drafting α) : Prop := ∀ d f, StateT.run x d = .error f → f.Early

/-- **A steady step** keeps to an allowance, leaves the dependencies as they are, and fails early if
it does. -/
structure Steady (A : Allowance) (x : Drafting α) : Prop where
  keeps : ∀ ⦃d a d'⦄, Draws x d a d' → d.Keeps A d'
  dependencies : ∀ ⦃d a d'⦄, Draws x d a d' → d'.dependencies = d.dependencies
  early : FailsEarly x

theorem failsEarly_bind {x : Drafting α} {f : α → Drafting β} (hx : FailsEarly x)
    (hf : ∀ a, FailsEarly (f a)) : FailsEarly (x >>= f) := by
  intro d e h
  rw [StateT.run_bind] at h
  cases hr : StateT.run x d with
  | error e' =>
    rw [hr] at h
    cases h
    exact hx d e hr
  | ok r =>
    rw [hr] at h
    exact hf r.1 r.2 e h

/-- A step that changes nothing. -/
theorem Steady.of_same {x : Drafting α} (h : ∀ d a d', Draws x d a d' → d' = d)
    (he : FailsEarly x) : Steady A x where
  keeps d a d' hd := by
    rw [h d a d' hd]
    exact .refl d
  dependencies d a d' hd := by rw [h d a d' hd]
  early := he

theorem steady_pure (a : α) : Steady A (pure a) :=
  .of_same (fun _ _ _ h => (draws_pure.1 h).2) fun _ _ h => by cases h

theorem steady_bind {x : Drafting α} {f : α → Drafting β} (hx : Steady A x)
    (hf : ∀ a, Steady A (f a)) : Steady A (x >>= f) where
  keeps d b d' h := by
    obtain ⟨a, d₁, h₁, h₂⟩ := draws_bind.1 h
    exact (hx.keeps h₁).trans ((hf a).keeps h₂)
  dependencies d b d' h := by
    obtain ⟨a, d₁, h₁, h₂⟩ := draws_bind.1 h
    rw [(hf a).dependencies h₂, hx.dependencies h₁]
  early := failsEarly_bind hx.early fun a => (hf a).early

theorem steady_get : Steady A get :=
  .of_same (fun _ _ _ h => (draws_get.1 h).2) fun _ _ h => by cases h

/-- A step that changes neither the module nor the dependencies, and may list resources. -/
theorem steady_modify {f : Draft → Draft} (hb : ∀ d, (f d).builder = d.builder)
    (hd : ∀ d, (f d).dependencies = d.dependencies)
    (hr : ∀ d, ∀ r ∈ (f d).resources, r.kind = .stageInput → r ∈ d.resources ∨ A.inputs r.name) :
    Steady A (modify f) where
  keeps d a d' h := by
    obtain rfl := draws_modify.1 h
    have hdecls : (f d).decls = d.decls := by rw [Draft.decls, hb]
    exact ⟨hdecls ▸ List.Subset.refl _, fun hl => by rwa [hb], fun _ i hi => .inl (by rwa [hb] at hi), hr d⟩
  dependencies d a d' h := by rw [draws_modify.1 h, hd]
  early _ _ h := by cases h

/-- A step that makes a note of something. -/
theorem steady_note {f : Draft → Draft} (hb : ∀ d, (f d).builder = d.builder)
    (hd : ∀ d, (f d).dependencies = d.dependencies) (hr : ∀ d, (f d).resources = d.resources) :
    Steady A (modify f) :=
  steady_modify hb hd fun d _ h _ => .inl (hr d ▸ h)

theorem failsEarly_throw {e : Failure} (he : e.Early) : FailsEarly (throw e : Drafting α) := by
  intro d f h
  obtain rfl : e = f := Except.error.inj h
  exact he

theorem steady_throw {e : Failure} (he : e.Early) : Steady A (throw e : Drafting α) :=
  .of_same (fun _ _ _ h => absurd h not_draws_throw) (failsEarly_throw he)

theorem steady_fault : Steady A (throw .fault : Drafting α) := steady_throw (Failure.early_of_none rfl)

theorem steady_assemble {x : Assemble α} (hx : x.Tame) : Steady A (assemble x) where
  keeps d a d' h := by
    obtain ⟨-, rfl⟩ := draws_assemble.1 h
    exact ⟨hx.decls _, hx.listed _, fun _ i hi => .inl (by rwa [hx.chains] at hi), fun _ hr _ => .inl hr⟩
  dependencies d a d' h := by rw [(draws_assemble.1 h).2]
  early _ _ h := by cases h

/-- Declaring a type. -/
theorem steady_declare {op : Opcode} {k : Nat} {operands : List UInt32} (h : op = .constant → k = 1) :
    Steady A (assemble (Assemble.declare op k operands)) := steady_assemble (Assemble.tame_declare h)

theorem steady_demand (o : Option α) : Steady A (demand o) := by
  cases o with
  | none => exact steady_fault
  | some a => exact steady_pure a

/-- What is done with something that the graph has. -/
theorem steady_demand_bind {o : Option α} {f : α → Drafting β}
    (hf : ∀ a, o = some a → Steady A (f a)) : Steady A (demand o >>= f) := by
  cases o with
  | none =>
    refine .of_same (fun d b d' h => ?_) fun d e h => ?_
    · obtain ⟨a, d₁, h₁, -⟩ := draws_bind.1 h
      exact absurd h₁ not_draws_throw
    · obtain rfl : Failure.fault = e := Except.error.inj h
      exact Failure.early_of_none rfl
  | some a => exact hf a rfl

theorem steady_unsupported (n : Node) (reason : String) :
    Steady A (unsupported n reason : Drafting α) :=
  steady_throw (Failure.early_ofMessage (by decide) _)

theorem steady_unsupportedAnywhere (reason : String) :
    Steady A (unsupportedAnywhere reason : Drafting α) :=
  steady_throw (Failure.early_ofMessage (by decide) _)

theorem steady_ite {P : Prop} [Decidable P] {x y : Drafting α} (hx : Steady A x) (hy : Steady A y) :
    Steady A (if P then x else y) := by
  split
  · exact hx
  · exact hy

theorem steady_forM {f : α → Drafting Unit} {l : List α} (hf : ∀ a ∈ l, Steady A (f a)) :
    Steady A (l.forM f) := by
  induction l with
  | nil => exact steady_pure ()
  | cons a l ih =>
    exact steady_bind (hf a List.mem_cons_self) fun _ => ih fun b hb =>
      hf b (List.mem_cons_of_mem a hb)

theorem steady_mapM {f : α → Drafting β} {l : List α} (hf : ∀ a ∈ l, Steady A (f a)) :
    Steady A (l.mapM f) := by
  induction l with
  | nil => exact steady_pure []
  | cons a l ih =>
    rw [List.mapM_cons]
    exact steady_bind (hf a List.mem_cons_self) fun _ =>
      steady_bind (ih fun b hb => hf b (List.mem_cons_of_mem a hb)) fun _ => steady_pure _

/-! ### Types, constants and variables -/

theorem steady_typeOf (t : ValueType) : Steady A (typeOf t) := by
  have hscaled : ∀ x : UInt32, Steady A (if t.size = 1 then pure x
      else assemble (Assemble.typeVector x t.size.toUInt32)) :=
    fun x => steady_ite (steady_pure x) (steady_declare (by decide))
  refine steady_ite (steady_bind (steady_declare (by decide)) hscaled) ?_
  refine steady_ite (steady_bind (steady_assemble (Assemble.tame_capability _)) fun _ =>
    steady_bind (steady_declare (by decide)) hscaled) ?_
  refine steady_ite (steady_bind (steady_declare (by decide)) hscaled) ?_
  exact steady_ite (steady_declare (by decide)) (steady_unsupportedAnywhere _)

theorem steady_unsignedType (size : Nat) : Steady A (unsignedType size) :=
  steady_bind (steady_declare (by decide)) fun _ => steady_ite (steady_pure _) (steady_declare (by decide))

theorem steady_scalarConstant (t : ValueType) (v : Float) : Steady A (scalarConstant t v) := by
  refine steady_bind (steady_typeOf t) fun _ => ?_
  refine steady_ite (steady_declare fun _ => rfl) (steady_ite (steady_declare fun _ => rfl) ?_)
  exact steady_ite (steady_declare fun _ => rfl)
    (steady_ite (steady_declare fun _ => rfl) (steady_unsupportedAnywhere _))

theorem steady_constant (t : ValueType) (values : List Float) : Steady A (constant t values) := by
  refine steady_ite (steady_scalarConstant t _) (steady_bind (steady_mapM fun _ _ =>
    steady_scalarConstant _ _) fun _ => steady_bind (steady_typeOf t) fun _ => steady_declare (by decide))

theorem steady_stageVariable {kind : ResourceClass} {name : String}
    (hr : kind = .stageInput → A.inputs name) (type : ValueType) (id : UInt32) (format : String)
    (place : Place) : Steady A (stageVariable kind name type id format place) := by
  refine steady_bind (steady_assemble ?_) fun v => steady_bind ?_ fun _ => steady_pure _
  · refine Assemble.tame_bind (Assemble.tame_declare (by decide)) fun _ => ?_
    refine Assemble.tame_bind (Assemble.tame_globalVariable _ _) fun _ => ?_
    refine Assemble.tame_bind (Assemble.tame_add (by decide)) fun _ => ?_
    cases place
    · exact Assemble.tame_bind (Assemble.tame_add (by decide)) fun _ => Assemble.tame_pure _
    · exact Assemble.tame_bind (Assemble.tame_add (by decide)) fun _ => Assemble.tame_pure _
  · refine steady_modify (fun _ => rfl) (fun _ => rfl) fun d r h hk => ?_
    refine (List.mem_append.1 h).imp_right fun h => ?_
    rw [List.mem_singleton.1 h] at hk ⊢
    cases place
    · exact hr hk
    · exact hr hk

theorem steady_valueVariable {kind : ResourceClass} {name : String}
    (hr : kind = .stageInput → A.inputs name) (type : ValueType) (place : Place) :
    Steady A (valueVariable kind name type place) :=
  steady_bind (steady_typeOf type) fun _ => steady_stageVariable hr _ _ _ _

theorem steady_boundVariable {r : Resource} (hr : r.kind ≠ .stageInput) (id : UInt32) (i : Nat) :
    Steady A (boundVariable id i r) := by
  refine steady_bind steady_get fun d => steady_bind (steady_assemble ?_) fun v =>
    steady_bind ?_ fun _ => steady_pure _
  · refine Assemble.tame_bind (Assemble.tame_declare (by decide)) fun _ => ?_
    refine Assemble.tame_bind (Assemble.tame_globalVariable _ _) fun _ => ?_
    refine Assemble.tame_bind (Assemble.tame_add (by decide)) fun _ => ?_
    refine Assemble.tame_bind (Assemble.tame_add (by decide)) fun _ => ?_
    exact Assemble.tame_bind (Assemble.tame_add (by decide)) fun _ => Assemble.tame_pure _
  · refine steady_modify (fun _ => rfl) (fun _ => rfl) fun d r' h hk => ?_
    refine (List.mem_append.1 h).imp_right fun h => ?_
    rw [List.mem_singleton.1 h] at hk
    exact absurd hk hr

theorem steady_declareGlobals : Steady A declareGlobals := by
  refine steady_bind (steady_declare (by decide)) fun _ => steady_bind (steady_declare (by decide)) fun _ => ?_
  refine steady_bind (steady_declare (by decide)) fun _ => steady_bind (steady_declare (by decide)) fun _ => ?_
  refine steady_bind (steady_assemble (Assemble.tame_typeStruct _)) fun _ => ?_
  refine steady_bind (steady_assemble ?_) fun _ => steady_bind (steady_assemble ?_) fun _ => ?_
  · refine Assemble.tame_bind (Assemble.tame_add (by decide)) fun _ => ?_
    refine Assemble.tame_bind (Assemble.tame_add (by decide)) fun _ => Assemble.tame_forM (fun m => ?_) _
    refine Assemble.tame_bind (Assemble.tame_add (by decide)) fun _ => ?_
    refine Assemble.tame_bind (Assemble.tame_add (by decide)) fun _ => ?_
    exact Assemble.tame_ite (Assemble.tame_bind (Assemble.tame_add (by decide)) fun _ =>
      Assemble.tame_add (by decide)) (Assemble.tame_pure _)
  · refine Assemble.tame_bind (Assemble.tame_declare (by decide)) fun _ => ?_
    refine Assemble.tame_bind (Assemble.tame_globalVariable _ _) fun _ => ?_
    refine Assemble.tame_bind (Assemble.tame_add (by decide)) fun _ => ?_
    refine Assemble.tame_bind (Assemble.tame_add (by decide)) fun _ => ?_
    exact Assemble.tame_bind (Assemble.tame_add (by decide)) fun _ => Assemble.tame_pure _
  · refine steady_modify (fun _ => rfl) (fun _ => rfl) fun d r h hk => ?_
    refine (List.mem_append.1 h).imp_right fun h => ?_
    rw [List.mem_singleton.1 h] at hk
    cases hk

/-- A constant that is asked for stands among the declarations. -/
theorem constant_listed {d d' : Draft} {type w x : UInt32} (hl : d.builder.Listed)
    (h : Draws (assemble (Assemble.constant type [w])) d x d') :
    ⟨.constant, [type, x, w]⟩ ∈ d'.decls := by
  rw [Assemble.constant, draws_assemble, Assemble.run_declare] at h
  obtain ⟨rfl, rfl⟩ := h
  split
  · rename_i id hid
    exact hl type w id (lookup_mem hid)
  · exact ModuleBuilder.mem_sectionOf.2 (by simp)

/-- **An access to a global value** goes by a constant with the number of its member. -/
theorem keeps_access {d d₁ d₂ : Draft} {m : GlobalMember} {pointer base int index place : UInt32}
    (hm : A.reads m) (h₁ : Draws (assemble (Assemble.constant int [m.index.toUInt32])) d index d₁)
    (h₂ : Draws (assemble (Assemble.op .accessChain pointer [base, index])) d₁ place d₂) :
    d.Keeps A d₂ := by
  have k : d.Keeps A d₁ := (steady_declare fun _ => rfl : Steady A (assemble
    (Assemble.constant int [m.index.toUInt32]))).keeps h₁
  obtain ⟨rfl, rfl⟩ := draws_assemble.1 h₂
  let b : ModuleBuilder := { d₁.builder with nextId := d₁.builder.nextId + 1 }
  let chain : Instruction := ⟨.accessChain, [pointer, d₁.builder.nextId.toUInt32, base, index]⟩
  have hdecls : d₁.decls ⊆ (b.push .functions chain).decls :=
    ModuleBuilder.sectionOf_subset (b.push_sublist _ _) _
  refine ⟨List.Subset.trans k.decls hdecls, fun hl t w id hid => hdecls (k.listed hl t w id hid),
    fun hl i hi => ?_, k.inputs⟩
  have hchains : (b.push .functions chain).chains = d₁.builder.chains ++ [chain] := by
    rw [ModuleBuilder.chains, ModuleBuilder.code, ModuleBuilder.sectionOf_push_self,
      List.filter_append]
    rfl
  have hi : i ∈ d₁.builder.chains ++ [chain] := hchains ▸ hi
  rcases List.mem_append.1 hi with hi | hi
  · refine (k.chains hl i hi).imp_right fun hreach => ?_
    obtain ⟨m, hm, hreach⟩ := hreach
    exact ⟨m, hm, hreach.mono hdecls⟩
  · rw [List.mem_singleton.1 hi]
    exact .inr ⟨m, hm, _, _, _, _, _, rfl, hdecls (constant_listed hl h₁)⟩

theorem steady_loadGlobal {m : GlobalMember} (hm : A.reads m) : Steady A (loadGlobal m) := by
  have haccess : ∀ (pointer base int type : UInt32), Steady A (do
      let index ← assemble (Assemble.constant int [m.index.toUInt32])
      let place ← assemble (Assemble.op .accessChain pointer [base, index])
      assemble (Assemble.op .load type [place])) := by
    intro pointer base int type
    have hconstant : Steady A (assemble (Assemble.constant int [m.index.toUInt32])) :=
      steady_declare fun _ => rfl
    have hload : ∀ place, Steady A (assemble (Assemble.op .load type [place])) := fun _ =>
      steady_assemble (Assemble.tame_op (by decide))
    refine ⟨fun d a d' h => ?_, fun d a d' h => ?_, ?_⟩
    · obtain ⟨index, d₁, h₁, h⟩ := draws_bind.1 h
      obtain ⟨place, d₂, h₂, h⟩ := draws_bind.1 h
      exact (keeps_access hm h₁ h₂).trans ((hload place).keeps h)
    · obtain ⟨index, d₁, h₁, h⟩ := draws_bind.1 h
      obtain ⟨place, d₂, h₂, h⟩ := draws_bind.1 h
      rw [(hload place).dependencies h, (draws_assemble.1 h₂).2, ← hconstant.dependencies h₁]
    · exact failsEarly_bind hconstant.early fun _ => failsEarly_bind (fun _ _ h => by cases h) fun x =>
        (hload x).early
  rw [loadGlobal_eq]
  refine steady_bind steady_get fun d => ?_
  simp only [assemble_bind]
  refine steady_bind (steady_declare (by decide)) fun float => steady_bind ?_ fun type => ?_
  · cases m
    · exact steady_assemble <| Assemble.tame_bind (Assemble.tame_declare (by decide)) fun _ =>
        Assemble.tame_declare (by decide)
    · exact steady_assemble <| Assemble.tame_bind (Assemble.tame_declare (by decide)) fun _ =>
        Assemble.tame_declare (by decide)
    · exact steady_declare (by decide)
    · exact steady_pure float
  · exact steady_bind (steady_declare (by decide)) fun _ => steady_bind (steady_declare (by decide)) fun _ =>
      haccess _ _ _ _

theorem steady_begin : Steady A begin := by
  refine steady_bind (steady_assemble ?_) fun _ =>
    steady_bind (steady_note (fun _ => rfl) (fun _ => rfl) fun _ => rfl) fun _ => steady_declareGlobals
  refine Assemble.tame_bind (Assemble.tame_capability _) fun _ => ?_
  refine Assemble.tame_bind (Assemble.tame_importSet _) fun _ => ?_
  refine Assemble.tame_bind (Assemble.tame_memoryModel _ _) fun _ => ?_
  refine Assemble.tame_bind Assemble.tame_allocId fun _ => ?_
  exact Assemble.tame_bind (Assemble.tame_add (by decide)) fun _ => Assemble.tame_pure _

theorem steady_beginMain : Steady A beginMain := by
  refine steady_bind steady_get fun _ => steady_bind (steady_assemble ?_) fun _ =>
    steady_note (fun _ => rfl) (fun _ => rfl) fun _ => rfl
  refine Assemble.tame_bind (Assemble.tame_declare (by decide)) fun _ => ?_
  refine Assemble.tame_bind (Assemble.tame_declare (by decide)) fun _ => ?_
  refine Assemble.tame_bind (Assemble.tame_code (by decide)) fun _ => ?_
  refine Assemble.tame_bind Assemble.tame_allocId fun _ => ?_
  exact Assemble.tame_bind (Assemble.tame_code (by decide)) fun _ => Assemble.tame_pure _

theorem steady_endMain : Steady A endMain :=
  steady_bind steady_get fun _ => steady_assemble <| Assemble.tame_bind (Assemble.tame_code (by decide))
    fun _ => Assemble.tame_bind (Assemble.tame_code (by decide)) fun _ => Assemble.tame_add (by decide)

/-! ### Declarations -/

theorem steady_isFragment : Steady A isFragment := steady_bind steady_get fun _ => steady_pure _

theorem steady_stageInput {input : StageInput} (hr : A.inputs input.name) :
    Steady A (stageInput input) := by
  refine steady_bind steady_get fun d => steady_ite ?_ (steady_pure _)
  exact steady_bind (steady_valueVariable (fun _ => hr) _ _) fun _ =>
    steady_note (fun _ => rfl) (fun _ => rfl) fun _ => rfl

theorem steady_invocationId (hr : A.inputs "gid") : Steady A invocationId := by
  refine steady_bind steady_get fun d => steady_ite ?_ (steady_pure _)
  exact steady_bind (steady_unsignedType 3) fun _ =>
    steady_bind (steady_stageVariable (fun _ => hr) _ _ _ _) fun _ =>
      steady_note (fun _ => rfl) (fun _ => rfl) fun _ => rfl

theorem steady_stageOutput (name : String) (type : ValueType) (k : Nat) :
    Steady A (stageOutput name type k) := by
  refine steady_bind (steady_valueVariable (fun h => ?_) _ _) fun _ =>
    steady_note (fun _ => rfl) (fun _ => rfl) fun _ => rfl
  cases h

theorem steady_imageType (dim sampled format : UInt32) : Steady A (assemble do
    Assemble.typeImage (← Assemble.typeFloat 32) dim sampled format) :=
  steady_assemble <| Assemble.tame_bind (Assemble.tame_declare (by decide)) fun _ =>
    Assemble.tame_declare (by decide)

theorem steady_sampledField (i : Nat) (out : PortId) (name : String) (dim : Int) (format : String) :
    Steady A (sampledField i out name dim format) := by
  have hrest : Steady A (do
      let imageType ← assemble do
        Assemble.typeImage (← Assemble.typeFloat 32) (Dim.ofCount dim) 1 ImageFormat.unknown
      let image ← boundVariable imageType i { name, kind := .sampledImage, dim, format }
      let samplerType ← assemble Assemble.typeSampler
      let sampler ← boundVariable samplerType i { name := name ++ "_sampler", kind := .sampler }
      modify fun d => { d with fields := (out, { image, sampler, imageType, dim }) :: d.fields }) := by
    refine steady_bind (steady_imageType _ _ _) fun _ => ?_
    refine steady_bind (steady_boundVariable (by simp) _ _) fun _ => ?_
    refine steady_bind (steady_declare (by decide)) fun _ => ?_
    exact steady_bind (steady_boundVariable (by simp) _ _) fun _ =>
      steady_note (fun _ => rfl) (fun _ => rfl) fun _ => rfl
  refine steady_bind steady_get fun d => steady_ite ?_ (steady_pure _)
  split
  · exact steady_bind (steady_assemble (Assemble.tame_capability _)) fun _ => hrest
  · exact hrest

theorem steady_storageField (i : Nat) (n : Node) (dim : Int) : Steady A (storageField i n dim) := by
  refine steady_bind (steady_imageType _ _ _) fun _ => ?_
  refine steady_bind (steady_boundVariable (by simp) _ _) fun _ => ?_
  exact steady_bind (steady_assemble (Assemble.tame_add (by decide))) fun _ =>
    steady_note (fun _ => rfl) (fun _ => rfl) fun _ => rfl

theorem steady_implicitCoordinate {dim : Int} (hgid : A.inputs "gid")
    (hr : A.inputs (if dim = 2 then StageInput.texCoord else .position).name) :
    Steady A (implicitCoordinate dim) := by
  refine steady_bind steady_isFragment fun _ => steady_ite (steady_invocationId hgid) ?_
  split
  · rename_i hdim
    exact steady_stageInput (by rwa [if_pos hdim] at hr)
  · rename_i hdim
    exact steady_stageInput (by rwa [if_neg hdim] at hr)

/-! ### Code -/

theorem steady_resultId (out : PortId) : Steady A (resultId out) := by
  refine steady_bind steady_get fun d => ?_
  split
  · exact steady_pure _
  · exact steady_bind (steady_assemble Assemble.tame_allocId) fun _ =>
      steady_bind (steady_note (fun _ => rfl) (fun _ => rfl) fun _ => rfl) fun _ => steady_pure _

theorem steady_bindTo (n : Node) (out : PortId) (id : UInt32) :
    Steady A (Drafting.bind n out id) := by
  refine steady_bind steady_get fun d => ?_
  split
  · exact steady_ite (steady_throw (Failure.early_of_none rfl)) (steady_pure _)
  · exact steady_note (fun _ => rfl) (fun _ => rfl) fun _ => rfl

variable (p : StagePlan) (i : Nat) (n : Node)

theorem steady_operand (q : PortId) : Steady A (operand p q) := by
  rw [operand]
  split
  · exact steady_resultId _
  · exact steady_bind (steady_typeOf _) fun _ => steady_declare (by decide)

theorem steady_credit (id : UInt32) : Steady A (credit i id) :=
  steady_note (fun _ => rfl) (fun _ => rfl) fun _ => rfl

theorem steady_emit {op : Opcode} (hop : op ≠ .accessChain) (type : UInt32) (args : List UInt32) :
    Steady A (emit i op type args) :=
  steady_bind (steady_assemble (Assemble.tame_op hop)) fun _ =>
    steady_bind (steady_credit i _) fun _ => steady_pure _

theorem steady_define (out : PortId) {op : Opcode} (hop : op ≠ .accessChain) (type : UInt32)
    (args : List UInt32) : Steady A (define i out op type args) :=
  steady_bind (steady_resultId out) fun _ =>
    steady_bind (steady_assemble (Assemble.tame_code hop)) fun _ => steady_credit i _

theorem steady_inputNamed (name : String) : Steady A (inputNamed p n name) := by
  rw [inputNamed]
  split
  · exact steady_pure _
  · exact steady_fault

/-- No arithmetic function is an access chain. -/
theorem select_ne {f : Math.Operation} {t : ValueType} {op : Opcode}
    (h : f.select? t = some (.core op)) : op ≠ .accessChain := by
  rintro rfl
  rw [Math.Operation.select?] at h
  split at h
  · cases f with
    | mix => cases h
    | unary f => cases f <;> cases h
    | binary f => cases f <;> cases h
  · cases f with
    | mix => cases h
    | unary f => cases f <;> cases h
    | binary f => cases f <;> cases h

theorem steady_arithmetic (id : UInt32) (f : Math.Operation) (t : ValueType)
    (args : List UInt32) : Steady A (arithmetic i n id f t args) := by
  refine steady_bind (steady_typeOf t) fun _ => ?_
  split
  · rename_i hop
    exact steady_bind (steady_assemble (Assemble.tame_code (select_ne hop))) fun _ => steady_credit i id
  · exact steady_bind steady_get fun _ => steady_bind (steady_assemble (Assemble.tame_code (by decide)))
      fun _ => steady_credit i id
  · exact steady_bind (steady_unsupported n _) fun _ => steady_credit i id

theorem steady_folded (f : Math.Operation) (t : ValueType) : Steady A (folded? p n f t) := by
  have hknown : ∀ q, Steady A (knownOperand? p q) := by
    intro q
    rw [knownOperand?]
    split
    · exact steady_pure _
    · exact steady_bind steady_get fun _ => steady_pure _
  refine steady_ite (steady_pure _) (steady_bind (steady_mapM fun q _ => hknown q) fun _ => ?_)
  split
  · exact steady_pure _
  · exact steady_pure _

theorem steady_defineKnown (out : PortId) (t : ValueType) (values : List Float) :
    Steady A (defineKnown n out t values) :=
  steady_bind (steady_constant t values) fun _ => steady_bind (steady_bindTo n out _) fun _ =>
    steady_note (fun _ => rfl) (fun _ => rfl) fun _ => rfl

theorem steady_writeArithmetic (f : Math.Operation) (out : PortId) :
    Steady A (writeArithmetic p i n f out) := by
  refine steady_bind (steady_folded p n f _) fun _ => ?_
  split
  · exact steady_defineKnown n out _ _
  · exact steady_bind (steady_mapM fun q _ => steady_operand p q) fun _ =>
      steady_bind (steady_resultId out) fun _ => steady_arithmetic i n _ f _ _

theorem steady_lower (t : ValueType) (e : Math.Expr) : Steady A (lower p i n t e) := by
  have hresult : ∀ f args, Steady A (do
      let id ← assemble Assemble.allocId
      arithmetic i n id f t args
      return id) := fun f args =>
    steady_bind (steady_assemble Assemble.tame_allocId) fun _ =>
      steady_bind (steady_arithmetic i n _ f t args) fun _ => steady_pure _
  induction e with
  | number v => exact steady_constant t _
  | input name => exact steady_bind (steady_inputNamed p n name) fun _ => steady_operand p _
  | unary f x ihx => exact steady_bind ihx fun _ => hresult _ _
  | binary f x y ihx ihy => exact steady_bind ihx fun _ => steady_bind ihy fun _ => hresult _ _
  | mix x y s ihx ihy ihs =>
    exact steady_bind ihx fun _ => steady_bind ihy fun _ => steady_bind ihs fun _ => hresult _ _

theorem steady_writeExpression (out : PortId) : Steady A (writeExpression p i n out) := by
  rw [writeExpression]
  split
  · split
    · exact steady_throw (Failure.early_classify (Failure.early_of_none rfl) (by decide))
    · dsimp only
      split
      · exact steady_bind (steady_lower p i n _ _) fun _ => steady_bindTo n out _
      · exact steady_bind (steady_resultId out) fun _ =>
          steady_bind (steady_mapM fun e _ => steady_lower p i n _ e) fun _ =>
            steady_arithmetic i n _ _ _ _
  · exact steady_fault

/-- No comparison is an access chain. -/
theorem comparison_ne {test : Comparison} {floating integral : Opcode}
    (h : test.select? = some (floating, integral)) :
    floating ≠ .accessChain ∧ integral ≠ .accessChain := by
  cases test with
  | unknown name => cases h
  | _ =>
    cases h
    decide

theorem steady_writeCompare (a b out : PortId) : Steady A (writeCompare p i n a b out) := by
  rw [writeCompare]
  split
  · split
    · exact steady_unsupported n _
    · rename_i htest
      have hop := comparison_ne htest
      refine steady_bind (steady_declare (by decide)) fun _ => steady_bind (steady_operand p a) fun _ =>
        steady_bind (steady_operand p b) fun _ => steady_define i out ?_ _ _
      split
      · exact hop.2
      · exact hop.1
  · exact steady_fault

theorem steady_openBlock (label : UInt32) : Steady A (openBlock label) :=
  steady_bind (steady_note (fun _ => rfl) (fun _ => rfl) fun _ => rfl) fun _ =>
    steady_assemble (Assemble.tame_code (by decide))

theorem steady_writeArm {arm : Drafting Unit} (harm : Steady A arm) (label merge : UInt32)
    (input : PortId) : Steady A (writeArm p arm label merge input) :=
  steady_bind (steady_openBlock label) fun _ => steady_bind harm fun _ =>
    steady_bind (steady_operand p input) fun _ => steady_bind steady_get fun _ =>
      steady_bind (steady_assemble (Assemble.tame_code (by decide))) fun _ => steady_pure _

theorem steady_writeConditional {arm : Nat → Drafting Unit} (harm : ∀ k < 2, Steady A (arm k))
    (out : PortId) : Steady A (writeConditional p arm i n out) := by
  rw [writeConditional]
  dsimp only
  split
  · exact steady_bind (steady_demand _) fun _ => steady_bind (steady_operand p _) fun _ =>
      steady_bindTo n out _
  · split
    · refine steady_bind (steady_operand p _) fun _ => steady_bind (steady_assemble ?_) fun _ => ?_
      · refine Assemble.tame_bind Assemble.tame_allocId fun _ => ?_
        refine Assemble.tame_bind Assemble.tame_allocId fun _ => ?_
        refine Assemble.tame_bind Assemble.tame_allocId fun _ => ?_
        refine Assemble.tame_bind (Assemble.tame_code (by decide)) fun _ => ?_
        exact Assemble.tame_bind (Assemble.tame_code (by decide)) fun _ => Assemble.tame_pure _
      · refine steady_bind (steady_writeArm p (harm 0 (by decide)) _ _ _) fun _ =>
          steady_bind (steady_writeArm p (harm 1 (by decide)) _ _ _) fun _ => ?_
        exact steady_bind (steady_openBlock _) fun _ => steady_bind (steady_typeOf _) fun _ =>
          steady_define i out (by decide) _ _
    · exact steady_unsupported n _

theorem steady_writeSwizzle (input out : PortId) : Steady A (writeSwizzle p i n input out) := by
  rw [writeSwizzle]
  split
  · dsimp only
    refine steady_bind (steady_operand p input) fun _ => steady_bind (steady_typeOf _) fun _ => ?_
    split
    · exact steady_bindTo n out _
    · exact steady_define i out (by decide) _ _
    · exact steady_define i out (by decide) _ _
    · exact steady_define i out (by decide) _ _
  · exact steady_fault

theorem steady_writeSeparate (input : PortId) : Steady A (writeSeparate p i n input) := by
  refine steady_bind (steady_operand p input) fun _ => steady_forM fun e _ => ?_
  refine steady_bind (steady_demand _) fun _ => steady_ite ?_ (steady_pure _)
  exact steady_ite (steady_bindTo n _ _) (steady_bind (steady_typeOf _) fun _ =>
    steady_define i _ (by decide) _ _)

theorem steady_toFloat4 (value : UInt32) (t : ValueType) : Steady A (toFloat4 i value t) := by
  have hone : Steady A one := steady_constant _ _
  have hzero : Steady A zero := steady_constant _ _
  refine steady_bind (steady_typeOf _) fun _ => ?_
  split
  · exact steady_bind hone fun _ => steady_emit i (by decide) _ _
  · exact steady_bind hzero fun _ => steady_bind hone fun _ => steady_emit i (by decide) _ _
  · exact steady_bind hone fun _ => steady_emit i (by decide) _ _
  · exact steady_pure _

theorem steady_texelCoordinate (hextent : A.reads .extent) (dim : Int) :
    Steady A (texelCoordinate i dim) := by
  refine steady_bind (steady_typeOf _) fun _ => steady_bind steady_get fun _ => ?_
  refine steady_bind (steady_unsignedType 3) fun _ => steady_bind (steady_emit i (by decide) _ _) fun _ => ?_
  refine steady_bind (steady_emit i (by decide) _ _) fun _ => steady_bind (steady_constant _ _) fun _ => ?_
  refine steady_bind (steady_emit i (by decide) _ _) fun _ =>
    steady_bind (steady_loadGlobal hextent) fun _ => ?_
  refine steady_bind (steady_credit i _) fun _ => steady_bind (steady_emit i (by decide) _ _) fun _ => ?_
  exact steady_ite (steady_pure _) (steady_bind (steady_typeOf _) fun _ => steady_emit i (by decide) _ _)

theorem steady_loadInput (input : StageInput) : Steady A (loadInput i input) :=
  steady_bind steady_get fun _ => steady_bind (steady_typeOf _) fun _ => steady_emit i (by decide) _ _

theorem steady_defineInput (out : PortId) (input : StageInput) :
    Steady A (defineInput i out input) :=
  steady_bind (steady_typeOf _) fun _ => steady_bind steady_get fun _ => steady_define i out (by decide) _ _

theorem steady_sampleAt (out : PortId) (field : FieldVariables) (fragment : Bool) (x : UInt32) :
    Steady A (sampleAt i out field fragment x) := by
  rw [sampleAt]
  refine steady_bind (steady_emit i (by decide) _ _) fun _ => steady_bind (steady_declare (by decide)) fun _ => ?_
  refine steady_bind (steady_emit i (by decide) _ _) fun _ => steady_bind (steady_declare (by decide)) fun _ => ?_
  refine steady_bind (steady_emit i (by decide) _ _) fun _ => steady_bind (steady_typeOf _) fun _ => ?_
  exact steady_ite (steady_define i out (by decide) _ _) (steady_bind (steady_constant _ _) fun _ =>
    steady_define i out (by decide) _ _)

theorem steady_writeSample (hextent : A.reads .extent) (field position out : PortId) :
    Steady A (writeSample p i n field position out) := by
  rw [writeSample]
  refine steady_bind steady_get fun d => ?_
  split
  · exact steady_unsupported n _
  · rename_i v _
    refine steady_bind (steady_demand _) fun port => steady_bind steady_isFragment fun fragment => ?_
    have hrest : ∀ x, Steady A (sampleAt i out v fragment x) := steady_sampleAt i out v fragment
    refine steady_ite (steady_bind (steady_operand p position) hrest) ?_
    refine steady_ite (steady_bind (steady_texelCoordinate i hextent _) hrest) ?_
    exact steady_ite (steady_bind (steady_loadInput i _) hrest)
      (steady_bind (steady_loadInput i _) hrest)

theorem steady_writeField (value : PortId) : Steady A (writeField p i value) := by
  rw [writeField]
  refine steady_bind (steady_operand p value) fun _ => steady_bind (steady_toFloat4 i _ _) fun texel => ?_
  refine steady_bind steady_get fun _ => steady_bind (steady_demand _) fun storage => ?_
  refine steady_bind (steady_emit i (by decide) _ _) fun image => steady_bind steady_get fun _ => ?_
  refine steady_bind (steady_unsignedType 3) fun _ => steady_bind (steady_emit i (by decide) _ _) fun gid => ?_
  have hwrite : ∀ place, Steady A (assemble (Assemble.void .imageWrite [image, place, texel])) :=
    fun _ => steady_assemble (Assemble.tame_code (by decide))
  exact steady_ite (steady_bind (steady_unsignedType 2) fun _ =>
    steady_bind (steady_emit i (by decide) _ _) hwrite) (steady_bind (steady_pure _) hwrite)

theorem steady_store (name : String) (value : UInt32) : Steady A (store name value) :=
  steady_bind steady_get fun _ => steady_assemble (Assemble.tame_code (by decide))

/-- The code of a node is steady, if that of its arms is; only a node of the time reads the time. -/
theorem steady_writeNode {arm : Nat → Drafting Unit} (hextent : A.reads .extent)
    (htime : n.kind = .time → A.reads .time)
    (harm : n.kind = .conditional → ∀ k < 2, Steady A (arm k)) : Steady A (writeNode p arm i n) := by
  rw [writeNode]
  split
  · exact steady_writeArithmetic p i n _ _
  · split
    · split
      · exact steady_defineKnown n _ _ _
      · exact steady_fault
    · exact steady_pure _
    · rename_i hk _
      exact steady_bind (steady_loadGlobal (htime hk)) fun _ => steady_bind (steady_credit i _) fun _ =>
        steady_bindTo n _ _
    · exact steady_bind steady_isFragment fun _ => steady_ite (steady_defineInput i _ _)
        (steady_bind (steady_texelCoordinate i hextent 3) fun _ => steady_bindTo n _ _)
    · exact steady_defineInput i _ _
    · exact steady_defineInput i _ _
    · exact steady_bind (steady_typeOf _) fun _ => steady_bind (steady_operand p _) fun _ =>
        steady_bind steady_get fun _ => steady_define i _ (by decide) _ _
    · refine steady_bind (steady_operand p _) fun _ => steady_bind (steady_operand p _) fun _ =>
        steady_bind (steady_typeOf _) fun _ => steady_define i _ ?_ _ _
      split
      · decide
      · decide
    · exact steady_writeCompare p i n _ _ _
    · rename_i hk _
      exact steady_writeConditional p i n (harm hk) _
    · exact steady_writeSwizzle p i n _ _
    · exact steady_bind (steady_mapM fun q _ => steady_operand p q) fun _ =>
        steady_bind (steady_typeOf _) fun _ => steady_define i _ (by decide) _ _
    · exact steady_writeSeparate p i n _
    · exact steady_writeExpression p i n _
    · exact steady_writeSample p i n hextent _ _ _
    · exact steady_ite (steady_writeField p i _) (steady_pure _)
    · exact steady_bind (steady_operand p _) fun _ => steady_bind (steady_toFloat4 i _ _) fun _ =>
        steady_store _ _
    · refine steady_bind (steady_inputNamed p n _) fun _ => steady_bind (steady_operand p _) fun _ => ?_
      refine steady_bind (steady_toFloat4 i _ _) fun _ => steady_bind (steady_store _ _) fun _ => ?_
      refine steady_bind (steady_inputNamed p n _) fun _ => steady_bind (steady_operand p _) fun _ => ?_
      refine steady_bind (steady_store _ _) fun _ => steady_bind (steady_inputNamed p n _) fun _ => ?_
      exact steady_bind (steady_operand p _) fun _ => steady_store _ _
    · exact steady_unsupported n _
    · exact steady_unsupported n _
    · exact steady_fault

variable {p} in
/-- Writing nodes is steady. -/
theorem steady_writeNodes {S : Nat → Prop} (hS : p.Confined A S) (depth : Nat) {nodes : List Nat}
    (hnodes : ∀ i ∈ nodes, S i) : Steady A (writeNodes p depth nodes) := by
  induction depth generalizing nodes with
  | zero => exact steady_fault
  | succ depth ih =>
    exact steady_forM fun i hi => steady_demand_bind fun n hn =>
      steady_writeNode p i n hS.extent (hS.time i n (hnodes i hi) hn) fun hk k hlt =>
        ih (hS.arms i n (hnodes i hi) hn hk k hlt)

end Drafting

end NodeShader
