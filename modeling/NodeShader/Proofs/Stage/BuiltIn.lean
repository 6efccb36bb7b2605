import NodeShader.Proofs.Stage.Bodies
import NodeShader.Proofs.Steps

/-!
# Built-in variables

A body has one built-in variable at most: the clip position of a vertex body, or the texel of the
invocation of a compute body, which is declared on first use and remembered.

* `lone_opening`: the built-in variable that a stage declares is the one it remembers.
-/

namespace NodeShader

open Spirv

/-- A built-in resource stands for the texel of the invocation. -/
def Draft.Lone (d : Draft) : Prop := ∀ r ∈ d.resources, r.builtIn ≠ "" → d.invocation = some r.variable_

/-- What is done to a draft keeps that so. -/
def Draft.KeepsLone (d d' : Draft) : Prop := d.Lone → d'.Lone

namespace Drafting

variable {α β : Type}

theorem lone_pure (a : α) : Every Draft.KeepsLone (pure a : Drafting α) := every_pure (fun _ h => h) a

theorem lone_bind {x : Drafting α} {f : α → Drafting β} (hx : Every Draft.KeepsLone x)
    (hf : ∀ a, Every Draft.KeepsLone (f a)) : Every Draft.KeepsLone (x >>= f) :=
  every_bind (fun _ _ _ h h' hl => h' (h hl)) hx hf

/-- A change that adds resources that are not built in. -/
theorem lone_modify {f : Draft → Draft} (hi : ∀ d, (f d).invocation = d.invocation)
    (hr : ∀ d, ∀ r ∈ (f d).resources, r ∈ d.resources ∨ r.builtIn = "") :
    Every Draft.KeepsLone (modify f : Drafting PUnit) := by
  intro d u d' h hl r hmem hb
  obtain rfl := gives_modify.1 h
  rw [hi]
  exact hl r ((hr d r hmem).resolve_right hb) hb

theorem lone_assemble (s : Assemble α) : Every Draft.KeepsLone (assemble s) := by
  intro d a d' h hl
  obtain ⟨-, rfl⟩ := draws_assemble.1 h
  exact hl

theorem lone_demand (o : Option α) : Every Draft.KeepsLone (demand o) := by
  intro d a d' h hl
  rw [(draws_demand.1 h).2]
  exact hl

theorem lone_typeOf (t : ValueType) : Every Draft.KeepsLone (typeOf t) := by
  have hscaled : ∀ scalar : UInt32, Every Draft.KeepsLone
      (if t.size = 1 then pure scalar else assemble (Assemble.typeVector scalar t.size.toUInt32)) :=
    fun scalar => every_ite (lone_pure _) (lone_assemble _)
  refine every_ite (lone_bind (lone_assemble _) hscaled) (every_ite ?_ (every_ite ?_ (every_ite ?_ ?_)))
  · exact lone_bind (lone_assemble _) fun _ => lone_bind (lone_assemble _) hscaled
  · exact lone_bind (lone_assemble _) hscaled
  · exact lone_assemble _
  · exact every_throw _

/-- A variable at a location is not built in. -/
theorem lone_valueVariable (kind : ResourceClass) (name : String) (type : ValueType) (n : Nat) :
    Every Draft.KeepsLone (valueVariable kind name type (.location n)) := by
  refine lone_bind (lone_typeOf type) fun id => lone_bind (lone_assemble _) fun v =>
    lone_bind (lone_modify (fun _ => rfl) fun d r hr => ?_) fun _ => lone_pure _
  refine (List.mem_append.1 hr).imp_right fun hr => ?_
  rw [List.mem_singleton.1 hr]

theorem lone_boundVariable (type : UInt32) (node : Nat) {r : Resource} (hb : r.builtIn = "") :
    Every Draft.KeepsLone (boundVariable type node r) := by
  refine every_get_bind fun d₀ => lone_bind (lone_assemble _) fun v =>
    lone_bind (lone_modify (fun _ => rfl) fun d r' hr => ?_) fun _ => lone_pure _
  refine (List.mem_append.1 hr).imp_right fun hr => ?_
  rw [List.mem_singleton.1 hr]
  exact hb

theorem lone_stageInput (input : StageInput) : Every Draft.KeepsLone (stageInput input) :=
  every_get_bind fun _ => every_ite (lone_bind (lone_valueVariable _ _ _ _) fun _ =>
    lone_modify (fun _ => rfl) fun _ _ => .inl) (lone_pure _)

theorem lone_stageOutput (name : String) (type : ValueType) (n : Nat) :
    Every Draft.KeepsLone (stageOutput name type n) :=
  lone_bind (lone_valueVariable _ _ _ _) fun _ => lone_modify (fun _ => rfl) fun _ _ => .inl

/-- **The texel of the invocation** is declared once, and remembered. -/
theorem lone_invocationId : Every Draft.KeepsLone invocationId := by
  intro d u d' h hl
  replace h := gives_get_bind.1 h
  split at h
  · rename_i hnone
    have hplain : ∀ r ∈ d.resources, r.builtIn = "" := fun r hr => by
      by_contra hb
      rw [hl r hr hb] at hnone
      cases hnone
    obtain ⟨t, d₁, h₁, h⟩ := gives_bind.1 h
    obtain ⟨v, d₂, h₂, h⟩ := gives_bind.1 h
    obtain rfl := gives_modify.1 h
    obtain ⟨w, d₃, h₃, h₂⟩ := gives_bind.1 h₂
    obtain ⟨_, d₄, h₄, h₂⟩ := gives_bind.1 h₂
    obtain rfl := gives_modify.1 h₄
    obtain ⟨rfl, rfl⟩ := gives_pure.1 h₂
    obtain ⟨-, rfl⟩ := draws_assemble.1 h₃
    have hres : d₁.resources = d.resources := by
      obtain ⟨_, _, h₁, h₅⟩ := gives_bind.1 h₁
      obtain ⟨-, rfl⟩ := draws_assemble.1 h₁
      obtain ⟨-, rfl⟩ := draws_assemble.1 h₅
      rfl
    intro r hr hb
    rcases List.mem_append.1 hr with hr | hr
    · exact absurd (hplain r (hres ▸ hr)) hb
    · rw [List.mem_singleton.1 hr]
  · exact lone_pure () h hl

theorem lone_sampledField (i : Nat) (out : PortId) (name : String) (dim : Int) (format : String) :
    Every Draft.KeepsLone (sampledField i out name dim format) := by
  refine every_get_bind fun _ => every_ite ?_ (lone_pure _)
  have hrest : Every Draft.KeepsLone (do
      let imageType ← assemble do
        Assemble.typeImage (← Assemble.typeFloat 32) (Dim.ofCount dim) 1 ImageFormat.unknown
      let image ← boundVariable imageType i { name, kind := .sampledImage, dim, format }
      let samplerType ← assemble Assemble.typeSampler
      let sampler ← boundVariable samplerType i { name := name ++ "_sampler", kind := .sampler }
      modify fun d => { d with fields := (out, { image, sampler, imageType, dim }) :: d.fields } :
        Drafting Unit) :=
    lone_bind (lone_assemble _) fun _ => lone_bind (lone_boundVariable _ _ rfl) fun _ =>
      lone_bind (lone_assemble _) fun _ => lone_bind (lone_boundVariable _ _ rfl) fun _ =>
        lone_modify (fun _ => rfl) fun _ _ => .inl
  exact every_ite (lone_bind (lone_assemble _) fun _ => hrest) hrest

theorem lone_storageField (i : Nat) (n : Node) (dim : Int) :
    Every Draft.KeepsLone (storageField i n dim) :=
  lone_bind (lone_assemble _) fun _ => lone_bind (lone_boundVariable _ _ rfl) fun _ =>
    lone_bind (lone_assemble _) fun _ => lone_modify (fun _ => rfl) fun _ _ => .inl

theorem lone_isFragment_bind {f : Bool → Drafting β} (hf : ∀ b, Every Draft.KeepsLone (f b)) :
    Every Draft.KeepsLone (isFragment >>= f) :=
  lone_bind (every_get_bind fun _ => lone_pure _) hf

theorem lone_implicitCoordinate (dim : Int) : Every Draft.KeepsLone (implicitCoordinate dim) :=
  lone_isFragment_bind fun _ => every_ite lone_invocationId
    (every_ite (lone_stageInput _) (lone_stageInput _))

/-- **What a node needs** is declared. -/
theorem lone_declareNode (p : StagePlan) (i : Nat) : Every Draft.KeepsLone (declareNode p i) := by
  refine lone_bind (lone_demand _) fun n => ?_
  cases hk : n.kind with
  | texture =>
    dsimp only
    split
    · exact lone_sampledField _ _ _ _ _
    · exact every_throw _
  | computeField =>
    dsimp only
    split
    · refine every_ite (lone_bind (lone_storageField _ _ _) fun _ => lone_invocationId) ?_
      exact lone_bind (lone_sampledField _ _ _ _ _) fun _ => lone_modify (fun _ => rfl) fun _ _ => .inl
    · exact every_throw _
  | position => exact lone_isFragment_bind fun _ => every_ite (lone_stageInput _) lone_invocationId
  | normal | texCoord =>
    refine lone_isFragment_bind fun _ => every_ite ?_ (every_ite (lone_stageInput _) (lone_stageInput _))
    exact every_throw _
  | sample =>
    dsimp only
    split
    · have hrest : ∀ (position : PortId) (dim : Int), Every Draft.KeepsLone (do
          let port ← demand (p.graph.port? position)
          if !port.isConnected then implicitCoordinate dim : Drafting Unit) := fun position dim =>
        lone_bind (lone_demand _) fun _ => every_ite (lone_implicitCoordinate _) (lone_pure _)
      exact every_ite (lone_bind (every_throw _) fun _ => hrest _ _) (hrest _ _)
    · exact every_throw _
  | previewOutput => exact lone_stageOutput _ _ _
  | materialOutput =>
    exact lone_bind (lone_stageOutput _ _ _) fun _ => lone_bind (lone_stageOutput _ _ _) fun _ =>
      lone_stageOutput _ _ _
  | _ => exact lone_pure _

/-- **The opening of a stage** declares one built-in variable at most. -/
theorem lone_opening (p : StagePlan) : Every Draft.KeepsLone (opening p) := by
  have hbegin : Every Draft.KeepsLone begin := by
    refine lone_bind (lone_assemble _) fun _ => lone_bind (lone_modify (fun _ => rfl) fun _ _ => .inl)
      fun _ => ?_
    refine lone_bind (lone_assemble _) fun _ => lone_bind (lone_assemble _) fun _ =>
      lone_bind (lone_assemble _) fun _ => lone_bind (lone_assemble _) fun _ =>
        lone_bind (lone_assemble _) fun _ => lone_bind (lone_assemble _) fun _ =>
          lone_bind (lone_assemble _) fun _ => lone_modify (fun _ => rfl) fun d r hr => ?_
    refine (List.mem_append.1 hr).imp_right fun hr => ?_
    rw [List.mem_singleton.1 hr]
  have hmain : Every Draft.KeepsLone beginMain :=
    every_get_bind fun _ => lone_bind (lone_assemble _) fun _ => lone_modify (fun _ => rfl) fun _ _ => .inl
  refine lone_bind hbegin fun _ => lone_bind ?_ fun _ => hmain
  exact every_forM (fun _ h => h) (fun _ _ _ h h' hl => h' (h hl)) fun i _ => lone_declareNode p i

end Drafting

end NodeShader
