import NodeShader.Proofs.Stage.Steady

/-!
# What a stage samples

The stages that a stage depends on are noted while its nodes declare what they need, one for each
compute field other than the root, in order (`draftBody_dependencies`).  Every other step of a draft
is steady, so nothing else is noted, and no failure of a draft is one of the backend.
-/

namespace NodeShader

open Spirv

/-! ### Inputs that nodes ask for -/

/-- The kind of the nodes that stand for an input of the fragment body. -/
def StageInput.kind : StageInput → NodeKind
  | position => .position
  | normal => .normal
  | texCoord => .texCoord

/-- **An open sample**: without a position of its own a sample takes an input of the fragment body for
it, the texture coordinates in a flat field and the position in any other. -/
def Graph.SamplesAt (g : Graph) (τ : PortId → ValueType) (i : Nat) (input : StageInput) : Prop :=
  ∃ n field position rest port, g.nodes[i]? = some n ∧ n.kind = .sample ∧
    n.inputs = field :: position :: rest ∧ g.port? position = some port ∧ port.isConnected = false ∧
    input = if ((τ field).size : Int) = 2 then .texCoord else .position

/-- A node asks for an input of the fragment body: it stands for it, or is an open sample. -/
def StagePlan.Asks (p : StagePlan) (i : Nat) (input : StageInput) : Prop :=
  (∃ n, p.graph.nodes[i]? = some n ∧ n.kind = input.kind) ∨ p.graph.SamplesAt p.typeOf i input

/-- All that a node asks for may be declared, and so may the texel of the invocation. -/
structure Allowance.Grants (A : Allowance) (p : StagePlan) (i : Nat) : Prop where
  texel : A.inputs "gid"
  asked : ∀ input, p.Asks i input → A.inputs input.name

theorem Allowance.all_grants (p : StagePlan) (i : Nat) : Allowance.all.Grants p i :=
  ⟨trivial, fun _ _ => trivial⟩

/-! ### Dependencies -/

/-- Whether the node at a position is the compute field of another stage. -/
def StagePlan.isSampled (p : StagePlan) (i : Nat) : Bool :=
  i != p.root && (p.graph.nodes[i]?.map (·.kind)) == some .computeField

namespace Drafting

variable {A : Allowance} {p : StagePlan} {i : Nat} {d d' : Draft} {u : Unit}

/-- Only fields note a stage. -/
theorem steady_declareNode (hA : A.Grants p i) {n : Node} (hn : p.graph.nodes[i]? = some n)
    (hk : n.kind ≠ .computeField) : Steady A (declareNode p i) := by
  refine steady_demand_bind fun m hm => ?_
  obtain rfl : n = m := Option.some.inj (hn.symm.trans hm)
  split
  · split
    · exact steady_sampledField _ _ _ _ _
    · exact steady_fault
  · exact absurd (by assumption) hk
  · rename_i hkind
    exact steady_bind steady_isFragment fun _ =>
      steady_ite (steady_stageInput (hA.asked .position (.inl ⟨n, hn, hkind⟩)))
        (steady_invocationId hA.texel)
  · rename_i hkind
    refine steady_bind steady_isFragment fun _ => steady_ite (steady_unsupported n _) ?_
    rw [if_pos hkind]
    exact steady_stageInput (hA.asked .normal (.inl ⟨n, hn, hkind⟩))
  · rename_i hkind
    refine steady_bind steady_isFragment fun _ => steady_ite (steady_unsupported n _) ?_
    rw [if_neg (by rw [hkind]; decide)]
    exact steady_stageInput (hA.asked .texCoord (.inl ⟨n, hn, hkind⟩))
  · rename_i hkind
    split
    · rename_i field position rest hin
      have hrest : Steady A (do
          let port ← demand (p.graph.port? position)
          if !port.isConnected then implicitCoordinate (p.typeOf field).size) := by
        refine steady_demand_bind fun port hport => ?_
        split
        · rename_i hopen
          exact steady_implicitCoordinate hA.texel (hA.asked _ (.inr
            ⟨n, field, position, rest, port, hn, hkind, hin, hport, by simpa using hopen, rfl⟩))
        · exact steady_pure _
      exact steady_ite (steady_bind (steady_unsupported n _) fun _ => hrest) hrest
    · exact steady_fault
  · exact steady_stageOutput _ _ _
  · exact steady_bind (steady_stageOutput _ _ _) fun _ => steady_bind (steady_stageOutput _ _ _)
      fun _ => steady_stageOutput _ _ _
  · exact steady_pure _

/-- **What a field declares**: its storage, if it is the root, and otherwise what is sampled, and a note
of its stage. -/
theorem declareField_cases {n : Node} (hn : p.graph.nodes[i]? = some n) (hk : n.kind = .computeField)
    (h : Draws (declareNode p i) d u d') :
    (i = p.root ∧ ∃ dim, Draws (storageField i n dim >>= fun _ => invocationId) d u d') ∨
      (i ≠ p.root ∧ ∃ out dim d₁ x, Draws (sampledField i out n.fieldName dim "rgba32f") d x d₁ ∧
        d' = { d₁ with dependencies := d₁.dependencies ++ [i] }) := by
  obtain ⟨m, d₁, h₁, h₂⟩ := draws_bind.1 (show Draws (demand p.graph.nodes[i]? >>= _) d u d' from h)
  obtain ⟨hm, rfl⟩ := draws_demand.1 h₁
  obtain rfl : n = m := Option.some.inj (hn.symm.trans hm)
  rw [hk] at h₂
  dsimp only at h₂
  split at h₂
  · split at h₂
    · rename_i hroot
      exact .inl ⟨hroot, _, h₂⟩
    · rename_i hroot
      obtain ⟨_, d₂, h₃, h₄⟩ := draws_bind.1 h₂
      exact .inr ⟨hroot, _, _, d₂, _, h₃, draws_modify.1 h₄⟩
  · exact absurd h₂ not_draws_throw

/-- **A node notes the stage it stands for**, if it is the field of another stage. -/
theorem declareNode_dependencies (h : Draws (declareNode p i) d u d') :
    d'.dependencies = d.dependencies ++ [i].filter p.isSampled := by
  obtain ⟨n, d₁, h₁, -⟩ := draws_bind.1 (show Draws (demand p.graph.nodes[i]? >>= _) d u d' from h)
  have hn := (draws_demand.1 h₁).1
  by_cases hk : n.kind = .computeField
  · have hsampled : p.isSampled i = (i != p.root) := by
      rw [StagePlan.isSampled, hn, Option.map_some, hk, beq_self_eq_true, Bool.and_true]
    rcases declareField_cases hn hk h with ⟨hroot, dim, h⟩ | ⟨hroot, out, dim, d₂, x, hfield, rfl⟩
    · have hsteady : Steady .all (storageField i n dim >>= fun _ => invocationId) :=
        steady_bind (steady_storageField _ _ _) fun _ => steady_invocationId trivial
      rw [hsteady.dependencies h, List.filter_cons_of_neg, List.filter_nil, List.append_nil]
      rw [hsampled]
      simp [hroot]
    · rw [← (steady_sampledField (A := .all) _ _ _ _ _).dependencies hfield, List.filter_cons_of_pos,
        List.filter_nil]
      rw [hsampled]
      simpa using hroot
  · rw [(steady_declareNode (Allowance.all_grants p i) hn hk).dependencies h, List.filter_cons_of_neg,
      List.filter_nil, List.append_nil]
    rw [StagePlan.isSampled, hn]
    simp [hk]

/-- **What a node declares keeps to an allowance** that grants what it asks for. -/
theorem keeps_declareNode (hA : A.Grants p i) (h : Draws (declareNode p i) d u d') : d.Keeps A d' := by
  obtain ⟨n, d₁, h₁, -⟩ := draws_bind.1 (show Draws (demand p.graph.nodes[i]? >>= _) d u d' from h)
  have hn := (draws_demand.1 h₁).1
  by_cases hk : n.kind = .computeField
  · rcases declareField_cases hn hk h with ⟨-, dim, h⟩ | ⟨-, out, dim, d₂, x, hfield, rfl⟩
    · exact (steady_bind (steady_storageField _ _ _) fun _ => steady_invocationId hA.texel).keeps h
    · exact ((steady_sampledField _ _ _ _ _).keeps hfield).trans (.of_note rfl rfl)
  · exact (steady_declareNode hA hn hk).keeps h

/-- What follows the declarations of a stage. -/
theorem steady_code {S : Nat → Prop} (hS : p.Confined A S) (hshared : ∀ i ∈ p.region.shared, S i)
    (mode : UInt32) (params : List UInt32) : Steady A (do
    beginMain
    writeNodes p (p.region.arms.length + 1) p.region.shared
    endMain
    let main := (← get).main
    assemble (Assemble.executionMode main mode params)) :=
  steady_bind steady_beginMain fun _ => steady_bind (steady_writeNodes hS _ hshared) fun _ =>
    steady_bind steady_endMain fun _ => steady_bind steady_get fun _ =>
      steady_assemble (Assemble.tame_add (by decide))

theorem confined_all (p : StagePlan) : p.Confined .all fun _ => True :=
  ⟨trivial, fun _ _ _ _ _ => trivial, fun _ _ _ _ _ _ _ _ _ => trivial⟩

/-- **The dependencies of a stage** are the fields it samples, in order. -/
theorem declareNodes_dependencies {l : List Nat} (h : Draws (l.forM (declareNode p)) d u d') :
    d'.dependencies = d.dependencies ++ l.filter p.isSampled := by
  induction l generalizing d with
  | nil =>
    rw [(draws_pure.1 h).2]
    exact (List.append_nil _).symm
  | cons i l ih =>
    obtain ⟨_, d₁, h₁, h₂⟩ := draws_bind.1 h
    rw [ih h₂, declareNode_dependencies h₁, List.append_assoc, ← List.filter_append]
    rfl

/-! ### Failures -/

theorem failsEarly_node {α : Type} {n : Node} {f : Node → Drafting α}
    (hn : p.graph.nodes[i]? = some n) (hf : FailsEarly (f n)) :
    FailsEarly (demand p.graph.nodes[i]? >>= f) := by
  rw [hn]
  exact hf

theorem failsEarly_declareNode (p : StagePlan) (i : Nat) : FailsEarly (declareNode p i) := by
  cases hn : p.graph.nodes[i]? with
  | none =>
    rw [declareNode, hn]
    intro d f h
    cases h
    exact Failure.early_of_none rfl
  | some n =>
    by_cases hk : n.kind = .computeField
    · refine failsEarly_node hn ?_
      rw [hk]
      dsimp only
      split
      · split
        · exact (steady_bind (steady_storageField _ _ _) fun _ => steady_invocationId trivial :
            Steady .all _).early
        · exact failsEarly_bind (steady_sampledField (A := .all) _ _ _ _ _).early fun _ _ _ h => by cases h
      · exact (steady_fault (A := .all)).early
    · exact (steady_declareNode (Allowance.all_grants p i) hn hk).early

/-- What a stage declares and writes fails early. -/
theorem failsEarly_stageBody (p : StagePlan) (mode : UInt32) (params : List UInt32) :
    FailsEarly (stageBody p mode params) := by
  have hdeclare : ∀ l : List Nat, FailsEarly (l.forM (declareNode p)) := by
    intro l
    induction l with
    | nil => exact (steady_pure (A := .all) ()).early
    | cons i l ih => exact failsEarly_bind (failsEarly_declareNode p i) fun _ => ih
  exact failsEarly_bind (steady_begin (A := .all)).early fun _ => failsEarly_bind (hdeclare _) fun _ =>
    (steady_code (confined_all p) (fun _ _ => trivial) mode params).early

theorem steady_passed (input : StageInput) : Steady .all (passed input) :=
  steady_bind (steady_valueVariable (fun _ => trivial) _ _) fun _ =>
    steady_bind (steady_valueVariable (fun _ => trivial) _ _) fun _ => steady_pure _

/-- What the vertex body computes. -/
theorem steady_vertex : Steady .all vertex := by
  refine steady_bind steady_begin fun _ => steady_bind (steady_typeOf _) fun _ => ?_
  refine steady_bind (steady_typeOf _) fun _ => steady_bind (steady_typeOf _) fun _ => ?_
  refine steady_bind (steady_passed _) fun _ => steady_bind (steady_passed _) fun _ => ?_
  refine steady_bind (steady_passed _) fun _ => ?_
  refine steady_bind (steady_stageVariable (fun _ => trivial) _ _ _ _) fun _ => ?_
  refine steady_bind steady_beginMain fun _ => steady_bind (steady_constant _ _) fun _ => ?_
  refine steady_bind (steady_constant _ _) fun _ => steady_bind (steady_loadGlobal trivial) fun _ => ?_
  refine steady_bind (steady_loadGlobal trivial) fun _ => steady_bind ?_ fun _ => steady_endMain
  refine steady_assemble ?_
  refine Assemble.tame_bind (Assemble.tame_op (by decide)) fun _ => ?_
  refine Assemble.tame_bind (Assemble.tame_op (by decide)) fun _ => ?_
  refine Assemble.tame_bind (Assemble.tame_op (by decide)) fun _ => ?_
  refine Assemble.tame_bind (Assemble.tame_op (by decide)) fun _ => ?_
  refine Assemble.tame_bind (Assemble.tame_code (by decide)) fun _ => ?_
  refine Assemble.tame_bind (Assemble.tame_op (by decide)) fun _ => ?_
  refine Assemble.tame_bind (Assemble.tame_code (by decide)) fun _ => ?_
  refine Assemble.tame_bind (Assemble.tame_op (by decide)) fun _ => ?_
  refine Assemble.tame_bind (Assemble.tame_op (by decide)) fun _ => ?_
  refine Assemble.tame_bind (Assemble.tame_op (by decide)) fun _ => ?_
  refine Assemble.tame_bind (Assemble.tame_op (by decide)) fun _ => ?_
  refine Assemble.tame_bind (Assemble.tame_code (by decide)) fun _ => ?_
  exact Assemble.tame_bind (Assemble.tame_op (by decide)) fun _ => Assemble.tame_code (by decide)

theorem FailsEarly.run {model : ExecutionModel} {x : Drafting Unit} {f : Failure} (hx : FailsEarly x)
    (h : run model x = .error f) : f.Early := by
  refine hx (Draft.new model) f ?_
  rw [Drafting.run] at h
  cases hr : StateT.run x (Draft.new model) with
  | error e =>
    rw [hr] at h
    rw [Except.error.inj h]
  | ok r =>
    rw [hr] at h
    cases h

end Drafting

/-- A body is drafted by its steps, from nothing. -/
theorem StagePlan.draws_draftBody {p : StagePlan} {d : Draft} : p.draftBody = .ok d ↔
    ∃ root model mode params u, p.rootNode = .ok root ∧ root.execution = .ok (model, mode, params) ∧
      Drafting.Draws (Drafting.stageBody p mode params) (Draft.new model) u d := by
  constructor
  · intro h
    rw [draftBody] at h
    obtain ⟨root, hroot, h⟩ := bind_eq_ok.1 h
    obtain ⟨⟨model, mode, params⟩, he, h⟩ := bind_eq_ok.1 h
    dsimp only at h
    rw [Drafting.run] at h
    obtain ⟨⟨u, d'⟩, hrun, rfl⟩ := map_eq_ok.1 h
    exact ⟨root, model, mode, params, u, hroot, he, hrun⟩
  · rintro ⟨root, model, mode, params, u, hroot, he, hrun⟩
    exact bind_eq_ok.2 ⟨root, hroot, bind_eq_ok.2 ⟨_, he, map_eq_ok.2 ⟨(u, d), hrun, rfl⟩⟩⟩

/-- **The dependencies of a stage** are the fields it samples, in order. -/
theorem StagePlan.draftBody_dependencies {p : StagePlan} {d : Draft} (h : p.draftBody = .ok d) :
    d.dependencies = p.order.filter p.isSampled := by
  obtain ⟨root, model, mode, params, u, -, -, hdraws⟩ := draws_draftBody.1 h
  rw [Drafting.stageBody] at hdraws
  obtain ⟨_, d₁, h₁, hdraws⟩ := Drafting.draws_bind.1 hdraws
  obtain ⟨_, d₂, h₂, hdraws⟩ := Drafting.draws_bind.1 hdraws
  rw [(Drafting.steady_code (Drafting.confined_all p) (fun _ _ => trivial) mode
    params).dependencies hdraws, Drafting.declareNodes_dependencies h₂,
    (Drafting.steady_begin (A := .all)).dependencies h₁]
  rfl

end NodeShader
