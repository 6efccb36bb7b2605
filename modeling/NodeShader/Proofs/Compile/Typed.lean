import NodeShader.Proofs.Compile.Staging
import NodeShader.Proofs.Spirv.WellTyped
import NodeShader.Proofs.Stage.Bodies

/-!
# Stages are well typed

The types of ports carry over to the bodies of stages: each instruction of a body takes operands of
the types it asks for, whatever the graph is.
-/

namespace NodeShader

open Spirv

variable {g : Graph} {p : StagePlan} {d : Draft} {s : Stage}

/-! ### The body of a stage -/

/-- A bound on the names of some nodes. -/
theorem exists_nameBound (l : List Node) : ∃ N, ∀ n ∈ l, (Text.bytes n.fieldName).length < N ∧
    ∀ name dim, n.params = .texture name dim → (Text.bytes name).length < N := by
  induction l with
  | nil => exact ⟨0, fun _ hn => absurd hn List.not_mem_nil⟩
  | cons m l ih =>
    obtain ⟨N, hN⟩ := ih
    obtain ⟨M, hM⟩ : ∃ M, ∀ name dim, m.params = .texture name dim →
        (Text.bytes name).length < M := by
      cases hm : m.params with
      | texture name dim =>
        refine ⟨(Text.bytes name).length + 1, fun name' dim' h => ?_⟩
        cases h
        exact Nat.lt_succ_self _
      | _ => exact ⟨0, fun _ _ h => by cases h⟩
    refine ⟨max N (max M ((Text.bytes m.fieldName).length + 1)), fun n hn => ?_⟩
    rcases List.mem_cons.1 hn with rfl | hn
    · refine ⟨by omega, fun name dim h => ?_⟩
      have := hM name dim h
      omega
    · refine ⟨?_, fun name dim h => ?_⟩
      · have := (hN n hn).1
        omega
      · have := (hN n hn).2 name dim h
        omega

/-- The names of any graph fit some limit. -/
theorem Graph.exists_nameLimit (g : Graph) : ∃ _ : NameLimit, g.NamesFit := by
  obtain ⟨N, hN⟩ := exists_nameBound g.nodes.toList
  refine ⟨⟨max 131072 N, by omega⟩, fun n hn => ⟨?_, fun name dim h => ?_⟩⟩
  · have := (hN n hn).1
    show _ < max 131072 N
    omega
  · have := (hN n hn).2 name dim h
    show _ < max 131072 N
    omega

/-- **The bodies of a stage**: that of its own draft, after the vertex body where the stage renders. -/
theorem StagePlan.bodies_of_generate (h : p.generate = .ok s) : ∃ d, p.draftBody = .ok d ∧
    (s.bodies = [d.body] ∨ ∃ v, vertexBody = .ok v ∧ s.bodies = [v, d.body]) := by
  rw [generate, mapError_eq_ok, draft] at h
  obtain ⟨root, -, h⟩ := bind_eq_ok.1 h
  obtain ⟨d, hd, h⟩ := bind_eq_ok.1 h
  refine ⟨d, hd, ?_⟩
  dsimp only at h
  split at h
  · obtain ⟨bodies, hb, h⟩ := bind_eq_ok.1 h
    obtain ⟨v, hv, rfl⟩ := map_eq_ok.1 hb
    cases h
    exact .inr ⟨v, hv, rfl⟩
  · cases h
    exact .inl rfl

theorem StagePlan.draftBody_of_generate (h : p.generate = .ok s) :
    ∃ d, p.draftBody = .ok d ∧ s.bodies.getLast? = some d.body := by
  obtain ⟨d, hd, hbodies⟩ := bodies_of_generate h
  refine ⟨d, hd, ?_⟩
  rcases hbodies with hb | ⟨v, -, hb⟩
  · rw [hb]
    rfl
  · rw [hb]
    rfl

/-- An interpretation by truth values, for what does not depend on any. -/
def Spirv.Interpretation.trivial : Interpretation where
  Value := Bool
  truth := id
  ofBool := id
  truth_ofBool := fun _ => rfl
  zero := fun _ => false
  scalar := fun _ _ => false
  composite := fun _ _ => false
  apply := fun _ _ _ _ => false
  member := fun _ => false
  input := fun _ => false
  invocation := false
  image := fun _ => false
  sampler := fun _ => false

section Held

variable [NameLimit] {I : Interpretation} {void type entry mode : UInt32} {c : Code}
  {Γ : Context I} {o : List (Output I.Value)} {params : List UInt32}

/-- **The function of a body is well typed.** -/
theorem Draft.Holds.wellTyped (h : d.Holds p I void type entry c Γ o) {m : List Instruction}
    (hdecls : d.decls ⊆ m) (hcode : d.code ⊆ m)
    (hset : ⟨.extInstImport, d.extended :: nameWords (Text.bytes extendedSet)⟩ ∈ m) :
    ∀ i ∈ d.code, WellTyped m i := by
  rw [h.code, functionOf] at hcode ⊢
  rw [List.append_subset, List.append_subset] at hcode
  obtain ⟨hbody, -⟩ := h.runs.wellTyped hdecls hset hcode.1.2 fun _ he => absurd he List.not_mem_nil
  simp only [List.forall_mem_append, List.forall_mem_cons]
  refine ⟨⟨⟨.untyped (show Opcode.function ∈ untypedOps by decide),
    .untyped (show Opcode.label ∈ untypedOps by decide), by simp⟩, hbody⟩,
    .untyped (show Opcode.returnVoid ∈ untypedOps by decide),
    .untyped (show Opcode.functionEnd ∈ untypedOps by decide), by simp⟩

/-- The constants of a body that are made of parts are well typed. -/
theorem Draft.Sound.composite (h : d.Sound []) {m : List Instruction} (hdecls : d.decls ⊆ m)
    {i : Instruction} {e : Section} (hi : (e, i) ∈ d.builder.entries.toList)
    (hf : e ≠ .functions) (hop : i.opcode = .constantComposite) : WellTyped m i := by
  cases h.forms e i hi hf with
  | constantComposite ht hparts hlen =>
    exact .composite (ht.mono hdecls) hlen fun x hx => (hparts x hx).hasType hdecls
  | _ => cases hop

end Held

/-- **Stages are well typed.**  Every instruction of the function of a stage has operands of the types
it asks for, and every constant made of parts has parts of its component type; identifiers have one
type each, as long as there are few enough to tell them apart. -/
theorem Graph.Built.generate_wellTyped (hg : g.Built) {budget : Int} {types : TypeAssignment}
    {fold : Bool} {root : Nat} (ht : (g.resolveTypes budget).1 = .ok types)
    (hp : g.plan types fold root = .ok p) (hs : p.generate = .ok s) :
    ∃ d, p.draftBody = .ok d ∧ s.bodies.getLast? = some d.body ∧
      (∀ i ∈ d.builder.code, WellTyped d.builder.instructions i) ∧
      (∀ i ∈ d.builder.instructions, i.opcode = .constantComposite →
        WellTyped d.builder.instructions i) ∧
      (d.builder.nextId ≤ 4294967296 → ∀ x t u, HasType d.builder.instructions x t →
        HasType d.builder.instructions x u → t = u) := by
  obtain ⟨hplanned, hlabels, -⟩ := Graph.plan_planned hg.consistent ht hp
  obtain ⟨N, hnames⟩ := g.exists_nameLimit
  have hgraph : p.graph = g := by rw [StagePlan.graph, hlabels]; rfl
  obtain ⟨d', hd', hbody⟩ := StagePlan.draftBody_of_generate hs
  obtain ⟨_, _, mode, params, d, void, type, entry, c, Γ, o, -, -, h, -, -, rfl⟩ :=
    StagePlan.draftBody_spec .trivial hplanned (hgraph ▸ hnames) hd'
  have hsub : d.builder.entries.toList.Sublist
      (d.declareEntry mode params).builder.entries.toList := d.declareEntry_sublist mode params
  have hsection : ∀ e, d.builder.sectionOf e ⊆ (d.declareEntry mode params).builder.instructions :=
    fun e _ hi => ModuleBuilder.sectionOf_subset_instructions _ e
      (ModuleBuilder.sectionOf_subset hsub e hi)
  have hcode := h.wellTyped (hsection _) (hsection _)
    (hsection .imports (ModuleBuilder.mem_sectionOf.2 h.furnished.registered.extended))
  refine ⟨_, hd', hbody, ?_, ?_, ?_⟩
  · intro i hi
    rw [← Draft.declareEntry_code d mode params] at hcode
    exact hcode i hi
  · intro i hi hop
    obtain ⟨e, he⟩ := ModuleBuilder.mem_instructions.1 hi
    rw [Draft.declareEntry_entries, List.mem_append] at he
    rcases he with he | he
    · by_cases hf : e = .functions
      · subst hf
        exact hcode i (ModuleBuilder.mem_sectionOf.2 he)
      · exact Draft.Sound.composite h.sound (hsection _) he hf hop
    · simp only [List.mem_cons, List.not_mem_nil, or_false, Prod.mk.injEq] at he
      rcases he with ⟨-, rfl⟩ | ⟨-, rfl⟩ <;> cases hop
  · intro hid x t u htx hux
    refine htx.unique ?_ hux
    have hnodup := ModuleBuilder.idsBelow_nodup hid
    have hperm := h.sound.alloc
    rw [List.append_nil] at hperm
    rw [(ModuleBuilder.results_perm _).nodup_iff, Draft.declareEntry_results, hperm.nodup_iff]
    exact hnodup

/-- Code with a choice. -/
theorem Graph.generate_wellTyped_choice : ∃ (s : Stage) (d : Draft),
    (ChoiceExample.stage false).generate = .ok s ∧ s.bodies.getLast? = some d.body ∧
      d.builder.code.map (·.opcode) = ChoiceExample.opcodes ∧
      (∀ i ∈ d.builder.code, WellTyped d.builder.instructions i) ∧
      ∀ x t u, HasType d.builder.instructions x t → HasType d.builder.instructions x u → t = u := by
  obtain ⟨s, d, hs, hd, hnext, hcode⟩ := ChoiceExample.drafted
  obtain ⟨d', hd', hbody, htyped, -, hunique⟩ :=
    ChoiceExample.built.generate_wellTyped ChoiceExample.resolved (ChoiceExample.plan_eq false) hs
  obtain rfl := Except.ok.inj (hd.symm.trans hd')
  exact ⟨s, d, hs, hbody, hcode, htyped, hunique (by omega)⟩

end NodeShader
