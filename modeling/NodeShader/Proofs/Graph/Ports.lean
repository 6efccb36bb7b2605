import NodeShader.Graph.Build
import NodeShader.Proofs.Lists
import NodeShader.Proofs.Outcome

/-!
# The ports a node declares

The ports of most kinds of nodes are fixed; those of the others hang on the parameters.
`ported_of_portSpecs` tells the cases apart, once for all that is proved about the ports of every
kind, such as that the inputs of a node have distinct names and so have its outputs
(`nodup_names`).
-/

namespace NodeShader

/-- **The ports of a kind of node with the given parameters.** -/
inductive Ported (kind : NodeKind) (params : Params) : List PortSpec → List PortSpec → Prop
  | fixed : Ported kind params kind.inputs kind.outputs
  | constant {values : List Float} {scalar : ValueType} : kind = .constant →
      params = .constant values scalar → (constantType values scalar).isValid = true →
      (constantType values scalar).isTexture = false →
      Ported kind params [] (NodeKind.outPort (.singleton (constantType values scalar)))
  | texture {name : String} {dim : Int} : kind = .texture → params = .texture name dim → 1 ≤ dim →
      dim ≤ 3 → Ported kind params [] (NodeKind.outPort (.singleton (ValueType.texture1D.withSize dim)))
  | combine {count : Int} : kind = .combine → params = .combine count → 2 ≤ count → count ≤ 4 →
      Ported kind params
        ((["x", "y", "z", "w"].take count.toNat).map fun name => ⟨name, .anyNumeric, false, false⟩)
        (NodeKind.outPort combineType)
  | math {source : String} {names : List String} {ports : List PortSpec} :
      kind = .mathExpression → params = .math source names → variablePorts names = .ok ports →
      Ported kind params ports (NodeKind.outPort .anyFloating)
  | field {dim resolution : Int} : kind = .computeField → params = .field dim resolution → 1 ≤ dim →
      dim ≤ 3 → Ported kind params [⟨"value", .anyFloat, true, false⟩]
        [⟨"field", .singleton (ValueType.texture1D.withSize dim), false, false⟩]

variable {kind : NodeKind} {params : Params} {ins outs : List PortSpec}

/-- A kind whose ports do not hang on parameters. -/
theorem fixedSpecs {ins' outs' : List PortSpec} {e : BuildError}
    (h : (if params.isNone then .ok (ins, outs) else .error e) =
      (.ok (ins', outs') : Except BuildError _)) : ins' = ins ∧ outs' = outs := by
  split at h
  · cases h
    exact ⟨rfl, rfl⟩
  · cases h

/-- **The ports that are declared**, case by case. -/
theorem ported_of_portSpecs (h : portSpecs kind params = .ok (ins, outs)) :
    Ported kind params ins outs := by
  cases kind with
  | constant =>
    cases params with
    | constant values scalar =>
      simp only [portSpecs] at h
      split at h
      · cases h
      · split at h
        · cases h
        · rename_i hv
          cases h
          rw [Bool.or_eq_true, not_or, Bool.not_eq_true, Bool.not_eq_false', Bool.not_eq_true] at hv
          exact .constant rfl rfl hv.1 hv.2
    | _ => cases h
  | texture =>
    cases params with
    | texture name dim =>
      simp only [portSpecs] at h
      split at h
      · cases h
      · cases h
        exact .texture rfl rfl (by omega) (by omega)
    | _ => cases h
  | compare =>
    cases params with
    | compare test =>
      cases h
      exact .fixed
    | _ => cases h
  | swizzle =>
    cases params with
    | swizzle selector =>
      simp only [portSpecs] at h
      split at h
      · cases h
      · cases h
        exact .fixed
    | _ => cases h
  | combine =>
    cases params with
    | combine count =>
      simp only [portSpecs] at h
      split at h
      · cases h
      · cases h
        exact .combine rfl rfl (by omega) (by omega)
    | _ => cases h
  | mathExpression =>
    cases params with
    | math source names =>
      obtain ⟨ports, hports, he⟩ := map_eq_ok.1 h
      cases he
      exact .math rfl rfl hports
    | _ => cases h
  | computeField =>
    cases params with
    | field dim resolution =>
      simp only [portSpecs] at h
      split at h
      · cases h
      · split at h
        · cases h
        · cases h
          exact .field rfl rfl (by omega) (by omega)
    | _ => cases h
  | _ =>
    obtain ⟨rfl, rfl⟩ := fixedSpecs h
    exact .fixed

/-! ### Variables of expressions -/

/-- The inputs of an expression: one for each variable, of any floating type. -/
theorem variablePorts_eq_ok {names : List String} {ports : List PortSpec}
    (h : variablePorts names = .ok ports) :
    ports = names.map (fun name => ⟨name, .anyFloating, false, false⟩) ∧ names.Nodup := by
  have hall : List.Forall₂ (fun (v : String × Nat) (s : PortSpec) =>
      v.1 ∉ names.take v.2 ∧ ⟨v.1, .anyFloating, false, false⟩ = s) names.zipIdx ports := by
    refine (mapM_eq_ok.1 h).imp fun v s hs => ?_
    dsimp only at hs
    split at hs
    · cases hs
    · rename_i hv
      cases hs
      exact ⟨fun hm => hv (.inr (List.contains_iff_mem.2 hm)), rfl⟩
  constructor
  · have hports : ports = names.zipIdx.map fun v => ⟨v.1, .anyFloating, false, false⟩ := by
      rw [eq_comm, ← List.forall₂_eq_eq_eq, List.forall₂_map_left_iff]
      exact hall.imp fun _ _ hs => hs.2
    conv_rhs => rw [← List.zipIdx_map_fst (l := names) (i := 0), List.map_map]
    exact hports
  · rw [List.nodup_iff_pairwise_ne, List.pairwise_iff_getElem]
    intro a b ha hb hab he
    have hm : (names[b], b) ∈ names.zipIdx :=
      List.mk_mem_zipIdx_iff_getElem?.2 (List.getElem?_eq_getElem hb)
    obtain ⟨s, -, hs, -⟩ := exists_of_mem_left hall hm
    exact hs (List.mem_take_iff_getElem.2 ⟨a, by omega, he⟩)

/-! ### What holds of the ports of every kind -/

theorem NodeKind.nodup_names (kind : NodeKind) :
    (kind.inputs.map (·.name)).Nodup ∧ (kind.outputs.map (·.name)).Nodup := by
  cases kind with
  | unknown code => exact ⟨List.nodup_nil, List.nodup_nil⟩
  | _ => decide

theorem map_name_map (names : List String) (type : TypeSet) :
    (names.map fun name => (⟨name, type, false, false⟩ : PortSpec)).map (·.name) = names := by
  rw [List.map_map]
  exact List.map_id names

/-- **The inputs of a node have distinct names**, and so have its outputs. -/
theorem nodup_names (h : portSpecs kind params = .ok (ins, outs)) :
    (ins.map (·.name)).Nodup ∧ (outs.map (·.name)).Nodup := by
  have hone : ∀ s : PortSpec, ([s].map (·.name)).Nodup := fun s => by simp
  cases ported_of_portSpecs h with
  | fixed => exact kind.nodup_names
  | constant => exact ⟨List.nodup_nil, hone _⟩
  | texture => exact ⟨List.nodup_nil, hone _⟩
  | combine =>
    refine ⟨?_, hone _⟩
    rw [map_name_map]
    exact (List.take_sublist _ _).nodup (by decide)
  | math _ _ hports =>
    obtain ⟨rfl, hnames⟩ := variablePorts_eq_ok hports
    refine ⟨?_, hone _⟩
    rw [map_name_map]
    exact hnames
  | field => exact ⟨hone _, hone _⟩

end NodeShader
