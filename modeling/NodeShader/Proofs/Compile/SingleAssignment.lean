import NodeShader.Proofs.Compile.Typed
import NodeShader.Proofs.Spirv.Literals
import NodeShader.Proofs.Spirv.Ssa

/-!
# Stages are in static single assignment form

The body of a stage is a module with one function, whose blocks are laid out by the arms of
conditionals.  Whatever the graph is, it is in static single assignment form, as long as there are
few enough identifiers to tell them apart.
-/

namespace NodeShader

open Spirv

variable {g : Graph} {p : StagePlan} {d : Draft} {s : Stage}

/-- What an entry point reads: its function and the variables of its interface. -/
theorem reads_entryPoint {model main x : UInt32} {interface : List UInt32}
    (h : x ∈ (⟨.entryPoint, model :: main :: nameWords (Text.bytes "main") ++ interface⟩ :
      Instruction).reads) : x = main ∨ x ∈ interface := by
  have hx : x ∈ [main] ++ (nameWords (Text.bytes "main") ++ interface).drop
    (readName (nameWords (Text.bytes "main") ++ interface)).2 := h
  rw [drop_readName _ main_ne_zero] at hx
  exact List.mem_cons.1 hx

section Held

variable [NameLimit] {I : Interpretation} {void type entry mode : UInt32} {c : Code}
  {Γ : Context I} {o : List (Output I.Value)} {params : List UInt32}

/-- The function of a body is the one its entry point names. -/
theorem Draft.Holds.main_mem (h : d.Holds p I void type entry c Γ o) :
    d.main ∈ d.builder.results := by
  refine ModuleBuilder.mem_results_of_mem (s := .functions)
    (i := ⟨.function, [void, d.main, 0, type]⟩) ?_ rfl
  show _ ∈ d.code
  rw [h.code, functionOf]
  simp

/-- **The body of a stage is in static single assignment form.** -/
theorem Draft.Holds.ssa (h : d.Holds p I void type entry c Γ o)
    (hfew : d.builder.nextId ≤ 4294967296) :
    Ssa (d.declareEntry mode params).builder.globals (d.declareEntry mode params).builder.code
      (d.declareEntry mode params).builder.nextId := by
  have hsub := d.declareEntry_sublist mode params
  have hglobals : ∀ e : Section, e ≠ .functions →
      d.builder.sectionOf e ⊆ (d.declareEntry mode params).builder.globals := fun e he _ hi =>
    ModuleBuilder.sectionOf_subset_globals _ he (ModuleBuilder.sectionOf_subset hsub e hi)
  have hcode : (d.declareEntry mode params).builder.code = functionOf d.main void type entry c :=
    (Draft.declareEntry_code d mode params).trans h.code
  have hperm := h.sound.alloc
  rw [List.append_nil] at hperm
  have hresults := ModuleBuilder.results_perm (d.declareEntry mode params).builder
  rw [Draft.declareEntry_results, ModuleBuilder.instructions_eq] at hresults
  have hdefined : ∀ x ∈ d.builder.results, ∃ j ∈ (d.declareEntry mode params).builder.globals ++
      (d.declareEntry mode params).builder.code, j.result? = some x := by
    intro x hx
    rw [← ModuleBuilder.mem_results, Draft.declareEntry_results]
    exact hx
  have hset : ⟨.extInstImport, d.extended :: nameWords (Text.bytes extendedSet)⟩ ∈
      (d.declareEntry mode params).builder.globals :=
    hglobals .imports (by decide) (ModuleBuilder.mem_sectionOf.2 h.furnished.registered.extended)
  rw [hcode] at hresults hdefined ⊢
  refine Runs.ssa (hglobals .types (by decide)) hset (h.void.global (hglobals .types (by decide)))
    (h.type.global (hglobals .types (by decide))) h.runs ?_ ?_ ?_
  · rw [hresults.nodup_iff, hperm.nodup_iff]
    exact ModuleBuilder.idsBelow_nodup hfew
  · intro i hi x hx
    refine hdefined x ?_
    obtain ⟨e, he, hi⟩ := ModuleBuilder.mem_globals.1 hi
    rw [Draft.declareEntry_entries, List.mem_append] at hi
    rcases hi with hi | hi
    · have hforms := h.sound.forms e i hi he
      rw [List.append_nil] at hforms
      exact hforms.reads_mem (fun j hj y hy => ModuleBuilder.mem_results_of_mem hj hy) x hx
    · simp only [List.mem_cons, List.not_mem_nil, or_false, Prod.mk.injEq] at hi
      rcases hi with ⟨-, rfl⟩ | ⟨-, rfl⟩
      · have hx : x ∈ Instruction.reads _ ++ [] := hx
        rw [List.append_nil] at hx
        rcases reads_entryPoint hx with rfl | hx
        · exact h.main_mem
        · exact h.furnished.registered.interface x hx
      · obtain rfl : x = d.main := List.mem_singleton.1 (show x ∈ [d.main] from hx)
        exact h.main_mem
  · intro i hi x hx
    have hmem : x ∈ d.builder.results := by
      rw [← hresults.mem_iff, List.mem_filterMap]
      exact ⟨i, hi, hx⟩
    exact ModuleBuilder.mem_idsBelow hfew (hperm.mem_iff.1 hmem)

end Held

/-- **Stages are in static single assignment form**, with the bound of their header. -/
theorem Graph.Built.generate_ssa (hg : g.Built) {budget : Int} {types : TypeAssignment}
    {fold : Bool} {root : Nat} (ht : (g.resolveTypes budget).1 = .ok types)
    (hp : g.plan types fold root = .ok p) (hs : p.generate = .ok s) :
    ∃ d, p.draftBody = .ok d ∧ s.bodies.getLast? = some d.body ∧
      d.body.words = [magic, d.builder.version.word, generatorWord, d.builder.nextId.toUInt32, 0] ++
        (d.builder.globals ++ d.builder.code).flatMap Instruction.encode ∧
      (d.builder.nextId ≤ 4294967296 → Ssa d.builder.globals d.builder.code d.builder.nextId) := by
  obtain ⟨hplanned, hlabels, -⟩ := Graph.plan_planned hg.consistent ht hp
  obtain ⟨N, hnames⟩ := g.exists_nameLimit
  have hgraph : p.graph = g := by rw [StagePlan.graph, hlabels]; rfl
  obtain ⟨d', hd', hbody⟩ := StagePlan.draftBody_of_generate hs
  obtain ⟨_, _, mode, params, d, void, type, entry, c, Γ, o, -, -, h, -, -, rfl⟩ :=
    StagePlan.draftBody_spec .trivial hplanned (hgraph ▸ hnames) hd'
  refine ⟨_, hd', hbody, ?_, fun hfew => h.ssa hfew⟩
  rw [← ModuleBuilder.instructions_eq]
  rfl

/-- Code with a choice. -/
theorem Graph.generate_ssa_choice : ∃ (s : Stage) (d : Draft),
    (ChoiceExample.stage false).generate = .ok s ∧ s.bodies.getLast? = some d.body ∧
      d.builder.code.map (·.opcode) = ChoiceExample.opcodes ∧
      Ssa d.builder.globals d.builder.code d.builder.nextId := by
  obtain ⟨s, d, hs, hd, hnext, hcode⟩ := ChoiceExample.drafted
  obtain ⟨d', hd', hbody, -, hssa⟩ :=
    ChoiceExample.built.generate_ssa ChoiceExample.resolved (ChoiceExample.plan_eq false) hs
  obtain rfl := Except.ok.inj (hd.symm.trans hd')
  exact ⟨s, d, hs, hbody, hcode, hssa (by omega)⟩

end NodeShader
