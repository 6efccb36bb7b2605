import NodeShader.Proofs.Spirv.Building
import NodeShader.Proofs.Spirv.Framing
import NodeShader.Proofs.Spirv.Semantics

/-!
# Finished modules

A module lists the entries of its builder section by section, each once, so what holds of the entries
holds of its instructions.
-/

namespace NodeShader.Spirv.ModuleBuilder

variable {b : ModuleBuilder} {i : Instruction} {s : Section}

/-- An entry in front stands in its own section only. -/
theorem flatMap_section_cons {l : List (Section × Instruction)} {S : List Section} (hs : s ∈ S)
    (hS : S.Nodup) :
    (S.flatMap fun t => (((s, i) :: l).filter (·.1 == t)).map (·.2)).Perm
      (i :: S.flatMap fun t => (l.filter (·.1 == t)).map (·.2)) := by
  induction S with
  | nil => cases hs
  | cons t S ih =>
    rw [List.nodup_cons] at hS
    rw [List.flatMap_cons, List.flatMap_cons]
    by_cases ht : s = t
    · subst ht
      have hrest : (S.flatMap fun t => (((s, i) :: l).filter (·.1 == t)).map (·.2)) =
          S.flatMap fun t => (l.filter (·.1 == t)).map (·.2) := by
        refine List.flatMap_congr fun t ht => ?_
        have hne : ¬ s = t := fun h => hS.1 (h ▸ ht)
        rw [List.filter_cons_of_neg (by simpa using hne)]
      rw [hrest, List.filter_cons_of_pos (by simp), List.map_cons, List.cons_append]
    · rw [List.filter_cons_of_neg (by simpa using ht)]
      refine ((ih ?_ hS.2).append_left _).trans List.perm_middle
      exact (List.mem_cons.1 hs).resolve_left ht

/-- **A module lists the entries of its builder**, each once. -/
theorem instructions_perm (b : ModuleBuilder) :
    b.instructions.Perm (b.entries.toList.map (·.2)) := by
  have hall : ∀ l : List (Section × Instruction),
      (Section.layout.flatMap fun t => (l.filter (·.1 == t)).map (·.2)).Perm (l.map (·.2)) := by
    intro l
    induction l with
    | nil => exact List.Perm.refl _
    | cons e l ih =>
      obtain ⟨s, i⟩ := e
      refine (flatMap_section_cons (by cases s <;> decide) (by decide)).trans ?_
      exact ih.cons i
  exact hall b.entries.toList

theorem mem_instructions : i ∈ b.instructions ↔ ∃ s, (s, i) ∈ b.entries.toList := by
  rw [b.instructions_perm.mem_iff, List.mem_map]
  constructor
  · rintro ⟨⟨s, _⟩, h, rfl⟩
    exact ⟨s, h⟩
  · rintro ⟨s, h⟩
    exact ⟨(s, i), h, rfl⟩

theorem sectionOf_subset_instructions (b : ModuleBuilder) (s : Section) :
    b.sectionOf s ⊆ b.instructions := fun _ hi => mem_instructions.2 ⟨s, mem_sectionOf.1 hi⟩

/-- The results of a module are those of its builder. -/
theorem results_perm (b : ModuleBuilder) :
    (b.instructions.filterMap (·.result?)).Perm b.results := by
  refine (b.instructions_perm.filterMap _).trans ?_
  rw [List.filterMap_map]
  exact List.Perm.refl _

/-- The instructions of module scope. -/
def globals (b : ModuleBuilder) : List Instruction := Section.layout.dropLast.flatMap b.sectionOf

theorem instructions_eq (b : ModuleBuilder) : b.instructions = b.globals ++ b.code := by
  have hlayout : Section.layout = Section.layout.dropLast ++ [Section.functions] := by decide
  rw [instructions, hlayout, List.flatMap_append, List.flatMap_singleton]
  rfl

theorem mem_globals : i ∈ b.globals ↔ ∃ s, s ≠ .functions ∧ (s, i) ∈ b.entries.toList := by
  rw [globals, List.mem_flatMap]
  constructor
  · rintro ⟨s, hs, hi⟩
    have hall : ∀ s ∈ Section.layout.dropLast, s ≠ .functions := by decide
    exact ⟨s, hall s hs, mem_sectionOf.1 hi⟩
  · rintro ⟨s, hs, hi⟩
    have hall : ∀ s : Section, s ≠ .functions → s ∈ Section.layout.dropLast := by
      intro s hs
      cases s <;> first | exact absurd rfl hs | decide
    exact ⟨s, hall s hs, mem_sectionOf.2 hi⟩

theorem sectionOf_subset_globals (b : ModuleBuilder) (hs : s ≠ .functions) :
    b.sectionOf s ⊆ b.globals := fun _ hi => mem_globals.2 ⟨s, hs, mem_sectionOf.1 hi⟩

/-- A result is the result of an instruction of the module. -/
theorem mem_results {x : UInt32} :
    x ∈ b.results ↔ ∃ i ∈ b.globals ++ b.code, i.result? = some x := by
  rw [← instructions_eq, ← b.results_perm.mem_iff, List.mem_filterMap]

end NodeShader.Spirv.ModuleBuilder

/-!
## Made modules are well framed

A module that is made can be read again: none of its instructions is longer than its first word can
tell, and all identifiers are below the bound.  Names are the longest operands (`Form.short`); the
instructions of functions are short because vectors are (`Runs.short`).
-/

namespace NodeShader.Spirv

/-- A vector has one to four components. -/
def Ty.Sized (t : Ty) : Prop := ∀ c n, t = .vector c n → 0 < n ∧ n ≤ 4

/-- Something of a sized type has a component. -/
theorem Ty.Sized.size_pos {t : Ty} (h : t.Sized) : 0 < t.size := by
  cases t with
  | vector c n => exact UInt32.lt_iff_toNat_lt.1 (h c n rfl).1
  | _ => exact Nat.one_pos

section Globals

variable [NameLimit] {D A : List Instruction} {R : List UInt32} {e : Section} {i : Instruction}
  {x : UInt32} {t : Ty}

/-- The types of a module are sized. -/
theorem TypeAt.sized (hD : ∀ i ∈ D, Form D A R .types i) (h : TypeAt D x t) : t.Sized := by
  cases h with
  | vector hm _ =>
    rintro c n ⟨⟩
    cases hD _ hm with
    | typeVector _ _ hn => exact hn
  | _ => exact fun _ _ h => by cases h

/-- **Instructions outside of functions are short**, if names are. -/
theorem Form.short (hlimit : NameLimit.bytes ≤ 131072) (h : Form D A R e i) :
    i.operands.length ≤ 40000 := by
  have hwords : nameWordLimit ≤ 32771 := by
    rw [nameWordLimit]
    omega
  cases h with
  | importSet =>
    show (nameWords (Text.bytes extendedSet)).length + 1 ≤ 40000
    decide
  | debugName _ hn | memberName _ hn =>
    simp only [List.length_cons]
    omega
  | decorate _ hd => cases hd <;> simp
  | memberDecorate _ hn | typeStruct _ hn | constantComposite _ _ _ hn =>
    simp only [List.length_cons]
    omega
  | _ => simp

end Globals

/-! ### Code -/

/-- Instructions have as many words as results, or more. -/
theorem length_results_le (code : List Instruction) :
    (code.filterMap (·.result?)).length ≤ (code.flatMap Instruction.encode).length := by
  refine (List.length_filterMap_le _ _).trans ?_
  induction code with
  | nil => exact Nat.le_refl _
  | cons i code ih =>
    rw [List.flatMap_cons, List.length_append, List.length_cons, Instruction.encode, List.length_cons]
    omega

/-- The instructions that compute a value have few operands. -/
theorem Signature.arity {op : Opcode} {ls : List UInt32} {ts : List Ty} {ty : Ty}
    (h : Signature op ls ts ty) (hts : ∀ t ∈ ts, t.Sized) (hty : ty.Sized) :
    ls.length + ts.length ≤ 6 := by
  cases h with
  | @construct ts c n _ _ htotal =>
    have hle : ∀ ts : List Ty, (∀ t ∈ ts, t.Sized) → ts.length ≤ total Ty.size ts := by
      intro ts hts
      induction ts with
      | nil => exact Nat.le_refl _
      | cons t ts ih =>
        rw [List.forall_mem_cons] at hts
        have hpos := hts.1.size_pos
        have hrest := ih hts.2
        rw [List.length_cons, total]
        omega
    have hn : n.toNat ≤ 4 := UInt32.le_iff_toNat_le.1 (hty c n rfl).2
    have := hle ts hts
    rw [List.length_nil]
    omega
  | @shuffle ks n m c _ _ hlen =>
    have hm : m.toNat ≤ 4 := UInt32.le_iff_toNat_le.1 (hty c m rfl).2
    rw [hlen]
    simp only [List.length_cons, List.length_nil]
    omega
  | _ => simp

/-- How the operands of an instruction that computes a value are laid out. -/
theorem Signature.layout {op : Opcode} {ls : List UInt32} {ts : List Ty} {ty : Ty}
    (h : Signature op ls ts ty) : op.layout = .values 0 ∨ op.layout = .leading 1 ∨
      op.layout = .leading 2 ∨ op.layout = .sampling ∨ op.layout = .extended := by
  have hall : ∀ op ∈ floatingOps ++ integralOps ++ floatingComparisons ++ integralComparisons,
      op.layout = .values 0 := by decide
  cases h
  case floating hop _ => exact .inl (hall _ (by simp [hop]))
  case integral hop _ => exact .inl (hall _ (by simp [hop]))
  case compareFloating hop => exact .inl (hall _ (by simp [hop]))
  case compareIntegral hop => exact .inl (hall _ (by simp [hop]))
  all_goals decide

/-- What is no value and no literal among the arguments is the instruction set. -/
theorem Instruction.length_operands_le {i : Instruction} (h : i.opcode.layout = .values 0 ∨
    i.opcode.layout = .leading 1 ∨ i.opcode.layout = .leading 2 ∨ i.opcode.layout = .sampling ∨
      i.opcode.layout = .extended) :
    i.operands.length ≤ i.literals.length + i.values.length + 3 := by
  have hargs : i.operands.length ≤ i.args.length + 2 := by
    have hcount : i.resultCount ≤ 2 := by
      rw [resultCount]
      split <;> split <;> omega
    rw [args, List.length_drop]
    omega
  have hparts : i.args.length ≤ i.literals.length + i.values.length + 1 := by
    rw [literals, values]
    rcases h with h | h | h | h | h <;> rw [h] <;>
      simp only [List.length_append, List.length_take, List.length_drop, List.length_nil] <;> omega
  omega

variable {I : Interpretation} {s : Surroundings I} {Γ Γ' : Context I} {i : Instruction} {c : Code}
  {o : List (Output I.Value)} {x : UInt32} {ty : Ty}

/-- A context of sized types. -/
def Context.Sized (Γ : Context I) : Prop := ∀ e ∈ Γ, e.2.1.Sized

section Code

variable (hs : ∀ {x : UInt32} {ty : Ty}, TypeAt s.decls x ty → ty.Sized)
include hs

theorem Known.sized {d : Datum I.Value} (hΓ : Γ.Sized) (h : Known s Γ x ty d) : ty.Sized := by
  rcases h with h | h
  · exact hΓ _ h
  · cases h with
    | scalar hx =>
      cases hx with
      | word _ ht | yes _ ht | no _ ht => exact hs ht
    | null _ ht | composite _ ht => exact hs ht
    | variable_ _ ht => exact hs ht

theorem Step.short (hΓ : Γ.Sized) (h : Step s Γ i Γ' o) : i.operands.length ≤ 9 ∧ Γ'.Sized := by
  have hcons : ∀ {x t : UInt32} {ty : Ty} {d : Datum I.Value}, TypeAt s.decls t ty →
      Context.Sized ((x, ty, d) :: Γ) := fun ht => List.forall_mem_cons.2 ⟨hs ht, hΓ⟩
  cases h with
  | @apply _ ty args _ ht _ ha hsig =>
    refine ⟨?_, hcons ht⟩
    have hts : ∀ t ∈ args.map (·.1), t.Sized := by
      intro t hm
      obtain ⟨a, ha', rfl⟩ := List.mem_map.1 hm
      obtain ⟨x, -, hx⟩ := exists_of_mem_right ha ha'
      exact hx.sized hs hΓ
    have hlen := ha.length_eq
    have harity := hsig.arity hts (hs ht)
    have hle := Instruction.length_operands_le hsig.layout
    rw [List.length_map] at harity
    omega
  | load ht => exact ⟨by simp, hcons ht⟩
  | access ht => exact ⟨by simp, hcons ht⟩
  | store => exact ⟨by simp, hΓ⟩
  | write => exact ⟨by simp, hΓ⟩

/-- **The instructions of code are short.** -/
theorem Runs.short (h : Runs s Γ c Γ' o) (hΓ : Γ.Sized) :
    ∀ i ∈ c.instructions, i.operands.length ≤ 9 := by
  induction h with
  | done => exact fun _ hi => absurd hi List.not_mem_nil
  | plain hstep _ ih =>
    obtain ⟨hi, hΓ₁⟩ := hstep.short hs hΓ
    exact List.forall_mem_cons.2 ⟨hi, ih hΓ₁⟩
  | select _ _ _ ht _ _ _ _ ihy ihn ihr =>
    refine Code.forall_mem_select.2 ⟨?_, ihy hΓ, ihn hΓ, ihr (List.forall_mem_cons.2 ⟨hs ht, hΓ⟩)⟩
    simp [Choice.merging, Choice.branching, Choice.phi, labelOf, goto]

end Code

/-- An instruction of a module that can be read again. -/
theorem Instruction.Framed.of_length {bound : UInt32} (hlen : i.operands.length ≤ 40000)
    (hb : ∀ x, i.result? = some x → x < bound) : i.Framed bound := by
  refine ⟨by rw [length_encode]; omega, ?_⟩
  cases hr : i.opcode.hasResult with
  | false => exact .inl (by rw [result, hr]; rfl)
  | true => exact .inr (hb _ (by rw [result?, hr]; rfl))

end NodeShader.Spirv
