import NodeShader.Proofs.Graph.Meaning
import NodeShader.Proofs.Spirv.Building
import NodeShader.Stage.Draft

/-!
# Steps of a draft

`Draws x d a d'` says that step `x`, taken from draft `d`, gives `a` and leaves draft `d'`; a step
that fails draws nothing.  The rules at the start take a compound step apart into its parts.

Most steps only declare types and constants.  They are *quiet* (`Draft.Quiet`): the code, the
variables and the annotations stay as they are, declarations are only added, and the laws of the module
are kept whatever identifiers are waiting.  Each of the steps below is quiet and gives a type or a
constant with the meaning its name says.
-/

namespace NodeShader

open Spirv

/-- The declarations of a draft. -/
abbrev Draft.decls (d : Draft) : List Instruction := d.builder.decls

/-- The function code of a draft. -/
abbrev Draft.code (d : Draft) : List Instruction := d.builder.code

/-- The laws of the module of a draft. -/
abbrev Draft.Sound [NameLimit] (d : Draft) (pending : List UInt32) : Prop := d.builder.Sound pending

/-- A step that adds declarations, names and annotations, but leaves variables and the code alone. -/
structure Draft.Silent [NameLimit] (d d' : Draft) : Prop where
  fields : d' = { d with builder := d'.builder }
  entries : d.builder.entries.toList.Sublist d'.builder.entries.toList
  placings : d'.builder.placings = d.builder.placings
  code : d'.code = d.code
  sound : ∀ pending, d.Sound pending → d'.Sound pending

/-- **A quiet step**: it may add types and constants, and changes nothing else. -/
structure Draft.Quiet [NameLimit] (d d' : Draft) : Prop extends d.Silent d' where
  marks : d'.builder.marks = d.builder.marks

namespace Draft

variable [NameLimit] {d d₁ d₂ : Draft}

namespace Silent

theorem refl (d : Draft) : d.Silent d := ⟨rfl, List.Sublist.refl _, rfl, rfl, fun _ h => h⟩

theorem trans (h₁ : d.Silent d₁) (h₂ : d₁.Silent d₂) : d.Silent d₂ where
  fields := by rw [h₂.fields, h₁.fields]
  entries := List.Sublist.trans h₁.entries h₂.entries
  placings := h₂.placings.trans h₁.placings
  code := h₂.code.trans h₁.code
  sound := fun P h => h₂.sound P (h₁.sound P h)

theorem decls (h : d.Silent d₁) : d.decls ⊆ d₁.decls := ModuleBuilder.sectionOf_subset h.entries _

theorem results (h : d.Silent d₁) : d.builder.results ⊆ d₁.builder.results :=
  (ModuleBuilder.results_sublist h.entries).subset

end Silent

namespace Quiet

/-- Whatever leaves names, annotations and variables alone leaves variables alone. -/
theorem of_marks (fields : d₁ = { d with builder := d₁.builder })
    (entries : d.builder.entries.toList.Sublist d₁.builder.entries.toList)
    (marks : d₁.builder.marks = d.builder.marks) (code : d₁.code = d.code)
    (sound : ∀ P, d.Sound P → d₁.Sound P) : d.Quiet d₁ :=
  ⟨⟨fields, entries, by rw [ModuleBuilder.placings, marks, ModuleBuilder.placings], code, sound⟩, marks⟩

theorem refl (d : Draft) : d.Quiet d := ⟨.refl d, rfl⟩

theorem trans (h₁ : d.Quiet d₁) (h₂ : d₁.Quiet d₂) : d.Quiet d₂ :=
  ⟨h₁.toSilent.trans h₂.toSilent, h₂.marks.trans h₁.marks⟩

end Quiet

end Draft

/-- A scalar constant with a meaning is one of the module. -/
theorem Spirv.ScalarAt.constant {I : Interpretation} {D : List Instruction} {x : UInt32} {ty : Ty}
    {v : I.Value} (h : ScalarAt I D x ty v) : ScalarConstant D x ty := by
  cases h with
  | word hm ht _ _ => exact ⟨_, ht, .inl ⟨_, hm⟩⟩
  | yes hm ht => exact ⟨_, ht, .inr (.inl hm)⟩
  | no hm ht => exact ⟨_, ht, .inr (.inr hm)⟩

namespace Drafting

/-- Step `x`, taken from `d`, gives `a` and leaves `d'`. -/
def Draws {α : Type} (x : Drafting α) (d : Draft) (a : α) (d' : Draft) : Prop :=
  x.run d = .ok (a, d')

section Rules

variable {α β : Type} {d d' : Draft}

theorem draws_bind {x : Drafting α} {f : α → Drafting β} {b : β} :
    Draws (x >>= f) d b d' ↔ ∃ a d₁, Draws x d a d₁ ∧ Draws (f a) d₁ b d' := by
  simp only [Draws, StateT.run_bind]
  cases h : x.run d with
  | error e => simp [bind, Except.bind]
  | ok r => obtain ⟨a, d₁⟩ := r; simp [bind, Except.bind]

theorem draws_pure {a b : α} : Draws (pure a) d b d' ↔ b = a ∧ d' = d := by
  rw [Draws, StateT.run_pure]
  simp [pure, Except.pure, eq_comm]

theorem draws_get {a : Draft} : Draws get d a d' ↔ a = d ∧ d' = d := by
  simp [Draws, pure, Except.pure, eq_comm]

theorem draws_get_bind {f : Draft → Drafting β} {b : β} :
    Draws (get >>= f) d b d' ↔ Draws (f d) d b d' := by
  rw [draws_bind]
  constructor
  · rintro ⟨a, d₁, hg, h⟩
    obtain ⟨rfl, rfl⟩ := draws_get.1 hg
    exact h
  · intro h
    exact ⟨d, d, draws_get.2 ⟨rfl, rfl⟩, h⟩

theorem draws_modify {f : Draft → Draft} {a : PUnit} : Draws (modify f) d a d' ↔ d' = f d := by
  simp [Draws, pure, Except.pure, eq_comm]

theorem not_draws_throw {e : Failure} {a : α} : ¬ Draws (throw e : Drafting α) d a d' := by
  simp [Draws, throw, throwThe, MonadExceptOf.throw, StateT.lift, StateT.run, bind, Except.bind]

theorem draws_assemble {s : Assemble α} {a : α} :
    Draws (assemble s) d a d' ↔
      a = (s.run d.builder).1 ∧ d' = { d with builder := (s.run d.builder).2 } := by
  show Except.ok ((s.run d.builder).1, { d with builder := (s.run d.builder).2 }) = .ok (a, d') ↔ _
  simp [eq_comm]

theorem assemble_bind (x : Assemble α) (f : α → Assemble β) :
    assemble (x >>= f) = assemble x >>= fun a => assemble (f a) := rfl

theorem assemble_pure (a : α) : assemble (pure a) = pure a := rfl

theorem draws_demand {o : Option α} {a : α} : Draws (demand o) d a d' ↔ o = some a ∧ d' = d := by
  cases o with
  | none => simp [demand, not_draws_throw]
  | some b => rw [demand, draws_pure, Option.some.injEq, eq_comm]

theorem draws_some_bind {a : α} {f : α → Drafting β} {b : β} :
    Draws (demand (some a) >>= f) d b d' ↔ Draws (f a) d b d' := Iff.rfl

theorem not_draws_unsupported {n : Node} {r : String} {a : α} :
    ¬ Draws (unsupported n r : Drafting α) d a d' := not_draws_throw

theorem not_draws_unsupportedAnywhere {r : String} {a : α} :
    ¬ Draws (unsupportedAnywhere r : Drafting α) d a d' := not_draws_throw

end Rules

/-! ### Declarations -/

variable [NameLimit] {d d' : Draft} {P : List UInt32} {x : UInt32}

/-- **Declaring** a type or constant, or finding it declared. -/
theorem declare_spec {op : Opcode} {k : Nat} {operands : List UInt32} (hs : d.Sound P)
    (h : Draws (assemble (Assemble.declare op k operands)) d x d')
    (hk : k = if op.hasType then 1 else 0) (hop : op ≠ .variableDecl)
    (hr : ∀ y, (ModuleBuilder.declaration op operands y).result? = some y)
    (hf : ∀ y, Form d.decls d.builder.annotations d.builder.results .types
      (ModuleBuilder.declaration op operands y)) :
    d.Quiet d' ∧ ModuleBuilder.declaration op operands x ∈ d'.decls := by
  rw [draws_assemble, Assemble.run_declare] at h
  obtain ⟨hx, hd⟩ := h
  cases hl : d.builder.declared.lookup (op, operands) with
  | some id =>
    rw [hl] at hx hd
    subst hx
    have : d' = d := by rw [hd]
    subst this
    exact ⟨.refl _, hs.declared _ _ _ (lookup_mem hl)⟩
  | none =>
    rw [hl] at hx hd
    have hdecl : (⟨op, operands.take k ++ d.builder.nextId.toUInt32 :: operands.drop k⟩ :
        Instruction) = ModuleBuilder.declaration op operands d.builder.nextId.toUInt32 := by
      rw [ModuleBuilder.declaration, hk]
    simp only [hdecl] at hx hd
    subst hx hd
    have hmem : ModuleBuilder.declaration op operands d.builder.nextId.toUInt32 ∈
        (({ d.builder with nextId := d.builder.nextId + 1 } : ModuleBuilder).push .types
          (ModuleBuilder.declaration op operands d.builder.nextId.toUInt32)).decls := by
      rw [ModuleBuilder.decls, ModuleBuilder.sectionOf_push_self]
      simp
    refine ⟨.of_marks rfl ?_ ?_ ?_ ?_, hmem⟩
    · exact ModuleBuilder.push_sublist
        ({ d.builder with nextId := d.builder.nextId + 1 } : ModuleBuilder) _ _
    · refine ModuleBuilder.marks_push_of_not
        ({ d.builder with nextId := d.builder.nextId + 1 } : ModuleBuilder) ?_
      simp [ModuleBuilder.isMark, ModuleBuilder.declaration, hop]
    · exact ModuleBuilder.sectionOf_push_of_ne
        ({ d.builder with nextId := d.builder.nextId + 1 } : ModuleBuilder) _ (by decide)
    · intro Q hQ
      have hp := ModuleBuilder.sound_pushResult (ModuleBuilder.sound_alloc hQ) (s := .types)
        (hr _) (fun _ => (hf d.builder.nextId.toUInt32).mono (List.Subset.refl _)
          (List.Subset.refl _) (List.subset_append_left _ _))
      refine ⟨hp.start, hp.alloc, ?_, hp.forms⟩
      intro op' operands' y hm
      simp only [List.mem_cons, Prod.mk.injEq] at hm
      rcases hm with ⟨⟨rfl, rfl⟩, rfl⟩ | hm
      · exact hmem
      · exact hp.declared op' operands' y hm

theorem typeVoid_spec (hs : d.Sound P) (h : Draws (assemble Assemble.typeVoid) d x d') :
    d.Quiet d' ∧ TypeAt d'.decls x .void := by
  obtain ⟨q, hm⟩ := declare_spec hs h rfl (by decide) (fun _ => rfl) (fun _ => .typeVoid)
  exact ⟨q, .void hm⟩

theorem typeBool_spec (hs : d.Sound P) (h : Draws (assemble Assemble.typeBool) d x d') :
    d.Quiet d' ∧ TypeAt d'.decls x .bool := by
  obtain ⟨q, hm⟩ := declare_spec hs h rfl (by decide) (fun _ => rfl) (fun _ => .typeBool)
  exact ⟨q, .bool hm⟩

theorem typeInt_spec {w : UInt32} {signed : Bool} (hs : d.Sound P)
    (h : Draws (assemble (Assemble.typeInt w signed)) d x d') :
    d.Quiet d' ∧ TypeAt d'.decls x (.int w signed) := by
  obtain ⟨q, hm⟩ := declare_spec hs h rfl (by decide) (fun _ => rfl) (fun _ => .typeInt)
  cases signed
  · exact ⟨q, .int hm⟩
  · exact ⟨q, .int hm⟩

theorem typeFloat_spec {w : UInt32} (hs : d.Sound P)
    (h : Draws (assemble (Assemble.typeFloat w)) d x d') :
    d.Quiet d' ∧ TypeAt d'.decls x (.float w) := by
  obtain ⟨q, hm⟩ := declare_spec hs h rfl (by decide) (fun _ => rfl) (fun _ => .typeFloat)
  exact ⟨q, .float hm⟩

theorem typeSampler_spec (hs : d.Sound P) (h : Draws (assemble Assemble.typeSampler) d x d') :
    d.Quiet d' ∧ TypeAt d'.decls x .sampler := by
  obtain ⟨q, hm⟩ := declare_spec hs h rfl (by decide) (fun _ => rfl) (fun _ => .typeSampler)
  exact ⟨q, .sampler hm⟩

theorem typeVector_spec {c n : UInt32} {t : Ty} (hs : d.Sound P) (hc : TypeAt d.decls c t)
    (ht : t.isScalar) (hn : 0 < n ∧ n ≤ 4)
    (h : Draws (assemble (Assemble.typeVector c n)) d x d') :
    d.Quiet d' ∧ TypeAt d'.decls x (.vector t n) := by
  obtain ⟨q, hm⟩ := declare_spec hs h rfl (by decide) (fun _ => rfl) (fun _ => .typeVector hc ht hn)
  exact ⟨q, .vector hm (hc.mono q.decls)⟩

theorem typeMatrix_spec {c n m : UInt32} {t : Ty} (hs : d.Sound P)
    (hc : TypeAt d.decls c (.vector t m))
    (h : Draws (assemble (Assemble.typeMatrix c n)) d x d') :
    d.Quiet d' ∧ TypeAt d'.decls x (.matrix (.vector t m) n) := by
  obtain ⟨q, hm⟩ := declare_spec hs h rfl (by decide) (fun _ => rfl) (fun _ => .typeMatrix hc)
  exact ⟨q, .matrix hm (hc.mono q.decls)⟩

theorem typeImage_spec {c dim sampled format : UInt32} (hs : d.Sound P)
    (hc : TypeAt d.decls c (.float 32)) (hdim : dim < 3)
    (h : Draws (assemble (Assemble.typeImage c dim sampled format)) d x d') :
    d.Quiet d' ∧ TypeAt d'.decls x (.image (.float 32) dim sampled format) := by
  obtain ⟨q, hm⟩ := declare_spec hs h rfl (by decide) (fun _ => rfl) (fun _ => .typeImage hc hdim)
  exact ⟨q, .image hm (hc.mono q.decls)⟩

theorem typeSampledImage_spec {c : UInt32} {t : Ty} (hs : d.Sound P) (hc : TypeAt d.decls c t)
    (h : Draws (assemble (Assemble.typeSampledImage c)) d x d') :
    d.Quiet d' ∧ TypeAt d'.decls x (.sampledImage t) := by
  obtain ⟨q, hm⟩ :=
    declare_spec hs h rfl (by decide) (fun _ => rfl) (fun _ => .typeSampledImage hc)
  exact ⟨q, .sampledImage hm (hc.mono q.decls)⟩

theorem typePointer_spec {storage c : UInt32} {t : Ty} (hs : d.Sound P) (hc : TypeAt d.decls c t)
    (h : Draws (assemble (Assemble.typePointer storage c)) d x d') :
    d.Quiet d' ∧ TypeAt d'.decls x (.pointer storage t) := by
  obtain ⟨q, hm⟩ := declare_spec hs h rfl (by decide) (fun _ => rfl) (fun _ => .typePointer hc)
  exact ⟨q, .pointer hm (hc.mono q.decls)⟩

theorem typeFunction_spec {c : UInt32} {t : Ty} (hs : d.Sound P) (hc : TypeAt d.decls c t)
    (h : Draws (assemble (Assemble.typeFunction c [])) d x d') :
    d.Quiet d' ∧ TypeAt d'.decls x (.function t) := by
  obtain ⟨q, hm⟩ := declare_spec hs h rfl (by decide) (fun _ => rfl) (fun _ => .typeFunction hc)
  exact ⟨q, .function hm (hc.mono q.decls)⟩

theorem constantWord_spec {c w : UInt32} {t : Ty} (hs : d.Sound P) (hc : TypeAt d.decls c t)
    (ht : t.isScalar) (hb : t ≠ .bool) (h : Draws (assemble (Assemble.constant c [w])) d x d') :
    d.Quiet d' ∧ ⟨.constant, [c, x, w]⟩ ∈ d'.decls :=
  declare_spec hs h rfl (by decide) (fun _ => rfl) (fun _ => .constant hc ht hb)

theorem constantBool_spec {c : UInt32} {v : Bool} {I : Interpretation} (hs : d.Sound P)
    (hc : TypeAt d.decls c .bool)
    (h : Draws (assemble (Assemble.constantBool c v)) d x d') :
    d.Quiet d' ∧ ScalarAt I d'.decls x .bool (I.ofBool v) := by
  cases v with
  | false =>
    obtain ⟨q, hm⟩ :=
      declare_spec hs h rfl (by decide) (fun _ => rfl) (fun _ => .constantFalse hc)
    exact ⟨q, .no hm (hc.mono q.decls)⟩
  | true =>
    obtain ⟨q, hm⟩ := declare_spec hs h rfl (by decide) (fun _ => rfl) (fun _ => .constantTrue hc)
    exact ⟨q, .yes hm (hc.mono q.decls)⟩

theorem constantNull_spec {c : UInt32} {t : Ty} {I : Interpretation} (hs : d.Sound P)
    (hc : TypeAt d.decls c t) (ht : t.component.isScalar)
    (h : Draws (assemble (Assemble.constantNull c)) d x d') :
    d.Quiet d' ∧ GlobalAt I d'.decls x t (.value (I.null t)) := by
  obtain ⟨q, hm⟩ := declare_spec hs h rfl (by decide) (fun _ => rfl) (fun _ => .constantNull hc ht)
  exact ⟨q, .null hm (hc.mono q.decls) ht⟩

omit [NameLimit] in
theorem run_capability (c : UInt32) (b : ModuleBuilder) :
    (Assemble.capability c).run b =
      ((), if (b.sectionOf .capabilities).any (·.operands.head? == some c) then b
        else b.push .capabilities ⟨.capability, [c]⟩) := by
  show StateT.run (if (b.sectionOf .capabilities).any (·.operands.head? == some c) then pure ()
    else Assemble.add .capabilities .capability [c]) b = _
  split
  · rfl
  · rfl

theorem capability_spec {c : UInt32} {u : Unit}
    (h : Draws (assemble (Assemble.capability c)) d u d') : d.Quiet d' := by
  rw [draws_assemble, run_capability] at h
  obtain ⟨-, rfl⟩ := h
  split
  · exact .refl d
  · refine .of_marks rfl (ModuleBuilder.push_sublist d.builder _ _)
      (ModuleBuilder.marks_push_of_not _ rfl)
      (ModuleBuilder.sectionOf_push_of_ne d.builder _ (by decide)) fun Q hQ => ?_
    exact ModuleBuilder.sound_push hQ rfl (fun _ => .capability)

/-- A scalar or a vector of it, as its size says. -/
theorem scaled_spec {n : Nat} {c : UInt32} {t : Ty} (hs : d.Sound P) (hc : TypeAt d.decls c t)
    (ht : t.isScalar) (hn : 1 ≤ n ∧ n ≤ 4)
    (h : Draws (if n = 1 then pure c else assemble (Assemble.typeVector c n.toUInt32)) d x d') :
    d.Quiet d' ∧ TypeAt d'.decls x (if n = 1 then t else .vector t n.toUInt32) := by
  split at h
  · rename_i h1
    rw [draws_pure] at h
    obtain ⟨rfl, rfl⟩ := h
    rw [if_pos h1]
    exact ⟨.refl _, hc⟩
  · rename_i h1
    rw [if_neg h1]
    have hword : 0 < n.toUInt32 ∧ n.toUInt32 ≤ 4 := by
      rw [UInt32.lt_iff_toNat_lt, UInt32.le_iff_toNat_le, ModuleBuilder.toNat_toUInt32 (by omega)]
      exact hn
    exact typeVector_spec hs hc ht hword h

/-- **The type of a value type**, which only numbers, vectors and truth values have. -/
theorem typeOf_spec {t : ValueType} (hs : d.Sound P) (h : Draws (typeOf t) d x d') :
    t.isValue = true ∧ d.Quiet d' ∧ TypeAt d'.decls x t.shape := by
  unfold typeOf at h
  dsimp only at h
  by_cases hf : t.isFloat = true
  · rw [if_pos hf] at h
    have hv : t.isValue = true := by
      simp [ValueType.isValue, ValueType.isNumeric, ValueType.isFloating, hf]
    obtain ⟨c, d₁, hc, h⟩ := draws_bind.1 h
    obtain ⟨q₁, hc⟩ := typeFloat_spec hs hc
    obtain ⟨q₂, hx⟩ := scaled_spec (q₁.sound P hs) hc rfl (ValueType.size_bounds hv) h
    refine ⟨hv, q₁.trans q₂, ?_⟩
    simpa [ValueType.shape, hf] using hx
  rw [if_neg hf] at h
  by_cases hh : t.isHalf = true
  · rw [if_pos hh] at h
    have hv : t.isValue = true := by
      simp [ValueType.isValue, ValueType.isNumeric, ValueType.isFloating, hh]
    obtain ⟨_, d₀, h₀, h⟩ := draws_bind.1 h
    have q₀ := capability_spec h₀
    obtain ⟨c, d₁, hc, h⟩ := draws_bind.1 h
    obtain ⟨q₁, hc⟩ := typeFloat_spec (q₀.sound P hs) hc
    obtain ⟨q₂, hx⟩ :=
      scaled_spec (q₁.sound P (q₀.sound P hs)) hc rfl (ValueType.size_bounds hv) h
    refine ⟨hv, (q₀.trans q₁).trans q₂, ?_⟩
    simpa [ValueType.shape, hf, hh] using hx
  rw [if_neg hh] at h
  by_cases hi : t.isInt = true
  · rw [if_pos hi] at h
    have hv : t.isValue = true := by simp [ValueType.isValue, ValueType.isNumeric, hi]
    obtain ⟨c, d₁, hc, h⟩ := draws_bind.1 h
    obtain ⟨q₁, hc⟩ := typeInt_spec hs hc
    obtain ⟨q₂, hx⟩ := scaled_spec (q₁.sound P hs) hc rfl (ValueType.size_bounds hv) h
    refine ⟨hv, q₁.trans q₂, ?_⟩
    simpa [ValueType.shape, hf, hh, hi] using hx
  rw [if_neg hi] at h
  by_cases hb : t = .bool
  · rw [if_pos hb] at h
    subst hb
    obtain ⟨q, hx⟩ := typeBool_spec hs h
    exact ⟨rfl, q, hx⟩
  · rw [if_neg hb] at h
    exact absurd h not_draws_unsupportedAnywhere

theorem unsignedType_spec {n : Nat} (hs : d.Sound P) (hn : 1 ≤ n ∧ n ≤ 4)
    (h : Draws (unsignedType n) d x d') : d.Quiet d' ∧
      TypeAt d'.decls x (if n = 1 then .int 32 false else .vector (.int 32 false) n.toUInt32) := by
  unfold unsignedType at h
  obtain ⟨c, d₁, hc, h⟩ := draws_bind.1 h
  obtain ⟨q₁, hc⟩ := typeInt_spec hs hc
  obtain ⟨q₂, hx⟩ := scaled_spec (q₁.sound P hs) hc rfl hn h
  exact ⟨q₁.trans q₂, hx⟩

/-! ### Constants -/

/-- A quiet step on each element of a list. -/
theorem mapM_quiet {α β : Type} {f : α → Drafting β} {R : Draft → α → β → Prop} {l : List α}
    {bs : List β} {d₀ : Draft}
    (mono : ∀ d₁ d₂ a b, d₁.Quiet d₂ → R d₁ a b → R d₂ a b)
    (step : ∀ a ∈ l, ∀ d₁ b d₂, d₀.Quiet d₁ → Draws (f a) d₁ b d₂ → d₁.Quiet d₂ ∧ R d₂ a b)
    (hd : d₀.Quiet d) (h : Draws (l.mapM f) d bs d') :
    d.Quiet d' ∧ List.Forall₂ (R d') l bs := by
  induction l generalizing d bs with
  | nil =>
    rw [List.mapM_nil, draws_pure] at h
    obtain ⟨rfl, rfl⟩ := h
    exact ⟨.refl _, .nil⟩
  | cons a l ih =>
    rw [List.mapM_cons] at h
    obtain ⟨b, d₁, hb, h⟩ := draws_bind.1 h
    obtain ⟨cs, d₂, hcs, h⟩ := draws_bind.1 h
    rw [draws_pure] at h
    obtain ⟨rfl, rfl⟩ := h
    obtain ⟨q₁, hR⟩ := step a List.mem_cons_self d b d₁ hd hb
    obtain ⟨q₂, hRs⟩ :=
      ih (fun a' ha' => step a' (List.mem_cons_of_mem a ha')) (hd.trans q₁) hcs
    exact ⟨q₁.trans q₂, .cons (mono _ _ _ _ q₂ hR) hRs⟩

variable {I : Interpretation}

theorem scalarConstant_spec {t : ValueType} {v : Float} (hs : d.Sound P)
    (h : Draws (scalarConstant t v) d x d') :
    d.Quiet d' ∧ ScalarAt I d'.decls x t.shape (I.number t v) := by
  unfold scalarConstant at h
  obtain ⟨c, d₁, hc, h⟩ := draws_bind.1 h
  obtain ⟨-, q₁, hc⟩ := typeOf_spec hs hc
  have hs₁ := q₁.sound P hs
  by_cases hf : t = .float
  · subst hf
    obtain ⟨q₂, hx⟩ := constantWord_spec hs₁ hc rfl (by decide) h
    exact ⟨q₁.trans q₂, .word hx (hc.mono q₂.decls) rfl (by decide)⟩
  rw [if_neg hf] at h
  by_cases hh : t = .half
  · subst hh
    obtain ⟨q₂, hx⟩ := constantWord_spec hs₁ hc rfl (by decide) h
    exact ⟨q₁.trans q₂, .word hx (hc.mono q₂.decls) rfl (by decide)⟩
  rw [if_neg hh] at h
  by_cases hi : t = .int
  · subst hi
    obtain ⟨q₂, hx⟩ := constantWord_spec hs₁ hc rfl (by decide) h
    exact ⟨q₁.trans q₂, .word hx (hc.mono q₂.decls) rfl (by decide)⟩
  rw [if_neg hi] at h
  by_cases hb : t = .bool
  · subst hb
    obtain ⟨q₂, hx⟩ := constantBool_spec hs₁ hc h
    exact ⟨q₁.trans q₂, hx⟩
  · rw [if_neg hb] at h
    exact absurd h not_draws_unsupportedAnywhere

/-- **A constant of a value type.** -/
theorem constant_spec {t : ValueType} {xs : List Float} (hs : d.Sound P)
    (h : Draws (constant t xs) d x d') :
    d.Quiet d' ∧ GlobalAt I d'.decls x t.shape (.value (I.numbers t xs)) := by
  unfold constant at h
  by_cases h1 : t.size = 1
  · rw [if_pos h1] at h
    obtain ⟨q, hx⟩ := scalarConstant_spec hs h
    rw [Interpretation.numbers, if_pos h1]
    exact ⟨q, .scalar hx⟩
  rw [if_neg h1] at h
  obtain ⟨parts, d₁, hparts, h⟩ := draws_bind.1 h
  obtain ⟨c, d₂, hc, h⟩ := draws_bind.1 h
  obtain ⟨q₁, hparts⟩ := mapM_quiet
    (R := fun d₁ k y => ScalarAt I d₁.decls y t.scalar.shape
      (I.number t.scalar (if 1 < xs.length then xs.getD k 0 else xs.getD 0 0)))
    (fun _ _ _ _ q hR => hR.mono q.decls)
    (fun k _ d₁ b d₂ q hb => scalarConstant_spec (q.sound P hs) hb) (.refl d) hparts
  obtain ⟨hv, q₂, hc⟩ := typeOf_spec (q₁.sound P hs) hc
  have hlen : parts.length = t.size := by rw [← hparts.length_eq, List.length_range]
  have hb := ValueType.size_bounds hv
  have hword : t.size.toUInt32.toNat = t.size := ModuleBuilder.toNat_toUInt32 (by omega)
  have h4 : parts.length ≤ 4 := by omega
  rw [ValueType.shape_of_size_ne_one hv h1] at hc
  have hmem : ∀ y ∈ parts, ScalarConstant d₂.decls y t.scalar.shape := by
    intro y hy
    obtain ⟨k, -, hk⟩ := exists_of_mem_right hparts hy
    exact (hk.mono q₂.decls).constant
  obtain ⟨q₃, hx⟩ := declare_spec (q₂.sound P (q₁.sound P hs)) h rfl (by decide)
    (fun _ => rfl) (fun _ => .constantComposite hc hmem (hlen.trans hword.symm) h4)
  refine ⟨(q₁.trans q₂).trans q₃, ?_⟩
  rw [Interpretation.numbers, if_neg h1, ValueType.shape_of_size_ne_one hv h1]
  refine .composite hx (hc.mono q₃.decls) (hlen.trans hword.symm) h4 ?_
  rw [List.forall₂_map_right_iff]
  exact (hparts.imp fun k y hk => hk.mono (q₂.trans q₃).decls).flip

end Drafting

end NodeShader
