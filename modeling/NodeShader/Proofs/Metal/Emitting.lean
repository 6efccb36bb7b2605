import NodeShader.Metal.Emit
import NodeShader.Proofs.Metal.Reflecting

/-!
# Instructions are written

What is known while the source is written only grows: `Emission.Le`.  `Emission.Tells` says what has
to be known of an identifier of some type, and `Leads` that a step succeeds wherever the identifiers
of a context are known, after which those of another context are.

* `instruction_spec`: **each instruction that runs is written**, and what it defines is known.
-/

namespace NodeShader.Metal

open Spirv

/-! ### What is known -/

namespace Emission

variable {e e' e'' : Emission} {D W : List Instruction} {x : UInt32} {ty : Ty}

/-- **Nothing is forgotten.** -/
structure Le (e e' : Emission) : Prop where
  exprs : e.exprs <:+ e'.exprs
  valueTypes : e.valueTypes <:+ e'.valueTypes
  pointees : e.pointees <:+ e'.pointees
  sampled : e.sampled <:+ e'.sampled

theorem Le.refl (e : Emission) : e.Le e :=
  ⟨List.suffix_refl _, List.suffix_refl _, List.suffix_refl _, List.suffix_refl _⟩

theorem Le.trans (h : e.Le e') (h' : e'.Le e'') : e.Le e'' :=
  ⟨h.exprs.trans h'.exprs, h.valueTypes.trans h'.valueTypes, h.pointees.trans h'.pointees,
    h.sampled.trans h'.sampled⟩

/-- A key that is found is found in a longer list. -/
theorem isSome_lookup_of_suffix {β : Type} {l l' : List (UInt32 × β)} (h : l <:+ l')
    (hx : (l.lookup x).isSome = true) : (l'.lookup x).isSome = true := by
  obtain ⟨front, rfl⟩ := h
  rw [List.lookup_append]
  cases hf : front.lookup x with
  | some b => rfl
  | none => rwa [Option.none_or]

theorem isSome_lookup_self {β : Type} (x : UInt32) (b : β) (l : List (UInt32 × β)) :
    (((x, b) :: l).lookup x).isSome = true := by
  rw [List.lookup_cons_self]
  rfl

/-- **What is known agrees with the module**: only results of its code have types, only these and
variables point somewhere, and all variables have a text. -/
structure Sound (D W : List Instruction) (e : Emission) : Prop where
  types : ∀ x ty, (x, ty) ∈ e.valueTypes → ∃ i ∈ W, i.result? = some x ∧ i.resultType = ty
  pointees : ∀ x c, (x, c) ∈ e.pointees → (∃ i ∈ W, i.result? = some x) ∨
    ∃ p s, ⟨.variableDecl, [p, x, s]⟩ ∈ D ∧ ∀ ty, TypeAt D p (.pointer s ty) → TypeAt D c ty
  declared : ∀ p x s, ⟨.variableDecl, [p, x, s]⟩ ∈ D →
    (e.exprs.lookup x).isSome = true ∧ (e.pointees.lookup x).isSome = true

/-- The types of values that are locals: neither opaque objects nor places. -/
def isLocal : Ty → Bool
  | .image .. | .sampler | .sampledImage _ | .pointer .. | .function _ => false
  | _ => true

/-- **What is known of an identifier** of code: its text, the type of a local, the parts of a joined
image. -/
structure Tells (D : List Instruction) (e : Emission) (x : UInt32) (ty : Ty) : Prop where
  expr : (∀ c, ty ≠ .sampledImage c) → (e.exprs.lookup x).isSome = true
  type : isLocal ty = true → ∃ c, (x, c) ∈ e.valueTypes ∧ TypeAt D c ty
  pair : (∃ c, ty = .sampledImage c) → (e.sampled.lookup x).isSome = true
  place : ∀ s c, ty = .pointer s c → named c = true

theorem Tells.mono (h : e.Le e') (hx : e.Tells D x ty) : e'.Tells D x ty where
  expr hne := isSome_lookup_of_suffix h.exprs (hx.expr hne)
  type hs := by
    obtain ⟨c, hc, hty⟩ := hx.type hs
    exact ⟨c, h.valueTypes.subset hc, hty⟩
  pair hp := isSome_lookup_of_suffix h.sampled (hx.pair hp)
  place := hx.place

variable {I : Interpretation} {Γ Γ' : Context I}

/-- All identifiers of a context are known. -/
def TellsAll (D : List Instruction) (e : Emission) (Γ : Context I) : Prop :=
  ∀ a ∈ Γ, e.Tells D a.1 a.2.1

theorem TellsAll.mono (h : e.Le e') (hΓ : e.TellsAll D Γ) : e'.TellsAll D Γ :=
  fun a ha => (hΓ a ha).mono h

/-- **Writing part of a block** goes on from what is known and stays in the block. -/
structure Writes (D W : List Instruction) (e e' : Emission) : Prop extends e.Le e' where
  sound : e.Sound D W → e'.Sound D W
  visited : e'.visited = e.visited

theorem Writes.refl (e : Emission) : e.Writes D W e := ⟨Le.refl e, id, rfl⟩

theorem Writes.trans (h : e.Writes D W e') (h' : e'.Writes D W e'') : e.Writes D W e'' :=
  ⟨h.toLe.trans h'.toLe, fun hs => h'.sound (h.sound hs), h'.visited.trans h.visited⟩

/-- What is known stays sound if all that is new is. -/
theorem Sound.grow (h : e.Sound D W) (hle : e.Le e')
    (htypes : ∀ x ty, (x, ty) ∈ e'.valueTypes → (x, ty) ∈ e.valueTypes ∨
      ∃ i ∈ W, i.result? = some x ∧ i.resultType = ty)
    (hpointees : ∀ x c, (x, c) ∈ e'.pointees → (x, c) ∈ e.pointees ∨
      ∃ i ∈ W, i.result? = some x) : e'.Sound D W where
  types x ty hx := (htypes x ty hx).elim (h.types x ty) id
  pointees x c hx := (hpointees x c hx).elim (h.pointees x c) .inl
  declared p x s hx := (h.declared p x s hx).imp
    (isSome_lookup_of_suffix hle.exprs) (isSome_lookup_of_suffix hle.pointees)

end Emission

/-! ### Steps -/

section Leads

variable {I : Interpretation} {D W : List Instruction} {Γ Γ₁ : Context I} {α β : Type}

/-- **A step that succeeds** where the identifiers of a context are known, and after which those of
another are. -/
def Leads (D W : List Instruction) (Γ : Context I) (x : Emit α) (Γ' : Context I) : Prop :=
  ∀ e : Emission, e.Sound D W → e.TellsAll D Γ →
    Yields x e fun _ e' => e.Writes D W e' ∧ e'.TellsAll D Γ'

theorem leads_pure (a : α) : Leads D W Γ (pure a : Emit α) Γ :=
  fun e _ hΓ => yields_pure ⟨.refl e, hΓ⟩

theorem leads_bind {Δ : Context I} {x : Emit α} {f : α → Emit β} (hx : Leads D W Γ x Δ)
    (hf : ∀ a, Leads D W Δ (f a) Γ₁) : Leads D W Γ (x >>= f) Γ₁ := by
  intro e he hΓ
  refine yields_bind ((hx e he hΓ).mono fun a e₁ h₁ => ?_)
  obtain ⟨w₁, hΓ₁⟩ := h₁
  exact (hf a e₁ (w₁.sound he) hΓ₁).mono fun b e₂ h₂ => ⟨w₁.trans h₂.1, h₂.2⟩

theorem leads_lift {x : Result α} {a : α} {f : α → Emit β} (hx : x = .ok a)
    (hf : Leads D W Γ (f a) Γ₁) : Leads D W Γ (liftM x >>= f) Γ₁ :=
  fun e he hΓ => yields_lift hx (hf e he hΓ)

theorem leads_ok {x : Result α} {a : α} (hx : x = .ok a) : Leads D W Γ (liftM x : Emit α) Γ := by
  intro e _ hΓ
  refine ⟨a, e, ?_, .refl e, hΓ⟩
  rw [hx]
  rfl

/-- A step that only adds lines, texts and names. -/
theorem leads_of_writes {x : Emit α} (h : ∀ e : Emission,
    Yields x e fun _ e' => e.Writes D W e') : Leads D W Γ x Γ :=
  fun e _ hΓ => (h e).mono fun _ _ w => ⟨w, hΓ.mono w.toLe⟩

theorem leads_mapM {f : α → Emit β} {l : List α} (h : ∀ a ∈ l, Leads D W Γ (f a) Γ) :
    Leads D W Γ (l.mapM f) Γ := by
  induction l with
  | nil => exact leads_pure _
  | cons a l ih =>
    rw [List.mapM_cons]
    rw [List.forall_mem_cons] at h
    exact leads_bind h.1 fun b => leads_bind (ih h.2) fun bs => leads_pure _

theorem leads_line (s : String) : Leads D W Γ (Emit.line s) Γ :=
  leads_of_writes fun _ => yields_modify
    ⟨⟨List.suffix_refl _, List.suffix_refl _, List.suffix_refl _, List.suffix_refl _⟩,
      fun h => ⟨h.types, h.pointees, h.declared⟩, rfl⟩

theorem leads_naming {step : Naming α} (h : Total step) : Leads D W Γ (Emit.naming step) Γ := by
  refine leads_of_writes fun e => yields_get ?_
  obtain ⟨a, names, hstep, -⟩ := h e.names
  refine yields_lift hstep (yields_bind (yields_modify (yields_pure ?_)))
  exact ⟨⟨List.suffix_refl _, List.suffix_refl _, List.suffix_refl _, List.suffix_refl _⟩,
    fun h => ⟨h.types, h.pointees, h.declared⟩, rfl⟩

end Leads

/-! ### The module that is written -/

/-- **The module that a source is written from**: its declarations are in scope of the tables, it has
the extended instruction set, and no two of its instructions have one result. -/
structure Setting [NameLimit] {I : Interpretation} (t : Tables) (s : Surroundings I)
    (A : List Instruction) (R : List UInt32) (globals W : List Instruction) : Prop
    extends Scope s.decls A R globals where
  hold : t.Hold globals
  imports : s.extended ∈ t.imports
  apart : ((globals ++ W).filterMap (·.result?)).Nodup

section Setting

variable [NameLimit] {I : Interpretation} {t : Tables} {s : Surroundings I} {A : List Instruction}
  {R : List UInt32} {globals W : List Instruction} {Γ Γ' : Context I} {i j : Instruction}
  {x y : UInt32} {ty : Ty} {v : I.Value} {d : Datum I.Value} {e : Emission}

variable (S : Setting t s A R globals W)
include S

namespace Setting

/-- No result of code is one of module scope. -/
theorem not_global (hi : i ∈ globals) (hx : i.result? = some x) (hj : j ∈ W)
    (hx' : j.result? = some x) : False := by
  have h := S.apart
  rw [List.filterMap_append, List.nodup_append] at h
  exact h.2.2 x (List.mem_filterMap.2 ⟨i, hi, hx⟩) x (List.mem_filterMap.2 ⟨j, hj, hx'⟩) rfl

/-- Nothing declared at module scope is the result of code. -/
theorem not_both (hi : i ∈ s.decls) (hx : i.result? = some x) (hj : j ∈ W)
    (hx' : j.result? = some x) : False :=
  S.not_global (S.decls.subset hi) hx hj hx'

/-- A result of code belongs to one instruction. -/
theorem eq_of_result (hi : i ∈ W) (hj : j ∈ W) (hx : i.result? = some x) (hx' : j.result? = some x) :
    i = j := by
  have h := S.apart
  rw [List.filterMap_append, List.nodup_append] at h
  exact NodeShader.Spirv.eq_of_result h.2.1 hi hj hx hx'

/-- The variables of a module point to types that have a name. -/
theorem named_pointee {p k : UInt32} (hx : ⟨.variableDecl, [p, x, k]⟩ ∈ s.decls) {c : Ty}
    (hp : TypeAt s.decls p (.pointer k c)) : named c = true := by
  cases S.forms _ hx with
  | variableDecl hp' hplaced =>
    cases hp.unique S.nodup_decls hp'
    cases hplaced with
    | block | image | sampler => rfl
    | input hs | output hs => exact named_of_component hs

/-- A place has a text, and what it holds a type with a name. -/
theorem place (he : e.Sound s.decls W) (hΓ : e.TellsAll s.decls Γ) {k : UInt32} {c : Ty}
    {b : UInt32} {path : List UInt32} (h : Known s Γ x (.pointer k c) (.place b path)) :
    (e.exprs.lookup x).isSome = true ∧ named c = true := by
  rcases h with h | h
  · have ht := hΓ _ h
    exact ⟨ht.expr fun _ h => (by cases h), ht.place k c rfl⟩
  · cases h with
    | variable_ hm hp => exact ⟨(he.declared _ _ _ hm).1, S.named_pointee hm hp⟩

/-- The block of global values is what its variable points to. -/
theorem pointee (he : e.Sound s.decls W) {b m n block c : UInt32}
    (hb : GlobalAt I s.decls b (.pointer m (.struct block)) (.place n []))
    (hc : e.pointees.lookup b = some c) : c = block := by
  cases hb with
  | variable_ hm hp =>
    rcases he.pointees b c (lookup_mem hc) with ⟨j, hj, hjx⟩ | ⟨p, m', hm', hall⟩
    · exact (S.not_both hm rfl hj hjx).elim
    · cases NodeShader.Spirv.eq_of_result S.nodup_decls hm hm' rfl rfl
      cases hall _ hp with
      | struct => rfl

/-- The word of a constant. -/
theorem constantValue {ct k w : UInt32} (hk : ⟨.constant, [ct, k, w]⟩ ∈ s.decls) : t.constantValue k = .ok w := by
  have hconst := constant_eq S.toScope S.hold hk
    (show declaredConstant? ⟨.constant, [ct, k, w]⟩ = some (k, ⟨.constant, ct, [w]⟩) from rfl)
  rw [Tables.constantValue, hconst]
  rfl

end Setting

omit [NameLimit] S in
theorem isLocal_of_component (h : ty.component.isScalar = true) : Emission.isLocal ty = true := by
  cases ty with
  | image | sampler | sampledImage | pointer | function => cases h
  | _ => rfl

omit [NameLimit] S in
theorem ne_of_named (h : named ty = true) (c : Ty) : ty ≠ .sampledImage c := by
  rintro rfl
  cases h

/-- **Every value has a text**, except a joined image. -/
theorem leads_value (h : Known s Γ x ty (.value v)) (hn : named ty = true) :
    Leads s.decls W Γ (Emit.value t x) Γ := by
  intro e he hΓ
  refine yields_get ?_
  cases hl : e.exprs.lookup x with
  | some expr => exact yields_pure ⟨.refl e, hΓ⟩
  | none =>
    rcases h with h | h
    · have hsome := (hΓ _ h).expr (ne_of_named hn)
      rw [hl] at hsome
      cases hsome
    · obtain ⟨htotal, info, hinfo, -⟩ := total_literal S.toScope S.hold h
      dsimp only
      rw [hinfo]
      exact leads_naming htotal e he hΓ

/-- A place has a text. -/
theorem leads_place {k b : UInt32} {c : Ty} {path : List UInt32}
    (h : Known s Γ x (.pointer k c) (.place b path)) : Leads s.decls W Γ (Emit.value t x) Γ := by
  intro e he hΓ
  refine yields_get ?_
  obtain ⟨expr, hl⟩ := Option.isSome_iff_exists.1 (S.place he hΓ h).1
  rw [hl]
  exact yields_pure ⟨.refl e, hΓ⟩

/-- **The type of a local or a constant is known.** -/
theorem yields_valueType (h : Known s Γ x ty (.value v)) (hs : Emission.isLocal ty = true)
    (he : e.Sound s.decls W) (hΓ : e.TellsAll s.decls Γ) :
    Yields (Emit.valueType t x) e fun c e' => e' = e ∧ TypeAt s.decls c ty := by
  refine yields_get ?_
  cases hl : e.valueTypes.lookup x with
  | some c =>
    refine yields_pure ⟨rfl, ?_⟩
    obtain ⟨i, hi, hx, hc⟩ := he.types x c (lookup_mem hl)
    rcases h with h | h
    · obtain ⟨c', hc', hty⟩ := (hΓ _ h).type hs
      obtain ⟨j, hj, hx', hcj⟩ := he.types x c' hc'
      obtain rfl := S.eq_of_result hi hj hx hx'
      rwa [← hc, hcj]
    · obtain ⟨j, hj, hx'⟩ := h.declared
      exact (S.not_both hj hx' hi hx).elim
  | none =>
    rcases h with h | h
    · obtain ⟨c, hc, -⟩ := (hΓ _ h).type hs
      rw [List.lookup_eq_none_iff] at hl
      exact absurd (hl _ hc) (by simp)
    · obtain ⟨-, info, hinfo, hty⟩ := total_literal S.toScope S.hold h
      dsimp only
      rw [hinfo]
      exact yields_pure ⟨rfl, hty⟩

theorem leads_valueType {β : Type} {f : UInt32 → Emit β} (h : Known s Γ x ty (.value v))
    (hs : Emission.isLocal ty = true)
    (hf : ∀ c, TypeAt s.decls c ty → Leads s.decls W Γ (f c) Γ') :
    Leads s.decls W Γ (Emit.valueType t x >>= f) Γ' := by
  intro e he hΓ
  refine yields_bind ((yields_valueType S h hs he hΓ).mono fun c e' hc => ?_)
  obtain ⟨rfl, hty⟩ := hc
  exact hf c hty _ he hΓ

/-- **A local** is declared for a result. -/
theorem leads_declare (hi : i ∈ W) (hr : i.opcode.hasResult = true)
    (hty : TypeAt s.decls i.resultType ty) (hn : named ty = true) (expr : String) :
    Leads s.decls W Γ (Emit.declare t i expr) ((i.result, ty, d) :: Γ) := by
  refine leads_bind (leads_naming (total_typeName S.toScope S.hold hty hn)) fun type =>
    leads_bind (leads_line _) fun _ => ?_
  intro e he hΓ
  refine yields_bind (yields_modify (yields_modify ?_))
  have hle : e.Le { e with
      exprs := (i.result, s!"_{i.result}") :: e.exprs
      valueTypes := (i.result, i.resultType) :: e.valueTypes } :=
    ⟨List.suffix_cons _ _, List.suffix_cons _ _, List.suffix_refl _, List.suffix_refl _⟩
  refine ⟨⟨hle, fun hs => hs.grow hle ?_ fun _ _ => .inl, rfl⟩, ?_⟩
  · intro x c hx
    rcases List.mem_cons.1 hx with h | hx
    · cases h
      exact .inr ⟨i, hi, by rw [Instruction.result?, if_pos hr], rfl⟩
    · exact .inl hx
  · refine List.forall_mem_cons.2 ⟨⟨fun _ => Emission.isSome_lookup_self _ _ _,
      fun _ => ⟨_, List.mem_cons_self, hty⟩, ?_, ?_⟩, hΓ.mono hle⟩
    · rintro ⟨c, rfl⟩
      cases hn
    · rintro k c rfl
      cases hn

omit [NameLimit] S in
/-- An opaque object, or a place in a variable, stands for an expression. -/
theorem leads_setExpr (hs : Emission.isLocal ty = false) (hne : ∀ c, ty ≠ .sampledImage c)
    (hp : ∀ k c, ty = .pointer k c → named c = true) (expr : String) :
    Leads s.decls W Γ (Emit.setExpr x expr) ((x, ty, d) :: Γ) := by
  intro e he hΓ
  have hle : e.Le { e with exprs := (x, expr) :: e.exprs } :=
    ⟨List.suffix_cons _ _, List.suffix_refl _, List.suffix_refl _, List.suffix_refl _⟩
  refine yields_modify ⟨⟨hle, fun hs => hs.grow hle (fun _ _ => .inl) fun _ _ => .inl, rfl⟩, ?_⟩
  refine List.forall_mem_cons.2
    ⟨⟨fun _ => Emission.isSome_lookup_self _ _ _, fun h => ?_, fun h => ?_, hp⟩, hΓ.mono hle⟩
  · rw [hs] at h
    cases h
  · obtain ⟨c, hc⟩ := h
    exact absurd hc (hne c)

/-! ### Arguments -/

omit [NameLimit] S in
theorem operand_eq {ops : List UInt32} {n : Nat} (h : ops[n]? = some x) : operand ops n = .ok x := by
  rw [operand, h]

/-- The text of an argument. -/
theorem leads_argument {n : Nat} (hx : i.args[n]? = some x) (h : Known s Γ x ty (.value v))
    (hn : named ty = true) : Leads s.decls W Γ (do Emit.value t (← operand i.args n)) Γ :=
  leads_lift (operand_eq hx) (leads_value S h hn)

/-- The texts of values, with commas. -/
theorem leads_values {xs : List UInt32} {ts : List Ty} (hts : ∀ ty ∈ ts, named ty = true)
    (h : List.Forall₂ (fun x ty => ∃ v : I.Value, Known s Γ x ty (.value v)) xs ts) :
    Leads s.decls W Γ (Emit.values t xs) Γ := by
  refine leads_bind (leads_mapM fun x hx => ?_) fun _ => leads_pure _
  obtain ⟨ty, hty, v, hv⟩ := exists_of_mem_left h hx
  exact leads_value S hv (hts ty hty)

/-! ### Instructions that compute a value -/

section Computing

variable {tx ty' c : Ty} {a b : I.Value} {k n : UInt32} (hi : i ∈ W)
  (hr : i.opcode.hasResult = true) (hty : TypeAt s.decls i.resultType ty)
include hi hr hty

/-- **An operator of two operands** is written. -/
theorem leads_binary {op : String} (hop : binaryOperators.lookup i.opcode = some op)
    (hargs : i.args = [x, y]) (hx : Known s Γ x tx (.value a)) (hxn : named tx = true)
    (hy : Known s Γ y ty' (.value b)) (hyn : named ty' = true) (hn : named ty = true) :
    Leads s.decls W Γ (Emit.instruction t i) ((i.result, ty, d) :: Γ) := by
  rw [Emit.instruction, hop]
  refine leads_bind (leads_argument S (by rw [hargs]; rfl) hx hxn) fun _ => ?_
  refine leads_bind (leads_argument S (by rw [hargs]; rfl) hy hyn) fun _ => ?_
  exact leads_declare S hi hr hty hn _

/-- A negation. -/
theorem leads_negate (hop : i.opcode = .fNegate ∨ i.opcode = .sNegate) (hargs : i.args = [x])
    (hx : Known s Γ x ty (.value a)) (hn : named ty = true) :
    Leads s.decls W Γ (Emit.instruction t i) ((i.result, ty, d) :: Γ) := by
  have heq : Emit.instruction t i = (do
      Emit.declare t i ("-" ++ (← (do Emit.value t (← operand i.args 0))))) := by
    rcases hop with hop | hop <;> rw [Emit.instruction, hop] <;> rfl
  rw [heq]
  refine leads_bind (leads_argument S (by rw [hargs]; rfl) hx hn) fun _ => ?_
  exact leads_declare S hi hr hty hn _

/-- A vector made of its parts, or converted from another. -/
theorem leads_construct {ts : List Ty} (hop : i.opcode = .compositeConstruct ∨ i.opcode = .convertUToF)
    (hts : ∀ ty ∈ ts, named ty = true)
    (hargs : List.Forall₂ (fun x ty => ∃ v : I.Value, Known s Γ x ty (.value v)) i.args ts)
    (hn : named ty = true) :
    Leads s.decls W Γ (Emit.instruction t i) ((i.result, ty, d) :: Γ) := by
  have heq : Emit.instruction t i = (do
      let type ← Emit.naming (typeName t i.resultType)
      Emit.declare t i (type ++ "(" ++ (← Emit.values t i.args) ++ ")")) := by
    rcases hop with hop | hop <;> rw [Emit.instruction, hop] <;> rfl
  rw [heq]
  refine leads_bind (leads_naming (total_typeName S.toScope S.hold hty hn)) fun _ => ?_
  exact leads_bind (leads_values S hts hargs) fun _ => leads_declare S hi hr hty hn _

omit [NameLimit] S hi hr hty in
/-- The components of a vector have letters. -/
theorem componentLetter_ok (h : k < n) (hn : n ≤ 4) : ∃ letter, componentLetter k = .ok letter := by
  rw [UInt32.lt_iff_toNat_lt] at h
  rw [UInt32.le_iff_toNat_le] at hn
  have h4 : n.toNat ≤ 4 := hn
  rw [componentLetter]
  match k.toNat, h with
  | 0, _ | 1, _ | 2, _ | 3, _ => exact ⟨_, rfl⟩
  | m + 4, h => omega

/-- A component of a vector. -/
theorem leads_extract (hop : i.opcode = .compositeExtract) (hargs : i.args = [x, k])
    (hx : Known s Γ x (.vector ty n) (.value a)) (hk : k < n) :
    Leads s.decls W Γ (Emit.instruction t i) ((i.result, ty, d) :: Γ) := by
  have heq : Emit.instruction t i = (do
      let expr ← (do Emit.value t (← operand i.args 0))
      let type ← Emit.valueType t (← operand i.args 0)
      Emit.declare t i (← Emit.extract t i.result expr type (i.args.drop 1))) := by
    rw [Emit.instruction, hop]
    rfl
  have hget : i.args[0]? = some x := by rw [hargs]; rfl
  rw [heq]
  refine leads_bind (leads_argument S hget hx rfl) fun expr => ?_
  refine leads_lift (operand_eq hget) (leads_valueType S hx rfl fun c hc => ?_)
  obtain ⟨hs, -, hn4⟩ := S.vector hc
  have hn : named ty = true := by cases ty <;> first | rfl | cases hs
  obtain ⟨info, hinfo, hd⟩ := typeOf_spec S.toScope S.hold hc
  obtain ⟨letter, hletter⟩ := componentLetter_ok hk hn4
  refine leads_bind (Δ := Γ) ?_ fun _ => leads_declare S hi hr hty hn _
  rw [hargs]
  cases hd with
  | vector => exact leads_lift hinfo (leads_lift hletter (leads_pure _))

/-- Some components of a vector. -/
theorem leads_shuffle {ks : List UInt32} (hop : i.opcode = .vectorShuffle)
    (hargs : i.args = x :: y :: ks) (hx : Known s Γ x (.vector c n) (.value a))
    (hks : ∀ k ∈ ks, k < n) (hn4 : n ≤ 4) (hn : named ty = true) :
    Leads s.decls W Γ (Emit.instruction t i) ((i.result, ty, d) :: Γ) := by
  have heq : Emit.instruction t i = (do Emit.declare t i (← Emit.shuffle t i)) := by
    rw [Emit.instruction, hop]
    rfl
  rw [heq]
  refine leads_bind (Δ := Γ) ?_ fun _ => leads_declare S hi hr hty hn _
  rw [Emit.shuffle]
  refine leads_lift (operand_eq (x := x) (by rw [hargs]; rfl)) ?_
  refine leads_lift (operand_eq (x := y) (by rw [hargs]; rfl)) ?_
  refine leads_valueType S hx rfl fun tid htid => ?_
  obtain ⟨info, hinfo, hd⟩ := typeOf_spec S.toScope S.hold htid
  refine leads_lift hinfo ?_
  cases hd with
  | vector =>
    have hdrop : i.args.drop 2 = ks := by rw [hargs]; rfl
    have hall : ks.all (· < n) = true := List.all_eq_true.2 fun k hk => decide_eq_true (hks k hk)
    dsimp only [TypeInfo.count]
    rw [hdrop, if_pos (.inr hall)]
    refine leads_bind (leads_mapM fun k hk => ?_) fun letters =>
      leads_bind (leads_value S hx rfl) fun _ => leads_pure _
    have hkn := hks k hk
    rw [UInt32.lt_iff_toNat_lt] at hkn
    rw [if_neg fun h => by rw [h] at hkn; exact absurd hkn (Nat.not_lt_zero _)]
    have hmod : k % n < n := by
      rw [UInt32.lt_iff_toNat_lt, UInt32.toNat_mod]
      exact Nat.mod_lt _ (by omega)
    obtain ⟨letter, hletter⟩ := componentLetter_ok hmod hn4
    exact leads_ok hletter

/-- A scalar product. -/
theorem leads_dot (hop : i.opcode = .dot) (hargs : i.args = [x, y])
    (hx : Known s Γ x tx (.value a)) (hy : Known s Γ y tx (.value b)) (hxn : named tx = true)
    (hn : named ty = true) :
    Leads s.decls W Γ (Emit.instruction t i) ((i.result, ty, d) :: Γ) := by
  have heq : Emit.instruction t i = (do
      Emit.declare t i ("dot(" ++ (← (do Emit.value t (← operand i.args 0))) ++ ", " ++
        (← (do Emit.value t (← operand i.args 1))) ++ ")")) := by
    rw [Emit.instruction, hop]
    rfl
  rw [heq]
  refine leads_bind (leads_argument S (by rw [hargs]; rfl) hx hxn) fun _ => ?_
  refine leads_bind (leads_argument S (by rw [hargs]; rfl) hy hxn) fun _ => ?_
  exact leads_declare S hi hr hty hn _

/-- A function of the extended instruction set. -/
theorem leads_extended {ks : List UInt32} {ts : List Ty} (hop : i.opcode = .extInst)
    (hargs : i.args = s.extended :: k :: ks) (hk : (extendedFunctions.lookup k).isSome = true)
    (hts : ∀ ty ∈ ts, ty.component.isScalar = true) (hne : ts ≠ [])
    (hks : List.Forall₂ (fun x ty => ∃ v : I.Value, Known s Γ x ty (.value v)) ks ts)
    (hn : named ty = true) :
    Leads s.decls W Γ (Emit.instruction t i) ((i.result, ty, d) :: Γ) := by
  have heq : Emit.instruction t i = Emit.extended t i := by
    rw [Emit.instruction, hop]
    rfl
  obtain ⟨fn, hfn⟩ := Option.isSome_iff_exists.1 hk
  have himport : t.imports.contains s.extended = true := List.contains_iff_mem.2 S.imports
  have hdrop : i.args.drop 2 = ks := by rw [hargs]; rfl
  rw [heq, Emit.extended]
  refine leads_lift (operand_eq (x := s.extended) (by rw [hargs]; rfl)) ?_
  rw [himport]
  refine leads_lift (operand_eq (x := k) (by rw [hargs]; rfl)) ?_
  rw [hfn, hdrop]
  have hcall : ∀ fn : String, Leads s.decls W Γ (do
      Emit.declare t i (fn ++ "(" ++ (← Emit.values t ks) ++ ")")) ((i.result, ty, d) :: Γ) :=
    fun fn => leads_bind (leads_values S (fun ty h => named_of_component (hts ty h)) hks) fun _ =>
      leads_declare S hi hr hty hn _
  dsimp only
  cases hscalar : scalarFunctions.lookup k with
  | none => exact leads_bind (leads_pure _) hcall
  | some scalar =>
    -- on a scalar another function does the same
    cases hks with
    | nil => exact absurd rfl hne
    | @cons x _ ty _ hx =>
      obtain ⟨v, hv⟩ := hx
      refine leads_lift (operand_eq (x := x) (by rw [hargs]; rfl)) ?_
      refine leads_valueType S hv (isLocal_of_component (hts _ List.mem_cons_self)) fun c hc => ?_
      obtain ⟨info, hinfo, -⟩ := typeOf_spec S.toScope S.hold hc
      exact leads_lift hinfo (leads_bind (leads_pure _) hcall)

/-- A sample of an image, with a level of detail or without. -/
theorem leads_sample {lod : List UInt32} {pos : Ty} (hop : i.opcode = .imageSampleImplicitLod ∧
      lod = [] ∨ i.opcode = .imageSampleExplicitLod ∧ ∃ z v, lod = [imageOperandsLod, z] ∧
        Known s Γ z (.float 32) (.value v))
    (hargs : i.args = x :: y :: lod) (hx : (x, .sampledImage c, .value a) ∈ Γ)
    (hy : Known s Γ y pos (.value b)) (hpos : named pos = true) (hn : named ty = true) :
    Leads s.decls W Γ (Emit.instruction t i) ((i.result, ty, d) :: Γ) := by
  have heq : Emit.instruction t i = Emit.sample t i := by
    rcases hop with ⟨hop, -⟩ | ⟨hop, -⟩ <;> rw [Emit.instruction, hop] <;> rfl
  rw [heq, Emit.sample]
  intro e he hΓ
  obtain ⟨⟨image, sampler⟩, hpair⟩ := Option.isSome_iff_exists.1 ((hΓ _ hx).pair ⟨c, rfl⟩)
  refine yields_get (yields_lift (operand_eq (x := x) (by rw [hargs]; rfl)) ?_)
  rw [hpair]
  refine leads_lift (operand_eq (x := y) (by rw [hargs]; rfl)) (leads_bind
    (leads_value S hy hpos) fun position => ?_) e he hΓ
  have htail : ∀ level : String, Leads s.decls W Γ (Emit.declare t i
      (s!"{image}.sample({sampler}, {position}" ++ level ++ ")")) ((i.result, ty, d) :: Γ) :=
    fun level => leads_declare S hi hr hty hn _
  rcases hop with ⟨hop, rfl⟩ | ⟨hop, z, v, rfl, hz⟩
  · rw [if_neg (by rw [hop]; decide)]
    exact leads_bind (leads_pure _) htail
  · rw [if_pos hop, hargs]
    dsimp only
    rw [if_neg (by decide)]
    exact leads_bind (leads_value S hz rfl) fun _ => leads_bind (leads_pure _) htail

end Computing

/-- An image and a sampler are joined. -/
theorem leads_join {c : Ty} {k f : UInt32} {a b : I.Value} (hop : i.opcode = .sampledImage)
    (hargs : i.args = [x, y]) (hx : Known s Γ x (.image c k 1 f) (.value a))
    (hy : Known s Γ y .sampler (.value b)) : Leads s.decls W Γ (Emit.instruction t i)
      ((i.result, .sampledImage (.image c k 1 f), d) :: Γ) := by
  have heq : Emit.instruction t i = (do
      let image ← (do Emit.value t (← operand i.args 0))
      let sampler ← (do Emit.value t (← operand i.args 1))
      modify fun e => { e with sampled := (i.result, image, sampler) :: e.sampled }) := by
    rw [Emit.instruction, hop]
    rfl
  rw [heq]
  refine leads_bind (leads_argument S (by rw [hargs]; rfl) hx rfl) fun image => ?_
  refine leads_bind (leads_argument S (by rw [hargs]; rfl) hy rfl) fun sampler => ?_
  intro e he hΓ
  have hle : e.Le { e with sampled := (i.result, image, sampler) :: e.sampled } :=
    ⟨List.suffix_refl _, List.suffix_refl _, List.suffix_refl _, List.suffix_cons _ _⟩
  refine yields_modify ⟨⟨hle, fun hs => hs.grow hle (fun _ _ => .inl) fun _ _ => .inl, rfl⟩, ?_⟩
  refine List.forall_mem_cons.2 ⟨⟨fun hne => absurd rfl (hne _), fun h => (by cases h),
    fun _ => Emission.isSome_lookup_self _ _ _, fun _ _ h => (by cases h)⟩, hΓ.mono hle⟩

/-! ### Taking instructions apart -/

omit [NameLimit] S in
theorem args_of_values (h : i.opcode.layout = .values 0) : i.args = i.values := by
  rw [Instruction.values, h]
  rfl

omit [NameLimit] S in
theorem args_of_leading {n : Nat} (h : i.opcode.layout = .leading n) :
    i.args = i.values ++ i.literals := by
  rw [Instruction.values, Instruction.literals, h]
  exact (List.take_append_drop n i.args).symm

omit [NameLimit] S in
theorem args_of_extended {k : UInt32} (h : i.opcode.layout = .extended) (hx : i.arg? 0 = some x)
    (hk : i.literals = [k]) : i.args = x :: k :: i.values := by
  rw [Instruction.arg?] at hx
  rw [Instruction.literals, h] at hk
  rw [Instruction.values, h]
  generalize i.args = l at *
  match l, hx, hk with
  | _ :: _ :: _, hx, hk =>
    cases hx
    cases hk
    rfl

omit [NameLimit] S in
theorem args_of_sampling {lod : List UInt32} (h : i.opcode.layout = .sampling)
    (hv : i.values = x :: y :: lod) : i.args = x :: y :: (i.literals ++ lod) := by
  rw [Instruction.values, h] at hv
  rw [Instruction.literals, h]
  generalize i.args = l at *
  match l, hv with
  | [_, _], hv =>
    cases hv
    rfl
  | _ :: _ :: _ :: _, hv =>
    cases hv
    rfl

omit [NameLimit] S in
theorem scalar_of_isFloating (h : ty.isFloating) : ty.component.isScalar = true := by
  cases ty with
  | float => rfl
  | vector c n =>
    cases c with
    | float => rfl
    | _ => cases h
  | _ => cases h

omit [NameLimit] S in
theorem scalar_of_isSigned (h : ty.isSigned) : ty.component.isScalar = true := by
  cases ty with
  | int => rfl
  | vector c n =>
    cases c with
    | int => rfl
    | _ => cases h
  | _ => cases h

omit [NameLimit] S in
theorem scalar_component (h : ty.component.isScalar = true) : ty.component.component.isScalar = true := by
  cases ty with
  | vector c n =>
    cases c with
    | bool | int | float => rfl
    | _ => cases h
  | bool | int | float => rfl
  | _ => cases h

omit [NameLimit] S in
theorem named_coordinate (k : UInt32) : named (.coordinate k) = true := by
  unfold Ty.coordinate
  split <;> rfl

omit [NameLimit] S in
/-- No joined image is declared at module scope. -/
theorem mem_of_known {c : Ty} (h : Known s Γ x (.sampledImage c) d) : (x, .sampledImage c, d) ∈ Γ := by
  rcases h with h | h
  · exact h
  · cases h with
    | scalar h =>
      cases h with
      | word _ _ hs => cases hs
    | null _ _ hs => cases hs

/-- **An instruction that computes a value is written.** -/
theorem leads_apply {ts : List Ty} {ls : List UInt32} (hi : i ∈ W)
    (hty : TypeAt s.decls i.resultType ty) (hext : i.opcode = .extInst → i.arg? 0 = some s.extended)
    (hvs : List.Forall₂ (fun x ty => ∃ v : I.Value, Known s Γ x ty (.value v)) i.values ts)
    (hls : i.literals = ls) (hsig : Signature i.opcode ls ts ty) :
    Leads s.decls W Γ (Emit.instruction t i) ((i.result, ty, d) :: Γ) := by
  have hr := hsig.typed.2
  have hbinary : ∀ op ∈ floatingOps ++ integralOps ++ floatingComparisons ++ integralComparisons,
      (binaryOperators.lookup op).isSome = true ∧ op.layout = .values 0 := by decide
  have hfunctions : ∀ k ∈ floatingFunctions ++ floatingFunctions2 ++ integralFunctions2,
      (extendedFunctions.lookup k).isSome = true :=
    List.all_eq_true.1 (by decide)
  -- an operator of two operands
  have htwo : ∀ {tx ty' : Ty}, (binaryOperators.lookup i.opcode).isSome = true ∧
      i.opcode.layout = .values 0 → ts = [tx, ty'] → named tx = true → named ty' = true →
      named ty = true → Leads s.decls W Γ (Emit.instruction t i) ((i.result, ty, d) :: Γ) := by
    rintro tx ty' ⟨hop, hlayout⟩ rfl htx hty' hn
    obtain ⟨op, hop⟩ := Option.isSome_iff_exists.1 hop
    have hargs := args_of_values hlayout
    generalize i.values = vs at hvs hargs
    obtain _ | ⟨⟨a, hx⟩, _ | ⟨⟨b, hy⟩, _ | _⟩⟩ := hvs
    exact leads_binary S hi hr hty hop hargs hx htx hy hty' hn
  -- a function of operands with components
  have hfunction : ∀ {k : UInt32}, i.opcode = .extInst → ls = [k] →
      (extendedFunctions.lookup k).isSome = true → (∀ ty ∈ ts, ty.component.isScalar = true) →
      ts ≠ [] → named ty = true →
      Leads s.decls W Γ (Emit.instruction t i) ((i.result, ty, d) :: Γ) := by
    rintro k hop rfl hk hts hne hn
    exact leads_extended S hi hr hty hop (args_of_extended (by rw [hop]; rfl) (hext hop) hls) hk hts
      hne hvs hn
  generalize hop : i.opcode = op at hsig
  cases hsig with
  | floating h hf =>
    have hn := named_of_component (scalar_of_isFloating hf)
    exact htwo (by rw [hop]; exact hbinary _ (by simp [h])) rfl hn hn hn
  | integral h hf =>
    have hn := named_of_component (scalar_of_isSigned hf)
    exact htwo (by rw [hop]; exact hbinary _ (by simp [h])) rfl hn hn hn
  | compareFloating h | compareIntegral h =>
    exact htwo (by rw [hop]; exact hbinary _ (by simp [h])) rfl rfl rfl rfl
  | transform => exact htwo (by rw [hop]; exact ⟨rfl, rfl⟩) rfl rfl rfl rfl
  | fNegate hf =>
    have hargs := args_of_values (i := i) (by rw [hop]; rfl)
    generalize i.values = vs at hvs hargs
    obtain _ | ⟨⟨a, hx⟩, _ | _⟩ := hvs
    exact leads_negate S hi hr hty (.inl hop) hargs hx (named_of_component (scalar_of_isFloating hf))
  | sNegate hf =>
    have hargs := args_of_values (i := i) (by rw [hop]; rfl)
    generalize i.values = vs at hvs hargs
    obtain _ | ⟨⟨a, hx⟩, _ | _⟩ := hvs
    exact leads_negate S hi hr hty (.inr hop) hargs hx (named_of_component (scalar_of_isSigned hf))
  | dot =>
    have hargs := args_of_values (i := i) (by rw [hop]; rfl)
    generalize i.values = vs at hvs hargs
    obtain _ | ⟨⟨a, hx⟩, _ | ⟨⟨b, hy⟩, _ | _⟩⟩ := hvs
    exact leads_dot S hi hr hty hop hargs hx hy rfl rfl
  | construct hc hts =>
    rw [← args_of_values (i := i) (by rw [hop]; rfl)] at hvs
    exact leads_construct S hi hr hty (.inl hop)
      (fun t ht => named_of_component (by rw [hts t ht]; exact hc)) hvs rfl
  | convert =>
    rw [← args_of_values (i := i) (by rw [hop]; rfl)] at hvs
    exact leads_construct S hi hr hty (.inr hop) (by simp [named]) hvs rfl
  | extract hk =>
    have hargs := args_of_leading (i := i) (n := 1) (by rw [hop]; rfl)
    rw [hls] at hargs
    generalize i.values = vs at hvs hargs
    obtain _ | ⟨⟨a, hx⟩, _ | _⟩ := hvs
    exact leads_extract S hi hr hty hop hargs hx hk
  | shuffle hks hn4 =>
    have hargs := args_of_leading (i := i) (n := 2) (by rw [hop]; rfl)
    rw [hls] at hargs
    generalize i.values = vs at hvs hargs
    obtain _ | ⟨⟨a, hx⟩, _ | ⟨⟨b, hy⟩, _ | _⟩⟩ := hvs
    exact leads_shuffle S hi hr hty hop hargs hx hks hn4 rfl
  | join =>
    have hargs := args_of_values (i := i) (by rw [hop]; rfl)
    generalize i.values = vs at hvs hargs
    obtain _ | ⟨⟨a, hx⟩, _ | ⟨⟨b, hy⟩, _ | _⟩⟩ := hvs
    exact leads_join S hop hargs hx hy
  | @sampleImplicit c k f =>
    generalize hvals : i.values = vs at hvs
    obtain _ | ⟨⟨a, hx⟩, _ | ⟨⟨b, hy⟩, _ | _⟩⟩ := hvs
    have hargs := args_of_sampling (by rw [hop]; rfl) hvals
    rw [hls] at hargs
    exact leads_sample S hi hr hty (.inl ⟨hop, rfl⟩) hargs (mem_of_known hx) hy
      (named_coordinate k) rfl
  | @sampleExplicit c k f =>
    generalize hvals : i.values = vs at hvs
    obtain _ | ⟨⟨a, hx⟩, _ | ⟨⟨b, hy⟩, _ | ⟨⟨z, hz⟩, _ | _⟩⟩⟩ := hvs
    have hargs := args_of_sampling (by rw [hop]; rfl) hvals
    rw [hls] at hargs
    exact leads_sample S hi hr hty (.inr ⟨hop, _, z, rfl, hz⟩) hargs (mem_of_known hx) hy
      (named_coordinate k) rfl
  | function h hf =>
    have hs := scalar_of_isFloating hf
    exact hfunction hop rfl (hfunctions _ (by simp [h])) (by simpa using hs) (by simp)
      (named_of_component hs)
  | function2 h hf =>
    have hs := scalar_of_isFloating hf
    exact hfunction hop rfl (hfunctions _ (by simp [h])) (by simpa using hs) (by simp)
      (named_of_component hs)
  | fMix hf =>
    have hs := scalar_of_isFloating hf
    exact hfunction hop rfl rfl (by simpa using hs) (by simp) (named_of_component hs)
  | sAbs hf =>
    have hs := scalar_of_isSigned hf
    exact hfunction hop rfl rfl (by simpa using hs) (by simp) (named_of_component hs)
  | integral2 h hf =>
    have hs := scalar_of_isSigned hf
    exact hfunction hop rfl (hfunctions _ (by simp [h])) (by simpa using hs) (by simp)
      (named_of_component hs)
  | length hf =>
    have hs := scalar_of_isFloating hf
    exact hfunction hop rfl rfl (by simpa using hs) (by simp) (named_of_component (scalar_component hs))

/-! ### Instructions on variables -/

/-- **A load**: an object stands for its variable, all else is a local. -/
theorem leads_load {t' p k b : UInt32} {path : List UInt32} (hi : ⟨.load, [t', x, p]⟩ ∈ W)
    (hty : TypeAt s.decls t' ty) (hp : Known s Γ p (.pointer k ty) (.place b path)) :
    Leads s.decls W Γ (Emit.instruction t ⟨.load, [t', x, p]⟩) ((x, ty, d) :: Γ) := by
  intro e he hΓ
  obtain ⟨-, hn⟩ := S.place he hΓ hp
  obtain ⟨info, hinfo, hd⟩ := typeOf_spec S.toScope S.hold hty
  have hload : Leads s.decls W Γ (Emit.load t ⟨.load, [t', x, p]⟩) ((x, ty, d) :: Γ) := by
    refine leads_lift hinfo (leads_lift (operand_eq (x := p) rfl) ?_)
    refine leads_bind (leads_place S hp) fun expr => ?_
    by_cases hopaque : info.isOpaque = true
    · rw [if_pos hopaque]
      refine leads_setExpr ?_ (ne_of_named hn) ?_ expr
      · cases hd with
        | image | sampler | sampledImage => rfl
        | _ => cases hopaque
      · rintro k c rfl
        cases hn
    · rw [if_neg hopaque]
      intro e he hΓ
      exact yields_get (leads_declare S hi rfl hty hn _ e he hΓ)
  exact hload e he hΓ

/-- A member of the block of global values. -/
theorem leads_access {t' b k m block ct w n : UInt32} {ms : List UInt32}
    (hi : ⟨.accessChain, [t', x, b, k]⟩ ∈ W)
    (hb : GlobalAt I s.decls b (.pointer m (.struct block)) (.place n []))
    (hk : ⟨.constant, [ct, k, w]⟩ ∈ s.decls) (hms : ⟨.typeStruct, block :: ms⟩ ∈ s.decls)
    {c : UInt32} (hc : ms[w.toNat]? = some c) (hty : TypeAt s.decls c ty) :
    Leads s.decls W Γ (Emit.instruction t ⟨.accessChain, [t', x, b, k]⟩)
      ((x, .pointer m ty, d) :: Γ) := by
  have hinfo : t.typeOf block = .ok (.struct ms) := typeOf_eq S.toScope S.hold hms rfl
  have hconst := S.constantValue hk
  obtain ⟨packed, hpacked⟩ := isPacked_ok S.toScope S.hold hms hc
  have hn : named ty = true := by
    cases S.forms _ hms with
    | typeStruct hmembers _ =>
      obtain ⟨ty', hm, hor⟩ := hmembers c (List.mem_of_getElem? hc)
      rw [hty.unique S.nodup_decls hm]
      rcases hor with hs | ⟨c, n, rfl⟩
      · exact named_of_component hs
      · rfl
  have hfollow : ∀ expr : String, Leads s.decls W Γ (Emit.follow t x ⟨expr, block, false⟩ [k]) Γ := by
    intro expr
    refine leads_lift hinfo (leads_lift hconst ?_)
    dsimp only
    rw [hc]
    exact leads_lift hpacked (leads_pure _)
  refine leads_lift (operand_eq (x := b) rfl) (leads_bind (leads_place S (.inr hb)) fun expr => ?_)
  intro e he hΓ
  refine yields_get ?_
  -- the variable points to the block
  obtain ⟨c', hc'⟩ : ∃ c', e.pointees.lookup b = some c' := by
    cases hb with
    | variable_ hm => exact Option.isSome_iff_exists.1 (he.declared _ _ _ hm).2
  obtain rfl := S.pointee he hb hc'
  rw [hc']
  have hset : ∀ expr : String,
      Leads s.decls W Γ (Emit.setExpr x expr) ((x, .pointer m ty, d) :: Γ) := by
    refine leads_setExpr rfl (fun _ h => by cases h) ?_
    rintro k c h
    cases h
    exact hn
  refine (leads_bind (hfollow expr) fun place => leads_bind (hset place.expr) fun _ => ?_) e he hΓ
  refine leads_of_writes fun e => yields_modify ?_
  have hle : e.Le { e with
      pointees := (x, place.type) :: e.pointees
      packed := (x, place.packed) :: e.packed } :=
    ⟨List.suffix_refl _, List.suffix_refl _, List.suffix_cons _ _, List.suffix_refl _⟩
  refine ⟨hle, fun hs => hs.grow hle (fun _ _ => .inl) ?_, rfl⟩
  intro y c hy
  rcases List.mem_cons.1 hy with h | hy
  · cases h
    exact .inr ⟨_, hi, rfl⟩
  · exact .inl hy

/-- A value is stored. -/
theorem leads_store {p k b : UInt32} {a : I.Value}
    (hp : GlobalAt I s.decls p (.pointer k ty) (.place b [])) (hx : Known s Γ x ty (.value a)) :
    Leads s.decls W Γ (Emit.instruction t ⟨.store, [p, x]⟩) Γ := by
  intro e he hΓ
  have hn := (S.place he hΓ (.inr hp)).2
  exact (leads_bind (leads_lift (operand_eq (x := p) rfl) (leads_place S (.inr hp))) fun _ =>
    leads_bind (leads_argument S (i := ⟨.store, [p, x]⟩) (n := 1) rfl hx hn) fun _ =>
      leads_line _ : Leads s.decls W Γ (Emit.instruction t ⟨.store, [p, x]⟩) Γ) e he hΓ

/-- A texel is written. -/
theorem leads_write {z k f : UInt32} {c : Ty} {a b v : I.Value}
    (hx : Known s Γ x (.image c k 2 f) (.value a)) (hy : Known s Γ y (.texel k) (.value b))
    (hz : Known s Γ z .colour (.value v)) :
    Leads s.decls W Γ (Emit.instruction t ⟨.imageWrite, [x, y, z]⟩) Γ := by
  have htexel : named (.texel k) = true := by
    unfold Ty.texel
    split <;> rfl
  exact leads_bind (leads_argument S (i := ⟨.imageWrite, [x, y, z]⟩) (n := 0) rfl hx rfl) fun _ =>
    leads_bind (leads_argument S (i := ⟨.imageWrite, [x, y, z]⟩) (n := 2) rfl hz rfl) fun _ =>
      leads_bind (leads_argument S (i := ⟨.imageWrite, [x, y, z]⟩) (n := 1) rfl hy htexel) fun _ =>
        leads_line _

/-- **Each instruction that runs is written**, and what it defines is known. -/
theorem instruction_spec {o : List (Output I.Value)} (hi : i ∈ W) (h : Step s Γ i Γ' o) :
    Leads s.decls W Γ (Emit.instruction t i) Γ' := by
  cases h with
  | apply _ hty hext hargs hsig =>
    refine leads_apply S hi hty hext ?_ rfl hsig
    rw [List.forall₂_map_right_iff]
    exact hargs.imp fun x a h => ⟨a.2, h⟩
  | load hty hp _ => exact leads_load S hi hty hp
  | access _ hb hk _ hms hc hty => exact leads_access S hi hb hk hms hc hty
  | store hp hx => exact leads_store S hp hx
  | write hx hy hz => exact leads_write S hx hy hz

end Setting

end NodeShader.Metal
