import NodeShader.Metal.Types
import NodeShader.Proofs.Metal.Loading
import NodeShader.Proofs.Spirv.WellTyped

/-!
# Types and constants have a text

Every step of writing a program may fail.  `Yields x s Q` says that step `x` does not, and that `Q`
holds of what it gives and of the state it leaves; the rules at the start put steps together.

The declarations of a module, as tables hold them, give every type that values have a name
(`typeName_total`) and every constant a literal (`literal_total`).
-/

namespace NodeShader.Metal

open Spirv

/-! ### Steps that succeed -/

section Steps

variable {σ α β : Type} {s : σ} {Q : α → σ → Prop} {R : β → σ → Prop}

/-- **A step that succeeds**, with a result and a state of which something holds. -/
def Yields (x : StateT σ Result α) (s : σ) (Q : α → σ → Prop) : Prop :=
  ∃ a s', x.run s = .ok (a, s') ∧ Q a s'

theorem yields_pure {a : α} (h : Q a s) : Yields (pure a) s Q := ⟨a, s, rfl, h⟩

theorem yields_bind {x : StateT σ Result α} {f : α → StateT σ Result β}
    (h : Yields x s fun a s' => Yields (f a) s' R) : Yields (x >>= f) s R := by
  obtain ⟨a, s', hx, b, s'', hf, hR⟩ := h
  refine ⟨b, s'', ?_, hR⟩
  rw [StateT.run_bind, hx]
  exact hf

theorem Yields.mono {x : StateT σ Result α} {Q' : α → σ → Prop} (h : Yields x s Q)
    (hQ : ∀ a s', Q a s' → Q' a s') : Yields x s Q' := by
  obtain ⟨a, s', hx, ha⟩ := h
  exact ⟨a, s', hx, hQ a s' ha⟩

theorem yields_get {f : σ → StateT σ Result β} (h : Yields (f s) s R) : Yields (get >>= f) s R :=
  yields_bind ⟨s, s, rfl, h⟩

theorem yields_modify {f : σ → σ} {Q : PUnit → σ → Prop} (h : Q ⟨⟩ (f s)) :
    Yields (modify f : StateT σ Result PUnit) s Q := ⟨⟨⟩, f s, rfl, h⟩

/-- A look-up that succeeds, and what is done with its result. -/
theorem yields_lift {x : Result α} {a : α} {f : α → StateT σ Result β} (hx : x = .ok a)
    (h : Yields (f a) s R) : Yields (liftM x >>= f) s R := by
  refine yields_bind ⟨a, s, ?_, h⟩
  rw [hx]
  rfl

/-- A step that succeeds in any state. -/
def Total (x : StateT σ Result α) : Prop := ∀ s, Yields x s fun _ _ => True

theorem total_pure (a : α) : Total (pure a : StateT σ Result α) := fun _ => yields_pure trivial

theorem total_bind {x : StateT σ Result α} {f : α → StateT σ Result β} (hx : Total x)
    (hf : ∀ a, Total (f a)) : Total (x >>= f) :=
  fun s => yields_bind ((hx s).mono fun a s' _ => hf a s')

theorem total_lift {x : Result α} {a : α} {f : α → StateT σ Result β} (hx : x = .ok a)
    (hf : Total (f a)) : Total (liftM x >>= f) := fun s => yields_lift hx (hf s)

/-- Steps one after another, each of which succeeds in any state. -/
theorem yields_mapM {f : α → StateT σ Result β} {P : α → β → Prop} {l : List α}
    (h : ∀ a ∈ l, ∀ s, Yields (f a) s fun b _ => P a b) (s : σ) :
    Yields (l.mapM f) s fun bs _ => List.Forall₂ P l bs := by
  induction l generalizing s with
  | nil => exact yields_pure .nil
  | cons a l ih =>
    rw [List.mapM_cons]
    rw [List.forall_mem_cons] at h
    refine yields_bind ((h.1 s).mono fun b s' hb => ?_)
    exact yields_bind ((ih h.2 s').mono fun bs _ hbs => yields_pure (.cons hb hbs))

theorem total_mapM {f : α → StateT σ Result β} {l : List α} (h : ∀ a ∈ l, Total (f a)) :
    Total (l.mapM f) :=
  fun s => (yields_mapM (P := fun _ _ => True) h s).mono fun _ _ _ => trivial

end Steps

/-- Every identifier can be named. -/
theorem total_identifier (t : Tables) (id : UInt32) (fallback : String) :
    Total (identifier t id fallback) := by
  intro names
  refine yields_get ?_
  split
  · exact yields_pure trivial
  · exact ⟨_, _, rfl, trivial⟩

theorem dim_cases {d : UInt32} (h : d < 3) : d = 0 ∨ d = 1 ∨ d = 2 := by
  rw [UInt32.lt_iff_toNat_lt] at h
  have h3 : (3 : UInt32).toNat = 3 := rfl
  rw [← UInt32.toNat_inj, ← UInt32.toNat_inj, ← UInt32.toNat_inj]
  show d.toNat = 0 ∨ d.toNat = 1 ∨ d.toNat = 2
  omega

/-- The types of values that have a name: neither pointers nor functions nor joined images. -/
def named : Ty → Bool
  | .pointer .. | .function _ | .sampledImage _ => false
  | _ => true

/-- A type with a scalar component has a name. -/
theorem named_of_component {ty : Ty} (h : ty.component.isScalar) : named ty = true := by
  cases ty with
  | pointer | function | sampledImage => cases h
  | _ => rfl

/-! ### Look-ups -/

/-- **What the declarations of a module are like**: among instructions of module scope, each with a
result of its own, they have their forms, they are all the variables there are, and annotations are
known ones. -/
structure Scope [NameLimit] (D A : List Instruction) (R : List UInt32) (globals : List Instruction) :
    Prop where
  distinct : (globals.filterMap (·.result?)).Nodup
  decls : D.Sublist globals
  annotations : A ⊆ globals
  forms : ∀ i ∈ D, Form D A R .types i
  placed : ∀ t x s, ⟨.variableDecl, [t, x, s]⟩ ∈ globals → ⟨.variableDecl, [t, x, s]⟩ ∈ D
  decorated : ∀ x dec params, ⟨.decorate, x :: dec :: params⟩ ∈ globals → Decorated dec params

/-- What the tables hold of a type. -/
inductive Describes (D : List Instruction) : TypeInfo → Ty → Prop
  | void : Describes D .void .void
  | bool : Describes D .bool .bool
  | int {w : UInt32} {signed : Bool} : Describes D (.int w signed) (.int w signed)
  | float {w : UInt32} : Describes D (.float w) (.float w)
  | vector {c n : UInt32} {t : Ty} : TypeAt D c t → Describes D (.vector c n) (.vector t n)
  | matrix {c n : UInt32} {t : Ty} : TypeAt D c t → Describes D (.matrix c n) (.matrix t n)
  | image {c d s f : UInt32} {t : Ty} : TypeAt D c t → Describes D (.image c d s f) (.image t d s f)
  | sampler : Describes D .sampler .sampler
  | sampledImage {c : UInt32} {t : Ty} : TypeAt D c t →
      Describes D (.sampledImage c) (.sampledImage t)
  | struct {x : UInt32} {ms : List UInt32} : ⟨.typeStruct, x :: ms⟩ ∈ D →
      Describes D (.struct ms) (.struct x)
  | pointer {s c : UInt32} {t : Ty} : TypeAt D c t → Describes D (.pointer s c) (.pointer s t)
  | function {c : UInt32} {t : Ty} : TypeAt D c t → Describes D (.function c) (.function t)

theorem Tables.rounds_eq (t : Tables) (n : Nat) : t.rounds n = t.limit.rounds + n + 1 + 1 := rfl

/-- The declarations of types are followed at least two deep. -/
theorem typeName_eq (t : Tables) (x : UInt32) :
    ∃ depth, typeName t x = typeNameWithin t (depth + 1 + 1) x :=
  ⟨_, by rw [typeName, t.rounds_eq]⟩

/-- The declarations of constants are followed at least two deep. -/
theorem literal_eq (t : Tables) (x : UInt32) :
    ∃ depth, literal t x = literalWithin t (depth + 1 + 1) x :=
  ⟨_, by rw [literal, t.rounds_eq]⟩

section Scope

variable [NameLimit] {D A : List Instruction} {R : List UInt32} {globals : List Instruction}
  {t : Tables} {i : Instruction} {x : UInt32} {ty c : Ty} {n : UInt32}

namespace Scope

variable (S : Scope D A R globals)
include S

theorem nodup_decls : (D.filterMap (·.result?)).Nodup := S.distinct.sublist (S.decls.filterMap _)

/-- The component of a vector is a scalar, and there are one to four of them. -/
theorem vector (h : TypeAt D x (.vector c n)) : c.isScalar ∧ 0 < n ∧ n ≤ 4 := by
  cases h with
  | vector hm hc =>
    cases S.forms _ hm with
    | typeVector hc' hs hn =>
      rw [hc.unique S.nodup_decls hc']
      exact ⟨hs, hn⟩

/-- The column of a matrix is a vector. -/
theorem matrix (h : TypeAt D x (.matrix c n)) : ∃ e m, c = .vector e m := by
  cases h with
  | matrix hm hc =>
    cases S.forms _ hm with
    | typeMatrix hc' => exact ⟨_, _, hc.unique S.nodup_decls hc'⟩

/-- Images have one to three dimensions and hold floating point numbers. -/
theorem image {d s f : UInt32} (h : TypeAt D x (.image c d s f)) : c = .float 32 ∧ d < 3 := by
  cases h with
  | image hm hc =>
    cases S.forms _ hm with
    | typeImage hc' hd => exact ⟨hc.unique S.nodup_decls hc', hd⟩

/-- **What is declared is found** in tables of unique keys. -/
theorem lookup_entry {β : Type} {keyed? : Instruction → Option (UInt32 × β)} {b : β}
    (hkey : ∀ i e, keyed? i = some e → i.result? = some e.1) (hi : i ∈ D)
    (he : keyed? i = some (x, b)) : (globals.filterMap keyed?).reverse.lookup x = some b := by
  refine lookup_eq_some_of_mem ?_ (List.mem_reverse.2 (List.mem_filterMap.2 ⟨i, S.decls.subset hi, he⟩))
  rw [List.map_reverse, List.nodup_reverse]
  refine S.distinct.sublist ?_
  have hsub : ∀ l : List Instruction,
      ((l.filterMap keyed?).map (·.1)).Sublist (l.filterMap (·.result?)) := by
    intro l
    induction l with
    | nil => exact .slnil
    | cons i l ih =>
      cases he : keyed? i with
      | none =>
        rw [List.filterMap_cons_none he]
        exact ih.trans ((List.sublist_cons_self i l).filterMap _)
      | some e =>
        rw [List.filterMap_cons_some he, List.filterMap_cons_some (hkey i e he)]
        exact ih.cons_cons e.1
  exact hsub globals

end Scope

omit [NameLimit] in
/-- An instruction with a type entry is the declaration of the type. -/
theorem result_of_declaredType (i : Instruction) (e : UInt32 × TypeInfo) (h : declaredType? i = some e) :
    i.result? = some e.1 := by
  unfold declaredType? at h
  split at h
  · rename_i info x rest hread hops
    cases h
    have hop : i.opcode.hasResult = true ∧ i.opcode.hasType = false := by
      have hm := lookup_mem (show List.lookup i.opcode _ = some _ from hread)
      simp only [List.mem_cons, List.not_mem_nil, or_false, Prod.mk.injEq] at hm
      rcases hm with h | h | h | h | h | h | h | h | h | h | h | h
      all_goals rw [h.1]; decide
    rw [Instruction.result?, if_pos hop.1, Instruction.result, if_pos hop.1, hop.2, hops]
    rfl
  · cases h

omit [NameLimit] in
/-- An instruction with a constant entry is the declaration of the constant. -/
theorem result_of_declaredConstant (i : Instruction) (e : UInt32 × ConstantInfo)
    (h : declaredConstant? i = some e) : i.result? = some e.1 := by
  unfold declaredConstant? at h
  split at h
  · rename_i hop
    split at h
    · rename_i t x parts hops
      cases h
      have hop : i.opcode.hasResult = true ∧ i.opcode.hasType = true := by
        revert hop
        generalize i.opcode = op
        rw [List.contains_iff_mem]
        revert op
        decide
      rw [Instruction.result?, if_pos hop.1, Instruction.result, if_pos hop.1, hop.2, hops]
      rfl
    · cases h
  · cases h

variable (S : Scope D A R globals) (hold : t.Hold globals)
include S hold

theorem typeOf_eq {info : TypeInfo} (hi : i ∈ D) (he : declaredType? i = some (x, info)) :
    t.typeOf x = .ok info := by
  rw [Tables.typeOf, hold.types, S.lookup_entry result_of_declaredType hi he]

theorem constant_eq {info : ConstantInfo} (hi : i ∈ D) (he : declaredConstant? i = some (x, info)) :
    t.constants.lookup x = some info := by
  rw [hold.constants, S.lookup_entry result_of_declaredConstant hi he]

/-- **A declared type is found** in the tables. -/
theorem typeOf_spec (h : TypeAt D x ty) : ∃ info, t.typeOf x = .ok info ∧ Describes D info ty := by
  cases h with
  | void hm => exact ⟨_, typeOf_eq S hold hm rfl, .void⟩
  | bool hm => exact ⟨_, typeOf_eq S hold hm rfl, .bool⟩
  | int hm => exact ⟨_, typeOf_eq S hold hm rfl, .int⟩
  | float hm => exact ⟨_, typeOf_eq S hold hm rfl, .float⟩
  | vector hm hc => exact ⟨_, typeOf_eq S hold hm rfl, .vector hc⟩
  | matrix hm hc => exact ⟨_, typeOf_eq S hold hm rfl, .matrix hc⟩
  | image hm hc => exact ⟨_, typeOf_eq S hold hm rfl, .image hc⟩
  | sampler hm => exact ⟨_, typeOf_eq S hold hm rfl, .sampler⟩
  | sampledImage hm hc => exact ⟨_, typeOf_eq S hold hm rfl, .sampledImage hc⟩
  | struct hm => exact ⟨_, typeOf_eq S hold hm rfl, .struct hm⟩
  | pointer hm hc => exact ⟨_, typeOf_eq S hold hm rfl, .pointer hc⟩
  | function hm hc => exact ⟨_, typeOf_eq S hold hm rfl, .function hc⟩

/-! ### Types -/

/-- The name of a scalar type. -/
theorem total_scalarName (h : TypeAt D x ty) (hs : ty.isScalar) (depth : Nat) :
    Total (typeNameWithin t (depth + 1) x) := by
  obtain ⟨info, hinfo, hd⟩ := typeOf_spec S hold h
  refine total_lift hinfo ?_
  cases hd with
  | bool | int | float => exact total_pure _
  | _ => cases hs

/-- **Every type of a value has a name.** -/
theorem total_typeName (h : TypeAt D x ty) (hn : named ty = true) : Total (typeName t x) := by
  obtain ⟨info, hinfo, hd⟩ := typeOf_spec S hold h
  obtain ⟨depth, hdepth⟩ := typeName_eq t x
  rw [hdepth]
  refine total_lift hinfo ?_
  cases hd with
  | void | bool | int | float | sampler => exact total_pure _
  | vector hc =>
    exact total_bind (total_scalarName S hold hc (S.vector h).1 _) fun _ => total_pure _
  | matrix hc =>
    obtain ⟨e, m, rfl⟩ := S.matrix h
    obtain ⟨column, hcolumn, hcd⟩ := typeOf_spec S hold hc
    refine total_lift hcolumn ?_
    cases hcd with
    | vector he => exact total_bind (total_scalarName S hold he (S.vector hc).1 _) fun _ => total_pure _
  | image hc =>
    obtain ⟨rfl, hdim⟩ := S.image h
    rcases dim_cases hdim with rfl | rfl | rfl
    all_goals exact total_bind (total_scalarName S hold hc rfl _) fun _ => total_pure _
  | struct => exact total_identifier t x "Struct"
  | _ => cases hn

/-! ### Constants -/

variable {I : Interpretation} {v : I.Value}

/-- The literal of a scalar constant. -/
theorem total_scalarLiteral (h : ScalarAt I D x ty v) (depth : Nat) :
    Total (literalWithin t (depth + 1) x) := by
  cases h with
  | @word c x w _ hm hc hs hb =>
    have hlookup : t.constants.lookup x = some ⟨.constant, c, [w]⟩ := constant_eq S hold hm rfl
    obtain ⟨info, hinfo, hd⟩ := typeOf_spec S hold hc
    rw [literalWithin, hlookup]
    refine total_lift hinfo (total_lift rfl ?_)
    cases hd with
    | @float w =>
      dsimp only
      split
      · exact total_pure _
      · exact total_pure _
    | @int w signed =>
      cases signed
      · exact total_pure _
      · exact total_pure _
    | bool => exact absurd rfl hb
    | _ => cases hs
  | @yes c x hm hc =>
    have hlookup : t.constants.lookup x = some ⟨.constantTrue, c, []⟩ := constant_eq S hold hm rfl
    rw [literalWithin, hlookup]
    exact total_pure _
  | @no c x hm hc =>
    have hlookup : t.constants.lookup x = some ⟨.constantFalse, c, []⟩ := constant_eq S hold hm rfl
    rw [literalWithin, hlookup]
    exact total_pure _

/-- The literal of the zero of a type. -/
theorem total_zeroLiteral (h : TypeAt D x ty) (hn : named ty = true) : Total (zeroLiteral t x) := by
  obtain ⟨info, hinfo, hd⟩ := typeOf_spec S hold h
  have hname := total_typeName S hold h hn
  refine total_lift hinfo ?_
  cases hd with
  | bool => exact total_pure _
  | _ => exact total_bind hname fun _ => total_pure _

/-- **Every constant has a literal**, and the tables hold its type. -/
theorem total_literal (h : GlobalAt I D x ty (.value v)) :
    Total (literal t x) ∧ ∃ info, t.constants.lookup x = some info ∧ TypeAt D info.type ty := by
  obtain ⟨depth, hdepth⟩ := literal_eq t x
  rw [hdepth]
  cases h with
  | scalar hs =>
    refine ⟨total_scalarLiteral S hold hs _, ?_⟩
    cases hs with
    | @word c x w _ hm hc _ _ => exact ⟨⟨.constant, c, [w]⟩, constant_eq S hold hm rfl, hc⟩
    | @yes c x hm hc => exact ⟨⟨.constantTrue, c, []⟩, constant_eq S hold hm rfl, hc⟩
    | @no c x hm hc => exact ⟨⟨.constantFalse, c, []⟩, constant_eq S hold hm rfl, hc⟩
  | @null c x _ hm hc hs =>
    have hlookup : t.constants.lookup x = some ⟨.constantNull, c, []⟩ := constant_eq S hold hm rfl
    refine ⟨?_, _, hlookup, hc⟩
    rw [literalWithin, hlookup]
    exact total_zeroLiteral S hold hc (named_of_component hs)
  | @composite c x n e parts vs hm hc _ _ hparts =>
    have hlookup : t.constants.lookup x = some ⟨.constantComposite, c, parts⟩ :=
      constant_eq S hold hm rfl
    refine ⟨?_, _, hlookup, hc⟩
    rw [literalWithin, hlookup]
    refine total_bind (total_mapM fun p hp => ?_) fun _ =>
      total_bind (total_typeName S hold hc rfl) fun _ => total_pure _
    obtain ⟨v, -, hv⟩ := exists_of_mem_left hparts hp
    exact total_scalarLiteral S hold hv _

end Scope

end NodeShader.Metal
