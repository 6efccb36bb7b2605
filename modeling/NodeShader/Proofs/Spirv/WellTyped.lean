import NodeShader.Proofs.Spirv.Building
import NodeShader.Proofs.Spirv.Semantics

/-!
# Well-typed modules

In a module every identifier that stands for something has the type that the instruction it is the
result of names (`HasType`), and an instruction is well typed if its operands have the types it asks
for (`WellTyped`).  Both read the instructions of the module as they stand, in no order.

* `Runs.wellTyped`: code that runs is well typed.
* `HasType.unique`: where no identifier is the result of two instructions, it has one type.
-/

namespace NodeShader.Spirv

/-- **The type of an identifier**, by the instruction it is the result of. -/
def HasType (m : List Instruction) (x : UInt32) (ty : Ty) : Prop :=
  ∃ i ∈ m, i.result? = some x ∧ i.opcode.hasType = true ∧ TypeAt m i.resultType ty

/-- The instructions without operands that have a type to check. -/
def untypedOps : List Opcode :=
  [.function, .functionEnd, .label, .selectionMerge, .branch, .returnVoid]

/-- **A well-typed instruction** of a module. -/
inductive WellTyped (m : List Instruction) : Instruction → Prop
  | compute {i : Instruction} {ts : List Ty} {ty : Ty} :
      (i.opcode = .extInst → ∃ set, i.arg? 0 = some set ∧
        ⟨.extInstImport, set :: nameWords (Text.bytes extendedSet)⟩ ∈ m) →
      List.Forall₂ (HasType m) i.values ts → Signature i.opcode i.literals ts ty →
      TypeAt m i.resultType ty → WellTyped m i
  | load {t x p storage : UInt32} {ty : Ty} : HasType m p (.pointer storage ty) → TypeAt m t ty →
      WellTyped m ⟨.load, [t, x, p]⟩
  | access {t x b k ct w storage id member : UInt32} {members : List UInt32} {ty : Ty} :
      HasType m b (.pointer storage (.struct id)) → ⟨.typeStruct, id :: members⟩ ∈ m →
      ⟨.constant, [ct, k, w]⟩ ∈ m → TypeAt m ct (.int 32 true) → members[w.toNat]? = some member →
      TypeAt m member ty → TypeAt m t (.pointer storage ty) →
      WellTyped m ⟨.accessChain, [t, x, b, k]⟩
  | store {p x storage : UInt32} {ty : Ty} : HasType m p (.pointer storage ty) → HasType m x ty →
      WellTyped m ⟨.store, [p, x]⟩
  | write {i c x d f : UInt32} {t : Ty} : HasType m i (.image t d 2 f) → HasType m c (.texel d) →
      HasType m x .colour → WellTyped m ⟨.imageWrite, [i, c, x]⟩
  | phi {i : Instruction} {ty : Ty} : i.opcode = .phi → TypeAt m i.resultType ty →
      (∀ x ∈ i.values, HasType m x ty) → WellTyped m i
  | branch {c yes no : UInt32} : HasType m c .bool →
      WellTyped m ⟨.branchConditional, [c, yes, no]⟩
  | composite {t x n : UInt32} {c : Ty} {parts : List UInt32} : TypeAt m t (.vector c n) →
      parts.length = n.toNat → (∀ p ∈ parts, HasType m p c) →
      WellTyped m ⟨.constantComposite, t :: x :: parts⟩
  | untyped {i : Instruction} : i.opcode ∈ untypedOps → WellTyped m i

variable {I : Interpretation} {m decls : List Instruction} {x : UInt32} {ty : Ty}

/-! ### Identifiers of module scope -/

theorem ScalarAt.hasType {v : I.Value} (hm : decls ⊆ m) (h : ScalarAt I decls x ty v) :
    HasType m x ty := by
  cases h with
  | word hi ht => exact ⟨_, hm hi, rfl, rfl, ht.mono hm⟩
  | yes hi ht => exact ⟨_, hm hi, rfl, rfl, ht.mono hm⟩
  | no hi ht => exact ⟨_, hm hi, rfl, rfl, ht.mono hm⟩

theorem GlobalAt.hasType {a : Datum I.Value} (hm : decls ⊆ m) (h : GlobalAt I decls x ty a) :
    HasType m x ty := by
  cases h with
  | scalar hs => exact hs.hasType hm
  | null hi ht => exact ⟨_, hm hi, rfl, rfl, ht.mono hm⟩
  | composite hi ht => exact ⟨_, hm hi, rfl, rfl, ht.mono hm⟩
  | variable_ hi ht => exact ⟨_, hm hi, rfl, rfl, ht.mono hm⟩

theorem ScalarConstant.hasType (hm : decls ⊆ m) (h : ScalarConstant decls x ty) :
    HasType m x ty := by
  obtain ⟨t, ht, ⟨w, hw⟩ | hw | hw⟩ := h
  · exact ⟨_, hm hw, rfl, rfl, ht.mono hm⟩
  · exact ⟨_, hm hw, rfl, rfl, ht.mono hm⟩
  · exact ⟨_, hm hw, rfl, rfl, ht.mono hm⟩

/-! ### Code -/

/-- A context whose identifiers have their types in a module. -/
def Context.Typed (Γ : Context I) (m : List Instruction) : Prop := ∀ e ∈ Γ, HasType m e.1 e.2.1

variable {s : Surroundings I} {Γ Γ' : Context I} {i : Instruction} {c : Code}
  {o : List (Output I.Value)}

theorem Known.hasType {a : Datum I.Value} (hm : s.decls ⊆ m) (hΓ : Context.Typed Γ m)
    (h : Known s Γ x ty a) : HasType m x ty := by
  rcases h with h | h
  · exact hΓ _ h
  · exact h.hasType hm

theorem Context.Typed.cons {a : Datum I.Value} (hΓ : Context.Typed Γ m) (hx : HasType m x ty) :
    Context.Typed ((x, ty, a) :: Γ) m := by
  intro e he
  rcases List.mem_cons.1 he with rfl | he
  · exact hx
  · exact hΓ e he

theorem Operands.hasType {xs : List UInt32} {args : List (Ty × I.Value)} (hm : s.decls ⊆ m)
    (hΓ : Context.Typed Γ m) (h : Operands s Γ xs args) :
    List.Forall₂ (HasType m) xs (args.map (·.1)) := by
  rw [List.forall₂_map_right_iff]
  exact h.imp fun _ _ hk => hk.hasType hm hΓ

/-- **An instruction that runs is well typed**, and so are the values it leaves. -/
theorem Step.wellTyped (hm : s.decls ⊆ m)
    (hset : ⟨.extInstImport, s.extended :: nameWords (Text.bytes extendedSet)⟩ ∈ m) (hi : i ∈ m)
    (hΓ : Context.Typed Γ m) (h : Step s Γ i Γ' o) : WellTyped m i ∧ Context.Typed Γ' m := by
  cases h with
  | apply hlen ht he ha hsig =>
    obtain ⟨hty, hres⟩ := hsig.typed
    refine ⟨.compute (fun h => ⟨_, he h, hset⟩) (ha.hasType hm hΓ) hsig (ht.mono hm),
      hΓ.cons ⟨i, hi, ?_, hty, ht.mono hm⟩⟩
    rw [Instruction.result?, if_pos hres]
  | load ht hp _ =>
    exact ⟨.load (hp.hasType hm hΓ) (ht.mono hm), hΓ.cons ⟨_, hi, rfl, rfl, ht.mono hm⟩⟩
  | access ht hb hk hct hst hmem hty =>
    exact ⟨.access (hb.hasType hm) (hm hst) (hm hk) (hct.mono hm) hmem (hty.mono hm) (ht.mono hm),
      hΓ.cons ⟨_, hi, rfl, rfl, ht.mono hm⟩⟩
  | store hp hx => exact ⟨.store (hp.hasType hm) (hx.hasType hm hΓ), hΓ⟩
  | write hi' hc hx =>
    exact ⟨.write (hi'.hasType hm hΓ) (hc.hasType hm hΓ) (hx.hasType hm hΓ), hΓ⟩

/-- **Code that runs is well typed.** -/
theorem Runs.wellTyped (hm : s.decls ⊆ m)
    (hset : ⟨.extInstImport, s.extended :: nameWords (Text.bytes extendedSet)⟩ ∈ m)
    (h : Runs s Γ c Γ' o) (hc : c.instructions ⊆ m) (hΓ : Context.Typed Γ m) :
    (∀ i ∈ c.instructions, WellTyped m i) ∧ Context.Typed Γ' m := by
  induction h with
  | done => exact ⟨fun _ hi => absurd hi List.not_mem_nil, hΓ⟩
  | plain hs _ ih =>
    rw [Code.instructions, List.cons_subset] at hc
    obtain ⟨hw, hΓ₁⟩ := hs.wellTyped hm hset hc.1 hΓ
    obtain ⟨hws, hΓ₂⟩ := ih hc.2 hΓ₁
    refine ⟨fun i hi => ?_, hΓ₂⟩
    rcases List.mem_cons.1 hi with rfl | hi
    · exact hw
    · exact hws i hi
  | @select Γ Γ₁ Γ₂ Γ' c yes no rest ty test a b o hcond _ _ ht _ ha hb _ ihy ihn ihr =>
    obtain ⟨hframe, hcy, hcn, hcr⟩ := Code.forall_mem_select.1 hc
    obtain ⟨hyes, hΓ₁⟩ := ihy hcy hΓ
    obtain ⟨hno, hΓ₂⟩ := ihn hcn hΓ
    have hphi : c.phi (yes.lastLabel c.yes) (no.lastLabel c.no) ∈ m := hframe _ (by simp)
    obtain ⟨hrest, hΓ'⟩ := ihr hcr (hΓ.cons ⟨_, hphi, rfl, rfl, ht.mono hm⟩)
    refine ⟨Code.forall_mem_select.2 ⟨fun i hi => ?_, hyes, hno, hrest⟩, hΓ'⟩
    simp only [List.mem_cons, List.not_mem_nil, or_false] at hi
    rcases hi with rfl | rfl | rfl | rfl | rfl | rfl | rfl
    · exact .untyped (show Opcode.selectionMerge ∈ untypedOps by decide)
    · exact .branch (hcond.hasType hm hΓ)
    · exact .untyped (show Opcode.label ∈ untypedOps by decide)
    · exact .untyped (show Opcode.branch ∈ untypedOps by decide)
    · exact .untyped (show Opcode.label ∈ untypedOps by decide)
    · exact .untyped (show Opcode.label ∈ untypedOps by decide)
    · refine .phi rfl (ht.mono hm) fun x hx => ?_
      have hx : x ∈ [c.fromYes, c.fromNo] := hx
      rcases List.mem_pair.1 hx with rfl | rfl
      · exact ha.hasType hm hΓ₁
      · exact hb.hasType hm hΓ₂

/-! ### One type for each identifier -/

/-- Where results are told apart, an identifier is the result of one instruction. -/
theorem eq_of_result (hm : (m.filterMap (·.result?)).Nodup) {j : Instruction} (hi : i ∈ m)
    (hj : j ∈ m) (hx : i.result? = some x) (hy : j.result? = some x) : i = j := by
  induction m with
  | nil => cases hi
  | cons k m ih =>
    have htail : (m.filterMap (·.result?)).Nodup :=
      hm.sublist ((List.sublist_cons_self k m).filterMap _)
    have hnot : ∀ l ∈ m, k.result? = some x → l.result? ≠ some x := by
      intro l hl hk hl'
      rw [List.filterMap_cons_some hk, List.nodup_cons] at hm
      exact hm.1 (List.mem_filterMap.2 ⟨l, hl, hl'⟩)
    rcases List.mem_cons.1 hi with h | hi'
    · rcases List.mem_cons.1 hj with h' | hj'
      · rw [h, h']
      · exact absurd hy (hnot j hj' (h ▸ hx))
    · rcases List.mem_cons.1 hj with h' | hj'
      · exact absurd hx (hnot i hi' (h' ▸ hy))
      · exact ih htail hi' hj'

/-- What an instruction that declares a type declares. -/
inductive Denotes (m : List Instruction) : Instruction → Ty → Prop
  | void {x : UInt32} : Denotes m ⟨.typeVoid, [x]⟩ .void
  | bool {x : UInt32} : Denotes m ⟨.typeBool, [x]⟩ .bool
  | int {x w s : UInt32} : Denotes m ⟨.typeInt, [x, w, s]⟩ (.int w (s != 0))
  | float {x w : UInt32} : Denotes m ⟨.typeFloat, [x, w]⟩ (.float w)
  | vector {x c n : UInt32} {t : Ty} : TypeAt m c t → Denotes m ⟨.typeVector, [x, c, n]⟩ (.vector t n)
  | matrix {x c n : UInt32} {t : Ty} : TypeAt m c t → Denotes m ⟨.typeMatrix, [x, c, n]⟩ (.matrix t n)
  | image {x c d a b e s f : UInt32} {t : Ty} : TypeAt m c t →
      Denotes m ⟨.typeImage, [x, c, d, a, b, e, s, f]⟩ (.image t d s f)
  | sampler {x : UInt32} : Denotes m ⟨.typeSampler, [x]⟩ .sampler
  | sampledImage {x c : UInt32} {t : Ty} : TypeAt m c t →
      Denotes m ⟨.typeSampledImage, [x, c]⟩ (.sampledImage t)
  | struct {x : UInt32} {ms : List UInt32} : Denotes m ⟨.typeStruct, x :: ms⟩ (.struct x)
  | pointer {x s c : UInt32} {t : Ty} : TypeAt m c t →
      Denotes m ⟨.typePointer, [x, s, c]⟩ (.pointer s t)
  | function {x c : UInt32} {t : Ty} : TypeAt m c t → Denotes m ⟨.typeFunction, [x, c]⟩ (.function t)

theorem TypeAt.denotes {t : Ty} (h : TypeAt m x t) :
    ∃ i ∈ m, i.result? = some x ∧ Denotes m i t := by
  cases h
  all_goals exact ⟨_, ‹_›, rfl, by constructor <;> assumption⟩

/-- The instruction that declares a type identifier denotes its type. -/
theorem TypeAt.denotes_of_mem (hm : (m.filterMap (·.result?)).Nodup) {t : Ty} (h : TypeAt m x t)
    (hi : i ∈ m) (hx : i.result? = some x) : Denotes m i t := by
  obtain ⟨j, hj, hy, hd⟩ := h.denotes
  rwa [eq_of_result hm hi hj hx hy]

/-- **A type identifier stands for one type** where results are told apart. -/
theorem TypeAt.unique (hm : (m.filterMap (·.result?)).Nodup) {t u : Ty} (ht : TypeAt m x t)
    (hu : TypeAt m x u) : t = u := by
  induction ht generalizing u with
  | void h | bool h | int h | float h | sampler h | struct h =>
    cases hu.denotes_of_mem hm h rfl
    rfl
  | vector h _ ih =>
    cases hu.denotes_of_mem hm h rfl with
    | vector hc => rw [ih hc]
  | matrix h _ ih =>
    cases hu.denotes_of_mem hm h rfl with
    | matrix hc => rw [ih hc]
  | image h _ ih =>
    cases hu.denotes_of_mem hm h rfl with
    | image hc => rw [ih hc]
  | sampledImage h _ ih =>
    cases hu.denotes_of_mem hm h rfl with
    | sampledImage hc => rw [ih hc]
  | pointer h _ ih =>
    cases hu.denotes_of_mem hm h rfl with
    | pointer hc => rw [ih hc]
  | function h _ ih =>
    cases hu.denotes_of_mem hm h rfl with
    | function hc => rw [ih hc]

/-- **An identifier has one type** where results are told apart. -/
theorem HasType.unique (hm : (m.filterMap (·.result?)).Nodup) {t u : Ty} (ht : HasType m x t)
    (hu : HasType m x u) : t = u := by
  obtain ⟨i, hi, hx, -, ht⟩ := ht
  obtain ⟨j, hj, hy, -, hu⟩ := hu
  rw [eq_of_result hm hj hi hy hx] at hu
  exact ht.unique hm hu

end NodeShader.Spirv
