import NodeShader.Proofs.Stage.Arithmetic

/-!
# The code of comparisons and vectors

Nodes whose output port is computed by one instruction from what flows into the inputs
(`writes_define`), or is bound to what flows in (`writes_bind`).  For each kind it remains to say why
the instruction fits the types of the ports.
-/

namespace NodeShader

open Spirv

namespace ValueType

theorem scalar_shape_of_isFloating {t : ValueType} (h : t.isFloating = true) :
    ∃ w, t.scalar.shape = .float w := by
  have hall : ∀ t ∈ values, t.isFloating = true →
      t.scalar.shape = .float 32 ∨ t.scalar.shape = .float 16 := by decide
  rcases hall t (mem_values (isValue_of_isNumeric (by rw [isNumeric, h, Bool.true_or]))) h with h | h
  · exact ⟨_, h⟩
  · exact ⟨_, h⟩

theorem scalar_eq_self {t : ValueType} (h : t.isValue = true) (h1 : t.size = 1) : t.scalar = t := by
  have hall : ∀ t ∈ values, t.size = 1 → t.scalar = t := by decide
  exact hall t (mem_values h) h1

theorem size_ne_one_of_isVector {t : ValueType} (h : t.isVector = true) : t.size ≠ 1 := by
  rw [isVector, Bool.and_eq_true, decide_eq_true_eq] at h
  omega

theorem size_eq_one_of_not_isVector {t : ValueType} (hn : t.isNumeric = true)
    (h : t.isVector = false) : t.size = 1 := by
  rw [isVector, hn, Bool.true_and, decide_eq_false_iff_not] at h
  have := (size_bounds (isValue_of_isNumeric hn)).1
  omega

theorem isNumeric_of_isFloating {t : ValueType} (h : t.isFloating = true) : t.isNumeric = true := by
  rw [isNumeric, h, Bool.true_or]

theorem isFloating_of_isFloat {t : ValueType} (h : t.isFloat = true) : t.isFloating = true := by
  rw [isFloating, h, Bool.true_or]

theorem toNat_size {t : ValueType} (h : t.isValue = true) : t.size.toUInt32.toNat = t.size :=
  ModuleBuilder.toNat_toUInt32 (by have := size_bounds h; omega)

/-- The type of chosen components. -/
theorem withSize_shape {t : ValueType} {k : Nat} (h : t.isNumeric = true) (h1 : 1 ≤ k) (h4 : k ≤ 4) :
    (t.withSize k).isNumeric = true ∧ (t.withSize k).size = k ∧
      (t.withSize k).scalar = t.scalar := by
  have hall : ∀ t ∈ values, t.isNumeric = true → ∀ k ∈ [1, 2, 3, 4],
      (t.withSize (k : Nat)).isNumeric = true ∧ (t.withSize (k : Nat)).size = k ∧
        (t.withSize (k : Nat)).scalar = t.scalar := by decide
  refine hall t (mem_values (isValue_of_isNumeric h)) h k ?_
  simp only [List.mem_cons, List.not_mem_nil, or_false]
  omega

end ValueType

namespace Drafting

variable [NameLimit] {I : Interpretation} {p : StagePlan} {d d₁ d' : Draft} {Γ Γ' : Context I}
  {P : List UInt32} {i : Nat} {n : Node} {x t : UInt32} {u : Unit} {out : PortId} {v : I.Value}

/-- **A node whose output port is one instruction**, after what it needs was computed. -/
theorem writes_define {op : Opcode} {args : List UInt32} {c : Code} {Γ₁ : Context I} (hp : p.Planned)
    (hn : p.graph.nodes[i]? = some n) (hout : n.outputs = [out]) (hnew : d.values.lookup out = none)
    (he : d.Emits Γ [] c [] d₁ Γ₁ []) (hop : op.hasType = true ∧ op.hasResult = true)
    (hstep : ∀ y, Step (d₁.surroundings I) Γ₁ ⟨op, t :: y :: args⟩
      ((y, (p.typeOf out).shape, .value v) :: Γ₁) [])
    (hval : p.Exact I → ∃ N, ∀ fuel ≥ N, p.graph.nodeValue I p.typeOf d.fragment
      (p.graph.inputAt I p.typeOf d.fragment fuel) n out = some v)
    (h : Draws (define i out op t args) d₁ u d') : ∃ c vs Γ', d.Writes p Γ i c vs d' Γ' [] := by
  obtain ⟨y, e⟩ := define_spec (by rw [he.values]; exact hnew) hop hstep h
  have e := he.trans e
  refine ⟨_, _, _, .one hn hout e (.of_node hp hn ?_ (.inl List.mem_cons_self) ?_)⟩
  · rw [hout]
    exact List.mem_singleton_self _
  · rw [e.goes.fragment]
    exact hval

/-- **A node whose output port takes a value that exists.** -/
theorem writes_bind {c : Code} (hp : p.Planned) (hn : p.graph.nodes[i]? = some n)
    (hout : n.outputs = [out]) (hnew : d.values.lookup out = none)
    (he : d.Emits Γ [] c [] d₁ Γ' [])
    (hk : Known (d₁.surroundings I) Γ' x (p.typeOf out).shape (.value v))
    (hval : p.Exact I → ∃ N, ∀ fuel ≥ N, p.graph.nodeValue I p.typeOf d.fragment
      (p.graph.inputAt I p.typeOf d.fragment fuel) n out = some v)
    (h : Draws (Drafting.bind n out x) d₁ u d') : ∃ c vs Γ', d.Writes p Γ i c vs d' Γ' [] := by
  have e₂ := bind_spec (Γ := Γ') (by rw [he.values]; exact hnew) h
  have e := he.trans e₂
  refine ⟨_, _, _, .one hn hout e (.of_node hp hn ?_ (hk.mono e₂.le) ?_)⟩
  · rw [hout]
    exact List.mem_singleton_self _
  · rw [e.goes.fragment]
    exact hval

/-- What flows into a port, as a value and its meaning in the draft at the start of a step. -/
theorem flows_value {q : PortId} (hq : d.Quiet d₁) (h : d₁.Flows p Γ q x) :
    ∃ v, Known (d₁.surroundings I) Γ x (p.typeOf q).shape (.value v) ∧
      (p.Exact I → p.graph.Supplies p.typeOf d.fragment q v) := by
  obtain ⟨v, hk, hv⟩ := h
  refine ⟨v, hk, ?_⟩
  rw [← hq.goes.fragment]
  exact hv

/-! ### Constants, lengths and products -/

theorem writeConstant_spec {values : List Float} {scalar : ValueType} (hp : p.Planned)
    (hs : d.Sound P) (hn : p.graph.nodes[i]? = some n) (hk : n.kind = .constant)
    (hparams : n.params = .constant values scalar) (hout : n.outputs = [out])
    (ht : p.typeOf out = constantType values scalar) (hnew : d.values.lookup out = none)
    (h : Draws (defineKnown n out (constantType values scalar) values) d u d') :
    ∃ c vs Γ', d.Writes p Γ i c vs d' Γ' [] := by
  obtain ⟨x, e, hx⟩ := defineKnown_spec (I := I) (Γ := Γ) hs hnew h
  rw [← ht] at hx
  refine ⟨_, _, _, .one hn hout e (.of_node hp hn ?_ (.inr hx) fun _ => ⟨0, fun fuel _ => ?_⟩)⟩
  · rw [hout]
    exact List.mem_singleton_self _
  · simp only [Graph.nodeValue, hk, Graph.operationOf, hparams]

theorem writeLength_spec {a : PortId} (hp : p.Planned) (hs : d.Sound P)
    (hn : p.graph.nodes[i]? = some n) (hk : n.kind = .length) (hin : n.inputs = [a])
    (hout : n.outputs = [out]) (ha : (p.typeOf a).isFloating = true)
    (ht : p.typeOf out = (p.typeOf a).scalar) (hfed : d.Fed p Γ a)
    (hnew : d.values.lookup out = none)
    (h : Draws (do
      let type ← typeOf (p.typeOf out)
      let value ← operand p a
      define i out .extInst type [(← get).extended, Extended.length, value]) d u d') :
    ∃ c vs Γ', d.Writes p Γ i c vs d' Γ' [] := by
  have hva := ValueType.isValue_of_isNumeric (ValueType.isNumeric_of_isFloating ha)
  obtain ⟨type, d₁, h₁, h⟩ := draws_bind.1 h
  obtain ⟨-, q₁, htype⟩ := typeOf_spec hs h₁
  obtain ⟨x, d₂, h₂, h⟩ := draws_bind.1 h
  obtain ⟨q₂, hx⟩ := operand_spec hp (q₁.sound P hs) (hfed.quiet q₁) hva h₂
  have q := q₁.trans q₂
  obtain ⟨v, hkx, hv⟩ := flows_value q hx
  rw [draws_get_bind] at h
  have hsig : Signature .extInst [Extended.length] [(p.typeOf a).shape] (p.typeOf out).shape := by
    rw [ht, ← ValueType.shape_component hva]
    exact .length (ValueType.shape_isFloating ha)
  refine writes_define hp hn hout hnew q.emits ⟨rfl, rfl⟩
    (fun y => Step.ofExtended (htype.mono q₂.decls) (.one hkx) hsig) (fun he => ?_) h
  obtain ⟨N, hN⟩ := hv he
  refine ⟨N, fun fuel hfuel => ?_⟩
  simp only [Graph.nodeValue, hk, Graph.operationOf, hin, hN fuel hfuel]
  rfl

theorem writeDot_spec {a b : PortId} (hp : p.Planned) (hs : d.Sound P)
    (hn : p.graph.nodes[i]? = some n) (hk : n.kind = .dot) (hin : n.inputs = [a, b])
    (hout : n.outputs = [out]) (ha : (p.typeOf a).isFloating = true)
    (hb : p.typeOf b = p.typeOf a) (ht : p.typeOf out = (p.typeOf a).scalar)
    (hfed : ∀ q ∈ n.inputs, d.Fed p Γ q) (hnew : d.values.lookup out = none)
    (h : Draws (do
      let x ← operand p a
      let y ← operand p b
      let type ← typeOf (p.typeOf out)
      define i out (if (p.typeOf a).isVector then .dot else .fMul) type [x, y]) d u d') :
    ∃ c vs Γ', d.Writes p Γ i c vs d' Γ' [] := by
  have hna := ValueType.isNumeric_of_isFloating ha
  have hva := ValueType.isValue_of_isNumeric hna
  rw [hin] at hfed
  obtain ⟨x, d₁, h₁, h⟩ := draws_bind.1 h
  obtain ⟨q₁, hx⟩ := operand_spec hp hs (hfed a (by simp)) hva h₁
  obtain ⟨y, d₂, h₂, h⟩ := draws_bind.1 h
  obtain ⟨q₂, hy⟩ := operand_spec hp (q₁.sound P hs) ((hfed b (by simp)).quiet q₁)
    (by rw [hb]; exact hva) h₂
  obtain ⟨type, d₃, h₃, h⟩ := draws_bind.1 h
  obtain ⟨-, q₃, htype⟩ := typeOf_spec (q₂.sound P (q₁.sound P hs)) h₃
  have q := (q₁.trans q₂).trans q₃
  obtain ⟨v, hkx, hv⟩ := flows_value q (hx.mono (q₂.trans q₃).goes (List.Subset.refl _))
  obtain ⟨w, hky, hw⟩ := flows_value q (hy.mono q₃.goes (List.Subset.refl _))
  rw [hb] at hky
  have hval : p.Exact I → ∃ N, ∀ fuel ≥ N, p.graph.nodeValue I p.typeOf d.fragment
      (p.graph.inputAt I p.typeOf d.fragment fuel) n out =
      some (I.apply (if (p.typeOf a).isVector then .dot else .fMul) [] (p.typeOf out).shape [v, w]) := by
    intro he
    obtain ⟨N, hN⟩ := hv he
    obtain ⟨M, hM⟩ := hw he
    refine ⟨max N M, fun fuel hfuel => ?_⟩
    simp only [Graph.nodeValue, hk, Graph.operationOf, hin, hN fuel (by omega), hM fuel (by omega)]
    rfl
  cases hvec : (p.typeOf a).isVector with
  | true =>
    rw [hvec] at h hval
    have hsig : Signature .dot [] [(p.typeOf a).shape, (p.typeOf a).shape] (p.typeOf out).shape := by
      obtain ⟨c, hc⟩ := ValueType.scalar_shape_of_isFloating ha
      rw [ht, ValueType.shape_of_size_ne_one hva (ValueType.size_ne_one_of_isVector hvec), hc]
      exact .dot
    exact writes_define hp hn hout hnew q.emits ⟨rfl, rfl⟩
      (fun y => Step.ofValues rfl (by decide) htype (.two hkx hky) hsig) hval h
  | false =>
    rw [hvec] at h hval
    have hsig : Signature .fMul [] [(p.typeOf a).shape, (p.typeOf a).shape] (p.typeOf out).shape := by
      rw [ht, ValueType.scalar_eq_self hva (ValueType.size_eq_one_of_not_isVector hna hvec)]
      exact .floating (by decide) (ValueType.shape_isFloating ha)
    exact writes_define hp hn hout hnew q.emits ⟨rfl, rfl⟩
      (fun y => Step.ofValues rfl (by decide) htype (.two hkx hky) hsig) hval h

/-! ### Comparisons -/

omit [NameLimit] in
/-- The instructions of a comparison. -/
theorem comparison_select {test : Comparison} {floating integral : Opcode}
    (h : test.select? = some (floating, integral)) :
    test.instruction? false = some floating ∧ test.instruction? true = some integral := by
  cases test with
  | unknown code => cases h
  | _ => cases h; exact ⟨rfl, rfl⟩

omit [NameLimit] in
/-- Comparisons are of numbers, or of signed words. -/
theorem comparison_signature {test : Comparison} {op : Opcode} {t : ValueType}
    (ht : t ∈ [ValueType.float, .half, .int]) (h : test.instruction? t.isInt = some op) :
    Signature op [] [t.shape, t.shape] .bool ∧ op.layout = .values 0 ∧ op ≠ .extInst := by
  have hplain : ∀ op ∈ floatingComparisons ++ integralComparisons,
      op.layout = .values 0 ∧ op ≠ .extInst := by decide
  simp only [List.mem_cons, List.not_mem_nil, or_false] at ht
  have hfloating : ∀ op, test.instruction? false = some op → op ∈ floatingComparisons := by
    intro op h
    cases test <;> cases h <;> decide
  have hintegral : ∀ op, test.instruction? true = some op → op ∈ integralComparisons := by
    intro op h
    cases test <;> cases h <;> decide
  rcases ht with rfl | rfl | rfl
  · exact ⟨.compareFloating (hfloating op h), hplain op (List.mem_append_left _ (hfloating op h))⟩
  · exact ⟨.compareFloating (hfloating op h), hplain op (List.mem_append_left _ (hfloating op h))⟩
  · exact ⟨.compareIntegral (hintegral op h), hplain op (List.mem_append_right _ (hintegral op h))⟩

/-- **The code of a comparison** compares what flows in. -/
theorem writeCompare_computes {test : Comparison} {op : Opcode} {a b : PortId} {v w : I.Value}
    (hs : d.Sound P) (hparams : n.params = .compare test)
    (hop : test.instruction? (p.typeOf a).isInt = some op)
    (ha : p.typeOf a ∈ [ValueType.float, .half, .int]) (hb : p.typeOf b = p.typeOf a)
    (hv : d.Receives p Γ a v) (hw : d.Receives p Γ b w) (hnew : d.values.lookup out = none)
    (h : Draws (writeCompare p i n a b out) d u d') :
    ∃ c x Γ', d.Emits Γ [] c [(out, x)] d' Γ' [] ∧
      Known (d'.surroundings I) Γ' x .bool (.value (I.apply op [] .bool [v, w])) := by
  have hva : (p.typeOf a).isValue = true := by
    have hall : ∀ t ∈ [ValueType.float, .half, .int], t.isValue = true := by decide
    exact hall _ ha
  rw [writeCompare, hparams] at h
  dsimp only at h
  cases hsel : test.select? with
  | none =>
    rw [hsel] at h
    exact absurd h not_draws_unsupported
  | some ops =>
    obtain ⟨floating, integral⟩ := ops
    obtain ⟨hif, hit⟩ := comparison_select hsel
    have hselect : (if (p.typeOf a).isInt then integral else floating) = op := by
      cases hint : (p.typeOf a).isInt with
      | false =>
        rw [hint, hif] at hop
        exact Option.some.inj hop
      | true =>
        rw [hint, hit] at hop
        exact Option.some.inj hop
    rw [hsel] at h
    dsimp only at h
    rw [hselect] at h
    obtain ⟨type, d₁, h₁, h⟩ := draws_bind.1 h
    obtain ⟨q₁, htype⟩ := typeBool_spec hs h₁
    obtain ⟨x, d₂, h₂, h⟩ := draws_bind.1 h
    obtain ⟨q₂, hx⟩ := operand_receives (q₁.sound P hs) (hv.quiet q₁) hva h₂
    obtain ⟨y, d₃, h₃, h⟩ := draws_bind.1 h
    obtain ⟨q₃, hy⟩ := operand_receives (q₂.sound P (q₁.sound P hs)) (hw.quiet (q₁.trans q₂))
      (by rw [hb]; exact hva) h₃
    rw [hb] at hy
    have q := (q₁.trans q₂).trans q₃
    have htype := htype.mono (q₂.trans q₃).decls
    obtain ⟨hsig, hlay, hne⟩ := comparison_signature ha hop
    obtain ⟨z, e⟩ := define_spec (G := fun z => (z, .bool, .value (I.apply op [] .bool [v, w])) :: Γ)
      (by rw [q.values]; exact hnew) hsig.typed
      (fun z => Step.ofValues hlay hne htype (.two (hx.mono q₃.le) hy) hsig) h
    exact ⟨_, z, _, e.after q, .inl List.mem_cons_self⟩

theorem writeCompare_spec {test : Comparison} {a b : PortId} (hp : p.Planned) (hs : d.Sound P)
    (hn : p.graph.nodes[i]? = some n) (hk : n.kind = .compare) (hparams : n.params = .compare test)
    (hin : n.inputs = [a, b]) (hout : n.outputs = [out])
    (ha : p.typeOf a ∈ [ValueType.float, .half, .int]) (hb : p.typeOf b = p.typeOf a)
    (ht : p.typeOf out = .bool) (hfed : ∀ q ∈ n.inputs, d.Fed p Γ q)
    (hnew : d.values.lookup out = none) (h : Draws (writeCompare p i n a b out) d u d') :
    ∃ c vs Γ', d.Writes p Γ i c vs d' Γ' [] := by
  have hmem : out ∈ n.outputs := by rw [hout]; exact List.mem_singleton_self _
  have hva : (p.typeOf a).isValue = true := by
    have hall : ∀ t ∈ [ValueType.float, .half, .int], t.isValue = true := by decide
    exact hall _ ha
  rw [hin] at hfed
  obtain ⟨v, hv, hsv⟩ := (hfed a (by simp)).receives hp hva
  obtain ⟨w, hw, hsw⟩ := (hfed b (by simp)).receives hp (by rw [hb]; exact hva)
  cases hop : test.instruction? (p.typeOf a).isInt with
  | none =>
    have hsel : test.select? = none := by
      cases test <;> cases hint : (p.typeOf a).isInt <;> rw [hint] at hop <;> cases hop
      all_goals rfl
    rw [writeCompare, hparams] at h
    dsimp only at h
    rw [hsel] at h
    exact absurd h not_draws_unsupported
  | some op =>
    obtain ⟨c, x, Γ', e, hk'⟩ := writeCompare_computes hs hparams hop ha hb hv hw hnew h
    have hshape : (p.typeOf out).shape = .bool := by rw [ht]; rfl
    refine ⟨c, _, Γ', .one hn hout e (.of_node hp hn hmem (by rw [hshape]; exact hk') fun he => ?_)⟩
    obtain ⟨N, hN⟩ := hsv he
    obtain ⟨M, hM⟩ := hsw he
    refine ⟨max N M, fun fuel hfuel => ?_⟩
    rw [e.goes.fragment]
    simp only [Graph.nodeValue, hk, Graph.operationOf, hparams, hin, hN fuel (by omega),
      hM fuel (by omega), hop]
    rfl

/-! ### Components -/

omit [NameLimit] in
/-- A vector of some size from one value for each component. -/
theorem construct_replicate {t u : ValueType} {k : Nat} (ht : t.isValue = true) (h1 : t.size = 1)
    (hu : u.isValue = true) (hk : u.size = k) (hne : k ≠ 1) (hs : u.scalar = t.scalar) :
    Signature .compositeConstruct [] (List.replicate k t.shape) u.shape := by
  have hself := ValueType.scalar_eq_self ht h1
  rw [ValueType.shape_of_size_ne_one hu (by omega), hs, hself]
  refine .construct ?_ ?_ ?_
  · rw [← hself, ← ValueType.shape_component ht]
    exact ValueType.shape_component_isScalar ht
  · intro ty hty
    rw [List.eq_of_mem_replicate hty, ValueType.shape_component ht, hself]
  · have htotal : ∀ k : Nat, total Ty.size (List.replicate k t.shape) = k := by
      intro k
      induction k with
      | zero => rfl
      | succ k ih =>
        rw [List.replicate_succ, total, ih, ValueType.shape_size ht, h1]
        omega
    rw [htotal, ValueType.toNat_size hu, hk]

omit [NameLimit] in
/-- An operand that stands for every component. -/
theorem operands_replicate {s : Surroundings I} {ty : Ty} (h : Known s Γ x ty (.value v))
    {α : Type} (l : List α) :
    Operands s Γ (l.map fun _ => x) (l.map fun _ => (ty, v)) := by
  induction l with
  | nil => exact .nil
  | cons a l ih => exact .cons h ih

section Swizzled

variable {t u : ValueType} {k : Nat} {ks : List Nat}

omit [NameLimit] in
theorem swizzled_one (h1 : t.size = 1) : Graph.swizzled I t u [k] v = v := by
  unfold Graph.swizzled
  split <;> simp_all

omit [NameLimit] in
theorem swizzled_repeat (h1 : t.size = 1) (hne : ks.length ≠ 1) : Graph.swizzled I t u ks v =
    I.apply .compositeConstruct [] u.shape (ks.map fun _ => v) := by
  unfold Graph.swizzled
  split <;> simp_all

omit [NameLimit] in
theorem swizzled_extract (h1 : t.size ≠ 1) : Graph.swizzled I t u [k] v =
    I.apply .compositeExtract [k.toUInt32] u.shape [v] := by
  unfold Graph.swizzled
  split <;> simp_all

omit [NameLimit] in
theorem swizzled_shuffle (h1 : t.size ≠ 1) (hne : ks.length ≠ 1) : Graph.swizzled I t u ks v =
    I.apply .vectorShuffle (ks.map Nat.toUInt32) u.shape [v, v] := by
  unfold Graph.swizzled
  split <;> simp_all

end Swizzled

theorem writeSwizzle_spec {selector : String} {ks : List Nat} {a : PortId} (hp : p.Planned)
    (hs : d.Sound P) (hn : p.graph.nodes[i]? = some n) (hk : n.kind = .swizzle)
    (hparams : n.params = .swizzle selector) (hks : selectorComponents? selector = some ks)
    (hin : n.inputs = [a]) (hout : n.outputs = [out]) (ha : (p.typeOf a).isNumeric = true)
    (hlt : ∀ k ∈ ks, k < (p.typeOf a).size) (ht : p.typeOf out = (p.typeOf a).withSize ks.length)
    (h1 : 1 ≤ ks.length) (h4 : ks.length ≤ 4) (hfed : d.Fed p Γ a)
    (hnew : d.values.lookup out = none) (h : Draws (writeSwizzle p i n a out) d u d') :
    ∃ c vs Γ', d.Writes p Γ i c vs d' Γ' [] := by
  have hva := ValueType.isValue_of_isNumeric ha
  obtain ⟨hno, hso, hco⟩ := ValueType.withSize_shape ha h1 h4
  rw [← ht] at hno hso hco
  have hvo := ValueType.isValue_of_isNumeric hno
  rw [writeSwizzle, hparams] at h
  dsimp only at h
  rw [hks, Option.getD_some] at h
  obtain ⟨x, d₁, h₁, h⟩ := draws_bind.1 h
  obtain ⟨q₁, hx⟩ := operand_spec hp hs hfed hva h₁
  obtain ⟨type, d₂, h₂, h⟩ := draws_bind.1 h
  obtain ⟨-, q₂, htype⟩ := typeOf_spec (q₁.sound P hs) h₂
  have q := q₁.trans q₂
  obtain ⟨v, hkx, hv⟩ := flows_value q (hx.mono q₂.goes (List.Subset.refl _))
  have hval : ∀ w, Graph.swizzled I (p.typeOf a) (p.typeOf out) ks v = w → p.Exact I →
      ∃ N, ∀ fuel ≥ N, p.graph.nodeValue I p.typeOf d.fragment
        (p.graph.inputAt I p.typeOf d.fragment fuel) n out = some w := by
    intro w hw he
    obtain ⟨N, hN⟩ := hv he
    refine ⟨N, fun fuel hfuel => ?_⟩
    simp only [Graph.nodeValue, hk, Graph.operationOf, hparams, hin, hks, hN fuel hfuel]
    rw [← hw]
    rfl
  -- components of vectors are numbered below its size
  have hbound : ∀ k ∈ ks, k.toUInt32 < (p.typeOf a).size.toUInt32 := by
    intro k hkm
    have hsize := ValueType.size_bounds hva
    rw [UInt32.lt_iff_toNat_lt, ValueType.toNat_size hva, ModuleBuilder.toNat_toUInt32]
    · exact hlt k hkm
    · have := hlt k hkm
      omega
  split at h
  · -- a scalar that stays one
    rename_i hsize hcomps
    obtain ⟨k, hk1, -⟩ := List.map_eq_singleton_iff.1 hcomps
    have hsame : (p.typeOf out).shape = (p.typeOf a).shape := by
      rw [← ValueType.scalar_eq_self hvo (by rw [hso, hk1]; rfl), hco,
        ValueType.scalar_eq_self hva hsize]
    refine writes_bind hp hn hout hnew q.emits (v := v) (by rw [hsame]; exact hkx)
      (hval v ?_) h
    rw [hk1, swizzled_one hsize]
  · -- a scalar that is repeated
    rename_i hsize hcomps
    have hne : ks.length ≠ 1 := fun hlen => by
      obtain ⟨k, hk1⟩ := List.length_eq_one_iff.1 hlen
      exact hcomps _ (by rw [hk1]; rfl)
    rw [List.map_map] at h
    have hsig : Signature .compositeConstruct []
        ((ks.map fun _ => ((p.typeOf a).shape, v)).map (·.1)) (p.typeOf out).shape := by
      rw [List.map_map, show ((fun e : Ty × I.Value => e.1) ∘ fun _ : Nat => ((p.typeOf a).shape, v)) =
        fun _ => (p.typeOf a).shape from rfl, List.map_const']
      exact construct_replicate hva hsize hvo hso hne hco
    refine writes_define hp hn hout hnew q.emits ⟨rfl, rfl⟩
      (fun y => Step.ofValues rfl (by decide) htype (operands_replicate hkx ks) hsig)
      (hval _ ?_) h
    rw [List.map_map]
    exact swizzled_repeat hsize hne
  · -- one component of a vector
    rename_i hcomps hsize
    obtain ⟨k, hk1, hk2⟩ := List.map_eq_singleton_iff.1 hcomps
    have hsig : Signature .compositeExtract [k.toUInt32] [(p.typeOf a).shape]
        (p.typeOf out).shape := by
      rw [ValueType.shape_of_size_ne_one hva hsize,
        ← ValueType.scalar_eq_self hvo (by rw [hso, hk1]; rfl), hco]
      exact .extract (hbound k (by rw [hk1]; exact List.mem_singleton_self _))
    rw [← hk2] at h
    exact writes_define hp hn hout hnew q.emits ⟨rfl, rfl⟩
      (fun y => Step.ofLeading (show Opcode.compositeExtract.layout = .leading [x].length from rfl)
        (by decide) htype (.one hkx) hsig)
      (hval _ (by rw [hk1]; exact swizzled_extract hsize)) h
  · -- several components of a vector
    rename_i hsize hcomps _
    have hne : ks.length ≠ 1 := fun hlen => by
      obtain ⟨k, hk1⟩ := List.length_eq_one_iff.1 hlen
      exact hcomps _ (by rw [hk1]; rfl)
    have hsig : Signature .vectorShuffle (ks.map Nat.toUInt32)
        [(p.typeOf a).shape, (p.typeOf a).shape] (p.typeOf out).shape := by
      rw [ValueType.shape_of_size_ne_one hva hsize,
        ValueType.shape_of_size_ne_one hvo (by rw [hso]; exact hne), hco]
      refine .shuffle ?_ ?_ ?_
      · intro c hc
        obtain ⟨k, hkm, rfl⟩ := List.mem_map.1 hc
        exact hbound k hkm
      · rw [UInt32.le_iff_toNat_le, ValueType.toNat_size hva]
        exact (ValueType.size_bounds hva).2
      · rw [List.length_map, ValueType.toNat_size hvo, hso]
    exact writes_define hp hn hout hnew q.emits ⟨rfl, rfl⟩
      (fun y => Step.ofLeading
        (show Opcode.vectorShuffle.layout = .leading [x, x].length from rfl) (by decide) htype
        (.two hkx hkx) hsig)
      (hval _ (swizzled_shuffle hsize hne)) h

omit [NameLimit] in
/-- The sizes of some types are those of what they are written as. -/
theorem total_shape {qs : List PortId} (h : ∀ q ∈ qs, (p.typeOf q).isValue = true) :
    total Ty.size (qs.map fun q => (p.typeOf q).shape) = total (fun q => (p.typeOf q).size) qs := by
  induction qs with
  | nil => rfl
  | cons q qs ih =>
    rw [List.map_cons, total, total, ih fun q hq => h q (List.mem_cons_of_mem _ hq),
      ValueType.shape_size (h q List.mem_cons_self)]

theorem writeCombine_spec (hp : p.Planned) (hs : d.Sound P) (hn : p.graph.nodes[i]? = some n)
    (hk : n.kind = .combine) (hout : n.outputs = [out]) (hvec : (p.typeOf out).isVector = true)
    (hin : ∀ q ∈ n.inputs, (p.typeOf q).isNumeric = true ∧
      (p.typeOf q).scalar = (p.typeOf out).scalar)
    (htotal : total (fun q => (p.typeOf q).size) n.inputs = (p.typeOf out).size)
    (hfed : ∀ q ∈ n.inputs, d.Fed p Γ q) (hnew : d.values.lookup out = none)
    (h : Draws (do
      let args ← n.inputs.mapM (operand p)
      define i out .compositeConstruct (← typeOf (p.typeOf out)) args) d u d') :
    ∃ c vs Γ', d.Writes p Γ i c vs d' Γ' [] := by
  have hvi : ∀ q ∈ n.inputs, (p.typeOf q).isValue = true := fun q hq =>
    ValueType.isValue_of_isNumeric (hin q hq).1
  obtain ⟨args, d₁, h₁, h⟩ := draws_bind.1 h
  obtain ⟨q₁, hflows⟩ := operands_spec hp hs hfed hvi h₁
  obtain ⟨type, d₂, h₂, h⟩ := draws_bind.1 h
  obtain ⟨hvo, q₂, htype⟩ := typeOf_spec (q₁.sound P hs) h₂
  have q := q₁.trans q₂
  obtain ⟨vs, hops, hlen, hsup⟩ := Draft.operands_of_flows hflows
  have h1 : ((n.inputs.map fun q => (p.typeOf q).shape).zip vs).map (·.1) =
      n.inputs.map fun q => (p.typeOf q).shape := by
    rw [List.map_fst_zip (by simp [hlen])]
  have h2 : ((n.inputs.map fun q => (p.typeOf q).shape).zip vs).map (·.2) = vs := by
    rw [List.map_snd_zip (by simp [hlen])]
  have hsig : Signature .compositeConstruct []
      (((n.inputs.map fun q => (p.typeOf q).shape).zip vs).map (·.1)) (p.typeOf out).shape := by
    rw [h1, ValueType.shape_of_size_ne_one hvo (ValueType.size_ne_one_of_isVector hvec)]
    refine .construct ?_ ?_ ?_
    · rw [← ValueType.shape_component hvo]
      exact ValueType.shape_component_isScalar hvo
    · intro ty hty
      obtain ⟨q, hq, rfl⟩ := List.mem_map.1 hty
      rw [ValueType.shape_component (hvi q hq), (hin q hq).2]
    · rw [total_shape hvi, htotal, ValueType.toNat_size hvo]
  refine writes_define hp hn hout hnew q.emits ⟨rfl, rfl⟩
    (fun y => Step.ofValues rfl (by decide) htype (hops.mono q₂.le) hsig) (fun he => ?_) h
  obtain ⟨N, hN⟩ := Graph.supplies_mapM (hsup he)
  refine ⟨N, fun fuel hfuel => ?_⟩
  have := hN fuel hfuel
  rw [q₁.goes.fragment] at this
  rw [h2]
  simp only [Graph.nodeValue, hk, Graph.operationOf, this]
  rfl

omit [NameLimit] in
/-- The value of an output of a separate node. -/
theorem separate_nodeValue {g : Graph} {τ : PortId → ValueType} {fragment : Bool} {a : PortId}
    {input : PortId → Option I.Value} (hk : n.kind = .separate) (hin : n.inputs = [a])
    (ha : input a = some v) :
    g.nodeValue I τ fragment input n out = some (if (τ a).size = 1 then v
      else I.apply .compositeExtract [(n.outputs.idxOf out).toUInt32] (τ out).shape [v]) := by
  simp only [Graph.nodeValue, hk, Graph.operationOf, hin, ha]
  show (if (τ a).size = 1 then some v else some _) = _
  split <;> rfl

section Separate

variable {a : PortId}

/-- One output of a separate node. -/
def separateOutput (p : StagePlan) (i : Nat) (n : Node) (a : PortId) (x : UInt32)
    (e : PortId × Nat) : Drafting Unit := do
  let port ← demand (p.graph.port? e.1)
  if port.isConnected && e.2 < (p.typeOf a).size then
    if (p.typeOf a).size = 1 then Drafting.bind n e.1 x
    else
      let type ← typeOf (p.typeOf e.1)
      define i e.1 .compositeExtract type [x, e.2.toUInt32]

theorem separateOutput_spec {k : Nat} (hp : p.Planned) (hs : d.Sound P)
    (hn : p.graph.nodes[i]? = some n) (hk : n.kind = .separate) (hin : n.inputs = [a])
    (ha : (p.typeOf a).isNumeric = true) (ho : n.outputs[k]? = some out)
    (ht : p.typeOf out = (p.typeOf a).scalar)
    (hlt : ∀ port, p.graph.port? out = some port → port.isConnected = true → k < (p.typeOf a).size)
    (hnew : d.values.lookup out = none) (hx : d.Flows p Γ a x)
    (h : Draws (separateOutput p i n a x (out, k)) d u d') :
    ∃ c vs Γ', d.Emits Γ [] c vs d' Γ' [] ∧ (∀ e ∈ vs, e.1 = out) ∧
      ∀ port, p.graph.port? out = some port → port.isConnected = true →
        ∃ y, d'.values.lookup out = some y ∧ d'.Gives p Γ' out y := by
  have hva := ValueType.isValue_of_isNumeric ha
  have hmem : out ∈ n.outputs := List.mem_of_getElem? ho
  have hidx : n.outputs.idxOf out = k := by
    obtain ⟨hlen, rfl⟩ := List.getElem?_eq_some_iff.1 ho
    exact (hp.consistent.nodup_ports hn .output).idxOf_getElem k hlen
  obtain ⟨v, hkx, hv⟩ := hx
  have hval : ∀ w, (if (p.typeOf a).size = 1 then v
      else I.apply .compositeExtract [k.toUInt32] (p.typeOf out).shape [v]) = w → p.Exact I →
      ∃ N, ∀ fuel ≥ N, p.graph.nodeValue I p.typeOf d.fragment
        (p.graph.inputAt I p.typeOf d.fragment fuel) n out = some w := by
    intro w hw he
    obtain ⟨N, hN⟩ := hv he
    refine ⟨N, fun fuel hfuel => ?_⟩
    rw [separate_nodeValue hk hin (hN fuel hfuel), hidx, hw]
  rw [separateOutput] at h
  obtain ⟨port, d₁, hport, h⟩ := draws_bind.1 h
  obtain ⟨hsome, hd₁⟩ := draws_demand.1 hport
  rw [hd₁] at h
  by_cases hc : port.isConnected = true ∧ k < (p.typeOf a).size
  · rw [if_pos (by simpa using hc)] at h
    by_cases hsize : (p.typeOf a).size = 1
    · rw [if_pos hsize] at h
      have e := bind_spec (Γ := Γ) hnew h
      refine ⟨_, _, Γ, e, by simp, fun _ _ _ => ⟨x, ?_, .of_node hp hn hmem (v := v) ?_ ?_⟩⟩
      · rw [e.values]
        exact List.lookup_cons_self
      · rw [ht, ValueType.scalar_eq_self hva hsize]
        exact hkx.mono e.le
      · rw [e.goes.fragment]
        exact hval v (if_pos hsize)
    · rw [if_neg hsize] at h
      obtain ⟨type, d₂, h₂, h⟩ := draws_bind.1 h
      obtain ⟨-, q, htype⟩ := typeOf_spec hs h₂
      have hsig : Signature .compositeExtract [k.toUInt32] [(p.typeOf a).shape]
          (p.typeOf out).shape := by
        rw [ValueType.shape_of_size_ne_one hva hsize, ht]
        refine .extract ?_
        have hb := ValueType.size_bounds hva
        rw [UInt32.lt_iff_toNat_lt, ValueType.toNat_size hva, ModuleBuilder.toNat_toUInt32 (by omega)]
        exact hc.2
      obtain ⟨y, e⟩ := define_spec (by rw [q.values]; exact hnew) ⟨rfl, rfl⟩
        (fun y => Step.ofLeading
          (show Opcode.compositeExtract.layout = .leading [x].length from rfl) (by decide) htype
          (.one (hkx.mono q.le)) hsig) h
      have e := e.after q
      refine ⟨_, _, _, e, by simp, fun _ _ _ =>
        ⟨y, ?_, .of_node hp hn hmem (.inl List.mem_cons_self) ?_⟩⟩
      · rw [e.values]
        exact List.lookup_cons_self
      · rw [e.goes.fragment]
        exact hval _ (if_neg hsize)
  · rw [if_neg (by simpa using hc)] at h
    obtain ⟨-, rfl⟩ := draws_pure.1 h
    refine ⟨_, _, Γ, (Draft.Quiet.refl _).emits, fun e he => (by cases he), fun port' hp' hc' => ?_⟩
    rw [hsome] at hp'
    cases hp'
    exact absurd ⟨hc', hlt port hsome hc'⟩ hc

/-- The outputs of a separate node, one after another. -/
theorem separateOutputs_spec {L : List (PortId × Nat)} (hp : p.Planned) (hs : d.Sound P)
    (hn : p.graph.nodes[i]? = some n) (hk : n.kind = .separate) (hin : n.inputs = [a])
    (ha : (p.typeOf a).isNumeric = true)
    (hports : ∀ (k : Nat) (out : PortId), n.outputs[k]? = some out →
      p.typeOf out = (p.typeOf a).scalar ∧
        ∀ port, p.graph.port? out = some port → port.isConnected = true → k < (p.typeOf a).size)
    (hL : ∀ e ∈ L, n.outputs[e.2]? = some e.1) (hnd : (L.map (·.1)).Nodup)
    (hnew : ∀ e ∈ L, d.values.lookup e.1 = none) (hx : d.Flows p Γ a x)
    (h : Draws (L.forM (separateOutput p i n a x)) d u d') :
    ∃ c vs Γ', d.Emits Γ [] c vs d' Γ' [] ∧ (∀ e ∈ vs, e.1 ∈ L.map (·.1)) ∧
      ∀ e ∈ L, ∀ port, p.graph.port? e.1 = some port → port.isConnected = true →
        ∃ y, d'.values.lookup e.1 = some y ∧ d'.Gives p Γ' e.1 y := by
  induction L generalizing d Γ with
  | nil =>
    obtain ⟨-, rfl⟩ := draws_pure.1 h
    exact ⟨_, [], Γ, (Draft.Quiet.refl d').emits, fun e he => (by cases he), fun e he => (by cases he)⟩
  | cons e L ih =>
    obtain ⟨out, k⟩ := e
    rw [List.map_cons, List.nodup_cons] at hnd
    obtain ⟨_, d₁, h₁, h⟩ := draws_bind.1
      (show Draws (separateOutput p i n a x (out, k) >>= fun _ =>
        L.forM (separateOutput p i n a x)) d u d' from h)
    have ho := hL (out, k) List.mem_cons_self
    obtain ⟨c₁, vs₁, Γ₁, e₁, hv₁, hg₁⟩ := separateOutput_spec hp hs hn hk hin ha ho
      (hports k out ho).1 (hports k out ho).2 (hnew (out, k) List.mem_cons_self) hx h₁
    -- the other outputs are still without values
    have hnew₁ : ∀ e ∈ L, d₁.values.lookup e.1 = none := by
      intro e he
      rw [e₁.values, List.lookup_append, hnew e (List.mem_cons_of_mem _ he), Option.or_none,
        List.lookup_eq_none_iff]
      intro e' he'
      have hne : e.1 ≠ e'.1 := by
        rw [hv₁ e' he']
        rintro rfl
        exact hnd.1 (List.mem_map.2 ⟨e, he, rfl⟩)
      simpa using hne
    obtain ⟨c₂, vs₂, Γ₂, e₂, hv₂, hg₂⟩ := ih (e₁.sound P hs)
      (fun e he => hL e (List.mem_cons_of_mem _ he)) hnd.2 hnew₁ (hx.mono e₁.goes e₁.runs.subset) h
    refine ⟨_, _, Γ₂, e₁.trans e₂, ?_, ?_⟩
    · intro e he
      rcases List.mem_append.1 he with he | he
      · exact List.mem_cons_of_mem _ (hv₂ e he)
      · rw [hv₁ e he]
        exact List.mem_cons_self
    · intro e he port hport hc
      rcases List.mem_cons.1 he with rfl | he
      · obtain ⟨y, hy, hg⟩ := hg₁ port hport hc
        refine ⟨y, ?_, hg.mono e₂.goes e₂.runs.subset⟩
        rw [e₂.values]
        refine Draft.lookup_append (fun e' he' => ?_) hy
        obtain ⟨e'', he'', heq⟩ := List.mem_map.1 (hv₂ e' he')
        rw [← heq]
        exact hnew₁ e'' he''
      · exact hg₂ e he port hport hc

theorem writeSeparate_spec (hp : p.Planned) (hs : d.Sound P)
    (hn : p.graph.nodes[i]? = some n) (hk : n.kind = .separate) (hin : n.inputs = [a])
    (ha : (p.typeOf a).isNumeric = true)
    (hports : ∀ (k : Nat) (out : PortId), n.outputs[k]? = some out →
      p.typeOf out = (p.typeOf a).scalar ∧
        ∀ port, p.graph.port? out = some port → port.isConnected = true → k < (p.typeOf a).size)
    (hfed : d.Fed p Γ a) (hnew : ∀ out ∈ n.outputs, d.values.lookup out = none)
    (h : Draws (writeSeparate p i n a) d u d') : ∃ c vs Γ', d.Writes p Γ i c vs d' Γ' [] := by
  rw [writeSeparate] at h
  obtain ⟨x, d₁, h₁, h⟩ := draws_bind.1 h
  obtain ⟨q, hx⟩ := operand_spec hp hs hfed (ValueType.isValue_of_isNumeric ha) h₁
  have hfst : n.outputs.zipIdx.map (·.1) = n.outputs := List.zipIdx_map_fst 0 n.outputs
  have hget : ∀ e ∈ n.outputs.zipIdx, n.outputs[e.2]? = some e.1 := fun e he =>
    List.mem_zipIdx_iff_getElem?.1 he
  obtain ⟨c, vs, Γ', e, hv, hg⟩ := separateOutputs_spec hp (q.sound P hs) hn hk hin ha hports hget
    (by rw [hfst]; exact hp.consistent.nodup_ports hn .output)
    (fun e he => by rw [q.values]; exact hnew e.1 (List.mem_of_getElem? (hget e he))) hx h
  rw [hfst] at hv
  refine ⟨c, vs, Γ', e.after q, ?_, fun e he => ⟨i, n, .self, hn, hv e he⟩⟩
  intro m hm out ho port hport hc _
  rw [hn] at hm
  cases hm
  obtain ⟨k, hk⟩ := List.mem_iff_getElem?.1 ho
  exact hg (out, k) (List.mem_zipIdx_iff_getElem?.2 hk) port hport hc

end Separate

/-! ### Colours -/

omit [NameLimit] in
/-- The floating point types of full precision. -/
theorem float_cases {t : ValueType} (h : t.isFloat = true) :
    t = .float ∨ t = .float2 ∨ t = .float3 ∨ t = .float4 := by
  have hall : ∀ t ∈ ValueType.values, t.isFloat = true →
      t = .float ∨ t = .float2 ∨ t = .float3 ∨ t = .float4 := by decide
  exact hall t (ValueType.mem_values (ValueType.isValue_of_isNumeric
    (ValueType.isNumeric_of_isFloating (ValueType.isFloating_of_isFloat h)))) h

omit [NameLimit] in
theorem construct_colour {ts : List Ty} (ht : ∀ t ∈ ts, t.component = .float 32)
    (hsize : total Ty.size ts = 4) : Signature .compositeConstruct [] ts .colour :=
  .construct rfl ht hsize

/-- **A value as a colour.** -/
theorem toFloat4_spec {t : ValueType} {y : UInt32} (hs : d.Sound P) (ht : t.isFloat = true)
    (hk : Known (d.surroundings I) Γ x t.shape (.value v)) (h : Draws (toFloat4 i x t) d y d') :
    ∃ c Γ', d.Emits Γ [] c [] d' Γ' [] ∧
      Known (d'.surroundings I) Γ' y .colour (.value (I.colour t v)) := by
  rw [toFloat4] at h
  obtain ⟨type, d₁, h₁, h⟩ := draws_bind.1 h
  obtain ⟨-, q₁, htype⟩ := typeOf_spec hs h₁
  have hs₁ := q₁.sound P hs
  have hk₁ := hk.mono q₁.le
  rcases float_cases ht with rfl | rfl | rfl | rfl
  · obtain ⟨one, d₂, h₂, h⟩ := draws_bind.1 h
    obtain ⟨q₂, hone⟩ := constant_spec (I := I) hs₁ h₂
    have hx := hk₁.mono q₂.le
    have hops : Operands (d₂.surroundings I) Γ [x, x, x, one] _ :=
      .cons hx (.cons hx (.two hx (.inr hone)))
    have hsig : Signature .compositeConstruct [] (List.replicate 4 (.float 32)) .colour :=
      construct_colour (by decide) rfl
    have e := emit_spec ⟨rfl, rfl⟩ (fun y => Step.ofValues (x := y) rfl (by decide)
      (htype.mono q₂.decls) hops hsig) h
    exact ⟨_, _, e.after (q₁.trans q₂), .inl List.mem_cons_self⟩
  · obtain ⟨zero, d₂, h₂, h⟩ := draws_bind.1 h
    obtain ⟨q₂, hzero⟩ := constant_spec (I := I) hs₁ h₂
    obtain ⟨one, d₃, h₃, h⟩ := draws_bind.1 h
    obtain ⟨q₃, hone⟩ := constant_spec (I := I) (q₂.sound P hs₁) h₃
    have hx := hk₁.mono (q₂.trans q₃).le
    have hops : Operands (d₃.surroundings I) Γ [x, zero, one] _ :=
      .cons hx (.two (.inr (hzero.mono q₃.decls)) (.inr hone))
    have hsig : Signature .compositeConstruct [] [.vector (.float 32) 2, .float 32, .float 32]
        .colour := construct_colour (by decide) rfl
    have e := emit_spec ⟨rfl, rfl⟩ (fun y => Step.ofValues (x := y) rfl (by decide)
      (htype.mono (q₂.trans q₃).decls) hops hsig) h
    exact ⟨_, _, e.after ((q₁.trans q₂).trans q₃), .inl List.mem_cons_self⟩
  · obtain ⟨one, d₂, h₂, h⟩ := draws_bind.1 h
    obtain ⟨q₂, hone⟩ := constant_spec (I := I) hs₁ h₂
    have hops : Operands (d₂.surroundings I) Γ [x, one] _ :=
      .two (hk₁.mono q₂.le) (.inr hone)
    have hsig : Signature .compositeConstruct [] [.vector (.float 32) 3, .float 32] .colour :=
      construct_colour (by decide) rfl
    have e := emit_spec ⟨rfl, rfl⟩ (fun y => Step.ofValues (x := y) rfl (by decide)
      (htype.mono q₂.decls) hops hsig) h
    exact ⟨_, _, e.after (q₁.trans q₂), .inl List.mem_cons_self⟩
  · obtain ⟨rfl, rfl⟩ := draws_pure.1 h
    exact ⟨_, Γ, q₁.emits, hk₁⟩

end Drafting

end NodeShader
