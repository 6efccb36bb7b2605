import Mathlib.Data.List.Pairwise
import NodeShader.Proofs.Spirv.Calls

/-!
# Declarations are unique and in order

A builder keeps the types and constants it was asked for, so each is declared once, under one
identifier:

* `Declaration.text_inj`: the opcode and the operands of a declaration may be kept as a text.
* `History.Leads.apart_runs`: two calls answer the same identifier only if one repeats the other.
* `ModuleBuilder.DeclaresOnce`: what is kept stands once among the declarations.
* `History.Leads.ordered_runs`: declarations stand in the order of the calls, so each stands behind
  those it refers to if the calls do.
-/

namespace NodeShader.Spirv

variable {b : ModuleBuilder} {c : Call} {version : Version} {h : History}

/-! ### The text of a declaration -/

/-- The operands of an instruction in brackets. -/
def bracketed (operands : List UInt32) : String :=
  "[" ++ " ".intercalate (operands.map toString) ++ "]"

theorem toList_toString (w : UInt32) : (toString w).toList = Nat.toDigits 10 w.toNat :=
  String.toList_ofList

theorem toDigits_inj {v w : UInt32} (h : Nat.toDigits 10 v.toNat = Nat.toDigits 10 w.toNat) : v = w := by
  rw [← UInt32.toNat_inj, ← Nat.ofDigitChars_ten_toDigits (n := v.toNat), h,
    Nat.ofDigitChars_ten_toDigits]

theorem intercalate_toList (w : UInt32) (ws : List UInt32) :
    ' ' :: (" ".intercalate ((w :: ws).map toString)).toList =
      (w :: ws).flatMap fun w => ' ' :: Nat.toDigits 10 w.toNat := by
  induction ws generalizing w with
  | nil => simp [toList_toString]
  | cons v ws ih =>
    rw [List.map_cons, List.map_cons, String.intercalate_cons_cons, ← List.map_cons, List.flatMap_cons, ← ih v]
    simp [toList_toString]

/-- Numbers, each behind a blank, and a bracket that ends them. -/
theorem flatMap_digits_inj {vs ws : List UInt32}
    (h : (vs.flatMap fun w => ' ' :: Nat.toDigits 10 w.toNat) ++ [']'] =
      (ws.flatMap fun w => ' ' :: Nat.toDigits 10 w.toNat) ++ [']']) : vs = ws := by
  have hstop : ∀ (v : UInt32) (vs : List UInt32), ((Nat.toDigits 10 v.toNat) ++
      ((vs.flatMap fun w => ' ' :: Nat.toDigits 10 w.toNat) ++ [']'])).takeWhile Char.isDigit =
        Nat.toDigits 10 v.toNat := by
    intro v vs
    rw [List.takeWhile_append_of_pos
      fun c hc => Nat.isDigit_of_mem_toDigits (by decide) (by decide) hc]
    cases vs <;> simp
  induction vs generalizing ws with
  | nil =>
    cases ws with
    | nil => rfl
    | cons w ws => simp at h
  | cons v vs ih =>
    cases ws with
    | nil => simp at h
    | cons w ws =>
      rw [List.flatMap_cons, List.flatMap_cons, List.cons_append, List.cons_append, List.cons_append,
        List.cons_append, List.cons.injEq, List.append_assoc, List.append_assoc] at h
      have hdigits : Nat.toDigits 10 v.toNat = Nat.toDigits 10 w.toNat := by
        rw [← hstop v vs, h.2, hstop]
      rw [toDigits_inj hdigits, List.append_cancel_left_eq] at h
      rw [toDigits_inj hdigits, ih h.2]

theorem bracketed_inj {vs ws : List UInt32} (h : bracketed vs = bracketed ws) : vs = ws := by
  have hempty : (bracketed []).toList.drop 1 = [']'] := rfl
  have hlist : ∀ (u : UInt32) (us : List UInt32), ' ' :: ((bracketed (u :: us)).toList.drop 1) =
      ((u :: us).flatMap fun w => ' ' :: Nat.toDigits 10 w.toNat) ++ [']'] := by
    intro u us
    rw [← intercalate_toList]
    simp [bracketed]
  -- an operand has a digit, so there is more than the closing bracket
  have hne : ∀ (u : UInt32) (us : List UInt32), bracketed [] ≠ bracketed (u :: us) := by
    intro u us h
    have hu := hlist u us
    rw [← h, hempty, List.flatMap_cons, List.cons_append, List.cons_append, List.cons.injEq] at hu
    have hlen := congrArg List.length hu.2
    have hpos := List.length_pos_iff.2 (Nat.toDigits_ne_nil (n := u.toNat) (b := 10))
    simp only [List.length_append, List.length_cons, List.length_nil] at hlen
    omega
  cases vs with
  | nil =>
    cases ws with
    | nil => rfl
    | cons w ws => exact absurd h (hne w ws)
  | cons v vs =>
    cases ws with
    | nil => exact absurd h.symm (hne v vs)
    | cons w ws => exact flatMap_digits_inj (by rw [← hlist, ← hlist, h])

/-- A declaration as text: the name of its opcode, and its operands in brackets. -/
def Declaration.text (d : Declaration) : String := d.opcode.name ++ " " ++ bracketed d.operands

/-- **Declarations are told apart by their text**, and from whatever is imported. -/
theorem Declaration.text_inj (d : Declaration) :
    (∀ d' : Declaration, d.text = d'.text ↔ d.opcode = d'.opcode ∧ d.operands = d'.operands) ∧
      ∀ text : String, d.text ≠ "import:" ++ text := by
  have hblank : ∀ op ∈ opcodes, op.name.toList.all (· != ' ') = true := by decide +kernel
  have hname : ∀ op ∈ opcodes, opcodes.find? (·.name == op.name) = some op := by decide +kernel
  have hstart : ∀ op ∈ opcodes, op.name.toList.head? = some 'O' := by decide +kernel
  have htext : ∀ d : Declaration,
      d.text.toList = d.opcode.name.toList ++ ' ' :: (bracketed d.operands).toList := fun d => by
    rw [text, String.toList_append, String.toList_append, List.append_assoc]
    rfl
  -- the name of the opcode ends at the first blank
  have hstop : ∀ d : Declaration, d.text.toList.takeWhile (· != ' ') = d.opcode.name.toList := by
    intro d
    rw [htext, List.takeWhile_append_of_pos (List.all_eq_true.1 (hblank _ d.opcode_mem))]
    simp
  constructor
  · intro d'
    constructor
    · intro h
      have htexts : d.opcode.name = d'.opcode.name :=
        String.toList_inj.1 (by rw [← hstop d, ← hstop d', h])
      have hop : d.opcode = d'.opcode := Option.some.inj <| by
        rw [← hname _ d.opcode_mem, htexts, hname _ d'.opcode_mem]
      have hlist := congrArg String.toList h
      rw [htext, htext, hop, List.append_cancel_left_eq, List.cons.injEq] at hlist
      exact ⟨hop, bracketed_inj (String.toList_inj.1 hlist.2)⟩
    · rintro ⟨hop, hoperands⟩
      rw [text, text, hop, hoperands]
  · intro text h
    have hhead := congrArg (·.toList.head?) h
    simp only [htext, List.head?_append, hstart _ d.opcode_mem, String.toList_append] at hhead
    cases hhead

/-! ### Identifiers -/

/-- The identifiers two calls answer are the same only if the second call repeats the first. -/
def Call.Apart (e e' : Call × UInt32) : Prop :=
  e.1.allocates → e'.1.allocates → (e.2 = e'.2 ↔ e'.1.repeats e.1 = true)

theorem Call.repeats_comm (c c' : Call) : c.repeats c' = c'.repeats c := by
  rw [repeats, repeats]
  cases hk : c.key? <;> cases hk' : c'.key? <;> simp [eq_comm]

theorem Call.repeats_iff {c c' : Call} : c.repeats c' = true ↔ ∃ k, c.key? = some k ∧ c'.key? = some k := by
  rw [repeats, Bool.and_eq_true, beq_iff_eq, Option.isSome_iff_exists]
  constructor
  · rintro ⟨⟨k, hk⟩, heq⟩
    exact ⟨k, hk, heq ▸ hk⟩
  · rintro ⟨k, hk, hk'⟩
    exact ⟨⟨k, hk⟩, hk.trans hk'.symm⟩

instance : Std.Symm Call.Apart where
  symm _ _ h he' he := by rw [eq_comm, h he he', Call.repeats_comm]

namespace History.Leads

theorem nextId_le_step (c : Call) (b : ModuleBuilder) : b.nextId ≤ (c.run.run b).2.nextId := by
  rw [Call.run_eq]
  split
  · exact Nat.le_refl _
  · rw [ModuleBuilder.performing_nextId]
    split <;> omega

theorem nextId_le_runs (cs : List Call) (b : ModuleBuilder) :
    b.nextId ≤ ((Call.runs cs).run b).2.nextId := by
  induction cs generalizing b with
  | nil => exact Nat.le_refl _
  | cons c cs ih =>
    rw [Call.runs_cons]
    exact Nat.le_trans (nextId_le_step c b) (ih _)

/-- **Another call answers a new identifier, or repeats an earlier call.** -/
theorem apart_step (hl : h.Leads version b) (hp : h.Pairwise Call.Apart) (c : Call)
    (hlt : (c.run.run b).2.nextId ≤ 4294967296) :
    (h ++ [(c, (c.run.run b).1)]).Pairwise Call.Apart := by
  rw [List.pairwise_append]
  refine ⟨hp, List.pairwise_singleton .., ?_⟩
  rintro ⟨a, y⟩ ha e he
  cases List.mem_singleton.1 he
  intro hay hc
  simp only at hay hc
  have hrepeats := hl.any_repeats c
  rw [Call.run_eq] at hlt ⊢
  cases hx : c.key?.bind b.kept? with
  | some x =>
    obtain ⟨k, hk, hkept⟩ := Option.bind_eq_some_iff.1 hx
    obtain ⟨c₀, hm₀, hk₀⟩ := (hl.kept k x).1 hkept
    have hc₀ : c₀.allocates := by rw [Call.allocates_of_key hk₀ hk, hc]
    show y = x ↔ _
    constructor
    · rintro rfl
      by_cases hsame : ((a, y) : Call × UInt32) = (c₀, y)
      · cases hsame
        exact Call.repeats_iff.2 ⟨k, hk, hk₀⟩
      · have happart := hp.forall ha hm₀ hsame
        obtain ⟨k', hk', hka⟩ := Call.repeats_iff.1 ((happart hay hc₀).1 rfl)
        rw [hk₀] at hk'
        cases hk'
        exact Call.repeats_iff.2 ⟨k, hk, hka⟩
    · intro hr
      obtain ⟨k', hk', hka⟩ := Call.repeats_iff.1 hr
      rw [hk] at hk'
      cases hk'
      have hkept' := (hl.kept k y).2 ⟨a, ha, hka⟩
      rw [hkept] at hkept'
      exact (Option.some.inj hkept').symm
  | none =>
    rw [hx] at hlt hrepeats
    have hnot : c.repeats a = false := by
      cases hr : c.repeats a with
      | false => rfl
      | true =>
        have hany : h.any (c.repeats ·.1) = true := List.any_eq_true.2 ⟨(a, y), ha, hr⟩
        rw [hany] at hrepeats
        cases hrepeats
    rw [ModuleBuilder.performing_nextId, if_pos hc] at hlt
    show y = b.answer c ↔ _
    rw [hnot, ModuleBuilder.answer_of_allocates b hc]
    refine iff_of_false (fun hy => ?_) (by simp)
    have hbelow := (ModuleBuilder.mem_idsBelow (by omega) (hl.answers a y ha hay)).2
    rw [hy, ModuleBuilder.toNat_toUInt32 (by omega)] at hbelow
    exact absurd hbelow (Nat.lt_irrefl _)

theorem apart_runs (cs : List Call) (hl : h.Leads version b) (hp : h.Pairwise Call.Apart)
    (hlt : ((Call.runs cs).run b).2.nextId ≤ 4294967296) :
    (h ++ cs.zip ((Call.runs cs).run b).1).Pairwise Call.Apart := by
  induction cs generalizing h b with
  | nil =>
    rw [Call.runs_nil, List.zip_nil_left, List.append_nil]
    exact hp
  | cons c cs ih =>
    rw [Call.runs_cons] at hlt ⊢
    have hstep := hl.apart_step hp c (Nat.le_trans (nextId_le_runs cs _) hlt)
    have hrest := ih (hl.step c) hstep hlt
    rw [List.append_assoc] at hrest
    rw [List.zip_cons_cons]
    exact hrest

end History.Leads

/-! ### Declarations stand once -/

/-- Whether an instruction is what a declaration asks for, its identifier aside. -/
def Declaration.isDeclaredBy (d : Declaration) (i : Instruction) : Bool :=
  i.opcode == d.opcode && i.operands.eraseIdx (if i.opcode.hasType then 1 else 0) == d.operands

/-- A constant has a type. -/
theorem Declaration.length_operands (d : Declaration) :
    (if d.opcode.hasType then 1 else 0) ≤ d.operands.length := by
  cases d with
  | constantBool type value => cases value <;> exact Nat.le_refl 1
  | _ => first | exact Nat.zero_le _ | exact Nat.succ_le_succ (Nat.zero_le _)

theorem Declaration.isDeclaredBy_instruction (d d' : Declaration) (x : UInt32) :
    d.isDeclaredBy (d'.instruction x) = (d'.key == d.key) := by
  have herase : (d'.instruction x).operands.eraseIdx (if d'.opcode.hasType then 1 else 0) = d'.operands := by
    have hlen : (d'.operands.take (if d'.opcode.hasType then 1 else 0)).length =
        if d'.opcode.hasType then 1 else 0 := List.length_take_of_le d'.length_operands
    show (_ ++ _ :: _ : List UInt32).eraseIdx _ = _
    rw [List.eraseIdx_append_of_length_le (Nat.le_of_eq hlen), hlen, Nat.sub_self, List.eraseIdx_cons_zero,
      List.take_append_drop]
  have hopcode : (d'.instruction x).opcode = d'.opcode := rfl
  rw [isDeclaredBy, hopcode, herase, Bool.eq_iff_iff]
  simp [key]

/-- Only a declaration declares it. -/
theorem Call.isDeclaredBy_added {d : Declaration} {x : UInt32} {s : Section} {i : Instruction}
    (h : c.added? x = some (s, i)) (hs : s = .types) :
    d.isDeclaredBy i = (c.key? == some d.key) := by
  have hmem := d.opcode_mem
  cases c with
  | declare d' =>
    cases h
    rw [Declaration.isDeclaredBy_instruction]
    simp [key?]
  | typeStruct members =>
    cases h
    have hne : Opcode.typeStruct ≠ d.opcode := fun he => by
      rw [← he] at hmem
      exact absurd hmem (by decide)
    simp [Declaration.isDeclaredBy, hne, key?]
  | globalVariable pointer storage =>
    cases h
    have hne : Opcode.variableDecl ≠ d.opcode := fun he => by
      rw [← he] at hmem
      exact absurd hmem (by decide)
    simp [Declaration.isDeclaredBy, hne, key?]
  | _ => cases h <;> cases hs

/-- What is declared so far, each once. -/
def ModuleBuilder.DeclaresOnce (b : ModuleBuilder) : Prop :=
  ∀ d : Declaration, b.decls.filter d.isDeclaredBy = ((b.kept? d.key).map d.instruction).toList

theorem ModuleBuilder.declaresOnce_new (version : Version) :
    (ModuleBuilder.new version).DeclaresOnce := fun _ => rfl

theorem ModuleBuilder.DeclaresOnce.step (h : b.DeclaresOnce) (c : Call) :
    (c.run.run b).2.DeclaresOnce := by
  rw [Call.run_eq]
  split
  · exact h
  · rename_i hnone
    intro d
    rw [decls, sectionOf_performing b c (by decide), List.filter_append, kept?_performing]
    have hold := h d
    rw [decls] at hold
    rw [hold]
    by_cases hkey : c.key? = some d.key
    · rw [if_pos hkey]
      rw [hkey, Option.bind_some] at hnone
      rw [hnone]
      cases c with
      | declare d' =>
        have hd : d'.key = d.key := Option.some.inj hkey
        have hinstruction : ∀ x, d'.instruction x = d.instruction x := fun x => by
          rw [Declaration.key, Declaration.key, Key.declaration.injEq] at hd
          rw [Declaration.instruction, Declaration.instruction, hd.1, hd.2]
        simp [Call.added?, Declaration.isDeclaredBy_instruction, hinstruction]
      | _ => cases hkey
    · rw [if_neg hkey]
      have hnew : (((c.added? (b.answer c)).toList.filter (·.1 == .types)).map (·.2)).filter
          d.isDeclaredBy = [] := by
        rw [List.filter_eq_nil_iff]
        intro i hi
        simp only [List.mem_map, List.mem_filter, Option.mem_toList] at hi
        obtain ⟨⟨s, i⟩, ⟨he, hs⟩, rfl⟩ := hi
        rw [Call.isDeclaredBy_added he (by simpa using hs), beq_eq_false_iff_ne.2 hkey]
        exact Bool.false_ne_true
      rw [hnew, List.append_nil]

theorem ModuleBuilder.DeclaresOnce.runs (h : b.DeclaresOnce) (cs : List Call) :
    ((Call.runs cs).run b).2.DeclaresOnce := by
  induction cs generalizing b with
  | nil => exact h
  | cons c cs ih =>
    rw [Call.runs_cons]
    exact ih (h.step c)

/-! ### Declarations stand in order -/

/-- The identifiers among the arguments of a call for a type, constant or variable. -/
def Call.references : Call → List UInt32
  | declare d => d.references
  | typeStruct members => members
  | globalVariable pointer _ => [pointer]
  | _ => []

/-- Whether a call is for a type, constant or variable. -/
def Call.isGlobal : Call → Bool
  | declare _ | typeStruct _ | globalVariable .. => true
  | _ => false

/-- **Calls that refer to types, constants and variables asked for before.** -/
def History.Referring (h : History) : Prop :=
  ∀ pre c x post, h = pre ++ (c, x) :: post →
    ∀ y ∈ c.references, ∃ c', (c', y) ∈ pre ∧ c'.isGlobal

/-- **Instructions that refer to what stands before them.** -/
def Ordered (is : List Instruction) : Prop :=
  ∀ pre i post, is = pre ++ i :: post → ∀ y ∈ i.reads, ∃ j ∈ pre, j.result? = some y

theorem Ordered.append {is : List Instruction} (h : Ordered is) {i : Instruction}
    (hi : ∀ y ∈ i.reads, ∃ j ∈ is, j.result? = some y) : Ordered (is ++ [i]) := by
  intro pre j post heq y hy
  rcases List.eq_nil_or_concat post with rfl | ⟨post, k, rfl⟩
  · obtain ⟨rfl, hj⟩ := List.append_inj' heq rfl
    cases hj
    exact hi y hy
  · rw [List.concat_eq_append, ← List.cons_append, ← List.append_assoc] at heq
    obtain ⟨rfl, -⟩ := List.append_inj' heq rfl
    exact h pre j post rfl y hy

theorem ordered_nil (version : Version) : Ordered (ModuleBuilder.new version).decls := by
  intro pre i post h
  simp [ModuleBuilder.decls, ModuleBuilder.new, ModuleBuilder.sectionOf] at h

/-- What a call for a type, constant or variable writes. -/
theorem Call.added_of_isGlobal (h : c.isGlobal) (x : UInt32) :
    ∃ i, c.added? x = some (.types, i) ∧ i.result? = some x ∧ i.reads = c.references := by
  cases c with
  | declare d => exact ⟨_, rfl, d.result_instruction x, d.reads_instruction x⟩
  | typeStruct members => exact ⟨_, rfl, rfl, rfl⟩
  | globalVariable pointer storage => exact ⟨_, rfl, rfl, rfl⟩
  | _ => cases h

theorem Call.added_of_not_isGlobal (h : c.isGlobal = false) {x : UInt32} {s : Section}
    {i : Instruction} (he : c.added? x = some (s, i)) : s ≠ .types := by
  cases c <;> cases h <;> cases he <;> decide

theorem Call.isGlobal_of_key {c c' : Call} {k : Key} (h : c.key? = some k) (h' : c'.key? = some k) :
    c.isGlobal = c'.isGlobal := by
  rw [← h'] at h
  cases c <;> cases c' <;> simp [key?, Declaration.key] at h h' <;> rfl

/-- The types, constants and variables of a history are declared. -/
def History.Declared (h : History) (b : ModuleBuilder) : Prop :=
  ∀ c x, (c, x) ∈ h → c.isGlobal → ∃ j ∈ b.decls, j.result? = some x

namespace History.Leads

/-- **One call** leaves the declarations in order. -/
theorem ordered_step (hl : h.Leads version b) (ho : Ordered b.decls) (hd : h.Declared b) (c : Call)
    (hr : ∀ y ∈ c.references, ∃ c', (c', y) ∈ h ∧ c'.isGlobal) :
    Ordered (c.run.run b).2.decls ∧
      Declared (h ++ [(c, (c.run.run b).1)]) (c.run.run b).2 := by
  rw [Call.run_eq]
  cases hx : c.key?.bind b.kept? with
  | some x =>
    refine ⟨ho, fun c' y hm hc' => ?_⟩
    rcases List.mem_append.1 hm with hm | hm
    · exact hd c' y hm hc'
    · cases List.mem_singleton.1 hm
      obtain ⟨k, hk, hkept⟩ := Option.bind_eq_some_iff.1 hx
      obtain ⟨c₀, hm₀, hk₀⟩ := (hl.kept k x).1 hkept
      exact hd c₀ x hm₀ (by rw [Call.isGlobal_of_key hk₀ hk, hc'])
  | none =>
    have hdecls : (b.performing c).decls = b.decls ++
        ((c.added? (b.answer c)).toList.filter (·.1 == .types)).map (·.2) :=
      ModuleBuilder.sectionOf_performing b c (by decide)
    have hold : ∀ x, (∃ j ∈ b.decls, j.result? = some x) →
        ∃ j ∈ (b.performing c).decls, j.result? = some x := by
      rintro x ⟨j, hj, hx⟩
      exact ⟨j, by rw [hdecls]; exact List.mem_append_left _ hj, hx⟩
    cases hc : c.isGlobal with
    | true =>
      obtain ⟨i, he, hresult, hreads⟩ := Call.added_of_isGlobal hc (b.answer c)
      have hnew : (b.performing c).decls = b.decls ++ [i] := by
        rw [hdecls, he]
        rfl
      constructor
      · show Ordered (b.performing c).decls
        rw [hnew]
        refine ho.append fun y hy => ?_
        rw [hreads] at hy
        obtain ⟨c', hm, hc'⟩ := hr y hy
        exact hd c' y hm hc'
      · intro c' y hm hc'
        rcases List.mem_append.1 hm with hm | hm
        · exact hold y (hd c' y hm hc')
        · cases List.mem_singleton.1 hm
          exact ⟨i, by rw [hnew]; simp, hresult⟩
    | false =>
      have hnew : (b.performing c).decls = b.decls := by
        rw [hdecls]
        cases he : c.added? (b.answer c) with
        | none => simp
        | some e => simp [Call.added_of_not_isGlobal (s := e.1) (i := e.2) hc he]
      constructor
      · show Ordered (b.performing c).decls
        rw [hnew]
        exact ho
      · intro c' y hm hc'
        rcases List.mem_append.1 hm with hm | hm
        · exact hold y (hd c' y hm hc')
        · cases List.mem_singleton.1 hm
          rw [hc] at hc'
          cases hc'

/-- **A run** leaves the declarations in order. -/
theorem ordered_runs (cs : List Call) (hl : h.Leads version b) (ho : Ordered b.decls)
    (hd : h.Declared b) (hr : Referring (h ++ cs.zip ((Call.runs cs).run b).1)) :
    Ordered ((Call.runs cs).run b).2.decls := by
  induction cs generalizing h b with
  | nil => exact ho
  | cons c cs ih =>
    rw [Call.runs_cons, List.zip_cons_cons] at hr
    rw [Call.runs_cons]
    obtain ⟨ho', hd'⟩ := hl.ordered_step ho hd c (hr h c _ _ rfl)
    refine ih (hl.step c) ho' hd' ?_
    rw [List.append_assoc]
    exact hr

end History.Leads

/-- **Declarations are unique and in order.**  Of the identifiers a builder hands out none is zero, all
are below the bound, and two calls answer the same one only if they ask for the same thing that there is
one of.  Declarations are the same exactly if their opcodes and operands are, as are their texts, and
each stands once in the module.  If calls refer to what was asked for before, so do the declarations of
the module. -/
theorem Call.declarations_unique (version : Version) (cs : List Call) {xs : List UInt32}
    {b : ModuleBuilder} (hrun : (Call.runs cs).run (ModuleBuilder.new version) = (xs, b))
    (hlt : b.nextId ≤ 4294967296) :
    (∀ c x, (c, x) ∈ cs.zip xs → c.allocates → x ≠ 0 ∧ x.toNat < b.nextId ∧
      (b.nextId < 4294967296 → x < (Assemble.bound.run b).1)) ∧
    (cs.zip xs).Pairwise Call.Apart ∧
    (∀ d d' x y, (.declare d, x) ∈ cs.zip xs → (.declare d', y) ∈ cs.zip xs →
      (x = y ↔ d.opcode = d'.opcode ∧ d.operands = d'.operands) ∧ (x = y ↔ d.text = d'.text)) ∧
    (∀ d x, (.declare d, x) ∈ cs.zip xs → b.decls.filter d.isDeclaredBy = [d.instruction x]) ∧
    (History.Referring (cs.zip xs) → Ordered b.decls) := by
  have hnew := History.Leads.new version
  have hl := hnew.runs cs
  have honce := ModuleBuilder.declaresOnce_new version |>.runs cs
  have hordered := hnew.ordered_runs cs (ordered_nil version) (fun _ _ hm => absurd hm List.not_mem_nil)
  have hapart := hnew.apart_runs cs List.Pairwise.nil (by rw [hrun]; exact hlt)
  rw [hrun] at hl honce hordered hapart
  rw [List.nil_append] at hl hordered hapart
  have hkept : ∀ d x, (Call.declare d, x) ∈ cs.zip xs → b.kept? d.key = some x :=
    fun d x hm => (hl.kept _ _).2 ⟨_, hm, rfl⟩
  have hsame : ∀ d d' x y, (Call.declare d, x) ∈ cs.zip xs → (Call.declare d', y) ∈ cs.zip xs →
      (x = y ↔ d.opcode = d'.opcode ∧ d.operands = d'.operands) := by
    intro d d' x y hx hy
    constructor
    · rintro rfl
      by_cases heq : ((Call.declare d, x) : Call × UInt32) = (.declare d', x)
      · cases heq
        exact ⟨rfl, rfl⟩
      · obtain ⟨k, hk, hk'⟩ := Call.repeats_iff.1 ((hapart.forall hx hy heq rfl rfl).1 rfl)
        cases hk
        have hkeys := Option.some.inj hk'
        rw [Declaration.key, Declaration.key, Key.declaration.injEq] at hkeys
        exact hkeys
    · intro hkey
      have hx' := hkept d x hx
      rw [Declaration.key, hkey.1, hkey.2] at hx'
      exact Option.some.inj (hx'.symm.trans (hkept d' y hy))
  refine ⟨fun c x hm hc => ?_, hapart, fun d d' x y hx hy => ?_, fun d x hm => ?_, hordered⟩
  · obtain ⟨hne, hbelow⟩ := ModuleBuilder.mem_idsBelow hlt (hl.answers c x hm hc)
    refine ⟨hne, hbelow, fun hword => ?_⟩
    show x < b.nextId.toUInt32
    rw [UInt32.lt_iff_toNat_lt, ModuleBuilder.toNat_toUInt32 hword]
    exact hbelow
  · exact ⟨hsame d d' x y hx hy, (hsame d d' x y hx hy).trans (d.text_inj.1 d').symm⟩
  · rw [honce d, hkept d x hm]
    rfl

/-- A vector type of a type that is asked for twice. -/
theorem Call.declarations_unique_vector :
    let cs : List Call := [.declare (.typeFloat 32), .allocId, .declare (.typeFloat 32),
      .declare (.typeVector 1 4)]
    let b := ((Call.runs cs).run (ModuleBuilder.new .current)).2
    b.nextId = 4 ∧ b.decls = [⟨.typeFloat, [1, 32]⟩, ⟨.typeVector, [3, 1, 4]⟩] ∧ Ordered b.decls := by
  have hrefers : History.Referring ([.declare (.typeFloat 32), .allocId, .declare (.typeFloat 32),
      .declare (.typeVector 1 4)].zip [1, 2, 1, 3]) := by
    intro pre c x post h y hy
    match pre, h with
    | [], h | [_], h | [_, _], h =>
      cases h
      cases hy
    | [_, _, _], h =>
      cases h
      cases List.mem_singleton.1 hy
      exact ⟨_, List.mem_cons_self, rfl⟩
    | _ :: _ :: _ :: _ :: pre, h => simp at h
  have hrun : (Call.runs [.declare (.typeFloat 32), .allocId, .declare (.typeFloat 32),
      .declare (.typeVector 1 4)]).run (ModuleBuilder.new .current) = ([1, 2, 1, 3], _) := rfl
  obtain ⟨-, -, -, -, hordered⟩ := declarations_unique .current _ hrun (by decide)
  exact ⟨rfl, rfl, hordered hrefers⟩

end NodeShader.Spirv
