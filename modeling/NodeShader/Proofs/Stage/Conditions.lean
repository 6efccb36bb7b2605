import NodeShader.Proofs.Stage.Coding
import NodeShader.Proofs.Stage.Signed
import NodeShader.Proofs.Stage.Writing

/-!
# Conditions, folded and run

A conditional whose condition is a truth value, or a comparison of constants, has its arm picked
beforehand, on doubles.  Run, the comparison is an instruction on the constants as they are emitted:
patterns of single or half precision, or signed words (`Interpretation.comparing`).

* `Reads.compares`: on two constants of one type the instruction comes out as the test does, but for
  `notEqual` on what is no number, which the instruction finds false and the test true.
* `Typed.agrees_comparing`: so such instructions agree with what is decided beforehand, and so do those
  that compute besides (`Typed.agrees_computing`).
* `receives_constant`: a constant whose code is written is what its consumers receive.
* `writeNode_condition`: **the arm that is picked beforehand** is the one that the code picks.
-/

namespace NodeShader

open Spirv

/-! ### Comparisons as instructions -/

namespace Spirv

/-- A scalar as comparisons take it: a number, a signed word, or a truth value. -/
inductive Scalar where
  | number (x : Float)
  | word (w : Int32)
  | truth (b : Bool)
  deriving DecidableEq

/-- The scalar of a type that a literal word stands for. -/
def Scalar.ofWord : Ty → UInt32 → Scalar
  | .float 16, w => .number (floatOfHalf w)
  | .float _, w => .number (floatOfSingle w)
  | .int _ _, w => .word w.toInt32
  | _, w => .truth (w != 0)

/-- An ordered comparison: both operands are numbers, and they compare as the name says. -/
def Opcode.ordered (op : Opcode) (x y : Float) : Bool :=
  !x.isNaN && !y.isNaN &&
    match op with
    | .fOrdLessThan => x < y
    | .fOrdLessThanEqual => x ≤ y
    | .fOrdGreaterThan => y < x
    | .fOrdGreaterThanEqual => y ≤ x
    | .fOrdEqual => x == y
    | .fOrdNotEqual => x != y
    | _ => false

/-- A comparison of signed words. -/
def Opcode.compareWords (op : Opcode) (v w : Int32) : Bool :=
  match op with
  | .sLessThan => v < w
  | .sLessThanEqual => v ≤ w
  | .sGreaterThan => w < v
  | .sGreaterThanEqual => w ≤ v
  | .iEqual => v == w
  | .iNotEqual => v != w
  | _ => false

/-- What an instruction that compares gives. -/
def Opcode.compares (op : Opcode) : List Scalar → Bool
  | [.number x, .number y] => op.ordered x y
  | [.word v, .word w] => op.compareWords v w
  | _ => false

/-- **Instructions that compare.**  Nothing is said of other instructions, nor of the inputs of a
shader. -/
abbrev Interpretation.comparing : Interpretation where
  Value := Scalar
  truth
    | .truth b => b
    | _ => false
  ofBool := .truth
  truth_ofBool _ := rfl
  zero t := .ofWord t 0
  scalar := .ofWord
  composite _ _ := .truth false
  apply op _ _ args := .truth (op.compares args)
  member _ := .truth false
  input _ := .truth false
  invocation := .truth false
  image _ := .truth false
  sampler _ := .truth false

/-- **Instructions that compute**: sums and negations of numbers and comparisons, at some time.  Vectors
are the lists of their parts.  Nothing is said of other instructions, nor of other inputs of a shader. -/
abbrev Interpretation.computing (time : Float) : Interpretation where
  Value := List Scalar
  truth
    | [.truth b] => b
    | _ => false
  ofBool b := [.truth b]
  truth_ofBool _ := rfl
  zero t := List.replicate t.size (.ofWord t.component 0)
  scalar t w := [.ofWord t w]
  composite _ parts := parts.flatten
  apply
    | .fAdd, _, _, [[.number x], [.number y]] => [.number (x + y)]
    | .fNegate, _, _, [[.number x]] => [.number (-x)]
    | .compositeConstruct, _, _, parts => parts.flatten
    | op, _, _, args => [.truth (op.compares args.flatten)]
  member k := if k = 3 then [.number time] else []
  input _ := []
  invocation := []
  image _ := []
  sampler _ := []

end Spirv

variable {test : Comparison} {op : Opcode} {x y : Float}

/-- What is no number compares with nothing. -/
theorem compare_of_isNaN (h : (x.isNaN || y.isNaN) = true) :
    x.toModel.unpack.compare y.toModel.unpack = none := by
  have hnan : x.toModel.unpack.isNaN = true ∨ y.toModel.unpack.isNaN = true := Bool.or_eq_true_iff.1 h
  generalize x.toModel.unpack = u at hnan
  generalize y.toModel.unpack = v at hnan
  rcases hnan with h | h
  · cases u <;> cases h
    rfl
  · cases v <;> cases h
    cases u <;> rfl

/-- **On numbers** an ordered comparison comes out as the test, but for `notEqual` on what is no
number. -/
theorem ordered_eq (hop : test.instruction? false = some op)
    (hne : test = .notEqual → (x.isNaN || y.isNaN) = false) : op.ordered x y = test.eval x y := by
  have hdef : op.ordered x y = (!(x.isNaN || y.isNaN) && test.eval x y) := by
    rw [Bool.not_or]
    cases test <;> cases hop <;> rfl
  rw [hdef]
  cases hnan : x.isNaN || y.isNaN with
  | false => rfl
  | true =>
    have hswap : (y.isNaN || x.isNaN) = true := by rw [Bool.or_comm]; exact hnan
    have hlt : ∀ {x y : Float}, (x.isNaN || y.isNaN) = true → ¬ x < y := fun h => by
      rw [lt_iff_compare, compare_of_isNaN h]
      exact nofun
    have hle : ∀ {x y : Float}, (x.isNaN || y.isNaN) = true → ¬ x ≤ y := fun h => by
      rw [le_iff_compare, compare_of_isNaN h]
      exact nofun
    show false = test.eval x y
    cases test with
    | less => exact (decide_eq_false (hlt hnan)).symm
    | lessEqual => exact (decide_eq_false (hle hnan)).symm
    | greater => exact (decide_eq_false (hlt hswap)).symm
    | greaterEqual => exact (decide_eq_false (hle hswap)).symm
    | equal =>
      show false = (x == y)
      rw [beq_eq_compare, compare_of_isNaN hnan]
      rfl
    | notEqual =>
      rw [hne rfl] at hnan
      cases hnan
    | unknown code => cases hop

/-- A comparison of words comes out as the test on the doubles that stand for them. -/
theorem compareWords_eq {v w : Int32} (hx : HoldsWord x v) (hy : HoldsWord y w)
    (hop : test.instruction? true = some op) : op.compareWords v w = test.eval x y := by
  have ha := HoldsWord.natAbs_lt v
  have hb := HoldsWord.natAbs_lt w
  have heq : (x == y) = (v == w) := by
    rw [Whole.beq_eq hx hy ha hb, Bool.eq_iff_iff, decide_eq_true_iff, beq_iff_eq, Int32.toInt_inj]
  cases test with
  | unknown code => cases hop
  | equal =>
    cases hop
    exact heq.symm
  | notEqual =>
    cases hop
    exact congrArg (!·) heq.symm
  | less =>
    cases hop
    exact decide_eq_decide.2 (Int32.lt_iff_toInt_lt.trans (Whole.lt_iff hx hy ha hb).symm)
  | lessEqual =>
    cases hop
    exact decide_eq_decide.2 (Int32.le_iff_toInt_le.trans (Whole.le_iff hx hy ha hb).symm)
  | greater =>
    cases hop
    exact decide_eq_decide.2 (Int32.lt_iff_toInt_lt.trans (Whole.lt_iff hy hx hb ha).symm)
  | greaterEqual =>
    cases hop
    exact decide_eq_decide.2 (Int32.le_iff_toInt_le.trans (Whole.le_iff hy hx hb ha).symm)

/-! ### Constants as they are emitted -/

/-- A double that a constant of a type stands for, beside the constant. -/
inductive Reads : ValueType → Float → Scalar → Prop
  | number {t : ValueType} {x : Float} : t.isInt = false → Reads t x (.number x)
  | word {t : ValueType} {x : Float} {w : Int32} : t.isInt = true → HoldsWord x w → Reads t x (.word w)

/-- **The instruction comes out as the test** on constants of one type. -/
theorem Reads.compares {t : ValueType} {v w : Scalar} (hv : Reads t x v) (hw : Reads t y w)
    (hop : test.instruction? t.isInt = some op)
    (hne : test = .notEqual → (x.isNaN || y.isNaN) = false) : op.compares [v, w] = test.eval x y := by
  cases hv with
  | number ht =>
    cases hw with
    | number =>
      rw [ht] at hop
      exact ordered_eq hop hne
    | word ht' =>
      rw [ht] at ht'
      cases ht'
  | word ht hx =>
    cases hw with
    | number ht' =>
      rw [ht] at ht'
      cases ht'
    | word _ hy =>
      rw [ht] at hop
      exact compareWords_eq hx hy hop

/-- No ordered comparison holds of what is no number. -/
theorem Reads.compares_unordered {t : ValueType} {v w : Scalar} (hv : Reads t x v) (hw : Reads t y w)
    (ht : t.isInt = false) (hnan : (x.isNaN || y.isNaN) = true) : op.compares [v, w] = false := by
  cases hv with
  | number =>
    cases hw with
    | number =>
      show (!x.isNaN && !y.isNaN && _) = false
      rw [← Bool.not_or, hnan]
      rfl
    | word ht' =>
      rw [ht] at ht'
      cases ht'
  | word ht' =>
    rw [ht] at ht'
    cases ht'

/-- Without its fraction a double stands for the word that is emitted for it. -/
theorem HoldsWord.of_truncated (h : InWord (truncated x)) :
    HoldsWord (truncated x) (NodeShader.signedWord x).toInt32 := by
  obtain ⟨negative, m, e, hx⟩ := h.finite
  have hwhole := truncated_isWhole hx
  obtain ⟨hlo, hhi⟩ := hwhole.bounds h
  rw [signedWord_eq hx rfl hlo hhi]
  exact .of_whole hwhole h

theorem reads_number {t : ValueType} (ht : t ∈ [ValueType.float, .half, .int])
    (hword : t.isInt = true → InWord (t.round x)) :
    Reads t (t.round x) (Interpretation.comparing.number t x) := by
  simp only [List.mem_cons, List.not_mem_nil, or_false] at ht
  rcases ht with rfl | rfl | rfl
  · exact .number rfl
  · exact .number rfl
  · exact .word rfl (.of_truncated (hword rfl))

theorem reads_null {t : ValueType} (ht : t ∈ [ValueType.float, .half, .int]) :
    Reads t 0 (Interpretation.comparing.null t.shape) := by
  simp only [List.mem_cons, List.not_mem_nil, or_false] at ht
  rcases ht with rfl | rfl | rfl
  · exact .number rfl
  · exact .number rfl
  · exact .word rfl holdsWord_zero

namespace Graph

variable {g : Graph} {τ : PortId → ValueType} {q : PortId} {j : Nat} {n : Node}

/-- What flows into an operand that is known, as it is emitted. -/
theorem constantInput_reads (hg : g.Consistent) (ht : g.Typed τ)
    (hτ : τ q ∈ [ValueType.float, .half, .int]) (hx : g.scalarConstant? q = some x)
    (hword : (τ q).isInt = true → InWord x) :
    ∃ v, g.constantInput? .comparing τ q = some v ∧ Reads (τ q) x v := by
  rcases scalarConstant?_eq_some hx with ⟨hn, rfl⟩ | ⟨n, v, scalar, hn, hk, hparams, rfl⟩
  · exact ⟨_, constantInput?_open hn, reads_null hτ⟩
  · obtain ⟨j, hj, hnode⟩ := Option.bind_eq_some_iff.1 hn
    have htype := (ht.feeding_constant hg hj hnode hk hparams).1
    have hinput : g.constantInput? .comparing τ q =
        some (Interpretation.comparing.number (constantType [v] scalar) v) :=
      constantInput?_constant hn hk hparams
    rw [htype] at hinput hword ⊢
    exact ⟨_, hinput, reads_number hτ hword⟩

/-- **Comparisons agree with what is decided beforehand**, where integers are in the range of words and
`notEqual` tests numbers. -/
theorem Typed.agrees_comparing (ht : g.Typed τ) (hg : g.Consistent)
    (hword : ∀ q x, g.scalarConstant? q = some x → (τ q).isInt = true → InWord x)
    (hne : ∀ n ∈ g.nodes.toList, ∀ a b x y, n.params = .compare .notEqual → n.inputs = [a, b] →
      g.scalarConstant? a = some x → g.scalarConstant? b = some y → (x.isNaN || y.isNaN) = false) :
    Interpretation.comparing.Agrees g τ := by
  intro n hmem test a b op x y v w hk hparams hin hop hx hv hy hw
  obtain ⟨i, hn⟩ := List.getElem?_of_mem hmem
  rw [Array.getElem?_toList] at hn
  obtain ⟨_, _, _, _, -, hin', -, hta, htb, -⟩ := ht.comparison hg hn hk
  rw [hin] at hin'
  cases hin'
  obtain ⟨v', hv', hreadv⟩ := constantInput_reads hg ht hta hx (hword a x hx)
  obtain ⟨w', hw', hreadw⟩ := constantInput_reads hg ht (htb ▸ hta) hy (hword b y hy)
  obtain rfl : v = v' := Option.some.inj (hv.symm.trans hv')
  obtain rfl : w = w' := Option.some.inj (hw.symm.trans hw')
  rw [htb] at hreadw
  exact hreadv.compares hreadw hop fun htest => hne n hmem a b x y (htest ▸ hparams) hin hx hy

/-- What flows into an operand that is known, beside the scalar that comparisons take. -/
theorem constantInput_computing {time : Float} {v : (Interpretation.computing time).Value}
    (hτ : τ q ∈ [ValueType.float, .half, .int]) (hx : g.scalarConstant? q = some x)
    (hv : g.constantInput? (.computing time) τ q = some v) :
    ∃ w, g.constantInput? .comparing τ q = some w ∧ v = [w] := by
  rcases scalarConstant?_eq_some hx with ⟨hn, -⟩ | ⟨n, y, scalar, hn, hk, hparams, -⟩
  · rw [constantInput?_open hn] at hv
    refine ⟨_, constantInput?_open hn, (Option.some.inj hv).symm.trans ?_⟩
    simp only [List.mem_cons, List.not_mem_nil, or_false] at hτ
    rcases hτ with h | h | h <;> rw [h] <;> rfl
  · rw [constantInput?_constant hn hk hparams] at hv
    refine ⟨_, constantInput?_constant hn hk hparams, (Option.some.inj hv).symm.trans ?_⟩
    unfold Interpretation.number
    split <;> rfl

/-- Instructions that compute agree with what is decided beforehand where comparisons do. -/
theorem Typed.agrees_computing (ht : g.Typed τ) (hg : g.Consistent)
    (h : Interpretation.comparing.Agrees g τ) (time : Float) :
    (Interpretation.computing time).Agrees g τ := by
  intro n hmem test a b op x y v w hk hparams hin hop hx hv hy hw
  obtain ⟨i, hn⟩ := List.getElem?_of_mem hmem
  rw [Array.getElem?_toList] at hn
  obtain ⟨_, _, _, _, -, hin', -, hta, htb, -⟩ := ht.comparison hg hn hk
  rw [hin] at hin'
  cases hin'
  obtain ⟨v', hv', rfl⟩ := constantInput_computing hta hx hv
  obtain ⟨w', hw', rfl⟩ := constantInput_computing (htb ▸ hta) hy hw
  rw [← h n hmem test a b op x y v' w' hk hparams hin hop hx hv' hy hw']
  have happly : (Interpretation.computing time).apply op [] .bool [[v'], [w']] =
      [.truth (op.compares [v', w'])] := by
    cases test <;> cases hτ : (τ a).isInt <;> rw [hτ] at hop <;> cases hop <;> rfl
  rw [happly]

/-- **A condition that is known beforehand**: a truth value, or one of the six tests of two operands,
each a constant of one value or open.  Integers are in the range of words, and `notEqual` tests
numbers. -/
inductive Foreseen (g : Graph) (τ : PortId → ValueType) (m : Node) : Prop
  | truth : m.kind = .constant → Foreseen g τ m
  | comparison {test : Comparison} {a b : PortId} {x y : Float} : m.kind = .compare →
      m.params = .compare test → (∀ code, test ≠ .unknown code) → m.inputs = [a, b] →
      g.scalarConstant? a = some x → g.scalarConstant? b = some y →
      ((τ a).isInt = true → InWord x ∧ InWord y) →
      (test = .notEqual → (x.isNaN || y.isNaN) = false) → Foreseen g τ m

end Graph

/-- Code that chooses by an identifier: the value of the first arm, or that of the second. -/
def Spirv.Selects {I : Interpretation} (s : Surroundings I) (Γ : Context I) (condition : UInt32)
    (first : Bool) : Prop :=
  ∀ (c : Choice) (yes no : Code) (Γ₁ Γ₂ : Context I) (ty : Ty) (v w : I.Value),
    c.condition = condition → Runs s Γ yes Γ₁ [] → Runs s Γ no Γ₂ [] → TypeAt s.decls c.type ty →
    ty.component.isScalar → Known s Γ₁ c.fromYes ty (.value v) → Known s Γ₂ c.fromNo ty (.value w) →
    Runs s Γ (.select c yes no .done) ((c.result, ty, .value (if first then v else w)) :: Γ) []

theorem selects_of_known {I : Interpretation} {s : Surroundings I} {Γ : Context I} {condition : UInt32}
    {test : I.Value} (h : Known s Γ condition .bool (.value test)) :
    Selects s Γ condition (I.truth test) := by
  intro c yes no Γ₁ Γ₂ ty v w hc hyes hno hty hscalar hv hw
  exact .select (hc ▸ h) hyes hno hty hscalar hv hw .done

namespace Drafting

variable [NameLimit] {I : Interpretation} {p : StagePlan} {d : Draft} {Γ : Context I} {P : List UInt32}
  {j : Nat} {m : Node} {out : PortId} (arm : Nat → Drafting Unit)

omit [NameLimit] in
/-- A step leaves one result. -/
theorem Draws.unique {α : Type} {x : Drafting α} {u v : α} {d₁ d₂ : Draft} (h₁ : Draws x d u d₁)
    (h₂ : Draws x d v d₂) : d₁ = d₂ :=
  (Prod.mk.inj (Except.ok.inj (h₁.symm.trans h₂))).2

/-- **The code of a constant**: none, but an identifier that stands for it. -/
theorem writeNode_constant (hg : p.graph.Consistent) (ht : p.graph.Typed p.typeOf) (hs : d.Sound P)
    (hm : p.graph.nodes[j]? = some m) (hk : m.kind = .constant) (hout : out ∈ m.outputs)
    (hnew : d.values.lookup out = none) :
    ∃ d' x values scalar, Draws (writeNode p arm j m) d () d' ∧ d.Emits Γ [] .done [(out, x)] d' Γ [] ∧
      m.params = .constant values scalar ∧ constantType values scalar = p.typeOf out ∧
      GlobalAt I d'.decls x (p.typeOf out).shape (.value (I.numbers (p.typeOf out) values)) := by
  obtain ⟨values, scalar, o, hparams, hout', hto, hv⟩ := ht.constant hg hm hk
  rw [hout', List.mem_singleton] at hout
  subst hout
  have hwrite : writeNode p arm j m = defineKnown m out (p.typeOf out) values := by
    simp only [writeNode, hk, NodeKind.operation?, hout', hparams, hto]
  have hsucceeds : Succeeds (· = out) nowhere (defineKnown m out (p.typeOf out) values) :=
    succeeds_bind (succeeds_constant hv _) fun _ =>
      succeeds_bind (succeeds_bound m _) fun _ => succeeds_known _ _
  obtain ⟨_, d', h, -⟩ := hsucceeds d fun o ho => ho ▸ hnew
  obtain ⟨x, hemits, hx⟩ := defineKnown_spec (I := I) (Γ := Γ) hs hnew h
  exact ⟨d', x, values, scalar, hwrite ▸ h, hemits, hparams, hto.symm, hx⟩

/-- The code of a truth value. -/
theorem writeNode_truth {Γ : Context .comparing} (hg : p.graph.Consistent) (ht : p.graph.Typed p.typeOf)
    (hs : d.Sound P) (hm : p.graph.nodes[j]? = some m) (hk : m.kind = .constant) (hout : out ∈ m.outputs)
    (htype : p.typeOf out = .bool) (hnew : d.values.lookup out = none) :
    ∃ d' k x Γ' v rest scalar, Draws (writeNode p arm j m) d () d' ∧ d.Emits Γ [] k [(out, x)] d' Γ' [] ∧
      m.params = .constant (v :: rest) scalar ∧
      Known (d'.surroundings .comparing) Γ' x .bool (.value (.truth (v != 0))) := by
  obtain ⟨d', x, values, scalar, hdraws, hemits, hparams, hto, hx⟩ :=
    writeNode_constant (I := .comparing) (Γ := Γ) arm hg ht hs hm hk hout hnew
  rw [htype] at hto hx
  cases values with
  | nil => cases hto
  | cons v rest => exact ⟨d', _, x, Γ, v, rest, scalar, hdraws, hemits, hparams, .inr hx⟩

end Drafting

/-- A node whose code has been written, some steps before. -/
def Draft.Written [NameLimit] (d : Draft) (p : StagePlan) (i : Nat) : Prop :=
  ∃ (n : Node) (arm : Nat → Drafting Unit) (P : List UInt32) (d₀ d₁ : Draft)
    (vs : List (PortId × UInt32)), p.graph.nodes[i]? = some n ∧ d₀.Sound P ∧
    (∀ out ∈ n.outputs, d₀.values.lookup out = none) ∧
    Drafting.Draws (Drafting.writeNode p arm i n) d₀ () d₁ ∧ d₁.Goes d ∧
    d.values = vs ++ d₁.values ∧ ∀ e ∈ vs, d₁.values.lookup e.1 = none

namespace Drafting

variable [NameLimit] {I : Interpretation} {p : StagePlan} {d : Draft} {Γ : Context I} {P : List UInt32}
  {i j : Nat} {n m : Node} {a b c q out : PortId} (arm : Nat → Drafting Unit)

/-- **A constant whose code is written** is what its consumers receive. -/
theorem receives_constant {v : I.Value} (hg : p.graph.Consistent) (ht : p.graph.Typed p.typeOf)
    (hwritten : ∀ k, p.graph.producerPosition? q = some k → d.Written p k)
    (hv : p.graph.constantInput? I p.typeOf q = some v) : d.Receives p Γ q v := by
  rw [Graph.constantInput?] at hv
  cases hn : (p.graph.producerPosition? q).bind (p.graph.nodes[·]?) with
  | none =>
    rw [hn] at hv
    rw [Draft.Receives, hg.producer?_none hn]
    exact (Option.some.inj hv).symm
  | some n =>
    rw [hn] at hv
    obtain ⟨j, hj, hnode⟩ := Option.bind_eq_some_iff.1 hn
    obtain ⟨n', arm, P, d₀, d₁, vs, hn', hs, hnew, hdraws, hgoes, hvalues, hfresh⟩ := hwritten j hj
    rw [hnode] at hn'
    cases hn'
    obtain ⟨out, hmem, hout, htype⟩ := ht.feeding hg hj hnode
    dsimp only at hv
    split at hv
    · rename_i w scalar hk hparams
      obtain rfl := Option.some.inj hv
      obtain ⟨d₂, x, values, scalar', hdraws', hemits, hparams', hto, hx⟩ :=
        writeNode_constant (I := I) (Γ := Γ) arm hg ht hs hnode hk hmem (hnew out hmem)
      obtain rfl := hdraws.unique hdraws'
      rw [hparams] at hparams'
      cases hparams'
      have hreceives : d₁.Receives p Γ q (I.number (constantType [w] scalar) w) := by
        rw [Draft.Receives, hout]
        refine ⟨x, by rw [hemits.values]; exact List.lookup_cons_self, .inr ?_⟩
        obtain ⟨hconstant, hsize⟩ := ht.feeding_constant hg hj hnode hk hparams
        rw [htype, Interpretation.numbers, if_pos hsize] at hx
        rw [hconstant]
        exact hx
      exact hreceives.mono hgoes (List.Subset.refl _) hvalues hfresh
    · cases hv

/-- The code of a comparison of constants compares them as they are emitted. -/
theorem writeNode_comparison {test : Comparison} {x y : Float} {Γ : Context .comparing}
    (hg : p.graph.Consistent) (ht : p.graph.Typed p.typeOf) (hs : d.Sound P)
    (hm : p.graph.nodes[j]? = some m) (hk : m.kind = .compare) (hparams : m.params = .compare test)
    (htest : ∀ code, test ≠ .unknown code) (hin : m.inputs = [a, b]) (hout : out ∈ m.outputs)
    (hx : p.graph.scalarConstant? a = some x) (hy : p.graph.scalarConstant? b = some y)
    (hword : (p.typeOf a).isInt = true → InWord x ∧ InWord y) (hnew : d.values.lookup out = none)
    (hwritten : ∀ q ∈ m.inputs, ∀ k, p.graph.producerPosition? q = some k → d.Written p k) :
    ∃ d' k z Γ' op v w, Draws (writeNode p arm j m) d () d' ∧ d.Emits Γ [] k [(out, z)] d' Γ' [] ∧
      Known (d'.surroundings .comparing) Γ' z .bool (.value (.truth (op.compares [v, w]))) ∧
      test.instruction? (p.typeOf a).isInt = some op ∧ Reads (p.typeOf a) x v ∧
      Reads (p.typeOf a) y w := by
  obtain ⟨test', a', b', o, hparams', hin', hout', hta, htb, hto⟩ := ht.comparison hg hm hk
  rw [hparams] at hparams'
  cases hparams'
  rw [hin] at hin'
  cases hin'
  rw [hout', List.mem_singleton] at hout
  subst hout
  have hva : (p.typeOf a).isValue = true := by
    have hall : ∀ t ∈ [ValueType.float, .half, .int], t.isValue = true := by decide
    exact hall _ hta
  obtain ⟨v, hv, hreadv⟩ := Graph.constantInput_reads hg ht hta hx fun h => (hword h).1
  obtain ⟨w, hw, hreadw⟩ := Graph.constantInput_reads hg ht (htb ▸ hta) hy fun h => (hword (htb ▸ h)).2
  rw [htb] at hreadw
  obtain ⟨op, hop⟩ : ∃ op, test.instruction? (p.typeOf a).isInt = some op := by
    cases test with
    | unknown code => exact absurd rfl (htest code)
    | _ => cases (p.typeOf a).isInt <;> exact ⟨_, rfl⟩
  have hwrite : writeNode p arm j m = writeCompare p j m a b out := by
    simp only [writeNode, hk, NodeKind.operation?, hin, hout']
  have hra : d.Receives p Γ a v := receives_constant hg ht (hwritten a (by rw [hin]; simp)) hv
  have hrb : d.Receives p Γ b w := receives_constant hg ht (hwritten b (by rw [hin]; simp)) hw
  have hclear : ∀ q ∈ m.inputs, Clear p (· = out) q := by
    rw [hin, List.forall_mem_cons, List.forall_mem_singleton]
    exact ⟨clear_of_receives hra hnew, clear_of_receives hrb hnew⟩
  obtain ⟨_, d', h, -⟩ := succeeds_writeCompare (i := j) hclear hparams htest hin hva
    (by rw [htb]; exact hva) d fun o ho => ho ▸ hnew
  obtain ⟨k, z, Γ', hemits, hknown⟩ := writeCompare_computes hs hparams hop hta htb hra hrb hnew h
  exact ⟨d', k, z, Γ', op, v, w, hwrite ▸ h, hemits, hknown, hop, hreadv, hreadw⟩

/-- **The arm that is picked beforehand is the one that is picked at run time.**  Where the condition of
a conditional is foreseen, and the constants that it compares are written, the condition has code.  A
plan that folds nothing writes the conditional as a choice by what that code leaves, and from there on
the choice takes the arm that folding picks. -/
theorem writeNode_condition {budget : Int} {Γ : Context .comparing} (hg : p.graph.Built)
    (htypes : (p.graph.resolveTypes budget).1 = .ok p.types) (hlive : p.labels.live = fun _ => none)
    (hs : d.Sound P) (hn : p.graph.nodes[i]? = some n) (hk : n.kind = .conditional)
    (hin : n.inputs = [c, a, b]) (hj : p.graph.producerPosition? c = some j)
    (hm : p.graph.nodes[j]? = some m) (hforeseen : p.graph.Foreseen p.typeOf m)
    (hnew : ∀ o ∈ m.outputs, d.values.lookup o = none)
    (hwritten : ∀ q ∈ m.inputs, ∀ k, p.graph.producerPosition? q = some k → d.Written p k) :
    ∃ out d' k x Γ' holds, p.graph.producer? c = some out ∧ Draws (writeNode p arm j m) d () d' ∧
      d.Emits Γ [] k [(out, x)] d' Γ' [] ∧ Draws (operand p c) d' x d' ∧
      (∀ o, writeConditional p arm i n o = writeChoice p arm i c a b o) ∧
      Known (d'.surroundings .comparing) Γ' x .bool (.value (.truth holds)) ∧
      (∀ s Γ'', (d'.surroundings .comparing).Le s → Γ' ⊆ Γ'' → Selects s Γ'' x holds) ∧
      p.graph.foldCondition i = some (if holds then 0 else 1) := by
  have hc := hg.consistent
  have ht : p.graph.Typed p.typeOf := hc.typed htypes
  obtain ⟨out, hmem, hout, htype⟩ := ht.feeding hc hj hm
  obtain ⟨hchoice, hbool⟩ : (∀ o, writeConditional p arm i n o = writeChoice p arm i c a b o) ∧
      p.typeOf c = .bool := by
    cases ht.fits hc hn with
    | @conditional c' a' b' _ _ hin' _ hpc hpa hpb htc =>
      rw [hin] at hin'
      cases hin'
      have hnone : p.labels.liveArm i = none := by
        rw [Labels.liveArm, hlive]
        split <;> simp
      exact ⟨fun o => writeConditional_choice hin hpc hpa hpb hnone, htc⟩
    | arithmetic hop =>
      rw [hk] at hop
      cases hop
    | _ hk' =>
      rw [hk] at hk'
      cases hk'
  have hnode : (p.graph.producerPosition? c).bind (p.graph.nodes[·]?) = some m := by
    rw [hj, Option.bind_some, hm]
  -- the outcome of the condition, beforehand and at run time
  obtain ⟨d', k, x, Γ', holds, hdraws, hemits, hknown, hholds⟩ : ∃ d' k x Γ' holds,
      Draws (writeNode p arm j m) d () d' ∧ d.Emits Γ [] k [(out, x)] d' Γ' [] ∧
      Known (d'.surroundings .comparing) Γ' x .bool (.value (.truth holds)) ∧
      p.graph.knownCondition? c = some holds := by
    cases hforeseen with
    | truth hk =>
      obtain ⟨d', k, x, Γ', v, rest, scalar, hdraws, hemits, hparams, hknown⟩ :=
        writeNode_truth arm hc ht hs hm hk hmem (htype.trans hbool) (hnew out hmem)
      refine ⟨d', k, x, Γ', _, hdraws, hemits, hknown, ?_⟩
      rw [Graph.knownCondition?, hnode]
      simp only [hk, hparams]
    | comparison hk hparams htest hin hx hy hword hne =>
      obtain ⟨d', k, x, Γ', op, v, w, hdraws, hemits, hknown, hop, hv, hw⟩ := writeNode_comparison
        arm hc ht hs hm hk hparams htest hin hmem hx hy hword (hnew out hmem) hwritten
      rw [hv.compares hw hop hne] at hknown
      refine ⟨d', k, x, Γ', _, hdraws, hemits, hknown, ?_⟩
      rw [Graph.knownCondition?, hnode]
      simp only [hk, hparams, hin, hx, hy]
      rfl
  refine ⟨out, d', k, x, Γ', holds, hout, hdraws, hemits, ?_, hchoice, hknown,
    fun s Γ'' hle hΓ => selects_of_known ((hknown.mono hle).weaken hΓ), ?_⟩
  · have hvalue : d'.values.lookup out = some x := by
      rw [hemits.values]
      exact List.lookup_cons_self
    rw [operand, hout]
    dsimp only
    rw [resultId, draws_get_bind, hvalue]
    exact draws_pure.2 ⟨rfl, rfl⟩
  · rw [Graph.foldCondition, hn, Option.bind_eq_bind, Option.bind_some,
      if_neg (not_not_intro hk), hin, List.head?_cons, Option.bind_eq_bind, Option.bind_some, hholds]
    rfl

end Drafting

namespace Graph

/-- A conditional by a comparison of a constant with an open operand, which an output shows. -/
def comparing (test : Comparison) (x : Float) (scalar : ValueType) : Graph :=
  .grown [.node (Uuid.ofBytes [1]) "" .constant (.constant [x] scalar),
    .node (Uuid.ofBytes [2]) "" .compare (.compare test), .node (Uuid.ofBytes [3]) "" .time .none,
    .node (Uuid.ofBytes [4]) "" .conditional .none, .node (Uuid.ofBytes [5]) "" .previewOutput .none,
    .edge 0 1, .edge 3 5, .edge 4 6, .edge 8 9]

/-- A plan of its one stage that folds nothing. -/
def comparingPlan (test : Comparison) (x : Float) (scalar : ValueType) : StagePlan :=
  ⟨⟨comparing test x scalar, 4, fun _ => none⟩,
    #[scalar, scalar, scalar, .bool, .float, .bool, .float, .float, .float, .float], [], ⟨[], []⟩, false⟩

/-- Its constant. -/
def bound (x : Float) (scalar : ValueType) : Node :=
  ⟨Uuid.ofBytes [1], 0, "", .constant, .constant [x] scalar, [], [0]⟩

/-- Its conditional. -/
def chosen : Node := ⟨Uuid.ofBytes [4], 3, "", .conditional, .none, [5, 6, 7], [8]⟩

/-- The comparison that the conditional goes by. -/
def compared (test : Comparison) : Node :=
  ⟨Uuid.ofBytes [2], 1, "", .compare, .compare test, [1, 2], [3]⟩

/-- A draft in which a constant is written, and nothing else. -/
theorem exists_written [NameLimit] {p : StagePlan} {n : Node} {i : Nat} {out : PortId}
    (hg : p.graph.Consistent) (ht : p.graph.Typed p.typeOf) (hn : p.graph.nodes[i]? = some n)
    (hk : n.kind = .constant) (hout : n.outputs = [out]) :
    ∃ d : Draft, d.Sound [] ∧ (∀ o, o ≠ out → d.values.lookup o = none) ∧ d.Written p i := by
  have hs : (Draft.new .fragment).Sound [] := ModuleBuilder.sound_new _
  obtain ⟨d, x, -, -, hdraws, hemits, -⟩ := Drafting.writeNode_constant (I := .comparing) (Γ := [])
    (fun _ => pure ()) hg ht hs hn hk (by rw [hout]; exact List.mem_cons_self) rfl
  refine ⟨d, hemits.sound [] hs, fun o ho => ?_,
    n, _, [], _, d, [], hn, hs, fun _ _ => rfl, hdraws, ⟨rfl, List.Sublist.refl _⟩, rfl, nofun⟩
  rw [hemits.values, List.cons_append, List.lookup_cons, beq_false_of_ne ho]
  rfl

/-- Of the operands only the first has a producer. -/
theorem written_operands [NameLimit] {p : StagePlan} {d : Draft} {test : Comparison}
    (hfed : p.graph.producerPosition? 1 = some 0) (hopen : p.graph.producerPosition? 2 = none)
    (h : d.Written p 0) : ∀ q ∈ (compared test).inputs, ∀ k, p.graph.producerPosition? q = some k →
      d.Written p k := by
  rw [compared, List.forall_mem_cons, List.forall_mem_singleton, hfed, hopen]
  exact ⟨fun k hk => Option.some.inj hk ▸ h, nofun⟩

/-- At half precision 1e-8 is zero: that it equals an open operand is found beforehand, and at run
time. -/
theorem writeNode_condition_small :
    ∃ (d d' : Draft) (Γ : Context .comparing) (x : UInt32),
      Drafting.Draws (Drafting.writeNode (comparingPlan .equal 1e-8 .half) (fun _ => pure ()) 1
        (compared .equal)) d () d' ∧
      Known (d'.surroundings .comparing) Γ x .bool (.value (.truth true)) ∧
      Selects (d'.surroundings .comparing) Γ x true ∧
      (comparingPlan .equal 1e-8 .half).graph.foldCondition 3 = some 0 := by
  let _ : NameLimit := ⟨131072, Nat.le_refl _⟩
  let p := comparingPlan .equal 1e-8 .half
  have hn : (comparingPlan .equal 1e-8 .half).graph.nodes[3]? = some chosen := rfl
  have hm : (comparingPlan .equal 1e-8 .half).graph.nodes[1]? = some (compared .equal) := rfl
  have hk : (comparingPlan .equal 1e-8 .half).graph.nodes[0]? = some (bound 1e-8 .half) := rfl
  obtain ⟨hwithin, hfed, hopen, hj, ha, hb, hfold⟩ : p.graph.typesWithin? 30 = some p.types ∧
      p.graph.producerPosition? 1 = some 0 ∧ p.graph.producerPosition? 2 = none ∧
      p.graph.producerPosition? 5 = some 1 ∧ (p.graph.scalarConstant? 1).isSome = true ∧
      (p.graph.scalarConstant? 2).isSome = true ∧ p.graph.foldCondition 3 = some 0 := by
    decide +kernel
  have hconsistent : p.graph.Consistent := (Built.grown _).consistent
  have htypes : (p.graph.resolveTypes 0).1 = .ok p.types := resolveTypes_of_within hwithin
  obtain ⟨d, hsound, hnew, hwritten⟩ :=
    exists_written hconsistent (hconsistent.typed htypes) hk rfl rfl
  obtain ⟨a, ha⟩ := Option.isSome_iff_exists.1 ha
  obtain ⟨b, hb⟩ := Option.isSome_iff_exists.1 hb
  obtain ⟨_, d', -, x, Γ, holds, -, hdraws, -, -, -, hknown, hselects, harm⟩ :=
    Drafting.writeNode_condition (p := p) (fun _ => pure ()) (Γ := []) (Built.grown _) htypes rfl
      hsound hn rfl rfl hj hm (.comparison rfl rfl nofun rfl ha hb nofun nofun)
      (fun o ho => hnew o (by rw [List.mem_singleton.1 ho]; decide))
      (written_operands hfed hopen hwritten)
  obtain rfl : holds = true := by
    rw [hfold] at harm
    cases holds with
    | true => rfl
    | false => cases harm
  exact ⟨d, d', Γ, x, hdraws, hknown, hselects _ _ ⟨List.Subset.refl _, rfl, fun _ _ _ h => h⟩
    (List.Subset.refl _), hfold⟩

/-- A double that is no number differs from an open operand, so the first arm is picked beforehand.  The
instruction finds that they do not differ, and the second arm is picked at run time. -/
theorem writeNode_condition_unordered :
    ∃ (d d' : Draft) (Γ : Context .comparing) (x : UInt32),
      Drafting.Draws (Drafting.writeNode (comparingPlan .notEqual (0 / 0) .float) (fun _ => pure ()) 1
        (compared .notEqual)) d () d' ∧
      Known (d'.surroundings .comparing) Γ x .bool (.value (.truth false)) ∧
      Selects (d'.surroundings .comparing) Γ x false ∧
      (comparingPlan .notEqual (0 / 0) .float).graph.foldCondition 3 = some 0 := by
  let _ : NameLimit := ⟨131072, Nat.le_refl _⟩
  let p := comparingPlan .notEqual (0 / 0) .float
  have hm : (comparingPlan .notEqual (0 / 0) .float).graph.nodes[1]? = some (compared .notEqual) := rfl
  have hk : (comparingPlan .notEqual (0 / 0) .float).graph.nodes[0]? = some (bound (0 / 0) .float) := rfl
  obtain ⟨hwithin, hfed, hopen, ha, hb, hfold⟩ : p.graph.typesWithin? 30 = some p.types ∧
      p.graph.producerPosition? 1 = some 0 ∧ p.graph.producerPosition? 2 = none ∧
      (p.graph.scalarConstant? 1).any (·.isNaN) = true ∧ (p.graph.scalarConstant? 2).isSome = true ∧
      p.graph.foldCondition 3 = some 0 := by
    decide +kernel
  have hconsistent : p.graph.Consistent := (Built.grown _).consistent
  have htypes : (p.graph.resolveTypes 0).1 = .ok p.types := resolveTypes_of_within hwithin
  have htyped : p.graph.Typed p.typeOf := hconsistent.typed htypes
  obtain ⟨d, hsound, hnew, hwritten⟩ := exists_written hconsistent htyped hk rfl rfl
  obtain ⟨a, ha, hnan⟩ := (Option.any_eq_true _ _).1 ha
  obtain ⟨b, hb⟩ := Option.isSome_iff_exists.1 hb
  obtain ⟨d', _, x, Γ, op, v, w, hdraws, -, hknown, -, hv, hw⟩ :=
    Drafting.writeNode_comparison (p := p) (fun _ => pure ()) (Γ := []) hconsistent htyped hsound
      hm rfl rfl nofun rfl List.mem_cons_self ha hb nofun (hnew 3 (by decide))
      (written_operands hfed hopen hwritten)
  rw [hv.compares_unordered hw rfl (by rw [hnan]; rfl)] at hknown
  exact ⟨d, d', Γ, x, hdraws, hknown, selects_of_known hknown, hfold⟩

end Graph

end NodeShader
