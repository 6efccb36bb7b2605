import Mathlib.Data.List.GetD
import NodeShader.Proofs.Graph.Meaning
import NodeShader.Proofs.Number.Integers
import NodeShader.Proofs.Typing.Kinds
import NodeShader.Stage.Fold

/-!
# Folding integers

Arithmetic on integers is folded with doubles: the function is applied to them and the fraction of the
result is dropped.  The instruction that would stand there computes with words in two's complement
(`Interpretation.signed`).

* `foldComponent_signed`: **on doubles that stand for signed words** both agree, as long as a word can
  hold the result; `unary_signed` and `binary_signed` go through the eight functions of integers.
* `foldComponents_signed`: so do the constants that are emitted, component by component.
-/

namespace NodeShader

open Spirv

/-! ### Integers in two's complement -/

/-- The opcode of an instruction and its literals. -/
def Selection.call : Selection → Opcode × List UInt32
  | .core op => (op, [])
  | .extended function => (.extInst, [function])

namespace Spirv

/-- One component of what an instruction on signed words computes: sums and products wrap around, and a
quotient loses its fraction. -/
def Opcode.signed : Opcode → List UInt32 → List Int32 → Int32
  | .iAdd, _, [a, b] => a + b
  | .iSub, _, [a, b] => a - b
  | .iMul, _, [a, b] => a * b
  | .sDiv, _, [a, b] => a / b
  | .sNegate, _, [a] => -a
  | .extInst, [function], [a] => if function = Extended.sAbs then a.abs else 0
  | .extInst, [function], [a, b] =>
    if function = Extended.sMin then min a b
    else if function = Extended.sMax then max a b
    else 0
  | _, _, _ => 0

/-- **Integers in two's complement.**  A value is the list of its components, each of them a signed word.
Nothing is said of the inputs of a shader, nor of instructions on other types. -/
abbrev Interpretation.signed : Interpretation where
  Value := List Int32
  truth v := v.headD 0 != 0
  ofBool b := [if b then 1 else 0]
  truth_ofBool := by decide
  zero t := List.replicate t.size 0
  scalar _ w := [w.toInt32]
  composite _ vs := vs.flatten
  apply op literals t args :=
    (List.range t.size).map fun k => op.signed literals (args.map (·.getD k 0))
  member _ := []
  input _ := []
  invocation := []
  image _ := []
  sampler _ := []

end Spirv

/-! ### Words of whole numbers -/

section Exact

variable {a b : Int}

theorem ofInt_natAbs (ha : -2 ^ 31 < a) (ha' : a < 2 ^ 31) : Int32.ofInt a.natAbs = (Int32.ofInt a).abs := by
  have hto : (Int32.ofInt a).toInt = a := Int32.toInt_ofInt_of_le (Int.le_of_lt ha) ha'
  have hmin : (Int32.ofInt a).toBitVec ≠ BitVec.intMin 32 := by
    intro h
    have : (Int32.ofInt a).toInt = (BitVec.intMin 32).toInt := congrArg BitVec.toInt h
    rw [hto] at this
    have hvalue : (BitVec.intMin 32).toInt = -2 ^ 31 := by decide
    omega
  refine Int32.toInt_inj.1 ?_
  rw [Int32.toInt_ofInt_of_le (by omega) (by omega)]
  show _ = (Int32.ofInt a).abs.toBitVec.toInt
  rw [Int32.toBitVec_abs, BitVec.toInt_abs_eq_natAbs, if_neg hmin]
  exact congrArg (fun n : Int => (n.natAbs : Int)) hto.symm

variable (ha : -2 ^ 31 ≤ a) (ha' : a < 2 ^ 31) (hb : -2 ^ 31 ≤ b) (hb' : b < 2 ^ 31)
include ha ha' hb hb'

theorem ofInt_le_ofInt : Int32.ofInt a ≤ Int32.ofInt b ↔ a ≤ b := by
  rw [Int32.le_iff_toInt_le, Int32.toInt_ofInt_of_le ha ha', Int32.toInt_ofInt_of_le hb hb']

theorem ofInt_tdiv : Int32.ofInt (a.tdiv b) = Int32.ofInt a / Int32.ofInt b :=
  Int32.ofInt_tdiv ha (Int.le_sub_one_of_lt ha') hb (Int.le_sub_one_of_lt hb')

theorem ofInt_min : Int32.ofInt (min a b) = min (Int32.ofInt a) (Int32.ofInt b) := by
  show _ = if Int32.ofInt a ≤ Int32.ofInt b then Int32.ofInt a else Int32.ofInt b
  rw [Int.min_def]
  simp only [ofInt_le_ofInt ha ha' hb hb']
  split <;> rfl

theorem ofInt_max : Int32.ofInt (max a b) = max (Int32.ofInt a) (Int32.ofInt b) := by
  show _ = if Int32.ofInt a ≤ Int32.ofInt b then Int32.ofInt b else Int32.ofInt a
  rw [Int.max_def]
  simp only [ofInt_le_ofInt ha ha' hb hb']
  split <;> rfl

end Exact

/-! ### Folding -/

variable {f : Math.Operation} {t : ValueType} {args : List Float} {r : Float}

/-- A component that is folded on integers has lost its fraction, and nothing is divided by zero. -/
theorem foldComponent_spec (ht : t.isInt = true) (h : foldComponent f t args = some r) :
    (f = .binary .div → (args.getD 1 0 == 0) = false) ∧
      ∃ raw, f.valueAt? args = some raw ∧ r = truncated raw := by
  rw [foldComponent, ht] at h
  split at h
  · cases h
  · rename_i hzero
    obtain ⟨raw, hraw, h⟩ := Option.bind_eq_some_iff.1 h
    refine ⟨fun hf => ?_, raw, hraw, ?_⟩
    · simpa [hf] using hzero
    · have hround : t.round raw = truncated raw := if_pos ht
      rw [hround] at h
      dsimp only at h
      split at h
      · cases h
      · exact (Option.some.inj h).symm

/-- A double that stands for a signed word. -/
def HoldsWord (x : Float) (w : Int32) : Prop := Whole x w.toInt

instance (x : Float) (w : Int32) : Decidable (HoldsWord x w) := inferInstanceAs (Decidable (Whole _ _))

namespace HoldsWord

variable {x y : Float} {v w : Int32} {n : Int}

theorem of_whole (h : Whole x n) (hx : InWord x) : HoldsWord x (Int32.ofInt n) := by
  obtain ⟨hlo, hhi⟩ := h.bounds hx
  rw [HoldsWord, Int32.toInt_ofInt_of_le hlo hhi]
  exact h

/-- It is emitted as that word. -/
theorem signedWord (h : HoldsWord x w) : (NodeShader.signedWord x).toInt32 = w :=
  (Whole.signedWord h w.le_toInt w.toInt_lt).trans w.ofInt_toInt

theorem natAbs_lt (w : Int32) : w.toInt.natAbs < 2 ^ 53 := by
  have hlo := w.le_toInt
  have hhi := w.toInt_lt
  omega

end HoldsWord

/-- The instruction of a function of one argument, on words. -/
theorem unary_signed {g : Math.Unary} {s : Selection} {x : Float} {w : Int32}
    (hs : (Math.Operation.unary g).integral? = some s) (hx : HoldsWord x w)
    (hr : InWord (truncated (g.apply x))) :
    HoldsWord (truncated (g.apply x)) (s.call.1.signed s.call.2 [w]) := by
  have hw := HoldsWord.natAbs_lt w
  have hself := w.ofInt_toInt
  cases g with
  | neg =>
    cases hs
    have hneg := (Whole.neg hx hw).truncated (by rwa [Int.natAbs_neg])
    show HoldsWord _ (-w)
    rw [← hself, ← Int32.ofInt_neg]
    exact .of_whole hneg hr
  | abs =>
    cases hs
    have habs := (Whole.abs hx hw).truncated hw
    have hbounds := habs.bounds hr
    show HoldsWord _ w.abs
    rw [← hself, ← ofInt_natAbs (by omega) w.toInt_lt]
    exact .of_whole habs hr
  | _ => cases hs

/-- The instruction of a function of two arguments, on words. -/
theorem binary_signed {g : Math.Binary} {s : Selection} {x y : Float} {v w : Int32}
    (hs : (Math.Operation.binary g).integral? = some s) (hx : HoldsWord x v) (hy : HoldsWord y w)
    (hzero : g = .div → (y == 0) = false) (hr : InWord (truncated (g.apply x y))) :
    HoldsWord (truncated (g.apply x y)) (s.call.1.signed s.call.2 [v, w]) := by
  have hv := HoldsWord.natAbs_lt v
  have hw := HoldsWord.natAbs_lt w
  have hvlo := v.le_toInt
  have hvhi := v.toInt_lt
  have hwlo := w.le_toInt
  have hwhi := w.toInt_lt
  have hself := v.ofInt_toInt
  have hself' := w.ofInt_toInt
  -- the word of the result is that of the number the result stands for
  have hword : ∀ {n : Int} {u : Int32}, Whole (truncated (g.apply x y)) n → Int32.ofInt n = u →
      HoldsWord (truncated (g.apply x y)) u := fun h hu => hu ▸ .of_whole h hr
  cases g with
  | add =>
    cases hs
    refine hword ((Whole.add hx hy hv hw (by omega)).truncated (by omega)) ?_
    rw [Int32.ofInt_add, hself, hself']
    rfl
  | sub =>
    cases hs
    refine hword ((Whole.sub hx hy hv hw (by omega)).truncated (by omega)) ?_
    rw [Int32.ofInt_sub, hself, hself']
    rfl
  | mul =>
    cases hs
    have hlt := Whole.mul_natAbs_lt hx hy hv hw hr
    refine hword ((Whole.mul hx hy hv hw hlt).truncated hlt) ?_
    rw [Int32.ofInt_mul, hself, hself']
    rfl
  | div =>
    cases hs
    have hne : w.toInt ≠ 0 := of_decide_eq_false ((Whole.eq_zero hy hw).symm.trans (hzero rfl))
    refine hword (Whole.div hx hy (by omega) (by omega) hne) ?_
    rw [ofInt_tdiv hvlo hvhi hwlo hwhi, hself, hself']
    rfl
  | min =>
    cases hs
    refine hword ((Whole.minimum hx hy hv hw).truncated (by omega)) ?_
    rw [ofInt_min hvlo hvhi hwlo hwhi, hself, hself']
    rfl
  | max =>
    cases hs
    refine hword ((Whole.maximum hx hy hv hw).truncated (by omega)) ?_
    rw [ofInt_max hvlo hvhi hwlo hwhi, hself, hself']
    rfl
  | pow => cases hs

/-- **A folded component** is what the instruction computes, if a signed word can hold it. -/
theorem foldComponent_signed {s : Selection} {ws : List Int32} (ht : t.isInt = true)
    (hs : f.integral? = some s) (hlen : args.length = f.arity) (hargs : List.Forall₂ HoldsWord args ws)
    (h : foldComponent f t args = some r) (hr : InWord r) :
    HoldsWord r (s.call.1.signed s.call.2 ws) := by
  obtain ⟨hzero, raw, hraw, rfl⟩ := foldComponent_spec ht h
  cases f with
  | mix => cases hs
  | unary g =>
    cases hargs with
    | nil => cases hlen
    | cons hx hrest =>
      cases hrest with
      | cons => cases hlen
      | nil =>
        cases hraw
        exact unary_signed hs hx hr
  | binary g =>
    cases hargs with
    | nil => cases hlen
    | cons hx hrest =>
      cases hrest with
      | nil => cases hlen
      | cons hy hrest =>
        cases hrest with
        | cons => cases hlen
        | nil =>
          cases hraw
          exact binary_signed hs hx hy (fun hg => hzero (congrArg _ hg)) hr

/-! ### Vectors -/

/-- One component of an operand; a single value stands for every component. -/
def componentAt (values : List Float) (k : Nat) : Float :=
  if 1 < values.length then values.getD k 0 else values.getD 0 0

theorem isValue_of_isInt (ht : t.isInt = true) : t.isValue = true :=
  ValueType.isValue_of_isNumeric (by rw [ValueType.isNumeric, ht, Bool.or_true])

theorem number_signed (x : Float) :
    Interpretation.signed.number .int x = [(signedWord x).toInt32] := rfl

/-- The words of numbers as a constant of an integer type. -/
theorem numbers_signed (ht : t.isInt = true) (values : List Float) :
    Interpretation.signed.numbers t values =
      (List.range t.size).map fun k => (signedWord (componentAt values k)).toInt32 := by
  have hall : ∀ t ∈ ValueType.values, t.isInt = true → t.scalar = .int ∧ (t.size = 1 → t = .int) := by
    decide
  obtain ⟨hscalar, hint⟩ := hall t (ValueType.mem_values (isValue_of_isInt ht)) ht
  rw [Interpretation.numbers]
  split
  · rename_i hone
    rw [hone, hint hone, number_signed, List.range_one, List.map_singleton, componentAt, ite_self]
  · rw [hscalar]
    simp only [number_signed]
    show (List.map _ _).flatten = _
    rw [← List.flatMap_def, List.map_eq_flatMap]
    rfl

/-- A component of an operand is one of its numbers, or zero. -/
theorem componentAt_mem (values : List Float) (k : Nat) :
    componentAt values k ∈ values ∨ componentAt values k = 0 := by
  have hget : ∀ j, values.getD j 0 ∈ values ∨ values.getD j 0 = 0 := fun j => by
    rw [List.getD_eq_getElem?_getD]
    cases hj : values[j]? with
    | none => exact .inr rfl
    | some x => exact .inl (List.mem_of_getElem? hj)
  rw [componentAt]
  split
  · exact hget k
  · exact hget 0

theorem holdsWord_zero : HoldsWord 0 0 := Whole.of_stands (.zero .positive)

/-- The words of an open input. -/
theorem null_signed (ht : t.isInt = true) : Interpretation.signed.null t.shape =
    Interpretation.signed.numbers t (List.replicate t.size 0) := by
  have hne : ∀ t ∈ ValueType.values, t.isInt = true → t.shape ≠ .bool := by decide
  have hv := isValue_of_isInt ht
  have hzero : ∀ k, componentAt (List.replicate t.size 0) k = 0 := fun k =>
    (componentAt_mem _ k).elim List.eq_of_mem_replicate id
  rw [Interpretation.null, if_neg (hne t (ValueType.mem_values hv) ht), numbers_signed ht]
  simp only [hzero, holdsWord_zero.signedWord, List.map_const', List.length_range]
  show List.replicate t.shape.size 0 = _
  rw [ValueType.shape_size hv]

/-- **Folding integers**: the constant that is emitted for the folded components is what the instruction
computes from the constants that are emitted for the operands. -/
theorem foldComponents_signed {s : Selection} {operands : List (List Float)} {values : List Float}
    (ht : t.isInt = true) (hs : f.integral? = some s) (hlen : operands.length = f.arity)
    (hargs : ∀ vs ∈ operands, ∀ x ∈ vs, ∃ w, HoldsWord x w)
    (h : foldComponents f t operands = some values) (hr : ∀ x ∈ values, InWord x) :
    Interpretation.signed.numbers t values =
      Interpretation.signed.apply s.call.1 s.call.2 t.shape
        (operands.map (Interpretation.signed.numbers t)) := by
  have hf : f ≠ .unary .normalize := by
    rintro rfl
    cases hs
  rw [foldComponents, if_neg hf, mapM_eq_some] at h
  have hsize : values.length = t.size := h.length_eq.symm.trans List.length_range
  have hholds : ∀ vs ∈ operands, ∀ k, HoldsWord (componentAt vs k) (signedWord (componentAt vs k)).toInt32 := by
    intro vs hvs k
    obtain ⟨w, hw⟩ : ∃ w, HoldsWord (componentAt vs k) w := (componentAt_mem vs k).elim
      (fun hmem => hargs vs hvs _ hmem) fun hzero => ⟨0, hzero ▸ holdsWord_zero⟩
    rwa [hw.signedWord]
  rw [numbers_signed ht]
  show _ = (List.range t.shape.size).map _
  rw [ValueType.shape_size (isValue_of_isInt ht)]
  refine List.map_congr_left fun k hk => ?_
  have hk := List.mem_range.1 hk
  -- the component of the result, and those of the operands
  have hget : componentAt values k = values[k] := by
    rw [componentAt]
    split
    · exact List.getD_eq_getElem _ _ _
    · obtain rfl : k = 0 := by omega
      exact List.getD_eq_getElem _ _ _
  have hfold : foldComponent f t (operands.map (componentAt · k)) = some values[k] := by
    have hnth := (List.forall₂_iff_get.1 h).2 k (by simpa using hk) (by omega)
    rwa [List.get_eq_getElem, List.getElem_range] at hnth
  have hwords : operands.map (fun vs => (Interpretation.signed.numbers t vs).getD k 0) =
      operands.map fun vs => (signedWord (componentAt vs k)).toInt32 := by
    refine List.map_congr_left fun vs _ => ?_
    rw [numbers_signed ht, List.getD_eq_getElem _ _ (by simpa using hk)]
    simp
  rw [List.map_map, hget]
  show _ = s.call.1.signed s.call.2 (operands.map fun vs => (Interpretation.signed.numbers t vs).getD k 0)
  rw [hwords]
  refine (foldComponent_signed ht hs (by simpa using hlen) ?_ hfold (hr _ (List.getElem_mem _))).signedWord
  rw [List.forall₂_map_left_iff, List.forall₂_map_right_iff]
  exact List.forall₂_same.2 fun vs hvs => hholds vs hvs k

end NodeShader
