import NodeShader.Number.FloatFormat
import NodeShader.Proofs.Spirv.Typing
import NodeShader.ValueType

/-!
# Value types as types of the intermediate language

Numbers, vectors and truth values can be written (`ValueType.isValue`), each as one type of the
intermediate language (`ValueType.shape`).  There are thirteen of them, so what holds of all is
checked one by one.
-/

namespace NodeShader

open Spirv

namespace ValueType

/-- The type of the intermediate language that a value type is written as. -/
def shape (t : ValueType) : Ty :=
  let scalar : Ty :=
    if t.isFloat then .float 32 else if t.isHalf then .float 16
    else if t.isInt then .int 32 true else .bool
  if t.size = 1 then scalar else .vector scalar t.size.toUInt32

/-- Whether values of the type can be written: numbers, vectors and truth values. -/
def isValue (t : ValueType) : Bool := t.isNumeric || t = .bool

/-- The literal word of a number at the precision of a scalar type. -/
def word (t : ValueType) (x : Float) : UInt32 :=
  if t = .float then singleBits x
  else if t = .half then halfBits (floatOfSingle (singleBits x))
  else signedWord x

/-- The types whose values can be written. -/
def values : List ValueType := (List.range' 1 13).map fun (n : Nat) => ⟨(n : Int)⟩

theorem mem_values {t : ValueType} (h : t.isValue = true) : t ∈ values := by
  obtain ⟨code⟩ := t
  have hc : 1 ≤ code ∧ code ≤ 13 := by
    simp only [isValue, isNumeric, isFloating, isFloat, isHalf, isInt, bool, Bool.or_eq_true,
      Bool.and_eq_true, decide_eq_true_eq, ValueType.mk.injEq] at h
    omega
  rw [values, List.mem_map]
  refine ⟨code.toNat, List.mem_range'_1.2 (by omega), ?_⟩
  rw [ValueType.mk.injEq]
  omega

theorem isValue_of_isNumeric {t : ValueType} (h : t.isNumeric = true) : t.isValue = true := by
  rw [isValue, h, Bool.true_or]

/-- A vector type is a vector of its scalar type. -/
theorem shape_of_size_ne_one {t : ValueType} (h : t.isValue = true) (hn : t.size ≠ 1) :
    t.shape = .vector t.scalar.shape t.size.toUInt32 := by
  have hall : ∀ t ∈ values, t.size ≠ 1 → t.shape = .vector t.scalar.shape t.size.toUInt32 := by
    decide
  exact hall t (mem_values h) hn

theorem shape_component {t : ValueType} (h : t.isValue = true) :
    t.shape.component = t.scalar.shape := by
  have hall : ∀ t ∈ values, t.shape.component = t.scalar.shape := by decide
  exact hall t (mem_values h)

theorem shape_component_isScalar {t : ValueType} (h : t.isValue = true) :
    t.shape.component.isScalar = true := by
  have hall : ∀ t ∈ values, t.shape.component.isScalar = true := by decide
  exact hall t (mem_values h)

theorem shape_size {t : ValueType} (h : t.isValue = true) : t.shape.size = t.size := by
  have hall : ∀ t ∈ values, t.shape.size = t.size := by decide
  exact hall t (mem_values h)

/-- A value has one to four components. -/
theorem size_bounds {t : ValueType} (h : t.isValue = true) : 1 ≤ t.size ∧ t.size ≤ 4 := by
  have hall : ∀ t ∈ values, 1 ≤ t.size ∧ t.size ≤ 4 := by decide
  exact hall t (mem_values h)

theorem shape_isFloating {t : ValueType} (h : t.isFloating = true) : t.shape.isFloating = true := by
  have hall : ∀ t ∈ values, t.isFloating = true → t.shape.isFloating = true := by decide
  exact hall t (mem_values (isValue_of_isNumeric (by rw [isNumeric, h, Bool.true_or]))) h

theorem shape_isSigned {t : ValueType} (h : t.isInt = true) : t.shape.isSigned = true := by
  have hall : ∀ t ∈ values, t.isInt = true → t.shape.isSigned = true := by decide
  exact hall t (mem_values (isValue_of_isNumeric (by rw [isNumeric, h, Bool.or_true]))) h

end ValueType

end NodeShader
