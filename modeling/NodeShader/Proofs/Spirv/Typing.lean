import NodeShader.Spirv.Builder
import NodeShader.Total

/-!
# Operands and types of instructions

An operand word is a literal, a label, or the identifier of a type or a value.  `Opcode.layout`
says which is which, and the views below it take an instruction apart by it:

* `Instruction.values`: the values an instruction works on, `Instruction.literals`: its literals.
* `Instruction.reads`: every identifier it reads but labels, its result type included.
* `Instruction.labels`: the labels it names, as targets, as merge block or as parents of a phi.

A type identifier stands for a type (`TypeAt`), read off the declarations of the module.  Structs are
told apart by their identifier, since each is decorated on its own; all other types are equal when
their parts are.  `Signature` is the table of what each instruction that computes a value takes and
gives: the same table is used for well-typedness, for the meaning of code and for Metal source.
-/

namespace NodeShader.Spirv

/-! ### Operands -/

/-- The places of the identifiers among the arguments of an instruction. -/
inductive Layout where
  /-- All arguments after the first `skip` are values. -/
  | values (skip : Nat)
  /-- The first `count` arguments are values, the rest are literals. -/
  | leading (count : Nat)
  /-- Two values, then a mask and the values it asks for. -/
  | sampling
  /-- The instruction set, the number of a function, and its arguments. -/
  | extended
  /-- The execution model, the function, a name, and the variables of the interface. -/
  | entryPoint
  /-- Values, each followed by the label of the block it comes from. -/
  | phi
  /-- The first `count` arguments are values, the next `targets` are labels. -/
  | jump (count targets : Nat)
  deriving DecidableEq, Repr

/-- The instructions whose arguments are not all values. -/
def layouts : List (Opcode × Layout) :=
  [(.capability, .leading 0), (.extension, .leading 0), (.extInstImport, .leading 0),
    (.memoryModel, .leading 0), (.entryPoint, .entryPoint), (.executionMode, .leading 1),
    (.debugName, .leading 1), (.memberName, .leading 1), (.decorate, .leading 1),
    (.memberDecorate, .leading 1), (.typeInt, .leading 0), (.typeFloat, .leading 0),
    (.typeVector, .leading 1), (.typeMatrix, .leading 1), (.typeImage, .leading 1),
    (.typePointer, .values 1), (.constant, .leading 0), (.variableDecl, .values 1),
    (.function, .values 1), (.vectorShuffle, .leading 2), (.compositeExtract, .leading 1),
    (.imageSampleImplicitLod, .sampling), (.imageSampleExplicitLod, .sampling),
    (.extInst, .extended), (.phi, .phi), (.selectionMerge, .jump 0 1), (.branch, .jump 0 1),
    (.branchConditional, .jump 1 2)]

def Opcode.layout (op : Opcode) : Layout := (layouts.lookup op).getD (.values 0)

/-- The elements at even places. -/
def evens {α : Type} : List α → List α
  | a :: _ :: rest => a :: evens rest
  | [a] => [a]
  | [] => []

/-- The elements at odd places. -/
def odds {α : Type} : List α → List α
  | _ :: b :: rest => b :: odds rest
  | _ => []

namespace Instruction

/-- The identifiers of the values an instruction works on. -/
def values (i : Instruction) : List UInt32 :=
  match i.opcode.layout with
  | .values skip => i.args.drop skip
  | .leading count => i.args.take count
  | .sampling => i.args.take 2 ++ i.args.drop 3
  | .extended => i.args.drop 2
  | .entryPoint =>
    (i.args.drop 1).take 1 ++ (i.args.drop 2).drop (readName (i.args.drop 2)).2
  | .phi => evens i.args
  | .jump count _ => i.args.take count

/-- The literals of an instruction that computes a value. -/
def literals (i : Instruction) : List UInt32 :=
  match i.opcode.layout with
  | .leading count => i.args.drop count
  | .sampling => (i.args.drop 2).take 1
  | .extended => (i.args.drop 1).take 1
  | _ => []

/-- The labels an instruction names. -/
def labels (i : Instruction) : List UInt32 :=
  match i.opcode.layout with
  | .jump count targets => (i.args.drop count).take targets
  | .phi => odds i.args
  | _ => []

/-- The identifiers an instruction reads: its result type, the instruction set, its values. -/
def reads (i : Instruction) : List UInt32 :=
  (if i.opcode.hasType then [i.resultType] else [])
    ++ (if i.opcode.layout = .extended then i.args.take 1 else []) ++ i.values

/-- The result identifier, if the instruction has one. -/
def result? (i : Instruction) : Option UInt32 := if i.opcode.hasResult then some i.result else none

end Instruction

/-- The instructions that end a block. -/
def terminators : List Opcode := [.branch, .branchConditional, .returnVoid, .returnValue, .kill]

def Instruction.isTerminator (i : Instruction) : Bool := terminators.contains i.opcode

/-! ### Types -/

/-- A type of the intermediate language. -/
inductive Ty where
  | void
  | bool
  | int (width : UInt32) (signed : Bool)
  | float (width : UInt32)
  | vector (component : Ty) (count : UInt32)
  | matrix (column : Ty) (count : UInt32)
  | image (component : Ty) (dim sampled format : UInt32)
  | sampler
  | sampledImage (image : Ty)
  | struct (id : UInt32)
  | pointer (storage : UInt32) (pointee : Ty)
  | function (result : Ty)
  deriving DecidableEq, Repr

namespace Ty

/-- The type of one component. -/
def component : Ty → Ty
  | vector c _ => c
  | t => t

/-- The number of components. -/
def size : Ty → Nat
  | vector _ n => n.toNat
  | _ => 1

/-- A number or a truth value. -/
def isScalar : Ty → Bool
  | bool | int .. | float _ => true
  | _ => false

/-- A floating point number or a vector of them. -/
def isFloating : Ty → Bool
  | float _ | vector (float _) _ => true
  | _ => false

/-- A signed integer or a vector of them. -/
def isSigned : Ty → Bool
  | int _ true | vector (int _ true) _ => true
  | _ => false

/-- The coordinate that an image of a dimension code is sampled at. -/
def coordinate : UInt32 → Ty
  | 0 => float 32
  | 1 => vector (float 32) 2
  | _ => vector (float 32) 3

/-- The coordinate of a texel that is written. -/
def texel : UInt32 → Ty
  | 0 => int 32 false
  | 1 => vector (int 32 false) 2
  | _ => vector (int 32 false) 3

/-- A colour. -/
def colour : Ty := vector (float 32) 4

end Ty

/-- What a type identifier stands for, by the declarations among some instructions. -/
inductive TypeAt (decls : List Instruction) : UInt32 → Ty → Prop
  | void {x : UInt32} : ⟨.typeVoid, [x]⟩ ∈ decls → TypeAt decls x .void
  | bool {x : UInt32} : ⟨.typeBool, [x]⟩ ∈ decls → TypeAt decls x .bool
  | int {x w s : UInt32} : ⟨.typeInt, [x, w, s]⟩ ∈ decls → TypeAt decls x (.int w (s != 0))
  | float {x w : UInt32} : ⟨.typeFloat, [x, w]⟩ ∈ decls → TypeAt decls x (.float w)
  | vector {x c n : UInt32} {t : Ty} : ⟨.typeVector, [x, c, n]⟩ ∈ decls → TypeAt decls c t →
      TypeAt decls x (.vector t n)
  | matrix {x c n : UInt32} {t : Ty} : ⟨.typeMatrix, [x, c, n]⟩ ∈ decls → TypeAt decls c t →
      TypeAt decls x (.matrix t n)
  | image {x c d a b e s f : UInt32} {t : Ty} : ⟨.typeImage, [x, c, d, a, b, e, s, f]⟩ ∈ decls →
      TypeAt decls c t → TypeAt decls x (.image t d s f)
  | sampler {x : UInt32} : ⟨.typeSampler, [x]⟩ ∈ decls → TypeAt decls x .sampler
  | sampledImage {x c : UInt32} {t : Ty} : ⟨.typeSampledImage, [x, c]⟩ ∈ decls →
      TypeAt decls c t → TypeAt decls x (.sampledImage t)
  | struct {x : UInt32} {ms : List UInt32} : ⟨.typeStruct, x :: ms⟩ ∈ decls →
      TypeAt decls x (.struct x)
  | pointer {x s c : UInt32} {t : Ty} : ⟨.typePointer, [x, s, c]⟩ ∈ decls → TypeAt decls c t →
      TypeAt decls x (.pointer s t)
  | function {x c : UInt32} {t : Ty} : ⟨.typeFunction, [x, c]⟩ ∈ decls → TypeAt decls c t →
      TypeAt decls x (.function t)

/-- More declarations keep the types there are. -/
theorem TypeAt.mono {decls decls' : List Instruction} (h : decls ⊆ decls') {x : UInt32} {t : Ty}
    (ht : TypeAt decls x t) : TypeAt decls' x t := by
  induction ht with
  | void hm => exact .void (h hm)
  | bool hm => exact .bool (h hm)
  | int hm => exact .int (h hm)
  | float hm => exact .float (h hm)
  | vector hm _ ih => exact .vector (h hm) ih
  | matrix hm _ ih => exact .matrix (h hm) ih
  | image hm _ ih => exact .image (h hm) ih
  | sampler hm => exact .sampler (h hm)
  | sampledImage hm _ ih => exact .sampledImage (h hm) ih
  | struct hm => exact .struct (h hm)
  | pointer hm _ ih => exact .pointer (h hm) ih
  | function hm _ ih => exact .function (h hm) ih

/-- A type identifier is the result of a declaration. -/
theorem TypeAt.declared {decls : List Instruction} {x : UInt32} {t : Ty} (h : TypeAt decls x t) :
    ∃ i ∈ decls, i.result? = some x := by
  cases h
  all_goals exact ⟨_, ‹_›, rfl⟩

/-! ### Signatures -/

def floatingOps : List Opcode := [.fAdd, .fSub, .fMul, .fDiv]

def integralOps : List Opcode := [.iAdd, .iSub, .iMul, .sDiv]

def floatingComparisons : List Opcode :=
  [.fOrdLessThan, .fOrdLessThanEqual, .fOrdGreaterThan, .fOrdGreaterThanEqual, .fOrdEqual,
    .fOrdNotEqual]

def integralComparisons : List Opcode :=
  [.sLessThan, .sLessThanEqual, .sGreaterThan, .sGreaterThanEqual, .iEqual, .iNotEqual]

/-- The functions of one floating point argument. -/
def floatingFunctions : List UInt32 :=
  [Extended.fAbs, Extended.floor, Extended.fract, Extended.sin, Extended.cos, Extended.sqrt,
    Extended.normalize]

/-- The functions of two floating point arguments. -/
def floatingFunctions2 : List UInt32 := [Extended.pow, Extended.fMin, Extended.fMax]

/-- The functions of two integer arguments. -/
def integralFunctions2 : List UInt32 := [Extended.sMin, Extended.sMax]

/-- **The types of an instruction that computes a value**: its literals, the types of its operands,
and the type of its result. -/
inductive Signature : Opcode → List UInt32 → List Ty → Ty → Prop
  | floating {op : Opcode} {t : Ty} : op ∈ floatingOps → t.isFloating → Signature op [] [t, t] t
  | integral {op : Opcode} {t : Ty} : op ∈ integralOps → t.isSigned → Signature op [] [t, t] t
  | fNegate {t : Ty} : t.isFloating → Signature .fNegate [] [t] t
  | sNegate {t : Ty} : t.isSigned → Signature .sNegate [] [t] t
  | compareFloating {op : Opcode} {w : UInt32} : op ∈ floatingComparisons →
      Signature op [] [.float w, .float w] .bool
  | compareIntegral {op : Opcode} {w : UInt32} : op ∈ integralComparisons →
      Signature op [] [.int w true, .int w true] .bool
  | dot {w n : UInt32} :
      Signature .dot [] [.vector (.float w) n, .vector (.float w) n] (.float w)
  | construct {ts : List Ty} {c : Ty} {n : UInt32} : c.isScalar → (∀ t ∈ ts, t.component = c) →
      total Ty.size ts = n.toNat → Signature .compositeConstruct [] ts (.vector c n)
  | extract {k n : UInt32} {c : Ty} : k < n → Signature .compositeExtract [k] [.vector c n] c
  | shuffle {ks : List UInt32} {n m : UInt32} {c : Ty} : (∀ k ∈ ks, k < n) → n ≤ 4 →
      ks.length = m.toNat → Signature .vectorShuffle ks [.vector c n, .vector c n] (.vector c m)
  | convert {n : UInt32} :
      Signature .convertUToF [] [.vector (.int 32 false) n] (.vector (.float 32) n)
  | join {c : Ty} {d f : UInt32} :
      Signature .sampledImage [] [.image c d 1 f, .sampler] (.sampledImage (.image c d 1 f))
  | sampleImplicit {c : Ty} {d f : UInt32} :
      Signature .imageSampleImplicitLod [] [.sampledImage (.image c d 1 f), .coordinate d] .colour
  | sampleExplicit {c : Ty} {d f : UInt32} :
      Signature .imageSampleExplicitLod [imageOperandsLod]
        [.sampledImage (.image c d 1 f), .coordinate d, .float 32] .colour
  | transform {c : Ty} {n m : UInt32} :
      Signature .matrixTimesVector [] [.matrix (.vector c n) m, .vector c m] (.vector c n)
  | function {k : UInt32} {t : Ty} : k ∈ floatingFunctions → t.isFloating →
      Signature .extInst [k] [t] t
  | sAbs {t : Ty} : t.isSigned → Signature .extInst [Extended.sAbs] [t] t
  | function2 {k : UInt32} {t : Ty} : k ∈ floatingFunctions2 → t.isFloating →
      Signature .extInst [k] [t, t] t
  | integral2 {k : UInt32} {t : Ty} : k ∈ integralFunctions2 → t.isSigned →
      Signature .extInst [k] [t, t] t
  | fMix {t : Ty} : t.isFloating → Signature .extInst [Extended.fMix] [t, t, t] t
  | length {t : Ty} : t.isFloating → Signature .extInst [Extended.length] [t] t.component

/-- An instruction that computes a value has a result type and a result. -/
theorem Signature.typed {op : Opcode} {ls : List UInt32} {ts : List Ty} {t : Ty}
    (h : Signature op ls ts t) : op.hasType = true ∧ op.hasResult = true := by
  have hall : ∀ op ∈ floatingOps ++ integralOps ++ floatingComparisons ++ integralComparisons,
      op.hasType = true ∧ op.hasResult = true := by decide
  cases h
  case floating hop _ => exact hall _ (by simp [hop])
  case integral hop _ => exact hall _ (by simp [hop])
  case compareFloating hop => exact hall _ (by simp [hop])
  case compareIntegral hop => exact hall _ (by simp [hop])
  all_goals exact ⟨rfl, rfl⟩

end NodeShader.Spirv
