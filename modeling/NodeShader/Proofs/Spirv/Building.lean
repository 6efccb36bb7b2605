import Mathlib.Data.List.Nodup
import NodeShader.Proofs.Spirv.Typing

/-!
# What a builder keeps

The laws of a module under construction (`ModuleBuilder.Sound`), relative to the identifiers that
have been handed out and wait for their instruction:

* `alloc`: the results of the instructions, with the waiting identifiers, are exactly the
  identifiers handed out so far.  So each identifier handed out ends up as the result of one
  instruction, and they are pairwise distinct as long as they fit in a word.
* `declared`: what is listed as declared stands in the section of types.
* `forms`: every instruction outside of functions has one of the forms of `Form`: what it refers to
  was handed out, and is of the type it must have.

Each step of assembling keeps them: `sound_alloc`, `sound_push` and `sound_pushResult`, and
`sound_extend` for instructions that only make sense together.
-/

namespace NodeShader.Spirv

/-- A bound on the number of bytes of a name. -/
class NameLimit where
  bytes : Nat
  large : 131072 ≤ bytes

/-- The longest list of words a name takes. -/
def nameWordLimit [NameLimit] : Nat := NameLimit.bytes / 4 + 3

/-- The words a name takes. -/
theorem length_nameWords (bytes : List UInt8) :
    (nameWords bytes).length = bytes.length / 4 + 1 := by
  fun_induction nameWords bytes with
  | case1 a b c d rest ih =>
    rw [List.length_cons, ih]
    simp only [List.length_cons]
    omega
  | case2 => simp
  | case3 => simp
  | case4 => simp
  | case5 => rfl

/-- The decorations of identifiers that occur, with their parameters. -/
inductive Decorated : UInt32 → List UInt32 → Prop
  | block : Decorated Decoration.block []
  | nonReadable : Decorated Decoration.nonReadable []
  | descriptorSet (k : UInt32) : Decorated Decoration.descriptorSet [k]
  | binding (k : UInt32) : Decorated Decoration.binding [k]
  | location (k : UInt32) : Decorated Decoration.location [k]
  | position : Decorated Decoration.builtIn [BuiltIn.position]
  | invocation : Decorated Decoration.builtIn [BuiltIn.globalInvocationId]

/-- An identifier with a set and a slot, by the annotations of the module. -/
def Bound (A : List Instruction) (x : UInt32) : Prop :=
  (∃ k, ⟨.decorate, [x, Decoration.descriptorSet, k]⟩ ∈ A) ∧
    ∃ k, ⟨.decorate, [x, Decoration.binding, k]⟩ ∈ A

/-- An identifier with a location or a built-in meaning. -/
def Located (A : List Instruction) (x : UInt32) : Prop :=
  (∃ k, ⟨.decorate, [x, Decoration.location, k]⟩ ∈ A) ∨
    ∃ k, ⟨.decorate, [x, Decoration.builtIn, k]⟩ ∈ A

/-- What a variable of a storage class may hold, and how it is annotated. -/
inductive Placed (A : List Instruction) (x : UInt32) : UInt32 → Ty → Prop
  | block {id : UInt32} : Bound A x → Placed A x StorageClass.uniform (.struct id)
  | image {d s f : UInt32} : d < 3 → Bound A x →
      Placed A x StorageClass.uniformConstant (.image (.float 32) d s f)
  | sampler : Bound A x → Placed A x StorageClass.uniformConstant .sampler
  | input {ty : Ty} : ty.component.isScalar → Located A x → Placed A x StorageClass.input ty
  | output {ty : Ty} : ty.component.isScalar → Located A x → Placed A x StorageClass.output ty

/-- A scalar constant of a type. -/
def ScalarConstant (D : List Instruction) (x : UInt32) (ty : Ty) : Prop :=
  ∃ t, TypeAt D t ty ∧ ((∃ w, ⟨.constant, [t, x, w]⟩ ∈ D) ∨ ⟨.constantTrue, [t, x]⟩ ∈ D ∨
    ⟨.constantFalse, [t, x]⟩ ∈ D)

/-- The instructions outside of functions, with `D` the declarations of the module, `A` its
annotations and `R` the identifiers that were handed out: the section each instruction stands in, how
many operands it has, and what its operands are. -/
inductive Form [NameLimit] (D A : List Instruction) (R : List UInt32) : Section → Instruction → Prop
  | capability {c : UInt32} : Form D A R .capabilities ⟨.capability, [c]⟩
  | importSet {x : UInt32} :
      Form D A R .imports ⟨.extInstImport, x :: nameWords (Text.bytes extendedSet)⟩
  | memoryModel {a m : UInt32} : Form D A R .memoryModel ⟨.memoryModel, [a, m]⟩
  | debugName {x : UInt32} {words : List UInt32} : x ∈ R → words.length ≤ nameWordLimit →
      Form D A R .debug ⟨.debugName, x :: words⟩
  | memberName {x k : UInt32} {words : List UInt32} : x ∈ R → words.length ≤ nameWordLimit →
      Form D A R .debug ⟨.memberName, x :: k :: words⟩
  | decorate {x dec : UInt32} {params : List UInt32} : x ∈ R → Decorated dec params →
      Form D A R .annotations ⟨.decorate, x :: dec :: params⟩
  | memberDecorate {x k dec : UInt32} {params : List UInt32} : x ∈ R → params.length ≤ 1 →
      Form D A R .annotations ⟨.memberDecorate, x :: k :: dec :: params⟩
  | typeVoid {x : UInt32} : Form D A R .types ⟨.typeVoid, [x]⟩
  | typeBool {x : UInt32} : Form D A R .types ⟨.typeBool, [x]⟩
  | typeInt {x w s : UInt32} : Form D A R .types ⟨.typeInt, [x, w, s]⟩
  | typeFloat {x w : UInt32} : Form D A R .types ⟨.typeFloat, [x, w]⟩
  | typeVector {x c n : UInt32} {t : Ty} : TypeAt D c t → t.isScalar → 0 < n ∧ n ≤ 4 →
      Form D A R .types ⟨.typeVector, [x, c, n]⟩
  | typeMatrix {x c n m : UInt32} {t : Ty} : TypeAt D c (.vector t m) →
      Form D A R .types ⟨.typeMatrix, [x, c, n]⟩
  | typeImage {x c d s f : UInt32} : TypeAt D c (.float 32) → d < 3 →
      Form D A R .types ⟨.typeImage, [x, c, d, 0, 0, 0, s, f]⟩
  | typeSampler {x : UInt32} : Form D A R .types ⟨.typeSampler, [x]⟩
  | typeSampledImage {x c : UInt32} {t : Ty} : TypeAt D c t →
      Form D A R .types ⟨.typeSampledImage, [x, c]⟩
  | typeStruct {x : UInt32} {ms : List UInt32} :
      (∀ m ∈ ms, ∃ t, TypeAt D m t ∧ (t.component.isScalar ∨ ∃ c n, t = .matrix c n)) →
      ms.length ≤ 4 → Form D A R .types ⟨.typeStruct, x :: ms⟩
  | typePointer {x s c : UInt32} {t : Ty} : TypeAt D c t →
      Form D A R .types ⟨.typePointer, [x, s, c]⟩
  | typeFunction {x c : UInt32} {t : Ty} : TypeAt D c t → Form D A R .types ⟨.typeFunction, [x, c]⟩
  | constant {t x w : UInt32} {ty : Ty} : TypeAt D t ty → ty.isScalar → ty ≠ .bool →
      Form D A R .types ⟨.constant, [t, x, w]⟩
  | constantTrue {t x : UInt32} : TypeAt D t .bool → Form D A R .types ⟨.constantTrue, [t, x]⟩
  | constantFalse {t x : UInt32} : TypeAt D t .bool → Form D A R .types ⟨.constantFalse, [t, x]⟩
  | constantNull {t x : UInt32} {ty : Ty} : TypeAt D t ty → ty.component.isScalar →
      Form D A R .types ⟨.constantNull, [t, x]⟩
  | constantComposite {t x n : UInt32} {c : Ty} {parts : List UInt32} : TypeAt D t (.vector c n) →
      (∀ p ∈ parts, ScalarConstant D p c) → parts.length = n.toNat → parts.length ≤ 4 →
      Form D A R .types ⟨.constantComposite, t :: x :: parts⟩
  | variableDecl {t x s : UInt32} {ty : Ty} : TypeAt D t (.pointer s ty) → Placed A x s ty →
      Form D A R .types ⟨.variableDecl, [t, x, s]⟩

theorem Bound.mono {A A' : List Instruction} (h : A ⊆ A') {x : UInt32} (hb : Bound A x) :
    Bound A' x := by
  obtain ⟨⟨k, hk⟩, m, hm⟩ := hb
  exact ⟨⟨k, h hk⟩, m, h hm⟩

theorem Located.mono {A A' : List Instruction} (h : A ⊆ A') {x : UInt32} (hl : Located A x) :
    Located A' x := by
  rcases hl with ⟨k, hk⟩ | ⟨k, hk⟩
  · exact .inl ⟨k, h hk⟩
  · exact .inr ⟨k, h hk⟩

theorem Placed.mono {A A' : List Instruction} (h : A ⊆ A') {x s : UInt32} {ty : Ty}
    (hp : Placed A x s ty) : Placed A' x s ty := by
  cases hp with
  | block hb => exact .block (hb.mono h)
  | image hd hb => exact .image hd (hb.mono h)
  | sampler hb => exact .sampler (hb.mono h)
  | input ht hl => exact .input ht (hl.mono h)
  | output ht hl => exact .output ht (hl.mono h)

theorem ScalarConstant.mono {D D' : List Instruction} (h : D ⊆ D') {x : UInt32} {ty : Ty}
    (hc : ScalarConstant D x ty) : ScalarConstant D' x ty := by
  obtain ⟨t, ht, ⟨w, hw⟩ | hw | hw⟩ := hc
  · exact ⟨t, ht.mono h, .inl ⟨w, h hw⟩⟩
  · exact ⟨t, ht.mono h, .inr (.inl (h hw))⟩
  · exact ⟨t, ht.mono h, .inr (.inr (h hw))⟩

theorem Form.mono [NameLimit] {D D' A A' : List Instruction} {R R' : List UInt32} (hD : D ⊆ D') (hA : A ⊆ A')
    (hR : R ⊆ R') {s : Section} {i : Instruction} (hf : Form D A R s i) : Form D' A' R' s i := by
  cases hf with
  | capability => exact .capability
  | importSet => exact .importSet
  | memoryModel => exact .memoryModel
  | debugName hx hn => exact .debugName (hR hx) hn
  | memberName hx hn => exact .memberName (hR hx) hn
  | decorate hx hd => exact .decorate (hR hx) hd
  | memberDecorate hx hn => exact .memberDecorate (hR hx) hn
  | typeVoid => exact .typeVoid
  | typeBool => exact .typeBool
  | typeInt => exact .typeInt
  | typeFloat => exact .typeFloat
  | typeVector hx ht hn => exact .typeVector (hx.mono hD) ht hn
  | typeMatrix hx => exact .typeMatrix (hx.mono hD)
  | typeImage hx hd => exact .typeImage (hx.mono hD) hd
  | typeSampler => exact .typeSampler
  | typeSampledImage hx => exact .typeSampledImage (hx.mono hD)
  | typeStruct hm hn =>
    refine .typeStruct (fun m hx => ?_) hn
    obtain ⟨t, ht, hk⟩ := hm m hx
    exact ⟨t, ht.mono hD, hk⟩
  | typePointer hx => exact .typePointer (hx.mono hD)
  | typeFunction hx => exact .typeFunction (hx.mono hD)
  | constant hx hs hb => exact .constant (hx.mono hD) hs hb
  | constantTrue hx => exact .constantTrue (hx.mono hD)
  | constantFalse hx => exact .constantFalse (hx.mono hD)
  | constantNull hx ht => exact .constantNull (hx.mono hD) ht
  | constantComposite hx hp hn h4 =>
    exact .constantComposite (hx.mono hD) (fun p hm => (hp p hm).mono hD) hn h4
  | variableDecl hx hp => exact .variableDecl (hx.mono hD) (hp.mono hA)

/-- **What an instruction outside of functions reads was handed out**, if the declarations are. -/
theorem Form.reads_mem [NameLimit] {D A : List Instruction} {R : List UInt32}
    (hD : ∀ j ∈ D, ∀ y, j.result? = some y → y ∈ R) {s : Section} {i : Instruction}
    (h : Form D A R s i) : ∀ y ∈ i.reads ++ i.labels, y ∈ R := by
  have htype : ∀ {c : UInt32} {t : Ty}, TypeAt D c t → c ∈ R := fun hc => by
    obtain ⟨j, hj, hx⟩ := hc.declared
    exact hD j hj _ hx
  have hone : ∀ {c : UInt32}, c ∈ R → ∀ y ∈ [c], y ∈ R := fun hc y hy => by
    rwa [List.mem_singleton.1 hy]
  have hnone : ∀ y ∈ ([] : List UInt32), y ∈ R := fun _ hy => absurd hy List.not_mem_nil
  cases h with
  | capability | importSet | memoryModel | typeVoid | typeBool | typeInt | typeFloat
  | typeSampler => exact hnone
  | debugName hx _ => exact hone hx
  | memberName hx _ => exact hone hx
  | decorate hx _ => exact hone hx
  | memberDecorate hx _ => exact hone hx
  | typeVector hc _ _ => exact hone (htype hc)
  | typeMatrix hc => exact hone (htype hc)
  | typeImage hc _ => exact hone (htype hc)
  | typeSampledImage hc => exact hone (htype hc)
  | @typeStruct x ms hms _ =>
    intro y hy
    obtain ⟨t, ht, -⟩ := hms y (by simpa using (show y ∈ ms ++ [] from hy))
    exact htype ht
  | typePointer hc => exact hone (htype hc)
  | typeFunction hc => exact hone (htype hc)
  | constant ht _ _ => exact hone (htype ht)
  | constantTrue ht => exact hone (htype ht)
  | constantFalse ht => exact hone (htype ht)
  | constantNull ht _ => exact hone (htype ht)
  | @constantComposite t x n c parts ht hparts _ _ =>
    intro y hy
    have hy : y ∈ t :: (parts ++ []) := hy
    rw [List.append_nil, List.mem_cons] at hy
    rcases hy with rfl | hy
    · exact htype ht
    · obtain ⟨t', -, ⟨w, hw⟩ | hw | hw⟩ := hparts y hy
      all_goals exact hD _ hw y rfl
  | variableDecl ht _ => exact hone (htype ht)

/-- The identifiers from 1 up to below a number. -/
def idsBelow (n : Nat) : List UInt32 := (List.range' 1 (n - 1)).map Nat.toUInt32

theorem idsBelow_succ {n : Nat} (h : 1 ≤ n) : idsBelow (n + 1) = idsBelow n ++ [n.toUInt32] := by
  obtain ⟨m, rfl⟩ := Nat.exists_eq_add_of_le h
  have hm : 1 + m + 1 - 1 = m + 1 := by omega
  have hm' : 1 + m - 1 = m := by omega
  rw [idsBelow, idsBelow, hm, hm', List.range'_concat, List.map_append]
  simp

namespace ModuleBuilder

/-- The results of all instructions, in the order they were added. -/
def results (b : ModuleBuilder) : List UInt32 := b.entries.toList.filterMap (·.2.result?)

/-- Types, constants and global variables. -/
def decls (b : ModuleBuilder) : List Instruction := b.sectionOf .types

/-- The annotations. -/
def annotations (b : ModuleBuilder) : List Instruction := b.sectionOf .annotations

/-- The instructions of functions. -/
def code (b : ModuleBuilder) : List Instruction := b.sectionOf .functions

/-- An entry that names or annotates something, or declares a variable. -/
def isMark (e : Section × Instruction) : Bool :=
  e.1 == .debug || e.1 == .annotations || e.1 == .types && e.2.opcode == .variableDecl

/-- The names, annotations and variables of a module, in the order they were added. -/
def marks (b : ModuleBuilder) : List (Section × Instruction) := b.entries.toList.filter isMark

/-- An instruction that declares a variable, or says where one is found. -/
def isPlacing (i : Instruction) : Bool :=
  i.opcode == .variableDecl || i.opcode == .decorate &&
    [Decoration.descriptorSet, Decoration.binding, Decoration.location, Decoration.builtIn].contains
      (i.operands.getD 1 0)

/-- The variables of a module and where they are found, in the order they were added. -/
def placings (b : ModuleBuilder) : List Instruction := (b.marks.map (·.2)).filter isPlacing

/-- The builder with one more instruction. -/
def push (b : ModuleBuilder) (s : Section) (i : Instruction) : ModuleBuilder :=
  { b with entries := b.entries.push (s, i) }

/-- A declared instruction: its identifier stands behind the result type, if there is one. -/
def declaration (op : Opcode) (operands : List UInt32) (x : UInt32) : Instruction :=
  ⟨op, operands.take (if op.hasType then 1 else 0) ++
    x :: operands.drop (if op.hasType then 1 else 0)⟩

theorem mem_sectionOf {b : ModuleBuilder} {s : Section} {i : Instruction} :
    i ∈ b.sectionOf s ↔ (s, i) ∈ b.entries.toList := by
  simp only [sectionOf, List.mem_map, List.mem_filter, beq_iff_eq]
  constructor
  · rintro ⟨⟨s', i'⟩, ⟨hm, rfl⟩, rfl⟩
    exact hm
  · intro hm
    exact ⟨(s, i), ⟨hm, rfl⟩, rfl⟩

theorem sectionOf_subset {b b' : ModuleBuilder} (h : b.entries.toList.Sublist b'.entries.toList)
    (s : Section) : b.sectionOf s ⊆ b'.sectionOf s := ((h.filter _).map _).subset

theorem results_sublist {b b' : ModuleBuilder} (h : b.entries.toList.Sublist b'.entries.toList) :
    b.results.Sublist b'.results := h.filterMap _

@[simp] theorem push_nextId (b : ModuleBuilder) (s : Section) (i : Instruction) :
    (b.push s i).nextId = b.nextId := rfl

@[simp] theorem push_declared (b : ModuleBuilder) (s : Section) (i : Instruction) :
    (b.push s i).declared = b.declared := rfl

@[simp] theorem push_imported (b : ModuleBuilder) (s : Section) (i : Instruction) :
    (b.push s i).imported = b.imported := rfl

@[simp] theorem push_entries (b : ModuleBuilder) (s : Section) (i : Instruction) :
    (b.push s i).entries.toList = b.entries.toList ++ [(s, i)] := by
  simp [push]

theorem push_sublist (b : ModuleBuilder) (s : Section) (i : Instruction) :
    b.entries.toList.Sublist (b.push s i).entries.toList := by
  rw [push_entries]
  exact List.sublist_append_left _ _

theorem results_push (b : ModuleBuilder) (s : Section) (i : Instruction) :
    (b.push s i).results = b.results ++ i.result?.toList := by
  rw [results, push_entries, List.filterMap_append, results]
  cases h : i.result? <;> simp [h]

theorem sectionOf_push_self (b : ModuleBuilder) (s : Section) (i : Instruction) :
    (b.push s i).sectionOf s = b.sectionOf s ++ [i] := by
  simp [sectionOf]

theorem sectionOf_push_of_ne (b : ModuleBuilder) {s t : Section} (i : Instruction) (h : s ≠ t) :
    (b.push s i).sectionOf t = b.sectionOf t := by
  simp [sectionOf, h]

theorem marks_push (b : ModuleBuilder) (s : Section) (i : Instruction) :
    (b.push s i).marks = b.marks ++ [(s, i)].filter isMark := by
  rw [marks, push_entries, List.filter_append, marks]

theorem marks_push_of_not (b : ModuleBuilder) {s : Section} {i : Instruction}
    (h : isMark (s, i) = false) : (b.push s i).marks = b.marks := by
  rw [marks_push, List.filter_cons_of_neg (by simp [h]), List.filter_nil, List.append_nil]

theorem mem_results_of_mem {b : ModuleBuilder} {s : Section} {i : Instruction} {x : UInt32}
    (h : i ∈ b.sectionOf s) (hx : i.result? = some x) : x ∈ b.results := by
  rw [results, List.mem_filterMap]
  exact ⟨(s, i), mem_sectionOf.1 h, hx⟩

/-- **The laws of a module under construction**, with `pending` the identifiers that were handed out
and are not yet the result of an instruction. -/
structure Sound [NameLimit] (b : ModuleBuilder) (pending : List UInt32) : Prop where
  start : 1 ≤ b.nextId
  alloc : (b.results ++ pending).Perm (idsBelow b.nextId)
  declared : ∀ op operands x, ((op, operands), x) ∈ b.declared →
    declaration op operands x ∈ b.decls
  forms : ∀ s i, (s, i) ∈ b.entries.toList → s ≠ .functions →
    Form b.decls b.annotations (b.results ++ pending) s i

variable [NameLimit] {b : ModuleBuilder} {pending : List UInt32}

theorem sound_new (v : Version) : (ModuleBuilder.new v).Sound [] where
  start := Nat.le_refl _
  alloc := List.Perm.refl _
  declared := fun _ _ _ h => by simp [ModuleBuilder.new] at h
  forms := fun _ _ h => by simp [ModuleBuilder.new] at h

theorem sound_alloc (h : b.Sound pending) :
    ({ b with nextId := b.nextId + 1 } : ModuleBuilder).Sound (b.nextId.toUInt32 :: pending) where
  start := Nat.le_succ_of_le h.start
  alloc := by
    show (b.results ++ b.nextId.toUInt32 :: pending).Perm (idsBelow (b.nextId + 1))
    rw [idsBelow_succ h.start]
    exact (List.perm_middle).trans ((h.alloc.cons _).trans (List.perm_append_singleton _ _).symm)
  declared := h.declared
  forms := fun s i hm hs =>
    (h.forms s i hm hs).mono (List.Subset.refl _) (List.Subset.refl _)
      (List.append_subset.2 ⟨List.subset_append_left _ _,
        fun _ hx => List.mem_append_right _ (List.mem_cons_of_mem _ hx)⟩)

/-- The builder with more instructions. -/
def extend (b : ModuleBuilder) (l : List (Section × Instruction)) : ModuleBuilder :=
  l.foldl (fun b e => b.push e.1 e.2) b

omit [NameLimit] in
@[simp] theorem extend_nextId (b : ModuleBuilder) (l : List (Section × Instruction)) :
    (b.extend l).nextId = b.nextId := by
  induction l generalizing b with
  | nil => rfl
  | cons e l ih => exact ih (b.push e.1 e.2)

omit [NameLimit] in
@[simp] theorem extend_declared (b : ModuleBuilder) (l : List (Section × Instruction)) :
    (b.extend l).declared = b.declared := by
  induction l generalizing b with
  | nil => rfl
  | cons e l ih => exact ih (b.push e.1 e.2)

omit [NameLimit] in
@[simp] theorem extend_entries (b : ModuleBuilder) (l : List (Section × Instruction)) :
    (b.extend l).entries.toList = b.entries.toList ++ l := by
  induction l generalizing b with
  | nil => exact (List.append_nil _).symm
  | cons e l ih =>
    show ((b.push e.1 e.2).extend l).entries.toList = _
    rw [ih, push_entries, List.append_assoc]
    rfl

omit [NameLimit] in
theorem extend_sublist (b : ModuleBuilder) (l : List (Section × Instruction)) :
    b.entries.toList.Sublist (b.extend l).entries.toList := by
  rw [extend_entries]
  exact List.sublist_append_left _ _

omit [NameLimit] in
theorem placings_extend (b : ModuleBuilder) (l : List (Section × Instruction)) :
    (b.extend l).placings =
      b.placings ++ ((l.filter isMark).map (·.2)).filter isPlacing := by
  rw [placings, marks, extend_entries, List.filter_append, List.map_append, List.filter_append,
    placings, marks]

/-- **Adding instructions**: those with a result are what some of the identifiers wait for, and each
has its form in the module that comes out. -/
theorem sound_extend {R : List UInt32} (h : b.Sound (R ++ pending))
    {l : List (Section × Instruction)} (hr : l.filterMap (·.2.result?) = R)
    (hf : ∀ s i, (s, i) ∈ l → s ≠ .functions →
      Form (b.extend l).decls (b.extend l).annotations ((b.extend l).results ++ pending) s i) :
    (b.extend l).Sound pending := by
  have hsub := extend_sublist b l
  have hresults : (b.extend l).results = b.results ++ R := by
    rw [results, extend_entries, List.filterMap_append, hr, results]
  have hids : (b.extend l).results ++ pending = b.results ++ (R ++ pending) := by
    rw [hresults, List.append_assoc]
  refine ⟨by rw [extend_nextId]; exact h.start, ?_, ?_, ?_⟩
  · rw [hids, extend_nextId]
    exact h.alloc
  · intro op operands x hm
    rw [extend_declared] at hm
    exact sectionOf_subset hsub _ (h.declared op operands x hm)
  · intro s i hm hs
    rw [extend_entries, List.mem_append] at hm
    rcases hm with hm | hm
    · rw [hids]
      exact (h.forms s i hm hs).mono (sectionOf_subset hsub _) (sectionOf_subset hsub _)
        (List.Subset.refl _)
    · exact hf s i hm hs

/-- Adding an instruction without a result. -/
theorem sound_push (h : b.Sound pending) {s : Section} {i : Instruction} (hr : i.result? = none)
    (hf : s ≠ .functions → Form b.decls b.annotations (b.results ++ pending) s i) :
    (b.push s i).Sound pending := by
  have hsub := push_sublist b s i
  refine sound_extend (l := [(s, i)]) (R := []) h (by simp [hr]) ?_
  intro s' i' hm hs
  cases List.mem_singleton.1 hm
  exact (hf hs).mono (sectionOf_subset hsub _) (sectionOf_subset hsub _)
    (List.append_subset.2 ⟨fun x hx => List.mem_append_left _ ((results_sublist hsub).subset hx),
      List.subset_append_right _ _⟩)

/-- Adding the instruction an identifier waits for. -/
theorem sound_pushResult {x : UInt32} (h : b.Sound (x :: pending)) {s : Section} {i : Instruction}
    (hr : i.result? = some x)
    (hf : s ≠ .functions → Form b.decls b.annotations (b.results ++ x :: pending) s i) :
    (b.push s i).Sound pending := by
  have hsub := push_sublist b s i
  refine sound_extend (l := [(s, i)]) (R := [x]) h (by simp [hr]) ?_
  intro s' i' hm hs
  cases List.mem_singleton.1 hm
  refine (hf hs).mono (sectionOf_subset hsub _) (sectionOf_subset hsub _) ?_
  show _ ⊆ (b.push s i).results ++ pending
  rw [results_push, hr]
  simp

/-- The order in which waiting identifiers are listed does not matter. -/
theorem Sound.perm {pending' : List UInt32} (h : b.Sound pending) (hp : pending.Perm pending') :
    b.Sound pending' where
  start := h.start
  alloc := ((List.Perm.append_left _ hp).symm).trans h.alloc
  declared := h.declared
  forms := fun s i hm hs => (h.forms s i hm hs).mono (List.Subset.refl _) (List.Subset.refl _)
    (fun _ hx => (List.Perm.append_left _ hp).subset hx)

omit [NameLimit] in
/-- A number below `2 ^ 32` is kept by its word. -/
theorem toNat_toUInt32 {n : Nat} (h : n < 4294967296) : n.toUInt32.toNat = n := by
  rw [Nat.toUInt32_eq, UInt32.toNat_ofNat']
  omega

omit [NameLimit] in
/-- With fewer than `2 ^ 32` identifiers no two are the same word. -/
theorem idsBelow_nodup {n : Nat} (h : n ≤ 4294967296) : (idsBelow n).Nodup := by
  rw [idsBelow]
  refine List.Nodup.map_on ?_ List.nodup_range'
  intro x hx y hy hxy
  rw [List.mem_range'_1] at hx hy
  rw [← toNat_toUInt32 (show x < 4294967296 by omega), hxy, toNat_toUInt32 (by omega)]

omit [NameLimit] in
theorem mem_idsBelow {n : Nat} (h : n ≤ 4294967296) {x : UInt32} (hx : x ∈ idsBelow n) :
    x ≠ 0 ∧ x.toNat < n := by
  rw [idsBelow, List.mem_map] at hx
  obtain ⟨k, hk, rfl⟩ := hx
  rw [List.mem_range'_1] at hk
  have hk' := toNat_toUInt32 (show k < 4294967296 by omega)
  refine ⟨?_, by omega⟩
  intro h0
  rw [h0] at hk'
  simp at hk'
  omega

end ModuleBuilder

/-- Declaring a type or constant, which may be declared already. -/
theorem Assemble.run_declare (op : Opcode) (k : Nat) (operands : List UInt32) (b : ModuleBuilder) :
    (Assemble.declare op k operands).run b =
      match b.declared.lookup (op, operands) with
      | some id => (id, b)
      | none =>
        let b' : ModuleBuilder := { b with nextId := b.nextId + 1 }
        let b' := b'.push .types
          ⟨op, operands.take k ++ b.nextId.toUInt32 :: operands.drop k⟩
        (b.nextId.toUInt32,
          { b' with declared := ((op, operands), b.nextId.toUInt32) :: b.declared }) := by
  simp only [Assemble.declare, StateT.run_bind]
  cases h : b.declared.lookup (op, operands) with
  | some id => simp [h]; rfl
  | none => simp [h]; rfl

end NodeShader.Spirv
