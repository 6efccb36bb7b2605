import NodeShader.Metal.Tables
import NodeShader.Proofs.Outcome
import NodeShader.Proofs.Spirv.Blocks
import NodeShader.Proofs.Spirv.Building
import NodeShader.Proofs.Spirv.Semantics

/-!
# Loading modules

The tables of a module hold what its instructions say (`Tables.Hold`), each table in the order in
which the instructions stand.  An instruction outside of functions adds its own entry and nothing
else (`readGlobal_spec`), so a row of them adds one entry after another.  The function is split into
blocks, one for each block of its structured code (`blocksOf`, `reads_code`).  How far a module is
followed is not read from it (`load_limit`).
-/

namespace NodeShader.Metal

open Spirv

/-! ### Entries -/

/-- The type that an instruction declares. -/
def declaredType? (i : Instruction) : Option (UInt32 × TypeInfo) :=
  match Tables.readType? i, i.operands with
  | some (.ok info), x :: _ => some (x, info)
  | _, _ => none

/-- The constant that an instruction declares. -/
def declaredConstant? (i : Instruction) : Option (UInt32 × ConstantInfo) :=
  if [Opcode.constant, .constantComposite, .constantTrue, .constantFalse, .constantNull].contains
      i.opcode then
    match i.operands with
    | t :: x :: parts => some (x, ⟨i.opcode, t, parts⟩)
    | _ => none
  else none

/-- The annotation that an instruction makes. -/
def annotation? (i : Instruction) : Option ((UInt32 × UInt32) × List UInt32) :=
  if i.opcode = .decorate then
    match i.operands with
    | x :: dec :: params => some ((x, dec), params)
    | _ => none
  else none

/-- The variable that an instruction declares. -/
def declaredVariable? (i : Instruction) : Option Variable :=
  if i.opcode = .variableDecl then
    match i.operands with
    | [t, x, s] => some ⟨x, t, s⟩
    | _ => none
  else none

/-- The name that an instruction gives. -/
def declaredName? (i : Instruction) : Option (UInt32 × List UInt8) :=
  if i.opcode = .debugName then
    match i.operands with
    | x :: words => some (x, (readName words).1)
    | _ => none
  else none

/-- The name that an instruction gives to a member of a struct. -/
def declaredMember? (i : Instruction) : Option ((UInt32 × UInt32) × List UInt8) :=
  if i.opcode = .memberName then
    match i.operands with
    | x :: k :: words => some ((x, k), (readName words).1)
    | _ => none
  else none

/-- The annotation that an instruction makes of a member of a struct. -/
def memberAnnotation? (i : Instruction) : Option ((UInt32 × UInt32 × UInt32) × List UInt32) :=
  if i.opcode = .memberDecorate then
    match i.operands with
    | x :: k :: dec :: params => some ((x, k, dec), params)
    | _ => none
  else none

/-- The instruction set that an instruction imports. -/
def importedSet? (i : Instruction) : Option UInt32 :=
  if i.opcode = .extInstImport then i.operands.head? else none

/-- **Tables that hold what some instructions of module scope say.** -/
structure Tables.Hold (t : Tables) (is : List Instruction) : Prop where
  types : t.types = (is.filterMap declaredType?).reverse
  constants : t.constants = (is.filterMap declaredConstant?).reverse
  decorations : t.decorations = (is.filterMap annotation?).reverse
  globals : t.globals = is.filterMap declaredVariable?
  imports : t.imports = (is.filterMap importedSet?).reverse
  names : t.names = (is.filterMap declaredName?).reverse
  memberNames : t.memberNames = (is.filterMap declaredMember?).reverse
  memberDecorations : t.memberDecorations = (is.filterMap memberAnnotation?).reverse

/-- What else the tables hold of module scope. -/
def Tables.rest (t : Tables) : Option (ExecutionModel × UInt32) × UInt32 × List Block :=
  (t.entry, t.function, t.blocks)

namespace Tables

variable {t t' : Tables} {is : List Instruction} {i : Instruction}

theorem Hold.nil : Hold {} [] := ⟨rfl, rfl, rfl, rfl, rfl, rfl, rfl, rfl⟩

/-- One more instruction. -/
theorem Hold.snoc (h : t.Hold is) (ht : t'.types = (declaredType? i).toList ++ t.types)
    (hc : t'.constants = (declaredConstant? i).toList ++ t.constants)
    (hd : t'.decorations = (annotation? i).toList ++ t.decorations)
    (hg : t'.globals = t.globals ++ (declaredVariable? i).toList)
    (hm : t'.imports = (importedSet? i).toList ++ t.imports)
    (hn : t'.names = (declaredName? i).toList ++ t.names)
    (hmn : t'.memberNames = (declaredMember? i).toList ++ t.memberNames)
    (hmd : t'.memberDecorations = (memberAnnotation? i).toList ++ t.memberDecorations) :
    t'.Hold (is ++ [i]) := by
  have hrev : ∀ {α : Type} (f : Instruction → Option α),
      ((is ++ [i]).filterMap f).reverse = (f i).toList ++ (is.filterMap f).reverse := by
    intro α f
    rw [List.filterMap_append, List.reverse_append]
    cases hf : f i <;> simp [hf]
  refine ⟨?_, ?_, ?_, ?_, ?_, ?_, ?_, ?_⟩
  · rw [ht, h.types, hrev]
  · rw [hc, h.constants, hrev]
  · rw [hd, h.decorations, hrev]
  · rw [hg, h.globals, List.filterMap_append]
    cases hf : declaredVariable? i <;> simp [hf]
  · rw [hm, h.imports, hrev]
  · rw [hn, h.names, hrev]
  · rw [hmn, h.memberNames, hrev]
  · rw [hmd, h.memberDecorations, hrev]

section Form

variable [NameLimit] {D A : List Instruction} {R : List UInt32} {e : Section}

/-- **Reading an instruction of module scope** adds its entry. -/
theorem readGlobal_spec (h : t.Hold is) (hf : Form D A R e i) :
    ∃ t', read ⟨t, false, none⟩ i = .ok ⟨t', false, none⟩ ∧ t'.Hold (is ++ [i]) ∧
      t'.rest = t.rest := by
  cases hf with
  | variableDecl => exact ⟨_, rfl, h.snoc rfl rfl rfl rfl rfl rfl rfl rfl, rfl⟩
  | @importSet x =>
    exact ⟨{ t with imports := x :: t.imports }, rfl,
      h.snoc rfl rfl rfl (List.append_nil _).symm rfl rfl rfl rfl, rfl⟩
  | _ => exact ⟨_, rfl, h.snoc rfl rfl rfl (List.append_nil _).symm rfl rfl rfl rfl, rfl⟩

/-- Reading instructions one after another. -/
def Reads (s : Loading) (is : List Instruction) (s' : Loading) : Prop := is.foldlM read s = .ok s'

omit [NameLimit] in
theorem Reads.cons {s s₁ s₂ : Loading} (h : read s i = .ok s₁) (hs : Reads s₁ is s₂) :
    Reads s (i :: is) s₂ := by
  rw [Reads, List.foldlM_cons, h]
  exact hs

omit [NameLimit] in
theorem Reads.append {s s₁ s₂ : Loading} {js : List Instruction} (h : Reads s is s₁)
    (hs : Reads s₁ js s₂) : Reads s (is ++ js) s₂ := by
  rw [Reads, List.foldlM_append, h]
  exact hs

/-- **Reading instructions of module scope.** -/
theorem reads_globals {js : List Instruction} (h : t.Hold is)
    (hf : ∀ i ∈ js, ∃ e, Form D A R e i) :
    ∃ t', Reads ⟨t, false, none⟩ js ⟨t', false, none⟩ ∧ t'.Hold (is ++ js) ∧ t'.rest = t.rest := by
  induction js generalizing t is with
  | nil => exact ⟨t, rfl, by rwa [List.append_nil], rfl⟩
  | cons j js ih =>
    rw [List.forall_mem_cons] at hf
    obtain ⟨⟨e, hj⟩, hjs⟩ := hf
    obtain ⟨t₁, h₁, hold₁, hrest₁⟩ := readGlobal_spec h hj
    obtain ⟨t₂, h₂, hold₂, hrest₂⟩ := ih hold₁ hjs
    rw [List.append_assoc] at hold₂
    exact ⟨t₂, h₂.cons h₁, hold₂, hrest₂.trans hrest₁⟩

end Form

/-! ### Blocks -/

/-- A block without instructions. -/
def emptyBlock (label : UInt32) (phis : List Instruction) : Block := ⟨label, 0, phis, [], ⟨.nop, []⟩⟩

/-- The blocks of code that goes on in a block and ends with an instruction. -/
def blocksOf (b : Block) (last : Instruction) : Code → List Block
  | .done => [{ b with terminator := last }]
  | .plain i rest => blocksOf { b with instructions := b.instructions ++ [i] } last rest
  | .select c yes no rest =>
    { b with merge := c.merge, terminator := c.branching } ::
      (blocksOf (emptyBlock c.yes []) (goto c.merge) yes ++
        (blocksOf (emptyBlock c.no []) (goto c.merge) no ++
          blocksOf (emptyBlock c.merge [c.phi (yes.lastLabel c.yes) (no.lastLabel c.no)]) last rest))

/-- The blocks of code are the one it goes on in and those it opens. -/
theorem labels_blocksOf (b : Block) (last : Instruction) (c : Code) :
    (blocksOf b last c).map (·.label) = b.label :: c.opened := by
  induction c generalizing b last with
  | done => rfl
  | plain i rest ih => exact ih _ _
  | select c yes no rest ihy ihn ihr =>
    rw [blocksOf, List.map_cons, List.map_append, List.map_append, ihy, ihn, ihr, Code.opened,
      List.append_assoc]
    rfl

/-- Tables with more blocks. -/
def withBlocks (t : Tables) (bs : List Block) : Tables := { t with blocks := t.blocks ++ bs }

theorem withBlocks_append (t : Tables) (as bs : List Block) :
    (t.withBlocks as).withBlocks bs = t.withBlocks (as ++ bs) := by
  rw [withBlocks, withBlocks, withBlocks, List.append_assoc]

/-- The instructions that do not stand within a block, or that nothing is made of. -/
def frameOps : List Opcode :=
  [Opcode.functionEnd, .label, .variableDecl, .functionParameter, .loopMerge, .selectionMerge, .phi] ++
    terminators

theorem read_plain {b : Block} (hi : i.opcode ∉ frameOps) : read ⟨t, true, some b⟩ i =
    .ok ⟨t, true, some { b with instructions := b.instructions ++ [i] }⟩ := by
  simp only [frameOps, List.mem_append, List.mem_cons, List.not_mem_nil, or_false, not_or] at hi
  obtain ⟨⟨h₁, h₂, h₃, h₄, h₅, h₆, h₇⟩, ht⟩ := hi
  have hterm : terminators.contains i.opcode = false := by
    simpa using ht
  simp only [read, readLocal, h₁, h₂, h₃, h₄, h₅, h₆, h₇, hterm, if_true, if_false, or_self]
  rfl

theorem read_last {b : Block} {last : Instruction} (hlast : terminators.contains last.opcode = true) :
    read ⟨t, true, some b⟩ last =
      .ok ⟨t.withBlocks [{ b with terminator := last }], true, none⟩ := by
  have hall : ∀ op, terminators.contains op = true → op ≠ .functionEnd ∧ op ≠ .label ∧
      op ≠ .variableDecl ∧ op ≠ .functionParameter ∧ op ≠ .loopMerge ∧ op ≠ .selectionMerge ∧
        op ≠ .phi := by
    intro op hop
    rw [List.contains_iff_mem] at hop
    revert op
    decide
  obtain ⟨h₁, h₂, h₃, h₄, h₅, h₆, h₇⟩ := hall _ hlast
  simp only [read, readLocal, h₁, h₂, h₃, h₄, h₅, h₆, h₇, hlast, if_true, if_false, or_self]
  rfl

section Code

variable {I : Interpretation} {s : Surroundings I} {Γ Γ' : Context I} {c : Code}
  {o : List (Output I.Value)} {ls : List UInt32} {ts : List Ty} {ty : Ty} {op : Opcode}

theorem signature_inner (h : Signature op ls ts ty) : op ∉ frameOps := by
  have hall : ∀ op ∈ floatingOps ++ integralOps ++ floatingComparisons ++ integralComparisons,
      op ∉ frameOps := by decide
  cases h
  case floating hop _ => exact hall _ (by simp [hop])
  case integral hop _ => exact hall _ (by simp [hop])
  case compareFloating hop => exact hall _ (by simp [hop])
  case compareIntegral hop => exact hall _ (by simp [hop])
  all_goals decide

theorem step_inner (h : Step s Γ i Γ' o) : i.opcode ∉ frameOps := by
  cases h with
  | apply _ _ _ _ hsig => exact signature_inner hsig
  | load => show Opcode.load ∉ _; decide
  | access => show Opcode.accessChain ∉ _; decide
  | store => show Opcode.store ∉ _; decide
  | write => show Opcode.imageWrite ∉ _; decide

/-- **Reading code** and the instruction that ends it gives the blocks of the code. -/
theorem reads_code (h : Runs s Γ c Γ' o) (b : Block) {last : Instruction}
    (hlast : terminators.contains last.opcode = true) (t : Tables) {k : List Instruction}
    {s' : Loading} (hk : Reads ⟨t.withBlocks (blocksOf b last c), true, none⟩ k s') :
    Reads ⟨t, true, some b⟩ (c.instructions ++ last :: k) s' := by
  induction h generalizing t b last k with
  | done => exact hk.cons (read_last hlast)
  | plain hs _ ih => exact (ih _ hlast t hk).cons (read_plain (step_inner hs))
  | @select _ _ _ _ c yes no rest _ _ _ _ _ _ _ _ _ _ _ _ _ ihy ihn ihr =>
    have hgoto : terminators.contains (goto c.merge).opcode = true := rfl
    rw [Code.instructions_select]
    -- the block of the selection ends, and the arms and what follows them have blocks of their own
    refine .cons rfl (.cons rfl (.cons rfl ?_))
    refine ihy (emptyBlock c.yes []) hgoto (t.withBlocks _) (.cons rfl ?_)
    refine ihn (emptyBlock c.no []) hgoto _ (.cons rfl (.cons rfl ?_))
    refine ihr (emptyBlock c.merge [_]) hlast _ ?_
    rw [withBlocks_append, withBlocks_append, withBlocks_append]
    rw [blocksOf] at hk
    simpa using hk

/-- **Tables of a module** with one function: what is said at module scope, the entry point, and the
blocks of its code. -/
structure Loaded (t : Tables) (globals : List Instruction) (model main first : UInt32) (c : Code) :
    Prop where
  hold : t.Hold globals
  entry : t.entry = some (.ofCode model, main)
  blocks : t.blocks = blocksOf (emptyBlock first []) ⟨.returnVoid, []⟩ c

theorem read_entryPoint (h : t.entry = none) (model main : UInt32) (interface : List UInt32) :
    read ⟨t, false, none⟩ ⟨.entryPoint, model :: main :: interface⟩ =
      .ok ⟨{ t with entry := some (.ofCode model, main) }, false, none⟩ := by
  cases t
  cases h
  rfl

/-- How the entry point is executed does not matter but for the size of workgroups. -/
theorem read_executionMode (t : Tables) (main mode : UInt32) (params : List UInt32) : ∃ size,
    read ⟨t, false, none⟩ ⟨.executionMode, main :: mode :: params⟩ =
      .ok ⟨{ t with localSize := size }, false, none⟩ := by
  have hread : t.readGlobal ⟨.executionMode, main :: mode :: params⟩ =
      if mode = ExecutionMode.localSize ∧ 5 ≤ (main :: mode :: params).length then
        .ok { t with localSize := params.take 3 } else .ok t := rfl
  have hstep : read ⟨t, false, none⟩ ⟨.executionMode, main :: mode :: params⟩ =
      t.readGlobal ⟨.executionMode, main :: mode :: params⟩ >>= fun t => .ok ⟨t, false, none⟩ := rfl
  rw [hstep, hread]
  split
  · exact ⟨_, rfl⟩
  · exact ⟨_, rfl⟩

theorem read_function (h : t.function = 0) (void main type : UInt32) :
    read ⟨t, false, none⟩ ⟨.function, [void, main, 0, type]⟩ =
      .ok ⟨{ t with function := main }, true, none⟩ := by
  cases t
  cases h
  rfl

/-- A module that was read is loaded if its entry point is its function and has a block. -/
theorem load_of_reads {m : Module} {e : ExecutionModel × UInt32}
    (h : Reads ⟨{}, false, none⟩ m.instructions ⟨t, false, none⟩) (he : t.entry = some e)
    (hf : t.function = e.2) (hfirst : t.first ≠ 0) : load m = .ok t := by
  rw [load, show m.instructions.foldlM read ⟨{}, false, none⟩ = _ from h]
  simp only [bind, Except.bind, Option.elim_none, he, hf, hfirst, ne_eq, not_true_eq_false, if_false]
  rfl

variable [NameLimit] {D A : List Instruction} {R : List UInt32} {pre post : List Instruction}
  {model main void type first : UInt32} {interface : List UInt32} {modes : List (List UInt32)}

/-- How the entry point of a function is executed. -/
def executions (main : UInt32) (modes : List (List UInt32)) : List Instruction :=
  modes.map fun params => ⟨.executionMode, main :: params⟩

omit [NameLimit] in
/-- Reading how the entry point is executed. -/
theorem reads_executions (main : UInt32) {is : List Instruction} (h : t.Hold is)
    (hmodes : ∀ ps ∈ modes, ps ≠ []) :
    ∃ t', Reads ⟨t, false, none⟩ (executions main modes) ⟨t', false, none⟩ ∧
      t'.Hold (is ++ executions main modes) ∧ t'.rest = t.rest := by
  induction modes generalizing t is with
  | nil => exact ⟨t, rfl, by rwa [executions, List.map_nil, List.append_nil], rfl⟩
  | cons ps modes ih =>
    rw [List.forall_mem_cons] at hmodes
    obtain ⟨mode, params, rfl⟩ := List.exists_cons_of_ne_nil hmodes.1
    obtain ⟨size, h₁⟩ := read_executionMode t main mode params
    have hold₁ : Hold { t with localSize := size } (is ++ [⟨.executionMode, main :: mode :: params⟩]) :=
      h.snoc rfl rfl rfl (List.append_nil _).symm rfl rfl rfl rfl
    obtain ⟨t', h₂, hold₂, hrest⟩ := ih hold₁ hmodes.2
    rw [List.append_assoc] at hold₂
    exact ⟨t', h₂.cons h₁, hold₂, hrest⟩

/-- **Loading a module** whose instructions at module scope have their forms, but for the entry point
and how that is executed. -/
theorem load_spec {m : Module} (hpre : ∀ i ∈ pre, ∃ e, Form D A R e i)
    (hpost : ∀ i ∈ post, ∃ e, Form D A R e i) (hmodes : ∀ ps ∈ modes, ps ≠ [])
    (h : Runs s Γ c Γ' o) (hfirst : first ≠ 0)
    (hm : m.instructions = pre ++ ⟨.entryPoint, model :: main :: interface⟩ ::
      (executions main modes ++ post) ++ functionOf main void type first c) :
    ∃ t, load m = .ok t ∧ t.Loaded (pre ++ ⟨.entryPoint, model :: main :: interface⟩ ::
      (executions main modes ++ post)) model main first c := by
  obtain ⟨t₁, h₁, hold₁, hrest₁⟩ := reads_globals Hold.nil hpre
  have h₂ := read_entryPoint (show t₁.entry = none from congrArg (·.1) hrest₁) model main interface
  have hold₂ : Hold { t₁ with entry := some (.ofCode model, main) }
      (pre ++ [⟨.entryPoint, model :: main :: interface⟩]) :=
    hold₁.snoc rfl rfl rfl (List.append_nil _).symm rfl rfl rfl rfl
  obtain ⟨t₃, h₃, hold₃, hrest₃⟩ := reads_executions main hold₂ hmodes
  obtain ⟨t₄, h₄, hold₄, hrest₄⟩ := reads_globals hold₃ hpost
  have hrest : t₄.rest = (some (.ofCode model, main), 0, []) := by
    rw [hrest₄, hrest₃]
    exact congrArg (Prod.mk _) (congrArg (·.2) hrest₁)
  have h₅ := read_function (show t₄.function = 0 from congrArg (·.2.1) hrest) void main type
  let t₅ : Tables := { t₄ with function := main }
  let t := t₅.withBlocks (blocksOf (emptyBlock first []) ⟨.returnVoid, []⟩ c)
  have hblocks : t.blocks = blocksOf (emptyBlock first []) ⟨.returnVoid, []⟩ c := by
    have hnone : t₅.blocks = [] := congrArg (·.2.2) hrest
    show t₅.blocks ++ _ = _
    rw [hnone, List.nil_append]
  have h₆ : Reads ⟨t₅, true, none⟩ (labelOf first :: (c.instructions ++
      [⟨.returnVoid, []⟩, ⟨.functionEnd, []⟩])) ⟨t, false, none⟩ :=
    .cons rfl (reads_code h (emptyBlock first []) rfl t₅ (.cons rfl rfl))
  have hreads : Reads ⟨{}, false, none⟩ m.instructions ⟨t, false, none⟩ := by
    rw [hm, List.append_assoc, List.cons_append, List.append_assoc]
    refine h₁.append (.cons h₂ (h₃.append (h₄.append ?_)))
    rw [functionOf, List.append_assoc]
    exact .cons h₅ h₆
  have hentry : t.entry = some (.ofCode model, main) := congrArg (·.1) hrest
  -- the first label is that of the first block
  have hlabel : t.first = first := by
    rw [Tables.first, hblocks, labels_blocksOf]
    show ((first :: c.opened).find? (· != 0)).getD 0 = first
    rw [List.find?_cons_of_pos (by simpa using hfirst)]
    rfl
  refine ⟨t, ?_, ⟨?_, hentry, hblocks⟩⟩
  · exact load_of_reads hreads hentry rfl (hlabel ▸ hfirst)
  · rw [List.append_assoc, List.append_assoc] at hold₄
    exact ⟨hold₄.types, hold₄.constants, hold₄.decorations, hold₄.globals, hold₄.imports,
      hold₄.names, hold₄.memberNames, hold₄.memberDecorations⟩

end Code

/-! ### The limit -/

section Limit

variable {α β : Type} {f : β → Limit} {l : Limit}

/-- What is read, if anything, has a limit. -/
def Leaves (f : β → Limit) (l : Limit) (x : Result β) : Prop := ∀ ⦃b⦄, x = .ok b → f b = l

theorem leaves_pure {b : β} (h : f b = l) : Leaves f l (.ok b) := by
  rintro _ ⟨⟩
  exact h

theorem leaves_fail (id : UInt32) (reason : String) : Leaves f l (fail id reason) := by
  rintro _ ⟨⟩

theorem leaves_bind {x : Result α} {y : α → Result β} (h : ∀ a, x = .ok a → Leaves f l (y a)) :
    Leaves f l (x >>= y) := by
  intro b hb
  obtain ⟨a, ha, hb⟩ := bind_eq_ok.1 hb
  exact h a ha hb

theorem leaves_ite {P : Prop} [Decidable P] {x y : Result β} (hx : Leaves f l x) (hy : Leaves f l y) :
    Leaves f l (if P then x else y) := by
  split
  · exact hx
  · exact hy

theorem leaves_readGlobal (t : Tables) (i : Instruction) : Leaves limit t.limit (t.readGlobal i) := by
  unfold readGlobal
  dsimp only
  split
  · exact leaves_bind fun _ _ => leaves_bind fun _ _ => leaves_pure rfl
  · repeat' first
      | exact leaves_pure rfl
      | exact leaves_fail _ _
      | refine leaves_bind fun _ _ => ?_
      | refine leaves_ite ?_ ?_

theorem leaves_readLocal (s : Loading) (i : Instruction) :
    Leaves (·.tables.limit) s.tables.limit (readLocal s i) := by
  unfold readLocal
  cases s.current <;> dsimp only
  all_goals
    repeat' first
      | exact leaves_pure rfl
      | exact leaves_fail _ _
      | refine leaves_bind fun _ _ => ?_
      | refine leaves_ite ?_ ?_

/-- **Reading a module** does not change how far it is followed. -/
theorem load_limit {m : Module} {t : Tables} (h : load m = .ok t) : t.limit = {} := by
  have hread : ∀ (s : Loading) (is : List Instruction),
      Leaves (·.tables.limit) s.tables.limit (is.foldlM read s) := by
    intro s is
    induction is generalizing s with
    | nil => exact leaves_pure rfl
    | cons i is ih =>
      rw [List.foldlM_cons]
      refine leaves_bind fun s₁ h₁ => ?_
      have hstep : s₁.tables.limit = s.tables.limit := by
        refine leaves_ite (leaves_readLocal s i) (leaves_bind fun t ht => leaves_pure ?_) h₁
        exact leaves_readGlobal _ _ ht
      exact hstep ▸ ih s₁
  refine (show Leaves limit {} (load m) from leaves_bind fun s hs => ?_) h
  have hlimit : (s.current.elim s s.close).tables.limit = {} := by
    cases s.current <;> exact hread _ _ hs
  dsimp only
  split
  · exact leaves_fail _ _
  · exact leaves_ite (leaves_bind fun _ _ => leaves_ite (leaves_bind fun _ _ => leaves_pure hlimit)
      (leaves_pure hlimit)) (leaves_ite (leaves_bind fun _ _ => leaves_pure hlimit) (leaves_pure hlimit))

end Limit
end Tables

end NodeShader.Metal
