import NodeShader.Proofs.Spirv.Typing

/-!
# Structured code

The body of a function as a tree: instructions in a row, and selections whose two arms are code
again and meet in a block that starts with a phi.  `Code.instructions` writes the tree down in the
order of the module.  A block is what stands between a label and the next one; `Code.lastLabel` is
the block in which code ends, the parent a phi names for an arm.
-/

namespace NodeShader.Spirv

/-- A selection between two arms: the condition, the labels of both arms and of the block where they
meet, the type and result of the phi there, and the values it chooses from. -/
structure Choice where
  condition : UInt32
  merge : UInt32
  yes : UInt32
  no : UInt32
  type : UInt32
  result : UInt32
  fromYes : UInt32
  fromNo : UInt32

/-- Code of a function. -/
inductive Code where
  | done
  | plain (i : Instruction) (rest : Code)
  | select (c : Choice) (yes no rest : Code)

/-- The instruction that opens a block. -/
def labelOf (x : UInt32) : Instruction := ⟨.label, [x]⟩

/-- The instruction that ends a block and goes to another. -/
def goto (x : UInt32) : Instruction := ⟨.branch, [x]⟩

namespace Choice

/-- The two instructions that end the block of a selection. -/
def merging (c : Choice) : Instruction := ⟨.selectionMerge, [c.merge, 0]⟩

def branching (c : Choice) : Instruction := ⟨.branchConditional, [c.condition, c.yes, c.no]⟩

/-- The phi where arms that end in blocks `lastYes` and `lastNo` meet. -/
def phi (c : Choice) (lastYes lastNo : UInt32) : Instruction :=
  ⟨.phi, [c.type, c.result, c.fromYes, lastYes, c.fromNo, lastNo]⟩

end Choice

namespace Code

/-- The block that code ends in when it starts in block `label`. -/
def lastLabel (label : UInt32) : Code → UInt32
  | done => label
  | plain _ rest => rest.lastLabel label
  | select c _ _ rest => rest.lastLabel c.merge

/-- The instructions in the order of the module. -/
def instructions : Code → List Instruction
  | done => []
  | plain i rest => i :: rest.instructions
  | select c yes no rest =>
    [c.merging, c.branching, labelOf c.yes] ++ yes.instructions ++ [goto c.merge, labelOf c.no]
      ++ no.instructions ++ [goto c.merge, labelOf c.merge]
      ++ c.phi (yes.lastLabel c.yes) (no.lastLabel c.no) :: rest.instructions

/-- One piece of code after another. -/
def append : Code → Code → Code
  | done, k => k
  | plain i rest, k => plain i (rest.append k)
  | select c yes no rest, k => select c yes no (rest.append k)

instance : Append Code := ⟨append⟩

@[simp] theorem done_append (k : Code) : done ++ k = k := rfl

@[simp] theorem plain_append (i : Instruction) (c k : Code) : plain i c ++ k = plain i (c ++ k) := rfl

@[simp] theorem select_append (c : Choice) (yes no rest k : Code) :
    select c yes no rest ++ k = select c yes no (rest ++ k) := rfl

@[simp] theorem append_done (c : Code) : c ++ done = c := by
  induction c with
  | done => rfl
  | plain i rest ih => rw [plain_append, ih]
  | select c yes no rest _ _ ih => rw [select_append, ih]

theorem append_assoc (a b c : Code) : a ++ b ++ c = a ++ (b ++ c) := by
  induction a with
  | done => rfl
  | plain i rest ih => rw [plain_append, plain_append, plain_append, ih]
  | select c yes no rest _ _ ih => rw [select_append, select_append, select_append, ih]

@[simp] theorem instructions_append (c k : Code) :
    (c ++ k).instructions = c.instructions ++ k.instructions := by
  induction c with
  | done => rfl
  | plain i rest ih => rw [plain_append, instructions, instructions, ih, List.cons_append]
  | select c yes no rest _ _ ih =>
    rw [select_append, instructions, instructions, ih]
    simp only [List.append_assoc, List.cons_append]

@[simp] theorem lastLabel_append (c k : Code) (label : UInt32) :
    (c ++ k).lastLabel label = k.lastLabel (c.lastLabel label) := by
  induction c generalizing label with
  | done => rfl
  | plain i rest ih => rw [plain_append, lastLabel, lastLabel, ih]
  | select c yes no rest _ _ ih => rw [select_append, lastLabel, lastLabel, ih]

/-- The instructions of a selection, each arm before all that follows it. -/
theorem instructions_select (c : Choice) (yes no rest : Code) (post : List Instruction) :
    (select c yes no rest).instructions ++ post =
      c.merging :: c.branching :: labelOf c.yes :: (yes.instructions ++ goto c.merge :: labelOf c.no ::
        (no.instructions ++ goto c.merge :: labelOf c.merge ::
          c.phi (yes.lastLabel c.yes) (no.lastLabel c.no) :: (rest.instructions ++ post))) := by
  simp only [instructions, List.append_assoc, List.cons_append, List.nil_append]

/-- What holds of all instructions of a selection: those that lead to its arms and on from them, and
those of its parts. -/
theorem forall_mem_select {P : Instruction → Prop} {c : Choice} {yes no rest : Code} :
    (∀ i ∈ (select c yes no rest).instructions, P i) ↔
      (∀ i ∈ [c.merging, c.branching, labelOf c.yes, goto c.merge, labelOf c.no, labelOf c.merge,
        c.phi (yes.lastLabel c.yes) (no.lastLabel c.no)], P i) ∧
      (∀ i ∈ yes.instructions, P i) ∧ (∀ i ∈ no.instructions, P i) ∧
      ∀ i ∈ rest.instructions, P i := by
  simp only [instructions, List.forall_mem_append, List.forall_mem_cons, List.not_mem_nil,
    false_implies, implies_true, and_true]
  constructor
  · rintro ⟨⟨⟨⟨⟨⟨h₁, h₂, h₃⟩, hy⟩, h₄, h₅⟩, hn⟩, h₄', h₆⟩, h₇, hr⟩
    exact ⟨⟨h₁, h₂, h₃, h₄, h₅, h₆, h₇⟩, hy, hn, hr⟩
  · rintro ⟨⟨h₁, h₂, h₃, h₄, h₅, h₆, h₇⟩, hy, hn, hr⟩
    exact ⟨⟨⟨⟨⟨⟨h₁, h₂, h₃⟩, hy⟩, h₄, h₅⟩, hn⟩, h₄, h₆⟩, h₇, hr⟩

/-- A single instruction as code. -/
abbrev single (i : Instruction) : Code := plain i done

end Code

/-- The instructions of a function with structured code. -/
def functionOf (main void type entry : UInt32) (c : Code) : List Instruction :=
  [⟨.function, [void, main, 0, type]⟩, labelOf entry] ++ c.instructions ++
    [⟨.returnVoid, []⟩, ⟨.functionEnd, []⟩]

end NodeShader.Spirv
