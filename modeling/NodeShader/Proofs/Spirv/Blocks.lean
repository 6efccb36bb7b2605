import Mathlib.Data.List.Nodup
import NodeShader.Proofs.Spirv.Code

/-!
# Blocks and dominance

The instructions of a function fall into blocks, each from a label up to the instruction that ends it
(`blocks`).  A path goes from the first block along the labels that blocks end with, and a block
dominates another if every path to that one goes through it (`Dominates`).

For structured code the blocks and the edges between them are known (`Code.blocks`, `Code.edges`).
An edge into a part of the code comes from within that part, so a part is entered at its start only
(`Code.Entered`), and its start dominates the block it ends in (`Code.Entered.dominates_last`).
-/

namespace NodeShader.Spirv

/-- A block: its label, and its instructions with the one that ends it. -/
structure Block where
  label : UInt32
  body : List Instruction

/-- The blocks of the rest of a function, with `acc` what the current block has so far. -/
def blocksFrom (label : UInt32) (acc : List Instruction) : List Instruction → List Block
  | [] => [⟨label, acc⟩]
  | i :: rest =>
    if i.opcode = .label then ⟨label, acc⟩ :: blocksFrom i.result [] rest
    else if i.opcode = .functionEnd then [⟨label, acc⟩]
    else blocksFrom label (acc ++ [i]) rest

/-- **The blocks of a function**, from its first label on. -/
def blocks : List Instruction → List Block
  | [] => []
  | i :: rest => if i.opcode = .label then blocksFrom i.result [] rest else blocks rest

namespace Block

/-- The labels a block may go on to. -/
def successors (b : Block) : List UInt32 :=
  b.body.flatMap fun i => if i.isTerminator then i.labels else []

/-- The instructions of a block with its label. -/
def instructions (b : Block) : List Instruction := labelOf b.label :: b.body

/-- The edges out of a block. -/
def edges (b : Block) : List (UInt32 × UInt32) := b.successors.map (b.label, ·)

/-- A block that ends in one terminator. -/
def Terminated (b : Block) : Prop :=
  ∃ pre t, b.body = pre ++ [t] ∧ t.isTerminator = true ∧ ∀ i ∈ pre, i.isTerminator = false

end Block

/-- A path through the blocks of a function, with the block it has come to in front. -/
inductive Path (bs : List Block) : List UInt32 → Prop
  | entry {b : Block} : bs.head? = some b → Path bs [b.label]
  | step {b : Block} {l : UInt32} {ls : List UInt32} : Path bs (b.label :: ls) → b ∈ bs →
      l ∈ b.successors → Path bs (l :: b.label :: ls)

/-- **A block dominates another** if every path to that one goes through it. -/
def Dominates (bs : List Block) (a b : UInt32) : Prop := ∀ ls, Path bs (b :: ls) → a ∈ b :: ls

variable {bs : List Block} {a b l : UInt32} {ls : List UInt32}

namespace Dominates

theorem refl (bs : List Block) (a : UInt32) : Dominates bs a a := fun _ _ => List.mem_cons_self

/-- A path to a block goes on from a path to any block on it. -/
theorem path_to (hp : Path bs ls) (ha : a ∈ ls) : ∃ ls', Path bs (a :: ls') ∧ (a :: ls') ⊆ ls := by
  induction hp with
  | entry h =>
    obtain rfl := List.mem_singleton.1 ha
    exact ⟨[], .entry h, List.Subset.refl _⟩
  | step hp hb hl ih =>
    rcases List.mem_cons.1 ha with rfl | ha
    · exact ⟨_, .step hp hb hl, List.Subset.refl _⟩
    · obtain ⟨ls', hp', hsub⟩ := ih ha
      exact ⟨ls', hp', List.subset_cons_of_subset _ hsub⟩

theorem trans {c : UInt32} (h₁ : Dominates bs a b) (h₂ : Dominates bs b c) : Dominates bs a c := by
  intro ls hp
  obtain ⟨ls', hp', hsub⟩ := path_to hp (h₂ ls hp)
  exact hsub (h₁ ls' hp')

/-- What dominates all predecessors of a block, which is not the first, dominates the block. -/
theorem of_predecessors (hentry : ∀ b, bs.head? = some b → b.label ≠ l)
    (h : ∀ b ∈ bs, l ∈ b.successors → Dominates bs a b.label) : Dominates bs a l := by
  intro ls hp
  generalize hls : l :: ls = path at hp
  cases hp with
  | entry hb =>
    cases hls
    exact absurd rfl (hentry _ hb)
  | step hp hb hl =>
    cases hls
    exact List.mem_cons_of_mem _ (h _ hb hl _ hp)

end Dominates

/-- Whether some of the arguments are labels. -/
def Layout.namesLabels : Layout → Bool
  | .jump _ _ | .phi => true
  | _ => false

/-! ### Structured code -/

namespace Code

variable {c : Choice} {yes no rest k : Code} {t : Instruction} {pre : List Instruction}

/-- The blocks of code that goes on in block `label` after `pre` and ends with `t`. -/
def blocks (label : UInt32) (pre : List Instruction) (t : Instruction) : Code → List Block
  | done => [⟨label, pre ++ [t]⟩]
  | plain i rest => rest.blocks label (pre ++ [i]) t
  | select c yes no rest =>
    ⟨label, pre ++ [c.merging, c.branching]⟩ ::
      (yes.blocks c.yes [] (goto c.merge) ++ no.blocks c.no [] (goto c.merge)
        ++ rest.blocks c.merge [c.phi (yes.lastLabel c.yes) (no.lastLabel c.no)] t)

/-- The edges within code that starts in block `label`. -/
def edges (label : UInt32) : Code → List (UInt32 × UInt32)
  | done => []
  | plain _ rest => rest.edges label
  | select c yes no rest =>
    [(label, c.yes), (label, c.no)] ++ (yes.edges c.yes ++ [(yes.lastLabel c.yes, c.merge)])
      ++ (no.edges c.no ++ [(no.lastLabel c.no, c.merge)]) ++ rest.edges c.merge

/-- The labels of the blocks that code opens. -/
def opened : Code → List UInt32
  | done => []
  | plain _ rest => rest.opened
  | select c yes no rest => c.yes :: yes.opened ++ c.no :: no.opened ++ c.merge :: rest.opened

/-- The opcodes that open, join and end blocks. -/
def controlOps : List Opcode :=
  [.label, .functionEnd, .phi, .selectionMerge, .branch, .branchConditional, .returnVoid,
    .returnValue, .kill]

/-- Code whose instructions neither open nor end blocks. -/
def Ordinary : Code → Prop
  | done => True
  | plain i rest => i.opcode ∉ controlOps ∧ rest.Ordinary
  | select _ yes no rest => yes.Ordinary ∧ no.Ordinary ∧ rest.Ordinary

theorem blocksFrom_cons {i : Instruction} {is : List Instruction} (hl : i.opcode ≠ .label)
    (hf : i.opcode ≠ .functionEnd) (label : UInt32) (acc : List Instruction) :
    blocksFrom label acc (i :: is) = blocksFrom label (acc ++ [i]) is := by
  rw [blocksFrom, if_neg hl, if_neg hf]

theorem blocksFrom_label (label x : UInt32) (acc is : List Instruction) :
    blocksFrom label acc (labelOf x :: is) = ⟨label, acc⟩ :: blocksFrom x [] is := by
  rw [blocksFrom, if_pos (show (labelOf x).opcode = .label from rfl)]
  rfl

/-- What follows code is read in the block that the code ends in. -/
def ends (label : UInt32) (pre : List Instruction) : Code → List Block × List Instruction
  | done => ([], pre)
  | plain i rest => rest.ends label (pre ++ [i])
  | select c yes no rest =>
    let later := rest.ends c.merge [c.phi (yes.lastLabel c.yes) (no.lastLabel c.no)]
    (⟨label, pre ++ [c.merging, c.branching]⟩ ::
      (yes.blocks c.yes [] (goto c.merge) ++ no.blocks c.no [] (goto c.merge) ++ later.1), later.2)

theorem blocks_eq_ends (label : UInt32) (pre : List Instruction) (t : Instruction) (k : Code) :
    k.blocks label pre t =
      (k.ends label pre).1 ++ [⟨k.lastLabel label, (k.ends label pre).2 ++ [t]⟩] := by
  induction k generalizing label pre with
  | done => rfl
  | plain i rest ih => exact ih label (pre ++ [i])
  | select c yes no rest _ _ ih =>
    rw [blocks, ends, ih]
    simp only [List.append_assoc, List.cons_append]
    rfl

/-- **The blocks of a function with structured code.** -/
theorem blocksFrom_instructions (hk : k.Ordinary) (label : UInt32) (pre is : List Instruction) :
    blocksFrom label pre (k.instructions ++ is) =
      (k.ends label pre).1 ++ blocksFrom (k.lastLabel label) (k.ends label pre).2 is := by
  induction k generalizing label pre is with
  | done => rfl
  | plain i rest ih =>
    have hl : i.opcode ≠ .label := fun h => hk.1 (by rw [h]; decide)
    have hf : i.opcode ≠ .functionEnd := fun h => hk.1 (by rw [h]; decide)
    rw [instructions, List.cons_append, blocksFrom_cons hl hf, ih hk.2]
    rfl
  | select c yes no rest ihy ihn ihr =>
    have hgoto : ∀ (label x y : UInt32) (acc is : List Instruction),
        blocksFrom label acc (goto x :: labelOf y :: is) =
          ⟨label, acc ++ [goto x]⟩ :: blocksFrom y [] is := by
      intro label x y acc is
      rw [blocksFrom_cons (by show Opcode.branch ≠ _; decide) (by show Opcode.branch ≠ _; decide),
        blocksFrom_label]
    have hstart : ∀ is, blocksFrom label pre (c.merging :: c.branching :: labelOf c.yes :: is) =
        ⟨label, pre ++ [c.merging, c.branching]⟩ :: blocksFrom c.yes [] is := by
      intro is
      rw [blocksFrom_cons (by show Opcode.selectionMerge ≠ _; decide)
          (by show Opcode.selectionMerge ≠ _; decide),
        blocksFrom_cons (by show Opcode.branchConditional ≠ _; decide)
          (by show Opcode.branchConditional ≠ _; decide), blocksFrom_label, List.append_assoc]
      rfl
    have hphi : ∀ is, blocksFrom c.merge []
        (c.phi (yes.lastLabel c.yes) (no.lastLabel c.no) :: is) =
        blocksFrom c.merge [c.phi (yes.lastLabel c.yes) (no.lastLabel c.no)] is := by
      intro is
      rw [blocksFrom_cons (by show Opcode.phi ≠ _; decide) (by show Opcode.phi ≠ _; decide)]
      rfl
    rw [instructions]
    simp only [List.append_assoc, List.cons_append, List.nil_append]
    rw [hstart, ihy hk.1, hgoto, ihn hk.2.1, hgoto, hphi, ihr hk.2.2, ends,
      blocks_eq_ends c.yes, blocks_eq_ends c.no]
    simp only [List.append_assoc, List.cons_append, List.nil_append]
    rfl

/-! ### Edges of structured code -/

theorem successors_of_end {label : UInt32} (hpre : ∀ i ∈ pre, i.isTerminator = false)
    (ht : t.isTerminator = true) : Block.successors ⟨label, pre ++ [t]⟩ = t.labels := by
  have hnil : (pre.flatMap fun i => if i.isTerminator then i.labels else []) = [] := by
    rw [List.flatMap_eq_nil_iff]
    intro i hi
    rw [if_neg (by rw [hpre i hi]; decide)]
  rw [Block.successors, List.flatMap_append, hnil, List.flatMap_singleton, if_pos ht,
    List.nil_append]

theorem Ordinary.not_terminator {i : Instruction} (h : i.opcode ∉ controlOps) :
    i.isTerminator = false := by
  rw [Instruction.isTerminator, Bool.eq_false_iff, ne_eq, List.contains_iff_mem]
  have hsub : ∀ op ∈ terminators, op ∈ controlOps := by decide
  exact fun ht => h (hsub _ ht)

/-- No instruction ends the block but the last. -/
def Unended (pre : List Instruction) : Prop := ∀ i ∈ pre, i.isTerminator = false

theorem Unended.nil : Unended [] := fun _ hi => absurd hi List.not_mem_nil

theorem Unended.phi (c : Choice) (a b : UInt32) : Unended [c.phi a b] := by
  intro i hi
  rw [List.mem_singleton.1 hi]
  rfl

theorem Unended.snoc {i : Instruction} (h : Unended pre) (hi : i.isTerminator = false) :
    Unended (pre ++ [i]) := by
  intro j hj
  rcases List.mem_append.1 hj with hj | hj
  · exact h j hj
  · rw [List.mem_singleton.1 hj]
    exact hi

/-- **The edges between the blocks of structured code.** -/
theorem edges_blocks (hk : k.Ordinary) (label : UInt32) (hpre : Unended pre)
    (ht : t.isTerminator = true) :
    (k.blocks label pre t).flatMap Block.edges =
      k.edges label ++ t.labels.map (k.lastLabel label, ·) := by
  induction k generalizing label pre t with
  | done =>
    rw [blocks, List.flatMap_singleton, Block.edges, successors_of_end hpre ht]
    rfl
  | plain i rest ih => exact ih hk.2 label (hpre.snoc (Ordinary.not_terminator hk.1)) ht
  | select c yes no rest ihy ihn ihr =>
    have hheader : Block.edges ⟨label, pre ++ [c.merging, c.branching]⟩ =
        [(label, c.yes), (label, c.no)] := by
      have hsplit : pre ++ [c.merging, c.branching] = (pre ++ [c.merging]) ++ [c.branching] := by
        simp
      rw [hsplit, Block.edges, successors_of_end (hpre.snoc rfl) rfl]
      rfl
    rw [blocks, List.flatMap_cons, hheader, List.flatMap_append, List.flatMap_append,
      ihy hk.1 c.yes .nil rfl, ihn hk.2.1 c.no .nil rfl,
      ihr hk.2.2 c.merge (.phi c _ _) ht, edges]
    simp only [List.append_assoc, List.cons_append, List.nil_append]
    rfl

/-- Every block of structured code ends in one terminator. -/
theorem terminated_blocks (hk : k.Ordinary) (label : UInt32) (hpre : Unended pre)
    (ht : t.isTerminator = true) : ∀ b ∈ k.blocks label pre t, b.Terminated := by
  induction k generalizing label pre t with
  | done =>
    intro b hb
    rw [List.mem_singleton.1 hb]
    exact ⟨pre, t, rfl, ht, hpre⟩
  | plain i rest ih => exact ih hk.2 label (hpre.snoc (Ordinary.not_terminator hk.1)) ht
  | select c yes no rest ihy ihn ihr =>
    rw [blocks, List.forall_mem_cons, List.forall_mem_append, List.forall_mem_append]
    refine ⟨⟨pre ++ [c.merging], c.branching, by simp, rfl, hpre.snoc rfl⟩,
      ⟨ihy hk.1 c.yes .nil rfl, ihn hk.2.1 c.no .nil rfl⟩, ?_⟩
    exact ihr hk.2.2 c.merge (.phi c _ _) ht

theorem target_mem_opened {e : UInt32 × UInt32} {label : UInt32} (h : e ∈ k.edges label) :
    e.2 ∈ k.opened := by
  induction k generalizing label with
  | done => cases h
  | plain i rest ih => exact ih h
  | select c yes no rest ihy ihn ihr =>
    simp only [edges, opened, List.mem_append, List.mem_cons, List.not_mem_nil, or_false] at h ⊢
    rcases h with ((((rfl | rfl) | hy | rfl) | hn | rfl) | hr)
    · simp
    · simp
    · simp [ihy hy]
    · simp
    · simp [ihn hn]
    · simp
    · simp [ihr hr]

/-! ### Dominance in structured code -/

/-- **Code that is entered at its start only**, with `E` the edges of the function: what leads to one
of the blocks it opens is an edge of its own. -/
structure Entered (E : List (UInt32 × UInt32)) (label : UInt32) (k : Code) : Prop where
  nodup : k.opened.Nodup
  edges : ∀ e ∈ E, e.2 ∈ k.opened → e ∈ k.edges label

section Entered

variable {E : List (UInt32 × UInt32)} {label : UInt32}

theorem opened_perm (c : Choice) (yes no rest : Code) : (select c yes no rest).opened.Perm
    (c.yes :: c.no :: c.merge :: (yes.opened ++ no.opened ++ rest.opened)) := by
  refine .cons _ (List.perm_middle.trans ?_)
  exact (List.Perm.cons _ (.append_right _ List.perm_middle)).trans (.swap _ _ _)

/-- The labels of a selection and its parts are told apart. -/
theorem nodup_select (h : (select c yes no rest).opened.Nodup) :
    (c.yes ≠ c.no ∧ c.yes ≠ c.merge ∧ c.no ≠ c.merge) ∧
      (∀ x ∈ [c.yes, c.no, c.merge], x ∉ yes.opened ∧ x ∉ no.opened ∧ x ∉ rest.opened) ∧
      (yes.opened.Nodup ∧ no.opened.Nodup ∧ rest.opened.Nodup) ∧
      yes.opened.Disjoint no.opened ∧ yes.opened.Disjoint rest.opened ∧
      no.opened.Disjoint rest.opened := by
  rw [(opened_perm c yes no rest).nodup_iff] at h
  simp only [List.nodup_cons, List.mem_cons, List.mem_append, List.nodup_append',
    List.disjoint_append_left, not_or] at h
  obtain ⟨⟨hyn, hym, ⟨hy₁, hy₂⟩, hy₃⟩, ⟨hnm, ⟨hn₁, hn₂⟩, hn₃⟩, ⟨⟨hm₁, hm₂⟩, hm₃⟩,
    ⟨hY, hN, hYN⟩, hR, hYR, hNR⟩ := h
  refine ⟨⟨hyn, hym, hnm⟩, ?_, ⟨hY, hN, hR⟩, hYN, hYR, hNR⟩
  simp only [List.forall_mem_cons, List.not_mem_nil, false_implies, implies_true, and_true]
  exact ⟨⟨hy₁, hy₂, hy₃⟩, ⟨hn₁, hn₂, hn₃⟩, hm₁, hm₂, hm₃⟩

theorem Entered.of_plain {i : Instruction} (h : Entered E label (plain i rest)) :
    Entered E label rest := ⟨h.nodup, h.edges⟩

/-- **A selection is entered at its start only, and so are its parts**: its arms from its own block,
and the block where they meet from the ends of the arms. -/
theorem Entered.of_select (h : Entered E label (select c yes no rest)) :
    Entered E c.yes yes ∧ Entered E c.no no ∧ Entered E c.merge rest ∧
      (∀ a, (a, c.yes) ∈ E → a = label) ∧ (∀ a, (a, c.no) ∈ E → a = label) ∧
      ∀ a, (a, c.merge) ∈ E → a = yes.lastLabel c.yes ∨ a = no.lastLabel c.no := by
  obtain ⟨⟨hyn, hym, hnm⟩, hfresh, ⟨hY, hN, hR⟩, hYN, hYR, hNR⟩ := nodup_select h.nodup
  obtain ⟨hfy, hfn, hfm⟩ : _ ∧ _ ∧ _ := by
    simpa only [List.forall_mem_cons, List.not_mem_nil, false_implies, implies_true,
      and_true] using hfresh
  -- an edge of the function to a block of the selection, by what part it belongs to
  have hcases : ∀ e ∈ E, e.2 ∈ (select c yes no rest).opened →
      e = (label, c.yes) ∨ e = (label, c.no) ∨ e ∈ yes.edges c.yes ∨
      e = (yes.lastLabel c.yes, c.merge) ∨ e ∈ no.edges c.no ∨ e = (no.lastLabel c.no, c.merge) ∨
      e ∈ rest.edges c.merge := by
    intro e he ho
    have := h.edges e he ho
    simp only [Code.edges, List.mem_append, List.mem_cons, List.not_mem_nil, or_false] at this
    rcases this with ((((h | h) | h | h) | h | h) | h)
    all_goals simp [h]
  have hsub : ∀ x, x ∈ [c.yes, c.no, c.merge] ∨ x ∈ yes.opened ∨ x ∈ no.opened ∨ x ∈ rest.opened →
      x ∈ (select c yes no rest).opened := by
    intro x hx
    rw [(opened_perm c yes no rest).mem_iff]
    simpa [or_assoc] using hx
  refine ⟨⟨hY, fun e he ho => ?_⟩, ⟨hN, fun e he ho => ?_⟩, ⟨hR, fun e he ho => ?_⟩,
    fun a ha => ?_, fun a ha => ?_, fun a ha => ?_⟩
  · rcases hcases e he (hsub _ (.inr (.inl ho))) with rfl | rfl | h | rfl | h | rfl | h
    · exact absurd ho hfy.1
    · exact absurd ho hfn.1
    · exact h
    · exact absurd ho hfm.1
    · exact absurd (target_mem_opened h) (hYN ho)
    · exact absurd ho hfm.1
    · exact absurd (target_mem_opened h) (hYR ho)
  · rcases hcases e he (hsub _ (.inr (.inr (.inl ho)))) with rfl | rfl | h | rfl | h | rfl | h
    · exact absurd ho hfy.2.1
    · exact absurd ho hfn.2.1
    · exact absurd ho (hYN (target_mem_opened h))
    · exact absurd ho hfm.2.1
    · exact h
    · exact absurd ho hfm.2.1
    · exact absurd (target_mem_opened h) (hNR ho)
  · rcases hcases e he (hsub _ (.inr (.inr (.inr ho)))) with rfl | rfl | h | rfl | h | rfl | h
    · exact absurd ho hfy.2.2
    · exact absurd ho hfn.2.2
    · exact absurd ho (hYR (target_mem_opened h))
    · exact absurd ho hfm.2.2
    · exact absurd ho (hNR (target_mem_opened h))
    · exact absurd ho hfm.2.2
    · exact h
  · rcases hcases _ ha (hsub _ (.inl (by simp))) with h | h | h | h | h | h | h
    · exact (Prod.mk.inj h).1
    · exact absurd (Prod.mk.inj h).2 hyn
    · exact absurd (target_mem_opened h) hfy.1
    · exact absurd (Prod.mk.inj h).2 hym
    · exact absurd (target_mem_opened h) hfy.2.1
    · exact absurd (Prod.mk.inj h).2 hym
    · exact absurd (target_mem_opened h) hfy.2.2
  · rcases hcases _ ha (hsub _ (.inl (by simp))) with h | h | h | h | h | h | h
    · exact absurd (Prod.mk.inj h).2.symm hyn
    · exact (Prod.mk.inj h).1
    · exact absurd (target_mem_opened h) hfn.1
    · exact absurd (Prod.mk.inj h).2 hnm
    · exact absurd (target_mem_opened h) hfn.2.1
    · exact absurd (Prod.mk.inj h).2 hnm
    · exact absurd (target_mem_opened h) hfn.2.2
  · rcases hcases _ ha (hsub _ (.inl (by simp))) with h | h | h | h | h | h | h
    · exact absurd (Prod.mk.inj h).2.symm hym
    · exact absurd (Prod.mk.inj h).2.symm hnm
    · exact absurd (target_mem_opened h) hfm.1
    · exact .inl (Prod.mk.inj h).1
    · exact absurd (target_mem_opened h) hfm.2.1
    · exact .inr (Prod.mk.inj h).1
    · exact absurd (target_mem_opened h) hfm.2.2

end Entered

end Code

theorem mem_edges {e : UInt32 × UInt32} :
    e ∈ bs.flatMap Block.edges ↔ ∃ b ∈ bs, b.label = e.1 ∧ e.2 ∈ b.successors := by
  simp only [List.mem_flatMap, Block.edges, List.mem_map]
  constructor
  · rintro ⟨b, hb, l, hl, rfl⟩
    exact ⟨b, hb, rfl, hl⟩
  · rintro ⟨b, hb, he, hl⟩
    exact ⟨b, hb, e.2, hl, by rw [he]⟩

/-- A block with the same predecessor on all edges to it. -/
theorem Dominates.of_edges (hentry : ∀ b, bs.head? = some b → b.label ≠ l)
    (h : ∀ p, (p, l) ∈ bs.flatMap Block.edges → Dominates bs a p) : Dominates bs a l :=
  of_predecessors hentry fun b hb hl => h b.label (mem_edges.2 ⟨b, hb, rfl, hl⟩)

namespace Code

variable {c : Choice} {yes no rest k : Code} {label : UInt32}

/-- **A selection dominates its parts.** -/
theorem Entered.dominates (h : Entered (bs.flatMap Block.edges) label (select c yes no rest))
    (hentry : ∀ b, bs.head? = some b → b.label ∉ (select c yes no rest).opened)
    (hy : Dominates bs c.yes (yes.lastLabel c.yes)) (hn : Dominates bs c.no (no.lastLabel c.no)) :
    Dominates bs label c.yes ∧ Dominates bs label c.no ∧ Dominates bs label c.merge := by
  obtain ⟨-, -, -, hyes, hno, hmerge⟩ := h.of_select
  have hmem : ∀ x ∈ (select c yes no rest).opened, ∀ b, bs.head? = some b → b.label ≠ x := by
    rintro _ hx b hb rfl
    exact hentry b hb hx
  have hdy : Dominates bs label c.yes := .of_edges (hmem _ (by simp [opened])) fun p hp => by
    rw [hyes p hp]
    exact .refl bs label
  have hdn : Dominates bs label c.no := .of_edges (hmem _ (by simp [opened])) fun p hp => by
    rw [hno p hp]
    exact .refl bs label
  refine ⟨hdy, hdn, .of_edges (hmem _ (by simp [opened])) fun p hp => ?_⟩
  rcases hmerge p hp with rfl | rfl
  · exact hdy.trans hy
  · exact hdn.trans hn

/-- **The start of code dominates the block it ends in.** -/
theorem Entered.dominates_last (h : Entered (bs.flatMap Block.edges) label k)
    (hentry : ∀ b, bs.head? = some b → b.label ∉ k.opened) :
    Dominates bs label (k.lastLabel label) := by
  induction k generalizing label with
  | done => exact .refl bs label
  | plain i rest ih => exact ih h.of_plain hentry
  | select c yes no rest ihy ihn ihr =>
    obtain ⟨hy, hn, hr, -⟩ := h.of_select
    have hdy := ihy hy fun b hb hx => hentry b hb (by simp [opened, hx])
    have hdn := ihn hn fun b hb hx => hentry b hb (by simp [opened, hx])
    have hdr := ihr hr fun b hb hx => hentry b hb (by simp [opened, hx])
    exact (h.dominates hentry hdy hdn).2.2.trans hdr

/-! ### Places in a function -/

/-- **Code that stands in a function**, in block `label`, which the blocks `S` lead to. -/
structure Placed (bs : List Block) (S : List UInt32) (label : UInt32) (k : Code) : Prop where
  entered : Entered (bs.flatMap Block.edges) label k
  edges : ∀ e ∈ k.edges label, e ∈ bs.flatMap Block.edges
  entry : ∀ b, bs.head? = some b → b.label ∉ k.opened
  outside : ∀ x ∈ label :: S, x ∉ k.opened
  fresh : label ∉ S

variable {S : List UInt32}

theorem Placed.of_plain {i : Instruction} (h : Placed bs S label (plain i rest)) :
    Placed bs S label rest := ⟨h.entered.of_plain, h.edges, h.entry, h.outside, h.fresh⟩

/-- Parts of a selection that open some of its blocks stand in the function. -/
theorem Placed.part (h : Placed bs S label (select c yes no rest)) {x : UInt32}
    (hx : x ∈ (select c yes no rest).opened) (hxk : x ∉ k.opened)
    (hopened : ∀ y ∈ k.opened, y ∈ (select c yes no rest).opened)
    (hedges : ∀ e ∈ k.edges x, e ∈ (select c yes no rest).edges label)
    (hk : Entered (bs.flatMap Block.edges) x k) : Placed bs (label :: S) x k where
  entered := hk
  edges := fun e he => h.edges e (hedges e he)
  entry := fun b hb hm => h.entry b hb (hopened _ hm)
  outside := by
    intro y hy hm
    rcases List.mem_cons.1 hy with rfl | hy
    · exact hxk hm
    · exact h.outside y hy (hopened y hm)
  fresh := fun hm => h.outside x hm hx

/-- **The parts of a selection stand in the function**, and its block leads to them. -/
theorem Placed.of_select (h : Placed bs S label (select c yes no rest)) :
    Placed bs (label :: S) c.yes yes ∧ Placed bs (label :: S) c.no no ∧
      Placed bs (label :: S) c.merge rest ∧ Dominates bs label c.yes ∧ Dominates bs label c.no ∧
      Dominates bs label c.merge := by
  obtain ⟨hy, hn, hr, -⟩ := h.entered.of_select
  obtain ⟨-, hfresh, -⟩ := nodup_select h.entered.nodup
  have py := h.part (k := yes) (by simp [opened]) (hfresh c.yes (by simp)).1
    (fun y hy => by simp [opened, hy]) (fun e he => by simp [Code.edges, he]) hy
  have pn := h.part (k := no) (by simp [opened]) (hfresh c.no (by simp)).2.1
    (fun y hy => by simp [opened, hy]) (fun e he => by simp [Code.edges, he]) hn
  have pr := h.part (k := rest) (by simp [opened]) (hfresh c.merge (by simp)).2.2
    (fun y hy => by simp [opened, hy]) (fun e he => by simp [Code.edges, he]) hr
  exact ⟨py, pn, pr, h.entered.dominates h.entry (hy.dominates_last py.entry)
    (hn.dominates_last pn.entry)⟩

theorem lastLabel_mem (k : Code) (label : UInt32) : k.lastLabel label ∈ label :: k.opened := by
  induction k generalizing label with
  | done => exact List.mem_cons_self
  | plain i rest ih => exact ih label
  | select c yes no rest _ _ ih => exact List.mem_cons_of_mem _ (List.mem_append_right _ (ih c.merge))

/-- The arms of a selection end in different blocks. -/
theorem lastLabel_ne (h : (select c yes no rest).opened.Nodup) :
    yes.lastLabel c.yes ≠ no.lastLabel c.no := by
  obtain ⟨⟨hyn, -, -⟩, hfresh, -, hYN, -⟩ := nodup_select h
  intro he
  have hy := yes.lastLabel_mem c.yes
  have hn := no.lastLabel_mem c.no
  rw [← he] at hn
  rcases List.mem_cons.1 hy with hy | hy <;> rcases List.mem_cons.1 hn with hn | hn
  · exact hyn (hy.symm.trans hn)
  · exact (hfresh c.yes (by simp)).2.1 (hy ▸ hn)
  · exact (hfresh c.no (by simp)).1 (hn ▸ hy)
  · exact hYN hy hn

/-- **The blocks that lead to where the arms of a selection meet** are the ends of its arms. -/
theorem Placed.parents (h : Placed bs S label (select c yes no rest)) :
    yes.lastLabel c.yes ≠ no.lastLabel c.no ∧
      ∀ l, l ∈ [yes.lastLabel c.yes, no.lastLabel c.no] ↔
        ∃ b ∈ bs, b.label = l ∧ c.merge ∈ b.successors := by
  refine ⟨lastLabel_ne h.entered.nodup, fun l => ⟨fun hl => ?_, fun hl => ?_⟩⟩
  · refine mem_edges (e := (l, c.merge)).1 (h.edges _ ?_)
    rcases List.mem_pair.1 hl with rfl | rfl
    · simp [Code.edges]
    · simp [Code.edges]
  · obtain ⟨-, -, -, -, -, hmerge⟩ := h.entered.of_select
    exact List.mem_pair.2 (hmerge l (mem_edges (e := (l, c.merge)).2 hl))

/-! ### Functions -/

theorem instructions_blocks (k : Code) (label : UInt32) (pre : List Instruction) (t : Instruction) :
    (k.blocks label pre t).flatMap Block.instructions =
      labelOf label :: (pre ++ k.instructions ++ [t]) := by
  induction k generalizing label pre t with
  | done => simp [blocks, Block.instructions, instructions]
  | plain i rest ih =>
    rw [blocks, ih, instructions]
    simp
  | select c yes no rest ihy ihn ihr =>
    rw [blocks, List.flatMap_cons, List.flatMap_append, List.flatMap_append, ihy, ihn, ihr,
      instructions, Block.instructions]
    simp only [List.append_assoc, List.cons_append, List.nil_append]

theorem head_blocks (k : Code) (label : UInt32) (pre : List Instruction) (t : Instruction) :
    ∃ b, (k.blocks label pre t).head? = some b ∧ b.label = label := by
  induction k generalizing pre with
  | done => exact ⟨_, rfl, rfl⟩
  | plain i rest ih => exact ih (pre ++ [i])
  | select c yes no rest => exact ⟨_, rfl, rfl⟩

/-- **The blocks of a function** with structured code. -/
theorem blocks_functionOf (hk : k.Ordinary) (main void type entry : UInt32) :
    Spirv.blocks (functionOf main void type entry k) = k.blocks entry [] ⟨.returnVoid, []⟩ := by
  rw [functionOf, List.append_assoc, List.cons_append, Spirv.blocks,
    if_neg (by show Opcode.function ≠ _; decide), List.cons_append, Spirv.blocks, if_pos (show (labelOf entry).opcode = .label from rfl)]
  show blocksFrom entry [] (k.instructions ++ _) = _
  rw [blocksFrom_instructions hk, blocks_eq_ends, blocksFrom_cons (by decide) (by decide), blocksFrom,
    if_neg (by decide), if_pos rfl]

/-- The labels of code are among its results. -/
theorem opened_sublist (k : Code) : k.opened.Sublist (k.instructions.filterMap (·.result?)) := by
  induction k with
  | done => exact List.Sublist.refl _
  | plain i rest ih => exact ih.trans ((List.sublist_cons_self i _).filterMap _)
  | select c yes no rest ihy ihn ihr =>
    have hresults : (select c yes no rest).instructions.filterMap (·.result?) =
        c.yes :: yes.instructions.filterMap (·.result?) ++
          c.no :: no.instructions.filterMap (·.result?) ++
          c.merge :: c.result :: rest.instructions.filterMap (·.result?) := by
      have hframe : c.merging.result? = none ∧ c.branching.result? = none ∧
          (∀ x, (labelOf x).result? = some x) ∧ (∀ x, (goto x).result? = none) ∧
          ∀ a b, (c.phi a b).result? = some c.result := ⟨rfl, rfl, fun _ => rfl, fun _ => rfl,
        fun _ _ => rfl⟩
      obtain ⟨h₁, h₂, h₃, h₄, h₅⟩ := hframe
      simp only [instructions, List.filterMap_append, List.filterMap_cons, h₁, h₂,
        h₃, h₄, h₅, List.append_assoc, List.cons_append, List.nil_append]
    rw [opened, hresults]
    exact ((ihy.cons_cons _).append (ihn.cons_cons _)).append ((ihr.cons _).cons_cons _)

/-- Instructions that do not open, join or end blocks name no labels. -/
theorem labels_of_ordinary {i : Instruction} (h : i.opcode ∉ controlOps) : i.labels = [] := by
  have hall : ∀ e ∈ layouts, e.2.namesLabels = true → e.1 ∈ controlOps := by decide
  have hlayout : i.opcode.layout.namesLabels = false := by
    rw [Opcode.layout]
    cases hl : layouts.lookup i.opcode with
    | none => rfl
    | some l =>
      obtain ⟨l₁, l₂, heq, -⟩ := List.lookup_eq_some_iff.1 hl
      rw [Option.getD_some, Bool.eq_false_iff]
      exact fun hn => h (hall (i.opcode, l) (by rw [heq]; simp) hn)
  unfold Instruction.labels
  split
  · rename_i hj
    rw [hj] at hlayout
    cases hlayout
  · rename_i hj
    rw [hj] at hlayout
    cases hlayout
  · rfl

/-- **Code names only labels of its own blocks.** -/
theorem labels_mem (hk : k.Ordinary) (label : UInt32) :
    ∀ i ∈ k.instructions, ∀ x ∈ i.labels, x ∈ label :: k.opened := by
  induction k generalizing label with
  | done => exact fun _ hi => absurd hi List.not_mem_nil
  | plain i rest ih =>
    intro j hj x hx
    rcases List.mem_cons.1 hj with rfl | hj
    · rw [labels_of_ordinary hk.1] at hx
      cases hx
    · exact ih hk.2 label j hj x hx
  | select c yes no rest ihy ihn ihr =>
    have hsub : ∀ x, x ∈ c.yes :: yes.opened ∨ x ∈ c.no :: no.opened ∨ x ∈ c.merge :: rest.opened →
        x ∈ label :: (select c yes no rest).opened := by
      intro x hx
      rw [opened]
      simp only [List.mem_cons, List.mem_append] at hx ⊢
      exact .inr ((or_assoc).2 hx)
    rw [forall_mem_select]
    refine ⟨?_, fun i hi x hx => hsub x (.inl (ihy hk.1 c.yes i hi x hx)),
      fun i hi x hx => hsub x (.inr (.inl (ihn hk.2.1 c.no i hi x hx))),
      fun i hi x hx => hsub x (.inr (.inr (ihr hk.2.2 c.merge i hi x hx)))⟩
    have hmerge : c.merge ∈ label :: (select c yes no rest).opened :=
      hsub _ (.inr (.inr List.mem_cons_self))
    simp only [List.forall_mem_cons, List.not_mem_nil, false_implies, implies_true, and_true]
    refine ⟨fun x hx => ?_, fun x hx => ?_, fun x hx => ?_, fun x hx => ?_, fun x hx => ?_,
      fun x hx => ?_, fun x hx => ?_⟩
    · rwa [List.mem_singleton.1 (show x ∈ [c.merge] from hx)]
    · rcases List.mem_pair.1 (show x ∈ [c.yes, c.no] from hx) with rfl | rfl
      · exact hsub _ (.inl List.mem_cons_self)
      · exact hsub _ (.inr (.inl List.mem_cons_self))
    · cases hx
    · rwa [List.mem_singleton.1 (show x ∈ [c.merge] from hx)]
    · cases hx
    · cases hx
    · rcases List.mem_pair.1 (show x ∈ [yes.lastLabel c.yes, no.lastLabel c.no] from hx) with
        rfl | rfl
      · exact hsub _ (.inl (yes.lastLabel_mem c.yes))
      · exact hsub _ (.inr (.inl (no.lastLabel_mem c.no)))

/-- The blocks that code opens have their labels in it. -/
theorem label_mem (k : Code) : ∀ x ∈ k.opened, labelOf x ∈ k.instructions := by
  induction k with
  | done => exact fun _ hx => absurd hx List.not_mem_nil
  | plain i rest ih => exact fun x hx => List.mem_cons_of_mem _ (ih x hx)
  | select c yes no rest ihy ihn ihr =>
    intro x hx
    simp only [opened, List.mem_append, List.mem_cons] at hx
    simp only [instructions, List.mem_append, List.mem_cons]
    rcases hx with ((rfl | hx) | rfl | hx) | rfl | hx
    · simp
    · simp [ihy x hx]
    · simp
    · simp [ihn x hx]
    · simp
    · simp [ihr x hx]

end Code

end NodeShader.Spirv
