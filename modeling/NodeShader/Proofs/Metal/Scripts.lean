import NodeShader.Proofs.Metal.Assembling
import NodeShader.Proofs.Spirv.Blocks

/-!
# What the text of a function does

The text of a function is a `Script`: the statements of its blocks, the assignments that choose what phis
are, and selections with two arms in braces.  A script is run (`Script.run`) from statement to statement, with
the outcome of each condition as it may be.

* `Follows`: what is done on a path through the blocks of a function, each block with the statements it
  prints, and on each edge what the phis of the next block are.
* `Transcribed`: the script of structured code.  It holds each block once (`Transcribed.blocks`), and **runs
  along the paths of the code** (`Transcribed.follows`).
-/

namespace NodeShader.Metal

open Spirv

/-! ### Scripts -/

/-- **The text of a function**, from some place on to the brace that ends it. -/
inductive Script where
  | done
  | leave (out : Bool)
  | block (label : UInt32) (code : List Statement) (rest : Script)
  | assign (phi : UInt32) (value : String) (rest : Script)
  | choice (label : UInt32) (test : String) (yes no rest : Script)

/-- **What is done** when a script runs: the statements of a block, a test with its outcome, the assignment of
a phi, and the return. -/
inductive Deed where
  | perform (label : UInt32) (code : List Statement)
  | test (label : UInt32) (test : String) (outcome : Bool)
  | assign (phi : UInt32) (value : String)
  | leave (out : Bool)

/-- **Statements use locals that are declared**: those in scope, and those declared before among them. -/
def InScope : List UInt32 → List Statement → Prop
  | _, [] => True
  | xs, a :: ss => Mentions xs (textOf a.pieces).toList ∧ InScope (xs ++ a.declared) ss

namespace Script

/-- The lines of a script at a depth. -/
def lines (depth : Nat) : Script → List String
  | done => []
  | leave out => [indented depth (if out then "return out;" else "return;")]
  | block _ code rest => code.map (fun a => indented depth a.text) ++ rest.lines depth
  | assign phi value rest => indented depth (localName phi ++ " = " ++ value ++ ";") :: rest.lines depth
  | choice _ test yes no rest =>
    indented depth ("if (" ++ test ++ ")") :: indented depth "\x7b" :: (yes.lines (depth + 1) ++
      indented depth "\x7d" :: indented depth "else" :: indented depth "\x7b" :: (no.lines (depth + 1) ++
        indented depth "\x7d" :: rest.lines depth))

/-- The blocks of a script in the order of their text. -/
def blocks : Script → List (UInt32 × List Statement)
  | done | leave _ => []
  | block label code rest => (label, code) :: rest.blocks
  | assign _ _ rest => rest.blocks
  | choice _ _ yes no rest => yes.blocks ++ no.blocks ++ rest.blocks

/-- **Running a script**, where the test of block `l` turns out to be `outcome l`, and what is done after its
last line. -/
def run (outcome : UInt32 → Bool) : Script → List Deed → List Deed
  | done, after => after
  | leave out, _ => [.leave out]
  | block label code rest, after => .perform label code :: rest.run outcome after
  | assign phi value rest, after => .assign phi value :: rest.run outcome after
  | choice label test yes no rest, after =>
    .test label test (outcome label) :: (if outcome label then yes.run outcome (rest.run outcome after)
      else no.run outcome (rest.run outcome after))

/-- **Locals are used within the braces that declare them**, after their declaration. -/
def Scoped : List UInt32 → Script → Prop
  | _, done | _, leave _ => True
  | xs, block _ code rest => InScope xs code ∧ rest.Scoped (xs ++ code.flatMap Statement.declared)
  | xs, assign phi value rest => phi ∈ xs ∧ Mentions xs value.toList ∧ rest.Scoped xs
  | xs, choice _ test yes no rest =>
    Mentions xs test.toList ∧ yes.Scoped xs ∧ no.Scoped xs ∧ rest.Scoped xs

end Script

/-! ### Paths -/

section Paths

variable (t : Tables) (bs : List Binding) (W : List Instruction)

/-- The statements that instructions print. -/
def PrintsAll (is : List Instruction) (ss : List Statement) : Prop :=
  ∃ groups, List.Forall₂ (Prints t bs W) is groups ∧ ss = groups.flatten

/-- The phis of a block. -/
def phisOf (b : Spirv.Block) : List Instruction := b.body.filter (·.opcode = .phi)

/-- **What a phi is assigned** on the way from a block: the one value it has for that block. -/
def Assigned (source : UInt32) (phi : Instruction) (d : Deed) : Prop :=
  ∃ value text, (Emit.phiPairs phi.args).filter (·.2 = source) = [(value, source)] ∧
    Spells t bs W value text ∧ d = .assign phi.result text

variable (blocks : List Spirv.Block) (outcome : UInt32 → Bool)

/-- **What is done on the path** from a block to the return: the statements of each block in order, with what
the phis of a block are assigned before it. -/
inductive Follows : UInt32 → List Deed → Prop
  | leave {b : Spirv.Block} {ss : List Statement} {out : Bool} : b ∈ blocks → b.successors = [] →
      PrintsAll t bs W b.body ss → Follows b.label [.perform b.label ss, .leave out]
  | go {b b' : Spirv.Block} {ss : List Statement} {assigned deeds : List Deed} : b ∈ blocks →
      b.successors = [b'.label] → PrintsAll t bs W b.body ss → b' ∈ blocks →
      List.Forall₂ (Assigned t bs W b.label) (phisOf b') assigned → Follows b'.label deeds →
      Follows b.label (.perform b.label ss :: (assigned ++ deeds))
  | turn {b b' : Spirv.Block} {ss : List Statement} {assigned deeds : List Deed} {x yes no : UInt32}
      {test : String} : b ∈ blocks → b.body.getLast? = some ⟨.branchConditional, [x, yes, no]⟩ →
      PrintsAll t bs W b.body ss → Spells t bs W x test → b' ∈ blocks →
      b'.label = (if outcome b.label then yes else no) →
      List.Forall₂ (Assigned t bs W b.label) (phisOf b') assigned → Follows b'.label deeds →
      Follows b.label
        (.perform b.label ss :: .test b.label test (outcome b.label) :: (assigned ++ deeds))

end Paths

section PrintsAll

variable {t : Tables} {bs : List Binding} {W is is' : List Instruction} {ss ss' : List Statement}
  {i : Instruction}

theorem PrintsAll.nil : PrintsAll t bs W [] [] := ⟨[], .nil, rfl⟩

theorem PrintsAll.one (h : Prints t bs W i ss) : PrintsAll t bs W [i] ss :=
  ⟨[ss], .cons h .nil, (List.append_nil ss).symm⟩

theorem PrintsAll.append (h : PrintsAll t bs W is ss) (h' : PrintsAll t bs W is' ss') :
    PrintsAll t bs W (is ++ is') (ss ++ ss') := by
  obtain ⟨groups, hgroups, rfl⟩ := h
  obtain ⟨groups', hgroups', rfl⟩ := h'
  exact ⟨groups ++ groups', List.rel_append hgroups hgroups', List.flatten_append.symm⟩

/-- Instructions that open, join and end blocks print nothing. -/
theorem PrintsAll.control (h : PrintsAll t bs W is ss) (hall : ∀ i ∈ is', i.opcode ∈ Code.controlOps) :
    PrintsAll t bs W (is ++ is') ss := by
  refine (List.append_nil ss) ▸ h.append ?_
  clear h
  induction is' with
  | nil => exact .nil
  | cons i is ih =>
    rw [List.forall_mem_cons] at hall
    exact (PrintsAll.one (.control hall.1)).append (ih hall.2)

end PrintsAll

/-! ### Scripts of code -/

section Transcribed

variable (t : Tables) (bs : List Binding) (W : List Instruction) (out : Bool)

/-- **The script of code** that goes on in a block: the statements that are left of this block, and what comes
after them.  At its end it leaves the function, or it assigns to a phi what that is from there. -/
inductive Transcribed : Option (UInt32 × UInt32) → UInt32 → Code → List Statement → Script → Prop
  | leave {l : UInt32} : Transcribed none l .done [] (.leave out)
  | join {l phi value : UInt32} {text : String} : Spells t bs W value text →
      Transcribed (some (phi, value)) l .done [] (.assign phi text .done)
  | plain {target : Option (UInt32 × UInt32)} {l : UInt32} {i : Instruction} {rest : Code}
      {ss ss' : List Statement} {S : Script} : Prints t bs W i ss → Transcribed target l rest ss' S →
      Transcribed target l (.plain i rest) (ss ++ ss') S
  | select {target : Option (UInt32 × UInt32)} {l : UInt32} {c : Choice} {yes no rest : Code}
      {test : String} {ssy ssn ssr : List Statement} {Sy Sn Sr : Script} :
      Spells t bs W c.condition test → Transcribed (some (c.result, c.fromYes)) c.yes yes ssy Sy →
      Transcribed (some (c.result, c.fromNo)) c.no no ssn Sn → Transcribed target c.merge rest ssr Sr →
      Transcribed target l (.select c yes no rest) []
        (.choice l test (.block c.yes ssy Sy) (.block c.no ssn Sn) (.block c.merge ssr Sr))

variable {t : Tables} {bs : List Binding} {W : List Instruction} {out : Bool}
  {target : Option (UInt32 × UInt32)} {l : UInt32} {c : Code} {ss ss₀ : List Statement} {S : Script}
  {pre : List Instruction} {last : Instruction}

/-- **Each block stands in the script once**, with what its instructions print. -/
theorem Transcribed.blocks (h : Transcribed t bs W out target l c ss S)
    (hlast : last.opcode ∈ Code.controlOps) (hpre : PrintsAll t bs W pre ss₀) :
    List.Forall₂ (fun (b : Spirv.Block) p => b.label = p.1 ∧ PrintsAll t bs W b.body p.2)
      (c.blocks l pre last) (Script.block l (ss₀ ++ ss) S).blocks := by
  induction h generalizing pre ss₀ last with
  | leave | join => exact .cons ⟨rfl, (List.append_nil ss₀).symm ▸ hpre.control (by simpa)⟩ .nil
  | plain hi _ ih =>
    rw [← List.append_assoc]
    exact ih hlast (hpre.append (.one hi))
  | @select _ _ c yes no rest _ _ _ _ _ _ _ _ _ _ _ ihy ihn ihr =>
    have hphi : PrintsAll t bs W [c.phi (yes.lastLabel c.yes) (no.lastLabel c.no)] [] :=
      .one (.control (by show Opcode.phi ∈ _; decide))
    have hgoto : (goto c.merge).opcode ∈ Code.controlOps := by
      show Opcode.branch ∈ _
      decide
    refine .cons ⟨rfl, (List.append_nil ss₀).symm ▸ hpre.control ?_⟩ ?_
    · simp only [List.forall_mem_cons, List.not_mem_nil, false_implies, implies_true, and_true]
      exact ⟨by show Opcode.selectionMerge ∈ _; decide, by show Opcode.branchConditional ∈ _; decide⟩
    · exact List.rel_append (List.rel_append (ihy hgoto .nil) (ihn hgoto .nil)) (ihr hlast hphi)

/-- The block that code starts in holds what is there before and goes on without phis. -/
theorem head_of_blocks (hc : c.Ordinary) (hlast : last.opcode ≠ .phi) (l : UInt32) (pre : List Instruction) :
    ∃ body more, c.blocks l pre last = ⟨l, pre ++ body⟩ :: more ∧ ∀ i ∈ body, i.opcode ≠ .phi := by
  induction c generalizing pre with
  | done => exact ⟨[last], [], rfl, List.forall_mem_singleton.2 hlast⟩
  | plain i rest ih =>
    obtain ⟨body, more, heq, hall⟩ := ih hc.2 (pre ++ [i])
    refine ⟨i :: body, more, ?_, List.forall_mem_cons.2 ⟨?_, hall⟩⟩
    · rw [Code.blocks, heq, List.append_assoc]
      rfl
    · exact fun h => hc.1 (by rw [h]; decide)
  | select c yes no rest =>
    refine ⟨[c.merging, c.branching], _, rfl, ?_⟩
    simp only [List.forall_mem_cons, List.not_mem_nil, false_implies, implies_true, and_true]
    exact ⟨by show Opcode.selectionMerge ≠ _; decide, by show Opcode.branchConditional ≠ _; decide⟩

/-- The phis of the block that code starts in are those before the code. -/
theorem phisOf_head {body : List Instruction} (hbody : ∀ i ∈ body, i.opcode ≠ .phi) :
    phisOf ⟨l, pre ++ body⟩ = pre.filter (·.opcode = .phi) := by
  have hnone : body.filter (·.opcode = .phi) = [] :=
    List.filter_eq_nil_iff.2 fun i hi => by simpa using hbody i hi
  rw [phisOf, List.filter_append, hnone, List.append_nil]

/-- **The phi where arms meet** is assigned the value of the arm that the path comes from. -/
theorem assigned_phi {c : Choice} {ly ln : UInt32} (hne : ly ≠ ln) {text : String} :
    (Spells t bs W c.fromYes text → Assigned t bs W ly (c.phi ly ln) (.assign c.result text)) ∧
      (Spells t bs W c.fromNo text → Assigned t bs W ln (c.phi ly ln) (.assign c.result text)) := by
  have hpairs : Emit.phiPairs (c.phi ly ln).args = [(c.fromYes, ly), (c.fromNo, ln)] := rfl
  refine ⟨fun h => ⟨c.fromYes, text, ?_, h, rfl⟩, fun h => ⟨c.fromNo, text, ?_, h, rfl⟩⟩
  · simp [hpairs, hne.symm]
  · simp [hpairs, hne]

variable {blocks : List Spirv.Block} {outcome : UInt32 → Bool} {deeds : List Deed}

/-- **How a path goes on** where code ends: it leaves the function, or it goes to a block whose phi is
assigned. -/
def Onward (t : Tables) (bs : List Binding) (W : List Instruction) (blocks : List Spirv.Block)
    (outcome : UInt32 → Bool) (source : UInt32) (last : Instruction) (deeds : List Deed) :
    Option (UInt32 × UInt32) → Prop
  | none => last = ⟨.returnVoid, []⟩
  | some (phi, value) => ∃ b ∈ blocks, last = goto b.label ∧
      (∀ text, Spells t bs W value text →
        List.Forall₂ (Assigned t bs W source) (phisOf b) [.assign phi text]) ∧
      Follows t bs W blocks outcome b.label deeds

/-- **A script runs along the paths of its code.** -/
theorem Transcribed.follows (h : Transcribed t bs W out target l c ss S) (hc : c.Ordinary)
    (hnodup : c.opened.Nodup) (hpre : PrintsAll t bs W pre ss₀) (hun : Code.Unended pre)
    (hblocks : c.blocks l pre last ⊆ blocks)
    (hon : Onward t bs W blocks outcome (c.lastLabel l) last deeds target) :
    Follows t bs W blocks outcome l ((Script.block l (ss₀ ++ ss) S).run outcome deeds) := by
  induction h generalizing pre ss₀ last deeds with
  | leave =>
    obtain rfl : last = _ := hon
    rw [List.append_nil]
    exact .leave (b := ⟨_, _⟩) (hblocks List.mem_cons_self) (Code.successors_of_end hun rfl)
      (hpre.control (List.forall_mem_singleton.2 (by decide)))
  | join hvalue =>
    obtain ⟨b, hb, rfl, hassign, hgo⟩ := hon
    rw [List.append_nil]
    exact .go (b := ⟨_, _⟩) (hblocks List.mem_cons_self) (Code.successors_of_end hun rfl)
      (hpre.control (List.forall_mem_singleton.2 (by show Opcode.branch ∈ _; decide))) hb
      (hassign _ hvalue) hgo
  | plain hi _ ih =>
    rw [← List.append_assoc]
    exact ih hc.2 hnodup (hpre.append (.one hi)) (hun.snoc (Code.Ordinary.not_terminator hc.1)) hblocks hon
  | @select target l c yes no rest test ssy ssn ssr Sy Sn Sr htest _ _ _ ihy ihn ihr =>
    obtain ⟨hcy, hcn, hcr⟩ := hc
    have hlasts := Code.lastLabel_ne hnodup
    obtain ⟨-, -, ⟨hy, hn, hr⟩, -⟩ := Code.nodup_select hnodup
    rw [Code.blocks, List.cons_subset, List.append_subset, List.append_subset] at hblocks
    obtain ⟨hhead, ⟨hby, hbn⟩, hbr⟩ := hblocks
    have hphi : PrintsAll t bs W [c.phi (yes.lastLabel c.yes) (no.lastLabel c.no)] [] :=
      .one (.control (by show Opcode.phi ∈ _; decide))
    have hlast : last.opcode ≠ .phi := by
      cases target with
      | none =>
        rw [show last = _ from hon]
        decide
      | some p =>
        obtain ⟨b, -, rfl, -⟩ := hon
        show Opcode.branch ≠ _
        decide
    -- after the arms the path goes on where they meet
    have hmerge := ihr hcr hr hphi (.phi c _ _) hbr hon
    obtain ⟨body, more, heq, hbody⟩ := head_of_blocks hcr hlast c.merge
      [c.phi (yes.lastLabel c.yes) (no.lastLabel c.no)]
    have hmem := hbr (heq ▸ List.mem_cons_self)
    have hphis : phisOf ⟨c.merge, [c.phi (yes.lastLabel c.yes) (no.lastLabel c.no)] ++ body⟩ = _ := phisOf_head hbody
    have hyes := ihy hcy hy .nil .nil hby ⟨_, hmem, rfl, fun text htext =>
      hphis ▸ .cons ((assigned_phi hlasts).1 htext) .nil, hmerge⟩
    have hno := ihn hcn hn .nil .nil hbn ⟨_, hmem, rfl, fun text htext =>
      hphis ▸ .cons ((assigned_phi hlasts).2 htext) .nil, hmerge⟩
    have hgoto : (goto c.merge).opcode ≠ .phi := by
      show Opcode.branch ≠ _
      decide
    obtain ⟨bodyy, morey, hheady, hbodyy⟩ := head_of_blocks hcy hgoto c.yes []
    obtain ⟨bodyn, moren, hheadn, hbodyn⟩ := head_of_blocks hcn hgoto c.no []
    rw [List.append_nil]
    have hprints : PrintsAll t bs W (pre ++ [c.merging, c.branching]) ss₀ := by
      refine hpre.control ?_
      simp only [List.forall_mem_cons, List.not_mem_nil, false_implies, implies_true, and_true]
      exact ⟨by show Opcode.selectionMerge ∈ _; decide, by show Opcode.branchConditional ∈ _; decide⟩
    have hturn : ∀ {b' : Spirv.Block} {ds : List Deed}, b' ∈ blocks →
        b'.label = (if outcome l then c.yes else c.no) → phisOf b' = [] →
        Follows t bs W blocks outcome b'.label ds →
        Follows t bs W blocks outcome l (.perform l ss₀ :: .test l test (outcome l) :: ([] ++ ds)) :=
      fun hb' hlabel hnone hgo => .turn (b := ⟨l, _⟩) hhead
        (by rw [List.getLast?_append]; rfl) hprints htest hb' hlabel (by rw [hnone]; exact .nil) hgo
    show Follows t bs W blocks outcome l (.perform l ss₀ :: .test l test (outcome l) ::
      (if outcome l then _ else _))
    -- the block of an arm has no phis
    split
    · rename_i ho
      exact hturn (hby (hheady ▸ List.mem_cons_self)) (by rw [if_pos ho]) (phisOf_head hbodyy) hyes
    · rename_i ho
      exact hturn (hbn (hheadn ▸ List.mem_cons_self)) (by rw [if_neg ho]) (phisOf_head hbodyn) hno

end Transcribed

end NodeShader.Metal
