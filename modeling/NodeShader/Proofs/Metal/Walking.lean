import NodeShader.Proofs.Metal.Emitting
import NodeShader.Proofs.Spirv.Blocks

/-!
# Programs are written

The source of a function follows its blocks.  Where they are those of code that runs, every block is
reached once, each selection has a block where its arms meet, and what a phi chooses from is known at
the end of each arm.

* `walk_spec`: **code is written**, from the block it goes on in to where it ends.
-/

namespace NodeShader

namespace Spirv.Code

/-- The instructions of the block that code starts in. -/
def row : Code → List Instruction
  | done => []
  | plain i rest => i :: rest.row
  | select .. => []

/-- The phis in the order of the blocks they start. -/
def phis : Code → List Instruction
  | done => []
  | plain _ rest => rest.phis
  | select c yes no rest =>
    yes.phis ++ (no.phis ++ c.phi (yes.lastLabel c.yes) (no.lastLabel c.no) :: rest.phis)

end Spirv.Code

namespace Metal

open Spirv

/-! ### Blocks -/

/-- The block that code goes on in, up to its end. -/
def headOf (b : Block) (last : Instruction) : Code → Block
  | .done => { b with terminator := last }
  | .plain i rest => headOf { b with instructions := b.instructions ++ [i] } last rest
  | .select c .. => { b with merge := c.merge, terminator := c.branching }

section Blocks

variable {b : Block} {last : Instruction} {c : Code}

theorem headOf_mem (b : Block) (last : Instruction) (c : Code) :
    headOf b last c ∈ Tables.blocksOf b last c := by
  induction c generalizing b with
  | done => exact List.mem_singleton_self _
  | plain i rest ih => exact ih _
  | select c yes no rest => exact List.mem_cons_self

theorem headOf_label (b : Block) (last : Instruction) (c : Code) :
    (headOf b last c).label = b.label := by
  induction c generalizing b with
  | plain i rest ih => exact ih _
  | _ => rfl

theorem headOf_phis (b : Block) (last : Instruction) (c : Code) :
    (headOf b last c).phis = b.phis := by
  induction c generalizing b with
  | plain i rest ih => exact ih _
  | _ => rfl

theorem headOf_instructions (b : Block) (last : Instruction) (c : Code) :
    (headOf b last c).instructions = b.instructions ++ c.row := by
  induction c generalizing b with
  | done => exact (List.append_nil _).symm
  | plain i rest ih => rw [headOf, ih, Code.row, List.append_assoc]; rfl
  | select => exact (List.append_nil _).symm

/-- The phis of blocks are those of their code. -/
theorem phis_blocksOf (b : Block) (last : Instruction) (c : Code) :
    (Tables.blocksOf b last c).flatMap (·.phis) = b.phis ++ c.phis := by
  induction c generalizing b last with
  | done => rfl
  | plain i rest ih => exact ih _ _
  | select c yes no rest ihy ihn ihr =>
    rw [Tables.blocksOf, List.flatMap_cons, List.flatMap_append, List.flatMap_append, ihy, ihn, ihr]
    rfl

end Blocks

/-- What a phi of running code chooses has a type with a name. -/
theorem phis_typed {I : Interpretation} {s : Surroundings I} {Γ Γ' : Context I} {c : Code}
    {o : List (Output I.Value)} (h : Runs s Γ c Γ' o) : ∀ i ∈ c.phis, i.opcode = .phi ∧
      i ∈ c.instructions ∧ ∃ ty, TypeAt s.decls i.resultType ty ∧ ty.component.isScalar = true := by
  induction h with
  | done => exact fun _ hi => absurd hi List.not_mem_nil
  | plain _ _ ih => exact fun i hi => (ih i hi).imp id fun h => h.imp (List.mem_cons_of_mem _) id
  | @select _ _ _ _ c yes no rest ty _ _ _ _ _ _ _ hty hs _ _ _ ihy ihn ihr =>
    intro i hi
    have hall := Code.forall_mem_select (P := (· ∈ (Code.select c yes no rest).instructions)).1
      fun _ => id
    obtain ⟨hframe, hy, hn, hr⟩ := hall
    rw [Code.phis, List.mem_append, List.mem_append, List.mem_cons] at hi
    rcases hi with hi | hi | rfl | hi
    · exact (ihy i hi).imp id fun h => h.imp (hy i) id
    · exact (ihn i hi).imp id fun h => h.imp (hn i) id
    · exact ⟨rfl, hframe _ (by simp), ty, hty, hs⟩
    · exact (ihr i hi).imp id fun h => h.imp (hr i) id

/-! ### The end of a block -/

/-- What is written after the instructions of a block: the jump that ends it, and what follows. -/
def Emit.ending (t : Tables) (budget : Nat) (b : Block) (label stop : UInt32) : Emit Unit := do
  let ops := b.terminator.operands
  if b.terminator.opcode = .returnVoid then
    line (if (← get).hasOutputs then "return out;" else "return;")
  else if b.terminator.opcode = .branch then
    let target ← operand ops 0
    assignPhis t label target
    blocksFrom t budget target stop
  else if b.terminator.opcode = .branchConditional then
    if b.merge = 0 then fail label "conditional branch without a selection merge"
    let arm (target : UInt32) : Emit Unit :=
      braces (if target = b.merge then assignPhis t label b.merge
        else blocksFrom t budget target b.merge)
    line ("if (" ++ (← value t (← operand ops 0)) ++ ")")
    arm (← operand ops 1)
    line "else"
    arm (← operand ops 2)
    blocksFrom t budget b.merge stop
  else fail label s!"unsupported block terminator {b.terminator.opcode.name}"

/-- **Entering a block** that is there and was not entered before. -/
theorem blocksFrom_enter {t : Tables} {budget : Nat} {label stop : UInt32} {b : Block} {e : Emission}
    {Q : Unit → Emission → Prop} (hne : label ≠ stop) (hb : t.block? label = some b)
    (hv : label ∉ e.visited)
    (h : Yields (b.instructions.forM (Emit.instruction t) >>= fun _ =>
      Emit.ending t budget b label stop) { e with visited := label :: e.visited } Q) :
    Yields (Emit.blocksFrom t (budget + 1) label stop) e Q := by
  rw [Emit.blocksFrom.eq_def]
  dsimp only
  rw [if_neg hne, hb]
  refine yields_get ?_
  rw [if_neg (by rw [List.contains_iff_mem]; exact hv)]
  exact yields_bind (yields_modify h)

/-! ### Code -/

/-- **Writing some blocks** goes on from what is known and enters no others. -/
structure Emission.Walks (D W : List Instruction) (ls : List UInt32) (e e' : Emission) : Prop
    extends e.Le e' where
  sound : e'.Sound D W
  visited : ∀ l ∈ e'.visited, l ∈ ls ∨ l ∈ e.visited

/-- Phis whose variables are declared. -/
def Emission.Declares (e : Emission) (phis : List Instruction) : Prop :=
  ∀ i ∈ phis, (e.exprs.lookup i.result).isSome = true ∧ (i.result, i.resultType) ∈ e.valueTypes

/-- **A stretch of blocks** that can be written: all are there and have labels of their own, and there
are not too many. -/
structure Stretch (t : Tables) (b : Block) (last : Instruction) (stop : UInt32) (c : Code)
    (budget : Nat) : Prop where
  blocks : ∀ B ∈ Tables.blocksOf b last c, t.block? B.label = some B
  opened : (stop :: c.opened).Nodup
  proper : 0 ∉ c.opened
  budget : c.opened.length ≤ budget

/-- The parts of a selection. -/
theorem Stretch.parts {t : Tables} {b : Block} {last : Instruction} {stop : UInt32} {c : Choice}
    {yes no rest : Code} {budget : Nat}
    (h : Stretch t b last stop (.select c yes no rest) budget) : ∃ n, budget = n + 1 ∧
      Stretch t (Tables.emptyBlock c.yes []) (goto c.merge) c.merge yes n ∧
      Stretch t (Tables.emptyBlock c.no []) (goto c.merge) c.merge no n ∧
      Stretch t (Tables.emptyBlock c.merge [c.phi (yes.lastLabel c.yes) (no.lastLabel c.no)]) last
        stop rest n := by
  have hperm := Code.opened_perm c yes no rest
  have hlen := h.budget
  have hblocks := h.blocks
  have hproper := h.proper
  obtain ⟨hstop, hnodup⟩ := List.nodup_cons.1 h.opened
  obtain ⟨-, hfresh, ⟨hy, hn, hr⟩, -⟩ := Code.nodup_select hnodup
  have hm := hfresh c.merge (by simp)
  rw [hperm.length_eq] at hlen
  rw [hperm.mem_iff] at hproper hstop
  simp only [List.length_cons, List.length_append] at hlen
  simp only [List.mem_cons, List.mem_append, not_or] at hproper hstop
  rw [Tables.blocksOf] at hblocks
  simp only [List.forall_mem_cons, List.forall_mem_append] at hblocks
  refine ⟨budget - 1, by omega, ⟨hblocks.2.1, ?_, hproper.2.2.2.1.1, by omega⟩,
    ⟨hblocks.2.2.1, ?_, hproper.2.2.2.1.2, by omega⟩,
    ⟨hblocks.2.2.2, ?_, hproper.2.2.2.2, by omega⟩⟩
  · exact List.nodup_cons.2 ⟨hm.1, hy⟩
  · exact List.nodup_cons.2 ⟨hm.2.1, hn⟩
  · exact List.nodup_cons.2 ⟨hstop.2.2.2.2, hr⟩

section Walk

variable {D W : List Instruction} {e e₁ e₂ : Emission} {ls ls' : List UInt32}

namespace Emission

theorem Writes.walks (h : e.Writes D W e₁) (he : e.Sound D W) (ls : List UInt32) :
    e.Walks D W ls e₁ := ⟨h.toLe, h.sound he, fun _ hl => .inr (h.visited ▸ hl)⟩

theorem Walks.trans (h : e.Walks D W ls e₁) (h' : e₁.Walks D W ls e₂) : e.Walks D W ls e₂ :=
  ⟨h.toLe.trans h'.toLe, h'.sound, fun l hl => (h'.visited l hl).elim .inl (h.visited l)⟩

theorem Walks.widen (h : e.Walks D W ls e₁) (hls : ls ⊆ ls') : e.Walks D W ls' e₁ :=
  ⟨h.toLe, h.sound, fun l hl => (h.visited l hl).imp (fun hl => hls hl) id⟩

theorem Declares.mono {phis : List Instruction} (h : e.Declares phis) (hle : e.Le e₁) :
    e₁.Declares phis := fun i hi =>
  (h i hi).imp (isSome_lookup_of_suffix hle.exprs) fun h => hle.valueTypes.subset h

end Emission

/-- Lines between braces. -/
theorem braces_spec (ls : List UInt32) {body : Emit Unit} (he : e.Sound D W)
    (h : ∀ e₁, e.Writes D W e₁ → Yields body e₁ fun _ e₂ => e₁.Walks D W ls e₂) :
    Yields (Emit.braces body) e fun _ e₂ => e.Walks D W ls e₂ := by
  have hline : ∀ (s : String) (e : Emission), Yields (Emit.line s) e fun _ e₁ => e.Writes D W e₁ :=
    fun s e => yields_modify
      ⟨⟨List.suffix_refl _, List.suffix_refl _, List.suffix_refl _, List.suffix_refl _⟩,
        fun h => ⟨h.types, h.pointees, h.declared⟩, rfl⟩
  have hindent : ∀ (n : Nat) (e : Emission), e.Writes D W { e with indent := n } := fun n e =>
    ⟨⟨List.suffix_refl _, List.suffix_refl _, List.suffix_refl _, List.suffix_refl _⟩,
      fun h => ⟨h.types, h.pointees, h.declared⟩, rfl⟩
  refine yields_bind ((hline _ e).mono fun _ e₁ w₁ => yields_bind (yields_modify ?_))
  have w₂ := w₁.trans (hindent (e₁.indent + 1) e₁)
  refine yields_bind ((h _ w₂).mono fun _ e₃ w₃ => yields_bind (yields_modify ?_))
  refine (hline _ _).mono fun _ e₄ w₄ => ?_
  have w₅ := (hindent (e₃.indent - 1) e₃).trans w₄
  exact ((w₂.walks he ls).trans w₃).trans (w₅.walks w₃.sound ls)

end Walk

section Code

variable [NameLimit] {I : Interpretation} {t : Tables} {s : Surroundings I} {A : List Instruction}
  {R : List UInt32} {globals W : List Instruction} {Γ Γ' : Context I} {c : Code}
  {o : List (Output I.Value)} {b : Block} {last : Instruction} {stop : UInt32} {budget : Nat}
  {e : Emission}

variable (S : Setting t s A R globals W)
include S

/-- **The phi where arms meet** is assigned at the end of an arm. -/
theorem leads_assignPhis {c : Choice} {ly ln source : UInt32} {B : Block} {ty : Ty}
    (hb : t.block? c.merge = some B) (hphis : B.phis = [c.phi ly ln])
    (hs : ty.component.isScalar = true)
    (hyes : ly = source → ∃ a : I.Value, Known s Γ c.fromYes ty (.value a))
    (hno : ln = source → ∃ a : I.Value, Known s Γ c.fromNo ty (.value a)) :
    Leads s.decls W Γ (Emit.assignPhis t source c.merge) Γ := by
  have hassign : ∀ id parent : UInt32,
      (parent = source → ∃ a : I.Value, Known s Γ id ty (.value a)) →
      Leads s.decls W Γ (do
        if parent = source then
          let name := ((← get).exprs.lookup (c.phi ly ln).result).getD ""
          Emit.line (name ++ " = " ++ (← Emit.value t id) ++ ";")) Γ := by
    intro id parent h
    split
    · rename_i heq
      obtain ⟨a, ha⟩ := h heq
      intro e he hΓ
      refine yields_get ?_
      exact leads_bind (leads_value S ha (named_of_component hs)) (fun _ => leads_line _) e he hΓ
    · exact leads_pure _
  rw [Emit.assignPhis, hb]
  dsimp only
  rw [hphis]
  refine leads_bind (leads_bind (hassign _ _ hyes) fun _ => leads_bind (hassign _ _ hno) fun _ =>
    leads_pure _) fun _ => leads_pure _

omit [NameLimit] S in
/-- **Entering a stretch of blocks** at its first one. -/
theorem enter_spec {l : UInt32} {phis : List Instruction} {n : Nat} {D : List Instruction}
    (hs : Stretch t (Tables.emptyBlock l phis) last stop c n) (hne : l ≠ stop)
    (hnodup : (l :: c.opened).Nodup) (hv : ∀ x ∈ l :: c.opened, x ∉ e.visited) (he : e.Sound D W)
    (h : ∀ e₁ : Emission, e.Le e₁ → e₁.Sound D W → (∀ x ∈ c.opened, x ∉ e₁.visited) →
      Yields (c.row.forM (Emit.instruction t) >>= fun _ =>
        Emit.ending t n (headOf (Tables.emptyBlock l phis) last c) l stop) e₁
        fun _ e' => e₁.Walks D W c.opened e') :
    Yields (Emit.blocksFrom t (n + 1) l stop) e fun _ e' => e.Walks D W (l :: c.opened) e' := by
  have hb := hs.blocks _ (headOf_mem (Tables.emptyBlock l phis) last c)
  rw [headOf_label] at hb
  rw [List.nodup_cons] at hnodup
  have hle : e.Le { e with visited := l :: e.visited } :=
    ⟨List.suffix_refl _, List.suffix_refl _, List.suffix_refl _, List.suffix_refl _⟩
  have hv₁ : ∀ x ∈ c.opened, x ∉ l :: e.visited := by
    intro x hx
    rw [List.mem_cons, not_or]
    exact ⟨fun h => hnodup.1 (h ▸ hx), hv x (List.mem_cons_of_mem _ hx)⟩
  refine blocksFrom_enter hne hb (hv l List.mem_cons_self) ?_
  rw [headOf_instructions]
  refine (h _ hle ⟨he.types, he.pointees, he.declared⟩ hv₁).mono fun _ e' w =>
    ⟨hle.trans w.toLe, w.sound, ?_⟩
  intro x hx
  rcases w.visited x hx with hx | hx
  · exact .inl (List.mem_cons_of_mem _ hx)
  · rcases List.mem_cons.1 hx with rfl | hx
    · exact .inl List.mem_cons_self
    · exact .inr hx

omit [NameLimit] S in
/-- **An arm** of a selection stands between braces. -/
theorem arm_spec {l merge label : UInt32} {n : Nat} {D : List Instruction}
    (hs : Stretch t (Tables.emptyBlock l []) (goto merge) merge c n) (hne : l ≠ merge)
    (hnodup : (l :: c.opened).Nodup) (hv : ∀ x ∈ l :: c.opened, x ∉ e.visited) (he : e.Sound D W)
    (h : ∀ e₁ : Emission, e.Le e₁ → e₁.Sound D W → (∀ x ∈ c.opened, x ∉ e₁.visited) →
      Yields (c.row.forM (Emit.instruction t) >>= fun _ =>
        Emit.ending t n (headOf (Tables.emptyBlock l []) (goto merge) c) l merge) e₁
        fun _ e' => e₁.Walks D W c.opened e') :
    Yields (Emit.braces (if l = merge then Emit.assignPhis t label merge
      else Emit.blocksFrom t (n + 1) l merge)) e fun _ e' => e.Walks D W (l :: c.opened) e' := by
  refine braces_spec _ he fun e₁ w => ?_
  rw [if_neg hne]
  refine enter_spec hs hne hnodup (fun x hx => ?_) (w.sound he) fun e₂ hle => h e₂ (w.toLe.trans hle)
  rw [w.visited]
  exact hv x hx

/-- **Code is written**, from the block it goes on in to where it ends. -/
theorem walk_spec (h : Runs s Γ c Γ' o) (hW : c.instructions ⊆ W)
    (hs : Stretch t b last stop c budget) (hv : ∀ l ∈ c.opened, l ∉ e.visited)
    (he : e.Sound s.decls W) (hΓ : e.TellsAll s.decls Γ) (hphis : e.Declares c.phis)
    (hlast : last = ⟨.returnVoid, []⟩ ∨ last = goto stop ∧
      Leads s.decls W Γ' (Emit.assignPhis t (c.lastLabel b.label) stop) Γ') :
    Yields (c.row.forM (Emit.instruction t) >>= fun _ =>
      Emit.ending t budget (headOf b last c) b.label stop) e
      fun _ e' => e.Walks s.decls W c.opened e' := by
  induction h generalizing b last stop budget e with
  | @done Γ =>
    refine yields_bind (yields_pure ?_)
    rw [Emit.ending]
    rcases hlast with rfl | ⟨rfl, hassign⟩
    · refine yields_get ((leads_line _ e he hΓ).mono fun _ e' w => w.1.walks he [])
    · refine yields_lift rfl (yields_bind ((hassign e he hΓ).mono fun _ e' w => ?_))
      rw [Emit.blocksFrom.eq_def]
      dsimp only
      rw [if_pos rfl]
      exact yields_pure (w.1.walks he [])
  | @plain Γ Γ₁ Γ₂ i rest o₁ o₂ hstep _ ih =>
    have hi := hW List.mem_cons_self
    show Yields ((Emit.instruction t i >>= fun _ => rest.row.forM (Emit.instruction t)) >>= fun _ =>
      Emit.ending t budget (headOf _ last rest) b.label stop) e _
    rw [bind_assoc]
    refine yields_bind ((instruction_spec S hi hstep e he hΓ).mono fun _ e₁ w => ?_)
    obtain ⟨w, hΓ₁⟩ := w
    have hv₁ : ∀ l ∈ rest.opened, l ∉ e₁.visited := fun l hl => by
      rw [w.visited]
      exact hv l hl
    refine (ih (fun j hj => hW (List.mem_cons_of_mem _ hj)) ⟨hs.blocks, hs.opened, hs.proper, hs.budget⟩
      hv₁ (w.sound he) hΓ₁ (hphis.mono w.toLe) hlast).mono fun _ e₂ w₂ => ?_
    exact (w.walks he rest.opened).trans w₂
  | @select Γ Γ₁ Γ₂ Γ' c yes no rest ty test a a' o htest _ _ hty hsc hfy hfn _ ihy ihn ihr =>
    obtain ⟨n, rfl, hsy, hsn, hsr⟩ := hs.parts
    obtain ⟨-, hWy, hWn, hWr⟩ := Code.forall_mem_select.1 hW
    obtain ⟨hstop, hnodup⟩ := List.nodup_cons.1 hs.opened
    obtain ⟨-, hym, hnm⟩ := (Code.nodup_select hnodup).1
    have hlasts := Code.lastLabel_ne hnodup
    have hmerge : c.merge ≠ 0 := fun h => hs.proper (h ▸ by simp [Code.opened])
    have hmstop : c.merge ≠ stop := fun h => hstop (h ▸ by simp [Code.opened])
    rw [Code.opened, List.nodup_append', List.nodup_append'] at hnodup
    obtain ⟨⟨hnodupy, hnodupn, hdisjoint⟩, hnodupr, hdisjoint'⟩ := hnodup
    rw [Code.opened] at hv
    simp only [List.forall_mem_append] at hv
    obtain ⟨⟨hvy, hvn⟩, hvr⟩ := hv
    obtain ⟨hphisy, hphis⟩ := List.forall_mem_append.1 hphis
    obtain ⟨hphisn, hphis⟩ := List.forall_mem_append.1 hphis
    obtain ⟨⟨hexpr, htype⟩, hphisr⟩ := List.forall_mem_cons.1 hphis
    -- the phi of the merge block takes the values of the arms
    have hb := hsr.blocks _ (headOf_mem _ last rest)
    rw [headOf_label] at hb
    have hphi := headOf_phis (Tables.emptyBlock c.merge
      [c.phi (yes.lastLabel c.yes) (no.lastLabel c.no)]) last rest
    have hyes : Leads s.decls W Γ₁ (Emit.assignPhis t (yes.lastLabel c.yes) c.merge) Γ₁ :=
      leads_assignPhis S hb hphi hsc (fun _ => ⟨a, hfy⟩) fun h => absurd h.symm hlasts
    have hno : Leads s.decls W Γ₂ (Emit.assignPhis t (no.lastLabel c.no) c.merge) Γ₂ :=
      leads_assignPhis S hb hphi hsc (fun h => absurd h hlasts) fun _ => ⟨a', hfn⟩
    refine yields_bind (yields_pure ?_)
    rw [headOf, Choice.branching, Emit.ending]
    dsimp only
    rw [if_neg (by decide), if_neg (by decide), if_pos rfl, if_neg hmerge]
    refine yields_lift rfl (yields_bind ((leads_value S htest rfl e he hΓ).mono fun v e₁ w₁ => ?_))
    refine yields_bind ((leads_line _ e₁ (w₁.1.sound he) w₁.2).mono fun _ e₂ w₂ => ?_)
    have w₂ : e.Writes s.decls W e₂ := w₁.1.trans w₂.1
    -- the arm of a condition that holds
    refine yields_lift rfl (yields_bind ((arm_spec hsy hym hnodupy (fun x hx => by
      rw [w₂.visited]
      exact hvy x hx) (w₂.sound he) fun e₁ hle he₁ hv₁ =>
        ihy hWy hsy hv₁ he₁ (hΓ.mono (w₂.toLe.trans hle))
          (Emission.Declares.mono hphisy (w₂.toLe.trans hle)) (.inr ⟨rfl, hyes⟩)).mono
            fun _ e₃ w₃ => ?_))
    refine yields_bind ((leads_line _ e₃ w₃.sound
      (hΓ.mono (w₂.toLe.trans w₃.toLe))).mono fun _ e₄ w₄ => ?_)
    have w₄ : e.Walks s.decls W (c.yes :: yes.opened) e₄ :=
      ((w₂.walks he _).trans w₃).trans (w₄.1.walks w₃.sound _)
    have hle₄ : e.Le e₄ := w₄.toLe
    -- the arm of one that does not
    refine yields_lift rfl (yields_bind ((arm_spec hsn hnm hnodupn
      (fun x hx h => (w₄.visited x h).elim (fun h => hdisjoint h hx) (hvn x hx)) w₄.sound
        fun e₁ hle he₁ hv₁ => ihn hWn hsn hv₁ he₁ (hΓ.mono (hle₄.trans hle))
          (Emission.Declares.mono hphisn (hle₄.trans hle)) (.inr ⟨rfl, hno⟩)).mono
            fun _ e₅ w₅ => ?_))
    have w₅ : e.Walks s.decls W (c.yes :: yes.opened ++ c.no :: no.opened) e₅ :=
      (w₄.widen (List.subset_append_left _ _)).trans (w₅.widen (List.subset_append_right _ _))
    have hle₅ : e.Le e₅ := w₅.toLe
    -- what follows knows the value of the phi
    refine (enter_spec hsr hmstop hnodupr
      (fun x hx h => (w₅.visited x h).elim (fun h => hdisjoint' h hx) (hvr x hx)) w₅.sound
        fun e₁ hle he₁ hv₁ => ihr hWr hsr hv₁ he₁
          (List.forall_mem_cons.2 ⟨?_, hΓ.mono (hle₅.trans hle)⟩)
            (Emission.Declares.mono hphisr (hle₅.trans hle)) hlast).mono fun _ e₆ w₆ => ?_
    · have hne : ∀ k : Ty, ty ≠ .sampledImage k := ne_of_named (named_of_component hsc)
      refine Emission.Tells.mono (hle₅.trans hle) ⟨fun _ => hexpr, fun _ => ⟨_, htype, hty⟩, ?_, ?_⟩
      · rintro ⟨k, hk⟩
        exact absurd hk (hne k)
      · rintro k c rfl
        cases hsc
    · exact (w₅.widen (List.subset_append_left _ _)).trans
        (w₆.widen (List.subset_append_right _ _))

end Code

end Metal

end NodeShader
