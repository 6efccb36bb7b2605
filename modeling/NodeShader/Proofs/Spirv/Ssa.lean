import NodeShader.Proofs.Spirv.Blocks
import NodeShader.Proofs.Spirv.WellTyped

/-!
# Static single assignment

`Ssa` states when a module with one function is in static single assignment form: identifiers are
defined once, jumps lead to blocks, each block ends once, and what an instruction uses is defined at
module scope, earlier in its block or in a block that dominates it; a phi stands at the start of its
block and has a value for each block that leads there.

Code that runs satisfies this (`Runs.uses`).  The invariant of the proof is that everything in the
context was defined in the current block or in one of the blocks `S` that dominate it and are no
longer open (`InScope`).
-/

namespace NodeShader.Spirv

/-- An identifier of module scope. -/
def Global (globals : List Instruction) (x : UInt32) : Prop := ∃ i ∈ globals, i.result? = some x

/-- **An identifier that may be used** in block `label` after the instructions `pre` of it. -/
def Available (globals : List Instruction) (bs : List Block) (label : UInt32)
    (pre : List Instruction) (x : UInt32) : Prop :=
  Global globals x ∨ (∃ i ∈ pre, i.result? = some x) ∨
    ∃ b ∈ bs, b.label ≠ label ∧ Dominates bs b.label label ∧ ∃ i ∈ b.body, i.result? = some x

/-- An identifier that may be used at the end of block `label`. -/
def AvailableAfter (globals : List Instruction) (bs : List Block) (label x : UInt32) : Prop :=
  Global globals x ∨ ∃ b ∈ bs, Dominates bs b.label label ∧ ∃ i ∈ b.body, i.result? = some x

/-- A phi at the start of block `label`, after the instructions `pre`. -/
structure PhiAt (globals : List Instruction) (bs : List Block) (label : UInt32)
    (pre : List Instruction) (i : Instruction) : Prop where
  first : ∀ j ∈ pre, j.opcode = .phi
  type : Global globals i.resultType
  nodup : i.labels.Nodup
  parents : ∀ l, l ∈ i.labels ↔ ∃ b ∈ bs, b.label = l ∧ label ∈ b.successors
  values : List.Forall₂ (fun x l => AvailableAfter globals bs l x) i.values i.labels

/-- An instruction of block `label` that uses what it may use after `pre`. -/
def UsesAt (globals : List Instruction) (bs : List Block) (label : UInt32)
    (pre : List Instruction) (i : Instruction) : Prop :=
  if i.opcode = .phi then PhiAt globals bs label pre i
  else ∀ x ∈ i.reads, Available globals bs label pre x

/-- **Static single assignment form** of a module with the instructions `globals` of module scope and
the instructions `code` of its function. -/
structure Ssa (globals code : List Instruction) (bound : Nat) : Prop where
  /-- No identifier is the result of two instructions. -/
  distinct : ((globals ++ code).filterMap (·.result?)).Nodup
  /-- Every identifier that is used is the result of an instruction. -/
  defined : ∀ i ∈ globals ++ code, ∀ x ∈ i.reads ++ i.labels,
    ∃ j ∈ globals ++ code, j.result? = some x
  /-- Identifiers are below the bound. -/
  bounded : ∀ i ∈ globals ++ code, ∀ x ∈ i.result?.toList ++ i.reads ++ i.labels,
    x ≠ 0 ∧ x.toNat < bound
  /-- The function is made of its blocks. -/
  laid : ∃ f, f.opcode = .function ∧
    code = f :: ((blocks code).flatMap Block.instructions ++ [⟨.functionEnd, []⟩])
  /-- Jumps lead to labels, each of which stands once in the function. -/
  targets : ∀ i ∈ code, ∀ x ∈ i.labels, code.count (labelOf x) = 1
  /-- Every block ends in one terminator. -/
  terminated : ∀ b ∈ blocks code, b.Terminated
  /-- What is used is available there. -/
  uses : ∀ b ∈ blocks code, ∀ pre i post, b.body = pre ++ i :: post →
    UsesAt globals (blocks code) b.label pre i

/-! ### What is in scope -/

section Scope

variable {globals : List Instruction} {bs : List Block} {S : List UInt32} {label x : UInt32}
  {pre : List Instruction} {i : Instruction}

/-- What was defined at module scope, in the current block, or in one of the blocks `S` that dominate
it. -/
def InScope (globals : List Instruction) (bs : List Block) (S : List UInt32) (label : UInt32)
    (pre : List Instruction) (x : UInt32) : Prop :=
  Global globals x ∨ (∃ i ∈ pre, i.result? = some x) ∨
    ∃ b ∈ bs, b.label ∈ S ∧ Dominates bs b.label label ∧ ∃ i ∈ b.body, i.result? = some x

theorem InScope.available (hS : label ∉ S) (h : InScope globals bs S label pre x) :
    Available globals bs label pre x := by
  rcases h with h | h | ⟨b, hb, hm, hd⟩
  · exact .inl h
  · exact .inr (.inl h)
  · exact .inr (.inr ⟨b, hb, fun he => hS (he ▸ hm), hd⟩)

theorem InScope.snoc (h : InScope globals bs S label pre x) :
    InScope globals bs S label (pre ++ [i]) x := by
  rcases h with h | ⟨j, hj, hx⟩ | h
  · exact .inl h
  · exact .inr (.inl ⟨j, List.mem_append_left _ hj, hx⟩)
  · exact .inr (.inr h)

theorem InScope.self (hx : i.result? = some x) : InScope globals bs S label (pre ++ [i]) x :=
  .inr (.inl ⟨i, by simp, hx⟩)

/-- What is in scope in a block is in scope in the blocks it dominates. -/
theorem InScope.enter {post pre' : List Instruction} {label' : UInt32}
    (hb : ⟨label, pre ++ post⟩ ∈ bs) (hd : Dominates bs label label')
    (h : InScope globals bs S label pre x) : InScope globals bs (label :: S) label' pre' x := by
  rcases h with h | ⟨j, hj, hx⟩ | ⟨b, hb, hm, hd', hx⟩
  · exact .inl h
  · exact .inr (.inr ⟨_, hb, List.mem_cons_self, hd, j, List.mem_append_left _ hj, hx⟩)
  · exact .inr (.inr ⟨b, hb, List.mem_cons_of_mem _ hm, hd'.trans hd, hx⟩)

/-- What is in scope at the end of a block is available after it. -/
theorem InScope.after {post : List Instruction} (hb : ⟨label, pre ++ post⟩ ∈ bs)
    (h : InScope globals bs S label pre x) : AvailableAfter globals bs label x := by
  rcases h with h | ⟨j, hj, hx⟩ | ⟨b, hb, -, hd, hx⟩
  · exact .inl h
  · exact .inr ⟨_, hb, .refl bs label, j, List.mem_append_left _ hj, hx⟩
  · exact .inr ⟨b, hb, hd, hx⟩

/-! ### Uses along a block -/

/-- The instructions of a block use what they may, each after those before it. -/
def UsesFrom (globals : List Instruction) (bs : List Block) (label : UInt32) :
    List Instruction → List Instruction → Prop
  | _, [] => True
  | pre, i :: rest => UsesAt globals bs label pre i ∧ UsesFrom globals bs label (pre ++ [i]) rest

theorem usesFrom_append {l r : List Instruction} :
    UsesFrom globals bs label pre (l ++ r) ↔
      UsesFrom globals bs label pre l ∧ UsesFrom globals bs label (pre ++ l) r := by
  induction l generalizing pre with
  | nil => simp [UsesFrom]
  | cons i l ih =>
    rw [List.cons_append, UsesFrom, UsesFrom, ih, List.append_assoc, and_assoc]
    rfl

theorem UsesFrom.at {body l r : List Instruction} (h : UsesFrom globals bs label [] body)
    (hb : body = l ++ i :: r) : UsesAt globals bs label l i := by
  rw [hb, usesFrom_append] at h
  exact h.2.1

theorem UsesFrom.snoc (h : UsesFrom globals bs label [] pre)
    (hi : UsesAt globals bs label pre i) : UsesFrom globals bs label [] (pre ++ [i]) :=
  usesFrom_append.2 ⟨h, hi, trivial⟩

/-- An instruction that reads nothing. -/
theorem UsesAt.of_nothing (hphi : i.opcode ≠ .phi) (hr : i.reads = []) :
    UsesAt globals bs label pre i := by
  rw [UsesAt, if_neg hphi, hr]
  exact fun _ hx => absurd hx List.not_mem_nil

end Scope

/-! ### Code that runs -/

section Runs

variable {I : Interpretation} {s : Surroundings I} {Γ Γ' : Context I} {i : Instruction} {c : Code}
  {o : List (Output I.Value)} {globals : List Instruction} {bs : List Block} {S : List UInt32}
  {label x : UInt32} {pre : List Instruction} {t : Instruction}

theorem Signature.ordinary {op : Opcode} {ls : List UInt32} {ts : List Ty} {ty : Ty}
    (h : Signature op ls ts ty) : op ∉ Code.controlOps := by
  have hall : ∀ op ∈ floatingOps ++ integralOps ++ floatingComparisons ++ integralComparisons,
      op ∉ Code.controlOps := by decide
  cases h
  case floating hop _ => exact hall _ (by simp [hop])
  case integral hop _ => exact hall _ (by simp [hop])
  case compareFloating hop => exact hall _ (by simp [hop])
  case compareIntegral hop => exact hall _ (by simp [hop])
  all_goals decide

theorem Step.ordinary (h : Step s Γ i Γ' o) : i.opcode ∉ Code.controlOps := by
  cases h with
  | apply _ _ _ _ hsig => exact hsig.ordinary
  | load => show Opcode.load ∉ _; decide
  | access => show Opcode.accessChain ∉ _; decide
  | store => show Opcode.store ∉ _; decide
  | write => show Opcode.imageWrite ∉ _; decide

theorem Runs.ordinary (h : Runs s Γ c Γ' o) : c.Ordinary := by
  induction h with
  | done => trivial
  | plain hs _ ih => exact ⟨hs.ordinary, ih⟩
  | select _ _ _ _ _ _ _ _ ihy ihn ihr => exact ⟨ihy, ihn, ihr⟩

/-- A context all of which is in scope. -/
def Context.Scoped (Γ : Context I) (globals : List Instruction) (bs : List Block)
    (S : List UInt32) (label : UInt32) (pre : List Instruction) : Prop :=
  ∀ e ∈ Γ, InScope globals bs S label pre e.1

theorem TypeAt.global {decls : List Instruction} {ty : Ty} (hm : decls ⊆ globals)
    (h : TypeAt decls x ty) : Global globals x := by
  obtain ⟨i, hi, hx⟩ := h.declared
  exact ⟨i, hm hi, hx⟩

theorem GlobalAt.global {decls : List Instruction} {ty : Ty} {a : Datum I.Value}
    (hm : decls ⊆ globals) (h : GlobalAt I decls x ty a) : Global globals x := by
  obtain ⟨i, hi, hx⟩ := h.declared
  exact ⟨i, hm hi, hx⟩

theorem Known.inScope {ty : Ty} {a : Datum I.Value} (hm : s.decls ⊆ globals)
    (hΓ : Context.Scoped Γ globals bs S label pre) (h : Known s Γ x ty a) :
    InScope globals bs S label pre x := by
  rcases h with h | h
  · exact hΓ _ h
  · exact .inl (h.global hm)

/-- Only one instruction names an instruction set. -/
theorem Opcode.eq_extInst {op : Opcode} (h : op.layout = .extended) : op = .extInst := by
  rw [Opcode.layout] at h
  cases hl : layouts.lookup op with
  | none =>
    rw [hl] at h
    cases h
  | some l =>
    rw [hl] at h
    obtain ⟨l₁, l₂, heq, -⟩ := List.lookup_eq_some_iff.1 hl
    have hall : ∀ e ∈ layouts, e.2 = .extended → e.1 = .extInst := by decide
    exact hall (op, l) (by rw [heq]; simp) h

/-- What an instruction reads is in scope. -/
theorem Step.reads_inScope (hm : s.decls ⊆ globals)
    (hset : ⟨.extInstImport, s.extended :: nameWords (Text.bytes extendedSet)⟩ ∈ globals)
    (hΓ : Context.Scoped Γ globals bs S label pre) (h : Step s Γ i Γ' o) :
    ∀ x ∈ i.reads, InScope globals bs S label pre x := by
  cases h with
  | apply _ ht he ha hsig =>
    intro x hx
    rw [Instruction.reads, List.mem_append, List.mem_append] at hx
    rcases hx with (hx | hx) | hx
    · rw [if_pos hsig.typed.1, List.mem_singleton] at hx
      rw [hx]
      exact .inl (ht.global hm)
    · by_cases hl : i.opcode.layout = .extended
      · have harg : i.args[0]? = some s.extended := he (Opcode.eq_extInst hl)
        obtain ⟨rest, hargs⟩ : ∃ rest, i.args = s.extended :: rest := by
          cases hi : i.args with
          | nil =>
            rw [hi] at harg
            cases harg
          | cons a rest =>
            rw [hi] at harg
            exact ⟨rest, by rw [Option.some.inj harg]⟩
        rw [if_pos hl, hargs, List.take_succ_cons, List.take_zero, List.mem_singleton] at hx
        exact .inl ⟨_, hset, hx ▸ rfl⟩
      · rw [if_neg hl] at hx
        cases hx
    · obtain ⟨a, -, hk⟩ := exists_of_mem_left ha hx
      exact hk.inScope hm hΓ
  | @load t y p v storage path ty a ht hp =>
    intro x hx
    have hx : x ∈ [t, p] := hx
    rcases List.mem_pair.1 hx with rfl | rfl
    · exact .inl (ht.global hm)
    · exact hp.inScope hm hΓ
  | @access t y b k v storage id ct w mem ms ty ht hb hk =>
    intro x hx
    have hx : x ∈ [t, b, k] := hx
    simp only [List.mem_cons, List.not_mem_nil, or_false] at hx
    rcases hx with rfl | rfl | rfl
    · exact .inl (ht.global hm)
    · exact .inl (hb.global hm)
    · exact .inl ⟨_, hm hk, rfl⟩
  | @store p y v storage ty a hp hy =>
    intro x hx
    have hx : x ∈ [p, y] := hx
    rcases List.mem_pair.1 hx with rfl | rfl
    · exact .inl (hp.global hm)
    · exact hy.inScope hm hΓ
  | @write j c y d f t image coordinate a hj hc hy =>
    intro x hx
    have hx : x ∈ [j, c, y] := hx
    simp only [List.mem_cons, List.not_mem_nil, or_false] at hx
    rcases hx with rfl | rfl | rfl
    · exact hj.inScope hm hΓ
    · exact hc.inScope hm hΓ
    · exact hy.inScope hm hΓ

/-- What an instruction leaves in the context is its result. -/
theorem Step.scoped (hΓ : Context.Scoped Γ globals bs S label pre) (h : Step s Γ i Γ' o) :
    Context.Scoped Γ' globals bs S label (pre ++ [i]) := by
  have hold : Context.Scoped Γ globals bs S label (pre ++ [i]) := fun e he => (hΓ e he).snoc
  cases h with
  | apply _ _ _ _ hsig =>
    intro e he
    rcases List.mem_cons.1 he with rfl | he
    · exact .self (by rw [Instruction.result?, if_pos hsig.typed.2])
    · exact hold e he
  | load =>
    intro e he
    rcases List.mem_cons.1 he with rfl | he
    · exact .self rfl
    · exact hold e he
  | access =>
    intro e he
    rcases List.mem_cons.1 he with rfl | he
    · exact .self rfl
    · exact hold e he
  | store => exact hold
  | write => exact hold

/-- **Code that runs uses what it may**, and what it leaves is available where it ends. -/
theorem Runs.uses (hm : s.decls ⊆ globals)
    (hset : ⟨.extInstImport, s.extended :: nameWords (Text.bytes extendedSet)⟩ ∈ globals)
    (h : Runs s Γ c Γ' o) (hp : Code.Placed bs S label c) (hbs : c.blocks label pre t ⊆ bs)
    (ht : t.opcode ≠ .phi ∧ t.reads = []) (hΓ : Context.Scoped Γ globals bs S label pre)
    (hpre : UsesFrom globals bs label [] pre) :
    (∀ b ∈ c.blocks label pre t, UsesFrom globals bs b.label [] b.body) ∧
      ∀ e ∈ Γ', AvailableAfter globals bs (c.lastLabel label) e.1 := by
  induction h generalizing label pre t S with
  | done =>
    refine ⟨fun b hb => ?_, fun e he => (hΓ e he).after (hbs List.mem_cons_self)⟩
    rw [List.mem_singleton.1 hb]
    exact hpre.snoc (.of_nothing ht.1 ht.2)
  | @plain Γ Γ₁ Γ₂ i rest o₁ o₂ hs _ ih =>
    have hphi : i.opcode ≠ .phi := fun h => hs.ordinary (by rw [h]; decide)
    refine ih hp.of_plain hbs ht (hs.scoped hΓ) (hpre.snoc ?_)
    rw [UsesAt, if_neg hphi]
    exact fun x hx => (hs.reads_inScope hm hset hΓ x hx).available hp.fresh
  | @select Γ Γ₁ Γ₂ Γ' c yes no rest ty test a b o hcond _ _ hty _ ha hb _ ihy ihn ihr =>
    obtain ⟨py, pn, pr, hdy, hdn, hdm⟩ := hp.of_select
    rw [Code.blocks, List.cons_subset, List.append_subset, List.append_subset] at hbs
    obtain ⟨hheader, ⟨hby, hbn⟩, hbr⟩ := hbs
    have henter : ∀ {x : UInt32} {pre' : List Instruction}, Dominates bs label x →
        Context.Scoped Γ globals bs (label :: S) x pre' := fun hd e he =>
      (hΓ e he).enter hheader hd
    have hjump : (goto c.merge).opcode ≠ .phi ∧ (goto c.merge).reads = [] :=
      ⟨by show Opcode.branch ≠ _; decide, rfl⟩
    obtain ⟨huy, hay⟩ := ihy py hby hjump (henter hdy) trivial
    obtain ⟨hun, han⟩ := ihn pn hbn hjump (henter hdn) trivial
    -- the end of the block of the selection
    have huses : UsesFrom globals bs label [] (pre ++ [c.merging, c.branching]) := by
      rw [show pre ++ [c.merging, c.branching] = pre ++ [c.merging] ++ [c.branching] by simp]
      refine (hpre.snoc (.of_nothing (by show Opcode.selectionMerge ≠ _; decide) rfl)).snoc ?_
      rw [UsesAt, if_neg (by show Opcode.branchConditional ≠ _; decide)]
      intro x hx
      obtain rfl : x = c.condition := List.mem_singleton.1 (show x ∈ [c.condition] from hx)
      exact ((hcond.inScope hm hΓ).snoc).available hp.fresh
    -- the phi
    obtain ⟨hne, hparents⟩ := hp.parents
    have hafter : ∀ {x l : UInt32} {ty : Ty} {v : I.Value} {Γ : Context I},
        (∀ e ∈ Γ, AvailableAfter globals bs l e.1) → Known s Γ x ty (.value v) →
        AvailableAfter globals bs l x := by
      rintro x l ty v Γ hall (hx | hx)
      · exact hall _ hx
      · exact .inl (hx.global hm)
    have hphi : UsesAt globals bs c.merge []
        (c.phi (yes.lastLabel c.yes) (no.lastLabel c.no)) := by
      rw [UsesAt, if_pos (show (c.phi _ _).opcode = .phi from rfl)]
      refine ⟨fun _ hj => absurd hj List.not_mem_nil, hty.global hm, ?_, hparents, ?_⟩
      · show [yes.lastLabel c.yes, no.lastLabel c.no].Nodup
        simpa using hne
      · exact .cons (hafter hay ha) (.cons (hafter han hb) .nil)
    have hscoped : Context.Scoped ((c.result, ty, .value (if I.truth test then a else b)) :: Γ)
        globals bs (label :: S) c.merge [c.phi (yes.lastLabel c.yes) (no.lastLabel c.no)] := by
      intro e he
      rcases List.mem_cons.1 he with rfl | he
      · exact .inr (.inl ⟨_, List.mem_cons_self, rfl⟩)
      · exact henter hdm e he
    obtain ⟨hur, har⟩ := ihr pr hbr ht hscoped ⟨hphi, trivial⟩
    refine ⟨?_, har⟩
    rw [Code.blocks, List.forall_mem_cons, List.forall_mem_append, List.forall_mem_append]
    exact ⟨huses, ⟨huy, hun⟩, hur⟩

/-! ### Functions -/

/-- An identifier that is available is defined somewhere. -/
theorem Available.defined {code : List Instruction} {label : UInt32} {pre : List Instruction}
    (hbs : ∀ b ∈ bs, ∀ i ∈ b.body, i ∈ code) (hpre : ∀ i ∈ pre, i ∈ code)
    (h : Available globals bs label pre x) : ∃ j ∈ globals ++ code, j.result? = some x := by
  rcases h with ⟨i, hi, hx⟩ | ⟨i, hi, hx⟩ | ⟨b, hb, -, -, i, hi, hx⟩
  · exact ⟨i, List.mem_append_left _ hi, hx⟩
  · exact ⟨i, List.mem_append_right _ (hpre i hi), hx⟩
  · exact ⟨i, List.mem_append_right _ (hbs b hb i hi), hx⟩

theorem AvailableAfter.defined {code : List Instruction} {label : UInt32}
    (hbs : ∀ b ∈ bs, ∀ i ∈ b.body, i ∈ code) (h : AvailableAfter globals bs label x) :
    ∃ j ∈ globals ++ code, j.result? = some x := by
  rcases h with ⟨i, hi, hx⟩ | ⟨b, hb, -, i, hi, hx⟩
  · exact ⟨i, List.mem_append_left _ hi, hx⟩
  · exact ⟨i, List.mem_append_right _ (hbs b hb i hi), hx⟩

/-- What an instruction of a block reads is defined somewhere. -/
theorem UsesAt.defined {code : List Instruction} (hbs : ∀ b ∈ bs, ∀ i ∈ b.body, i ∈ code)
    (hpre : ∀ i ∈ pre, i ∈ code) (h : UsesAt globals bs label pre i) :
    ∀ x ∈ i.reads, ∃ j ∈ globals ++ code, j.result? = some x := by
  rw [UsesAt] at h
  by_cases hop : i.opcode = .phi
  · rw [if_pos hop] at h
    intro x hx
    rw [Instruction.reads, hop, if_pos (by decide), if_neg (by decide), List.append_nil,
      List.cons_append, List.nil_append, List.mem_cons] at hx
    rcases hx with rfl | hx
    · obtain ⟨j, hj, hx⟩ := h.type
      exact ⟨j, List.mem_append_left _ hj, hx⟩
    · obtain ⟨l, -, hl⟩ := exists_of_mem_left h.values hx
      exact hl.defined hbs
  · rw [if_neg hop] at h
    exact fun x hx => (h x hx).defined hbs hpre

/-- What stands once among the results stands once among the instructions. -/
theorem count_eq_one {code : List Instruction} (hnodup : (code.filterMap (·.result?)).Nodup)
    (hi : i ∈ code) (hx : i.result? = some x) : code.count i = 1 := by
  refine Nat.le_antisymm (Nat.not_lt.1 fun hlt => ?_) (List.count_pos_iff.2 hi)
  have hsub : [i, i].Sublist code := by
    rw [show [i, i] = List.replicate 2 i from rfl, List.replicate_sublist_iff]
    exact hlt
  have hresults := hnodup.sublist (hsub.filterMap (·.result?))
  rw [List.filterMap_cons_some hx, List.filterMap_cons_some hx] at hresults
  exact absurd List.mem_cons_self (List.nodup_cons.1 hresults).1

/-- **A function with code that runs is in static single assignment form.** -/
theorem Runs.ssa {main void type entry : UInt32} {bound : Nat} (hm : s.decls ⊆ globals)
    (hset : ⟨.extInstImport, s.extended :: nameWords (Text.bytes extendedSet)⟩ ∈ globals)
    (hvoid : Global globals void) (htype : Global globals type) (h : Runs s [] c Γ' o)
    (hdistinct : ((globals ++ functionOf main void type entry c).filterMap (·.result?)).Nodup)
    (hglobals : ∀ i ∈ globals, ∀ x ∈ i.reads ++ i.labels,
      ∃ j ∈ globals ++ functionOf main void type entry c, j.result? = some x)
    (hbound : ∀ i ∈ globals ++ functionOf main void type entry c, ∀ x, i.result? = some x →
      x ≠ 0 ∧ x.toNat < bound) :
    Ssa globals (functionOf main void type entry c) bound := by
  generalize hcode : functionOf main void type entry c = code at *
  have hk := h.ordinary
  have hblocks : blocks code = c.blocks entry [] ⟨.returnVoid, []⟩ := by
    rw [← hcode]
    exact Code.blocks_functionOf hk main void type entry
  have hlaid : code = ⟨.function, [void, main, 0, type]⟩ ::
      ((blocks code).flatMap Block.instructions ++ [⟨.functionEnd, []⟩]) := by
    rw [hblocks, Code.instructions_blocks, ← hcode, functionOf]
    simp
  have hbody : ∀ b ∈ blocks code, ∀ i ∈ b.body, i ∈ code := by
    intro b hb i hi
    rw [hlaid]
    refine List.mem_cons_of_mem _ (List.mem_append_left _ (List.mem_flatMap.2 ⟨b, hb, ?_⟩))
    exact List.mem_cons_of_mem _ hi
  -- the labels of the function
  have hcodeNodup : (code.filterMap (·.result?)).Nodup := by
    rw [List.filterMap_append] at hdistinct
    exact hdistinct.sublist (List.sublist_append_right _ _)
  have hopened : (entry :: c.opened).Nodup := by
    have hresults : code.filterMap (·.result?) =
        main :: entry :: (c.instructions.filterMap (·.result?) ++ []) := by
      rw [← hcode, functionOf, List.filterMap_append, List.filterMap_append]
      rfl
    rw [hresults, List.append_nil] at hcodeNodup
    exact (List.nodup_cons.1 hcodeNodup).2.sublist (c.opened_sublist.cons_cons entry)
  have hlabels : ∀ x ∈ entry :: c.opened, labelOf x ∈ code := by
    intro x hx
    rw [← hcode, functionOf]
    rcases List.mem_cons.1 hx with rfl | hx
    · simp
    · simp [c.label_mem x hx]
  have hnamed : ∀ i ∈ code, ∀ x ∈ i.labels, x ∈ entry :: c.opened := by
    intro i hi x hx
    rw [← hcode, functionOf] at hi
    simp only [List.mem_append, List.mem_cons, List.not_mem_nil, or_false] at hi
    rcases hi with ((rfl | rfl) | hi) | rfl | rfl
    · cases hx
    · cases hx
    · exact Code.labels_mem hk entry i hi x hx
    · cases hx
    · cases hx
  -- the code in the function
  have hedges : (blocks code).flatMap Block.edges = c.edges entry := by
    rw [hblocks, Code.edges_blocks hk entry .nil rfl]
    exact List.append_nil _
  have hentry : ∀ b, (blocks code).head? = some b → b.label = entry := by
    intro b hb
    obtain ⟨b', hb', hl⟩ := c.head_blocks entry [] ⟨.returnVoid, []⟩
    rw [hblocks, hb'] at hb
    cases hb
    exact hl
  have hplaced : Code.Placed (blocks code) [] entry c := by
    have hout : entry ∉ c.opened := (List.nodup_cons.1 hopened).1
    refine ⟨⟨(List.nodup_cons.1 hopened).2, ?_⟩, ?_, ?_, ?_, List.not_mem_nil⟩
    · rw [hedges]
      exact fun e he _ => he
    · rw [hedges]
      exact fun e he => he
    · intro b hb
      rw [hentry b hb]
      exact hout
    · intro x hx
      rw [List.mem_singleton.1 hx]
      exact hout
  have hsubset : c.blocks entry [] ⟨.returnVoid, []⟩ ⊆ blocks code := by
    rw [hblocks]
    exact List.Subset.refl _
  obtain ⟨huses, -⟩ := h.uses hm hset hplaced hsubset ⟨by decide, rfl⟩
    (fun e he => absurd he List.not_mem_nil) trivial
  rw [← hblocks] at huses
  have hdefined : ∀ i ∈ globals ++ code, ∀ x ∈ i.reads ++ i.labels,
      ∃ j ∈ globals ++ code, j.result? = some x := by
    intro i hi x hx
    rcases List.mem_append.1 hi with hi | hi
    · exact hglobals i hi x hx
    rcases List.mem_append.1 hx with hx | hx
    · rw [hlaid, List.mem_cons, List.mem_append, List.mem_flatMap] at hi
      rcases hi with rfl | ⟨b, hb, hi⟩ | hi
      · have hx : x ∈ [void, type] := hx
        rcases List.mem_pair.1 hx with rfl | rfl
        · obtain ⟨j, hj, hjx⟩ := hvoid
          exact ⟨j, List.mem_append_left _ hj, hjx⟩
        · obtain ⟨j, hj, hjx⟩ := htype
          exact ⟨j, List.mem_append_left _ hj, hjx⟩
      · rcases List.mem_cons.1 hi with rfl | hi
        · cases hx
        · obtain ⟨pre, post, hsplit⟩ := List.append_of_mem hi
          refine ((huses b hb).at hsplit).defined hbody (fun j hj => hbody b hb j ?_) x hx
          rw [hsplit]
          exact List.mem_append_left _ hj
      · rw [List.mem_singleton.1 hi] at hx
        cases hx
    · exact ⟨labelOf x, List.mem_append_right _ (hlabels x (hnamed i hi x hx)), rfl⟩
  refine ⟨hdistinct, hdefined, ?_, ⟨_, rfl, hlaid⟩, ?_, ?_, ?_⟩
  · intro i hi x hx
    rw [List.append_assoc, List.mem_append] at hx
    rcases hx with hx | hx
    · exact hbound i hi x (Option.mem_toList.1 hx)
    · obtain ⟨j, hj, hjx⟩ := hdefined i hi x hx
      exact hbound j hj x hjx
  · intro i hi x hx
    exact count_eq_one hcodeNodup (hlabels x (hnamed i hi x hx)) rfl
  · rw [hblocks]
    exact Code.terminated_blocks hk entry .nil rfl
  · exact fun b hb pre i post hsplit => (huses b hb).at hsplit

end Runs

end NodeShader.Spirv
