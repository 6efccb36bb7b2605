import NodeShader.Proofs.Spirv.Ssa

/-!
# Running a module

A machine that runs the entry point of a module from the instructions as they stand: from the first
block on it executes one instruction after another, follows branches, takes at a phi the value for the
block it came from, and stops when it returns (`Machine.run`).  Unlike `Runs` it executes one arm of a
selection only, knows no structure, and computes: types, constants and variables are read off the
module by their identifiers.

* `TypeAt.settles`, `GlobalAt.settles`: what is declared is found, where results are told apart.
* `Step.steps`: an instruction of structured code is one step of the machine.
* `Runs.executes`: **structured code is executed from its start to its end**, with the outputs it leaves.
* `Runs.execute_functionOf`: the run of a module with one function.
-/

namespace NodeShader.Spirv

/-! ### Results with enough fuel -/

/-- What a computation gives with enough fuel. -/
def Settles {α : Type} (f : Nat → Option α) (a : α) : Prop := ∃ N, ∀ fuel ≥ N, f fuel = some a

namespace Settles

variable {α β : Type} {f : Nat → Option α} {a : α} {b : β}

theorem of_eq (h : ∀ fuel, f fuel = some a) : Settles f a := ⟨0, fun fuel _ => h fuel⟩

/-- A computation that spends one unit of fuel. -/
theorem of_succ (h : Settles (fun fuel => f (fuel + 1)) a) : Settles f a := by
  obtain ⟨N, hN⟩ := h
  refine ⟨N + 1, fun fuel hf => ?_⟩
  obtain ⟨m, rfl⟩ := Nat.exists_eq_add_of_le' (show 1 ≤ fuel by omega)
  exact hN m (by omega)

/-- One computation after another. -/
theorem bind {g : Nat → α → Option β} (h : Settles f a) (hg : Settles (fun fuel => g fuel a) b) :
    Settles (fun fuel => (f fuel).bind (g fuel)) b := by
  obtain ⟨N, hN⟩ := h
  obtain ⟨M, hM⟩ := hg
  refine ⟨max N M, fun fuel hf => ?_⟩
  show (f fuel).bind (g fuel) = some b
  rw [hN fuel (by omega)]
  exact hM fuel (by omega)

theorem map (g : α → β) (h : Settles f a) : Settles (fun fuel => (f fuel).map g) (g a) := by
  obtain ⟨N, hN⟩ := h
  refine ⟨N, fun fuel hf => ?_⟩
  show (f fuel).map g = some (g a)
  rw [hN fuel hf]
  rfl

theorem mapM {γ : Type} {g : Nat → γ → Option α} {xs : List γ} {as : List α}
    (h : List.Forall₂ (fun x a => Settles (fun fuel => g fuel x) a) xs as) :
    Settles (fun fuel => xs.mapM (g fuel)) as := by
  induction h with
  | nil => exact of_eq fun _ => rfl
  | cons hx _ ih =>
    obtain ⟨N, hN⟩ := hx
    obtain ⟨M, hM⟩ := ih
    refine ⟨max N M, fun fuel hf => ?_⟩
    have hx := hN fuel (by omega)
    have hxs := hM fuel (by omega)
    simp only at hx hxs
    simp only [List.mapM_cons, hx, hxs]
    rfl

end Settles

/-! ### What a module declares -/

/-- The instructions of a module from the one that defines an identifier on. -/
def since (m : List Instruction) (x : UInt32) : List Instruction :=
  m.dropWhile fun i => i.result? != some x

/-- The instruction that defines an identifier. -/
def definition? (m : List Instruction) (x : UInt32) : Option Instruction := (since m x).head?

/-- The type that an instruction declares, by the types it is made of. -/
def Instruction.declaredType? (typeOf : UInt32 → Option Ty) (i : Instruction) : Option Ty :=
  if i.opcode = .typeStruct then i.operands.head?.map .struct
  else
    match i.operands with
    | [_] =>
      if i.opcode = .typeVoid then some .void
      else if i.opcode = .typeBool then some .bool
      else if i.opcode = .typeSampler then some .sampler
      else none
    | [_, a] =>
      if i.opcode = .typeFloat then some (.float a)
      else if i.opcode = .typeSampledImage then (typeOf a).map .sampledImage
      else if i.opcode = .typeFunction then (typeOf a).map .function
      else none
    | [_, a, b] =>
      if i.opcode = .typeInt then some (.int a (b != 0))
      else if i.opcode = .typeVector then (typeOf a).map (.vector · b)
      else if i.opcode = .typeMatrix then (typeOf a).map (.matrix · b)
      else if i.opcode = .typePointer then (typeOf b).map (.pointer a)
      else none
    | [_, a, dim, _, _, _, sampled, format] =>
      if i.opcode = .typeImage then (typeOf a).map (.image · dim sampled format) else none
    | _ => none

/-- The type of a type identifier. -/
def typeAt? (m : List Instruction) : Nat → UInt32 → Option Ty
  | 0, _ => none
  | fuel + 1, x => (definition? m x).bind (·.declaredType? (typeAt? m fuel))

variable {I : Interpretation}

/-- The value of a constant of a type, by those of its parts. -/
def Instruction.constant? (I : Interpretation) (valueOf : UInt32 → Option I.Value) (ty : Ty)
    (i : Instruction) : Option I.Value :=
  if i.opcode = .constant then (i.arg? 0).map (I.scalar ty)
  else if i.opcode = .constantTrue then some (I.ofBool true)
  else if i.opcode = .constantFalse then some (I.ofBool false)
  else if i.opcode = .constantNull then some (I.null ty)
  else if i.opcode = .constantComposite then (i.args.mapM valueOf).map (I.composite ty)
  else none

/-- The value of the identifier of a constant. -/
def constantAt? (I : Interpretation) (m : List Instruction) : Nat → UInt32 → Option I.Value
  | 0, _ => none
  | fuel + 1, x =>
    (definition? m x).bind fun i =>
      (typeAt? m fuel i.resultType).bind (i.constant? I (constantAt? I m fuel))

/-- The literal word of a scalar constant. -/
def literal? (m : List Instruction) (x : UInt32) : Option UInt32 :=
  (definition? m x).bind fun i => if i.opcode = .constant then i.arg? 0 else none

/-! ### The machine -/

/-- A value, or the variable and the path of a place. -/
def Datum.value? {V : Type} : Datum V → Option V
  | .value v => some v
  | .place .. => none

def Datum.place? {V : Type} : Datum V → Option (UInt32 × List UInt32)
  | .value _ => none
  | .place v path => some (v, path)

/-- What the results of the instructions executed so far stand for, the latest first. -/
abbrev Environment (I : Interpretation) := List (UInt32 × Datum I.Value)

/-- A module with the contents of its variables. -/
structure Machine (I : Interpretation) where
  code : List Instruction
  content : UInt32 → List UInt32 → Option I.Value

/-- Where a run is: the block it left last, the block it is in, what it knows, and the instructions
from here on. -/
structure Machine.State (I : Interpretation) where
  parent : UInt32
  block : UInt32
  env : Environment I
  rest : List Instruction

/-- The instructions that compute a value. -/
def computingOps : List Opcode :=
  floatingOps ++ integralOps ++ floatingComparisons ++ integralComparisons ++
    [Opcode.fNegate, .sNegate, .dot, .compositeConstruct, .compositeExtract, .vectorShuffle, .convertUToF,
      .sampledImage, .imageSampleImplicitLod, .imageSampleExplicitLod, .matrixTimesVector, .extInst]

/-- The value that a phi names for a block, among values each before its block. -/
def incoming? (parent : UInt32) : List UInt32 → Option UInt32
  | x :: l :: rest => if l = parent then some x else incoming? parent rest
  | _ => none

namespace Machine

/-- What an identifier of module scope stands for. -/
def global? (M : Machine I) (fuel : Nat) (x : UInt32) : Option (Datum I.Value) :=
  (definition? M.code x).bind fun i =>
    if i.opcode = .variableDecl then some (.place x [])
    else (constantAt? I M.code fuel x).map .value

/-- What an identifier stands for. -/
def datum? (M : Machine I) (fuel : Nat) (env : Environment I) (x : UInt32) :
    Option (Datum I.Value) :=
  (env.lookup x).or (M.global? fuel x)

def value? (M : Machine I) (fuel : Nat) (env : Environment I) (x : UInt32) : Option I.Value :=
  (M.datum? fuel env x).bind Datum.value?

def place? (M : Machine I) (fuel : Nat) (env : Environment I) (x : UInt32) :
    Option (UInt32 × List UInt32) :=
  (M.datum? fuel env x).bind Datum.place?

/-- Whether the set of an extended instruction is the one whose functions are interpreted. -/
def knowsSet (M : Machine I) (i : Instruction) : Bool :=
  i.opcode != .extInst || (i.arg? 0).any fun set =>
    M.code.contains ⟨.extInstImport, set :: nameWords (Text.bytes extendedSet)⟩

/-- What an instruction within a block does: what is known after it, and what it leaves behind. -/
def perform (M : Machine I) (fuel : Nat) (env : Environment I) (i : Instruction) :
    Option (Environment I × List (Output I.Value)) :=
  if i.opcode = .load then
    (i.arg? 0).bind fun p => (M.place? fuel env p).bind fun at_ =>
      (M.content at_.1 at_.2).map fun a => ((i.result, .value a) :: env, [])
  else if i.opcode = .accessChain then
    (i.arg? 0).bind fun b => (M.place? fuel env b).bind fun at_ =>
      ((i.args.drop 1).mapM (literal? M.code)).map fun path =>
        ((i.result, .place at_.1 (at_.2 ++ path)) :: env, [])
  else if i.opcode = .store then
    (i.arg? 0).bind fun p => (i.arg? 1).bind fun x => (M.place? fuel env p).bind fun at_ =>
      (M.value? fuel env x).bind fun a => if at_.2 = [] then some (env, [.stored at_.1 a]) else none
  else if i.opcode = .imageWrite then
    (i.arg? 0).bind fun image => (i.arg? 1).bind fun coordinate => (i.arg? 2).bind fun x =>
      (M.value? fuel env image).bind fun image => (M.value? fuel env coordinate).bind fun c =>
        (M.value? fuel env x).map fun a => (env, [.texel image c a])
  else if i.opcode ∈ computingOps ∧ M.knowsSet i then
    (typeAt? M.code fuel i.resultType).bind fun ty => (i.values.mapM (M.value? fuel env)).map fun vs =>
      ((i.result, .value (I.apply i.opcode i.literals ty vs)) :: env, [])
  else none

/-- Going on to a block. -/
def enter? (M : Machine I) (σ : State I) (l : UInt32) : Option (State I) :=
  match since M.code l with
  | i :: rest => if i = labelOf l then some ⟨σ.block, l, σ.env, rest⟩ else none
  | [] => none

/-- Executing one instruction: what it leaves behind, and where the run is then, unless it ends. -/
def step? (M : Machine I) (fuel : Nat) (σ : State I) :
    Option (List (Output I.Value) × Option (State I)) :=
  match σ.rest with
  | [] => none
  | i :: rest =>
    if i.opcode = .returnVoid then some ([], none)
    else if i.opcode = .selectionMerge then some ([], some { σ with rest })
    else if i.opcode = .branch then
      (i.arg? 0).bind fun l => (M.enter? σ l).map fun σ => ([], some σ)
    else if i.opcode = .branchConditional then
      (i.arg? 0).bind fun c => (M.value? fuel σ.env c).bind fun test =>
        (i.arg? (if I.truth test then 1 else 2)).bind fun l =>
          (M.enter? σ l).map fun σ => ([], some σ)
    else if i.opcode = .phi then
      (incoming? σ.parent i.args).bind fun x => (M.datum? fuel σ.env x).map fun d =>
        ([], some { σ with env := (i.result, d) :: σ.env, rest })
    else
      (M.perform fuel σ.env i).map fun r => (r.2, some { σ with env := r.1, rest })

/-- Executing instructions until the function returns, with all they leave behind. -/
def run (M : Machine I) : Nat → State I → Option (List (Output I.Value))
  | 0, _ => none
  | fuel + 1, σ =>
    (M.step? fuel σ).bind fun r =>
      match r.2 with
      | none => some r.1
      | some σ' => (M.run fuel σ').map (r.1 ++ ·)

/-- The start of the function that the entry point names. -/
def start? (M : Machine I) : Option (State I) :=
  (M.code.find? (·.opcode == .entryPoint)).bind fun e => (e.arg? 1).bind fun main =>
    match since M.code main with
    | f :: b :: rest =>
      if f.opcode = .function ∧ b.opcode = .label then some ⟨0, b.result, [], rest⟩ else none
    | _ => none

/-- **Running the entry point** of a module. -/
def execute (M : Machine I) (fuel : Nat) : Option (List (Output I.Value)) :=
  M.start?.bind (M.run fuel)

end Machine

/-! ### Finding what is declared -/

section Declared

variable {m pre post : List Instruction} {i : Instruction} {x : UInt32} {ty : Ty}

/-- The results of a module, each of one instruction. -/
abbrev Distinct (m : List Instruction) : Prop := (m.filterMap (·.result?)).Nodup

theorem since_eq (hm : Distinct (pre ++ i :: post)) (hx : i.result? = some x) :
    since (pre ++ i :: post) x = i :: post := by
  have hpre : ∀ j ∈ pre, (j.result? != some x) = true := by
    intro j hj
    rw [bne_iff_ne]
    intro hjx
    rw [Distinct, List.filterMap_append, List.filterMap_cons_some hx, List.nodup_append] at hm
    exact hm.2.2 x (List.mem_filterMap.2 ⟨j, hj, hjx⟩) x List.mem_cons_self rfl
  rw [since, List.dropWhile_append_of_pos hpre, List.dropWhile_cons_of_neg (by simp [hx])]

theorem definition?_eq (hm : Distinct m) (hi : i ∈ m) (hx : i.result? = some x) :
    definition? m x = some i := by
  obtain ⟨pre, post, rfl⟩ := List.append_of_mem hi
  rw [definition?, since_eq hm hx]
  rfl

/-- **A type that is declared is found.** -/
theorem TypeAt.settles (hm : Distinct m) (h : TypeAt m x ty) : Settles (typeAt? m · x) ty := by
  have hdecl : ∀ {i : Instruction} {x : UInt32} {ty : Ty}, i ∈ m → i.result? = some x →
      Settles (fun fuel => i.declaredType? (typeAt? m fuel)) ty → Settles (typeAt? m · x) ty := by
    intro i x ty hi hx h
    refine .of_succ ?_
    simp only [typeAt?, definition?_eq hm hi hx, Option.bind_some]
    exact h
  induction h with
  | void hi | bool hi | int hi | float hi | sampler hi | struct hi =>
    exact hdecl hi rfl (.of_eq fun _ => rfl)
  | @vector _ _ n _ hi _ ih => exact hdecl hi rfl (ih.map fun t => Ty.vector t n :)
  | @matrix _ _ n _ hi _ ih => exact hdecl hi rfl (ih.map fun t => Ty.matrix t n :)
  | @image _ _ d _ _ _ s f _ hi _ ih => exact hdecl hi rfl (ih.map fun t => Ty.image t d s f :)
  | sampledImage hi _ ih => exact hdecl hi rfl (ih.map Ty.sampledImage :)
  | @pointer _ s _ _ hi _ ih => exact hdecl hi rfl (ih.map (Ty.pointer s) :)
  | function hi _ ih => exact hdecl hi rfl (ih.map Ty.function :)

/-- A constant that is declared, by its parts. -/
theorem settles_constant {t : UInt32} {v : I.Value} (hm : Distinct m) (hi : i ∈ m)
    (hx : i.result? = some x) (ht : i.resultType = t) (hty : TypeAt m t ty)
    (hv : Settles (fun fuel => i.constant? I (constantAt? I m fuel) ty) v) :
    Settles (constantAt? I m · x) v := by
  refine .of_succ ?_
  simp only [constantAt?, definition?_eq hm hi hx, Option.bind_some, ht]
  exact (hty.settles hm).bind hv

theorem ScalarAt.settles {v : I.Value} (hm : Distinct m) (h : ScalarAt I m x ty v) :
    Settles (constantAt? I m · x) v := by
  cases h with
  | word hi ht => exact settles_constant hm hi rfl rfl ht (.of_eq fun _ => rfl)
  | yes hi ht => exact settles_constant hm hi rfl rfl ht (.of_eq fun _ => rfl)
  | no hi ht => exact settles_constant hm hi rfl rfl ht (.of_eq fun _ => rfl)

/-- The value of an identifier of module scope that is no variable. -/
theorem settles_global {M : Machine I} {v : I.Value} (hm : Distinct M.code) (hi : i ∈ M.code)
    (hx : i.result? = some x) (hop : i.opcode ≠ .variableDecl)
    (hv : Settles (constantAt? I M.code · x) v) : Settles (M.global? · x) (.value v) := by
  simp only [Machine.global?, definition?_eq hm hi hx, Option.bind_some, if_neg hop]
  exact hv.map Datum.value

/-- **What an identifier of module scope stands for is found.** -/
theorem GlobalAt.settles {M : Machine I} {d : Datum I.Value} (hm : Distinct M.code)
    (h : GlobalAt I M.code x ty d) : Settles (M.global? · x) d := by
  cases h with
  | scalar hs =>
    cases hs with
    | word hi ht hsc hb =>
      exact settles_global hm hi rfl (show Opcode.constant ≠ _ by decide)
        (ScalarAt.settles hm (.word hi ht hsc hb))
    | yes hi ht =>
      exact settles_global hm hi rfl (show Opcode.constantTrue ≠ _ by decide)
        (ScalarAt.settles hm (.yes hi ht))
    | no hi ht =>
      exact settles_global hm hi rfl (show Opcode.constantFalse ≠ _ by decide)
        (ScalarAt.settles hm (.no hi ht))
  | null hi ht =>
    exact settles_global hm hi rfl (show Opcode.constantNull ≠ _ by decide)
      (settles_constant hm hi rfl rfl ht (.of_eq fun _ => rfl))
  | composite hi ht _ _ hparts =>
    refine settles_global hm hi rfl (show Opcode.constantComposite ≠ _ by decide)
      (settles_constant hm hi rfl rfl ht ?_)
    exact (Settles.mapM (hparts.imp fun _ _ hp => hp.settles hm)).map (I.composite _)
  | variable_ hi ht =>
    have hdef : definition? M.code x = some _ := definition?_eq hm hi rfl
    simp only [Machine.global?, hdef, Option.bind_some]
    exact .of_eq fun _ => rfl

theorem literal?_eq {t w : UInt32} (hm : Distinct m) (hi : ⟨.constant, [t, x, w]⟩ ∈ m) :
    literal? m x = some w := by
  have hdef : definition? m x = some _ := definition?_eq hm hi rfl
  rw [literal?, hdef]
  rfl

end Declared

/-! ### Steps -/

namespace Machine

variable {M : Machine I} {σ σ₁ σ₂ : State I} {o o₁ o₂ : List (Output I.Value)}

/-- One step of a run, with enough fuel for what it looks up. -/
def Steps (M : Machine I) (σ : State I) (o : List (Output I.Value)) (σ' : State I) : Prop :=
  Settles (M.step? · σ) (o, some σ')

/-- Steps one after another, with all they leave behind. -/
inductive Takes (M : Machine I) : State I → List (Output I.Value) → State I → Prop
  | refl {σ : State I} : Takes M σ [] σ
  | step {σ σ₁ σ₂ : State I} {o₁ o₂ : List (Output I.Value)} : M.Steps σ o₁ σ₁ →
      Takes M σ₁ o₂ σ₂ → Takes M σ (o₁ ++ o₂) σ₂

theorem Steps.takes (h : M.Steps σ o σ₁) : M.Takes σ o σ₁ := by
  have := Takes.step h .refl
  rwa [List.append_nil] at this

theorem Takes.trans (h₁ : M.Takes σ o₁ σ₁) (h₂ : M.Takes σ₁ o₂ σ₂) :
    M.Takes σ (o₁ ++ o₂) σ₂ := by
  induction h₁ with
  | refl => exact h₂
  | step hs _ ih =>
    rw [List.append_assoc]
    exact .step hs (ih h₂)

/-- A step that leaves nothing behind, before others. -/
theorem Takes.silent (h₁ : M.Steps σ [] σ₁) (h₂ : M.Takes σ₁ o σ₂) : M.Takes σ o σ₂ := .step h₁ h₂

/-- Steps that leave nothing behind, before others. -/
theorem Takes.quiet (h₁ : M.Takes σ [] σ₁) (h₂ : M.Takes σ₁ o σ₂) : M.Takes σ o σ₂ := h₁.trans h₂

/-- Steps up to a return are a run. -/
theorem Takes.run (h : M.Takes σ o₁ σ₁) (hr : Settles (M.run · σ₁) o₂) :
    Settles (M.run · σ) (o₁ ++ o₂) := by
  induction h with
  | refl => exact hr
  | step hs _ ih =>
    refine .of_succ (hs.bind ?_)
    rw [List.append_assoc]
    exact (ih hr).map _

theorem run_return {rest : List Instruction} (hσ : σ.rest = ⟨.returnVoid, []⟩ :: rest) :
    Settles (M.run · σ) [] := by
  refine .of_succ ?_
  simp only [run, step?, hσ]
  exact .of_eq fun _ => rfl

/-! ### Where code stands -/

/-- A machine whose module has the instructions `globals` of module scope, with all that surrounds
the code of a function. -/
structure Serves (M : Machine I) (s : Surroundings I) (globals : List Instruction) : Prop where
  distinct : Distinct M.code
  within : globals ⊆ M.code
  decls : s.decls ⊆ globals
  imported : ⟨.extInstImport, s.extended :: nameWords (Text.bytes extendedSet)⟩ ∈ globals
  content : ∀ v path a, s.content v path a → M.content v path = some a

/-- What a run knows after the instructions `pre` of a function: all of a context, and only results of
these instructions. -/
structure Knows (env : Environment I) (Γ : Context I) (pre : List Instruction) : Prop where
  found : ∀ e ∈ Γ, env.lookup e.1 = some e.2.2
  past : ∀ e ∈ env, ∃ i ∈ pre, i.result? = some e.1

variable {s : Surroundings I} {globals pre post : List Instruction} {Γ Γ' : Context I}
  {env : Environment I} {i : Instruction} {x : UInt32} {ty : Ty}

theorem Serves.code_subset (hM : M.Serves s globals) : s.decls ⊆ M.code :=
  List.Subset.trans hM.decls hM.within

theorem Knows.weaken (h : Knows env Γ' pre) (hΓ : Γ ⊆ Γ') (hpre : pre ⊆ post) :
    Knows env Γ post where
  found e he := h.found e (hΓ he)
  past e he := (h.past e he).imp fun _ hi => ⟨hpre hi.1, hi.2⟩

/-- An identifier that is known is a result. -/
theorem Knows.mem (h : Knows env Γ pre) {d : Datum I.Value} (hx : env.lookup x = some d) :
    ∃ i ∈ pre, i.result? = some x := by
  obtain ⟨l₁, l₂, rfl, -⟩ := List.lookup_eq_some_iff.1 hx
  exact h.past (x, d) (by simp)

/-- The result of the next instruction is new. -/
theorem Knows.snoc (hc : M.code = globals ++ (pre ++ i :: post)) (hm : Distinct M.code)
    (h : Knows env Γ pre) (hx : i.result? = some x) (d : Datum I.Value) :
    Knows ((x, d) :: env) ((x, ty, d) :: Γ) (pre ++ [i]) where
  found := by
    intro e he
    rcases List.mem_cons.1 he with rfl | he
    · exact List.lookup_cons_self
    · have hold := h.found e he
      have hne : e.1 ≠ x := by
        intro heq
        obtain ⟨j, hj, hjx⟩ := h.mem hold
        rw [hc, Distinct, ← List.append_assoc, List.filterMap_append, List.filterMap_cons_some hx,
          List.nodup_append] at hm
        exact hm.2.2 x (List.mem_filterMap.2 ⟨j, List.mem_append_right _ hj, heq ▸ hjx⟩) x
          List.mem_cons_self rfl
      rw [List.lookup_cons, beq_false_of_ne hne]
      exact hold
  past := by
    intro e he
    rcases List.mem_cons.1 he with rfl | he
    · exact ⟨i, by simp, hx⟩
    · exact (h.past e he).imp fun _ hi => ⟨List.mem_append_left _ hi.1, hi.2⟩

theorem value_settles {v : I.Value} (h : Settles (M.datum? · env x) (.value v)) :
    Settles (M.value? · env x) v := h.bind (.of_eq fun _ => rfl)

theorem place_settles {v : UInt32} {path : List UInt32}
    (h : Settles (M.datum? · env x) (.place v path)) :
    Settles (M.place? · env x) (v, path) := h.bind (.of_eq fun _ => rfl)

/-! ### Code is executed -/

/-- An instruction that neither opens, joins nor ends a block is performed. -/
theorem steps_of_perform {env' : Environment I} {parent block : UInt32}
    (hop : i.opcode ∉ Code.controlOps) (h : Settles (M.perform · env i) (env', o)) :
    M.Steps ⟨parent, block, env, i :: post⟩ o ⟨parent, block, env', post⟩ := by
  have hne : ∀ op ∈ Code.controlOps, i.opcode ≠ op := fun op hm he => hop (he ▸ hm)
  simp only [Steps, step?, if_neg (hne .returnVoid (by decide)),
    if_neg (hne .selectionMerge (by decide)), if_neg (hne .branch (by decide)),
    if_neg (hne .branchConditional (by decide)), if_neg (hne .phi (by decide))]
  exact h.map _

/-- A block is entered behind its label. -/
theorem enter?_eq {front rest : List Instruction} {l : UInt32} (hM : Distinct M.code)
    (hc : M.code = front ++ labelOf l :: rest) (σ : State I) :
    M.enter? σ l = some ⟨σ.block, l, σ.env, rest⟩ := by
  rw [hc] at hM
  have hsince : since (front ++ labelOf l :: rest) l = labelOf l :: rest := since_eq hM rfl
  rw [enter?, hc, hsince]
  exact if_pos rfl

end Machine

section Executed

open Machine

variable {M : Machine I} {s : Surroundings I} {globals pre post : List Instruction} {Γ Γ' : Context I}
  {env : Environment I} {i : Instruction} {x : UInt32} {ty : Ty} {o : List (Output I.Value)}

/-- **What is known in code is found by the machine.** -/
theorem Known.settles {d : Datum I.Value} (hM : M.Serves s globals)
    (hc : M.code = globals ++ (pre ++ post)) (hk : Knows env Γ pre) (h : Known s Γ x ty d) :
    Settles (M.datum? · env x) d := by
  rcases h with h | h
  · have hfound := hk.found _ h
    simp only at hfound
    simp only [datum?, hfound]
    exact .of_eq fun _ => rfl
  · have hnone : env.lookup x = none := by
      rw [Option.eq_none_iff_forall_ne_some]
      intro d' hd'
      obtain ⟨j, hj, hjx⟩ := hk.mem hd'
      obtain ⟨i, hi, hix⟩ := h.declared
      have hdisjoint := hM.distinct
      rw [hc, Distinct, List.filterMap_append, List.nodup_append] at hdisjoint
      exact hdisjoint.2.2 x (List.mem_filterMap.2 ⟨i, hM.decls hi, hix⟩) x
        (List.mem_filterMap.2 ⟨j, List.mem_append_left _ hj, hjx⟩) rfl
    simp only [datum?, hnone, Option.none_or]
    exact (h.mono hM.code_subset).settles hM.distinct

theorem Signature.computing {op : Opcode} {ls : List UInt32} {ts : List Ty} {ty : Ty}
    (h : Signature op ls ts ty) : op ∈ computingOps := by
  cases h
  case floating hop _ => simp [computingOps, hop]
  case integral hop _ => simp [computingOps, hop]
  case compareFloating hop => simp [computingOps, hop]
  case compareIntegral hop => simp [computingOps, hop]
  all_goals decide

/-- **An instruction of structured code is one step.** -/
theorem Step.steps {parent block : UInt32} (hM : M.Serves s globals)
    (hc : M.code = globals ++ (pre ++ i :: post)) (hk : Knows env Γ pre) (h : Step s Γ i Γ' o) :
    ∃ env', Knows env' Γ' (pre ++ [i]) ∧
      M.Steps ⟨parent, block, env, i :: post⟩ o ⟨parent, block, env', post⟩ := by
  have hop := h.ordinary
  have hfound : ∀ {x : UInt32} {ty : Ty} {d : Datum I.Value}, Known s Γ x ty d →
      Settles (M.datum? · env x) d := fun hx => hx.settles hM hc hk
  have hkept : Knows env Γ (pre ++ [i]) := hk.weaken (List.Subset.refl _) (List.subset_append_left _ _)
  cases h with
  | @apply _ ty args hlen ht he ha hsig =>
    have hres : i.result? = some i.result := by rw [Instruction.result?, if_pos hsig.typed.2]
    refine ⟨_, hk.snoc hc hM.distinct hres _, steps_of_perform hop ?_⟩
    have hcomputing := hsig.computing
    have hne : ∀ op ∉ computingOps, i.opcode ≠ op := fun op hm he => hm (he ▸ hcomputing)
    have hset : M.knowsSet i = true := by
      rw [knowsSet, Bool.or_eq_true]
      by_cases hext : i.opcode = .extInst
      · right
        rw [he hext, Option.any_some, List.contains_iff_mem]
        exact hM.within hM.imported
      · exact .inl (bne_iff_ne.2 hext)
    simp only [perform, if_neg (hne .load (by decide)), if_neg (hne .accessChain (by decide)),
      if_neg (hne .store (by decide)), if_neg (hne .imageWrite (by decide)),
      if_pos (And.intro hcomputing hset)]
    refine ((ht.mono hM.code_subset).settles hM.distinct).bind ?_
    have hargs : List.Forall₂ (fun x v => Settles (M.value? · env x) v) i.values
        (args.map (·.2)) := by
      rw [List.forall₂_map_right_iff]
      exact ha.imp fun _ _ hx => value_settles (hfound hx)
    exact (Settles.mapM hargs).map _
  | @load t x p v storage path ty a ht hp hcontent =>
    refine ⟨_, hk.snoc hc hM.distinct rfl _, steps_of_perform hop ?_⟩
    refine (place_settles (hfound hp)).bind (.of_eq fun _ => ?_)
    rw [hM.content _ _ _ hcontent]
    rfl
  | @access t x b k v storage id ct w mem ms ty ht hb hlit =>
    refine ⟨_, hk.snoc hc hM.distinct rfl _, steps_of_perform hop ?_⟩
    refine (place_settles (hfound (.inr hb))).bind (.of_eq fun _ => ?_)
    have hw : literal? M.code k = some w := literal?_eq hM.distinct (hM.code_subset hlit)
    show (List.mapM (literal? M.code) [k]).map _ = _
    rw [List.mapM_cons, hw]
    rfl
  | @store p x v storage ty a hp hx =>
    refine ⟨env, hkept, steps_of_perform hop ?_⟩
    refine (place_settles (hfound (.inr hp))).bind ((value_settles (hfound hx)).bind ?_)
    exact .of_eq fun _ => rfl
  | @write image c x d f t vi vc a hi hcoord hx =>
    refine ⟨env, hkept, steps_of_perform hop ?_⟩
    refine (value_settles (hfound hi)).bind ((value_settles (hfound hcoord)).bind ?_)
    exact (value_settles (hfound hx)).map _

/-- The labels of code in a module are told apart. -/
theorem Code.nodup_opened {m back : List Instruction} {c : Code} (front : List Instruction)
    (hm : Distinct m) (hc : m = front ++ (c.instructions ++ back)) : c.opened.Nodup := by
  refine hm.sublist (c.opened_sublist.trans (List.Sublist.filterMap _ ?_))
  rw [hc]
  exact (List.sublist_append_left _ _).trans (List.sublist_append_right _ _)

variable (M globals) in
/-- **Code that a machine executes** from one context to another, wherever it stands in the module: the
run gets from its start to its end, knows what the code defines, and leaves behind what it does. -/
def Executes (Γ : Context I) (c : Code) (Γ' : Context I) (o : List (Output I.Value)) : Prop :=
  ∀ (pre post : List Instruction) (parent label : UInt32) (env : Environment I),
    M.code = globals ++ (pre ++ (c.instructions ++ post)) → Knows env Γ pre →
    ∃ parent' env', Knows env' Γ' (pre ++ c.instructions) ∧
      M.Takes ⟨parent, label, env, c.instructions ++ post⟩ o
        ⟨parent', c.lastLabel label, env', post⟩

theorem Executes.done : Executes M globals Γ .done Γ [] := by
  intro pre post parent label env _ hk
  exact ⟨parent, env, hk.weaken (List.Subset.refl _) (List.subset_append_left _ _), .refl⟩

theorem Executes.plain {Γ₁ : Context I} {rest : Code} {o₁ o₂ : List (Output I.Value)}
    (hM : M.Serves s globals) (hs : Step s Γ i Γ₁ o₁) (h : Executes M globals Γ₁ rest Γ' o₂) :
    Executes M globals Γ (.plain i rest) Γ' (o₁ ++ o₂) := by
  intro pre post parent label env hc hk
  obtain ⟨env₁, hk₁, hstep⟩ := hs.steps hM hc hk
  have hc₁ : M.code = globals ++ (pre ++ [i] ++ (rest.instructions ++ post)) := by
    rw [hc, Code.instructions]
    simp only [List.append_assoc, List.cons_append, List.nil_append]
  obtain ⟨parent', env', hk', htakes⟩ := h _ _ parent label _ hc₁ hk₁
  refine ⟨parent', env', ?_, .step hstep htakes⟩
  rwa [List.append_assoc] at hk'

/-- An arm of a selection, on to the block where the arms meet and behind the phi there, which takes
the value of the arm. -/
theorem Executes.arm {arm : Code} {Γ₁ : Context I} {c : Choice} {pre front k rest : List Instruction}
    {lastYes lastNo : UInt32} {v : I.Value} (h : Executes M globals Γ arm Γ₁ [])
    (parent l : UInt32) (hM : M.Serves s globals) (hΓ : Γ ⊆ Γ₁)
    (harm : M.code = globals ++ (pre ++ (arm.instructions ++ goto c.merge :: k)))
    (hmerge : M.code = globals ++ (front ++ labelOf c.merge :: c.phi lastYes lastNo :: rest))
    (hfront : pre ++ arm.instructions ⊆ front) (hk : Knows env Γ pre)
    (hx : Known s Γ₁ x ty (.value v))
    (hin : incoming? (arm.lastLabel l) (c.phi lastYes lastNo).args = some x) :
    ∃ env', Knows env' ((c.result, ty, .value v) :: Γ)
        (front ++ [labelOf c.merge, c.phi lastYes lastNo]) ∧
      M.Takes ⟨parent, l, env, arm.instructions ++ goto c.merge :: k⟩ []
        ⟨arm.lastLabel l, c.merge, env', rest⟩ := by
  obtain ⟨parent₁, env₁, hk₁, htakes⟩ := h _ _ parent l _ harm hk
  have hk₂ := hk₁.weaken (List.Subset.refl _) hfront
  have hd := hx.settles hM hmerge hk₂
  have hphi : M.code = globals ++ (front ++ [labelOf c.merge] ++ c.phi lastYes lastNo :: rest) := by
    rw [hmerge]
    simp only [List.append_assoc, List.cons_append, List.nil_append]
  have hk₃ : Knows ((c.result, .value v) :: env₁) ((c.result, ty, .value v) :: Γ)
      (front ++ [labelOf c.merge] ++ [c.phi lastYes lastNo]) :=
    (hk₂.weaken hΓ (List.subset_append_left _ _)).snoc hphi hM.distinct rfl (.value v)
  rw [List.append_assoc] at hk₃
  have hgoto : M.Steps ⟨parent₁, arm.lastLabel l, env₁, goto c.merge :: k⟩ []
      ⟨arm.lastLabel l, c.merge, env₁, c.phi lastYes lastNo :: rest⟩ := by
    refine .of_eq fun _ => ?_
    show (M.enter? _ c.merge).map _ = _
    rw [enter?_eq hM.distinct (hmerge.trans (List.append_assoc _ _ _).symm)]
    rfl
  have hjoin : M.Steps ⟨arm.lastLabel l, c.merge, env₁, c.phi lastYes lastNo :: rest⟩ []
      ⟨arm.lastLabel l, c.merge, (c.result, .value v) :: env₁, rest⟩ := by
    show Settles (fun fuel => (incoming? _ _).bind _) _
    rw [hin]
    exact hd.map _
  exact ⟨_, hk₃, htakes.quiet (.silent hgoto hjoin.takes)⟩

/-- The branch to an arm. -/
theorem steps_branching {c : Choice} {rest : List Instruction} {l parent label : UInt32}
    {test : I.Value} (front : List Instruction) (hM : Distinct M.code)
    (htest : Settles (M.datum? · env c.condition) (.value test))
    (hl : (if I.truth test then c.yes else c.no) = l) (hc : M.code = front ++ labelOf l :: rest) :
    M.Steps ⟨parent, label, env, c.branching :: post⟩ [] ⟨label, l, env, rest⟩ := by
  refine (value_settles htest).bind (.of_eq fun _ => ?_)
  have harg : c.branching.arg? (if I.truth test then 1 else 2) = some l := by
    rw [← hl]
    cases I.truth test
    · rfl
    · rfl
  rw [harg]
  show (M.enter? _ l).map _ = _
  rw [enter?_eq hM hc]
  rfl

/-- **A selection executes one of its arms**, and goes on where they meet. -/
theorem Executes.select {Γ₁ Γ₂ : Context I} {c : Choice} {yes no rest : Code} {test a b : I.Value}
    (hM : M.Serves s globals) (htest : Known s Γ c.condition .bool (.value test))
    (hyes : Executes M globals Γ yes Γ₁ []) (hno : Executes M globals Γ no Γ₂ [])
    (h₁ : Γ ⊆ Γ₁) (h₂ : Γ ⊆ Γ₂) (ha : Known s Γ₁ c.fromYes ty (.value a))
    (hb : Known s Γ₂ c.fromNo ty (.value b))
    (hrest : Executes M globals ((c.result, ty, .value (if I.truth test then a else b)) :: Γ) rest
      Γ' o) : Executes M globals Γ (.select c yes no rest) Γ' o := by
  intro pre post parent label env hc hk
  have hlast := Code.lastLabel_ne (Code.nodup_opened (globals ++ pre) hM.distinct
    (by rw [hc, List.append_assoc]))
  have hinstructions := Code.instructions_select c yes no rest []
  rw [Code.instructions_select] at hc ⊢
  -- what stands before each arm and before the block where they meet, and what stands behind
  let phi := c.phi (yes.lastLabel c.yes) (no.lastLabel c.no)
  let preYes := pre ++ [c.merging, c.branching, labelOf c.yes]
  let preNo := preYes ++ (yes.instructions ++ [goto c.merge, labelOf c.no])
  let front := preNo ++ (no.instructions ++ [goto c.merge])
  let behindNo := labelOf c.merge :: phi :: (rest.instructions ++ post)
  let behindYes := labelOf c.no :: (no.instructions ++ goto c.merge :: behindNo)
  have hcYes : M.code = globals ++ (preYes ++ (yes.instructions ++ goto c.merge :: behindYes)) := by
    simp [hc, preYes, behindYes, behindNo, phi]
  have hcNo : M.code = globals ++ (preNo ++ (no.instructions ++ goto c.merge :: behindNo)) := by
    simp [hcYes, preNo, behindYes]
  have hcMerge : M.code = globals ++ (front ++ behindNo) := by simp [hcNo, front]
  have htestAt := htest.settles hM hc hk
  obtain ⟨env₂, last, hk₂, htakes⟩ : ∃ env₂ last,
      Knows env₂ ((c.result, ty, .value (if I.truth test then a else b)) :: Γ)
        (front ++ [labelOf c.merge, phi]) ∧
      M.Takes ⟨parent, label, env, c.branching :: labelOf c.yes ::
          (yes.instructions ++ goto c.merge :: behindYes)⟩ []
        ⟨last, c.merge, env₂, rest.instructions ++ post⟩ := by
    cases ht : I.truth test with
    | true =>
      obtain ⟨env₂, hk₂, htakes⟩ := hyes.arm label c.yes hM h₁ hcYes hcMerge
        (by simp [front, preNo]) (hk.weaken (List.Subset.refl _) (by simp [preYes])) ha (if_pos rfl)
      refine ⟨env₂, _, hk₂, .silent ?_ htakes⟩
      exact steps_branching (globals ++ (pre ++ [c.merging, c.branching])) hM.distinct
        htestAt (by rw [ht]; rfl) (by simp [hcYes, preYes])
    | false =>
      obtain ⟨env₂, hk₂, htakes⟩ := hno.arm label c.no hM h₂ hcNo hcMerge
        (by simp [front]) (hk.weaken (List.Subset.refl _) (by simp [preNo, preYes])) hb
        ((if_neg hlast).trans (if_pos rfl))
      refine ⟨env₂, _, hk₂, .silent ?_ htakes⟩
      exact steps_branching (globals ++ (preYes ++ (yes.instructions ++ [goto c.merge])))
        hM.distinct htestAt (by rw [ht]; rfl) (by simp [hcYes, behindYes])
  obtain ⟨parent', env', hk', htakes'⟩ := hrest _ post last c.merge _
    (by simp [hcMerge, behindNo]) hk₂
  refine ⟨parent', env', ?_, .silent (.of_eq fun _ => rfl) (htakes.trans htakes')⟩
  rw [List.append_nil, List.append_nil] at hinstructions
  rw [hinstructions]
  simpa [front, preNo, preYes, phi] using hk'

/-- **Structured code is executed from its start to its end.** -/
theorem Runs.executes {c : Code} (hM : M.Serves s globals) (h : Runs s Γ c Γ' o) :
    Executes M globals Γ c Γ' o := by
  induction h with
  | done => exact Executes.done
  | plain hs _ ih => exact Executes.plain hM hs ih
  | select htest hyes hno _ _ ha hb _ ihy ihn ihr =>
    exact Executes.select hM htest ihy ihn hyes.subset hno.subset ha hb ihr

/-- **The run of a module with one function**: it starts at the first block of the function that the
entry point names, returns, and leaves behind what the code does. -/
theorem Runs.execute_functionOf {main void type entry : UInt32} {c : Code} {e : Instruction}
    (hM : M.Serves s globals) (h : Runs s [] c Γ' o)
    (hc : M.code = globals ++ functionOf main void type entry c) (he : e ∈ globals)
    (hop : e.opcode = .entryPoint) (hmain : e.arg? 1 = some main)
    (honly : ∀ i ∈ globals, i.opcode = .entryPoint → i = e) : Settles M.execute o := by
  let returns : List Instruction := [⟨.returnVoid, []⟩, ⟨.functionEnd, []⟩]
  have hfunction : M.code = globals ++
      ([⟨.function, [void, main, 0, type]⟩, labelOf entry] ++ (c.instructions ++ returns)) := by
    rw [hc, functionOf, List.append_assoc]
  have hfind : M.code.find? (·.opcode == .entryPoint) = some e := by
    rw [hc, List.find?_append]
    obtain ⟨i, hi⟩ := Option.isSome_iff_exists.1 (List.find?_isSome (p := (·.opcode == .entryPoint)).2
      ⟨e, he, by simp [hop]⟩)
    rw [hi, honly i (List.mem_of_find?_eq_some hi) (by simpa using List.find?_some hi), Option.some_or]
  have hstart : M.start? = some ⟨0, entry, [], c.instructions ++ returns⟩ := by
    have hdistinct := hM.distinct
    rw [hfunction] at hdistinct
    have hsince : since M.code main = ⟨.function, [void, main, 0, type]⟩ :: labelOf entry ::
        (c.instructions ++ returns) := by
      rw [hfunction]
      exact since_eq hdistinct rfl
    rw [start?, hfind, Option.bind_some, hmain, Option.bind_some, hsince]
    exact if_pos ⟨rfl, rfl⟩
  obtain ⟨parent, env, -, htakes⟩ := h.executes hM _ _ 0 entry []
    hfunction ⟨fun _ hm => absurd hm List.not_mem_nil, fun _ hm => absurd hm List.not_mem_nil⟩
  have hrun := htakes.run (run_return rfl)
  rw [List.append_nil] at hrun
  show Settles (fun fuel => M.start?.bind (M.run fuel)) o
  rw [hstart]
  exact hrun

end Executed

end NodeShader.Spirv
