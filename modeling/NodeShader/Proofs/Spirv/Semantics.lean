import NodeShader.Proofs.Lists
import NodeShader.Proofs.Spirv.Code

/-!
# The meaning of structured code

An `Interpretation` gives every instruction that computes a value an arbitrary function, for each
result type, and every input of a shader an arbitrary value.  Under it code runs from the values it
may use to those it leaves (`Runs`): each identifier has a type and a datum, which is a value or a
place in memory.

Both arms of a selection run, each on its own: arms only compute values, and the phi takes that of
the arm the condition chooses.  So `Runs` says at once that code is well typed, that it uses only
what is defined before it on every way through, and what it computes; one proof about the code
generator serves all three.  Everything it asks of the declarations of the module is that some are
there, so that it stays true as more are added (`Runs.mono`).
-/

namespace NodeShader.Spirv

/-- What instructions compute and what a shader is given. -/
structure Interpretation where
  Value : Type
  /-- The outcome of a condition. -/
  truth : Value → Bool
  ofBool : Bool → Value
  truth_ofBool : ∀ b, truth (ofBool b) = b
  /-- The zero of a type other than that of truth values. -/
  zero : Ty → Value
  /-- A scalar constant by its literal word. -/
  scalar : Ty → UInt32 → Value
  /-- A constant made of parts. -/
  composite : Ty → List Value → Value
  /-- An instruction with its literals, its result type and its operands. -/
  apply : Opcode → List UInt32 → Ty → List Value → Value
  /-- The members of the block of global values. -/
  member : UInt32 → Value
  /-- The inputs of a stage, by name. -/
  input : String → Value
  /-- The texel of the current invocation. -/
  invocation : Value
  /-- The image and the sampler of the texture or field of a node. -/
  image : Nat → Value
  sampler : Nat → Value

/-- The zero of a type. -/
def Interpretation.null (I : Interpretation) (t : Ty) : I.Value :=
  if t = .bool then I.ofBool false else I.zero t

/-- What an identifier stands for: a value, or a part of a variable. -/
inductive Datum (V : Type) where
  | value (v : V)
  | place (variable_ : UInt32) (path : List UInt32)

/-- What code leaves behind: a value stored in a variable, or a texel written to an image. -/
inductive Output (V : Type) where
  | stored (variable_ : UInt32) (v : V)
  | texel (image coordinate v : V)

/-- What surrounds the code of a function: the declarations of the module, the extended instruction
set, and the contents of variables. -/
structure Surroundings (I : Interpretation) where
  decls : List Instruction
  extended : UInt32
  content : UInt32 → List UInt32 → I.Value → Prop

/-- The identifiers code may use, each with its type and what it stands for. -/
abbrev Context (I : Interpretation) := List (UInt32 × Ty × Datum I.Value)

variable {I : Interpretation}

/-- A scalar constant or a zero. -/
inductive ScalarAt (I : Interpretation) (decls : List Instruction) : UInt32 → Ty → I.Value → Prop
  | word {t x w : UInt32} {ty : Ty} : ⟨.constant, [t, x, w]⟩ ∈ decls → TypeAt decls t ty →
      ty.isScalar → ty ≠ .bool → ScalarAt I decls x ty (I.scalar ty w)
  | yes {t x : UInt32} : ⟨.constantTrue, [t, x]⟩ ∈ decls → TypeAt decls t .bool →
      ScalarAt I decls x .bool (I.ofBool true)
  | no {t x : UInt32} : ⟨.constantFalse, [t, x]⟩ ∈ decls → TypeAt decls t .bool →
      ScalarAt I decls x .bool (I.ofBool false)

/-- What an identifier of module scope stands for. -/
inductive GlobalAt (I : Interpretation) (decls : List Instruction) :
    UInt32 → Ty → Datum I.Value → Prop
  | scalar {x : UInt32} {ty : Ty} {v : I.Value} : ScalarAt I decls x ty v →
      GlobalAt I decls x ty (.value v)
  | null {t x : UInt32} {ty : Ty} : ⟨.constantNull, [t, x]⟩ ∈ decls → TypeAt decls t ty →
      ty.component.isScalar → GlobalAt I decls x ty (.value (I.null ty))
  | composite {t x n : UInt32} {c : Ty} {parts : List UInt32} {vs : List I.Value} :
      ⟨.constantComposite, t :: x :: parts⟩ ∈ decls → TypeAt decls t (.vector c n) →
      parts.length = n.toNat → parts.length ≤ 4 →
      List.Forall₂ (fun p v => ScalarAt I decls p c v) parts vs →
      GlobalAt I decls x (.vector c n) (.value (I.composite (.vector c n) vs))
  | variable_ {t x s : UInt32} {ty : Ty} : ⟨.variableDecl, [t, x, s]⟩ ∈ decls →
      TypeAt decls t (.pointer s ty) → GlobalAt I decls x (.pointer s ty) (.place x [])

/-- What an identifier stands for in code: one of the context, or one of module scope. -/
def Known (s : Surroundings I) (Γ : Context I) (x : UInt32) (ty : Ty) (d : Datum I.Value) : Prop :=
  (x, ty, d) ∈ Γ ∨ GlobalAt I s.decls x ty d

/-- Operands with their types and values. -/
def Operands (s : Surroundings I) (Γ : Context I) (xs : List UInt32) (args : List (Ty × I.Value)) :
    Prop :=
  List.Forall₂ (fun x (a : Ty × I.Value) => Known s Γ x a.1 (.value a.2)) xs args

/-- What one instruction of a block does. -/
inductive Step (s : Surroundings I) (Γ : Context I) :
    Instruction → Context I → List (Output I.Value) → Prop
  | apply {i : Instruction} {ty : Ty} {args : List (Ty × I.Value)} :
      2 ≤ i.operands.length → TypeAt s.decls i.resultType ty →
      (i.opcode = .extInst → i.arg? 0 = some s.extended) →
      Operands s Γ i.values args → Signature i.opcode i.literals (args.map (·.1)) ty →
      Step s Γ i
        ((i.result, ty, .value (I.apply i.opcode i.literals ty (args.map (·.2)))) :: Γ) []
  | load {t x p v storage : UInt32} {path : List UInt32} {ty : Ty} {a : I.Value} :
      TypeAt s.decls t ty → Known s Γ p (.pointer storage ty) (.place v path) →
      s.content v path a → Step s Γ ⟨.load, [t, x, p]⟩ ((x, ty, .value a) :: Γ) []
  | access {t x b k v storage id ct w m : UInt32} {ms : List UInt32} {ty : Ty} :
      TypeAt s.decls t (.pointer storage ty) →
      GlobalAt I s.decls b (.pointer storage (.struct id)) (.place v []) →
      ⟨.constant, [ct, k, w]⟩ ∈ s.decls → TypeAt s.decls ct (.int 32 true) →
      ⟨.typeStruct, id :: ms⟩ ∈ s.decls → ms[w.toNat]? = some m → TypeAt s.decls m ty →
      Step s Γ ⟨.accessChain, [t, x, b, k]⟩ ((x, .pointer storage ty, .place v [w]) :: Γ) []
  | store {p x v storage : UInt32} {ty : Ty} {a : I.Value} :
      GlobalAt I s.decls p (.pointer storage ty) (.place v []) → Known s Γ x ty (.value a) →
      Step s Γ ⟨.store, [p, x]⟩ Γ [.stored v a]
  | write {i c x d f : UInt32} {t : Ty} {image coordinate a : I.Value} :
      Known s Γ i (.image t d 2 f) (.value image) → Known s Γ c (.texel d) (.value coordinate) →
      Known s Γ x .colour (.value a) →
      Step s Γ ⟨.imageWrite, [i, c, x]⟩ Γ [.texel image coordinate a]

/-- **Running code**: from a context to a context, leaving outputs behind.  Arms leave none. -/
inductive Runs (s : Surroundings I) :
    Context I → Code → Context I → List (Output I.Value) → Prop
  | done {Γ : Context I} : Runs s Γ .done Γ []
  | plain {Γ Γ₁ Γ₂ : Context I} {i : Instruction} {rest : Code} {o₁ o₂ : List (Output I.Value)} :
      Step s Γ i Γ₁ o₁ → Runs s Γ₁ rest Γ₂ o₂ → Runs s Γ (.plain i rest) Γ₂ (o₁ ++ o₂)
  | select {Γ Γ₁ Γ₂ Γ' : Context I} {c : Choice} {yes no rest : Code} {ty : Ty}
      {test a b : I.Value} {o : List (Output I.Value)} :
      Known s Γ c.condition .bool (.value test) → Runs s Γ yes Γ₁ [] → Runs s Γ no Γ₂ [] →
      TypeAt s.decls c.type ty → ty.component.isScalar → Known s Γ₁ c.fromYes ty (.value a) →
      Known s Γ₂ c.fromNo ty (.value b) →
      Runs s ((c.result, ty, .value (if I.truth test then a else b)) :: Γ) rest Γ' o →
      Runs s Γ (.select c yes no rest) Γ' o

/-- A scalar constant is the result of a declaration. -/
theorem ScalarAt.declared {decls : List Instruction} {x : UInt32} {ty : Ty} {v : I.Value}
    (h : ScalarAt I decls x ty v) : ∃ i ∈ decls, i.result? = some x := by
  cases h
  all_goals exact ⟨_, ‹_›, rfl⟩

/-- An identifier of module scope is the result of a declaration. -/
theorem GlobalAt.declared {decls : List Instruction} {x : UInt32} {ty : Ty} {d : Datum I.Value}
    (h : GlobalAt I decls x ty d) : ∃ i ∈ decls, i.result? = some x := by
  cases h with
  | scalar hs => exact hs.declared
  | null hm => exact ⟨_, hm, rfl⟩
  | composite hm => exact ⟨_, hm, rfl⟩
  | variable_ hm => exact ⟨_, hm, rfl⟩

/-! ### More declarations, more code -/

/-- Surroundings with more declarations. -/
structure Surroundings.Le (s s' : Surroundings I) : Prop where
  decls : s.decls ⊆ s'.decls
  extended : s'.extended = s.extended
  content : ∀ v path a, s.content v path a → s'.content v path a

theorem ScalarAt.mono {decls decls' : List Instruction} (h : decls ⊆ decls') {x : UInt32} {ty : Ty}
    {v : I.Value} (hx : ScalarAt I decls x ty v) : ScalarAt I decls' x ty v := by
  cases hx with
  | word hm ht hs hb => exact .word (h hm) (ht.mono h) hs hb
  | yes hm ht => exact .yes (h hm) (ht.mono h)
  | no hm ht => exact .no (h hm) (ht.mono h)

theorem GlobalAt.mono {decls decls' : List Instruction} (h : decls ⊆ decls') {x : UInt32} {ty : Ty}
    {d : Datum I.Value} (hx : GlobalAt I decls x ty d) : GlobalAt I decls' x ty d := by
  cases hx with
  | scalar hs => exact .scalar (hs.mono h)
  | null hm ht hs => exact .null (h hm) (ht.mono h) hs
  | composite hm ht hn h4 hp =>
    exact .composite (h hm) (ht.mono h) hn h4 (hp.imp fun _ _ hv => hv.mono h)
  | variable_ hm ht => exact .variable_ (h hm) (ht.mono h)

variable {s s' : Surroundings I} {Γ Γ' : Context I}

theorem Known.mono (h : s.Le s') {x : UInt32} {ty : Ty} {d : Datum I.Value}
    (hx : Known s Γ x ty d) : Known s' Γ x ty d := by
  rcases hx with hx | hx
  · exact .inl hx
  · exact .inr (hx.mono h.decls)

/-- A larger context knows what a smaller one knows. -/
theorem Known.weaken (h : Γ ⊆ Γ') {x : UInt32} {ty : Ty} {d : Datum I.Value}
    (hx : Known s Γ x ty d) : Known s Γ' x ty d := by
  rcases hx with hx | hx
  · exact .inl (h hx)
  · exact .inr hx

theorem Operands.one {x : UInt32} {ty : Ty} {v : I.Value} (hx : Known s Γ x ty (.value v)) :
    Operands s Γ [x] [(ty, v)] := .cons hx .nil

theorem Operands.cons {x : UInt32} {xs : List UInt32} {ty : Ty} {v : I.Value}
    {args : List (Ty × I.Value)} (hx : Known s Γ x ty (.value v)) (h : Operands s Γ xs args) :
    Operands s Γ (x :: xs) ((ty, v) :: args) := List.Forall₂.cons hx h

theorem Operands.two {x y : UInt32} {ty ty' : Ty} {v w : I.Value} (hx : Known s Γ x ty (.value v))
    (hy : Known s Γ y ty' (.value w)) : Operands s Γ [x, y] [(ty, v), (ty', w)] :=
  .cons hx (.one hy)

theorem Operands.mono (h : s.Le s') {xs : List UInt32} {args : List (Ty × I.Value)}
    (hx : Operands s Γ xs args) : Operands s' Γ xs args :=
  hx.imp fun _ _ hk => hk.mono h

theorem Step.mono (h : s.Le s') {i : Instruction} {o : List (Output I.Value)}
    (hs : Step s Γ i Γ' o) : Step s' Γ i Γ' o := by
  cases hs with
  | apply hlen ht he ha hsig =>
    exact .apply hlen (ht.mono h.decls) (by rw [h.extended]; exact he) (ha.mono h) hsig
  | load ht hp hc => exact .load (ht.mono h.decls) (hp.mono h) (h.content _ _ _ hc)
  | access ht hb hk hct hst hm hty =>
    exact .access (ht.mono h.decls) (hb.mono h.decls) (h.decls hk) (hct.mono h.decls)
      (h.decls hst) hm (hty.mono h.decls)
  | store hp hx => exact .store (hp.mono h.decls) (hx.mono h)
  | write hi hc hx => exact .write (hi.mono h) (hc.mono h) (hx.mono h)

/-- **Code keeps running as declarations are added.** -/
theorem Runs.mono (h : s.Le s') {c : Code} {o : List (Output I.Value)} (hr : Runs s Γ c Γ' o) :
    Runs s' Γ c Γ' o := by
  induction hr with
  | done => exact .done
  | plain hs _ ih => exact .plain (hs.mono h) ih
  | select hc _ _ ht hsc ha hb _ ihy ihn ihr =>
    exact .select (hc.mono h) ihy ihn (ht.mono h.decls) hsc (ha.mono h) (hb.mono h) ihr

theorem Runs.append {Γ₁ Γ₂ : Context I} {c k : Code} {o₁ o₂ : List (Output I.Value)}
    (hc : Runs s Γ c Γ₁ o₁) (hk : Runs s Γ₁ k Γ₂ o₂) : Runs s Γ (c ++ k) Γ₂ (o₁ ++ o₂) := by
  induction hc with
  | done => exact hk
  | plain hs _ ih =>
    rw [Code.plain_append, List.append_assoc]
    exact .plain hs (ih hk)
  | select ht hy hn hty hsc ha hb _ _ _ ih => exact .select ht hy hn hty hsc ha hb (ih hk)

theorem Step.subset {i : Instruction} {o : List (Output I.Value)} (hs : Step s Γ i Γ' o) :
    Γ ⊆ Γ' := by
  cases hs
  all_goals first | exact List.subset_cons_self _ _ | exact List.Subset.refl _

/-- Code forgets nothing. -/
theorem Runs.subset {c : Code} {o : List (Output I.Value)} (hr : Runs s Γ c Γ' o) : Γ ⊆ Γ' := by
  induction hr with
  | done => exact List.Subset.refl _
  | plain hs _ ih => exact List.Subset.trans hs.subset ih
  | select _ _ _ _ _ _ _ _ _ _ ih => exact List.Subset.trans (List.subset_cons_self _ _) ih

end NodeShader.Spirv
