import NodeShader.Proofs.Stage.Drafting
import NodeShader.Stage.Write

/-!
# Steps that emit code

`Draft.Emits` says what a step of writing does to a draft: it adds structured code at the end of the
function, which runs from one context to another, and gives values to some output ports.  Whatever
else the draft keeps (`Draft.frame`) is left alone.  Identifiers reserved before the step and defined
by it are listed, so that a step that reserves one and a step that defines it fit together.

* `Emits.trans`: one step after another.
* `Draft.Reserves`: handing out identifiers, and `Reserves.emits`, what follows it.
* `emit_spec`, `define_spec`: an instruction with a new result, or for an output port.
-/

namespace NodeShader

open Spirv

variable {I : Interpretation}

/-- What a declared variable holds at a path into it. -/
def Resource.content? (I : Interpretation) (r : Resource) (path : List UInt32) : Option I.Value :=
  match r.kind, path with
  | .uniformBuffer, [k] => some (I.member k)
  | .sampledImage, [] | .storageImage, [] => r.node.map I.image
  | .sampler, [] => r.node.map I.sampler
  | .stageInput, [] => some (if r.builtIn = "" then I.input r.name else I.invocation)
  | _, _ => none

namespace Resource

variable {r : Resource} {i : Nat}

theorem content?_member (hk : r.kind = .uniformBuffer) (k : UInt32) :
    r.content? I [k] = some (I.member k) := by
  cases r
  cases hk
  rfl

theorem content?_image (hk : r.kind = .sampledImage ∨ r.kind = .storageImage)
    (hn : r.node = some i) : r.content? I [] = some (I.image i) := by
  cases r
  cases hn
  rcases hk with hk | hk
  · cases hk
    rfl
  · cases hk
    rfl

theorem content?_sampler (hk : r.kind = .sampler) (hn : r.node = some i) :
    r.content? I [] = some (I.sampler i) := by
  cases r
  cases hk
  cases hn
  rfl

theorem content?_input (hk : r.kind = .stageInput) (hb : r.builtIn = "") :
    r.content? I [] = some (I.input r.name) := by
  cases r
  cases hk
  exact congrArg some (if_pos hb)

theorem content?_invocation (hk : r.kind = .stageInput) (hb : r.builtIn ≠ "") :
    r.content? I [] = some I.invocation := by
  cases r
  cases hk
  exact congrArg some (if_neg hb)

end Resource

/-- What surrounds the code of a draft. -/
def Draft.surroundings (d : Draft) (I : Interpretation) : Surroundings I where
  decls := d.decls
  extended := d.extended
  content v path a := ∃ r ∈ d.resources, r.variable_ = v ∧ r.content? I path = some a

/-- What a draft keeps while code is written; of its module that is the names, annotations and
variables. -/
def Draft.frame (d : Draft) : Draft :=
  { d with
    builder := { ModuleBuilder.new .current with entries := d.builder.marks.toArray }
    label := 0, origins := [], values := [], known := [] }

/-- **A step that emits code** `c`, which runs from `Γ` to `Γ'` and leaves outputs `o`.  It defines the
reserved identifiers `R` and gives the output ports `vs` their values. -/
structure Draft.Emits [NameLimit] (d : Draft) (Γ : Context I) (R : List UInt32) (c : Code)
    (vs : List (PortId × UInt32)) (d' : Draft) (Γ' : Context I) (o : List (Output I.Value)) :
    Prop where
  frame : d'.frame = d.frame
  entries : d.builder.entries.toList.Sublist d'.builder.entries.toList
  code : d'.code = d.code ++ c.instructions
  label : d'.label = c.lastLabel d.label
  values : d'.values = vs ++ d.values
  runs : Runs (d'.surroundings I) Γ c Γ' o
  sound : ∀ P, d.Sound (R ++ P) → d'.Sound P

/-- **A step that hands out identifiers** `R`, some of them for output ports. -/
structure Draft.Reserves [NameLimit] (d : Draft) (R : List UInt32) (vs : List (PortId × UInt32)) (d' : Draft) :
    Prop where
  frame : d'.frame = d.frame
  entries : d'.builder.entries = d.builder.entries
  label : d'.label = d.label
  values : d'.values = vs ++ d.values
  sound : ∀ P, d.Sound P → d'.Sound (R ++ P)

namespace Draft

variable [NameLimit] {d d₁ d₂ d' : Draft} {Γ Γ₁ Γ₂ Γ' : Context I} {R R₁ R₂ : List UInt32} {c k : Code}
  {vs vs₁ vs₂ : List (PortId × UInt32)} {o o₁ o₂ : List (Output I.Value)}

omit [NameLimit] in
theorem frame_resources (h : d'.frame = d.frame) : d'.resources = d.resources := by
  show d'.frame.resources = d.frame.resources
  rw [h]

omit [NameLimit] in
/-- Code adds no names, annotations or variables. -/
theorem frame_marks (h : d'.frame = d.frame) : d'.builder.marks = d.builder.marks :=
  congrArg (·.builder.entries.toList) h

omit [NameLimit] in
/-- A draft with more entries that are no names, annotations or variables. -/
theorem frame_push {b : ModuleBuilder} {s : Section} {i : Instruction}
    (hb : b.marks = d.builder.marks) (h : ModuleBuilder.isMark (s, i) = false) :
    { d with builder := b.push s i }.frame = d.frame := by
  rw [frame, frame]
  congr 1
  show { ModuleBuilder.new .current with entries := (b.push s i).marks.toArray } = _
  rw [ModuleBuilder.marks_push_of_not _ h, hb]

omit [NameLimit] in
theorem frame_extended (h : d'.frame = d.frame) : d'.extended = d.extended := by
  show d'.frame.extended = d.frame.extended
  rw [h]

omit [NameLimit] in
/-- A draft with the same frame and more instructions has larger surroundings. -/
theorem surroundings_le (hf : d'.frame = d.frame)
    (he : d.builder.entries.toList.Sublist d'.builder.entries.toList) :
    (d.surroundings I).Le (d'.surroundings I) where
  decls := ModuleBuilder.sectionOf_subset he _
  extended := frame_extended hf
  content := by
    rintro v path a ⟨r, hr, hv⟩
    exact ⟨r, by rw [frame_resources hf]; exact hr, hv⟩

namespace Quiet

theorem frame (q : d.Quiet d') : d'.frame = d.frame := by
  rw [q.fields, Draft.frame, Draft.frame, q.marks]

theorem le (q : d.Quiet d') : (d.surroundings I).Le (d'.surroundings I) :=
  surroundings_le q.frame q.entries

theorem label (q : d.Quiet d') : d'.label = d.label := by rw [q.fields]

theorem values (q : d.Quiet d') : d'.values = d.values := by rw [q.fields]

/-- A quiet step emits no code. -/
theorem emits (q : d.Quiet d') : d.Emits Γ [] .done [] d' Γ [] where
  frame := q.frame
  entries := q.entries
  code := by rw [q.code]; simp [Code.instructions]
  label := q.label
  values := q.values
  runs := .done
  sound := q.sound

end Quiet

namespace Emits

theorem le (e : d.Emits Γ R c vs d' Γ' o) : (d.surroundings I).Le (d'.surroundings I) :=
  surroundings_le e.frame e.entries

theorem trans (e₁ : d.Emits Γ R₁ c vs₁ d₁ Γ₁ o₁) (e₂ : d₁.Emits Γ₁ R₂ k vs₂ d₂ Γ₂ o₂) :
    d.Emits Γ (R₁ ++ R₂) (c ++ k) (vs₂ ++ vs₁) d₂ Γ₂ (o₁ ++ o₂) where
  frame := e₂.frame.trans e₁.frame
  entries := List.Sublist.trans e₁.entries e₂.entries
  code := by rw [e₂.code, e₁.code, Code.instructions_append, List.append_assoc]
  label := by rw [e₂.label, e₁.label, Code.lastLabel_append]
  values := by rw [e₂.values, e₁.values, List.append_assoc]
  runs := (e₁.runs.mono e₂.le).append e₂.runs
  sound := fun P hP => e₂.sound P (e₁.sound _ (by rwa [List.append_assoc] at hP))

/-- What was known stays known. -/
theorem keeps {x : UInt32} {ty : Ty} {a : Datum I.Value} (e : d.Emits Γ R c vs d' Γ' o)
    (hk : Known (d.surroundings I) Γ x ty a) : Known (d'.surroundings I) Γ' x ty a :=
  (hk.mono e.le).weaken e.runs.subset

/-- A quiet step before a step. -/
theorem after (e : d₁.Emits Γ R c vs d' Γ' o) (q : d.Quiet d₁) : d.Emits Γ R c vs d' Γ' o := by
  have h := q.emits.trans e
  rwa [Code.done_append, List.append_nil] at h

/-- A quiet step after a step. -/
theorem before (e : d.Emits Γ R c vs d₁ Γ' o) (q : d₁.Quiet d') : d.Emits Γ R c vs d' Γ' o := by
  have h : d.Emits Γ (R ++ []) (c ++ .done) ([] ++ vs) d' Γ' (o ++ []) := e.trans q.emits
  simpa only [Code.append_done, List.append_nil, List.nil_append] using h

end Emits

namespace Reserves

theorem le (r : d.Reserves R vs d₁) : (d.surroundings I).Le (d₁.surroundings I) :=
  surroundings_le r.frame (by rw [r.entries])

/-- What defines reserved identifiers, after they were reserved. -/
theorem emits (r : d.Reserves R₁ vs₁ d₁) (e : d₁.Emits Γ (R₁ ++ R₂) c vs₂ d' Γ' o) :
    d.Emits Γ R₂ c (vs₂ ++ vs₁) d' Γ' o where
  frame := e.frame.trans r.frame
  entries := by rw [← r.entries]; exact e.entries
  code := by
    rw [e.code]
    show d₁.builder.sectionOf _ ++ _ = d.builder.sectionOf _ ++ _
    rw [ModuleBuilder.sectionOf, r.entries, ModuleBuilder.sectionOf]
  label := by rw [e.label, r.label]
  values := by rw [e.values, r.values, List.append_assoc]
  runs := e.runs
  sound := fun P hP => e.sound P (by rw [List.append_assoc]; exact r.sound _ hP)

end Reserves

end Draft

/-! ### Single instructions -/

namespace Spirv

variable {s : Surroundings I} {Γ : Context I} {op : Opcode} {t x set f : UInt32} {ty : Ty}
  {args lits : List UInt32} {vals : List (Ty × I.Value)}

theorem resultType_of_typed (h : op.hasType = true) :
    (⟨op, t :: x :: args⟩ : Instruction).resultType = t := by
  simp [Instruction.resultType, h]

theorem result_of_typed (h : op.hasType = true ∧ op.hasResult = true) :
    (⟨op, t :: x :: args⟩ : Instruction).result = x := by
  simp [Instruction.result, h.1, h.2]

theorem result?_of_typed (h : op.hasType = true ∧ op.hasResult = true) :
    (⟨op, t :: x :: args⟩ : Instruction).result? = some x := by
  rw [Instruction.result?, if_pos h.2, result_of_typed h]

theorem args_of_typed (h : op.hasType = true ∧ op.hasResult = true) :
    (⟨op, t :: x :: args⟩ : Instruction).args = args := by
  simp [Instruction.args, Instruction.resultCount, h.1, h.2]

/-- An instruction all of whose arguments are values. -/
theorem Step.ofValues (hl : op.layout = .values 0) (he : op ≠ .extInst)
    (ht : TypeAt s.decls t ty) (ha : Operands s Γ args vals)
    (hs : Signature op [] (vals.map (·.1)) ty) :
    Step s Γ ⟨op, t :: x :: args⟩
      ((x, ty, .value (I.apply op [] ty (vals.map (·.2)))) :: Γ) [] := by
  have hv : (⟨op, t :: x :: args⟩ : Instruction).values = args := by
    rw [Instruction.values, hl, args_of_typed hs.typed]
    rfl
  have hlit : (⟨op, t :: x :: args⟩ : Instruction).literals = [] := by
    rw [Instruction.literals, hl]
  have h : Step s Γ ⟨op, t :: x :: args⟩ ((Instruction.result ⟨op, t :: x :: args⟩, ty,
      .value (I.apply op (Instruction.literals ⟨op, t :: x :: args⟩) ty (vals.map (·.2)))) :: Γ)
      [] := .apply (by simp) (by rw [resultType_of_typed hs.typed.1]; exact ht)
        (fun h => absurd h he) (by rw [hv]; exact ha) (by rw [hlit]; exact hs)
  rwa [result_of_typed hs.typed, hlit] at h

/-- An instruction whose values come first and literals after them. -/
theorem Step.ofLeading (hl : op.layout = .leading args.length) (he : op ≠ .extInst)
    (ht : TypeAt s.decls t ty) (ha : Operands s Γ args vals)
    (hs : Signature op lits (vals.map (·.1)) ty) :
    Step s Γ ⟨op, t :: x :: args ++ lits⟩
      ((x, ty, .value (I.apply op lits ty (vals.map (·.2)))) :: Γ) [] := by
  have hv : (⟨op, t :: x :: (args ++ lits)⟩ : Instruction).values = args := by
    rw [Instruction.values, hl, args_of_typed hs.typed]
    simp
  have hlit : (⟨op, t :: x :: (args ++ lits)⟩ : Instruction).literals = lits := by
    rw [Instruction.literals, hl, args_of_typed hs.typed]
    simp
  have h : Step s Γ ⟨op, t :: x :: (args ++ lits)⟩
      ((Instruction.result ⟨op, t :: x :: (args ++ lits)⟩, ty,
        .value (I.apply op (Instruction.literals ⟨op, t :: x :: (args ++ lits)⟩) ty
          (vals.map (·.2)))) :: Γ) [] :=
    .apply (by simp) (by rw [resultType_of_typed hs.typed.1]; exact ht)
      (fun h => absurd h he) (by rw [hv]; exact ha) (by rw [hlit]; exact hs)
  rwa [result_of_typed hs.typed, hlit] at h

/-- A sample of an image at a coordinate; a mask may follow, and the values it asks for. -/
theorem Step.ofSampling {y z : UInt32} {rest : List UInt32} (hl : op.layout = .sampling)
    (he : op ≠ .extInst) (ht : TypeAt s.decls t ty) (ha : Operands s Γ (y :: z :: rest.drop 1) vals)
    (hs : Signature op (rest.take 1) (vals.map (·.1)) ty) :
    Step s Γ ⟨op, t :: x :: y :: z :: rest⟩
      ((x, ty, .value (I.apply op (rest.take 1) ty (vals.map (·.2)))) :: Γ) [] := by
  have hv : (⟨op, t :: x :: y :: z :: rest⟩ : Instruction).values = y :: z :: rest.drop 1 := by
    rw [Instruction.values, hl, args_of_typed hs.typed]
    rfl
  have hlit : (⟨op, t :: x :: y :: z :: rest⟩ : Instruction).literals = rest.take 1 := by
    rw [Instruction.literals, hl, args_of_typed hs.typed]
    rfl
  have h : Step s Γ ⟨op, t :: x :: y :: z :: rest⟩
      ((Instruction.result ⟨op, t :: x :: y :: z :: rest⟩, ty,
        .value (I.apply op (Instruction.literals ⟨op, t :: x :: y :: z :: rest⟩) ty
          (vals.map (·.2)))) :: Γ) [] :=
    .apply (by simp) (by rw [resultType_of_typed hs.typed.1]; exact ht)
      (fun h => absurd h he) (by rw [hv]; exact ha) (by rw [hlit]; exact hs)
  rwa [result_of_typed hs.typed, hlit] at h

/-- A function of the extended instruction set. -/
theorem Step.ofExtended (ht : TypeAt s.decls t ty) (ha : Operands s Γ args vals)
    (hs : Signature .extInst [f] (vals.map (·.1)) ty) :
    Step s Γ ⟨.extInst, t :: x :: s.extended :: f :: args⟩
      ((x, ty, .value (I.apply .extInst [f] ty (vals.map (·.2)))) :: Γ) [] := by
  have h : Step s Γ ⟨.extInst, t :: x :: s.extended :: f :: args⟩
      ((Instruction.result ⟨.extInst, t :: x :: s.extended :: f :: args⟩, ty,
        .value (I.apply .extInst
          (Instruction.literals ⟨.extInst, t :: x :: s.extended :: f :: args⟩) ty
          (vals.map (·.2)))) :: Γ) [] := .apply (by simp) ht (fun _ => rfl) ha hs
  exact h

end Spirv

namespace Drafting

variable [NameLimit] {d d' : Draft} {Γ Γ' : Context I} {x : UInt32} {u : Unit} {o : List (Output I.Value)}

/-- Adding an instruction to the function. -/
theorem add_spec {op : Opcode} {operands : List UInt32}
    (hstep : Step (d.surroundings I) Γ ⟨op, operands⟩ Γ' o)
    (h : Draws (assemble (Assemble.add .functions op operands)) d u d') :
    d.Emits Γ (⟨op, operands⟩ : Instruction).result?.toList (.single ⟨op, operands⟩) [] d' Γ' o := by
  rw [draws_assemble] at h
  obtain ⟨-, rfl⟩ := h
  have hsub := ModuleBuilder.push_sublist d.builder .functions ⟨op, operands⟩
  refine ⟨Draft.frame_push rfl rfl, hsub, ModuleBuilder.sectionOf_push_self d.builder _ _, rfl, rfl,
    ?_, ?_⟩
  · have hle : (d.surroundings I).Le
        ({ d with builder := d.builder.push .functions ⟨op, operands⟩ }.surroundings I) :=
      Draft.surroundings_le (Draft.frame_push rfl rfl) hsub
    exact (Runs.plain (hstep.mono hle) .done : Runs _ Γ (.single _) Γ' (o ++ [])) |> fun h => by
      rwa [List.append_nil] at h
  · intro P hP
    cases hr : (⟨op, operands⟩ : Instruction).result? with
    | none =>
      rw [hr] at hP
      exact ModuleBuilder.sound_push hP hr (fun h => absurd rfl h)
    | some x =>
      rw [hr] at hP
      exact ModuleBuilder.sound_pushResult hP hr (fun h => absurd rfl h)

theorem allocId_spec (h : Draws (assemble Assemble.allocId) d x d') : d.Reserves [x] [] d' := by
  rw [draws_assemble] at h
  obtain ⟨rfl, rfl⟩ := h
  exact ⟨rfl, rfl, rfl, rfl, fun P hP => ModuleBuilder.sound_alloc hP⟩

/-- Recording where a result comes from changes nothing else. -/
theorem credit_spec {i : Nat} (h : Draws (credit i x) d u d') : d.Emits Γ [] .done [] d' Γ [] := by
  rw [credit, draws_modify] at h
  subst h
  exact ⟨rfl, List.Sublist.refl _, by simp [Code.instructions], rfl, rfl, .done, fun P hP => hP⟩

/-- An instruction for an identifier reserved before. -/
theorem opWithId_spec {op : Opcode} {t : UInt32} {args : List UInt32}
    (hop : op.hasType = true ∧ op.hasResult = true)
    (hstep : Step (d.surroundings I) Γ ⟨op, t :: x :: args⟩ Γ' o)
    (h : Draws (assemble (Assemble.opWithId op t x args)) d u d') :
    d.Emits Γ [x] (.single ⟨op, t :: x :: args⟩) [] d' Γ' o := by
  have e := add_spec hstep h
  rwa [result?_of_typed hop] at e

/-- **An instruction with a new result.** -/
theorem op_spec {op : Opcode} {t : UInt32} {args : List UInt32} {G : UInt32 → Context I}
    (hop : op.hasType = true ∧ op.hasResult = true)
    (hstep : ∀ y, Step (d.surroundings I) Γ ⟨op, t :: y :: args⟩ (G y) o)
    (h : Draws (assemble (Assemble.op op t args)) d x d') :
    d.Emits Γ [] (.single ⟨op, t :: x :: args⟩) [] d' (G x) o := by
  rw [Assemble.op, assemble_bind] at h
  obtain ⟨y, d₁, hy, h⟩ := draws_bind.1 h
  rw [assemble_bind] at h
  obtain ⟨_, d₂, he, h⟩ := draws_bind.1 h
  rw [assemble_pure, draws_pure] at h
  obtain ⟨rfl, rfl⟩ := h
  have r := allocId_spec hy
  exact r.emits (opWithId_spec hop ((hstep x).mono r.le) he)

theorem emit_spec {i : Nat} {op : Opcode} {t : UInt32} {args : List UInt32} {G : UInt32 → Context I}
    (hop : op.hasType = true ∧ op.hasResult = true)
    (hstep : ∀ y, Step (d.surroundings I) Γ ⟨op, t :: y :: args⟩ (G y) o)
    (h : Draws (emit i op t args) d x d') :
    d.Emits Γ [] (.single ⟨op, t :: x :: args⟩) [] d' (G x) o := by
  rw [emit] at h
  obtain ⟨y, d₁, hy, h⟩ := draws_bind.1 h
  obtain ⟨_, d₂, hc, h⟩ := draws_bind.1 h
  rw [draws_pure] at h
  obtain ⟨rfl, rfl⟩ := h
  have e := (op_spec hop hstep hy).trans (credit_spec hc)
  simpa only [Code.append_done, List.append_nil] using e

/-- Reserving an identifier for an output port that has none. -/
theorem resultId_fresh {out : PortId} (hnew : d.values.lookup out = none)
    (h : Draws (resultId out) d x d') : d.Reserves [x] [(out, x)] d' := by
  rw [resultId] at h
  rw [draws_get_bind] at h
  simp only [hnew] at h
  obtain ⟨y, d₂, hy, h⟩ := draws_bind.1 h
  obtain ⟨_, d₃, hm, h⟩ := draws_bind.1 h
  rw [draws_modify] at hm
  rw [draws_pure] at h
  obtain ⟨rfl, rfl⟩ := h
  subst hm
  have r := allocId_spec hy
  exact ⟨r.frame, r.entries, r.label, by rw [r.values]; rfl, r.sound⟩

omit [NameLimit] in
/-- The identifier of an output port that has one. -/
theorem resultId_found {out : PortId} {y : UInt32} (hold : d.values.lookup out = some y)
    (h : Draws (resultId out) d x d') : x = y ∧ d' = d := by
  rw [resultId] at h
  rw [draws_get_bind] at h
  simp only [hold] at h
  rwa [draws_pure] at h

/-- **The instruction of an output port.** -/
theorem define_spec {i : Nat} {out : PortId} {op : Opcode} {t : UInt32} {args : List UInt32}
    {G : UInt32 → Context I} (hnew : d.values.lookup out = none)
    (hop : op.hasType = true ∧ op.hasResult = true)
    (hstep : ∀ y, Step (d.surroundings I) Γ ⟨op, t :: y :: args⟩ (G y) o)
    (h : Draws (define i out op t args) d u d') :
    ∃ y, d.Emits Γ [] (.single ⟨op, t :: y :: args⟩) [(out, y)] d' (G y) o := by
  rw [define] at h
  obtain ⟨y, d₁, hy, h⟩ := draws_bind.1 h
  obtain ⟨_, d₂, he, h⟩ := draws_bind.1 h
  have r := resultId_fresh hnew hy
  have e := (opWithId_spec hop ((hstep y).mono r.le) he).trans (credit_spec h)
  simp only [Code.append_done, List.append_nil] at e
  exact ⟨y, r.emits e⟩

/-- An output port takes a value that exists. -/
theorem bind_spec {n : Node} {out : PortId} (hnew : d.values.lookup out = none)
    (h : Draws (Drafting.bind n out x) d u d') : d.Emits Γ [] .done [(out, x)] d' Γ [] := by
  rw [Drafting.bind] at h
  rw [draws_get_bind] at h
  simp only [hnew] at h
  rw [draws_modify] at h
  subst h
  exact ⟨rfl, List.Sublist.refl _, by simp [Code.instructions], rfl, rfl, .done, fun P hP => hP⟩

end Drafting

end NodeShader
