import NodeShader.Proofs.Spirv.Building

/-!
# Calls of a builder

A program that builds a module is the list of its calls: what it does between them only chooses their
arguments, and those may be any identifiers.  `Call.run_eq` says what a single call does to a builder:
what was asked for before is answered from what the builder keeps, and all else is new.

What a whole run leaves behind is told by its history, the calls with their answers:

* `History.appended`: the instructions that were added, one for each call that asks for one and
  repeats no earlier call.  A memory model is replaced by a later one.
* `History.handedOut`: the identifiers that were handed out.

`History.Leads.runs` is the law of runs: from an empty module on, the builder holds exactly what the
history says.
-/

namespace NodeShader.Spirv

/-! ### Declarations -/

/-- A type or constant that is declared once, by what it is asked for with. -/
inductive Declaration where
  | typeVoid
  | typeBool
  | typeInt (width : UInt32) (signed : Bool)
  | typeFloat (width : UInt32)
  | typeVector (component count : UInt32)
  | typeMatrix (column columns : UInt32)
  | typeImage (sampledType dim sampled format : UInt32)
  | typeSampler
  | typeSampledImage (image : UInt32)
  | typePointer (storage pointee : UInt32)
  | typeFunction (result : UInt32) (params : List UInt32)
  | constant (type : UInt32) (literal : List UInt32)
  | constantSingle (type : UInt32) (value : Float)
  | constantHalf (type : UInt32) (value : Float)
  | constantBool (type : UInt32) (value : Bool)
  | constantComposite (type : UInt32) (parts : List UInt32)
  | constantNull (type : UInt32)

namespace Declaration

def run : Declaration → Assemble UInt32
  | typeVoid => Assemble.typeVoid
  | typeBool => Assemble.typeBool
  | typeInt width signed => Assemble.typeInt width signed
  | typeFloat width => Assemble.typeFloat width
  | typeVector component count => Assemble.typeVector component count
  | typeMatrix column columns => Assemble.typeMatrix column columns
  | typeImage sampledType dim sampled format => Assemble.typeImage sampledType dim sampled format
  | typeSampler => Assemble.typeSampler
  | typeSampledImage image => Assemble.typeSampledImage image
  | typePointer storage pointee => Assemble.typePointer storage pointee
  | typeFunction result params => Assemble.typeFunction result params
  | constant type literal => Assemble.constant type literal
  | constantSingle type value => Assemble.constantSingle type value
  | constantHalf type value => Assemble.constantHalf type value
  | constantBool type value => Assemble.constantBool type value
  | constantComposite type parts => Assemble.constantComposite type parts
  | constantNull type => Assemble.constantNull type

def opcode : Declaration → Opcode
  | typeVoid => .typeVoid
  | typeBool => .typeBool
  | typeInt .. => .typeInt
  | typeFloat _ => .typeFloat
  | typeVector .. => .typeVector
  | typeMatrix .. => .typeMatrix
  | typeImage .. => .typeImage
  | typeSampler => .typeSampler
  | typeSampledImage _ => .typeSampledImage
  | typePointer .. => .typePointer
  | typeFunction .. => .typeFunction
  | constant .. | constantSingle .. | constantHalf .. => .constant
  | constantBool _ value => if value then .constantTrue else .constantFalse
  | constantComposite .. => .constantComposite
  | constantNull _ => .constantNull

/-- The operands, less the identifier of the result. -/
def operands : Declaration → List UInt32
  | typeVoid | typeBool | typeSampler => []
  | typeInt width signed => [width, if signed then 1 else 0]
  | typeFloat width => [width]
  | typeVector component count => [component, count]
  | typeMatrix column columns => [column, columns]
  | typeImage sampledType dim sampled format => [sampledType, dim, 0, 0, 0, sampled, format]
  | typeSampledImage image => [image]
  | typePointer storage pointee => [storage, pointee]
  | typeFunction result params => result :: params
  | constant type literal => type :: literal
  | constantSingle type value => [type, singleBits value]
  | constantHalf type value => [type, halfBits (floatOfSingle (singleBits value))]
  | constantBool type _ => [type]
  | constantComposite type parts => type :: parts
  | constantNull type => [type]

/-- The identifiers among the operands. -/
def references : Declaration → List UInt32
  | typeVoid | typeBool | typeInt .. | typeFloat _ | typeSampler => []
  | typeVector component _ => [component]
  | typeMatrix column _ => [column]
  | typeImage sampledType .. => [sampledType]
  | typeSampledImage image => [image]
  | typePointer _ pointee => [pointee]
  | typeFunction result params => result :: params
  | constant type _ | constantSingle type _ | constantHalf type _ => [type]
  | constantBool type _ => [type]
  | constantComposite type parts => type :: parts
  | constantNull type => [type]

/-- The declaring instruction. -/
def instruction (d : Declaration) (x : UInt32) : Instruction :=
  ModuleBuilder.declaration d.opcode d.operands x

/-- The opcodes of declarations. -/
def opcodes : List Opcode :=
  [.typeVoid, .typeBool, .typeInt, .typeFloat, .typeVector, .typeMatrix, .typeImage, .typeSampler,
    .typeSampledImage, .typePointer, .typeFunction, .constant, .constantTrue, .constantFalse,
    .constantComposite, .constantNull]

theorem opcode_mem (d : Declaration) : d.opcode ∈ opcodes := by
  cases d with
  | constantBool type value => cases value <;> simp [opcode, opcodes]
  | _ => simp [opcode, opcodes]

theorem run_eq (d : Declaration) :
    d.run = Assemble.declare d.opcode (if d.opcode.hasType then 1 else 0) d.operands := by
  cases d with
  | constantBool type value => cases value <;> rfl
  | _ => rfl

theorem result_instruction (d : Declaration) (x : UInt32) : (d.instruction x).result? = some x := by
  cases d with
  | constantBool type value => cases value <;> rfl
  | _ => rfl

theorem reads_instruction (d : Declaration) (x : UInt32) : (d.instruction x).reads = d.references := by
  cases d with
  | constantBool type value => cases value <;> rfl
  | _ => rfl

end Declaration

/-! ### Calls -/

/-- What is asked for once only. -/
inductive Key where
  | capability (c : UInt32)
  | importSet (name : String)
  | declaration (op : Opcode) (operands : List UInt32)
  deriving DecidableEq

def Declaration.key (d : Declaration) : Key := .declaration d.opcode d.operands

/-- A call of a builder. -/
inductive Call where
  | allocId
  | bound
  | capability (c : UInt32)
  | extension (name : String)
  | importSet (name : String)
  | memoryModel (addressing model : UInt32)
  | entryPoint (model function : UInt32) (name : String) (interface : List UInt32)
  | executionMode (function mode : UInt32) (params : List UInt32)
  | name (id : UInt32) (name : String)
  | memberName (struct member : UInt32) (name : String)
  | decorate (id decoration : UInt32) (params : List UInt32)
  | memberDecorate (struct member decoration : UInt32) (params : List UInt32)
  | declare (d : Declaration)
  | typeStruct (members : List UInt32)
  | globalVariable (pointer storage : UInt32)
  | function (id result type : UInt32)
  | functionEnd
  | label (id : UInt32)
  | opWithId (op : Opcode) (type id : UInt32) (args : List UInt32)
  | op (op : Opcode) (type : UInt32) (args : List UInt32)
  | void (op : Opcode) (args : List UInt32)
  | extended (type set instruction : UInt32) (args : List UInt32)

namespace Call

/-- Makes the call. A call that returns nothing answers 0. -/
def run : Call → Assemble UInt32
  | allocId => Assemble.allocId
  | bound => Assemble.bound
  | capability c => do Assemble.capability c; return 0
  | extension text => do Assemble.extension text; return 0
  | importSet text => Assemble.importSet text
  | memoryModel addressing model => do Assemble.memoryModel addressing model; return 0
  | entryPoint model f text interface => do Assemble.entryPoint model f text interface; return 0
  | executionMode f mode params => do Assemble.executionMode f mode params; return 0
  | name id text => do Assemble.name id text; return 0
  | memberName struct member text => do Assemble.memberName struct member text; return 0
  | decorate id decoration params => do Assemble.decorate id decoration params; return 0
  | memberDecorate struct member decoration params => do
    Assemble.memberDecorate struct member decoration params; return 0
  | declare d => d.run
  | typeStruct members => Assemble.typeStruct members
  | globalVariable pointer storage => Assemble.globalVariable pointer storage
  | function id result type => do Assemble.function id result type; return 0
  | functionEnd => do Assemble.functionEnd; return 0
  | label id => do Assemble.label id; return 0
  | opWithId o type id args => do Assemble.opWithId o type id args; return 0
  | op o type args => Assemble.op o type args
  | void o args => do Assemble.void o args; return 0
  | extended type set instruction args => Assemble.extended type set instruction args

/-- Whether the call answers an identifier. -/
def allocates : Call → Bool
  | allocId | importSet _ | declare _ | typeStruct _ | globalVariable .. | op .. | extended .. => true
  | _ => false

/-- What a call asks for that there is once only. -/
def key? : Call → Option Key
  | capability c => some (.capability c)
  | importSet text => some (.importSet text)
  | declare d => some d.key
  | _ => none

/-- Whether the call sets the memory model, of which there is one. -/
def setsModel : Call → Bool
  | memoryModel .. => true
  | _ => false

/-- The instruction a call asks for, with its answer, and where it stands. -/
def added? (x : UInt32) : Call → Option (Section × Instruction)
  | allocId | bound => none
  | capability c => some (.capabilities, ⟨.capability, [c]⟩)
  | extension text => some (.extensions, ⟨.extension, nameWords (Text.bytes text)⟩)
  | importSet text => some (.imports, ⟨.extInstImport, x :: nameWords (Text.bytes text)⟩)
  | memoryModel addressing model => some (.memoryModel, ⟨.memoryModel, [addressing, model]⟩)
  | entryPoint model f text interface => some (.entryPoints,
      ⟨.entryPoint, model :: f :: nameWords (Text.bytes text) ++ interface⟩)
  | executionMode f mode params => some (.executionModes, ⟨.executionMode, f :: mode :: params⟩)
  | name id text => some (.debug, ⟨.debugName, id :: nameWords (Text.bytes text)⟩)
  | memberName struct member text =>
    some (.debug, ⟨.memberName, struct :: member :: nameWords (Text.bytes text)⟩)
  | decorate id decoration params => some (.annotations, ⟨.decorate, id :: decoration :: params⟩)
  | memberDecorate struct member decoration params =>
    some (.annotations, ⟨.memberDecorate, struct :: member :: decoration :: params⟩)
  | declare d => some (.types, d.instruction x)
  | typeStruct members => some (.types, ⟨.typeStruct, x :: members⟩)
  | globalVariable pointer storage => some (.types, ⟨.variableDecl, [pointer, x, storage]⟩)
  | function id result type => some (.functions, ⟨.function, [result, id, 0, type]⟩)
  | functionEnd => some (.functions, ⟨.functionEnd, []⟩)
  | label id => some (.functions, ⟨.label, [id]⟩)
  | opWithId o type id args => some (.functions, ⟨o, type :: id :: args⟩)
  | op o type args => some (.functions, ⟨o, type :: x :: args⟩)
  | void o args => some (.functions, ⟨o, args⟩)
  | extended type set instruction args =>
    some (.functions, ⟨.extInst, type :: x :: set :: instruction :: args⟩)

end Call

namespace ModuleBuilder

/-- The answer to what was asked for before. -/
def kept? (b : ModuleBuilder) : Key → Option UInt32
  | .capability c =>
    if (b.sectionOf .capabilities).any (·.operands.head? == some c) then some 0 else none
  | .importSet name => b.imported.lookup name
  | .declaration op operands => b.declared.lookup (op, operands)

/-- The builder after an answer to what is asked for once; a capability is found in its section. -/
def keep (b : ModuleBuilder) (x : UInt32) : Option Key → ModuleBuilder
  | some (.importSet name) => { b with imported := (name, x) :: b.imported }
  | some (.declaration op operands) => { b with declared := ((op, operands), x) :: b.declared }
  | _ => b

/-- The answer to a call that asks for something new. -/
def answer (b : ModuleBuilder) (c : Call) : UInt32 :=
  match c with
  | .bound => b.nextId.toUInt32
  | _ => if c.allocates then b.nextId.toUInt32 else 0

theorem answer_of_allocates (b : ModuleBuilder) {c : Call} (h : c.allocates) :
    b.answer c = b.nextId.toUInt32 := by
  cases c <;> first | rfl | cases h

/-- The builder after a call that asks for something new. -/
def performing (b : ModuleBuilder) (c : Call) : ModuleBuilder :=
  let kept := if c.setsModel then b.entries.filter (·.1 != .memoryModel) else b.entries
  keep { b with
    nextId := if c.allocates then b.nextId + 1 else b.nextId
    entries := kept ++ (c.added? (b.answer c)).toList } (b.answer c) c.key?

end ModuleBuilder

variable {b : ModuleBuilder} {c : Call}

/-- **Making a call**: what is there already is answered, all else is new. -/
theorem Call.run_eq (c : Call) (b : ModuleBuilder) :
    c.run.run b =
      match c.key?.bind b.kept? with
      | some x => (x, b)
      | none => (b.answer c, b.performing c) := by
  cases c with
  | declare d =>
    show d.run.run b = _
    rw [Declaration.run_eq, Assemble.run_declare]
    cases h : b.declared.lookup (d.opcode, d.operands) with
    | some id => simp [key?, Declaration.key, ModuleBuilder.kept?, h]
    | none =>
      simp [key?, Declaration.key, ModuleBuilder.kept?, h, ModuleBuilder.performing, added?,
        ModuleBuilder.keep, ModuleBuilder.answer, allocates, setsModel, ModuleBuilder.push,
        Declaration.instruction, ModuleBuilder.declaration]
  | importSet text =>
    simp only [run, Assemble.importSet, StateT.run_bind]
    cases h : b.imported.lookup text with
    | some id =>
      simp [h, key?, ModuleBuilder.kept?]
      rfl
    | none =>
      simp [h, key?, ModuleBuilder.kept?, ModuleBuilder.performing, added?, ModuleBuilder.keep,
        ModuleBuilder.answer, allocates, setsModel]
      rfl
  | capability w =>
    show (((if (b.sectionOf .capabilities).any (·.operands.head? == some w) then pure ()
        else Assemble.add .capabilities .capability [w] : Assemble Unit) >>= fun _ => pure 0).run b) =
      match if (b.sectionOf .capabilities).any (·.operands.head? == some w) then some 0 else none with
      | some x => (x, b)
      | none => (b.answer (.capability w), b.performing (.capability w))
    generalize (b.sectionOf .capabilities).any (·.operands.head? == some w) = present
    cases present with
    | true => rfl
    | false =>
      simp [ModuleBuilder.performing, added?, key?, ModuleBuilder.keep, ModuleBuilder.answer, allocates,
        setsModel]
      rfl
  | _ =>
    simp [key?, ModuleBuilder.performing, added?, ModuleBuilder.keep, ModuleBuilder.answer, allocates,
      setsModel]
    rfl

namespace ModuleBuilder

@[simp] theorem keep_version (b : ModuleBuilder) (x : UInt32) (k : Option Key) :
    (b.keep x k).version = b.version := by
  unfold keep
  split <;> rfl

@[simp] theorem keep_nextId (b : ModuleBuilder) (x : UInt32) (k : Option Key) :
    (b.keep x k).nextId = b.nextId := by
  unfold keep
  split <;> rfl

@[simp] theorem keep_entries (b : ModuleBuilder) (x : UInt32) (k : Option Key) :
    (b.keep x k).entries = b.entries := by
  unfold keep
  split <;> rfl

@[simp] theorem performing_version (b : ModuleBuilder) (c : Call) :
    (b.performing c).version = b.version := keep_version ..

theorem performing_nextId (b : ModuleBuilder) (c : Call) :
    (b.performing c).nextId = if c.allocates then b.nextId + 1 else b.nextId := keep_nextId ..

theorem performing_entries (b : ModuleBuilder) (c : Call) :
    (b.performing c).entries.toList =
      (if c.setsModel then b.entries.toList.filter (·.1 != .memoryModel) else b.entries.toList)
        ++ (c.added? (b.answer c)).toList := by
  rw [performing, keep_entries, Array.toList_appendList]
  split <;> simp

end ModuleBuilder

theorem Call.setsModel_iff {x : UInt32} {e : Section × Instruction} (h : c.added? x = some e) :
    c.setsModel = (e.1 == .memoryModel) := by
  cases c <;> cases h <;> rfl

/-- **A section after a call** that asks for something new. -/
theorem ModuleBuilder.sectionOf_performing (b : ModuleBuilder) (c : Call) {s : Section}
    (hs : s ≠ .memoryModel) :
    (b.performing c).sectionOf s =
      b.sectionOf s ++ ((c.added? (b.answer c)).toList.filter (·.1 == s)).map (·.2) := by
  have hfilter : (b.entries.toList.filter (·.1 != .memoryModel)).filter (·.1 == s) =
      b.entries.toList.filter (·.1 == s) := by
    rw [List.filter_filter]
    refine List.filter_congr fun e _ => ?_
    by_cases he : e.1 = s
    · simp [he, hs]
    · simp [he]
  rw [sectionOf, performing_entries, List.filter_append, List.map_append, sectionOf]
  split
  · rw [hfilter]
  · rfl

/-- A capability is asked for by name only. -/
theorem Call.capability_of_added {x : UInt32} {i : Instruction}
    (h : c.added? x = some (.capabilities, i)) : ∃ w, c = .capability w ∧ i = ⟨.capability, [w]⟩ := by
  cases c <;> cases h
  exact ⟨_, rfl, rfl⟩

/-- **What is known to have been asked for** after a call that asks for something new. -/
theorem ModuleBuilder.kept?_performing (b : ModuleBuilder) (c : Call) (k : Key) :
    (b.performing c).kept? k = if c.key? = some k then some (b.answer c) else b.kept? k := by
  cases k with
  | capability w =>
    have hsection := sectionOf_performing b c (s := .capabilities) (by decide)
    rw [kept?, hsection, List.any_append, kept?]
    by_cases hc : ∃ w', c = .capability w'
    · obtain ⟨w', rfl⟩ := hc
      by_cases hw : w' = w
      · simp [Call.added?, Call.key?, hw, answer, Call.allocates]
      · simp [Call.added?, Call.key?, hw]
    · have hnone : ((c.added? (b.answer c)).toList.filter (·.1 == .capabilities)) = [] := by
        rw [List.filter_eq_nil_iff]
        rintro ⟨s, i⟩ he hs
        obtain rfl : s = .capabilities := by simpa using hs
        obtain ⟨w', rfl, -⟩ := Call.capability_of_added (Option.mem_toList.1 he)
        exact hc ⟨w', rfl⟩
      have hkey : c.key? ≠ some (.capability w) := by
        intro hkey
        cases c <;> cases hkey
        exact hc ⟨_, rfl⟩
      simp [hnone, hkey]
  | importSet text =>
    rw [performing]
    rcases c.key? with _ | _ | text' | _
    case some.importSet =>
      by_cases h : text' = text
      · simp [keep, kept?, h]
      · simp [keep, kept?, h, List.lookup_cons, beq_eq_false_iff_ne.2 (Ne.symm h)]
    all_goals simp [keep, kept?]
  | declaration op operands =>
    rw [performing]
    rcases c.key? with _ | _ | _ | ⟨op', operands'⟩
    case some.declaration =>
      by_cases h : (op', operands') = (op, operands)
      · simp [keep, kept?, Prod.mk.inj h]
      · have hne : ¬ (op' = op ∧ operands' = operands) := fun h' => h (by rw [h'.1, h'.2])
        simp [keep, kept?, hne, List.lookup_cons, beq_eq_false_iff_ne.2 (Ne.symm h)]
    all_goals simp [keep, kept?]

/-- What is asked for tells whether an identifier is answered. -/
theorem Call.allocates_of_key {c c' : Call} {k : Key} (h : c.key? = some k) (h' : c'.key? = some k) :
    c.allocates = c'.allocates := by
  rw [← h'] at h
  cases c <;> cases c' <;> simp [key?, Declaration.key] at h h' <;> rfl

/-! ### Histories -/

/-- Calls that were made, with their answers, the first one in front. -/
abbrev History := List (Call × UInt32)

/-- Whether a call asks for the same as another, of which there is one only. -/
def Call.repeats (c c' : Call) : Bool := c.key?.isSome && c.key? == c'.key?

namespace History

/-- The calls that repeat no earlier one. -/
def firsts : History → History
  | [] => []
  | e :: rest => e :: (firsts rest).filter fun e' => !e'.1.repeats e.1

/-- All but the memory models that are set again. -/
def settled : History → History
  | [] => []
  | e :: rest =>
    if e.1.setsModel && rest.any (·.1.setsModel) then settled rest else e :: settled rest

/-- **The instructions that calls add**, in the order of the calls. -/
def appended (h : History) : List (Section × Instruction) :=
  h.firsts.settled.filterMap fun e => e.1.added? e.2

/-- **The identifiers that calls hand out**, in the order of the calls. -/
def handedOut (h : History) : List UInt32 := (h.firsts.filter (·.1.allocates)).map (·.2)

variable {h : History} {e : Call × UInt32}

theorem firsts_append (hr : h.any (e.1.repeats ·.1) = false) : firsts (h ++ [e]) = firsts h ++ [e] := by
  induction h with
  | nil => rfl
  | cons a h ih =>
    rw [List.any_cons, Bool.or_eq_false_iff] at hr
    rw [List.cons_append, firsts, firsts, ih hr.2, List.filter_append]
    simp [hr.1]

theorem firsts_append_of_repeats (hr : h.any (e.1.repeats ·.1) = true) :
    firsts (h ++ [e]) = firsts h := by
  induction h with
  | nil => cases hr
  | cons a h ih =>
    rw [List.cons_append, firsts, firsts]
    cases hrest : h.any (e.1.repeats ·.1) with
    | true => rw [ih hrest]
    | false =>
      have ha : e.1.repeats a.1 = true := by simpa [hrest] using hr
      rw [firsts_append hrest, List.filter_append]
      simp [ha]

theorem settled_append (h : History) (e : Call × UInt32) :
    settled (h ++ [e]) = (if e.1.setsModel then h.filter (!·.1.setsModel) else settled h) ++ [e] := by
  induction h with
  | nil => cases he : e.1.setsModel <;> simp [settled, he]
  | cons a h ih =>
    rw [List.cons_append, settled, settled, ih, List.any_append]
    cases he : e.1.setsModel <;> cases ha : a.1.setsModel <;>
      cases hh : h.any (·.1.setsModel) <;> simp [he, ha]

theorem settled_filter (h : History) :
    (settled h).filter (!·.1.setsModel) = h.filter (!·.1.setsModel) := by
  induction h with
  | nil => rfl
  | cons a h ih =>
    rw [settled]
    cases ha : a.1.setsModel <;> cases hh : h.any (·.1.setsModel) <;> simp [ha, ih]

/-- A memory model takes the place of an earlier one. -/
theorem appended_append (hr : h.any (e.1.repeats ·.1) = false) :
    appended (h ++ [e]) =
      (if e.1.setsModel then (appended h).filter (·.1 != .memoryModel) else appended h)
        ++ (e.1.added? e.2).toList := by
  have hfilter : (appended h).filter (·.1 != .memoryModel) =
      (h.firsts.filter (!·.1.setsModel)).filterMap fun e => e.1.added? e.2 := by
    rw [appended, List.filter_filterMap, ← settled_filter, List.filterMap_filter]
    refine List.filterMap_congr fun e _ => ?_
    cases he : e.1.added? e.2 with
    | none => simp
    | some i => cases hi : i.1 == .memoryModel <;> simp [Call.setsModel_iff he, bne, hi, Option.filter]
  rw [appended, firsts_append hr, settled_append, List.filterMap_append]
  congr 1
  split
  · rw [hfilter]
  · rfl

theorem appended_append_of_repeats (hr : h.any (e.1.repeats ·.1) = true) :
    appended (h ++ [e]) = appended h := by
  rw [appended, firsts_append_of_repeats hr, appended]

theorem handedOut_append (hr : h.any (e.1.repeats ·.1) = false) :
    handedOut (h ++ [e]) = handedOut h ++ if e.1.allocates then [e.2] else [] := by
  rw [handedOut, firsts_append hr, List.filter_append, List.map_append, handedOut]
  cases he : e.1.allocates <;> simp [he]

theorem handedOut_append_of_repeats (hr : h.any (e.1.repeats ·.1) = true) :
    handedOut (h ++ [e]) = handedOut h := by
  rw [handedOut, firsts_append_of_repeats hr, handedOut]

end History

/-! ### Runs -/

/-- Makes calls one after the other. -/
def Call.runs (cs : List Call) : Assemble (List UInt32) := cs.mapM Call.run

/-- **What a builder is after a history**, from an empty module on. -/
structure History.Leads (version : Version) (h : History) (b : ModuleBuilder) : Prop where
  version : b.version = version
  start : 1 ≤ b.nextId
  entries : b.entries.toList = h.appended
  kept : ∀ k x, b.kept? k = some x ↔ ∃ c, (c, x) ∈ h ∧ c.key? = some k
  handedOut : h.handedOut = idsBelow b.nextId
  answers : ∀ c x, (c, x) ∈ h → c.allocates → x ∈ idsBelow b.nextId

theorem Call.runs_nil (b : ModuleBuilder) : (Call.runs []).run b = ([], b) := rfl

theorem Call.runs_cons (c : Call) (cs : List Call) (b : ModuleBuilder) :
    (Call.runs (c :: cs)).run b = ((c.run.run b).1 :: ((Call.runs cs).run (c.run.run b).2).1,
      ((Call.runs cs).run (c.run.run b).2).2) := by
  rw [runs, List.mapM_cons]
  rfl

variable {version : Version} {h : History}

namespace History.Leads

theorem new (version : Version) : Leads version [] (ModuleBuilder.new version) where
  version := rfl
  start := Nat.le_refl 1
  entries := rfl
  kept := by
    intro k x
    cases k <;> simp [ModuleBuilder.kept?, ModuleBuilder.new, ModuleBuilder.sectionOf]
  handedOut := rfl
  answers := fun _ _ hm => absurd hm List.not_mem_nil

/-- What was asked for before is known. -/
theorem any_repeats (hl : h.Leads version b) (c : Call) :
    h.any (c.repeats ·.1) = (c.key?.bind b.kept?).isSome := by
  rw [Bool.eq_iff_iff, List.any_eq_true]
  constructor
  · rintro ⟨⟨c', x⟩, hm, hr⟩
    rw [Call.repeats, Bool.and_eq_true, beq_iff_eq, Option.isSome_iff_exists] at hr
    obtain ⟨⟨k, hk⟩, hkey⟩ := hr
    have hkept : b.kept? k = some x := (hl.kept k x).2 ⟨c', hm, by rw [← hk, hkey]⟩
    rw [hk, Option.bind_some, hkept]
    rfl
  · intro hs
    obtain ⟨x, hx⟩ := Option.isSome_iff_exists.1 hs
    obtain ⟨k, hk, hkept⟩ := Option.bind_eq_some_iff.1 hx
    obtain ⟨c', hm, hkey⟩ := (hl.kept k x).1 hkept
    exact ⟨(c', x), hm, by simp [Call.repeats, hk, hkey]⟩

/-- **One call.** -/
theorem step (hl : h.Leads version b) (c : Call) :
    Leads version (h ++ [(c, (c.run.run b).1)]) (c.run.run b).2 := by
  have hrepeats := hl.any_repeats c
  rw [Call.run_eq]
  cases hx : c.key?.bind b.kept? with
  | some x =>
    have hr : h.any (((c, x) : Call × UInt32).1.repeats ·.1) = true := by rw [hrepeats, hx]; rfl
    obtain ⟨k, hk, hkept⟩ := Option.bind_eq_some_iff.1 hx
    refine ⟨hl.version, hl.start, ?_, ?_, ?_, ?_⟩
    · rw [appended_append_of_repeats hr]
      exact hl.entries
    · intro k' y
      rw [hl.kept]
      constructor
      · rintro ⟨c', hm, hkey⟩
        exact ⟨c', List.mem_append_left _ hm, hkey⟩
      · rintro ⟨c', hm, hkey⟩
        rcases List.mem_append.1 hm with hm | hm
        · exact ⟨c', hm, hkey⟩
        · cases List.mem_singleton.1 hm
          rw [← hl.kept, ← hkept, Option.some.inj (hk.symm.trans hkey)]
    · rw [handedOut_append_of_repeats hr]
      exact hl.handedOut
    · intro c' y hm hc'
      rcases List.mem_append.1 hm with hm | hm
      · exact hl.answers c' y hm hc'
      · cases List.mem_singleton.1 hm
        obtain ⟨c₀, hm₀, hk₀⟩ := (hl.kept k x).1 hkept
        exact hl.answers c₀ x hm₀ (by rw [Call.allocates_of_key hk₀ hk, hc'])
  | none =>
    have hr : h.any (((c, b.answer c) : Call × UInt32).1.repeats ·.1) = false := by
      rw [hrepeats, hx]; rfl
    have hnew : ∀ k, c.key? = some k → b.kept? k = none := fun k hk => by
      rwa [hk] at hx
    have hids : idsBelow (b.performing c).nextId =
        idsBelow b.nextId ++ if c.allocates then [b.answer c] else [] := by
      rw [ModuleBuilder.performing_nextId]
      cases hc : c.allocates with
      | true => simp [idsBelow_succ hl.start, ModuleBuilder.answer_of_allocates b hc]
      | false => simp
    refine ⟨by rw [ModuleBuilder.performing_version]; exact hl.version, ?_, ?_, ?_, ?_, ?_⟩
    · rw [ModuleBuilder.performing_nextId]
      have := hl.start
      split <;> omega
    · rw [ModuleBuilder.performing_entries, appended_append hr, hl.entries]
    · intro k y
      rw [ModuleBuilder.kept?_performing]
      constructor
      · split
        · rename_i hk
          rintro ⟨⟩
          exact ⟨c, List.mem_append_right _ (List.mem_singleton.2 rfl), hk⟩
        · intro hkept
          obtain ⟨c', hm, hkey⟩ := (hl.kept k y).1 hkept
          exact ⟨c', List.mem_append_left _ hm, hkey⟩
      · rintro ⟨c', hm, hkey⟩
        rcases List.mem_append.1 hm with hm | hm
        · have hkept := (hl.kept k y).2 ⟨c', hm, hkey⟩
          rw [if_neg (fun hk => by rw [hnew k hk] at hkept; cases hkept), hkept]
        · cases List.mem_singleton.1 hm
          rw [if_pos hkey]
    · rw [handedOut_append hr, hl.handedOut, hids]
    · intro c' y hm hc'
      rw [hids]
      rcases List.mem_append.1 hm with hm | hm
      · exact List.mem_append_left _ (hl.answers c' y hm hc')
      · cases List.mem_singleton.1 hm
        rw [if_pos hc']
        exact List.mem_append_right _ (List.mem_singleton.2 rfl)

/-- **A run.** -/
theorem runs (cs : List Call) (hl : h.Leads version b) :
    Leads version (h ++ cs.zip ((Call.runs cs).run b).1) ((Call.runs cs).run b).2 := by
  induction cs generalizing h b with
  | nil =>
    rw [Call.runs_nil, List.zip_nil_left, List.append_nil]
    exact hl
  | cons c cs ih =>
    have hrest := ih (hl.step c)
    rw [List.append_assoc] at hrest
    rw [Call.runs_cons, List.zip_cons_cons]
    exact hrest

end History.Leads

end NodeShader.Spirv
