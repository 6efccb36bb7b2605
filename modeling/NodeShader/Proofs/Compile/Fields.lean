import NodeShader.Proofs.Compile.Hashing

/-!
# What a hash tells of a field

A compute stage fills a field.  How many invocations fill a block of it is part of its module, before
any name, so what is hashed for the stage tells the dimensions and the workgroups of the field
(`Graph.Built.compile_field`).  Its resolution is no part of any module: fields that differ in nothing
else are not told apart (`Graph.compile_resolution`).
-/

namespace NodeShader

open Spirv

/-! ### Instructions as bytes -/

theorem Spirv.bytesOfWords_append (v w : List UInt32) :
    bytesOfWords (v ++ w) = bytesOfWords v ++ bytesOfWords w := List.flatMap_append

/-- An instruction as it is hashed. -/
def Spirv.Instruction.bytes (i : Instruction) : List UInt8 := bytesOfWords i.encode

theorem Spirv.Instruction.flatMap_bytes (is : List Instruction) :
    is.flatMap Instruction.bytes = bytesOfWords (is.flatMap Instruction.encode) :=
  List.flatMap_assoc.symm

/-- A short instruction tells where it ends. -/
theorem Spirv.Instruction.delimited_bytes :
    Delimited Instruction.bytes fun i => i.operands.length ≤ 40000 := by
  intro i j hi hj r s h
  have hcons : ∀ i : Instruction, i.bytes =
      bytesOfWords [headWord (i.operands.length + 1) i.opcode] ++ bytesOfWords i.operands :=
    fun i => bytesOfWords_append [_] i.operands
  have hlen : i.encode.length = j.encode.length := by
    rw [hcons, hcons, List.append_assoc, List.append_assoc] at h
    obtain ⟨hhead, -⟩ := bytesOfWords_append_inj h
      (by rw [List.length_singleton, List.length_singleton])
    have := congrArg lengthOf (List.singleton_inj.1 hhead)
    rwa [lengthOf_head (by omega), lengthOf_head (by omega), ← length_encode, ← length_encode] at this
  obtain ⟨hwords, hrs⟩ := bytesOfWords_append_inj h hlen
  have hi' : i.encode.length ≤ 65535 := by
    rw [length_encode]
    omega
  have hj' : j.encode.length ≤ 65535 := hlen ▸ hi'
  have hwords' : i.encode ++ [] = j.encode ++ [] := by rw [hwords]
  exact ⟨(encode_append_inj hi' hj' hwords').1, hrs⟩

/-! ### How a compute stage is executed -/

/-- How a function is executed comes after few instructions, all of them short and none of its kind. -/
theorem Draft.Coded.preamble [NameLimit] {d : Draft} (h : d.Coded) (mode : List UInt32) :
    ∃ pre post : List Instruction, (d.withEntry [mode]).builder.instructions =
        pre ++ ⟨.executionMode, d.main :: mode⟩ :: post ∧
      ∀ i ∈ pre, i.operands.length ≤ 40000 ∧ ¬ i.opcode = .executionMode := by
  obtain ⟨I, void, type, entry, c, Γ, o, -, heq⟩ := h.instructions_eq [mode]
  let before := [Section.capabilities, .extensions, .imports, .memoryModel].flatMap d.builder.sectionOf
  let entered : Instruction :=
    ⟨.entryPoint, d.model.code :: d.main :: nameWords (Text.bytes "main") ++ d.interface⟩
  refine ⟨before ++ [entered], [.debug, .annotations, .types].flatMap d.builder.sectionOf ++
    functionOf d.main void type entry c, ?_, ?_⟩
  · rw [heq, h.globals_sections]
    show before ++ entered :: ([_] ++ _) ++ _ = _
    simp only [List.append_assoc, List.cons_append, List.nil_append]
  · intro i hi
    rcases List.mem_append.1 hi with hi | hi
    · obtain ⟨e, he, hi⟩ := List.mem_flatMap.1 hi
      have hfunctions : e ≠ .functions := by
        rintro rfl
        revert he
        decide
      have hform := h.form hi hfunctions
      clear hi
      simp only [List.mem_cons, List.not_mem_nil, or_false] at he
      rcases he with rfl | rfl | rfl | rfl
      · cases hform
        exact ⟨by simp, fun h => by cases h⟩
      · cases hform
      · cases hform
        have hset : (nameWords (Text.bytes extendedSet)).length ≤ 39999 := by decide
        exact ⟨Nat.succ_le_succ hset, fun h => by cases h⟩
      · cases hform
        exact ⟨by simp, fun h => by cases h⟩
    · rw [List.mem_singleton.1 hi]
      have hinterface := h.interface
      have hname : (nameWords (Text.bytes "main")).length = 2 := by decide
      refine ⟨?_, fun h => by cases h⟩
      show (d.model.code :: d.main :: nameWords (Text.bytes "main") ++ d.interface).length ≤ 40000
      rw [List.length_append, List.length_cons, List.length_cons, hname]
      omega

/-- What is hashed of a body, up to how its function is executed. -/
theorem Draft.Coded.hashedBytes_body [NameLimit] {d : Draft} (h : d.Coded) (mode : List UInt32) :
    ∃ (head : List UInt32) (pre : List Instruction) (rest : List UInt8), head.length = 7 ∧
      (∀ i ∈ pre, i.operands.length ≤ 40000 ∧ ¬ i.opcode = .executionMode) ∧
      (d.withEntry [mode]).body.hashedBytes = bytesOfWords head ++ (pre.flatMap Instruction.bytes ++
        (Instruction.bytes ⟨.executionMode, d.main :: mode⟩ ++ rest)) := by
  obtain ⟨pre, post, hinstructions, hpre⟩ := h.preamble mode
  let b := (d.withEntry [mode]).body
  refine ⟨[b.model.code, b.words.length.toUInt32, magic, d.builder.version.word, generatorWord,
    (d.withEntry [mode]).builder.nextId.toUInt32, 0], pre,
    bytesOfWords (post.flatMap Instruction.encode), rfl, hpre, ?_⟩
  have hwords : b.words = [magic, d.builder.version.word, generatorWord,
      (d.withEntry [mode]).builder.nextId.toUInt32, 0] ++
      (pre ++ ⟨.executionMode, d.main :: mode⟩ :: post).flatMap Instruction.encode := by
    rw [← hinstructions]
    rfl
  have hbody : b.hashedBytes = bytesOfWords ([b.model.code, b.words.length.toUInt32] ++ b.words) := rfl
  have hhead : ∀ x y : UInt32, ∀ v w : List UInt32, [x, y] ++ (v ++ w) = (x :: y :: v) ++ w :=
    fun _ _ _ _ => rfl
  rw [show (d.withEntry [mode]).body.hashedBytes = b.hashedBytes from rfl, hbody]
  generalize b.words.length.toUInt32 = count
  rw [hwords, hhead, bytesOfWords_append, List.flatMap_append, List.flatMap_cons, bytesOfWords_append,
    bytesOfWords_append, ← Instruction.flatMap_bytes]
  rfl

/-! ### Fields -/

/-- The sizes of workgroups. -/
theorem localSize_cases {dim : Int} {size : List Nat} (h : localSize? dim = some size) :
    dim = 2 ∧ size = [8, 8, 1] ∨ dim = 3 ∧ size = [4, 4, 4] := by
  unfold localSize? at h
  split at h
  · exact .inl ⟨rfl, (Option.some.inj h).symm⟩
  · exact .inr ⟨rfl, (Option.some.inj h).symm⟩
  · cases h

/-- As words, they tell the dimensions. -/
theorem localSize_inj {dim dim' : Int} {size size' : List Nat} (h : localSize? dim = some size)
    (h' : localSize? dim' = some size') (heq : size.map Nat.toUInt32 = size'.map Nat.toUInt32) :
    dim = dim' ∧ size = size' := by
  rcases localSize_cases h with ⟨rfl, rfl⟩ | ⟨rfl, rfl⟩ <;>
    rcases localSize_cases h' with ⟨rfl, rfl⟩ | ⟨rfl, rfl⟩
  · exact ⟨rfl, rfl⟩
  · exact absurd heq (by decide)
  · exact absurd heq (by decide)
  · exact ⟨rfl, rfl⟩

/-- The field that a node fills, and how its stage is executed. -/
theorem Node.field_of_execution {n : Node} {model : ExecutionModel} {mode : UInt32}
    {params : List UInt32} (hkind : n.kind.stage = .compute)
    (he : n.execution = .ok (model, mode, params)) :
    ∃ field size, n.field? = some field ∧ localSize? field.dim = some size ∧
      field.localSize = size.map Int.ofNat ∧
      mode :: params = ExecutionMode.localSize :: size.map Nat.toUInt32 := by
  unfold Node.execution at he
  rw [hkind] at he
  dsimp only at he
  split at he
  · rename_i dim resolution hparams
    split at he
    · cases he
    · rename_i size hsize
      cases he
      refine ⟨⟨dim, if resolution = 0 then defaultResolution else resolution, size.map Int.ofNat⟩, size,
        ?_, hsize, rfl, rfl⟩
      rw [Node.field?, hkind, hparams]
      show (localSize? dim).map _ = _
      rw [hsize]
      rfl
  · cases he

/-- **A stage that fills a field**: its module says early how large the workgroups are. -/
structure CompiledStage.Fills (s : CompiledStage) (field : Field) (size : List Nat) : Prop where
  filled : s.stage.field = some field
  sized : localSize? field.dim = some size
  workgroups : field.localSize = size.map Int.ofNat
  hashed : ∃ (head : List UInt32) (main : UInt32) (pre : List Instruction) (rest : List UInt8),
    head.length = 7 ∧ (∀ i ∈ pre, i.operands.length ≤ 40000 ∧ ¬ i.opcode = .executionMode) ∧
    s.stage.bodies.flatMap Body.hashedBytes = bytesOfWords head ++ (pre.flatMap Instruction.bytes ++
      (Instruction.bytes ⟨.executionMode,
        main :: ExecutionMode.localSize :: size.map Nat.toUInt32⟩ ++ rest))

variable {g g' : Graph} {c c' : Compilation} {s t : CompiledStage} {id id' : NodeId}
  {options options' : Options}

/-- **Every compute stage of a compilation fills a field.** -/
theorem Graph.Built.compile_fills (hg : g.Built) (h : g.compile id options = .ok c)
    (hs : s ∈ c.stages) (hk : s.stage.kind = .compute) : ∃ field size, s.Fills field size := by
  obtain ⟨A, B, hAB⟩ := List.append_of_mem hs
  obtain ⟨htypes, p, hplan, hbuild⟩ := compile_split h hAB
  obtain ⟨⟨u, domain, hu, hstage⟩, -⟩ := StagePlan.build_parts hbuild
  have hplanned := (Graph.plan_planned hg.consistent htypes hplan).1
  obtain ⟨N, hnames⟩ := p.graph.exists_nameLimit
  obtain ⟨n, d', hn, hd', hbodies, hparts⟩ := StagePlan.generate_eq_ok.1 hu
  obtain ⟨root, model, mode, params, d, _, _, _, _, _, _, hroot, he, hd, hmodel, -, rfl⟩ :=
    StagePlan.draftBody_spec .trivial hplanned hnames hd'
  obtain rfl : n = root := Option.some.inj (hn.symm.trans hroot)
  have hkind : n.kind.stage = .compute := by
    rw [hstage] at hk
    rw [hparts] at hk
    exact hk
  rw [hkind] at hbodies
  have hb : s.stage.bodies = [(d.declareEntry mode params).body] := by
    rw [hstage]
    show u.bodies = _
    generalize u.bodies = bodies at hbodies
    cases hbodies with
    | other _ => rfl
  obtain ⟨field, size, hfield, hsize, hlocal, hmode⟩ := Node.field_of_execution hkind he
  obtain ⟨head, pre, rest, hhead, hpre, hbytes⟩ :=
    (hd.coded hplanned hn (hmodel ▸ he)).hashedBytes_body (mode :: params)
  refine ⟨field, size, ?_, hsize, hlocal, head, d.main, pre, rest, hhead, hpre, ?_⟩
  · rw [hstage]
    show u.field = _
    rw [hparts]
    exact hfield
  · rw [hb, List.flatMap_singleton, ← hmode]
    exact hbytes

/-- **What a hash tells of a field.**  The hash of a compute stage tells the dimensions of its field and
the workgroups that fill it, in compilations of one graph or of two, unless what is hashed for the two
stages collides. -/
theorem Graph.Built.compile_field (hg : g.Built) (hg' : g'.Built) (h : g.compile id options = .ok c)
    (h' : g'.compile id' options' = .ok c') (hs : s ∈ c.stages) (ht : t ∈ c'.stages)
    (hk : s.stage.kind = .compute) (hk' : t.stage.kind = .compute)
    (hfree : Digest.Sha256.digest (c.message s) = Digest.Sha256.digest (c'.message t) →
      c.message s = c'.message t) (heq : s.hash = t.hash) :
    ∃ f f', s.stage.field = some f ∧ t.stage.field = some f' ∧ f.dim = f'.dim ∧
      f.localSize = f'.localSize := by
  obtain ⟨f, size, hf, hsize, hlocal, head, main, pre, rest, hhead, hpre, hbytes⟩ :=
    hg.compile_fills h hs hk
  obtain ⟨f', size', hf', hsize', hlocal', head', main', pre', rest', hhead', hpre', hbytes'⟩ :=
    hg'.compile_fills h' ht hk'
  rw [(hg.compile_hashes h s hs).hash, (hg'.compile_hashes h' t ht).hash] at heq
  have hmessage := hfree heq
  rw [Compilation.message, Compilation.message, hashedBytes, hashedBytes, hbytes, hbytes'] at hmessage
  simp only [List.append_assoc] at hmessage
  obtain ⟨-, hbodies⟩ := bytesOfWords_append_inj hmessage rfl
  obtain ⟨-, hcode⟩ := bytesOfWords_append_inj hbodies (hhead.trans hhead'.symm)
  -- the first instruction that says how the function is executed
  have hshort : ∀ {dim : Int} {size : List Nat}, localSize? dim = some size → ∀ main : UInt32,
      (main :: ExecutionMode.localSize :: size.map Nat.toUInt32).length ≤ 40000 := by
    intro dim size hsize main
    rcases localSize_cases hsize with ⟨-, rfl⟩ | ⟨-, rfl⟩ <;> simp
  have hmode := Instruction.delimited_bytes.first_inj (K := fun i => i.opcode = .executionMode) hpre hpre'
    ⟨hshort hsize main, rfl⟩ ⟨hshort hsize' main', rfl⟩ hcode
  have hoperands := congrArg Instruction.operands hmode
  obtain ⟨-, hoperands⟩ := List.cons.inj hoperands
  obtain ⟨hdim, hsizes⟩ := localSize_inj hsize hsize' (List.cons.inj hoperands).2
  exact ⟨f, f', hf, hf', hdim, by rw [hlocal, hlocal', hsizes]⟩

/-- Fields of 256 and of 64 texels a side have the same dimensions and workgroups, as their stages have
the same hash. -/
theorem Graph.compile_field_small : ∃ c c' s t,
    FieldExample.graph.compile (Uuid.ofBytes [4]) ⟨false, 0⟩ = .ok c ∧
      FieldExample.small.compile (Uuid.ofBytes [4]) ⟨false, 0⟩ = .ok c' ∧ s ∈ c.stages ∧
      t ∈ c'.stages ∧ s.stage.kind = .compute ∧ t.stage.kind = .compute ∧ s.hash = t.hash ∧
      ∃ f f', s.stage.field = some f ∧ t.stage.field = some f' ∧ f.dim = f'.dim ∧
        f.localSize = f'.localSize := by
  obtain ⟨c, c', s, t, hc, hc', hs, ht, hcode, hfield, hfield'⟩ := FieldExample.compiled
  have hmessage : c.message s = c'.message t := FieldExample.message_eq hcode hfield hfield'
  have heq : s.hash = t.hash := by
    rw [((Built.grown _).compile_hashes hc s hs).hash, ((Built.grown _).compile_hashes hc' t ht).hash,
      hmessage]
  exact ⟨c, c', s, t, hc, hc', hs, ht, hfield.kind, hfield'.kind, heq,
    Graph.Built.compile_field (Built.grown _) (Built.grown _) hc hc' hs ht hfield.kind hfield'.kind
      (fun _ => hmessage) heq⟩

/-- **A hash tells nothing of the resolution of a field.**  Two stages for which the same is hashed fill
fields of 256 and of 64 texels a side. -/
theorem Graph.compile_resolution : ∃ g g' : Graph, g.Built ∧ g'.Built ∧ ∃ c c' s t,
    g.compile (Uuid.ofBytes [4]) ⟨false, 0⟩ = .ok c ∧
      g'.compile (Uuid.ofBytes [4]) ⟨false, 0⟩ = .ok c' ∧ s ∈ c.stages ∧ t ∈ c'.stages ∧
      s.stage.kind = .compute ∧ t.stage.kind = .compute ∧ c.message s = c'.message t ∧
      s.hash = t.hash ∧ s.stage.field = some ⟨2, 256, [8, 8, 1]⟩ ∧
      t.stage.field = some ⟨2, 64, [8, 8, 1]⟩ := by
  obtain ⟨c, c', s, t, hc, hc', hs, ht, hcode, hfield, hfield'⟩ := FieldExample.compiled
  have hmessage : c.message s = c'.message t := FieldExample.message_eq hcode hfield hfield'
  refine ⟨FieldExample.graph, FieldExample.small, .grown _, .grown _, c, c', s, t, hc, hc', hs, ht,
    hfield.kind, hfield'.kind, hmessage, ?_, hfield.field, hfield'.field⟩
  rw [((Built.grown _).compile_hashes hc s hs).hash, ((Built.grown _).compile_hashes hc' t ht).hash,
    hmessage]

end NodeShader
