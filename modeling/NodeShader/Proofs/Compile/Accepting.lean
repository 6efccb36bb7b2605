import NodeShader.Proofs.Metal.Programs
import NodeShader.Proofs.Spirv.Framed
import NodeShader.Proofs.Stage.Bodies

/-!
# Modules that are made are accepted

A draft with a whole function (`Draft.Coded`) becomes a body once its entry point is declared
(`Draft.withEntry`).  Every instruction of it is short as long as names are, so the words of the body are
read back as the instructions that were made, if there are identifiers enough to tell results apart;
and what is read back becomes a program.

* `Draft.Coded.parse`: **the words of a body are read back**.
* `Draft.Coded.of_parse`: if they are read back, there were identifiers enough.
* `Draft.Coded.program`: **a body becomes a program**, and by `Draft.Coded.reflected` each of its
  resources has a binding.
-/

namespace NodeShader

open Spirv

/-! ### Short instructions -/

namespace Spirv

variable {i j : Instruction} {is js : List Instruction} {rest rest' : List UInt32}

/-- The words of a short instruction tell where it ends. -/
theorem Instruction.encode_append_inj (hi : i.encode.length ≤ 65535) (hj : j.encode.length ≤ 65535)
    (h : i.encode ++ rest = j.encode ++ rest') : i = j ∧ rest = rest' := by
  rw [length_encode] at hi hj
  rw [encode_eq, encode_eq, List.cons_append, List.cons_append, List.cons.injEq] at h
  have hlen : i.operands.length = j.operands.length := by
    have := congrArg lengthOf h.1
    rw [lengthOf_head hi, lengthOf_head hj] at this
    omega
  have hop : i.opcode = j.opcode := by
    have := congrArg opcodeOf h.1
    rwa [opcodeOf_head hi, opcodeOf_head hj] at this
  obtain ⟨hargs, hrest⟩ := List.append_inj h.2 hlen
  cases i
  cases j
  cases hop
  cases hargs
  exact ⟨rfl, hrest⟩

/-- Lists of short instructions are told by their words. -/
theorem flatMap_encode_inj (his : ∀ i ∈ is, i.encode.length ≤ 65535)
    (hjs : ∀ j ∈ js, j.encode.length ≤ 65535)
    (h : is.flatMap Instruction.encode = js.flatMap Instruction.encode) : is = js := by
  induction is generalizing js with
  | nil =>
    cases js with
    | nil => rfl
    | cons j js => cases h
  | cons i is ih =>
    cases js with
    | nil => cases h
    | cons j js =>
      rw [List.forall_mem_cons] at his hjs
      obtain ⟨rfl, hrest⟩ := Instruction.encode_append_inj his.1 hjs.1 h
      rw [ih his.2 hjs.2 hrest]

end Spirv

/-! ### Whole functions -/

/-- **A draft with a whole function**, whose code runs from nothing. -/
structure Draft.Coded [NameLimit] (d : Draft) : Prop where
  sound : d.Sound []
  registered : d.Registered
  interface : d.interface.length ≤ 7
  code : ∃ (I : Interpretation) (void type entry : UInt32) (c : Code) (Γ : Context I)
    (o : List (Output I.Value)), d.code = functionOf d.main void type entry c ∧
      Runs (d.surroundings I) [] c Γ o
  model : d.model = .vertex ∨ d.model = .fragment ∨ d.model = .compute

/-- A draft with its entry point and the ways in which that is executed. -/
def Draft.withEntry (d : Draft) (modes : List (List UInt32)) : Draft :=
  { d with
    builder := d.builder.extend ((.entryPoints, ⟨.entryPoint,
      d.model.code :: d.main :: nameWords (Text.bytes "main") ++ d.interface⟩) ::
        (Metal.Tables.executions d.main modes).map (Prod.mk .executionModes)) }

/-- Ways of execution as they are: a mode each, with few parameters. -/
def Modes (modes : List (List UInt32)) : Prop := ∀ ps ∈ modes, ps ≠ [] ∧ ps.length ≤ 4

theorem Draft.declareEntry_eq (d : Draft) (mode : UInt32) (params : List UInt32) :
    d.declareEntry mode params = d.withEntry [mode :: params] := rfl

namespace Draft

variable {d : Draft} {modes : List (List UInt32)}

theorem withEntry_entries (d : Draft) (modes : List (List UInt32)) :
    (d.withEntry modes).builder.entries.toList = d.builder.entries.toList ++
      (Section.entryPoints, ⟨.entryPoint,
        d.model.code :: d.main :: nameWords (Text.bytes "main") ++ d.interface⟩) ::
      (Metal.Tables.executions d.main modes).map (Prod.mk .executionModes) :=
  ModuleBuilder.extend_entries _ _

/-- The ways of execution have no results. -/
theorem executions_results (main : UInt32) (modes : List (List UInt32)) :
    ((Metal.Tables.executions main modes).map (Prod.mk Section.executionModes)).filterMap
      (·.2.result?) = [] := by
  rw [List.filterMap_eq_nil_iff]
  intro e he
  obtain ⟨i, hi, rfl⟩ := List.mem_map.1 he
  obtain ⟨ps, -, rfl⟩ := List.mem_map.1 hi
  rfl

theorem withEntry_results (d : Draft) (modes : List (List UInt32)) :
    (d.withEntry modes).builder.results = d.builder.results := by
  rw [ModuleBuilder.results, withEntry_entries, List.filterMap_append]
  refine (congrArg (_ ++ ·) (executions_results d.main modes)).trans ?_
  exact List.append_nil _

/-- The sections of a draft with its entry point. -/
theorem withEntry_sectionOf (d : Draft) (modes : List (List UInt32)) (e : Section) :
    (d.withEntry modes).builder.sectionOf e = d.builder.sectionOf e ++
      ((if e = .entryPoints then [⟨.entryPoint,
        d.model.code :: d.main :: nameWords (Text.bytes "main") ++ d.interface⟩] else []) ++
      if e = .executionModes then Metal.Tables.executions d.main modes else []) := by
  rw [ModuleBuilder.sectionOf, withEntry_entries, List.filter_append, List.map_append]
  refine congrArg (_ ++ ·) ?_
  by_cases hp : e = .entryPoints
  · subst hp
    rw [List.filter_cons_of_pos rfl, if_pos rfl, if_neg (by decide), List.append_nil,
      List.filter_eq_nil_iff.2]
    · rfl
    · intro e' he'
      obtain ⟨i, -, rfl⟩ := List.mem_map.1 he'
      exact Bool.false_ne_true
  · rw [List.filter_cons_of_neg (by simpa using Ne.symm hp), if_neg hp, List.nil_append]
    by_cases hm : e = .executionModes
    · subst hm
      rw [if_pos rfl, List.filter_eq_self.2, List.map_map]
      · exact List.map_id _
      · intro e' he'
        obtain ⟨i, -, rfl⟩ := List.mem_map.1 he'
        rfl
    · rw [if_neg hm, List.filter_eq_nil_iff.2]
      · rfl
      · intro e' he'
        obtain ⟨i, -, rfl⟩ := List.mem_map.1 he'
        simpa using Ne.symm hm

theorem withEntry_sectionOf_of_ne (d : Draft) (modes : List (List UInt32)) {e : Section}
    (hp : e ≠ .entryPoints) (hm : e ≠ .executionModes) :
    (d.withEntry modes).builder.sectionOf e = d.builder.sectionOf e := by
  rw [withEntry_sectionOf, if_neg hp, if_neg hm, List.append_nil, List.append_nil]

section Coded

variable [NameLimit]

/-- The laws of the module, of an instruction at module scope. -/
theorem Coded.form (h : d.Coded) {e : Section} {i : Instruction} (hi : i ∈ d.builder.sectionOf e)
    (he : e ≠ .functions) : Form d.decls d.builder.annotations d.builder.results e i := by
  have hform := h.sound.forms e i (ModuleBuilder.mem_sectionOf.1 hi) he
  rwa [List.append_nil] at hform

/-- **Layout**, section by section. -/
theorem Coded.globals_sections (h : d.Coded) (modes : List (List UInt32)) :
    (d.withEntry modes).builder.globals =
      [.capabilities, .extensions, .imports, .memoryModel].flatMap d.builder.sectionOf ++
        ⟨.entryPoint, d.model.code :: d.main :: nameWords (Text.bytes "main") ++ d.interface⟩ ::
          (Metal.Tables.executions d.main modes ++
            [.debug, .annotations, .types].flatMap d.builder.sectionOf) := by
  have hnone : ∀ e : Section, e = .entryPoints ∨ e = .executionModes → d.builder.sectionOf e = [] := by
    intro e he
    rw [List.eq_nil_iff_forall_not_mem]
    intro i hi
    have hform := h.form hi (by rcases he with rfl | rfl <;> decide)
    rcases he with rfl | rfl <;> cases hform
  have hentry : (d.withEntry modes).builder.sectionOf .entryPoints = [⟨.entryPoint,
      d.model.code :: d.main :: nameWords (Text.bytes "main") ++ d.interface⟩] := by
    rw [withEntry_sectionOf, hnone _ (.inl rfl), if_pos rfl, if_neg (by decide)]
    rfl
  have hmodes : (d.withEntry modes).builder.sectionOf .executionModes =
      Metal.Tables.executions d.main modes := by
    rw [withEntry_sectionOf, hnone _ (.inr rfl), if_neg (by decide), if_pos rfl]
    rfl
  have hrest : ∀ S : List Section, (∀ e ∈ S, e ≠ .entryPoints ∧ e ≠ .executionModes) →
      S.flatMap (d.withEntry modes).builder.sectionOf = S.flatMap d.builder.sectionOf :=
    fun S hS => List.flatMap_congr fun e he => withEntry_sectionOf_of_ne d modes (hS e he).1 (hS e he).2
  have hlayout : Section.layout.dropLast = [Section.capabilities, .extensions, .imports, .memoryModel] ++
      ([Section.entryPoints, .executionModes] ++ [Section.debug, .annotations, .types]) := by decide
  have hmiddle : [Section.entryPoints, .executionModes].flatMap (d.withEntry modes).builder.sectionOf =
      ⟨.entryPoint, d.model.code :: d.main :: nameWords (Text.bytes "main") ++ d.interface⟩ ::
        Metal.Tables.executions d.main modes := by
    rw [List.flatMap_cons, List.flatMap_singleton, hentry, hmodes]
    rfl
  rw [ModuleBuilder.globals, hlayout, List.flatMap_append, List.flatMap_append, hmiddle,
    hrest [.capabilities, .extensions, .imports, .memoryModel] (by decide),
    hrest [.debug, .annotations, .types] (by decide)]
  rfl

/-- **Layout**: what stands before the entry point, and what after the ways it is executed. -/
theorem Coded.layout (h : d.Coded) (modes : List (List UInt32)) : ∃ pre post : List Instruction,
    (d.withEntry modes).builder.globals = pre ++ ⟨.entryPoint,
      d.model.code :: d.main :: nameWords (Text.bytes "main") ++ d.interface⟩ ::
        (Metal.Tables.executions d.main modes ++ post) ∧
    ∀ i ∈ pre ++ post, ∃ e, e ≠ .functions ∧ i ∈ d.builder.sectionOf e := by
  refine ⟨_, _, h.globals_sections modes, ?_⟩
  intro i hi
  rw [← List.flatMap_append, List.mem_flatMap] at hi
  obtain ⟨e, he, hi⟩ := hi
  have hall : ∀ e ∈ [Section.capabilities, .extensions, .imports, .memoryModel] ++
    [Section.debug, .annotations, .types], e ≠ .functions := by decide
  exact ⟨e, hall e he, hi⟩

/-- An instruction at module scope is one of the draft, or tells how the function is executed. -/
theorem Coded.mem_globals (h : d.Coded) {i : Instruction} (hi : i ∈ (d.withEntry modes).builder.globals) :
    (∃ e, e ≠ .functions ∧ i ∈ d.builder.sectionOf e) ∨
      i = ⟨.entryPoint, d.model.code :: d.main :: nameWords (Text.bytes "main") ++ d.interface⟩ ∨
      ∃ ps ∈ modes, i = ⟨.executionMode, d.main :: ps⟩ := by
  obtain ⟨pre, post, hglobals, hall⟩ := h.layout modes
  rw [hglobals, List.mem_append, List.mem_cons, List.mem_append] at hi
  rcases hi with hi | rfl | hi | hi
  · exact .inl (hall i (List.mem_append_left _ hi))
  · exact .inr (.inl rfl)
  · obtain ⟨ps, hps, rfl⟩ := List.mem_map.1 hi
    exact .inr (.inr ⟨ps, hps, rfl⟩)
  · exact .inl (hall i (List.mem_append_right _ hi))

/-- **What is made is in the scope of its own declarations.** -/
theorem Coded.scope (h : d.Coded) (hfew : d.builder.nextId ≤ 4294967296) (modes : List (List UInt32)) :
    Metal.Scope d.decls d.builder.annotations d.builder.results (d.withEntry modes).builder.globals where
  distinct := by
    have hperm := h.sound.alloc
    rw [List.append_nil] at hperm
    have hnodup := ModuleBuilder.idsBelow_nodup hfew
    rw [← hperm.nodup_iff, ← withEntry_results d modes, ← (ModuleBuilder.results_perm _).nodup_iff,
      ModuleBuilder.instructions_eq, List.filterMap_append] at hnodup
    exact (List.nodup_append.1 hnodup).1
  decls := by
    show (d.builder.sectionOf .types).Sublist _
    rw [← withEntry_sectionOf_of_ne d modes (by decide) (by decide)]
    have hlayout : Section.layout.dropLast = Section.layout.dropLast.dropLast ++ [Section.types] := by
      decide
    rw [ModuleBuilder.globals, hlayout, List.flatMap_append, List.flatMap_singleton]
    exact List.sublist_append_right _ _
  annotations := by
    show d.builder.sectionOf .annotations ⊆ _
    rw [← withEntry_sectionOf_of_ne d modes (by decide) (by decide)]
    exact ModuleBuilder.sectionOf_subset_globals _ (by decide)
  forms := fun i hi => h.form hi (by decide)
  placed := by
    intro t x s hi
    rcases h.mem_globals hi with ⟨e, he, hi⟩ | hi | ⟨ps, -, hi⟩
    · have hform := h.form hi he
      cases hform
      exact hi
    · cases hi
    · cases hi
  decorated := by
    intro x dec params hi
    rcases h.mem_globals hi with ⟨e, he, hi⟩ | hi | ⟨ps, -, hi⟩
    · have hform := h.form hi he
      cases hform with
      | decorate _ hdec => exact hdec
    · cases hi
    · cases hi

/-! ### Reading bodies back -/

theorem Coded.instructions_eq (h : d.Coded) (modes : List (List UInt32)) :
    ∃ (I : Interpretation) (void type entry : UInt32) (c : Code) (Γ : Context I)
      (o : List (Output I.Value)), Runs (d.surroundings I) [] c Γ o ∧
      (d.withEntry modes).builder.instructions =
        (d.withEntry modes).builder.globals ++ functionOf d.main void type entry c := by
  obtain ⟨I, void, type, entry, c, Γ, o, hcode, hruns⟩ := h.code
  refine ⟨I, void, type, entry, c, Γ, o, hruns, ?_⟩
  rw [ModuleBuilder.instructions_eq, ← hcode]
  exact congrArg _ (withEntry_sectionOf_of_ne d modes (by decide) (by decide))

/-- The instructions of a body are short. -/
theorem Coded.short (h : d.Coded) (hlimit : NameLimit.bytes ≤ 131072) (hmodes : Modes modes) :
    ∀ i ∈ (d.withEntry modes).builder.instructions, i.operands.length ≤ 40000 := by
  obtain ⟨I, void, type, entry, c, Γ, o, hruns, heq⟩ := h.instructions_eq modes
  have htypes : ∀ {x : UInt32} {ty : Ty}, TypeAt (d.surroundings I).decls x ty → ty.Sized :=
    fun hx => hx.sized fun i hi => h.form hi (by decide)
  have hcode := hruns.short htypes (List.forall_mem_nil _)
  have hname : (nameWords (Text.bytes "main")).length = 2 := by decide
  intro i hi
  rw [heq, List.mem_append] at hi
  rcases hi with hi | hi
  · rcases h.mem_globals hi with ⟨e, he, hi⟩ | rfl | ⟨ps, hps, rfl⟩
    · exact (h.form hi he).short hlimit
    · have := h.interface
      simp only [List.cons_append, List.length_cons, List.length_append, hname]
      omega
    · have := (hmodes ps hps).2
      simp only [List.length_cons]
      omega
  · rw [functionOf, List.mem_append, List.mem_append] at hi
    rcases hi with (hi | hi) | hi
    · simp only [List.mem_cons, List.not_mem_nil, or_false] at hi
      rcases hi with rfl | rfl
      · simp
      · simp [labelOf]
    · have := hcode i hi
      omega
    · simp only [List.mem_cons, List.not_mem_nil, or_false] at hi
      rcases hi with rfl | rfl <;> simp

/-- The results of a body are the identifiers that were handed out. -/
theorem Coded.results_perm (h : d.Coded) (modes : List (List UInt32)) :
    ((d.withEntry modes).builder.instructions.filterMap (·.result?)).Perm (idsBelow d.builder.nextId) := by
  have hperm := h.sound.alloc
  rw [List.append_nil, ← withEntry_results d modes] at hperm
  exact (ModuleBuilder.results_perm _).trans hperm

omit [NameLimit] in
theorem withEntry_nextId (d : Draft) (modes : List (List UInt32)) :
    (d.withEntry modes).builder.nextId = d.builder.nextId := ModuleBuilder.extend_nextId _ _

/-- The module of a body. -/
def module (d : Draft) : Module :=
  ⟨.ofWord d.builder.version.word, generatorWord, d.builder.nextId.toUInt32, d.builder.instructions⟩

/-- **The words of a body are read back**, if there are identifiers enough. -/
theorem Coded.parse (h : d.Coded) (hlimit : NameLimit.bytes ≤ 131072) (hmodes : Modes modes)
    (hfew : d.builder.nextId < 4294967296) :
    Module.parse (d.withEntry modes).body.words = .ok (d.withEntry modes).module := by
  refine Module.parse_eq_ok.2 ⟨_, 0, _, rfl, rfl, rfl, fun i hi => .of_length (h.short hlimit hmodes i hi) ?_⟩
  intro x hx
  have hmem := (h.results_perm modes).mem_iff.1 (List.mem_filterMap.2 ⟨i, hi, hx⟩)
  show x < (d.withEntry modes).builder.nextId.toUInt32
  rw [withEntry_nextId, UInt32.lt_iff_toNat_lt, ModuleBuilder.toNat_toUInt32 hfew]
  exact (ModuleBuilder.mem_idsBelow hfew.le hmem).2

/-- **What is read back is what was made**, and there were identifiers enough. -/
theorem Coded.of_parse (h : d.Coded) (hlimit : NameLimit.bytes ≤ 131072) (hmodes : Modes modes)
    {m : Module} (hm : Module.parse (d.withEntry modes).body.words = .ok m) :
    m = (d.withEntry modes).module ∧ d.builder.nextId < 4294967296 := by
  obtain ⟨version, reserved, rest, hwords, hversion, hspells⟩ := Module.parse_eq_ok.1 hm
  have hlist : magic :: (d.withEntry modes).builder.version.word :: generatorWord ::
      (d.withEntry modes).builder.nextId.toUInt32 :: 0 ::
        (d.withEntry modes).builder.instructions.flatMap Instruction.encode =
      magic :: version :: m.generator :: m.bound :: reserved :: rest := hwords
  simp only [List.cons.injEq, true_and] at hlist
  obtain ⟨hv, hg, hb, -, hrest⟩ := hlist
  have his : (d.withEntry modes).builder.instructions = m.instructions := by
    refine flatMap_encode_inj (fun i hi => ?_) (fun i hi => (hspells.2 i hi).short) (hrest.trans hspells.1)
    have := h.short hlimit hmodes i hi
    rw [Instruction.length_encode]
    omega
  refine ⟨?_, ?_⟩
  · obtain ⟨v, generator, bound, is⟩ := m
    simp only at hversion hg hb his
    rw [module, hversion, ← hv, hg, hb, his]
  -- were all words handed out, the last of them would not be below the bound
  · by_contra hmany
    have hlast : (4294967295 : Nat).toUInt32 ∈ idsBelow d.builder.nextId := by
      refine List.mem_map.2 ⟨4294967295, ?_, rfl⟩
      rw [List.mem_range'_1]
      omega
    obtain ⟨i, hi, hx⟩ := List.mem_filterMap.1 ((h.results_perm modes).mem_iff.2 hlast)
    rw [his] at hi
    have hres : i.result = (4294967295 : Nat).toUInt32 := by
      rw [Instruction.result?] at hx
      split at hx
      · exact Option.some.inj hx
      · cases hx
    rcases (hspells.2 i hi).bounded with h0 | hlt
    · rw [hres] at h0
      exact absurd h0 (by decide)
    · rw [hres, UInt32.lt_iff_toNat_lt] at hlt
      have := m.bound.toNat_lt
      have hval : (4294967295 : Nat).toUInt32.toNat = 4294967295 := by decide
      omega

/-! ### Programs -/

/-- A model of execution is told by its code. -/
theorem Coded.qualifier (h : d.Coded) :
    (Metal.Emit.qualifier? (.ofCode d.model.code)).isSome = true := by
  rcases h.model with hm | hm | hm <;> rw [hm] <;> decide

/-- **The module of a body is ready** for its program to be written. -/
theorem Coded.ready (h : d.Coded) (hmodes : Modes modes) (hfew : d.builder.nextId < 4294967296) :
    ∃ (I : Interpretation) (entry : UInt32) (c : Code) (Γ : Context I) (o : List (Output I.Value))
      (t : Metal.Tables), Runs (d.surroundings I) [] c Γ o ∧
      Metal.Ready (d.withEntry modes).module t (d.surroundings I) d.builder.annotations d.builder.results
        (d.withEntry modes).builder.globals d.model.code d.main entry c := by
  obtain ⟨pre, post, hglobals, hall⟩ := h.layout modes
  obtain ⟨I, void, type, entry, c, Γ, o, hruns, heq⟩ := h.instructions_eq modes
  have hform : ∀ i ∈ pre ++ post, ∃ e, Form d.decls d.builder.annotations d.builder.results e i :=
    fun i hi => (hall i hi).imp fun e he => h.form he.2 he.1
  have hset : ⟨.extInstImport, d.extended :: nameWords (Text.bytes extendedSet)⟩ ∈
      (d.withEntry modes).builder.globals := by
    refine ModuleBuilder.sectionOf_subset_globals _ (s := .imports) (by decide) ?_
    rw [withEntry_sectionOf_of_ne d modes (by decide) (by decide)]
    exact ModuleBuilder.mem_sectionOf.2 h.registered.extended
  have hperm := h.results_perm modes
  obtain ⟨t, ready⟩ := Metal.ready_spec
    (I := I) (s := d.surroundings I) (m := (d.withEntry modes).module) (h.scope hfew.le modes)
    (fun i hi => hform i (List.mem_append_left _ hi)) (fun i hi => hform i (List.mem_append_right _ hi))
    (fun ps hps => (hmodes ps hps).1) hset hglobals heq hruns
    (hperm.nodup_iff.2 (ModuleBuilder.idsBelow_nodup hfew.le))
    (fun h0 => (ModuleBuilder.mem_idsBelow hfew.le (hperm.mem_iff.1 h0)).1 rfl) h.qualifier
  exact ⟨I, entry, c, Γ, o, t, hruns, ready⟩

/-- **A body becomes a program**, with the bindings that are reflected from its tables. -/
theorem Coded.program (h : d.Coded) (hlimit : NameLimit.bytes ≤ 131072) (hmodes : Modes modes)
    (hfew : d.builder.nextId < 4294967296) :
    ∃ t program names, t.Hold (d.withEntry modes).builder.globals ∧
      Metal.Program.ofWords (d.withEntry modes).body.words = .ok program ∧
      (Metal.reflect t).run {} = .ok (program.bindings, names) ∧
      List.Forall₂ (Metal.Reflects d.decls t) t.globals program.bindings := by
  obtain ⟨I, entry, c, Γ, o, t, hruns, ready⟩ := h.ready hmodes hfew
  obtain ⟨program, names, hmodule, hreflect⟩ := ready.program hruns
  refine ⟨t, program, names, ready.setting.hold, ?_, hreflect, ?_⟩
  · rw [Metal.Program.ofWords_eq (h.parse hlimit hmodes hfew)]
    exact hmodule
  · obtain ⟨bs, names', hrun, hbs⟩ := Metal.reflect_spec ready.setting.toScope ready.setting.hold {}
    rw [hrun] at hreflect
    cases hreflect
    exact hbs

/-- **Every resource has a binding.** -/
theorem Coded.reflected (h : d.Coded) {t : Metal.Tables}
    (hold : t.Hold (d.withEntry modes).builder.globals) {bs : List Metal.Binding}
    (hbs : List.Forall₂ (Metal.Reflects d.decls t) t.globals bs) {r : Resource} (hr : r ∈ d.resources) :
    ∃ b ∈ bs, b.variable_ = r.variable_ := by
  obtain ⟨storage, ty, ⟨⟨k, hk, -⟩, -, -⟩⟩ := h.registered.listed r hr
  have hglobal : (⟨r.variable_, k, storage⟩ : Metal.Variable) ∈ t.globals := by
    rw [hold.globals]
    refine List.mem_filterMap.2 ⟨⟨.variableDecl, [k, r.variable_, storage]⟩, ?_, rfl⟩
    refine ModuleBuilder.sectionOf_subset_globals _ (s := .types) (by decide) ?_
    rw [withEntry_sectionOf_of_ne d modes (by decide) (by decide)]
    exact hk
  obtain ⟨b, hb, h⟩ := exists_of_mem_left hbs hglobal
  exact ⟨b, hb, h.id⟩

end Coded

end Draft

end NodeShader
