import NodeShader.Proofs.Metal.Ending

/-!
# Where the translation ends

A module is followed as far as a limit says (`Limit`), and what is followed further is cut off.  Writing it
**ends** if there are rounds enough: from some number of rounds on the limit does not matter
(`Program.EndsWith`).

* `Tables.Founded`: no type is named after itself, and no composite constant is a part of itself.
* `typeName_within`, `literal_within`, …, `ofTables_within`: nothing that is written of such tables depends
  on the limit, one equation for each function that may name a type or write a constant.
* `Program.ofWords_ends`: **the translation of such a module ends**, be it with a program or an error.
* `Program.ofWords_circular`: one of a module with a circular type need not.
-/

namespace NodeShader.Metal

open Spirv

variable {t : Tables}

/-- Tables that are followed as far as a limit says. -/
def Tables.within (t : Tables) (limit : Limit) : Tables := { t with limit }

/-- **Tables without circles.**  No type is named after itself, directly or through others, and no
composite constant is a part of itself. -/
structure Tables.Founded (t : Tables) : Prop where
  types : ∀ x, ¬ Circular t.NamedAfter x
  constants : ∀ x, ¬ Circular t.HasPart x

/-- What ends after some rounds is the same after more. -/
theorem EndsAt.add {α β : Type} {round : (α → β) → α → β} {n : Nat} {x : α} (h : EndsAt round n x) (k : Nat)
    (next next' : α → β) : round^[n + k] next x = round^[n] next' x := by
  rw [Function.iterate_add_apply]
  exact h _ _

section Reading

variable (t : Tables) (l : Limit)

theorem extract_within (x : UInt32) (expr : String) (type : UInt32) (indices : List UInt32) :
    Emit.extract (t.within l) x expr type indices = Emit.extract t x expr type indices := by
  induction indices generalizing expr type with
  | nil => rfl
  | cons index rest ih =>
    simp only [Emit.extract, ih]
    rfl

theorem valueType_within (x : UInt32) : Emit.valueType (t.within l) x = Emit.valueType t x := rfl

end Reading

/-- There are more rounds than declarations. -/
theorem Tables.rounds_eq_add (t : Tables) (n : Nat) : t.rounds n = n + 1 + (t.limit.rounds + 1) := by
  rw [rounds]
  omega

namespace Tables.Founded

variable (h : t.Founded) (l : Limit)
include h

/-! ### Types and constants -/

theorem typeName_within (x : UInt32) : typeName (t.within l) x = typeName t x := by
  have hends := typeRound_ends t (h.types x) (Nat.lt_succ_self t.types.length)
  rw [typeName, typeName, typeNameWithin_eq, typeNameWithin_eq, rounds_eq_add, rounds_eq_add]
  exact (hends.add _ _ fun _ => t.cutOff).trans (hends.add _ _ _).symm

theorem memberType_within (struct : UInt32) (member : Nat) :
    memberType (t.within l) struct member = memberType t struct member := by
  simp only [memberType, h.typeName_within]
  rfl

theorem zeroLiteral_within (type : UInt32) : zeroLiteral (t.within l) type = zeroLiteral t type := by
  simp only [zeroLiteral, h.typeName_within]
  rfl

theorem literalRound_within : literalRound (t.within l) = literalRound t := by
  funext next x
  simp only [literalRound, h.typeName_within, h.zeroLiteral_within]
  rfl

theorem literal_within (x : UInt32) : literal (t.within l) x = literal t x := by
  have hends := literalRound_ends t (h.constants x) (Nat.lt_succ_self t.constants.length)
  rw [literal, literal, literalWithin_eq, literalWithin_eq, rounds_eq_add, rounds_eq_add, h.literalRound_within]
  exact (hends.add _ _ fun _ => t.cutOff).trans (hends.add _ _ _).symm

/-! ### Bindings -/

theorem bufferOf_within (b : Binding) (struct : UInt32) (members : List UInt32) :
    bufferOf (t.within l) b struct members = bufferOf t b struct members := by
  simp only [bufferOf, h.typeName_within, h.memberType_within]
  rfl

theorem stageVariable_within (b : Binding) (type : UInt32) :
    stageVariable (t.within l) b type = stageVariable t b type := by
  simp only [stageVariable, h.typeName_within]
  rfl

theorem classifyVariable_within (v : Variable) : classifyVariable (t.within l) v = classifyVariable t v := by
  have hbuffer : bufferOf (t.within l) = bufferOf t := by
    funext b struct members
    exact h.bufferOf_within l b struct members
  have hstage : stageVariable (t.within l) = stageVariable t := by
    funext b type
    exact h.stageVariable_within l b type
  rw [classifyVariable, hbuffer, hstage]
  rfl

theorem bindVariable_within (v : Variable) : bindVariable (t.within l) v = bindVariable t v := by
  rw [bindVariable, h.classifyVariable_within]
  rfl

theorem reflect_within : reflect (t.within l) = reflect t := by
  simp only [reflect, funext (h.bindVariable_within l)]
  rfl

/-! ### Instructions -/

theorem value_within (x : UInt32) : Emit.value (t.within l) x = Emit.value t x := by
  simp only [Emit.value, h.literal_within]
  rfl

theorem values_within (xs : List UInt32) : Emit.values (t.within l) xs = Emit.values t xs := by
  simp only [Emit.values, funext (h.value_within l)]

theorem declare_within (i : Instruction) (expr : String) :
    Emit.declare (t.within l) i expr = Emit.declare t i expr := by
  simp only [Emit.declare, h.typeName_within]

theorem follow_within (x : UInt32) (place : Emit.Place) (indices : List UInt32) :
    Emit.follow (t.within l) x place indices = Emit.follow t x place indices := by
  induction indices generalizing place with
  | nil => rfl
  | cons index rest ih =>
    simp only [Emit.follow, ih, h.value_within]
    rfl

theorem accessChain_within (i : Instruction) : Emit.accessChain (t.within l) i = Emit.accessChain t i := by
  simp only [Emit.accessChain, h.value_within, h.follow_within]

theorem shuffle_within (i : Instruction) : Emit.shuffle (t.within l) i = Emit.shuffle t i := by
  simp only [Emit.shuffle, h.value_within, h.typeName_within]
  rfl

theorem load_within (i : Instruction) : Emit.load (t.within l) i = Emit.load t i := by
  simp only [Emit.load, h.value_within, h.declare_within]
  rfl

theorem extended_within (i : Instruction) : Emit.extended (t.within l) i = Emit.extended t i := by
  simp only [Emit.extended, h.values_within, h.declare_within]
  rfl

theorem sample_within (i : Instruction) : Emit.sample (t.within l) i = Emit.sample t i := by
  simp only [Emit.sample, h.value_within, h.declare_within]

/-- **An instruction** is written the same. -/
theorem instruction_within (i : Instruction) : Emit.instruction (t.within l) i = Emit.instruction t i := by
  simp only [Emit.instruction, h.value_within, h.values_within, h.declare_within, h.typeName_within,
    h.accessChain_within, h.shuffle_within, h.load_within, h.extended_within, h.sample_within,
    extract_within, valueType_within]

/-! ### Blocks -/

theorem assignPhis_within (source target : UInt32) :
    Emit.assignPhis (t.within l) source target = Emit.assignPhis t source target := by
  simp only [Emit.assignPhis, h.value_within]
  rfl

theorem blockRound_within : blockRound (t.within l) = blockRound t := by
  funext next p
  simp only [blockRound, endRound, h.value_within, h.assignPhis_within, funext (h.instruction_within l)]
  rfl

/-- **Blocks** are written the same, however many rounds there are for them. -/
theorem blocksFrom_within {n n' : Nat} (hn : t.blocks.length < n) (hn' : t.blocks.length < n')
    (label stop : UInt32) : Emit.blocksFrom (t.within l) n label stop = Emit.blocksFrom t n' label stop := by
  -- one round more than there are blocks is made in each of the two, and what comes next does not matter
  obtain ⟨k, rfl⟩ := Nat.exists_eq_add_of_lt hn
  obtain ⟨k', rfl⟩ := Nat.exists_eq_add_of_lt hn'
  have hrounds : ∀ k, (blockRound t)^[t.blocks.length + k + 1] (fun _ => pure ()) (label, stop) =
      Emit.blocksFrom t (t.blocks.length + 1) label stop := fun k => by
    rw [Nat.add_right_comm, Function.iterate_add_apply]
    exact rounds_eq_blocksFrom t (Nat.lt_succ_self _) _ _
  rw [← rounds_eq_blocksFrom (t.within l) hn (fun _ => pure ()) (label, stop), h.blockRound_within, hrounds,
    ← rounds_eq_blocksFrom t hn' (fun _ => pure ()) (label, stop), hrounds]

/-! ### Programs -/

theorem parameters_within (bs : List Binding) : Emit.parameters (t.within l) bs = Emit.parameters t bs := by
  simp only [Emit.parameters, h.typeName_within]

theorem declarePhi_within (phi : Instruction) : Emit.declarePhi (t.within l) phi = Emit.declarePhi t phi := by
  simp only [Emit.declarePhi, h.typeName_within]

theorem source_within (model : ExecutionModel) (entry : UInt32) (bs : List Binding) :
    Emit.source (t.within l) model entry bs = Emit.source t model entry bs := by
  have hblocks : ∀ label, Emit.blocksFrom (t.within l) ((t.within l).rounds (t.within l).blocks.length) label 0 =
      Emit.blocksFrom t (t.rounds t.blocks.length) label 0 := by
    refine fun label => h.blocksFrom_within l ?_ ?_ label 0
    · rw [rounds_eq_add]
      exact Nat.lt_add_right _ (Nat.lt_succ_self _)
    · rw [rounds_eq_add]
      exact Nat.lt_add_right _ (Nat.lt_succ_self _)
  simp only [Emit.source, Emit.entryPoint, h.parameters_within, funext (h.declarePhi_within l), hblocks]
  rfl

/-- **A program does not depend on the limit.** -/
theorem ofTables_within : Program.ofTables (t.within l) = Program.ofTables t := by
  simp only [Program.ofTables, h.reflect_within, h.source_within]
  rfl

end Tables.Founded

/-! ### Modules -/

namespace Program

/-- **The translation of words ends** with a program or an error: from some number of rounds on that is the
result, wherever and however a module is cut off. -/
def EndsWith (words : List UInt32) (r : Result Program) : Prop :=
  ∃ n, ∀ limit : Limit, n ≤ limit.rounds → ofWordsWithin limit words = r

theorem ofModuleWithin_ok {m : Module} (h : Tables.load m = .ok t) (limit : Limit) :
    ofModuleWithin limit m = ofTables (t.within limit) := by
  rw [ofModuleWithin, h]
  rfl

theorem ofModuleWithin_error {m : Module} {e : Error} (h : Tables.load m = .error e) (limit : Limit) :
    ofModuleWithin limit m = .error e := by
  rw [ofModuleWithin, h]
  rfl

/-- **The translation ends.**  If no type of a module is named after itself and no composite constant is a
part of itself, then the module is written, or refused, after finitely many rounds through its types,
constants and blocks; so are words that are no module, or one without tables. -/
theorem ofWords_ends {words : List UInt32}
    (h : ∀ m t, Module.parse words = .ok m → Tables.load m = .ok t → t.Founded) :
    EndsWith words (ofWords words) := by
  refine ⟨0, fun limit _ => ?_⟩
  rw [ofWords, ofWordsWithin, ofWordsWithin]
  cases hm : Module.parse words with
  | error e => rfl
  | ok m =>
    dsimp only
    cases ht : Tables.load m with
    | error e => rw [ofModuleWithin_error ht, ofModuleWithin_error ht]
    | ok t =>
      have hfounded := h m t hm ht
      rw [ofModuleWithin_ok ht, ofModuleWithin_ok ht, hfounded.ofTables_within, hfounded.ofTables_within]

end Program

/-- No argument leads back to itself if each leads to smaller ones. -/
theorem not_circular {α : Type} {R : α → α → Prop} (f : α → Nat) (h : ∀ x y, R x y → f y < f x) (x : α) :
    ¬ Circular R x := by
  rintro ⟨y, -, hy⟩
  have hlt : ∀ z, Relation.TransGen R y z → f z < f y := by
    intro z hz
    induction hz with
    | single hyz => exact h _ _ hyz
    | tail _ hab ih => exact (h _ _ hab).trans ih
  exact Nat.lt_irrefl _ (hlt y hy)

/-- Types and composite constants are made of those with smaller numbers, as they are where they are
numbered in the order of their declarations. -/
def Tables.Ascending (t : Tables) : Prop :=
  (∀ e ∈ t.types, e.2.element < e.1) ∧
    ∀ e ∈ t.constants, e.2.opcode = .constantComposite → e.2.operands.all (· < e.1)

instance : Decidable t.Ascending := inferInstanceAs (Decidable (_ ∧ _))

theorem Tables.Ascending.founded (h : t.Ascending) : t.Founded := by
  have hlt : ∀ {x : UInt32} {info : TypeInfo}, t.typeOf x = .ok info → info.element < x := by
    intro x info hinfo
    rw [typeOf] at hinfo
    cases hx : t.types.lookup x with
    | none =>
      rw [hx] at hinfo
      cases hinfo
    | some info' =>
      rw [hx] at hinfo
      cases hinfo
      exact h.1 _ (lookup_mem hx)
  refine ⟨not_circular UInt32.toNat fun x y hxy => ?_, not_circular UInt32.toNat fun x y hxy => ?_⟩
  · cases hxy with
    | vector hx => exact hlt hx
    | matrix hx hc => exact (hlt hc).trans (hlt hx)
    | image hx _ => exact hlt hx
  · obtain ⟨type, parts, hx, hy⟩ := hxy
    exact of_decide_eq_true (List.all_eq_true.1 (h.2 _ (lookup_mem hx) rfl) y hy)

namespace VectorExample

/-- A fragment shader that stores one of two constant vectors. -/
def words : List UInt32 :=
  [magic, 0x10300, 1, 18, 0,
    -- the entry point, and the location of the output
    0x6000f, 4, 12, 0x6e69616d, 0, 11, 0x40047, 11, 30, 0,
    -- types, the constants of vector type and the output
    0x20013, 1, 0x30021, 2, 1, 0x30016, 3, 32, 0x40017, 4, 3, 4, 0x40020, 5, 3, 4,
    0x4002b, 3, 6, 0x3f800000, 0x7002c, 4, 7, 6, 6, 6, 6, 0x3002e, 4, 8,
    0x20014, 9, 0x30029, 9, 10, 0x4003b, 5, 11, 3,
    -- a choice, and what is stored after it
    0x50036, 1, 12, 0, 2, 0x200f8, 13, 0x300f7, 16, 0, 0x400fa, 10, 14, 15,
    0x200f8, 14, 0x200f9, 16, 0x200f8, 15, 0x200f9, 16,
    0x200f8, 16, 0x700f5, 4, 17, 7, 14, 8, 15, 0x3003e, 11, 17, 0x100fd, 0x10038]

end VectorExample

/-- A fragment shader that stores one of two constant vectors is written. -/
theorem Program.ofWords_vector : (∃ r, Program.ofWords VectorExample.words = .ok r) ∧
    Program.EndsWith VectorExample.words (Program.ofWords VectorExample.words) := by
  have hrun : (Program.ofWords VectorExample.words).toOption.isSome = true := by decide +kernel
  obtain ⟨r, hr⟩ := Option.isSome_iff_exists.1 hrun
  rw [toOption_eq_some] at hr
  refine ⟨⟨r, hr⟩, Program.ofWords_ends fun m t hm ht => ?_⟩
  have hascending : ((Module.parse VectorExample.words).toOption.bind fun m =>
      (Tables.load m).toOption.map fun t => decide t.Ascending) = some true := by decide +kernel
  rw [hm] at hascending
  dsimp only [Except.toOption, Option.bind_some] at hascending
  rw [ht] at hascending
  exact Tables.Ascending.founded (of_decide_eq_true (Option.some.inj hascending))

/-- An output of a circular type is followed until that is cut off. -/
theorem reflect_circular {x pointer storage element : UInt32} {rest : List Variable} {info : TypeInfo}
    (hglobals : t.globals = ⟨x, pointer, StorageClass.output⟩ :: rest)
    (hpointer : t.typeOf pointer = .ok (.pointer storage element)) (helement : t.typeOf element = .ok info)
    (hc : Circular t.NamedAfter element) (names : Names) :
    (reflect t).run names = .error t.limit.cutOff := by
  have hname : (typeName t element).run names = .error t.limit.cutOff :=
    typeNameWithin_circular t hc _ names
  have hstage : classifyVariable t ⟨x, pointer, StorageClass.output⟩ =
      stageVariable t { variable_ := x, kind := .stageOutput } element :=
    (lift_bind hpointer).trans (lift_bind helement)
  have hbind : (bindVariable t ⟨x, pointer, StorageClass.output⟩).run names = .error t.limit.cutOff := by
    rw [bindVariable, hstage, stageVariable, StateT.run_bind, StateT.run_bind, hname]
    rfl
  rw [reflect, hglobals, List.mapM_cons, StateT.run_bind, StateT.run_bind, hbind]
  rfl

/-- The output of a fragment shader is of a vector type with components of this type: the module can be
read, and naming the type never ends. -/
theorem Program.ofWords_circular :
    let words : List UInt32 := [magic, 0x10300, 1, 8, 0, 0x20011, 1, 0x3000e, 0, 1,
      0x6000f, 4, 3, 0x6e69616d, 0, 6, 0x30010, 3, 7, 0x40047, 6, 30, 0, 0x20013, 1, 0x30021, 2, 1,
      0x40017, 5, 5, 4, 0x40020, 7, 3, 5, 0x4003b, 7, 6, 3,
      0x50036, 1, 3, 0, 2, 0x200f8, 4, 0x100fd, 0x10038]
    (∃ m t, Module.parse words = .ok m ∧ Tables.load m = .ok t ∧ Circular t.NamedAfter 5) ∧
      (∀ limit, Program.ofWordsWithin limit words = .error limit.cutOff) ∧
      ∀ r, ¬ Program.EndsWith words r := by
  intro words
  obtain ⟨m, t, hm, ht, hglobals, hpointer, hvector⟩ : ∃ m t, Module.parse words = .ok m ∧
      Tables.load m = .ok t ∧ t.globals = [⟨6, 7, StorageClass.output⟩] ∧
      t.typeOf 7 = .ok (.pointer StorageClass.output 5) ∧ t.typeOf 5 = .ok (.vector 5 4) :=
    ⟨_, _, rfl, rfl, rfl, rfl, rfl⟩
  have hcircular : Circular t.NamedAfter 5 := ⟨5, .refl, .single (.vector hvector)⟩
  have hcut : ∀ limit, Program.ofWordsWithin limit words = .error limit.cutOff := by
    intro limit
    have hreflect := reflect_circular (t := t.within limit) hglobals hpointer hvector
      ⟨5, .refl, .single (.vector hvector)⟩ {}
    rw [ofWordsWithin, hm]
    dsimp only
    rw [ofModuleWithin_ok ht, ofTables, hreflect]
    rfl
  refine ⟨⟨m, t, hm, ht, hcircular⟩, hcut, fun r hends => ?_⟩
  -- two limits of as many rounds tell apart where they cut off
  obtain ⟨n, hn⟩ := hends
  have h₁ := hn ⟨n, ⟨1, .missingOperand⟩⟩ (Nat.le_refl n)
  have h₂ := hn ⟨n, ⟨2, .missingOperand⟩⟩ (Nat.le_refl n)
  rw [hcut] at h₁ h₂
  cases h₁.trans h₂.symm

end NodeShader.Metal
