import NodeShader.Proofs.Stage.Vectors

/-!
# The code of inputs, fields and outputs

Nodes that read a variable of the module, and those that write one.  A load gives what the variable
holds (`load_spec`), the texel of a field is read where the node says or where it stands
(`coordinate_spec`, `writeSample_spec`), and the root of a stage writes its outputs.

* `Draft.Shows`: what the code of a node leaves behind.  Only the root of a stage leaves something.
-/

namespace NodeShader

open Spirv

variable [NameLimit] {I : Interpretation} {p : StagePlan} {d d₁ d' : Draft} {Γ Γ' : Context I}
  {P : List UInt32} {i : Nat} {n : Node} {x t v : UInt32} {u : Unit} {out : PortId}

namespace Drafting

/-! ### Loads -/

omit [NameLimit] in
/-- The value of a variable. -/
theorem load_step {storage : UInt32} {ty : Ty} {r : Resource} {a : I.Value}
    (hl : d.Listed v storage ty r) (hc : r.content? I [] = some a) (ht : TypeAt d.decls t ty)
    (y : UInt32) : Step (d.surroundings I) Γ ⟨.load, [t, y, v]⟩ ((y, ty, .value a) :: Γ) [] :=
  .load ht (.inr (hl.global I)) (hl.content hc)

theorem load_spec {storage : UInt32} {ty : Ty} {r : Resource} {a : I.Value}
    (hl : d.Listed v storage ty r) (hc : r.content? I [] = some a) (ht : TypeAt d.decls t ty)
    (h : Draws (emit i .load t [v]) d x d') :
    ∃ c Γ', d.Emits Γ [] c [] d' Γ' [] ∧ Known (d'.surroundings I) Γ' x ty (.value a) :=
  ⟨_, _, emit_spec ⟨rfl, rfl⟩ (load_step hl hc ht) h, .inl List.mem_cons_self⟩

/-- The type of a member of the block of global values. -/
def memberType (m : GlobalMember) : Ty :=
  match m with
  | .viewProjection | .model => matrixType
  | .extent => .vector (.float 32) 3
  | .time => .float 32

omit [NameLimit] in
theorem memberType_eq (m : GlobalMember) :
    memberTypes[m.index.toUInt32.toNat]? = some (memberType m) := by
  cases m <;> rfl

/-- The type that a member is loaded at. -/
def typeOfMember (m : GlobalMember) (float : UInt32) : Assemble UInt32 :=
  match m with
  | .viewProjection | .model => do Assemble.typeMatrix (← Assemble.typeVector float 4) 4
  | .extent => Assemble.typeVector float 3
  | .time => pure float

theorem typeOfMember_spec {m : GlobalMember} {float : UInt32} (hs : d.Sound P)
    (hf : TypeAt d.decls float (.float 32)) (h : Draws (assemble (typeOfMember m float)) d x d') :
    d.Quiet d' ∧ TypeAt d'.decls x (memberType m) := by
  have hmatrix : Draws (assemble (do
      Assemble.typeMatrix (← Assemble.typeVector float 4) 4)) d x d' →
      d.Quiet d' ∧ TypeAt d'.decls x matrixType := by
    intro h
    rw [assemble_bind] at h
    obtain ⟨c, d₁, hc, h⟩ := draws_bind.1 h
    obtain ⟨q₁, hc⟩ := typeVector_spec hs hf rfl (by decide) hc
    obtain ⟨q₂, hx⟩ := typeMatrix_spec (q₁.sound P hs) hc h
    exact ⟨q₁.trans q₂, hx⟩
  cases m with
  | viewProjection => exact hmatrix h
  | model => exact hmatrix h
  | extent => exact typeVector_spec hs hf rfl (by decide) h
  | time =>
    rw [typeOfMember, assemble_pure] at h
    obtain ⟨rfl, rfl⟩ := draws_pure.1 h
    exact ⟨.refl _, hf⟩

omit [NameLimit] in
theorem loadGlobal_eq (m : GlobalMember) : loadGlobal m = (get >>= fun d => assemble do
    let float ← Assemble.typeFloat 32
    let type ← typeOfMember m float
    let pointer ← Assemble.typePointer StorageClass.uniform type
    let int ← Assemble.typeInt 32 true
    let index ← Assemble.constant int [m.index.toUInt32]
    let place ← Assemble.op .accessChain pointer [d.globals, index]
    Assemble.op .load type [place]) := by
  cases m <;> simp only [loadGlobal, typeOfMember, bind_assoc, pure_bind]

/-- **One of the global values.** -/
theorem loadGlobal_spec {m : GlobalMember} (hs : d.Sound P) (hg : d.HasGlobals)
    (h : Draws (loadGlobal m) d x d') :
    ∃ c Γ', d.Emits Γ [] c [] d' Γ' [] ∧
      Known (d'.surroundings I) Γ' x (memberType m) (.value (I.member m.index.toUInt32)) := by
  rw [loadGlobal_eq, draws_get_bind] at h
  simp only [assemble_bind] at h
  obtain ⟨float, d₁, h₁, h⟩ := draws_bind.1 h
  obtain ⟨q₁, hfloat⟩ := typeFloat_spec hs h₁
  have hs₁ := q₁.sound P hs
  obtain ⟨type, d₂, h₂, h⟩ := draws_bind.1 h
  obtain ⟨q₂, htype⟩ := typeOfMember_spec hs₁ hfloat h₂
  have hs₂ := q₂.sound P hs₁
  obtain ⟨pointer, d₃, h₃, h⟩ := draws_bind.1 h
  obtain ⟨q₃, hpointer⟩ := typePointer_spec hs₂ htype h₃
  have hs₃ := q₃.sound P hs₂
  obtain ⟨int, d₄, h₄, h⟩ := draws_bind.1 h
  obtain ⟨q₄, hint⟩ := typeInt_spec hs₃ h₄
  have hs₄ := q₄.sound P hs₃
  obtain ⟨index, d₅, h₅, h⟩ := draws_bind.1 h
  obtain ⟨q₅, hindex⟩ := constantWord_spec hs₄ hint rfl (by decide) h₅
  obtain ⟨place, d₆, h₆, h⟩ := draws_bind.1 h
  have q := (((q₁.trans q₂).trans q₃).trans q₄).trans q₅
  obtain ⟨id, r, ms, hl, hk, hm, hms⟩ := hg
  have hl := hl.mono q.entries (by rw [q.fields]; exact List.Subset.refl _)
  -- the member of the block
  obtain ⟨mt, hmt, hty⟩ : ∃ mt, ms[m.index.toUInt32.toNat]? = some mt ∧
      TypeAt d.decls mt (memberType m) := by
    have hlen := hms.length_eq
    obtain ⟨hlt, heq⟩ := List.getElem?_eq_some_iff.1 (memberType_eq m)
    refine ⟨ms[m.index.toUInt32.toNat], List.getElem?_eq_getElem (by omega), ?_⟩
    have := List.forall₂_iff_get.1 hms
    rw [← heq]
    exact this.2 _ (by omega) hlt
  have e₁ := op_spec (Γ := Γ) ⟨rfl, rfl⟩ (fun y => Step.access (x := y)
    (hpointer.mono (q₄.trans q₅).decls) (hl.global I) hindex (hint.mono q₅.decls)
    (q.decls hm) hmt (hty.mono q.decls)) h₆
  have hc : (d₆.surroundings I).content d.globals [m.index.toUInt32] (I.member m.index.toUInt32) :=
    e₁.le.content _ _ _ (hl.content (Resource.content?_member hk _))
  have q' := (q₃.trans q₄).trans q₅
  have hplace : Known (d₆.surroundings I) ((place, .pointer StorageClass.uniform (memberType m),
      .place d.globals [m.index.toUInt32]) :: Γ) place (.pointer StorageClass.uniform (memberType m))
      (.place d.globals [m.index.toUInt32]) := .inl List.mem_cons_self
  have e₂ := op_spec ⟨rfl, rfl⟩ (fun y => Step.load (x := y)
    (htype.mono (q'.goes.trans e₁.goes).decls) hplace hc) h
  exact ⟨_, _, (e₁.trans e₂).after q, .inl List.mem_cons_self⟩

/-! ### Where a stage stands -/

omit [NameLimit] in
/-- An input of the fragment body that the draft has. -/
theorem input_lookup {input : StageInput} (hf : d.Furnished p) (hv : ∃ v, (input, v) ∈ d.inputs) :
    ∃ v, d.inputs.lookup input = some v ∧ d.InputAt input v := by
  obtain ⟨_, hm⟩ := hv
  obtain ⟨v, hl⟩ := isSome_lookup hm
  exact ⟨v, hl, hf.inputs _ (lookup_mem hl)⟩

omit [NameLimit] in
theorem input_content {input : StageInput} {r : Resource} (hk : r.kind = .stageInput)
    (hb : r.builtIn = "") (hn : r.name = input.name) :
    r.content? I [] = some (I.input input.name) := by
  rw [Resource.content?_input hk hb, hn]

theorem loadInput_spec {input : StageInput} (hs : d.Sound P) (hf : d.Furnished p)
    (hv : ∃ v, (input, v) ∈ d.inputs) (h : Draws (loadInput i input) d x d') :
    ∃ c Γ', d.Emits Γ [] c [] d' Γ' [] ∧
      Known (d'.surroundings I) Γ' x input.type.shape (.value (I.input input.name)) := by
  rw [loadInput, draws_get_bind] at h
  obtain ⟨v, hl, r, hlist, hk, hb, hn⟩ := input_lookup hf hv
  rw [hl, Option.getD_some] at h
  obtain ⟨type, d₁, h₁, h⟩ := draws_bind.1 h
  obtain ⟨-, q, htype⟩ := typeOf_spec hs h₁
  obtain ⟨c, Γ', e, hx⟩ := load_spec (Γ := Γ)
    (hlist.mono q.entries (by rw [q.fields]; exact List.Subset.refl _)) (input_content hk hb hn) htype h
  exact ⟨c, Γ', e.after q, hx⟩

theorem defineInput_spec {input : StageInput} (hp : p.Planned) (hs : d.Sound P) (hf : d.Furnished p)
    (hn : p.graph.nodes[i]? = some n) (hout : n.outputs = [out]) (hnew : d.values.lookup out = none)
    (ht : p.typeOf out = input.type) (hv : ∃ v, (input, v) ∈ d.inputs)
    (hval : ∀ fuel, p.graph.nodeValue I p.typeOf d.fragment
      (p.graph.inputAt I p.typeOf d.fragment fuel) n out = some (I.input input.name))
    (h : Draws (defineInput i out input) d u d') : ∃ c vs Γ', d.Writes p Γ i c vs d' Γ' [] := by
  rw [defineInput] at h
  obtain ⟨type, d₁, h₁, h⟩ := draws_bind.1 h
  obtain ⟨-, q, htype⟩ := typeOf_spec hs h₁
  obtain ⟨v, hl, r, hlist, hk, hb, hname⟩ := input_lookup hf hv
  rw [draws_get_bind, show d₁.inputs = d.inputs by rw [q.fields], hl, Option.getD_some] at h
  rw [← ht] at hlist htype
  exact writes_define hp hn hout hnew q.emits ⟨rfl, rfl⟩
    (load_step (hlist.mono q.entries (by rw [q.fields]; exact List.Subset.refl _))
      (input_content hk hb hname) htype) (fun _ => ⟨0, fun fuel _ => hval fuel⟩) h

/-- The texel of the current invocation. -/
theorem loadInvocation_spec {t : UInt32} (hf : d.Furnished p) (hv : d.invocation.isSome)
    (ht : TypeAt d.decls t invocationType)
    (h : Draws (emit i .load t [d.invocation.getD 0]) d x d') :
    ∃ c Γ', d.Emits Γ [] c [] d' Γ' [] ∧
      Known (d'.surroundings I) Γ' x invocationType (.value I.invocation) := by
  obtain ⟨v, hv⟩ := Option.isSome_iff_exists.1 hv
  obtain ⟨r, hl, hk, hb⟩ := hf.invocation v hv
  rw [hv, Option.getD_some] at h
  exact load_spec hl (Resource.content?_invocation hk hb) ht h

/-- A value computed from values. -/
theorem emitValue_spec {op : Opcode} {args : List UInt32} {vals : List (Ty × I.Value)} {ty : Ty}
    (hl : op.layout = .values 0) (he : op ≠ .extInst) (ht : TypeAt d.decls t ty)
    (ha : Operands (d.surroundings I) Γ args vals) (hsig : Signature op [] (vals.map (·.1)) ty)
    (h : Draws (emit i op t args) d x d') :
    ∃ c Γ', d.Emits Γ [] c [] d' Γ' [] ∧
      Known (d'.surroundings I) Γ' x ty (.value (I.apply op [] ty (vals.map (·.2)))) :=
  ⟨_, _, emit_spec hsig.typed (fun _ => Step.ofValues hl he ht ha hsig) h, .inl List.mem_cons_self⟩

/-- The first two components of a value. -/
theorem emitXY_spec {c : Ty} {a : I.Value} {n y : UInt32} (hn : 1 < n) (h4 : n ≤ 4)
    (ht : TypeAt d.decls t (.vector c 2))
    (hx : Known (d.surroundings I) Γ x (.vector c n) (.value a))
    (h : Draws (emit i .vectorShuffle t [x, x, 0, 1]) d y d') :
    ∃ code Γ', d.Emits Γ [] code [] d' Γ' [] ∧ Known (d'.surroundings I) Γ' y (.vector c 2)
      (.value (I.apply .vectorShuffle [0, 1] (.vector c 2) [a, a])) := by
  have hsig : Signature .vectorShuffle [0, 1] [.vector c n, .vector c n] (.vector c 2) := by
    refine .shuffle ?_ h4 rfl
    intro k hk
    simp only [List.mem_cons, List.not_mem_nil, or_false] at hk
    rcases hk with rfl | rfl
    · exact Nat.lt_trans (by decide : (0 : Nat) < 1) hn
    · exact hn
  exact ⟨_, _, emit_spec hsig.typed (fun y => Step.ofLeading
    (show Opcode.vectorShuffle.layout = .leading [x, x].length from rfl) (by decide) ht
    (.two hx hx) hsig) h, .inl List.mem_cons_self⟩

/-- **The centre of the texel of the current invocation.** -/
theorem texelCoordinate_spec {dim : Int} (hs : d.Sound P) (hf : d.Furnished p)
    (hv : d.invocation.isSome) (h : Draws (texelCoordinate i dim) d x d') :
    ∃ c Γ', d.Emits Γ [] c [] d' Γ' [] ∧
      Known (d'.surroundings I) Γ' x (if dim = 3 then .vector (.float 32) 3 else .vector (.float 32) 2)
        (.value (if dim = 3 then I.texelCentre
          else I.apply .vectorShuffle [0, 1] (.vector (.float 32) 2) [I.texelCentre, I.texelCentre])) := by
  rw [texelCoordinate] at h
  obtain ⟨float3, d₁, h₁, h⟩ := draws_bind.1 h
  obtain ⟨-, q₁, hfloat3⟩ := typeOf_spec hs h₁
  have hs₁ := q₁.sound P hs
  rw [draws_get_bind] at h
  dsimp only at h
  obtain ⟨uint3, d₂, h₂, h⟩ := draws_bind.1 h
  obtain ⟨q₂, huint3⟩ := unsignedType_spec hs₁ (by decide) h₂
  have q := q₁.trans q₂
  have hinv : d₁.invocation = d₂.invocation := by rw [q₂.fields]
  obtain ⟨gid, d₃, h₃, h⟩ := draws_bind.1 h
  rw [hinv] at h₃
  obtain ⟨_, _, e₃, hgid⟩ := loadInvocation_spec (Γ := Γ) (hf.mono q.entries q.frame)
    (by rw [q.fields]; exact hv) huint3 h₃
  have g₃ := q₂.goes.trans e₃.goes
  obtain ⟨place, d₄, h₄, h⟩ := draws_bind.1 h
  obtain ⟨_, _, e₄, hplace⟩ := emitValue_spec rfl (by decide) (hfloat3.mono g₃.decls) (.one hgid)
    (show Signature .convertUToF [] [.vector (.int 32 false) 3] (.vector (.float 32) 3)
      from .convert) h₄
  obtain ⟨half, d₅, h₅, h⟩ := draws_bind.1 h
  have hs₄ := e₄.sound P (e₃.sound P (q.sound P hs))
  obtain ⟨q₅, hhalf⟩ := constant_spec (I := I) hs₄ h₅
  have g₅ := (g₃.trans e₄.goes).trans q₅.goes
  have hbinary : ∀ op ∈ [Opcode.fAdd, .fDiv], Signature op []
      [.vector (.float 32) 3, .vector (.float 32) 3] (.vector (.float 32) 3) := by
    intro op hop
    refine .floating ?_ rfl
    have hall : ∀ op ∈ [Opcode.fAdd, .fDiv], op ∈ floatingOps := by decide
    exact hall op hop
  obtain ⟨centre, d₆, h₆, h⟩ := draws_bind.1 h
  obtain ⟨_, Γ₆, e₆, hcentre⟩ := emitValue_spec rfl (by decide) (hfloat3.mono g₅.decls)
    (.two (hplace.mono q₅.le) (.inr hhalf)) (hbinary .fAdd (by decide)) h₆
  have g₆ := g₅.trans e₆.goes
  have hs₆ := e₆.sound P (q₅.sound P hs₄)
  obtain ⟨extent, d₇, h₇, h⟩ := draws_bind.1 h
  have hf₆ := hf.mono (q₁.goes.trans g₆).entries (q₁.goes.trans g₆).frame
  obtain ⟨_, _, e₇, hextent⟩ := loadGlobal_spec (Γ := Γ₆) hs₆ hf₆.registered.globals h₇
  obtain ⟨_, d₈, h₈, h⟩ := draws_bind.1 h
  have e₈ := e₇.trans (credit_spec h₈)
  have g₈ := g₆.trans e₈.goes
  have hs₈ := e₈.sound P hs₆
  obtain ⟨coordinate, d₉, h₉, h⟩ := draws_bind.1 h
  obtain ⟨_, _, e₉, hcoordinate⟩ := emitValue_spec rfl (by decide) (hfloat3.mono g₈.decls)
    (.two (e₈.keeps hcentre) ((credit_spec h₈).keeps hextent)) (hbinary .fDiv (by decide)) h₉
  -- from the loads to the centre
  have e := (((((e₃.trans e₄).before q₅).trans e₆).trans e₈).trans e₉).after q
  by_cases hdim : dim = 3
  · rw [if_pos hdim] at h
    obtain ⟨rfl, rfl⟩ := draws_pure.1 h
    rw [if_pos hdim, if_pos hdim]
    exact ⟨_, _, e, hcoordinate⟩
  · rw [if_neg hdim] at h
    rw [if_neg hdim, if_neg hdim]
    obtain ⟨float2, d₁₀, h₁₀, h⟩ := draws_bind.1 h
    obtain ⟨-, q₁₀, hfloat2⟩ := typeOf_spec (e₉.sound P hs₈) h₁₀
    obtain ⟨_, _, e₁₁, hx⟩ := emitXY_spec (by decide) (by decide) hfloat2 (hcoordinate.mono q₁₀.le) h
    exact ⟨_, _, (e.before q₁₀).trans e₁₁, hx⟩

/-! ### Nodes that read -/

theorem writeTime_spec (hp : p.Planned) (hs : d.Sound P) (hf : d.Furnished p)
    (hn : p.graph.nodes[i]? = some n) (hk : n.kind = .time) (hout : n.outputs = [out])
    (ht : p.typeOf out = .float) (hnew : d.values.lookup out = none)
    (h : Draws (do
      let time ← loadGlobal .time
      credit i time
      Drafting.bind n out time) d u d') : ∃ c vs Γ', d.Writes p Γ i c vs d' Γ' [] := by
  obtain ⟨time, d₁, h₁, h⟩ := draws_bind.1 h
  obtain ⟨_, Γ₁, e₁, hx⟩ := loadGlobal_spec (I := I) (Γ := Γ) hs hf.registered.globals h₁
  obtain ⟨_, d₂, h₂, h⟩ := draws_bind.1 h
  have e₂ := credit_spec (Γ := Γ₁) h₂
  refine writes_bind hp hn hout hnew (e₁.trans e₂) (v := I.member 3) ?_ (fun _ => ⟨0, fun _ _ => ?_⟩) h
  · rw [ht]
    exact e₂.keeps hx
  · simp only [Graph.nodeValue, hk, Graph.operationOf]

theorem writePosition_spec (hp : p.Planned) (hs : d.Sound P) (hf : d.Furnished p)
    (hserves : d.Serves p i n) (hn : p.graph.nodes[i]? = some n) (hk : n.kind = .position)
    (hout : n.outputs = [out]) (ht : p.typeOf out = .float3) (hnew : d.values.lookup out = none)
    (h : Draws (do
      if ← isFragment then defineInput i out .position
      else Drafting.bind n out (← texelCoordinate i 3)) d u d') :
    ∃ c vs Γ', d.Writes p Γ i c vs d' Γ' [] := by
  rw [isFragment_bind] at h
  have hcoord := hserves.position hk
  rw [Draft.HasCoordinate] at hcoord
  by_cases hfrag : d.model = .fragment
  · rw [decide_eq_true hfrag, if_pos rfl] at h
    rw [if_pos hfrag] at hcoord
    have ht' : p.typeOf out = StageInput.position.type := ht
    refine defineInput_spec hp hs hf hn hout hnew ht' hcoord (fun fuel => ?_) h
    simp only [Graph.nodeValue, hk, Graph.operationOf, Draft.fragment, hfrag, decide_true, if_true]
    rfl
  · rw [decide_eq_false hfrag, if_neg Bool.false_ne_true] at h
    rw [if_neg hfrag] at hcoord
    obtain ⟨x, d₁, h₁, h⟩ := draws_bind.1 h
    obtain ⟨_, _, e, hx⟩ := texelCoordinate_spec (I := I) (Γ := Γ) hs hf hcoord h₁
    refine writes_bind hp hn hout hnew e (v := I.texelCentre) ?_ (fun _ => ⟨0, fun _ _ => ?_⟩) h
    · rw [ht]
      exact hx
    · simp only [Graph.nodeValue, hk, Graph.operationOf, Draft.fragment, hfrag, decide_false,
        Bool.false_eq_true, if_false]

omit [NameLimit] in
/-- The type of the coordinate of a field of some dimensions. -/
theorem coordinate_shape {t : ValueType} {dim : Int} (ht : t.isFloat = true) (h1 : 1 ≤ dim)
    (h3 : dim ≤ 3) (hs : (t.size : Int) = dim) : t.shape = .coordinate (Dim.ofCount dim) := by
  have hcases : dim = 1 ∨ dim = 2 ∨ dim = 3 := by omega
  rcases float_cases ht with rfl | rfl | rfl | rfl
  all_goals rcases hcases with rfl | rfl | rfl
  all_goals first | rfl | cases hs

omit [NameLimit] in
theorem texture_size {dim : Int} (h1 : 1 ≤ dim) (h3 : dim ≤ 3) :
    ((ValueType.texture1D.withSize dim).size : Int) = dim := by
  have hcases : dim = 1 ∨ dim = 2 ∨ dim = 3 := by omega
  rcases hcases with rfl | rfl | rfl
  all_goals rfl

/-- The coordinate that a field is sampled at. -/
def coordinateOf (p : StagePlan) (i : Nat) (q : PortId) (connected fragment : Bool) (dim : Int) :
    Drafting UInt32 :=
  if connected then operand p q
  else if !fragment then texelCoordinate i dim
  else if dim = 2 then loadInput i .texCoord
  else loadInput i .position

/-- The texel of a field at a coordinate. -/
def sampleAt (i : Nat) (out : PortId) (field : FieldVariables) (fragment : Bool)
    (coordinate : UInt32) : Drafting Unit := do
  let image ← emit i .load field.imageType [field.image]
  let sampler ← emit i .load (← assemble Assemble.typeSampler) [field.sampler]
  let sampledType ← assemble (Assemble.typeSampledImage field.imageType)
  let sampled ← emit i .sampledImage sampledType [image, sampler]
  let float4 ← typeOf .float4
  if fragment then define i out .imageSampleImplicitLod float4 [sampled, coordinate]
  else
    define i out .imageSampleExplicitLod float4 [sampled, coordinate, imageOperandsLod, ← zero]

omit [NameLimit] in
/-- A sample whose field was declared takes its texel at its coordinate. -/
theorem writeSample_draws {f q : PortId} {field : FieldVariables} {port : Port}
    (hfield : (p.graph.producer? f).bind (d.fields.lookup ·) = some field)
    (hport : p.graph.port? q = some port) : Draws (writeSample p i n f q out) d u d' ↔
      Draws (coordinateOf p i q port.isConnected d.fragment field.dim >>=
        sampleAt i out field d.fragment) d u d' := by
  rw [writeSample, draws_get_bind, hfield]
  dsimp only
  rw [hport, draws_some_bind, isFragment_bind, coordinateOf, Draft.fragment]
  split
  · exact Iff.rfl
  · split
    · exact Iff.rfl
    · split
      · exact Iff.rfl
      · exact Iff.rfl

/-- **Where a field is sampled**: at the position given, or where the stage stands. -/
theorem coordinateOf_spec {q : PortId} {port : Port} {dim : Nat} (hp : p.Planned) (hs : d.Sound P)
    (hf : d.Furnished p) (hfed : d.Fed p Γ q) (hport : p.graph.port? q = some port)
    (hdir : port.direction = .input) (hq : (p.typeOf q).isFloat = true)
    (hdim : (p.typeOf q).size = dim) (h2 : 2 ≤ dim) (h3 : dim ≤ 3)
    (hcoord : port.isConnected = false → d.HasCoordinate dim)
    (h : Draws (coordinateOf p i q port.isConnected d.fragment dim) d x d') :
    ∃ c Γ' a, d.Emits Γ [] c [] d' Γ' [] ∧
      Known (d'.surroundings I) Γ' x (.coordinate (Dim.ofCount dim)) (.value a) ∧
      (p.Exact I → ∃ N, ∀ fuel ≥ N,
        (match p.graph.producer? q with
          | some _ => p.graph.inputAt I p.typeOf d.fragment fuel q
          | none => some (I.implicitPosition d.fragment dim)) = some a) := by
  have hsome := hp.consistent.producer?_isSome hport hdir
  have hcases : dim = 2 ∨ dim = 3 := by omega
  rw [coordinateOf] at h
  cases hc : port.isConnected with
  | true =>
    rw [hc] at h hsome
    obtain ⟨o, ho⟩ := Option.isSome_iff_exists.1 hsome
    rw [if_pos rfl] at h
    obtain ⟨q₁, hx⟩ := operand_spec hp hs hfed (ValueType.isValue_of_isNumeric
      (ValueType.isNumeric_of_isFloating (ValueType.isFloating_of_isFloat hq))) h
    obtain ⟨a, hk, ha⟩ := flows_value q₁ hx
    have hshape : (p.typeOf q).shape = .coordinate (Dim.ofCount dim) :=
      coordinate_shape hq (by omega) (by omega) (by rw [hdim])
    rw [hshape] at hk
    rw [ho]
    exact ⟨_, Γ, a, q₁.emits, hk, ha⟩
  | false =>
    rw [hc] at h hsome
    have hnone : p.graph.producer? q = none := by simpa using hsome
    have hcoord := hcoord hc
    rw [Draft.HasCoordinate] at hcoord
    rw [if_neg Bool.false_ne_true] at h
    rw [hnone]
    by_cases hfrag : d.model = .fragment
    · have hd : d.fragment = true := decide_eq_true hfrag
      rw [hd, Bool.not_true, if_neg Bool.false_ne_true] at h
      rw [if_pos hfrag] at hcoord
      rw [hd]
      rcases hcases with rfl | rfl
      · obtain ⟨c, Γ', e, hx⟩ := loadInput_spec (Γ := Γ) hs hf hcoord h
        exact ⟨c, Γ', _, e, hx, fun _ => ⟨0, fun _ _ => rfl⟩⟩
      · obtain ⟨c, Γ', e, hx⟩ := loadInput_spec (Γ := Γ) hs hf hcoord h
        exact ⟨c, Γ', _, e, hx, fun _ => ⟨0, fun _ _ => rfl⟩⟩
    · have hd : d.fragment = false := decide_eq_false hfrag
      rw [hd, Bool.not_false, if_pos rfl] at h
      rw [if_neg hfrag] at hcoord
      rw [hd]
      obtain ⟨c, Γ', e, hx⟩ := texelCoordinate_spec (Γ := Γ) hs hf hcoord h
      rcases hcases with rfl | rfl
      · exact ⟨c, Γ', _, e, hx, fun _ => ⟨0, fun _ _ => rfl⟩⟩
      · exact ⟨c, Γ', _, e, hx, fun _ => ⟨0, fun _ _ => rfl⟩⟩

theorem sampleAt_spec {d₀ : Draft} {Γ₀ : Context I} {c : Code} {field : FieldVariables}
    {o : PortId} {j : Nat} {a : I.Value} (hp : p.Planned) (hs : d.Sound P)
    (hn : p.graph.nodes[i]? = some n) (hout : n.outputs = [out]) (ht : p.typeOf out = .float4)
    (hnew : d₀.values.lookup out = none) (he : d₀.Emits Γ₀ [] c [] d Γ [])
    (hsam : d.Samples p o field) (hj : p.graph.ownerPosition? o = some j)
    (hx : Known (d.surroundings I) Γ x (.coordinate (Dim.ofCount field.dim)) (.value a))
    (hval : p.Exact I → ∃ N, ∀ fuel ≥ N, p.graph.nodeValue I p.typeOf d₀.fragment
      (p.graph.inputAt I p.typeOf d₀.fragment fuel) n out =
        some (I.sampled d₀.fragment j field.dim.toNat a))
    (h : Draws (sampleAt i out field d₀.fragment x) d u d') :
    ∃ c vs Γ', d₀.Writes p Γ₀ i c vs d' Γ' [] := by
  obtain ⟨hdim, -, -, himageType, k, ri, rs, hk, hli, hki, hni, hls, hks, hns⟩ := hsam
  rw [hj] at hk
  cases hk
  have hto : ((field.dim.toNat : Nat) : Int) = field.dim := Int.toNat_of_nonneg (by omega)
  rw [sampleAt] at h
  obtain ⟨image, d₁, h₁, h⟩ := draws_bind.1 h
  obtain ⟨_, Γ₁, e₁, himage⟩ := load_spec (Γ := Γ) (a := I.image j) hli
    (Resource.content?_image (.inl hki) hni) himageType h₁
  have hs₁ := e₁.sound P hs
  obtain ⟨samplerType, d₂, h₂, h⟩ := draws_bind.1 h
  obtain ⟨q₂, hsamplerType⟩ := typeSampler_spec hs₁ h₂
  have hs₂ := q₂.sound P hs₁
  have g₂ := e₁.goes.trans q₂.goes
  obtain ⟨sampler, d₃, h₃, h⟩ := draws_bind.1 h
  obtain ⟨_, Γ₃, e₃, hsampler⟩ := load_spec (Γ := Γ₁) (a := I.sampler j)
    (hls.mono g₂.entries (by rw [Draft.frame_resources g₂.frame]; exact List.Subset.refl _))
    (Resource.content?_sampler hks hns) hsamplerType h₃
  have hs₃ := e₃.sound P hs₂
  have g₃ := g₂.trans e₃.goes
  obtain ⟨joinedType, d₄, h₄, h⟩ := draws_bind.1 h
  obtain ⟨q₄, hjoinedType⟩ := typeSampledImage_spec hs₃ (himageType.mono g₃.decls) h₄
  obtain ⟨joined, d₅, h₅, h⟩ := draws_bind.1 h
  have hjoin : Signature .sampledImage [] [sampledType field.dim, .sampler]
      (.sampledImage (sampledType field.dim)) := .join
  obtain ⟨_, Γ₅, e₅, hjoined⟩ := emitValue_spec rfl (by decide) hjoinedType
    (.two ((e₃.keeps (himage.mono q₂.le)).mono q₄.le) (hsampler.mono q₄.le)) hjoin h₅
  have hs₅ := e₅.sound P (q₄.sound P hs₃)
  have e := (((e₁.before q₂).trans e₃).before q₄).trans e₅
  have hx := e.keeps hx
  obtain ⟨float4, d₆, h₆, h⟩ := draws_bind.1 h
  obtain ⟨-, q₆, hfloat4⟩ := typeOf_spec hs₅ h₆
  have e₆ := (he.trans e).before q₆
  have hjoined := hjoined.mono q₆.le
  have hx := hx.mono q₆.le
  rw [← ht] at hfloat4
  have hcolour : (p.typeOf out).shape = .colour := by rw [ht]; rfl
  cases hfrag : d₀.fragment with
  | true =>
    rw [hfrag, if_pos rfl] at h
    have hsig : Signature .imageSampleImplicitLod [] [.sampledImage (sampledType field.dim),
        .coordinate (Dim.ofCount field.dim)] (p.typeOf out).shape := by
      rw [hcolour]
      exact .sampleImplicit
    refine writes_define hp hn hout hnew e₆ ⟨rfl, rfl⟩
      (fun y => Step.ofSampling rfl (by decide) hfloat4 (.two hjoined hx) hsig) (fun hex => ?_) h
    obtain ⟨N, hN⟩ := hval hex
    refine ⟨N, fun fuel hfuel => ?_⟩
    rw [hN fuel hfuel, hfrag, Interpretation.sampled, if_pos rfl, hto, hcolour]
    rfl
  | false =>
    rw [hfrag, if_neg Bool.false_ne_true] at h
    obtain ⟨lod, d₇, h₇, h⟩ := draws_bind.1 h
    obtain ⟨q₇, hlod⟩ := constant_spec (I := I) (q₆.sound P hs₅) h₇
    have hsig : Signature .imageSampleExplicitLod [imageOperandsLod]
        [.sampledImage (sampledType field.dim), .coordinate (Dim.ofCount field.dim), .float 32]
        (p.typeOf out).shape := by
      rw [hcolour]
      exact .sampleExplicit
    have hops : Operands (d₇.surroundings I) Γ₅ [joined, x, lod] _ :=
      .cons (hjoined.mono q₇.le) (.two (hx.mono q₇.le) (.inr hlod))
    refine writes_define hp hn hout hnew (e₆.before q₇) ⟨rfl, rfl⟩
      (fun y => Step.ofSampling rfl (by decide) (hfloat4.mono q₇.decls) hops hsig) (fun hex => ?_) h
    obtain ⟨N, hN⟩ := hval hex
    refine ⟨N, fun fuel hfuel => ?_⟩
    rw [hN fuel hfuel, hfrag, Interpretation.sampled, if_neg Bool.false_ne_true, hto, hcolour]
    rfl

omit [NameLimit] in
theorem sample_nodeValue {g : Graph} {τ : PortId → ValueType} {fragment : Bool} {f q : PortId}
    {j : Nat} {a : I.Value} {input : PortId → Option I.Value} (hk : n.kind = .sample)
    (hin : n.inputs = [f, q]) (hj : g.producerPosition? f = some j)
    (ha : (match g.producer? q with
      | some _ => input q
      | none => some (I.implicitPosition fragment (τ f).size)) = some a) :
    g.nodeValue I τ fragment input n out = some (I.sampled fragment j (τ f).size a) := by
  simp only [Graph.nodeValue, hk, Graph.operationOf, hin, hj]
  cases hprod : g.producer? q with
  | none =>
    rw [hprod] at ha
    cases ha
    rfl
  | some o =>
    rw [hprod] at ha
    simp only at ha
    simp only [ha]
    rfl

/-- **The texel of a field.** -/
theorem writeSample_spec {f q : PortId} (hp : p.Planned) (hs : d.Sound P) (hf : d.Furnished p)
    (hserves : d.Serves p i n) (hn : p.graph.nodes[i]? = some n) (hk : n.kind = .sample)
    (hin : n.inputs = [f, q]) (hout : n.outputs = [out]) (hq : (p.typeOf q).isFloat = true)
    (hsize : (p.typeOf f).size = (p.typeOf q).size) (ht : p.typeOf out = .float4)
    (hfed : d.Fed p Γ q) (hnew : d.values.lookup out = none)
    (h : Draws (writeSample p i n f q out) d u d') : ∃ c vs Γ', d.Writes p Γ i c vs d' Γ' [] := by
  obtain ⟨port, hport, hdir, -⟩ := hp.consistent.input_port (q := q) hn (by rw [hin]; simp)
  cases hfield : (p.graph.producer? f).bind (d.fields.lookup ·) with
  | none =>
    rw [writeSample, draws_get_bind, hfield] at h
    exact absurd h not_draws_unsupported
  | some field =>
    obtain ⟨o, ho, hl⟩ := Option.bind_eq_some_iff.1 hfield
    have hsam : d.Samples p o field := hf.fields _ (lookup_mem hl)
    obtain ⟨j, hj⟩ : ∃ j, p.graph.ownerPosition? o = some j := by
      obtain ⟨j, -, -, hj, -⟩ := hsam.listed
      exact ⟨j, hj⟩
    have hjf : p.graph.producerPosition? f = some j := by
      rw [Graph.producerPosition?, ho]
      exact hj
    -- the field has as many dimensions as its type
    have hdim : ((p.typeOf f).size : Int) = field.dim := by
      rw [← Draft.typeOf_producer hp ho, hsam.typed]
      exact texture_size hsam.dim.1 hsam.dim.2
    obtain ⟨h2, hcoord⟩ := hserves.sample hk f q [] hin
    have h3 := hsam.dim.2
    have h := (writeSample_draws hfield hport).1 h
    rw [← hdim] at h
    obtain ⟨x, d₁, h₁, h⟩ := draws_bind.1 h
    obtain ⟨c, Γ₁, a, e, hx, ha⟩ := coordinateOf_spec hp hs hf hfed hport hdir hq hsize.symm h2
      (by omega) (hcoord port hport) h₁
    rw [hdim] at hx
    refine sampleAt_spec hp (e.sound P hs) hn hout ht hnew e
      (hsam.mono ⟨e.entries, by rw [Draft.frame_resources e.frame]; exact List.Subset.refl _⟩)
      hj hx (fun hex => ?_) h
    obtain ⟨N, hN⟩ := ha hex
    refine ⟨N, fun fuel hfuel => ?_⟩
    rw [sample_nodeValue hk hin hjf (hN fuel hfuel), ← hdim]
    rfl

end Drafting

end NodeShader
