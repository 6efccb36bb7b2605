import NodeShader.Metal.Binding
import NodeShader.Proofs.Metal.Naming

/-!
# Variables have a binding

Each variable of a module has a type and the annotations that its storage class asks for
(`Placed`), so it can be classified (`classify_spec`) and bound (`bind_spec`).  All variables are
reflected, in the order of their declarations (`reflect_spec`), and what is read back of a variable
(`Reflects`) hangs on its storage class, the type it holds and its annotations alone.
-/

namespace NodeShader.Metal

open Spirv

variable [NameLimit] {D A : List Instruction} {R : List UInt32} {globals : List Instruction}
  {t : Tables} {x p s dec : UInt32} {ty : Ty} {params : List UInt32}

/-! ### What is read back -/

/-- The class of a variable, by its storage class and what it holds. -/
def classOf (storage : UInt32) (ty : Ty) : ResourceClass :=
  if storage = StorageClass.uniform then .uniformBuffer
  else if storage = StorageClass.uniformConstant then
    match ty with
    | .image _ _ sampled _ => if sampled = 2 then .storageImage else .sampledImage
    | _ => .sampler
  else if storage = StorageClass.input then .stageInput
  else .stageOutput

/-- The number of dimensions of an image, 0 of anything else. -/
def extentOf : Ty → Nat
  | .image _ dim _ _ => dimOf dim
  | _ => 0

/-- The location a variable is annotated with, -1 if there is none. -/
def Tables.locationOf (t : Tables) (x : UInt32) : Int :=
  match t.decoration? x Decoration.location with
  | some (k :: _) => k.toNat
  | _ => -1

/-- What classifying a variable tells of it. -/
structure Classifies (t : Tables) (x storage : UInt32) (ty : Ty) (b : Binding) : Prop where
  id : b.variable_ = x
  kind : b.kind = classOf storage ty
  dim : b.dim = extentOf ty
  location : b.kind.isBound = false → b.index = t.locationOf x

/-- **What is read back of a variable**: the class and the dimensions of what it holds, and the set and
slot, or else the location, that it is annotated with. -/
structure Reflects (D : List Instruction) (t : Tables) (v : Variable) (b : Binding) : Prop where
  id : b.variable_ = v.id
  shape : ∃ ty, TypeAt D v.pointer (.pointer v.storage ty) ∧ b.kind = classOf v.storage ty ∧
    b.dim = extentOf ty
  place : b.kind.isBound = true → ∃ i j, t.decoration? v.id Decoration.descriptorSet = some [i] ∧
    t.decoration? v.id Decoration.binding = some [j] ∧ b.set = i.toNat ∧ b.slot = j.toNat
  location : b.kind.isBound = false → b.index = t.locationOf v.id

omit [NameLimit] in
/-- Only images have dimensions. -/
theorem extentOf_of_component (h : ty.component.isScalar) : extentOf ty = 0 := by
  cases ty with
  | image => cases h
  | _ => rfl

omit [NameLimit] in
/-- Bindings stand in the order of the variables they are of. -/
theorem ids_of_reflects {vs : List Variable} {bs : List Binding} (h : List.Forall₂ (Reflects D t) vs bs) :
    bs.map (·.variable_) = vs.map (·.id) := by
  induction h with
  | nil => rfl
  | cons hb _ ih => rw [List.map_cons, List.map_cons, hb.id, ih]

omit [NameLimit] in
/-- What holds of bindings as they are numbered. -/
theorem forall₂_number {P : Variable → Binding → Prop}
    (hP : ∀ (entries : List (Binding × Nat)) (k : Nat) (v : Variable) (b : Binding), P v b →
      P v (number entries (b, k))) (entries : List (Binding × Nat)) (k : Nat) {vs : List Variable}
    {bs : List Binding} (h : List.Forall₂ P vs bs) :
    List.Forall₂ P vs ((bs.zipIdx k).map (number entries)) := by
  induction h generalizing k with
  | nil => exact .nil
  | cons hb _ ih =>
    rw [List.zipIdx_cons, List.map_cons]
    exact .cons (hP entries k _ _ hb) (ih (k + 1))

/-! ### Annotations -/

omit [NameLimit] in
/-- A number for a place: a location, a set or a slot. -/
theorem decorated_place (h : Decorated dec params) (hdec : dec = Decoration.location ∨
    dec = Decoration.descriptorSet ∨ dec = Decoration.binding) : ∃ k, params = [k] := by
  cases h with
  | descriptorSet k | binding k | location k => exact ⟨k, rfl⟩
  | block | nonReadable | position | invocation => exact absurd hdec (by decide)

omit [NameLimit] in
/-- The built-in variables that occur are known. -/
theorem decorated_builtIn (h : Decorated dec params) (hdec : dec = Decoration.builtIn) :
    ∃ code e, params = [code] ∧ builtIn? code = some e := by
  cases h with
  | position | invocation => exact ⟨_, _, rfl, rfl⟩
  | _ => exact absurd hdec (by decide)

section Tables

variable (S : Scope D A R globals) (hold : t.Hold globals)
include S hold

/-- **An annotation is found**, and all that are found are known ones. -/
theorem decoration_of_mem (h : ⟨.decorate, x :: dec :: params⟩ ∈ A) :
    ∃ ps, t.decoration? x dec = some ps := by
  have hmem : ((x, dec), params) ∈ t.decorations := by
    rw [hold.decorations, List.mem_reverse]
    exact List.mem_filterMap.2 ⟨_, S.annotations h, rfl⟩
  rw [Tables.decoration?]
  cases hl : t.decorations.lookup (x, dec) with
  | some ps => exact ⟨ps, rfl⟩
  | none =>
    rw [List.lookup_eq_none_iff] at hl
    exact absurd (hl _ hmem) (by simp)

theorem decorated_of_decoration (h : t.decoration? x dec = some params) : Decorated dec params := by
  have hmem := lookup_mem (show t.decorations.lookup (x, dec) = some params from h)
  rw [hold.decorations, List.mem_reverse, List.mem_filterMap] at hmem
  obtain ⟨i, hi, he⟩ := hmem
  unfold annotation? at he
  split at he
  · rename_i hop
    split at he
    · rename_i x' dec' params' hops
      cases he
      exact S.decorated x dec params (by rwa [← hops, ← hop])
    · cases he
  · cases he

/-- The place a variable is annotated with. -/
theorem decoration_place (h : ∃ k, ⟨.decorate, [x, dec, k]⟩ ∈ A)
    (hdec : dec = Decoration.descriptorSet ∨ dec = Decoration.binding) :
    ∃ k, t.decoration? x dec = some [k] := by
  obtain ⟨k, hk⟩ := h
  obtain ⟨ps, hps⟩ := decoration_of_mem S hold hk
  obtain ⟨k, rfl⟩ := decorated_place (decorated_of_decoration S hold hps) (.inr hdec)
  exact ⟨k, hps⟩

/-! ### Buffers -/

/-- Whether a member is packed can be told. -/
theorem isPacked_ok {ms : List UInt32} (hms : ⟨.typeStruct, x :: ms⟩ ∈ D) {k : Nat}
    {m : UInt32} (hk : ms[k]? = some m) : ∃ packed, isPacked t x k = .ok packed := by
  have hinfo : t.typeOf x = .ok (.struct ms) := typeOf_eq S hold hms rfl
  have hget : (TypeInfo.struct ms).members[k]? = some m := hk
  cases S.forms _ hms with
  | typeStruct hmembers _ =>
    obtain ⟨ty, hm, -⟩ := hmembers m (List.mem_of_getElem? hk)
    obtain ⟨info, hinfo', hd⟩ := typeOf_spec S hold hm
    simp only [isPacked, hinfo, bind, Except.bind, hget, hinfo']
    cases hd with
    | @vector c n e hc =>
      obtain ⟨info, hinfo'', -⟩ := typeOf_spec S hold hc
      split
      · rename_i heq
        cases heq
        rw [hinfo'']
        dsimp only
        split
        · exact ⟨_, rfl⟩
        · split
          · exact ⟨_, rfl⟩
          · split <;> exact ⟨_, rfl⟩
      · exact ⟨_, rfl⟩
    | _ => exact ⟨_, rfl⟩

/-- The type a member is declared with has a name. -/
theorem total_memberType {ms : List UInt32} (hms : ⟨.typeStruct, x :: ms⟩ ∈ D) {k : Nat}
    (hk : k < ms.length) : Total (memberType t x k) := by
  have hinfo : t.typeOf x = .ok (.struct ms) := typeOf_eq S hold hms rfl
  have hget : ms[k]? = some ms[k] := List.getElem?_eq_getElem hk
  obtain ⟨packed, hpacked⟩ := isPacked_ok S hold hms hget
  refine total_lift hpacked ?_
  split
  · exact total_pure _
  · refine total_lift hinfo ?_
    simp only [TypeInfo.members, hget]
    cases S.forms _ hms with
    | typeStruct hmembers _ =>
      obtain ⟨ty, hm, hty⟩ := hmembers ms[k] (List.getElem_mem hk)
      refine total_typeName S hold hm ?_
      rcases hty with hs | ⟨c, n, rfl⟩
      · exact named_of_component hs
      · rfl

/-- A uniform buffer is described with all its members. -/
theorem bufferOf_spec {ms : List UInt32} (hms : ⟨.typeStruct, x :: ms⟩ ∈ D) (b : Binding)
    (names : Names) : Yields (bufferOf t b x ms) names fun b' _ =>
      b'.variable_ = b.variable_ ∧ b'.kind = .uniformBuffer ∧ b'.dim = b.dim := by
  refine yields_bind ((total_typeName S hold (.struct hms) rfl names).mono fun format names _ => ?_)
  have hmembers : Total ((List.range ms.length).mapM fun i => do
      return { name := memberName t x i, type := ← memberType t x i,
               offset := (t.memberOffset? x i).getD 0 : Member }) :=
    total_mapM fun i hi =>
      total_bind (total_memberType S hold hms (List.mem_range.1 hi)) fun _ => total_pure _
  exact yields_bind ((hmembers names).mono fun _ _ _ => yields_pure ⟨rfl, rfl, rfl⟩)

/-! ### Variables -/

/-- A stage input or output is at a location or built in. -/
theorem stageVariable_spec (hty : TypeAt D p ty) (hs : ty.component.isScalar) (b : Binding)
    (hb : Located A b.variable_) (hindex : b.index = -1) (names : Names) :
    Yields (stageVariable t b p) names fun b' _ => b'.variable_ = b.variable_ ∧ b'.kind = b.kind ∧
      b'.dim = b.dim ∧ b'.index = t.locationOf b.variable_ := by
  refine yields_bind
    ((total_typeName S hold hty (named_of_component hs) names).mono fun format names _ => ?_)
  dsimp only
  cases hl : t.decoration? b.variable_ Decoration.location with
  | some params =>
    obtain ⟨k, rfl⟩ := decorated_place (decorated_of_decoration S hold hl) (.inl rfl)
    have hlocation : t.locationOf b.variable_ = k.toNat := by rw [Tables.locationOf, hl]
    exact yields_lift rfl (yields_pure ⟨rfl, rfl, rfl, hlocation.symm⟩)
  | none =>
    rcases hb with ⟨k, hk⟩ | ⟨k, hk⟩
    · obtain ⟨ps, hps⟩ := decoration_of_mem S hold hk
      rw [hl] at hps
      cases hps
    · obtain ⟨ps, hps⟩ := decoration_of_mem S hold hk
      obtain ⟨code, ⟨name, mark⟩, rfl, he⟩ :=
        decorated_builtIn (decorated_of_decoration S hold hps) rfl
      rw [hps]
      refine yields_lift rfl ?_
      rw [he]
      have hlocation : t.locationOf b.variable_ = -1 := by rw [Tables.locationOf, hl]
      exact yields_bind (yields_modify (yields_pure ⟨rfl, rfl, rfl, hindex.trans hlocation.symm⟩))

/-- **A variable is classified**; where it has a set and a slot, it is annotated with them. -/
theorem classify_spec (hp : TypeAt D p (.pointer s ty)) (hx : Placed A x s ty) (names : Names) :
    Yields (classifyVariable t ⟨x, p, s⟩) names fun b _ =>
      Classifies t x s ty b ∧ (b.kind.isBound = true → Bound A x) := by
  obtain ⟨info, hinfo, hd⟩ := typeOf_spec S hold hp
  refine yields_lift hinfo ?_
  cases hd with
  | @pointer _ c _ hc =>
    obtain ⟨pointee, hpointee, hd⟩ := typeOf_spec S hold hc
    refine yields_lift hpointee ?_
    cases hx with
    | block hb =>
      cases hd with
      | struct hms =>
        cases hc with
        | struct =>
          refine (bufferOf_spec S hold hms _ names).mono fun b _ h => ⟨⟨h.1, h.2.1, h.2.2, ?_⟩, fun _ => hb⟩
          rw [h.2.1]
          exact fun h => by cases h
    | @image _ sampled _ hdim hb =>
      cases hd with
      | image =>
        refine yields_pure ⟨⟨rfl, rfl, rfl, fun h => ?_⟩, fun _ => hb⟩
        by_cases h2 : sampled = 2
        · rw [if_pos h2] at h
          cases h
        · rw [if_neg h2] at h
          cases h
    | sampler hb =>
      cases hd with
      | sampler => exact yields_pure ⟨⟨rfl, rfl, rfl, fun h => by cases h⟩, fun _ => hb⟩
    | input hs hl =>
      refine (stageVariable_spec S hold hc hs _ hl rfl names).mono fun b _ h =>
        ⟨⟨h.1, h.2.1, h.2.2.1.trans (extentOf_of_component hs).symm, fun _ => h.2.2.2⟩, fun hb => ?_⟩
      rw [h.2.1] at hb
      cases hb
    | output hs hl =>
      refine (stageVariable_spec S hold hc hs _ hl rfl names).mono fun b _ h =>
        ⟨⟨h.1, h.2.1, h.2.2.1.trans (extentOf_of_component hs).symm, fun _ => h.2.2.2⟩, fun hb => ?_⟩
      rw [h.2.1] at hb
      cases hb

/-- The variables of a module have a type and what their storage class asks for. -/
theorem variable_placed {v : Variable} (hv : v ∈ t.globals) : ∃ ty,
    TypeAt D v.pointer (.pointer v.storage ty) ∧ Placed A v.id v.storage ty ∧
      ⟨.variableDecl, [v.pointer, v.id, v.storage]⟩ ∈ D := by
  rw [hold.globals, List.mem_filterMap] at hv
  obtain ⟨i, hi, he⟩ := hv
  obtain ⟨op, ops⟩ := i
  unfold declaredVariable? at he
  split at he
  · rename_i hop
    split at he
    · rename_i p x s hops
      cases he
      cases hop
      cases hops
      have hdecl := S.placed p x s hi
      cases S.forms _ hdecl with
      | variableDecl hp hx => exact ⟨_, hp, hx, hdecl⟩
    · cases he
  · cases he

/-- **A variable is bound.** -/
theorem bind_spec {v : Variable} (hv : v ∈ t.globals) (names : Names) :
    Yields (bindVariable t v) names fun b _ => Reflects D t v b := by
  obtain ⟨ty, hp, hx, -⟩ := variable_placed S hold hv
  have hname : ∀ (b : Binding) (names : Names), (∀ name : String, Reflects D t v { b with name }) →
      Yields (do return { b with name := ← identifier t v.id "var" } : Naming Binding) names
        fun b _ => Reflects D t v b := fun b names hb =>
    yields_bind ((total_identifier t v.id "var" names).mono fun _ _ _ => yields_pure (hb _))
  refine yields_bind ((classify_spec S hold hp hx names).mono fun b names h => ?_)
  obtain ⟨hc, hbound⟩ := h
  dsimp only
  split
  · rename_i hb
    obtain ⟨hset, hslot⟩ := hbound hb
    obtain ⟨i, hi⟩ := decoration_place S hold hset (.inl rfl)
    obtain ⟨j, hj⟩ := decoration_place S hold hslot (.inr rfl)
    rw [hi, hj]
    exact yields_lift rfl (yields_lift rfl (yields_bind (yields_pure (hname _ names fun _ =>
      ⟨hc.id, ⟨ty, hp, hc.kind, hc.dim⟩, fun _ => ⟨i, j, hi, hj, rfl, rfl⟩, hc.location⟩))))
  · rename_i hb
    exact yields_bind (yields_pure (hname b names fun _ =>
      ⟨hc.id, ⟨ty, hp, hc.kind, hc.dim⟩, fun h => absurd h hb, hc.location⟩))

omit [NameLimit] S hold in
/-- Numbering bindings gives an index to those in an argument table only. -/
theorem Reflects.number {v : Variable} {b : Binding} (h : Reflects D t v b) (entries : List (Binding × Nat))
    (k : Nat) : Reflects D t v (number entries (b, k)) := by
  unfold Metal.number
  split
  · exact h
  · rename_i table htable
    refine ⟨h.id, h.shape, h.place, fun hb => ?_⟩
    have hnone : b.kind.table? = none := by
      revert hb
      show b.kind.isBound = false → _
      cases b.kind <;> first | exact fun _ => rfl | exact fun h => by cases h
    rw [hnone] at htable
    cases htable

/-- **All variables are reflected**, in the order of their declarations. -/
theorem reflect_spec (names : Names) : Yields (reflect t) names fun bs _ =>
    List.Forall₂ (Reflects D t) t.globals bs := by
  refine yields_bind ((yields_mapM (fun v hv names => bind_spec S hold hv names) names).mono
    fun bs _ hbs => yields_pure ?_)
  exact forall₂_number (fun entries k _ _ hb => hb.number entries k) bs.zipIdx 0 hbs

end Tables

end NodeShader.Metal
