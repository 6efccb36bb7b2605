import NodeShader.Proofs.Metal.Reflecting
import NodeShader.Proofs.Outcome

/-!
# Modules that share their variables

Two modules with the same names, annotations and variables may differ in what types and constants they
declare besides.  As long as both are in the scope of the declarations that the variables need (`Kin`),
the same is reflected from them, with the same texts for the names.

* `Kin.typeOf`, `Kin.typeName`: a type that is declared there is found alike in both, and has the same
  name however many declarations there are in all.
* `Kin.bindVariable`: a variable has the same binding.
* `Kin.reflect`: **the same bindings are reflected**.
-/

namespace NodeShader.Metal

open Spirv

/-- **Tables that share** their names, annotations and variables. -/
structure Tables.Shares (t u : Tables) : Prop where
  names : u.names = t.names
  memberNames : u.memberNames = t.memberNames
  decorations : u.decorations = t.decorations
  memberDecorations : u.memberDecorations = t.memberDecorations
  globals : u.globals = t.globals

variable {t u : Tables} {x p : UInt32}

/-- A look-up that succeeds gives its result to what comes next. -/
theorem lift_bind {σ α β : Type} {y : Result α} {a : α} {f : α → StateT σ Result β} (h : y = .ok a) :
    (liftM y >>= f : StateT σ Result β) = f a := by
  rw [h]
  rfl

/-- **Modules in one scope** whose tables share names, annotations and variables. -/
structure Kin [NameLimit] (D A : List Instruction) (R : List UInt32) (G G' : List Instruction)
    (t u : Tables) : Prop extends t.Shares u where
  scope : Scope D A R G
  scope' : Scope D A R G'
  hold : t.Hold G
  hold' : u.Hold G'

namespace Tables.Shares

variable (h : t.Shares u)
include h

theorem identifier (id : UInt32) (fallback : String) :
    Metal.identifier u id fallback = Metal.identifier t id fallback := by
  simp only [Metal.identifier, h.names]

theorem memberName (struct : UInt32) (member : Nat) :
    Metal.memberName u struct member = Metal.memberName t struct member := by
  simp only [Metal.memberName, h.memberNames]

theorem decoration? (id dec : UInt32) : u.decoration? id dec = t.decoration? id dec := by
  rw [Tables.decoration?, Tables.decoration?, h.decorations]

theorem memberOffset? (struct : UInt32) (member : Nat) :
    u.memberOffset? struct member = t.memberOffset? struct member := by
  simp only [Tables.memberOffset?, h.memberDecorations]

end Tables.Shares

namespace Kin

variable [NameLimit] {D A : List Instruction} {R : List UInt32} {G G' : List Instruction}
  {ty : Ty} (K : Kin D A R G G' t u)
include K

/-! ### Types -/

/-- **A declared type is found alike.** -/
theorem typeOf (h : TypeAt D x ty) :
    ∃ info, t.typeOf x = .ok info ∧ u.typeOf x = .ok info ∧ Describes D info ty := by
  obtain ⟨info, hinfo, hd⟩ := typeOf_spec K.scope K.hold h
  have hsame : ∀ {i : Instruction} {info : TypeInfo}, i ∈ D → declaredType? i = some (x, info) →
      u.typeOf x = t.typeOf x := fun hi he =>
    (typeOf_eq K.scope' K.hold' hi he).trans (typeOf_eq K.scope K.hold hi he).symm
  refine ⟨info, hinfo, ?_, hd⟩
  rw [← hinfo]
  cases h with
  | void hm | bool hm | int hm | float hm | sampler hm | struct hm => exact hsame hm rfl
  | vector hm | matrix hm | image hm | sampledImage hm | pointer hm | function hm => exact hsame hm rfl

/-- A scalar type has the same name at any depth. -/
theorem scalarName (h : TypeAt D x ty) (hs : ty.isScalar) (k l : Nat) :
    typeNameWithin u (l + 1) x = typeNameWithin t (k + 1) x := by
  obtain ⟨info, hinfo, hinfo', hd⟩ := K.typeOf h
  refine (lift_bind hinfo').trans (Eq.trans ?_ (lift_bind hinfo).symm)
  cases hd with
  | bool | int | float => rfl
  | _ => cases hs

/-- **A declared type has the same name.** -/
theorem typeName (h : TypeAt D x ty) (hn : named ty = true) : Metal.typeName u x = Metal.typeName t x := by
  obtain ⟨info, hinfo, hinfo', hd⟩ := K.typeOf h
  obtain ⟨k, hk⟩ := typeName_eq t x
  obtain ⟨l, hl⟩ := typeName_eq u x
  rw [hk, hl]
  refine (lift_bind hinfo').trans (Eq.trans ?_ (lift_bind hinfo).symm)
  cases hd with
  | void | bool | int | float | sampler => rfl
  | vector hc =>
    dsimp only
    rw [K.scalarName hc (K.scope.vector h).1 k l]
  | matrix hc =>
    obtain ⟨e, m, rfl⟩ := K.scope.matrix h
    obtain ⟨column, hcolumn, hcolumn', hcd⟩ := K.typeOf hc
    dsimp only
    rw [lift_bind hcolumn, lift_bind hcolumn']
    cases hcd with
    | vector he =>
      simp only [TypeInfo.element, TypeInfo.count]
      rw [K.scalarName he (K.scope.vector hc).1 k l]
  | image hc =>
    obtain ⟨rfl, -⟩ := K.scope.image h
    dsimp only
    rw [K.scalarName hc rfl k l]
  | struct => exact K.identifier x "Struct"
  | _ => cases hn

/-! ### Buffers -/

/-- The members of a struct have types that values have. -/
theorem members {ms : List UInt32} {k : Nat} {m : UInt32} (hms : ⟨.typeStruct, x :: ms⟩ ∈ D)
    (hk : ms[k]? = some m) : ∃ ty, TypeAt D m ty ∧ named ty = true := by
  cases K.scope.forms _ hms with
  | typeStruct hmembers _ =>
    obtain ⟨ty, hm, hty⟩ := hmembers m (List.mem_of_getElem? hk)
    refine ⟨ty, hm, ?_⟩
    rcases hty with hs | ⟨c, n, rfl⟩
    · exact named_of_component hs
    · rfl

/-- Members are packed alike. -/
theorem isPacked {ms : List UInt32} (hms : ⟨.typeStruct, x :: ms⟩ ∈ D) (k : Nat) :
    Metal.isPacked u x k = Metal.isPacked t x k := by
  have hinfo : t.typeOf x = .ok (.struct ms) := typeOf_eq K.scope K.hold hms rfl
  have hinfo' : u.typeOf x = .ok (.struct ms) := typeOf_eq K.scope' K.hold' hms rfl
  simp only [Metal.isPacked, hinfo, hinfo', bind, Except.bind, TypeInfo.members]
  cases hk : ms[k]? with
  | none => rfl
  | some m =>
    obtain ⟨ty, hm, -⟩ := K.members hms hk
    obtain ⟨info, hinfo, hinfo', hd⟩ := K.typeOf hm
    simp only [hinfo, hinfo']
    cases hd with
    | vector hc =>
      obtain ⟨element, helement, helement', -⟩ := K.typeOf hc
      simp only [K.memberOffset?]
      split
      · rename_i heq
        cases heq
        rw [helement, helement']
        rfl
      · rfl
    | _ => rfl

/-- A member is declared with the same type. -/
theorem memberType {ms : List UInt32} (hms : ⟨.typeStruct, x :: ms⟩ ∈ D) (k : Nat) :
    Metal.memberType u x k = Metal.memberType t x k := by
  have hinfo : t.typeOf x = .ok (.struct ms) := typeOf_eq K.scope K.hold hms rfl
  have hinfo' : u.typeOf x = .ok (.struct ms) := typeOf_eq K.scope' K.hold' hms rfl
  rw [Metal.memberType, Metal.memberType, K.isPacked hms k]
  refine congrArg (liftM (Metal.isPacked t x k) >>= ·) (funext fun packed => ?_)
  cases packed with
  | true => rfl
  | false =>
    simp only [Bool.false_eq_true, if_false]
    rw [lift_bind hinfo, lift_bind hinfo']
    dsimp only [TypeInfo.members]
    cases hk : ms[k]? with
    | none => rfl
    | some m =>
      obtain ⟨ty, hm, hn⟩ := K.members hms hk
      exact K.typeName hm hn

/-- **A uniform buffer is described alike.** -/
theorem bufferOf {ms : List UInt32} (hms : ⟨.typeStruct, x :: ms⟩ ∈ D) (b : Binding) :
    Metal.bufferOf u b x ms = Metal.bufferOf t b x ms := by
  simp only [Metal.bufferOf, K.typeName (.struct hms) rfl, K.memberName, K.memberType hms, K.memberOffset?]

/-! ### Variables -/

/-- A stage input or output is described alike. -/
theorem stageVariable (hty : TypeAt D p ty) (hs : ty.component.isScalar) (b : Binding) :
    Metal.stageVariable u b p = Metal.stageVariable t b p := by
  simp only [Metal.stageVariable, K.typeName hty (named_of_component hs), K.decoration?]

/-- **A variable is classified alike.** -/
theorem classifyVariable {v : Variable} (hv : v ∈ t.globals) :
    Metal.classifyVariable u v = Metal.classifyVariable t v := by
  obtain ⟨ty, hp, hx, -⟩ := variable_placed K.scope K.hold hv
  obtain ⟨x, p, s⟩ := v
  obtain ⟨info, hinfo, hinfo', hd⟩ := K.typeOf hp
  rw [Metal.classifyVariable, Metal.classifyVariable, lift_bind hinfo, lift_bind hinfo']
  cases hd with
  | pointer hc =>
    obtain ⟨pointee, hpointee, hpointee', hd⟩ := K.typeOf hc
    dsimp only
    rw [lift_bind hpointee, lift_bind hpointee']
    cases hx with
    | block =>
      cases hd with
      | struct hms =>
        cases hc with
        | struct => exact K.bufferOf hms _
    | image =>
      cases hd with
      | image => rfl
    | sampler =>
      cases hd with
      | sampler => rfl
    | input hs => exact K.stageVariable hc hs _
    | output hs => exact K.stageVariable hc hs _

/-- **A variable has the same binding.** -/
theorem bindVariable {v : Variable} (hv : v ∈ t.globals) :
    Metal.bindVariable u v = Metal.bindVariable t v := by
  simp only [Metal.bindVariable, K.classifyVariable hv, K.decoration?, K.identifier]

/-- **The same bindings are reflected.** -/
theorem reflect : Metal.reflect u = Metal.reflect t := by
  rw [Metal.reflect, Metal.reflect, K.globals, mapM_congr fun _ => K.bindVariable]

end Kin

end NodeShader.Metal
