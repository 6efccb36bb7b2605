import NodeShader.Graph.Basic
import NodeShader.Math.Read
import NodeShader.Proofs.Outcome
import NodeShader.Proofs.Shape
import NodeShader.Proofs.Spirv.Semantics

/-!
# The meaning of a graph

A graph is evaluated from an output port backwards: the value of a port is what its node computes from
the values that flow into the inputs, and nothing flows into an open input but the zero of its type
(`Graph.inputAt`, `Graph.valueAt`).  What each kind of node computes is written down in
`Graph.nodeValue`; arithmetic stands for the instruction that computes it on the type at hand, under an
arbitrary interpretation of instructions.

Nothing here knows of stages, of an order of nodes or of arms: a conditional is the value of the arm
its condition chooses, and only that arm is evaluated.  Evaluation follows edges as far as its fuel
goes; `Graph.Denotes` and `Graph.Supplies` say what it gives with enough of it, and that is what it
gives with any fuel that suffices (`Graph.supplies_iff`), since what a node computes stays as it is when
more ports have values (`Graph.persists_nodeValue`).
-/

namespace NodeShader

open Spirv

/-- The instruction of an arithmetic function, on floating point numbers or on integers, with its
literals. -/
def Math.Operation.instruction : Math.Operation → (integral : Bool) → Opcode × List UInt32
  | .binary .add, false => (.fAdd, [])
  | .binary .add, true => (.iAdd, [])
  | .binary .sub, false => (.fSub, [])
  | .binary .sub, true => (.iSub, [])
  | .binary .mul, false => (.fMul, [])
  | .binary .mul, true => (.iMul, [])
  | .binary .div, false => (.fDiv, [])
  | .binary .div, true => (.sDiv, [])
  | .binary .min, false => (.extInst, [Extended.fMin])
  | .binary .min, true => (.extInst, [Extended.sMin])
  | .binary .max, false => (.extInst, [Extended.fMax])
  | .binary .max, true => (.extInst, [Extended.sMax])
  | .binary .pow, _ => (.extInst, [Extended.pow])
  | .unary .neg, false => (.fNegate, [])
  | .unary .neg, true => (.sNegate, [])
  | .unary .abs, false => (.extInst, [Extended.fAbs])
  | .unary .abs, true => (.extInst, [Extended.sAbs])
  | .unary .floor, _ => (.extInst, [Extended.floor])
  | .unary .fract, _ => (.extInst, [Extended.fract])
  | .unary .sqrt, _ => (.extInst, [Extended.sqrt])
  | .unary .sin, _ => (.extInst, [Extended.sin])
  | .unary .cos, _ => (.extInst, [Extended.cos])
  | .unary .normalize, _ => (.extInst, [Extended.normalize])
  | .mix, _ => (.extInst, [Extended.fMix])

/-- The instruction of a comparison, on floating point numbers or on integers. -/
def Comparison.instruction? : Comparison → (integral : Bool) → Option Opcode
  | less, false => some .fOrdLessThan
  | less, true => some .sLessThan
  | lessEqual, false => some .fOrdLessThanEqual
  | lessEqual, true => some .sLessThanEqual
  | greater, false => some .fOrdGreaterThan
  | greater, true => some .sGreaterThan
  | greaterEqual, false => some .fOrdGreaterThanEqual
  | greaterEqual, true => some .sGreaterThanEqual
  | equal, false => some .fOrdEqual
  | equal, true => some .iEqual
  | notEqual, false => some .fOrdNotEqual
  | notEqual, true => some .iNotEqual
  | unknown _, _ => none

namespace Spirv.Interpretation

/-- A number as a constant of a scalar type. -/
def number (I : Interpretation) (t : ValueType) (x : Float) : I.Value :=
  if t = .bool then I.ofBool (x != 0) else I.scalar t.shape (t.word x)

/-- Numbers as a constant of a type; a single one stands for all components. -/
def numbers (I : Interpretation) (t : ValueType) (xs : List Float) : I.Value :=
  if t.size = 1 then I.number t (xs.getD 0 0)
  else
    I.composite t.shape ((List.range t.size).map fun k =>
      I.number t.scalar (if 1 < xs.length then xs.getD k 0 else xs.getD 0 0))

/-- An arithmetic function on arguments of a type. -/
def operation (I : Interpretation) (f : Math.Operation) (t : ValueType) (args : List I.Value) :
    I.Value :=
  I.apply (f.instruction t.isInt).1 (f.instruction t.isInt).2 t.shape args

/-- A value as a colour: a scalar fills red, green and blue, missing parts are 0 and alpha is 1. -/
def colour (I : Interpretation) (t : ValueType) (v : I.Value) : I.Value :=
  let one := I.numbers .float [1]
  let zero := I.numbers .float [0]
  match t.size with
  | 1 => I.apply .compositeConstruct [] .colour [v, v, v, one]
  | 2 => I.apply .compositeConstruct [] .colour [v, zero, one]
  | 3 => I.apply .compositeConstruct [] .colour [v, one]
  | _ => v

/-- The centre of the texel of the current invocation, from 0 to 1 along each axis. -/
def texelCentre (I : Interpretation) : I.Value :=
  let float3 := ValueType.float3.shape
  let place := I.apply .convertUToF [] float3 [I.invocation]
  let centre := I.apply .fAdd [] float3 [place, I.numbers .float3 [0.5]]
  I.apply .fDiv [] float3 [centre, I.member 2]

/-- Where a field of some dimensions is sampled when no position is given. -/
def implicitPosition (I : Interpretation) (fragment : Bool) (dim : Nat) : I.Value :=
  match fragment, dim with
  | true, 2 => I.input "texcoord"
  | true, _ => I.input "position"
  | false, 3 => I.texelCentre
  | false, _ =>
    I.apply .vectorShuffle [0, 1] ValueType.float2.shape [I.texelCentre, I.texelCentre]

/-- The texel of the field of a node, of some dimensions, at a position. -/
def sampled (I : Interpretation) (fragment : Bool) (field dim : Nat) (position : I.Value) :
    I.Value :=
  let joined := I.apply .sampledImage []
    (.sampledImage (.image (.float 32) (Dim.ofCount dim) 1 ImageFormat.unknown))
    [I.image field, I.sampler field]
  if fragment then I.apply .imageSampleImplicitLod [] .colour [joined, position]
  else
    I.apply .imageSampleExplicitLod [imageOperandsLod] .colour
      [joined, position, I.numbers .float [0]]

/-- What is shown under a name: colours are completed. -/
def shown (I : Interpretation) (name : String) (t : ValueType) (v : I.Value) : I.Value :=
  if name = "color" ∨ name = "base_color" then I.colour t v else v

/-- Where the texel of the current invocation is in a field of some dimensions. -/
def texelPlace (I : Interpretation) (dim : Int) : I.Value :=
  if dim = 2 then I.apply .vectorShuffle [0, 1] (.vector (.int 32 false) 2) [I.invocation, I.invocation]
  else I.invocation

end Spirv.Interpretation

/-- The inputs that an output of a graph shows, each under its name. -/
def Node.shown (n : Node) : List (String × PortId) :=
  match n.kind, n.inputs with
  | .previewOutput, [c] => [("color", c)]
  | .materialOutput, [c, r, e] => [("base_color", c), ("roughness", r), ("emission", e)]
  | _, _ => []

namespace Graph

/-- The value of an expression of a type, given what flows into the inputs of its node. -/
def exprValue (I : Interpretation) (g : Graph) (input : PortId → Option I.Value) (n : Node)
    (t : ValueType) : Math.Expr → Option I.Value
  | .number x => some (I.numbers t [x])
  | .input name =>
    match g.inputNamed n name with
    | .ok q => input q
    | .error _ => none
  | .unary f x => do
    let x ← exprValue I g input n t x
    return I.operation (.unary f) t [x]
  | .binary f x y => do
    let x ← exprValue I g input n t x
    let y ← exprValue I g input n t y
    return I.operation (.binary f) t [x, y]
  | .mix x y s => do
    let x ← exprValue I g input n t x
    let y ← exprValue I g input n t y
    let s ← exprValue I g input n t s
    return I.operation .mix t [x, y, s]

/-- Chosen components of a value. -/
def swizzled (I : Interpretation) (t u : ValueType) (ks : List Nat) (v : I.Value) : I.Value :=
  match t.size, ks with
  | 1, [_] => v
  | 1, _ => I.apply .compositeConstruct [] u.shape (ks.map fun _ => v)
  | _, [k] => I.apply .compositeExtract [k.toUInt32] u.shape [v]
  | _, _ => I.apply .vectorShuffle (ks.map Nat.toUInt32) u.shape [v, v]

/-- The arithmetic function of a kind. -/
def operationOf : NodeKind → Option Math.Operation
  | .add => some (.binary .add)
  | .subtract => some (.binary .sub)
  | .multiply => some (.binary .mul)
  | .divide => some (.binary .div)
  | .min => some (.binary .min)
  | .max => some (.binary .max)
  | .power => some (.binary .pow)
  | .negate => some (.unary .neg)
  | .abs => some (.unary .abs)
  | .floor => some (.unary .floor)
  | .fract => some (.unary .fract)
  | .sqrt => some (.unary .sqrt)
  | .sin => some (.unary .sin)
  | .cos => some (.unary .cos)
  | .normalize => some (.unary .normalize)
  | .mix => some .mix
  | _ => none

/-- **What a node computes** at an output port from what flows into its inputs. -/
def nodeValue (I : Interpretation) (g : Graph) (τ : PortId → ValueType) (fragment : Bool)
    (input : PortId → Option I.Value) (n : Node) (out : PortId) : Option I.Value :=
  match operationOf n.kind with
  | some f => do
    let args ← n.inputs.mapM input
    return I.operation f (τ out) args
  | none =>
    match n.kind, n.params, n.inputs with
    | .constant, .constant values _, _ => some (I.numbers (τ out) values)
    | .time, _, _ => some (I.member 3)
    | .position, _, _ => some (if fragment then I.input "position" else I.texelCentre)
    | .normal, _, _ => some (I.input "normal")
    | .texCoord, _, _ => some (I.input "texcoord")
    | .length, _, [a] => do return I.apply .extInst [Extended.length] (τ out).shape [← input a]
    | .dot, _, [a, b] => do
      let x ← input a
      let y ← input b
      return I.apply (if (τ a).isVector then .dot else .fMul) [] (τ out).shape [x, y]
    | .compare, .compare test, [a, b] => do
      let x ← input a
      let y ← input b
      match test.instruction? (τ a).isInt with
      | some op => return I.apply op [] .bool [x, y]
      -- a comparison of no known kind never holds
      | none => return I.ofBool false
    | .conditional, _, [c, a, b] => do
      let test ← input c
      if I.truth test then input a else input b
    | .swizzle, .swizzle selector, [a] => do
      let ks ← selectorComponents? selector
      return swizzled I (τ a) (τ out) ks (← input a)
    | .combine, _, ports => do
      let args ← ports.mapM input
      return I.apply .compositeConstruct [] (τ out).shape args
    | .separate, _, [a] => do
      let v ← input a
      if (τ a).size = 1 then return v
      else return I.apply .compositeExtract [(n.outputs.idxOf out).toUInt32] (τ out).shape [v]
    | .mathExpression, .math source names, _ =>
      match Math.Expr.parse source names with
      | .ok e => exprValue I g input n (τ out) e
      | .error _ => none
    | .sample, _, [field, position] => do
      let j ← g.producerPosition? field
      let place ←
        match g.producer? position with
        | some _ => input position
        | none => some (I.implicitPosition fragment (τ field).size)
      return I.sampled fragment j (τ field).size place
    | _, _, _ => none

/-- The constant that flows into an input: that of a constant node, or the zero of an open input. -/
def constantInput? (I : Interpretation) (g : Graph) (τ : PortId → ValueType) (q : PortId) :
    Option I.Value :=
  match (g.producerPosition? q).bind (g.nodes[·]?) with
  | none => some (I.null (τ q).shape)
  | some n =>
    match n.kind, n.params with
    | .constant, .constant [v] scalar => some (I.number (constantType [v] scalar) v)
    | _, _ => none

/-- The value of an output port, with the fuel to follow as many edges. -/
def valueAt (I : Interpretation) (g : Graph) (τ : PortId → ValueType) (fragment : Bool) :
    Nat → PortId → Option I.Value
  | 0, _ => none
  | fuel + 1, out => do
    let n ← g.owner? out
    nodeValue I g τ fragment (fun q =>
      match g.producer? q with
      | some out => valueAt I g τ fragment fuel out
      | none => some (I.null (τ q).shape)) n out

/-- What flows into an input port: the value of its producer, or the zero of its type. -/
def inputAt (I : Interpretation) (g : Graph) (τ : PortId → ValueType) (fragment : Bool) (fuel : Nat)
    (q : PortId) : Option I.Value :=
  match g.producer? q with
  | some out => valueAt I g τ fragment fuel out
  | none => some (I.null (τ q).shape)

variable {I : Interpretation} {g : Graph} {τ : PortId → ValueType} {fragment : Bool}
  {q out : PortId} {v : I.Value}

variable (g τ fragment) in
/-- The value of an output port, whatever more fuel there is. -/
def Denotes (out : PortId) (v : I.Value) : Prop :=
  ∃ N, ∀ fuel ≥ N, g.valueAt I τ fragment fuel out = some v

variable (g τ fragment) in
/-- The value that flows into an input port, whatever more fuel there is. -/
def Supplies (q : PortId) (v : I.Value) : Prop :=
  ∃ N, ∀ fuel ≥ N, g.inputAt I τ fragment fuel q = some v

theorem Denotes.supplies (h : g.Denotes τ fragment out v) (hq : g.producer? q = some out) :
    g.Supplies τ fragment q v := by
  obtain ⟨N, hN⟩ := h
  refine ⟨N, fun fuel hf => ?_⟩
  rw [inputAt, hq]
  exact hN fuel hf

theorem supplies_open (hq : g.producer? q = none) :
    g.Supplies τ fragment q (I.null (τ q).shape) := by
  refine ⟨0, fun fuel _ => ?_⟩
  rw [inputAt, hq]

/-- What a node computes with enough fuel is the value of its port. -/
theorem denotes_of_node {i N : Nat} {n : Node} (ho : g.ownerPosition? out = some i)
    (hn : g.nodes[i]? = some n)
    (h : ∀ fuel ≥ N, g.nodeValue I τ fragment (g.inputAt I τ fragment fuel) n out = some v) :
    g.Denotes τ fragment out v := by
  refine ⟨N + 1, fun fuel hf => ?_⟩
  obtain ⟨m, rfl⟩ : ∃ m, fuel = m + 1 := ⟨fuel - 1, by omega⟩
  rw [valueAt, owner?, ho, Option.bind_some, hn, Option.bind_eq_bind, Option.bind_some]
  exact h m (by omega)

/-- What flows into several ports at once. -/
theorem supplies_mapM {qs : List PortId} {vs : List I.Value}
    (h : List.Forall₂ (g.Supplies τ fragment) qs vs) :
    ∃ N, ∀ fuel ≥ N, qs.mapM (g.inputAt I τ fragment fuel) = some vs := by
  induction h with
  | nil => exact ⟨0, fun _ _ => rfl⟩
  | cons hq _ ih =>
    obtain ⟨N, hN⟩ := hq
    obtain ⟨M, hM⟩ := ih
    refine ⟨max N M, fun fuel hf => ?_⟩
    rw [List.mapM_cons, hN fuel (by omega), hM fuel (by omega)]
    rfl

/-- What flows into several ports, each with enough fuel. -/
theorem supplies_all {qs : List PortId} {vals : PortId → I.Value}
    (h : ∀ q ∈ qs, g.Supplies τ fragment q (vals q)) :
    ∃ N, ∀ fuel ≥ N, ∀ q ∈ qs, g.inputAt I τ fragment fuel q = some (vals q) := by
  induction qs with
  | nil => exact ⟨0, fun _ _ _ hq => absurd hq List.not_mem_nil⟩
  | cons q qs ih =>
    rw [List.forall_mem_cons] at h
    obtain ⟨N, hN⟩ := h.1
    obtain ⟨M, hM⟩ := ih h.2
    refine ⟨max N M, fun fuel hf => List.forall_mem_cons.2 ⟨hN fuel (by omega), ?_⟩⟩
    exact hM fuel (by omega)

/-! ### Any fuel that suffices -/

/-- What is computed from the values of ports stays as it is when more ports have values. -/
def Persists {V β : Type} (f : (PortId → Option V) → Option β) : Prop :=
  ∀ ⦃input input'⦄, (∀ q v, input q = some v → input' q = some v) →
    ∀ b, f input = some b → f input' = some b

section Persisting

variable {V β γ : Type} {f : (PortId → Option V) → Option β}
  {k : β → (PortId → Option V) → Option γ}

theorem persists_const (b : Option β) : Persists fun _ : PortId → Option V => b := fun _ _ _ _ h => h

theorem persists_input (q : PortId) : Persists fun input : PortId → Option V => input q :=
  fun _ _ hle => hle q

theorem Persists.bind (hf : Persists f) (hk : ∀ b, Persists (k b)) :
    Persists fun input => (f input).bind fun b => k b input := by
  intro input input' hle c h
  obtain ⟨b, hb, h⟩ := Option.bind_eq_some_iff.1 h
  exact Option.bind_eq_some_iff.2 ⟨b, hf hle b hb, hk b hle c h⟩

theorem Persists.map (hf : Persists f) (r : β → γ) :
    Persists fun input => (f input).bind fun b => some (r b) :=
  hf.bind fun b => persists_const (some (r b))

theorem persists_mapM (qs : List PortId) :
    Persists fun input : PortId → Option V => qs.mapM input := by
  induction qs with
  | nil => exact persists_const (some [])
  | cons q qs ih =>
    simp only [List.mapM_cons]
    exact (persists_input q).bind fun v => ih.map (v :: ·)

end Persisting

theorem persists_exprValue (n : Node) (t : ValueType) (e : Math.Expr) :
    Persists fun input => exprValue I g input n t e := by
  induction e with
  | number x => exact persists_const _
  | input name =>
    simp only [exprValue]
    cases g.inputNamed n name with
    | ok q => exact persists_input q
    | error e => exact persists_const _
  | unary f x hx => exact hx.map _
  | binary f x y hx hy => exact hx.bind fun _ => hy.map _
  | mix x y s hx hy hs => exact hx.bind fun _ => hy.bind fun _ => hs.map _

/-- **The value of a node persists**: it is the same if more ports have values. -/
theorem persists_nodeValue (n : Node) (out : PortId) :
    Persists fun input => g.nodeValue I τ fragment input n out := by
  unfold nodeValue
  cases operationOf n.kind with
  | some f => exact (persists_mapM _).map _
  | none =>
    dsimp only
    split
    case h_6 => exact (persists_input _).map _
    case h_7 => exact (persists_input _).bind fun _ => (persists_input _).map _
    case h_8 test a b _ _ _ =>
      refine (persists_input a).bind fun x => (persists_input b).bind fun y => ?_
      cases test.instruction? (τ a).isInt <;> exact persists_const _
    case h_9 c a b _ _ =>
      refine (persists_input c).bind fun holds => ?_
      cases I.truth holds
      · exact persists_input b
      · exact persists_input a
    case h_10 => exact (persists_const _).bind fun _ => (persists_input _).map _
    case h_11 => exact (persists_mapM _).map _
    case h_12 a _ _ =>
      refine (persists_input a).bind fun v => ?_
      split <;> exact persists_const _
    case h_13 source names _ _ =>
      cases Math.Expr.parse source names with
      | ok e => exact persists_exprValue n _ e
      | error e => exact persists_const _
    case h_14 field position _ _ =>
      refine (persists_const _).bind fun j => ?_
      cases g.producer? position with
      | none => exact persists_const _
      | some _ => exact (persists_input position).map _
    all_goals exact persists_const _

/-- **A value stays the same with more fuel.** -/
theorem valueAt_mono {fuel fuel' : Nat} (hle : fuel ≤ fuel')
    (h : g.valueAt I τ fragment fuel out = some v) : g.valueAt I τ fragment fuel' out = some v := by
  induction fuel generalizing fuel' out v with
  | zero => cases h
  | succ fuel ih =>
    obtain ⟨fuel', rfl⟩ : ∃ m, fuel' = m + 1 := ⟨fuel' - 1, by omega⟩
    obtain ⟨n, hn, h⟩ := Option.bind_eq_some_iff.1 h
    refine Option.bind_eq_some_iff.2 ⟨n, hn, persists_nodeValue n out (fun q v hv => ?_) v h⟩
    cases hq : g.producer? q with
    | none => rwa [hq] at hv
    | some out =>
      rw [hq] at hv
      exact ih (by omega) hv

/-- What flows into an input is found with any amount of fuel that suffices. -/
theorem supplies_iff : g.Supplies τ fragment q v ↔ ∃ fuel, g.inputAt I τ fragment fuel q = some v := by
  constructor
  · rintro ⟨N, hN⟩
    exact ⟨N, hN N (Nat.le_refl N)⟩
  · rintro ⟨fuel, h⟩
    refine ⟨fuel, fun fuel' hle => ?_⟩
    unfold inputAt at h ⊢
    cases hq : g.producer? q with
    | none => rwa [hq] at h
    | some out =>
      rw [hq] at h
      exact valueAt_mono hle h

/-- One value at most flows into an input. -/
theorem Supplies.unique {w : I.Value} (hv : g.Supplies τ fragment q v) (hw : g.Supplies τ fragment q w) :
    v = w := by
  obtain ⟨N, hN⟩ := hv
  obtain ⟨M, hM⟩ := hw
  exact Option.some.inj ((hN _ (Nat.le_max_left N M)).symm.trans (hM _ (Nat.le_max_right N M)))

end Graph

end NodeShader
