import NodeShader.Graph.Basic
import NodeShader.Total

/-!
# Domains of ports

The types each port may still have. Narrowing intersects domains with sets of allowed types; it
fails when a port is left with no type, and otherwise tells which ports changed. Every change takes
types away, so the total number of types (`Domains.weight`) bounds how often domains can change.
-/

namespace NodeShader

/-- The admissible types of each port, by port. -/
abbrev Domains := Array TypeSet

/-- The declared types of the ports of a graph. -/
def Graph.domains (g : Graph) : Domains := g.ports.map Port.type

namespace Domains

/-- The domain of a port, empty if there is no such port. -/
def typesOf (d : Domains) (p : PortId) : TypeSet := (Array.at? d p).getD .empty

/-- The number of types over all ports. -/
def weight (d : Domains) : Nat := total TypeSet.length d.toList

/-- Narrows each port to its allowed types. Gives the ports that changed, or `none` if one is left
with no type. -/
def narrow (d : Domains) : List (PortId × TypeSet) → Option (Domains × List PortId)
  | [] => some (d, [])
  | (p, allowed) :: rest =>
    let current := d.typesOf p
    let narrowed := current.inter allowed
    if narrowed.isEmpty then none
    else if narrowed = current then narrow d rest
    else
      match narrow (d.setIfInBounds p.toNat narrowed) rest with
      | some (d', touched) => some (d', p :: touched)
      | none => none

/-- Whether every port has exactly one type. -/
def isComplete (d : Domains) : Bool := d.all TypeSet.isSingleton

/-- The undecided port with the fewest types, the first of several. -/
def mostConstrained? (d : Domains) : Option PortId :=
  let step (best : Option (Nat × Nat)) (entry : TypeSet × Nat) : Option (Nat × Nat) :=
    let n := entry.1.length
    if n ≤ 1 then best
    else
      match best with
      | none => some (entry.2, n)
      | some (_, m) => if n < m then some (entry.2, n) else best
  (d.toList.zipIdx.foldl step none).map fun (i, _) => (i : Int)

end Domains

/-! ### Narrowing takes types away -/

theorem TypeSet.length_eq_countP (s : TypeSet) :
    s.length = (List.range 32).countP fun n => s.bits.getLsbD n := by
  simp [TypeSet.length, TypeSet.toList, List.countP_eq_length_filter]

/-- An intersection that differs from the set has fewer members. -/
theorem TypeSet.length_inter_lt {s t : TypeSet} (h : s.inter t ≠ s) :
    (s.inter t).length < s.length := by
  have hbit : ∃ n, n < 32 ∧ s.bits.getLsbD n = true ∧ (s.inter t).bits.getLsbD n = false := by
    apply Classical.byContradiction
    intro hn
    apply h
    have : (s.inter t).bits = s.bits := by
      apply BitVec.eq_of_getLsbD_eq
      intro i hi
      have := fun h1 h2 => hn ⟨i, hi, h1, h2⟩
      simp only [TypeSet.inter, BitVec.getLsbD_and] at this ⊢
      cases hs : s.bits.getLsbD i <;> simp_all
    cases s; simp only [TypeSet.inter, TypeSet.mk.injEq] at this ⊢; exact this
  obtain ⟨n, hn, hs, hi⟩ := hbit
  rw [length_eq_countP, length_eq_countP]
  have split : List.range 32 = (List.range n) ++ n :: (List.range' (n + 1) (31 - n)) := by
    rw [List.range_eq_range', List.range_eq_range',
      show List.range' 0 32 = List.range' 0 (n + (31 - n + 1)) by congr 1; omega,
      ← List.range'_append_1, List.range'_succ]
    simp
  rw [split, List.countP_append, List.countP_append, List.countP_cons, List.countP_cons]
  have mono : ∀ l : List Nat, (l.countP fun n => (s.inter t).bits.getLsbD n)
      ≤ l.countP fun n => s.bits.getLsbD n := by
    intro l
    apply List.countP_mono_left
    intro x _ hx
    simp only [TypeSet.inter, BitVec.getLsbD_and, Bool.and_eq_true] at hx
    exact hx.1
  have h1 := mono (List.range n)
  have h2 := mono (List.range' (n + 1) (31 - n))
  simp only [hs, hi]
  simp
  omega

/-- Each port that narrowing changed has lost at least one type. -/
theorem Domains.weight_narrow {d d' : Domains} {l : List (PortId × TypeSet)} {touched : List PortId}
    (h : d.narrow l = some (d', touched)) : d'.weight + touched.length ≤ d.weight := by
  induction l generalizing d d' touched with
  | nil =>
    simp only [narrow, Option.some.injEq, Prod.mk.injEq] at h
    simp [← h.1, ← h.2]
  | cons entry rest ih =>
    obtain ⟨p, allowed⟩ := entry
    rw [narrow] at h
    split at h
    · cases h
    · rename_i hne
      split at h
      · exact ih h
      · rename_i hchange
        split at h
        · rename_i d'' touched' heq
          simp only [Option.some.injEq, Prod.mk.injEq] at h
          obtain ⟨rfl, rfl⟩ := h
          have hrec := ih heq
          have hlt := TypeSet.length_inter_lt hchange
          have hset : Domains.weight (d.setIfInBounds p.toNat ((d.typesOf p).inter allowed))
              + (d.typesOf p).length = d.weight + ((d.typesOf p).inter allowed).length := by
            match p, hne, hchange, hlt with
            | .ofNat n, hne, hchange, hlt =>
              by_cases hn : n < d.size
              · have hat : d.typesOf (Int.ofNat n) = d[n] := by
                  simp [Domains.typesOf, Array.at?, hn]
                rw [hat]
                have := total_set TypeSet.length d.toList n (d[n].inter allowed) (by simpa using hn)
                simpa [weight] using this
              · exfalso
                apply hne
                have hat : d.typesOf (Int.ofNat n) = .empty := by
                  simp [Domains.typesOf, Array.at?, Array.getElem?_eq_none (Nat.le_of_not_lt hn)]
                rw [hat]
                simp [TypeSet.inter, TypeSet.empty, TypeSet.isEmpty]
            | .negSucc n, hne, _, _ =>
              exfalso
              apply hne
              simp [Domains.typesOf, Array.at?, TypeSet.inter, TypeSet.empty, TypeSet.isEmpty]
          simp only [List.length_cons]
          omega
        · cases h

end NodeShader

/-!
## Type constraints

What links the types of ports: both ends of an edge have one type, and each node kind relates the
types of its own ports. A constraint narrows the domains of its ports to types that can still
satisfy it (`Rule.narrow`).
-/

namespace NodeShader

/-- A relation between the types of some ports. -/
inductive Rule where
  /-- All ports have the same type. -/
  | equal (ports : List PortId)
  /-- The second port has the scalar type of the first. -/
  | scalarOf (vector scalar : PortId)
  /-- The port has more than `index` components. -/
  | minSize (port : PortId) (index : Nat)
  /-- The output is of the input's family and has `size` components. -/
  | resized (input output : PortId) (size : Nat)
  /-- The position has as many components as the field has dimensions. -/
  | sameDimension (field position : PortId)
  /-- The ports but the last have the scalar type of the last, and their sizes add up to its. -/
  | combine (ports : List PortId)
  deriving DecidableEq

/-- A rule with the node it belongs to and the name it is shown by. -/
structure Constraint where
  node : NodeId
  label : String
  rule : Rule

/-- What a constraint does to the domains: it holds of them, narrows some, or leaves a port with no
type. -/
inductive Effect where
  | unchanged
  | dirty
  | contradiction
  deriving DecidableEq, Repr

def Effect.name : Effect → String
  | unchanged => "unchanged"
  | dirty => "dirty"
  | contradiction => "contradiction"

/-- The effect of a code: 0, 1, and any other. -/
def Effect.ofCode : Int → Effect
  | 0 => unchanged
  | 1 => dirty
  | _ => contradiction

/-- A combination with more possible tuples than this is only checked once they are fewer. -/
def tupleLimit : Nat := 16384

/-- The ports of a list as messages show them. -/
def portList (ports : List PortId) : String :=
  "[" ++ " ".intercalate (ports.map toString) ++ "]"

namespace Rule

def ports : Rule → List PortId
  | equal ports => ports
  | scalarOf vector scalar => [vector, scalar]
  | minSize port _ => [port]
  | resized input output _ => [input, output]
  | sameDimension field position => [field, position]
  | combine ports => ports

def text : Rule → String
  | equal ports => "equal" ++ portList ports
  | scalarOf vector scalar => s!"scalar({vector}) == {scalar}"
  | minSize port index => s!"size({port}) > {index}"
  | resized input output size => s!"{output} == resize({input}, {size})"
  | sameDimension field position => s!"dims({field}) == size({position})"
  | combine ports => "relation" ++ portList ports

/-- Whether the types of a combination's inputs fit that of its output. -/
def combines (inputs : List ValueType) (output : ValueType) : Bool :=
  inputs.all (fun t => t.scalar = output.scalar) && total ValueType.size inputs == output.size

/-- `combines` on a list that ends with the output. -/
def combinesTuple (types : List ValueType) : Bool :=
  match types.getLast? with
  | some output => combines types.dropLast output
  | none => false

/-- All ways to choose one type from each list. -/
def tuples : List (List ValueType) → List (List ValueType)
  | [] => [[]]
  | choices :: rest =>
    let tails := tuples rest
    choices.flatMap fun t => tails.map (t :: ·)

/-- The types that occur, place by place, in some satisfying tuple. -/
def support (choices : List (List ValueType)) : List TypeSet :=
  ((tuples choices).filter combinesTuple).foldl
    (fun sets tuple => List.zipWith (fun s t => s.union (.singleton t)) sets tuple)
    (choices.map fun _ => .empty)

/-- The types the rule allows each of its ports; `none` if it can tell nothing yet. -/
def allowed (d : Domains) : Rule → Option (List (PortId × TypeSet))
  | equal ports =>
    match ports with
    | [] => none
    | p :: rest =>
      let common := rest.foldl (fun s q => s.inter (d.typesOf q)) (d.typesOf p)
      some (ports.map fun q => (q, common))
  | scalarOf vector scalar =>
    let scalars := TypeSet.ofList ((d.typesOf vector).toList.map ValueType.scalar)
    let scalars := (d.typesOf scalar).inter scalars
    let vectors := (d.typesOf vector).filter fun t => scalars.has t.scalar
    some [(vector, vectors), (scalar, scalars)]
  | minSize port index => some [(port, (d.typesOf port).filter fun t => index < t.size)]
  | resized input output size =>
    let outputs := TypeSet.ofList
      (((d.typesOf input).toList.map (·.withSize size)).filter ValueType.isValid)
    let outputs := outputs.inter (d.typesOf output)
    let inputs := (d.typesOf input).filter fun t => outputs.has (t.withSize size)
    some [(input, inputs), (output, outputs)]
  | sameDimension field position =>
    let sizes := (d.typesOf field).toList.map ValueType.size
    let positions := (d.typesOf position).filter fun t => sizes.contains t.size
    let sizes := positions.toList.map ValueType.size
    let fields := (d.typesOf field).filter fun t => sizes.contains t.size
    some [(field, fields), (position, positions)]
  | combine ports =>
    let choices := ports.map fun p => (d.typesOf p).toList
    if tupleLimit < (choices.map List.length).foldl (· * ·) 1 then none
    else some (ports.zip (support choices))

/-- Narrows the domains of the rule's ports to types that can still satisfy it. Gives the ports that
changed, or `none` if one is left with no type. -/
def narrow (d : Domains) (r : Rule) : Option (Domains × List PortId) :=
  d.narrow ((r.allowed d).getD [])

def effect (d : Domains) (r : Rule) : Effect :=
  match r.narrow d with
  | none => .contradiction
  | some (_, []) => .unchanged
  | some (_, _ :: _) => .dirty

/-- Whether the rule neither fails nor narrows the domains. -/
def holds (d : Domains) (r : Rule) : Bool := r.effect d == .unchanged

end Rule

def Constraint.text (c : Constraint) : String := s!"{c.label}: {c.rule.text}"

/-- Why no constraints can be stated for a node. -/
inductive ConstraintError where
  | noRule (kind : NodeKind)
  | fault (fault : Fault)
  deriving DecidableEq

namespace Graph

/-- Port number `i` of a list. -/
def portNumber (ports : List PortId) (i : Nat) : Except ConstraintError PortId :=
  match ports[i]? with
  | some p => .ok p
  | none => .error (.fault .dangling)

/-- The rules of the ports of one node. -/
def nodeRules (g : Graph) (n : Node) : Except ConstraintError (List Rule) := do
  let input := portNumber n.inputs
  let output := portNumber n.outputs
  match n.kind with
  | .constant | .texture | .time | .position | .normal | .texCoord
  | .computeField | .previewOutput | .materialOutput => return []
  | .add | .subtract | .multiply | .divide | .min | .max | .power
  | .negate | .abs | .floor | .fract | .sqrt | .sin | .cos | .normalize
  | .mix | .mathExpression =>
    let _ ← portNumber (n.inputs ++ n.outputs) 0
    return [.equal (n.inputs ++ n.outputs)]
  | .length => return [.scalarOf (← input 0) (← output 0)]
  | .dot => return [.equal n.inputs, .scalarOf (← input 0) (← output 0)]
  | .compare =>
    let _ ← input 0
    return [.equal n.inputs]
  | .conditional => return [.equal [← input 1, ← input 2, ← output 0]]
  | .swizzle =>
    match n.params with
    | .swizzle selector =>
      let components := (selectorComponents? selector).getD []
      let top := components.foldl Nat.max 0
      return [.minSize (← input 0) top, .resized (← input 0) (← output 0) components.length]
    | _ => throw (.fault .dangling)
  | .combine => return [.combine (n.inputs ++ n.outputs)]
  | .separate =>
    let vector ← input 0
    let rules ← n.outputs.zipIdx.mapM fun (p, i) => do
      match g.port? p with
      | none => throw (.fault .dangling)
      | some port =>
        return .scalarOf vector p :: (if port.isConnected then [.minSize vector i] else [])
    return rules.flatten
  | .sample => return [.sameDimension (← input 0) (← input 1)]
  | .invalid | .unknown _ => throw (.noRule n.kind)

/-- The constraints of the edges, then those of the nodes. -/
def constraints (g : Graph) : Except ConstraintError (List Constraint) := do
  let edges ← g.edges.toList.mapM fun e =>
    match g.owner? e.target with
    | some n => pure { node := n.id, label := "edge", rule := Rule.equal [e.source, e.target] }
    | none => throw (.fault .dangling)
  let nodes ← g.nodes.toList.mapM fun n => do
    let rules ← g.nodeRules n
    return rules.map fun rule => { node := n.id, label := n.kind.name, rule : Constraint }
  return edges ++ nodes.flatten

end Graph

end NodeShader
