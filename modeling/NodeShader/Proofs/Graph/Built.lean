import Mathlib.Data.List.Forall2
import NodeShader.Graph.Basic
import NodeShader.Graph.Build

/-!
# Graphs that were built

A graph is built (`Graph.Built`) if it grows from the empty one by nodes and edges that the builder
accepts.  Every built graph is consistent (`Built.consistent`): each node has the ports its kind and
parameters ask for, ports and nodes refer to each other, and the edges a port lists are exactly those
that start or end there, at most one for an input.
-/

namespace NodeShader

/-- **Graphs made by a builder.** -/
inductive Graph.Built : Graph → Prop
  | empty : Built .empty
  | node {g g' : Graph} {id : NodeId} {name : String} {kind : NodeKind} {params : Params} :
      Built g → g.addNode id name kind params = .ok g' → Built g'
  | edge {g g' : Graph} {source target : PortId} :
      Built g → g.connect source target = .ok g' → Built g'

/-- A port without its edges. -/
def Port.bare (p : Port) : Port := { p with edges := [] }

/-- A port with one more edge. -/
def Port.listing (p : Port) (e : EdgeId) : Port := { p with edges := p.edges ++ [e] }

/-- What a port of a node is, but for its edges: the port number `k` of the node at position `i`. -/
def Node.bare (n : Node) (i : Nat) (direction : Direction) (specs : List PortSpec) (q : PortId)
    (spec : PortSpec) (k : Nat) : Port :=
  { id := q, owner := n.id, ownerIndex := i, direction, index := k,
    arm := if direction = .input ∧ spec.startsArm then Graph.armsBefore specs k else -1,
    spec, edges := [] }

/-- The ports of a node in one direction. -/
def Node.portsOf (n : Node) : Direction → List PortId
  | .input => n.inputs
  | .output => n.outputs

/-- Whether an edge starts or ends at a port. -/
def Edge.touches (e : Edge) (direction : Direction) (q : PortId) : Bool :=
  match direction with
  | .input => e.target == q
  | .output => e.source == q

namespace Graph

/-- Ports of the node at position `i`, as declared. -/
def Declares (g : Graph) (i : Nat) (n : Node) (direction : Direction) (ports : List PortId)
    (specs : List PortSpec) : Prop :=
  List.Forall₂ (fun (q : PortId) (s : PortSpec × Nat) =>
    (g.port? q).map Port.bare = some (n.bare i direction specs q s.1 s.2)) ports specs.zipIdx

/-- The node at position `i` has the ports of its kind and parameters. -/
structure NodeAt (g : Graph) (i : Nat) (n : Node) : Prop where
  valid : n.kind.isValid = true
  index : n.index = i
  position : g.position? n.id = some i
  ports : ∃ ins outs, portSpecs n.kind n.params = .ok (ins, outs) ∧
    g.Declares i n .input n.inputs ins ∧ g.Declares i n .output n.outputs outs

/-- **The laws of a built graph.** -/
structure Consistent (g : Graph) : Prop where
  node : ∀ (i : Nat) (n : Node), g.nodes[i]? = some n → g.NodeAt i n
  positions : ∀ id k, (id, k) ∈ g.positions → k < g.nodes.size
  owner : ∀ q p, g.port? q = some p → ∃ (i : Nat) (n : Node), g.nodes[i]? = some n ∧
    p.ownerIndex = i ∧ q ∈ n.portsOf p.direction
  ids : ∀ (k : Nat) (e : Edge), g.edges[k]? = some e → e.id = k
  ends : ∀ e ∈ g.edges.toList, (∃ p, g.port? e.source = some p ∧ p.direction = .output) ∧
    ∃ p, g.port? e.target = some p ∧ p.direction = .input
  listed : ∀ q p, g.port? q = some p →
    p.edges = (g.edges.toList.filter (·.touches p.direction q)).map (·.id)
  single : ∀ q p, g.port? q = some p → p.direction = .input → p.edges.length ≤ 1

end Graph

/-! ### Looking up ports -/

theorem at?_eq_some {α : Type} {xs : Array α} {q : Int} {a : α} (h : Array.at? xs q = some a) :
    ∃ k : Nat, q = k ∧ xs[k]? = some a := by
  cases q with
  | ofNat k => exact ⟨k, rfl, h⟩
  | negSucc k => cases h

@[simp] theorem at?_natCast {α : Type} (xs : Array α) (k : Nat) : Array.at? xs (k : Int) = xs[k]? := rfl

namespace Graph

variable {g g' : Graph}

theorem Declares.mono {i : Nat} {n : Node} {direction : Direction} {ports : List PortId}
    {specs : List PortSpec}
    (h : ∀ q p, g.port? q = some p → (g'.port? q).map Port.bare = some p.bare)
    (hd : g.Declares i n direction ports specs) : g'.Declares i n direction ports specs := by
  refine hd.imp ?_
  intro q s hq
  obtain ⟨p, hp, hb⟩ := Option.map_eq_some_iff.1 hq
  rw [h q p hp, hb]

/-! ### Adding a node -/

/-- **What adding a node does**: node `n` with the ports of `ins` and `outs` is put at the end. -/
structure Grows (g : Graph) (n : Node) (ins outs : List PortSpec) (g' : Graph) : Prop where
  valid : n.kind.isValid = true
  unused : g.nodeOf? n.id = none
  specs : portSpecs n.kind n.params = .ok (ins, outs)
  index : n.index = g.nodes.size
  inputs : n.inputs = (newPorts n.id g.nodes.size g.ports.size .input ins).map (·.id)
  outputs : n.outputs =
    (newPorts n.id g.nodes.size (g.ports.size + ins.length) .output outs).map (·.id)
  nodes : g'.nodes = g.nodes.push n
  ports : g'.ports.toList = g.ports.toList ++ (newPorts n.id g.nodes.size g.ports.size .input ins ++
    newPorts n.id g.nodes.size (g.ports.size + ins.length) .output outs)
  edges : g'.edges = g.edges
  positions : g'.positions = (n.id, g.nodes.size) :: g.positions

theorem addNode_grows {id : NodeId} {name : String} {kind : NodeKind} {params : Params}
    (h : g.addNode id name kind params = .ok g') :
    ∃ n ins outs, n.id = id ∧ n.name = name ∧ n.kind = kind ∧ n.params = params ∧
      g.Grows n ins outs g' := by
  unfold addNode at h
  by_cases hv : kind.isValid = true
  · rw [if_neg (by simp [hv])] at h
    cases ho : g.nodeOf? id with
    | some owner => rw [ho] at h; cases h
    | none =>
      rw [ho] at h
      cases hs : portSpecs kind params with
      | error e => rw [hs] at h; cases h
      | ok specs =>
        obtain ⟨ins, outs⟩ := specs
        rw [hs] at h
        obtain rfl := Except.ok.inj h
        exact ⟨⟨id, g.nodes.size, name, kind, params,
            (newPorts id g.nodes.size g.ports.size .input ins).map (·.id),
            (newPorts id g.nodes.size (g.ports.size + ins.length) .output outs).map (·.id)⟩,
          ins, outs, rfl, rfl, rfl, rfl, hv, ho, hs, rfl, rfl, rfl, rfl, by simp, rfl, rfl⟩
  · rw [if_pos (by simpa using hv)] at h
    cases h

theorem length_newPorts (id : NodeId) (i first : Nat) (direction : Direction)
    (specs : List PortSpec) : (newPorts id i first direction specs).length = specs.length := by
  simp [newPorts]

theorem getElem?_newPorts {id : NodeId} {i first k : Nat} {direction : Direction}
    {specs : List PortSpec} {p : Port} (h : (newPorts id i first direction specs)[k]? = some p) :
    p.ownerIndex = i ∧ p.direction = direction ∧ p.edges = [] ∧ p.id = (first + k : Nat) := by
  rw [newPorts, List.getElem?_map, Option.map_eq_some_iff] at h
  obtain ⟨⟨spec, j⟩, hj, rfl⟩ := h
  rw [List.getElem?_zipIdx, Option.map_eq_some_iff] at hj
  obtain ⟨s, -, hs⟩ := hj
  cases hs
  simp

/-- The new ports are those the specifications ask for. -/
theorem declares_newPorts {n : Node} {i first : Nat} {direction : Direction}
    {specs : List PortSpec}
    (h : ∀ k p, (newPorts n.id i first direction specs)[k]? = some p →
      g.port? ((first + k : Nat) : Int) = some p) :
    g.Declares i n direction ((newPorts n.id i first direction specs).map (·.id)) specs := by
  rw [Declares, newPorts, List.map_map, List.forall₂_map_left_iff, List.forall₂_same]
  rintro ⟨spec, k⟩ hk
  have hk' : specs.zipIdx[k]? = some (spec, k) := by
    rw [List.getElem?_zipIdx, List.mk_mem_zipIdx_iff_getElem?.1 hk]
    simp
  have hp := h k _ (by rw [newPorts, List.getElem?_map, hk']; rfl)
  show (g.port? ((first + k : Nat) : Int)).map Port.bare = _
  rw [hp]
  rfl

namespace Grows

variable {n : Node} {ins outs : List PortSpec}

/-- An old port keeps its place. -/
theorem port?_old (r : g.Grows n ins outs g') {q : PortId} {p : Port} (h : g.port? q = some p) :
    g'.port? q = some p := by
  obtain ⟨k, rfl, hk⟩ := at?_eq_some h
  show g'.ports[k]? = some p
  rw [← Array.getElem?_toList] at hk ⊢
  rw [r.ports, List.getElem?_append_left (List.getElem?_eq_some_iff.1 hk).1, hk]

theorem port?_input (r : g.Grows n ins outs g') {k : Nat} {p : Port}
    (h : (newPorts n.id g.nodes.size g.ports.size .input ins)[k]? = some p) :
    g'.port? ((g.ports.size + k : Nat) : Int) = some p := by
  have hk := (List.getElem?_eq_some_iff.1 h).1
  show g'.ports[g.ports.size + k]? = some p
  rw [← Array.getElem?_toList, r.ports, ← List.append_assoc,
    List.getElem?_append_left (by simp only [List.length_append, Array.length_toList]; omega),
    List.getElem?_append_right (by simp)]
  simpa using h

theorem port?_output (r : g.Grows n ins outs g') {k : Nat} {p : Port}
    (h : (newPorts n.id g.nodes.size (g.ports.size + ins.length) .output outs)[k]? = some p) :
    g'.port? ((g.ports.size + ins.length + k : Nat) : Int) = some p := by
  have hl := length_newPorts n.id g.nodes.size g.ports.size .input ins
  have hsize : g.ports.toList.length = g.ports.size := Array.length_toList
  show g'.ports[g.ports.size + ins.length + k]? = some p
  rw [← Array.getElem?_toList, r.ports, ← List.append_assoc,
    List.getElem?_append_right (by rw [List.length_append, hsize, hl]; omega),
    List.length_append, hsize, hl, Nat.add_sub_cancel_left, h]

/-- A port of the larger graph is an old one, or one of the new node. -/
theorem port?_cases (r : g.Grows n ins outs g') {q : PortId} {p : Port} (h : g'.port? q = some p) :
    g.port? q = some p ∨ p.ownerIndex = g.nodes.size ∧ p.edges = [] ∧ q ∈ n.portsOf p.direction ∧
      ∃ k : Nat, q = k ∧ g.ports.size ≤ k := by
  obtain ⟨k, rfl, hk⟩ := at?_eq_some h
  have hsize : g.ports.toList.length = g.ports.size := Array.length_toList
  rw [← Array.getElem?_toList, r.ports] at hk
  by_cases h1 : k < g.ports.toList.length
  · rw [List.getElem?_append_left h1, Array.getElem?_toList] at hk
    exact .inl hk
  refine .inr ?_
  rw [List.getElem?_append_right (by omega)] at hk
  rw [hsize] at h1 hk
  have hl := length_newPorts n.id g.nodes.size g.ports.size .input ins
  by_cases h2 : k - g.ports.size < (newPorts n.id g.nodes.size g.ports.size .input ins).length
  · rw [List.getElem?_append_left h2] at hk
    obtain ⟨ho, hd, he, hid⟩ := getElem?_newPorts hk
    refine ⟨ho, he, ?_, k, rfl, by omega⟩
    rw [hd, show n.portsOf .input = n.inputs from rfl, r.inputs, List.mem_map]
    exact ⟨p, List.mem_of_getElem? hk, by rw [hid]; congr 1; omega⟩
  · rw [List.getElem?_append_right (by omega)] at hk
    obtain ⟨ho, hd, he, hid⟩ := getElem?_newPorts hk
    refine ⟨ho, he, ?_, k, rfl, by omega⟩
    rw [hd, show n.portsOf .output = n.outputs from rfl, r.outputs, List.mem_map]
    exact ⟨p, List.mem_of_getElem? hk, by rw [hid]; congr 1; omega⟩

theorem nodes_cases (r : g.Grows n ins outs g') {i : Nat} {m : Node} (h : g'.nodes[i]? = some m) :
    g.nodes[i]? = some m ∨ i = g.nodes.size ∧ m = n := by
  rw [r.nodes, Array.getElem?_push] at h
  split at h
  · rename_i hi
    exact .inr ⟨hi, (Option.some.inj h).symm⟩
  · exact .inl h

theorem nodes_old (r : g.Grows n ins outs g') {i : Nat} {m : Node} (h : g.nodes[i]? = some m) :
    g'.nodes[i]? = some m := by
  have hi := (Array.getElem?_eq_some_iff.1 h).1
  rw [r.nodes, Array.getElem?_push_lt hi, ← h, Array.getElem?_eq_getElem hi]

/-- The identity of a new node is not that of an old one. -/
theorem position?_old (r : g.Grows n ins outs g') {i : Nat} {m : Node}
    (hm : g.nodes[i]? = some m) (h : g.position? m.id = some i) : g'.position? m.id = some i := by
  have hne : m.id ≠ n.id := by
    intro he
    have hu := r.unused
    rw [← he, nodeOf?, h, Option.bind_some, hm] at hu
    cases hu
  rw [position?, r.positions, List.lookup_cons, beq_eq_false_iff_ne.2 hne]
  exact h

end Grows

theorem consistent_addNode {n : Node} {ins outs : List PortSpec} (hg : g.Consistent)
    (r : g.Grows n ins outs g') : g'.Consistent where
  node := by
    intro i m hm
    have hbare : ∀ q p, g.port? q = some p → (g'.port? q).map Port.bare = some p.bare :=
      fun q p hp => by rw [r.port?_old hp]; rfl
    rcases r.nodes_cases hm with hm | ⟨rfl, rfl⟩
    · have hn := hg.node i m hm
      obtain ⟨ins', outs', hs, hi, ho⟩ := hn.ports
      exact ⟨hn.valid, hn.index, r.position?_old hm hn.position, ins', outs', hs, hi.mono hbare,
        ho.mono hbare⟩
    · refine ⟨r.valid, r.index, by rw [position?, r.positions, List.lookup_cons_self], ins, outs,
        r.specs, ?_, ?_⟩
      · rw [r.inputs]
        exact declares_newPorts fun k p hp => r.port?_input hp
      · rw [r.outputs]
        exact declares_newPorts fun k p hp => r.port?_output hp
  positions := by
    intro id k hk
    rw [r.nodes, Array.size_push]
    rw [r.positions, List.mem_cons] at hk
    rcases hk with hk | hk
    · cases hk
      omega
    · have := hg.positions id k hk
      omega
  owner := by
    intro q p hp
    rcases r.port?_cases hp with hp | ⟨ho, -, hq, -⟩
    · obtain ⟨i, m, hm, hi, hq⟩ := hg.owner q p hp
      exact ⟨i, m, r.nodes_old hm, hi, hq⟩
    · exact ⟨g.nodes.size, n, by rw [r.nodes]; simp, ho, hq⟩
  ids := by
    intro k e he
    rw [r.edges] at he
    exact hg.ids k e he
  ends := by
    intro e he
    rw [r.edges] at he
    obtain ⟨⟨p, hp, hpd⟩, p', hp', hpd'⟩ := hg.ends e he
    exact ⟨⟨p, r.port?_old hp, hpd⟩, p', r.port?_old hp', hpd'⟩
  listed := by
    intro q p hp
    rw [r.edges]
    rcases r.port?_cases hp with hp | ⟨-, he, -, k, rfl, hk⟩
    · exact hg.listed q p hp
    · -- no edge touches a port that was not there
      rw [he, List.filter_eq_nil_iff.2, List.map_nil]
      intro e hm ht
      obtain ⟨⟨p₁, hp₁, -⟩, p₂, hp₂, -⟩ := hg.ends e hm
      have hnone : g.port? (k : Int) = none := by
        show g.ports[k]? = none
        rw [Array.getElem?_eq_none_iff]
        exact hk
      cases hd : p.direction with
      | input =>
        rw [hd] at ht
        rw [beq_iff_eq.1 ht, hnone] at hp₂
        cases hp₂
      | output =>
        rw [hd] at ht
        rw [beq_iff_eq.1 ht, hnone] at hp₁
        cases hp₁
  single := by
    intro q p hp hd
    rcases r.port?_cases hp with hp | ⟨-, he, -⟩
    · exact hg.single q p hp hd
    · rw [he]
      exact Nat.zero_le 1

/-! ### Adding an edge -/

/-- **What connecting does**: an edge is put at the end, and both of its ports list it. -/
structure Joins (g : Graph) (source target : PortId) (g' : Graph) : Prop where
  output : ∃ p, g.port? source = some p ∧ p.direction = .output
  input : ∃ p, g.port? target = some p ∧ p.direction = .input ∧ p.edges = []
  nodes : g'.nodes = g.nodes
  positions : g'.positions = g.positions
  edges : ∃ type, g'.edges = g.edges.push ⟨g.edges.size, source, target, type⟩
  ports : g'.ports = attach (attach g.ports source g.edges.size) target g.edges.size

/-- **When connecting succeeds**: the ports are an output and an open input of two nodes, which admit
a common type. -/
theorem connect_eq_ok {source target : PortId} (h : g.connect source target = .ok g') :
    ∃ output input, g.port? source = some output ∧ g.port? target = some input ∧
      output.direction = .output ∧ input.direction = .input ∧ output.owner ≠ input.owner ∧
      input.edges = [] ∧ (output.type.inter input.type).isEmpty = false ∧
      g' = { g with
        edges := g.edges.push ⟨g.edges.size, source, target, output.type.inter input.type⟩
        ports := attach (attach g.ports source g.edges.size) target g.edges.size } := by
  unfold connect at h
  cases hs : g.port? source with
  | none => rw [hs] at h; cases h
  | some output =>
    cases ht : g.port? target with
    | none => rw [hs, ht] at h; cases h
    | some input =>
      rw [hs, ht] at h
      dsimp only at h
      by_cases hd : output.direction ≠ .output ∨ input.direction ≠ .input
      · rw [if_pos hd] at h
        cases h
      rw [if_neg hd] at h
      simp only [not_or, not_not] at hd
      by_cases hl : output.owner = input.owner
      · rw [if_pos hl] at h
        cases ho : g.owner? source <;> rw [ho] at h <;> cases h
      rw [if_neg hl] at h
      by_cases hc : input.isConnected = true
      · rw [if_pos hc] at h
        cases ho : g.owner? target <;> rw [ho] at h <;> cases h
      rw [if_neg hc] at h
      by_cases he : (output.type.inter input.type).isEmpty = true
      · rw [if_pos he] at h
        cases ho : g.owner? source <;> cases ho' : g.owner? target <;> rw [ho, ho'] at h <;> cases h
      rw [if_neg he] at h
      obtain rfl := Except.ok.inj h
      have hopen : input.edges = [] := by simpa [Port.isConnected] using hc
      exact ⟨output, input, rfl, rfl, hd.1, hd.2, hl, hopen, by simpa using he, rfl⟩

theorem connect_joins {source target : PortId} (h : g.connect source target = .ok g') :
    g.Joins source target g' := by
  obtain ⟨output, input, hs, ht, hdo, hdi, -, hopen, -, rfl⟩ := connect_eq_ok h
  exact ⟨⟨output, hs, hdo⟩, ⟨input, ht, hdi, hopen⟩, rfl, rfl, ⟨_, rfl⟩, rfl⟩

namespace Joins

variable {source target : PortId}

theorem ne (j : g.Joins source target g') : source ≠ target := by
  rintro rfl
  obtain ⟨p, hp, hd⟩ := j.output
  obtain ⟨p', hp', hd', -⟩ := j.input
  rw [hp] at hp'
  cases hp'
  rw [hd] at hd'
  cases hd'

/-- A port after connecting: those at the ends of the new edge list it. -/
theorem port?_of (j : g.Joins source target g') {q : PortId} {p : Port} (h : g.port? q = some p) :
    g'.port? q = some (if q = source ∨ q = target then p.listing g.edges.size else p) := by
  obtain ⟨k, rfl, hk⟩ := at?_eq_some h
  obtain ⟨ps, hps, -⟩ := j.output
  obtain ⟨pt, hpt, -⟩ := j.input
  obtain ⟨s, rfl, hs⟩ := at?_eq_some hps
  obtain ⟨t, rfl, ht⟩ := at?_eq_some hpt
  have hne : s ≠ t := fun he => j.ne (by rw [he])
  show g'.ports[k]? = _
  rw [j.ports, attach, attach, Array.getElem?_modify, Array.getElem?_modify, hk]
  simp only [Int.toNat_natCast, Int.natCast_inj]
  by_cases h1 : t = k
  · subst h1
    rw [if_pos rfl, if_neg hne, if_pos (Or.inr rfl)]
    rfl
  · by_cases h2 : s = k
    · subst h2
      rw [if_neg h1, if_pos rfl, if_pos (Or.inl rfl)]
      rfl
    · rw [if_neg h1, if_neg h2, if_neg]
      rintro (rfl | rfl)
      · exact h2 rfl
      · exact h1 rfl

theorem port?_cases (j : g.Joins source target g') {q : PortId} {p' : Port}
    (h : g'.port? q = some p') : ∃ p, g.port? q = some p ∧
      p' = if q = source ∨ q = target then p.listing g.edges.size else p := by
  cases hq : g.port? q with
  | some p =>
    rw [j.port?_of hq] at h
    exact ⟨p, rfl, (Option.some.inj h).symm⟩
  | none =>
    obtain ⟨k, rfl, hk⟩ := at?_eq_some h
    have hlt := (Array.getElem?_eq_some_iff.1 hk).1
    rw [j.ports, attach, attach, Array.size_modify, Array.size_modify] at hlt
    have hnone : g.ports[k]? = none := hq
    rw [Array.getElem?_eq_none_iff] at hnone
    omega

/-- The port itself stays the same. -/
theorem bare (j : g.Joins source target g') {q : PortId} {p : Port} (h : g.port? q = some p) :
    (g'.port? q).map Port.bare = some p.bare := by
  rw [j.port?_of h]
  split <;> rfl

end Joins

theorem consistent_connect {source target : PortId} (hg : g.Consistent)
    (j : g.Joins source target g') : g'.Consistent where
  node := by
    intro i m hm
    rw [j.nodes] at hm
    have hn := hg.node i m hm
    obtain ⟨ins, outs, hs, hi, ho⟩ := hn.ports
    refine ⟨hn.valid, hn.index, ?_, ins, outs, hs, hi.mono fun q p => j.bare, ho.mono fun q p => j.bare⟩
    rw [position?, j.positions]
    exact hn.position
  positions := by
    intro id k hk
    rw [j.nodes]
    rw [j.positions] at hk
    exact hg.positions id k hk
  owner := by
    intro q p' hp'
    obtain ⟨p, hp, rfl⟩ := j.port?_cases hp'
    obtain ⟨i, m, hm, hi, hq⟩ := hg.owner q p hp
    rw [j.nodes]
    refine ⟨i, m, hm, ?_⟩
    split
    · exact ⟨hi, hq⟩
    · exact ⟨hi, hq⟩
  ids := by
    intro k e he
    obtain ⟨type, hedges⟩ := j.edges
    rw [hedges, Array.getElem?_push] at he
    split at he
    · rename_i hk
      cases he
      rw [hk]
    · exact hg.ids k e he
  ends := by
    intro e he
    obtain ⟨type, hedges⟩ := j.edges
    rw [hedges, Array.toList_push, List.mem_append, List.mem_singleton] at he
    have hkeep : ∀ q p d, g.port? q = some p → p.direction = d →
        ∃ p', g'.port? q = some p' ∧ p'.direction = d := by
      intro q p d hp hd
      refine ⟨_, j.port?_of hp, ?_⟩
      split
      · exact hd
      · exact hd
    rcases he with he | rfl
    · obtain ⟨⟨p, hp, hd⟩, p', hp', hd'⟩ := hg.ends e he
      exact ⟨hkeep _ p _ hp hd, hkeep _ p' _ hp' hd'⟩
    · obtain ⟨p, hp, hd⟩ := j.output
      obtain ⟨p', hp', hd', -⟩ := j.input
      exact ⟨hkeep _ p _ hp hd, hkeep _ p' _ hp' hd'⟩
  listed := by
    intro q p' hp'
    obtain ⟨p, hp, rfl⟩ := j.port?_cases hp'
    obtain ⟨type, hedges⟩ := j.edges
    have hl := hg.listed q p hp
    obtain ⟨ps, hps, hds⟩ := j.output
    obtain ⟨pt, hpt, hdt, -⟩ := j.input
    rw [hedges, Array.toList_push, List.filter_append, List.map_append]
    -- the new edge touches the port exactly if it is one of its ends
    by_cases hq : q = source ∨ q = target
    · rw [if_pos hq]
      show p.edges ++ [_] = _
      have ht : Edge.touches ⟨g.edges.size, source, target, type⟩ p.direction q = true := by
        rcases hq with rfl | rfl
        · rw [hps] at hp
          cases hp
          rw [hds]
          exact beq_self_eq_true q
        · rw [hpt] at hp
          cases hp
          rw [hdt]
          exact beq_self_eq_true q
      rw [show (p.listing g.edges.size).direction = p.direction from rfl, hl, List.filter_cons,
        if_pos ht]
      rfl
    · rw [if_neg hq]
      have ht : Edge.touches ⟨g.edges.size, source, target, type⟩ p.direction q = false := by
        simp only [not_or] at hq
        cases p.direction with
        | input => exact beq_eq_false_iff_ne.2 (Ne.symm hq.2)
        | output => exact beq_eq_false_iff_ne.2 (Ne.symm hq.1)
      rw [hl, List.filter_cons, if_neg (by rw [ht]; simp)]
      simp
  single := by
    intro q p' hp' hd
    obtain ⟨p, hp, rfl⟩ := j.port?_cases hp'
    obtain ⟨ps, hps, hds⟩ := j.output
    obtain ⟨pt, hpt, -, hopen⟩ := j.input
    by_cases hq : q = source ∨ q = target
    · rw [if_pos hq] at hd ⊢
      rcases hq with rfl | rfl
      · rw [hps] at hp
        cases hp
        rw [Port.listing, hds] at hd
        cases hd
      · rw [hpt] at hp
        cases hp
        simp [Port.listing, hopen]
    · rw [if_neg hq] at hd ⊢
      exact hg.single q p hp hd

/-- **Every built graph is consistent.** -/
theorem Built.consistent (h : g.Built) : g.Consistent := by
  induction h with
  | empty =>
    have hport : ∀ q p, ¬ Graph.empty.port? q = some p := by
      intro q p hp
      obtain ⟨k, -, hk⟩ := at?_eq_some hp
      simp [Graph.empty] at hk
    exact ⟨fun i n h => by simp [Graph.empty] at h, fun id k h => by simp [Graph.empty] at h,
      fun q p h => absurd h (hport q p), fun k e h => by simp [Graph.empty] at h,
      fun e h => by simp [Graph.empty] at h, fun q p h => absurd h (hport q p),
      fun q p h => absurd h (hport q p)⟩
  | node _ ha ih =>
    obtain ⟨n, ins, outs, -, -, -, -, r⟩ := addNode_grows ha
    exact consistent_addNode ih r
  | edge _ hc ih => exact consistent_connect ih (connect_joins hc)

/-! ### Graphs from lists of steps -/

/-- A step of building. -/
inductive Growth where
  | node (id : NodeId) (name : String) (kind : NodeKind) (params : Params)
  | edge (source target : PortId)

/-- The graph after a step; a refused step changes nothing. -/
def after (g : Graph) : Growth → Graph
  | .node id name kind params =>
    match g.addNode id name kind params with
    | .ok g' => g'
    | .error _ => g
  | .edge source target =>
    match g.connect source target with
    | .ok g' => g'
    | .error _ => g

theorem after_edge (h : g.connect source target = .ok g') : g.after (.edge source target) = g' := by
  rw [after, h]

/-- The graph that steps make from nothing. -/
def grown (steps : List Growth) : Graph := steps.foldl after .empty

theorem Built.after (h : g.Built) (step : Growth) : (g.after step).Built := by
  cases step with
  | node id name kind params =>
    rw [Graph.after]
    split
    · rename_i g' hg'
      exact .node h hg'
    · exact h
  | edge source target =>
    rw [Graph.after]
    split
    · rename_i g' hg'
      exact .edge h hg'
    · exact h

/-- **Whatever the steps, the graph they make is built.** -/
theorem Built.grown (steps : List Growth) : (Graph.grown steps).Built := by
  have hall : ∀ (steps : List Growth) (g : Graph), g.Built → (steps.foldl Graph.after g).Built := by
    intro steps
    induction steps with
    | nil => exact fun _ h => h
    | cons step steps ih => exact fun g h => ih _ (h.after step)
  exact hall steps .empty .empty

end Graph

end NodeShader
