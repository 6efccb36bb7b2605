import Mathlib.Data.List.Nodup
import NodeShader.Proofs.Graph.Built
import NodeShader.Proofs.Lists

/-!
# How the nodes of a built graph are wired

What the laws of a consistent graph say of look-ups: the ports of a node lead back to it, and the
producer of an input is an output port of a node.  Edges are seen alike from both ends
(`count_sinks`): a node stands among the sinks of another as often as that one stands among its
sources.
-/

namespace NodeShader

namespace Graph

variable {g : Graph} {i j : Nat} {n m : Node} {q out : PortId} {p : Port}

/-- A port of a node by its direction. -/
theorem Declares.port {direction : Direction} {ports : List PortId} {specs : List PortSpec}
    (h : g.Declares i n direction ports specs) (hq : q ∈ ports) :
    ∃ p, g.port? q = some p ∧ p.direction = direction ∧ p.ownerIndex = i := by
  obtain ⟨s, -, hs⟩ := exists_of_mem_left h hq
  obtain ⟨p, hp, hb⟩ := Option.map_eq_some_iff.1 hs
  refine ⟨p, hp, ?_, ?_⟩
  · show p.bare.direction = _
    rw [hb]
    rfl
  · show p.bare.ownerIndex = _
    rw [hb]
    rfl

/-- The ports of one direction are distinct. -/
theorem Declares.nodup {direction : Direction} {ports : List PortId} {specs : List PortSpec}
    (h : g.Declares i n direction ports specs) : ports.Nodup := by
  have hidx : ports.map (fun q => (g.port? q).map (·.index)) =
      (specs.zipIdx.map (·.2)).map some := by
    rw [List.map_map, ← List.forall₂_eq_eq_eq, List.forall₂_map_left_iff, List.forall₂_map_right_iff]
    refine h.imp fun q s hs => ?_
    obtain ⟨p, hp, hb⟩ := Option.map_eq_some_iff.1 hs
    rw [hp]
    show some p.bare.index = _
    rw [hb]
    rfl
  refine List.Nodup.of_map (fun q => (g.port? q).map (·.index)) ?_
  rw [hidx, List.zipIdx_map_snd]
  exact List.Nodup.map (fun a b h => Option.some.inj h) List.nodup_range'

namespace Consistent

theorem port_of_mem (hg : g.Consistent) (hn : g.nodes[i]? = some n) {direction : Direction}
    (hq : q ∈ n.portsOf direction) :
    ∃ p, g.port? q = some p ∧ p.direction = direction ∧ p.ownerIndex = i := by
  obtain ⟨ins, outs, -, hi, ho⟩ := (hg.node i n hn).ports
  cases direction with
  | input => exact hi.port hq
  | output => exact ho.port hq

theorem input_port (hg : g.Consistent) (hn : g.nodes[i]? = some n) (hq : q ∈ n.inputs) :
    ∃ p, g.port? q = some p ∧ p.direction = .input ∧ p.ownerIndex = i :=
  hg.port_of_mem hn (show q ∈ n.portsOf .input from hq)

theorem output_port (hg : g.Consistent) (hn : g.nodes[i]? = some n) (hq : q ∈ n.outputs) :
    ∃ p, g.port? q = some p ∧ p.direction = .output ∧ p.ownerIndex = i :=
  hg.port_of_mem hn (show q ∈ n.portsOf .output from hq)

theorem nodup_ports (hg : g.Consistent) (hn : g.nodes[i]? = some n) (direction : Direction) :
    (n.portsOf direction).Nodup := by
  obtain ⟨ins, outs, -, hi, ho⟩ := (hg.node i n hn).ports
  cases direction with
  | input => exact hi.nodup
  | output => exact ho.nodup

/-- The owner of a port by its position. -/
theorem ownerPosition?_eq (hg : g.Consistent) (hp : g.port? q = some p) :
    g.ownerPosition? q = some i ↔ p.ownerIndex = i := by
  obtain ⟨k, m, hm, hk, -⟩ := hg.owner q p hp
  have hlt := (Array.getElem?_eq_some_iff.1 hm).1
  have ho : g.ownerPosition? q = some k := by
    rw [ownerPosition?, hp, Option.bind_eq_bind, Option.bind_some, hk]
    simp [hlt]
  rw [ho, hk, Option.some.injEq, Int.natCast_inj]

theorem ownerPosition?_of_mem (hg : g.Consistent) (hn : g.nodes[i]? = some n)
    {direction : Direction} (hq : q ∈ n.portsOf direction) : g.ownerPosition? q = some i := by
  obtain ⟨p, hp, -, ho⟩ := hg.port_of_mem hn hq
  exact (hg.ownerPosition?_eq hp).2 ho

/-- A port belongs to one node. -/
theorem mem_portsOf_iff (hg : g.Consistent) (hn : g.nodes[i]? = some n) (hp : g.port? q = some p) :
    q ∈ n.portsOf p.direction ↔ g.ownerPosition? q = some i := by
  constructor
  · exact hg.ownerPosition?_of_mem hn
  · intro ho
    obtain ⟨k, m, hm, hk, hq⟩ := hg.owner q p hp
    have hki : i = k := by
      rw [hg.ownerPosition?_eq hp, hk, Int.natCast_inj] at ho
      exact ho.symm
    subst hki
    rw [hn] at hm
    cases hm
    exact hq

theorem edge?_id (hg : g.Consistent) {e : Edge} (he : e ∈ g.edges.toList) :
    g.edge? e.id = some e := by
  obtain ⟨k, hk⟩ := List.getElem?_of_mem he
  rw [Array.getElem?_toList] at hk
  rw [hg.ids k e hk]
  exact hk

/-! ### Producers -/

/-- The producer of an input port is the source of the edge that ends there. -/
theorem producer?_eq (hg : g.Consistent) (hp : g.port? q = some p) (hd : p.direction = .input) :
    g.producer? q = ((g.edges.toList.filter (·.target == q)).map (·.source)).head? := by
  have hl := hg.listed q p hp
  rw [hd] at hl
  have hf : g.edges.toList.filter (·.touches .input q) =
      g.edges.toList.filter (·.target == q) := rfl
  rw [hf] at hl
  rw [producer?, producer, hp]
  simp only [hd, ne_eq, not_true_eq_false, if_false]
  cases hfe : g.edges.toList.filter (·.target == q) with
  | nil =>
    rw [hfe] at hl
    rw [hl]
    rfl
  | cons e rest =>
    rw [hfe] at hl
    have he : e ∈ g.edges.toList := (List.mem_filter.1 (by rw [hfe]; exact List.mem_cons_self)).1
    rw [hl]
    simp only [List.map_cons, hg.edge?_id he]
    rfl

/-- **The producer of a port**: the source of an edge to it, an output port of a node. -/
theorem producer?_some (hg : g.Consistent) (h : g.producer? q = some out) :
    ∃ p e po j m, g.port? q = some p ∧ p.direction = .input ∧ p.isConnected = true ∧
      e ∈ g.edges.toList ∧ e.source = out ∧ e.target = q ∧ g.port? out = some po ∧
      po.direction = .output ∧ po.isConnected = true ∧ g.nodes[j]? = some m ∧ out ∈ m.outputs ∧
      g.producerPosition? q = some j := by
  have hex : ∃ p, g.port? q = some p ∧ p.direction = .input := by
    rw [producer?, producer] at h
    cases hp : g.port? q with
    | none => rw [hp] at h; cases h
    | some p =>
      rw [hp] at h
      refine ⟨p, rfl, ?_⟩
      by_contra hd
      simp only [hd, ne_eq, not_false_eq_true, if_true] at h
      cases h
  obtain ⟨p, hp, hd⟩ := hex
  have h' := h
  rw [hg.producer?_eq hp hd, List.head?_eq_some_iff] at h
  obtain ⟨rest, hrest⟩ := h
  have hmem : out ∈ (g.edges.toList.filter (·.target == q)).map (·.source) := by
    rw [hrest]
    exact List.mem_cons_self
  obtain ⟨e, he, hes⟩ := List.mem_map.1 hmem
  rw [List.mem_filter, beq_iff_eq] at he
  obtain ⟨⟨po, hpo, hdo⟩, -⟩ := hg.ends e he.1
  have hconn : ∀ (q : PortId) (p : Port), g.port? q = some p → e.touches p.direction q = true →
      p.isConnected = true := by
    intro q p hp ht
    have hl := hg.listed q p hp
    rw [Port.isConnected, hl]
    have hm : e ∈ g.edges.toList.filter (·.touches p.direction q) :=
      List.mem_filter.2 ⟨he.1, ht⟩
    cases hc : g.edges.toList.filter (·.touches p.direction q) with
    | nil => rw [hc] at hm; cases hm
    | cons a l => rfl
  rw [hes] at hpo
  obtain ⟨j, m, hm, hj, hmem'⟩ := hg.owner out po hpo
  rw [hdo] at hmem'
  refine ⟨p, e, po, j, m, hp, hd, ?_, he.1, hes, he.2, hpo, hdo, ?_, hm, hmem', ?_⟩
  · exact hconn q p hp (by rw [hd, Edge.touches, he.2]; exact beq_self_eq_true q)
  · exact hconn out po hpo (by rw [hdo, Edge.touches, hes]; exact beq_self_eq_true out)
  · rw [producerPosition?, h', Option.bind_some]
    exact (hg.ownerPosition?_eq hpo).2 hj

/-- A producer has an output port. -/
theorem producer_outputs (hg : g.Consistent) (h : g.producerPosition? q = some j) :
    ∃ m, g.nodes[j]? = some m ∧ ∃ out, out ∈ m.outputs := by
  rw [producerPosition?] at h
  cases hout : g.producer? q with
  | none =>
    rw [hout] at h
    cases h
  | some out =>
    obtain ⟨_, _, _, k, m, -, -, -, -, -, -, -, -, -, hm, ho, hk⟩ := hg.producer?_some hout
    rw [producerPosition?, h] at hk
    cases hk
    exact ⟨m, hm, out, ho⟩

/-- An input port has a producer exactly if it is connected. -/
theorem producer?_isSome (hg : g.Consistent) (hp : g.port? q = some p) (hd : p.direction = .input) :
    (g.producer? q).isSome = p.isConnected := by
  have hl := hg.listed q p hp
  rw [hd] at hl
  rw [hg.producer?_eq hp hd, Port.isConnected, hl]
  show Option.isSome (List.map (·.source) (g.edges.toList.filter (·.touches .input q))).head? = _
  cases g.edges.toList.filter (·.touches .input q) with
  | nil => rfl
  | cons a l => rfl

/-- An output is connected if an edge starts there. -/
theorem isConnected_iff (hg : g.Consistent) (hp : g.port? q = some p) (hd : p.direction = .output) :
    p.isConnected = true ↔ ∃ e ∈ g.edges.toList, e.source = q := by
  rw [Port.isConnected, hg.listed q p hp, hd, List.isEmpty_map, Bool.not_eq_true',
    ← Bool.not_eq_true, List.isEmpty_iff, List.filter_eq_nil_iff]
  simp only [Edge.touches, beq_iff_eq, not_forall, not_not, exists_prop]

/-! ### Both ends of the edges -/

/-- The input ports that an output port feeds are the targets of the edges that start there. -/
theorem consumers_eq (hg : g.Consistent) (hp : g.port? q = some p) (hd : p.direction = .output) :
    g.consumers q = .ok (some ((g.edges.toList.filter (·.source == q)).map (·.target))) := by
  have hl := hg.listed q p hp
  rw [hd] at hl
  have hall : ∀ l : List Edge, (∀ e ∈ l, e ∈ g.edges.toList) →
      (l.map (·.id)).mapM (fun e => (found (g.edge? e)).map (·.target)) =
        (.ok (l.map (·.target)) : Except Fault (List PortId)) := by
    intro l hl
    induction l with
    | nil => rfl
    | cons e l ih =>
      have he := hg.edge?_id (hl e List.mem_cons_self)
      rw [List.map_cons, List.mapM_cons, he, ih fun e' he' => hl e' (List.mem_cons_of_mem e he')]
      rfl
  rw [consumers, hp]
  simp only [hd, ne_eq, not_true_eq_false, if_false]
  rw [hl, hall _ fun e he => (List.mem_filter.1 he).1]
  rfl

/-- **A node stands among the sinks of another as often as that one stands among its sources.** -/
theorem count_sinks (hg : g.Consistent) (hn : g.nodes[i]? = some n) (hm : g.nodes[j]? = some m) :
    (g.sinks m).count i = (g.sources n).count j := by
  -- both count the edges from node `j` to node `i`
  have hsinks : (g.sinks m).count i = g.edges.toList.countP fun e =>
      m.outputs.contains e.source && (g.ownerPosition? e.target == some i) := by
    have hnodup : m.outputs.Nodup := hg.nodup_ports hm .output
    rw [sinks, count_flatMap_eq_total, ← total_countP _ _ _ hnodup]
    refine total_congr fun q hq => ?_
    obtain ⟨p, hp, hd, -⟩ := hg.output_port hm hq
    rw [hg.consumers_eq hp hd]
    simp only [List.count_filterMap, List.countP_map, List.countP_filter]
    refine List.countP_congr fun e _ => ?_
    simp [and_comm]
  have hsources : (g.sources n).count j = g.edges.toList.countP fun e =>
      n.inputs.contains e.target && (g.ownerPosition? e.source == some j) := by
    have hnodup : n.inputs.Nodup := hg.nodup_ports hn .input
    rw [sources, List.count_filterMap, countP_eq_total, ← total_countP _ _ _ hnodup]
    refine total_congr fun q hq => ?_
    obtain ⟨p, hp, hd, -⟩ := hg.input_port hn hq
    have hone := hg.single q p hp hd
    rw [hg.listed q p hp, hd, List.length_map] at hone
    change (g.edges.toList.filter (·.target == q)).length ≤ 1 at hone
    have hcount : g.edges.toList.countP (fun e =>
        e.target == q && (g.ownerPosition? e.source == some j)) =
        (g.edges.toList.filter (·.target == q)).countP
          fun e => g.ownerPosition? e.source == some j := by
      rw [List.countP_filter]
      exact List.countP_congr fun e _ => by simp [and_comm]
    rw [hcount, producerPosition?, hg.producer?_eq hp hd]
    generalize g.edges.toList.filter (·.target == q) = F at hone
    match F, hone with
    | [], _ => rfl
    | [e], _ => simp [List.countP_cons]
    | _ :: _ :: _, h => simp at h
  rw [hsinks, hsources]
  refine List.countP_congr fun e he => ?_
  obtain ⟨⟨p, hp, hd⟩, p', hp', hd'⟩ := hg.ends e he
  have h1 := hg.mem_portsOf_iff hm hp
  have h2 := hg.mem_portsOf_iff hn hp'
  rw [hd] at h1
  rw [hd'] at h2
  simp only [Bool.and_eq_true, List.contains_iff_mem, beq_iff_eq]
  exact ⟨fun h => ⟨h2.2 h.2, h1.1 h.1⟩, fun h => ⟨h1.2 h.2, h2.1 h.1⟩⟩

end Consistent

end Graph

end NodeShader
