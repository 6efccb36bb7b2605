import NodeShader.Proofs.Graph.Validation
import NodeShader.Proofs.Graph.Wiring
import NodeShader.Proofs.Outcome

/-!
# Builders keep graphs intact

A builder is called any number of times, and any call may fail and be caught.  Whatever the calls
are, the graph stays intact (`Graph.Intact`): nodes, ports and edges stand where their identifiers
say, and each reference between them is answered by one in the other direction.

* `Build.Call.perform_cases`: what a call does.  It fails and leaves the builder as it was, or it adds
  one node or one edge.
* `Graph.Built.intact`: so the graph is intact after any calls.
* `Graph.Intact.validate_eq_ok`: an intact graph passes validation.
* `Graph.Intact.is_mutual`: and its ports and edges refer to each other, which is more.
-/

namespace NodeShader

namespace Graph

/-- Whether a port starts an arm. -/
def startsArm (g : Graph) (q : PortId) : Bool := (g.port? q).any (·.spec.startsArm)

/-- The ports that nodes list, node by node. -/
def listedPorts (g : Graph) : List PortId := g.nodes.toList.flatMap fun n => n.inputs ++ n.outputs

/-- The node at position `i` stands where it says and is found by its identity. -/
structure IntactNode (g : Graph) (i : Nat) (n : Node) : Prop where
  index : n.index = i
  valid : n.kind.isValid = true
  found : g.position? n.id = some i
  /-- Only ports of its own are listed. -/
  own : ∀ direction, ∀ q ∈ n.portsOf direction, ∃ p, g.port? q = some p ∧
    p.direction = direction ∧ p.ownerIndex = i ∧ p.owner = n.id

/-- Port number `k` is listed once among all ports, and at its own place by its owner.  The ports
that start an arm are numbered in the order of the inputs. -/
structure IntactPort (g : Graph) (k : Nat) (p : Port) : Prop where
  id : p.id = k
  once : g.listedPorts.count (k : PortId) = 1
  owner : ∃ (i : Nat) (n : Node), g.nodes[i]? = some n ∧ p.ownerIndex = i ∧ p.owner = n.id ∧
    (n.portsOf p.direction)[p.index]? = some (k : PortId) ∧
    p.arm = if p.direction = .input ∧ p.spec.startsArm = true then
      ((n.inputs.take p.index).countP g.startsArm : Int) else -1
  /-- Only edges that are there are listed. -/
  edges : ∀ e ∈ p.edges, (g.edge? e).isSome = true
  single : p.direction = .input → p.edges.length ≤ 1

/-- Edge number `k` goes from an output to an input of another node.  Its two ports list it once, and
no other port lists it. -/
structure IntactEdge (g : Graph) (k : Nat) (e : Edge) : Prop where
  id : e.id = k
  ends : ∃ output input, g.port? e.source = some output ∧ g.port? e.target = some input ∧
    output.direction = .output ∧ input.direction = .input ∧ output.ownerIndex ≠ input.ownerIndex ∧
    e.type = output.type.inter input.type ∧ e.type.isEmpty = false
  listed : ∀ q p, g.port? q = some p →
    p.edges.count (k : EdgeId) = if q = e.source ∨ q = e.target then 1 else 0

/-- **A graph whose nodes, ports and edges agree with each other.** -/
structure Intact (g : Graph) : Prop where
  node : ∀ (i : Nat) (n : Node), g.nodes[i]? = some n → g.IntactNode i n
  distinct : (g.nodes.toList.map (·.id)).Nodup
  port : ∀ (k : Nat) (p : Port), g.ports[k]? = some p → g.IntactPort k p
  edge : ∀ (k : Nat) (e : Edge), g.edges[k]? = some e → g.IntactEdge k e

variable {g g' : Graph}

/-! ### Nodes and ports -/

/-- A port of a node by its place. -/
theorem Declares.getElem? {i k : Nat} {n : Node} {direction : Direction} {ports : List PortId}
    {specs : List PortSpec} {q : PortId} (h : g.Declares i n direction ports specs)
    (hq : ports[k]? = some q) : ∃ spec p, g.port? q = some p ∧
      p.bare = n.bare i direction specs q spec k := by
  obtain ⟨hlen, hall⟩ := List.forall₂_iff_get.1 h
  obtain ⟨hk, rfl⟩ := List.getElem?_eq_some_iff.1 hq
  have hs := hall k hk (hlen ▸ hk)
  obtain ⟨p, hp, hb⟩ := Option.map_eq_some_iff.1 hs
  simp only [List.get_eq_getElem, List.getElem_zipIdx, Nat.zero_add] at hb
  exact ⟨_, p, hp, hb⟩

/-- Ports start arms as they are declared to. -/
theorem Declares.map_startsArm {i : Nat} {n : Node} {direction : Direction} {ports : List PortId}
    {specs : List PortSpec} (h : g.Declares i n direction ports specs) :
    ports.map g.startsArm = specs.map (·.startsArm) := by
  have hzip : specs.map (·.startsArm) = specs.zipIdx.map (·.1.startsArm) := by
    conv_lhs => rw [← List.zipIdx_map_fst (l := specs) (i := 0)]
    rw [List.map_map]
    rfl
  rw [hzip, ← List.forall₂_eq_eq_eq, List.forall₂_map_left_iff, List.forall₂_map_right_iff]
  refine h.imp fun q s hs => ?_
  obtain ⟨p, hp, hb⟩ := Option.map_eq_some_iff.1 hs
  rw [startsArm, hp]
  show p.bare.spec.startsArm = _
  rw [hb]
  rfl

namespace Consistent

variable {i : Nat} {n : Node} {q : PortId}

/-- The ports of a node in one direction, as they are declared. -/
theorem declares (hg : g.Consistent) (hn : g.nodes[i]? = some n) (direction : Direction) :
    ∃ specs, g.Declares i n direction (n.portsOf direction) specs := by
  obtain ⟨ins, outs, -, hi, ho⟩ := (hg.node i n hn).ports
  cases direction with
  | input => exact ⟨ins, hi⟩
  | output => exact ⟨outs, ho⟩

theorem intactNode (hg : g.Consistent) (hn : g.nodes[i]? = some n) : g.IntactNode i n where
  index := (hg.node i n hn).index
  valid := (hg.node i n hn).valid
  found := (hg.node i n hn).position
  own := by
    intro direction q hq
    obtain ⟨specs, hd⟩ := hg.declares hn direction
    obtain ⟨k, hk⟩ := List.getElem?_of_mem hq
    obtain ⟨spec, p, hp, hb⟩ := hd.getElem? hk
    refine ⟨p, hp, ?_, ?_, ?_⟩
    · exact congrArg Port.direction hb
    · exact congrArg Port.ownerIndex hb
    · exact congrArg Port.owner hb

/-- A port names the node that lists it. -/
theorem port_owner (hg : g.Consistent) {p : Port} (hp : g.port? q = some p) :
    ∃ (i : Nat) (n : Node), g.nodes[i]? = some n ∧ p.ownerIndex = i ∧ p.owner = n.id := by
  obtain ⟨i, n, hn, hi, hmem⟩ := hg.owner q p hp
  obtain ⟨p', hp', -, -, ho⟩ := (hg.intactNode hn).own p.direction q hmem
  rw [hp] at hp'
  cases hp'
  exact ⟨i, n, hn, hi, ho⟩

/-- Identities are distinct, since each leads to one position. -/
theorem nodup_ids (hg : g.Consistent) : (g.nodes.toList.map (·.id)).Nodup := by
  rw [List.nodup_iff_pairwise_ne, List.pairwise_map, List.pairwise_iff_getElem]
  intro a b ha hb hab heq
  have hna := (hg.node a _ (Array.getElem?_eq_getElem ha)).position
  have hnb := (hg.node b _ (Array.getElem?_eq_getElem hb)).position
  simp only [Array.getElem_toList] at heq
  rw [heq, hnb] at hna
  cases hna
  omega

/-- **No port is listed twice**, by one node or by two. -/
theorem nodup_listedPorts (hg : g.Consistent) : g.listedPorts.Nodup := by
  rw [listedPorts, List.nodup_flatMap]
  constructor
  · intro n hn
    obtain ⟨i, hi⟩ := List.getElem?_of_mem hn
    rw [Array.getElem?_toList] at hi
    refine List.nodup_append'.2 ⟨hg.nodup_ports hi .input, hg.nodup_ports hi .output, ?_⟩
    intro q hin hout
    obtain ⟨p, hp, hd, -⟩ := hg.input_port hi hin
    obtain ⟨p', hp', hd', -⟩ := hg.output_port hi hout
    rw [hp] at hp'
    cases hp'
    rw [hd] at hd'
    cases hd'
  · rw [List.pairwise_iff_getElem]
    intro a b ha hb hab q hqa hqb
    have howner : ∀ (i : Nat) (hi : i < g.nodes.toList.length),
        q ∈ g.nodes.toList[i].inputs ++ g.nodes.toList[i].outputs → g.ownerPosition? q = some i := by
      intro i hi hq
      have hn : g.nodes[i]? = some g.nodes.toList[i] := by
        rw [← Array.getElem?_toList]
        exact List.getElem?_eq_getElem hi
      rcases List.mem_append.1 hq with hq | hq
      · exact hg.ownerPosition?_of_mem hn (show q ∈ Node.portsOf _ .input from hq)
      · exact hg.ownerPosition?_of_mem hn (show q ∈ Node.portsOf _ .output from hq)
    have h := howner a ha hqa
    rw [howner b hb hqb] at h
    cases h
    omega

/-- An edge that a port lists is there. -/
theorem edge_of_listed (hg : g.Consistent) {p : Port} (hp : g.port? q = some p) {x : EdgeId}
    (hx : x ∈ p.edges) : ∃ e ∈ g.edges.toList, e.id = x ∧ e.touches p.direction q = true := by
  rw [hg.listed q p hp, List.mem_map] at hx
  obtain ⟨e, he, rfl⟩ := hx
  exact ⟨e, (List.mem_filter.1 he).1, rfl, (List.mem_filter.1 he).2⟩

theorem intactPort (hg : g.Consistent) {k : Nat} {p : Port} (hp : g.ports[k]? = some p) :
    g.IntactPort k p := by
  have hq : g.port? (k : Int) = some p := hp
  obtain ⟨i, n, hn, ho, hmem⟩ := hg.owner k p hq
  obtain ⟨specs, hd⟩ := hg.declares hn p.direction
  obtain ⟨j, hj⟩ := List.getElem?_of_mem hmem
  obtain ⟨spec, p', hp', hb⟩ := hd.getElem? hj
  rw [hq] at hp'
  cases hp'
  have hindex : p.index = j := congrArg Port.index hb
  have hspec : p.spec = spec := congrArg Port.spec hb
  refine ⟨congrArg Port.id hb, ?_, ⟨i, n, hn, ho, congrArg Port.owner hb, hindex ▸ hj, ?_⟩, ?_,
    hg.single k p hq⟩
  · refine List.count_eq_one_of_mem hg.nodup_listedPorts ?_
    rw [listedPorts, List.mem_flatMap]
    refine ⟨n, Array.mem_toList_iff.2 (Array.mem_of_getElem? hn), List.mem_append.2 ?_⟩
    cases hdir : p.direction with
    | input => exact .inl (by rw [hdir] at hmem; exact hmem)
    | output => exact .inr (by rw [hdir] at hmem; exact hmem)
  · have harm : p.arm = if p.direction = .input ∧ spec.startsArm then
        (armsBefore specs j : Int) else -1 := congrArg Port.arm hb
    rw [harm, hspec, hindex]
    by_cases hs : p.direction = .input ∧ spec.startsArm = true
    · rw [if_pos hs, if_pos hs]
      rw [hs.1] at hd
      have htake : ((n.inputs.take j).map g.startsArm).countP id =
          ((specs.take j).map (·.startsArm)).countP id := by
        rw [List.map_take, List.map_take]
        exact congrArg (fun l => (l.take j).countP id) hd.map_startsArm
      rw [List.countP_map, List.countP_map] at htake
      exact congrArg Int.ofNat htake.symm
    · rw [if_neg hs, if_neg hs]
  · intro x hx
    obtain ⟨e, he, rfl, -⟩ := hg.edge_of_listed hq hx
    rw [hg.edge?_id he]
    rfl

end Consistent

/-! ### Edges -/

/-- An edge between ports of two nodes, with the types that both admit. -/
def TypedEdge (g : Graph) (e : Edge) : Prop :=
  ∃ output input, g.port? e.source = some output ∧ g.port? e.target = some input ∧
    output.owner ≠ input.owner ∧ e.type = output.type.inter input.type ∧ e.type.isEmpty = false

/-- Ports that stay the same but for their edges keep an edge typed. -/
theorem TypedEdge.mono {e : Edge} (h : g.TypedEdge e)
    (hport : ∀ q p, g.port? q = some p → (g'.port? q).map Port.bare = some p.bare) :
    g'.TypedEdge e := by
  obtain ⟨output, input, ho, hi, hne, ht, hempty⟩ := h
  obtain ⟨output', ho', hbo⟩ := Option.map_eq_some_iff.1 (hport _ _ ho)
  obtain ⟨input', hi', hbi⟩ := Option.map_eq_some_iff.1 (hport _ _ hi)
  have h₁ : output'.owner = output.owner := by injection hbo
  have h₂ : input'.owner = input.owner := by injection hbi
  have h₃ : output'.spec = output.spec := by injection hbo
  have h₄ : input'.spec = input.spec := by injection hbi
  refine ⟨output', input', ho', hi', by rw [h₁, h₂]; exact hne, ?_, hempty⟩
  rw [Port.type, Port.type, h₃, h₄]
  exact ht

/-- Connecting adds a typed edge. -/
theorem connect_typed {source target : PortId} (h : g.connect source target = .ok g') :
    ∃ e, g'.edges = g.edges.push e ∧ g.TypedEdge e := by
  obtain ⟨output, input, hs, ht, -, -, hne, -, htype, rfl⟩ := connect_eq_ok h
  exact ⟨_, rfl, output, input, hs, ht, hne, rfl, htype⟩

/-- **The edges of a built graph are typed.** -/
theorem Built.typedEdge (h : g.Built) : ∀ e ∈ g.edges.toList, g.TypedEdge e := by
  induction h with
  | empty => intro e he; simp [Graph.empty] at he
  | node _ ha ih =>
    obtain ⟨n, ins, outs, -, -, -, -, r⟩ := addNode_grows ha
    intro e he
    rw [r.edges] at he
    exact (ih e he).mono fun q p hp => by rw [r.port?_old hp]; rfl
  | edge _ hc ih =>
    have j := connect_joins hc
    obtain ⟨e', hedges, he'⟩ := connect_typed hc
    intro e he
    rw [hedges, Array.toList_push, List.mem_append, List.mem_singleton] at he
    rcases he with he | rfl
    · exact (ih e he).mono fun q p => j.bare
    · exact he'.mono fun q p => j.bare

namespace Consistent

variable {k : Nat} {e : Edge} {q : PortId} {p : Port}

/-- An edge starts or ends at a port if the port is one of its ends. -/
theorem touches_iff (hg : g.Consistent) (he : e ∈ g.edges.toList) (hp : g.port? q = some p) :
    e.touches p.direction q = true ↔ q = e.source ∨ q = e.target := by
  obtain ⟨⟨output, ho, hdo⟩, input, hi, hdi⟩ := hg.ends e he
  constructor
  · intro ht
    cases hd : p.direction with
    | input =>
      rw [hd] at ht
      exact .inr (beq_iff_eq.1 ht).symm
    | output =>
      rw [hd] at ht
      exact .inl (beq_iff_eq.1 ht).symm
  · rintro (rfl | rfl)
    · rw [ho] at hp
      cases hp
      rw [hdo]
      exact beq_self_eq_true e.source
    · rw [hi] at hp
      cases hp
      rw [hdi]
      exact beq_self_eq_true e.target

/-- Edges are told apart by their identifiers. -/
theorem nodup_edgeIds (hg : g.Consistent) : (g.edges.toList.map (·.id)).Nodup := by
  rw [List.nodup_iff_pairwise_ne, List.pairwise_map, List.pairwise_iff_getElem]
  intro a b ha hb hab heq
  have hea := hg.ids a _ (Array.getElem?_eq_getElem ha)
  have heb := hg.ids b _ (Array.getElem?_eq_getElem hb)
  simp only [Array.getElem_toList] at heq
  rw [heq, heb] at hea
  have := Int.natCast_inj.1 hea
  omega

/-- **A port lists an edge once if it is one of its ends**, and not at all if it is none. -/
theorem count_edges (hg : g.Consistent) (he : g.edges[k]? = some e) (hp : g.port? q = some p) :
    p.edges.count (k : EdgeId) = if q = e.source ∨ q = e.target then 1 else 0 := by
  have hmem : e ∈ g.edges.toList := Array.mem_toList_iff.2 (Array.mem_of_getElem? he)
  have hid : (k : EdgeId) = e.id := (hg.ids k e he).symm
  have hnodup : p.edges.Nodup := by
    rw [hg.listed q p hp]
    exact hg.nodup_edgeIds.sublist (List.filter_sublist.map _)
  by_cases hq : q = e.source ∨ q = e.target
  · rw [if_pos hq]
    refine List.count_eq_one_of_mem hnodup ?_
    rw [hg.listed q p hp, hid]
    exact List.mem_map_of_mem (List.mem_filter.2 ⟨hmem, (hg.touches_iff hmem hp).2 hq⟩)
  · rw [if_neg hq, List.count_eq_zero]
    intro hx
    obtain ⟨e', he', hid', ht⟩ := hg.edge_of_listed hp hx
    have hsame : g.edge? e'.id = g.edge? e.id := by rw [hid', hid]
    rw [hg.edge?_id he', hg.edge?_id hmem] at hsame
    cases hsame
    exact hq ((hg.touches_iff hmem hp).1 ht)

theorem intactEdge (hg : g.Consistent) (he : g.edges[k]? = some e) (ht : g.TypedEdge e) :
    g.IntactEdge k e := by
  have hmem : e ∈ g.edges.toList := Array.mem_toList_iff.2 (Array.mem_of_getElem? he)
  obtain ⟨output, input, ho, hi, hne, htype, hempty⟩ := ht
  obtain ⟨⟨output', ho', hdo⟩, input', hi', hdi⟩ := hg.ends e hmem
  rw [ho] at ho'
  cases ho'
  rw [hi] at hi'
  cases hi'
  refine ⟨hg.ids k e he, ⟨output, input, ho, hi, hdo, hdi, ?_, htype, hempty⟩,
    fun q p hp => hg.count_edges he hp⟩
  intro hindex
  obtain ⟨i, n, hn, hpi, hpo⟩ := hg.port_owner ho
  obtain ⟨i', n', hn', hpi', hpo'⟩ := hg.port_owner hi
  rw [hpi, hpi', Int.natCast_inj] at hindex
  subst hindex
  rw [hn] at hn'
  cases hn'
  exact hne (hpo.trans hpo'.symm)

end Consistent

/-- **Every built graph is intact.** -/
theorem Built.intact (h : g.Built) : g.Intact where
  node := fun _ _ => h.consistent.intactNode
  distinct := h.consistent.nodup_ids
  port := fun _ _ => h.consistent.intactPort
  edge := fun _ _ he => h.consistent.intactEdge he
    (h.typedEdge _ (Array.mem_toList_iff.2 (Array.mem_of_getElem? he)))

/-! ### Validation -/

namespace Intact

/-- A port that lists an edge is one of its ends. -/
theorem end_of_listed (hg : g.Intact) {k : Nat} {p : Port} (hp : g.ports[k]? = some p) {x : EdgeId}
    (hx : x ∈ p.edges) : ∃ e, g.edge? x = some e ∧ (e.source = (k : PortId) ∨ e.target = (k : PortId)) := by
  obtain ⟨e, he⟩ := Option.isSome_iff_exists.1 ((hg.port k p hp).edges x hx)
  obtain ⟨j, rfl, hj⟩ := at?_eq_some he
  refine ⟨e, he, ?_⟩
  by_contra hne
  have hcount := (hg.edge j e hj).listed k p hp
  rw [if_neg fun h => hne (h.imp Eq.symm Eq.symm), List.count_eq_zero] at hcount
  exact hcount hx

/-- **An intact graph is sound.** -/
theorem sound (hg : g.Intact) : g.Sound where
  node := by
    intro i n hn
    have h := hg.node i n hn
    refine ⟨h.index, h.valid, h.found, fun q hq => ?_⟩
    rcases List.mem_append.1 hq with hq | hq
    · obtain ⟨p, hp, -, hi⟩ := h.own .input q hq
      exact ⟨p, hp, hi⟩
    · obtain ⟨p, hp, -, hi⟩ := h.own .output q hq
      exact ⟨p, hp, hi⟩
  port := by
    intro p hp
    obtain ⟨k, hk⟩ := List.getElem?_of_mem hp
    rw [Array.getElem?_toList] at hk
    have h := hg.port k p hk
    obtain ⟨i, n, hn, hi, -⟩ := h.owner
    refine ⟨?_, h.single, fun x hx => ?_⟩
    · rw [hi, at?_natCast, hn]
      rfl
    · rw [h.id]
      exact hg.end_of_listed hk hx
  edge := by
    intro e he
    obtain ⟨k, hk⟩ := List.getElem?_of_mem he
    rw [Array.getElem?_toList] at hk
    obtain ⟨output, input, ho, hi, hdo, hdi, hne, -⟩ := (hg.edge k e hk).ends
    exact ⟨output, input, ho, hi, hdo, hdi, hne⟩

/-- What validation does not ask for holds of an intact graph. -/
theorem unasked (hg : g.Intact) : g.Unasked where
  listed := by
    intro k e he q p hp hq
    have hcount := (hg.edge k e he).listed q p hp
    rw [if_pos hq] at hcount
    exact List.count_pos_iff.1 (by omega)
  here := by
    intro q p hp x hx e he
    obtain ⟨k, rfl, hk⟩ := at?_eq_some hp
    obtain ⟨e', he', hend⟩ := hg.end_of_listed hk hx
    rw [he] at he'
    cases he'
    exact hend
  once := by
    intro q p hp _
    rw [List.nodup_iff_count_le_one]
    intro x
    by_cases hx : x ∈ p.edges
    · obtain ⟨k, rfl, hk⟩ := at?_eq_some hp
      obtain ⟨e, he, -⟩ := hg.end_of_listed hk hx
      obtain ⟨j, rfl, hj⟩ := at?_eq_some he
      rw [(hg.edge j e hj).listed k p hp]
      split <;> omega
    · rw [List.count_eq_zero_of_not_mem hx]
      exact Nat.zero_le 1
  direction := by
    intro i n hn direction q hq p hp
    obtain ⟨p', hp', hd, -⟩ := (hg.node i n hn).own direction q hq
    rw [hp] at hp'
    cases hp'
    exact hd

/-- **The ports and edges of an intact graph refer to each other consistently.** -/
theorem is_mutual (hg : g.Intact) : g.Mutual := hg.sound.mutual_iff.2 hg.unasked

/-- **An intact graph passes validation.** -/
theorem validate_eq_ok (hg : g.Intact) : g.validate = .ok () := validate_eq_ok_iff.2 hg.sound

end Intact

end Graph

/-! ### Calls of a builder -/

/-- A call of a builder. -/
inductive Build.Call where
  | node (kind : NodeKind) (params : Params)
  | namedNode (name : String) (kind : NodeKind) (params : Params)
  | nodeWithId (id : NodeId) (name : String) (kind : NodeKind) (params : Params)
  | connect (source target : PortId)
  | connectNodes (source : Nat) (output : String) (target : Nat) (input : String)

namespace Build

/-- The step of building that a call makes. -/
def Call.step : Call → Build Unit
  | node kind params => do let _ ← Build.node kind params
  | namedNode name kind params => do let _ ← Build.namedNode name kind params
  | nodeWithId id name kind params => do let _ ← Build.nodeWithId id name kind params
  | connect source target => do let _ ← Build.connect source target
  | connectNodes source output target input => do
    let _ ← Build.connectNodes source output target input

/-- The outcome of a call and the builder it leaves. -/
def Call.perform (c : Call) (b : Builder) : Except BuildError Unit × Builder := c.step.run.run b

/-- The builder after some calls; a call that fails is passed over. -/
def calls (cs : List Call) : Builder := cs.foldl (fun b c => (c.perform b).2) .new

/-- A graph with one more node or edge. -/
def Extends (g g' : Graph) : Prop :=
  (∃ id name kind params, g.addNode id name kind params = .ok g') ∨
    ∃ source target, g.connect source target = .ok g'

/-- A step that fails and leaves the builder as it was, or extends its graph. -/
def Atomic {α : Type} (x : Build α) : Prop :=
  ∀ b : Builder, (∃ e, x.run.run b = (.error e, b)) ∨
    ∃ a g, x.run.run b = (.ok a, { b with graph := g }) ∧ Extends b.graph g

/-- One step after another: a failure keeps the builder that was reached. -/
theorem run_bind {α β : Type} (x : Build α) (f : α → Build β) (b : Builder) :
    (x >>= f).run.run b =
      match x.run.run b with
      | (.ok a, b') => (f a).run.run b'
      | (.error e, b') => (.error e, b') := by
  show (ExceptT.bindCont f (x.run.run b).1).run (x.run.run b).2 = _
  rcases x.run.run b with ⟨_ | _, b'⟩ <;> rfl

theorem run_get (b : Builder) : (get : Build Builder).run.run b = (.ok b, b) := rfl

theorem run_read {α : Type} (r : Graph → Except Fault α) (b : Builder) :
    (read r).run.run b = ((r b.graph).mapError .fault, b) := by
  rw [read, run_bind, run_get]
  dsimp only
  cases r b.graph <;> rfl

theorem run_change (f : Graph → Except BuildError Graph) (b : Builder) :
    (change f).run.run b =
      if b.isSealed then (.error .closed, b)
      else
        match f b.graph with
        | .ok g => (.ok (), { b with graph := g })
        | .error e => (.error e, b) := by
  rw [change, run_bind, run_get]
  dsimp only
  cases b.isSealed with
  | true => rfl
  | false => cases f b.graph <;> rfl

/-- A change by one node or edge. -/
theorem atomic_change {α : Type} {f : Graph → Except BuildError Graph} (a : α)
    (h : ∀ g g', f g = .ok g' → Extends g g') : Atomic (do change f; return a) := by
  intro b
  rw [run_bind, run_change]
  by_cases hb : b.isSealed = true
  · rw [if_pos hb]
    exact .inl ⟨_, rfl⟩
  · rw [if_neg hb]
    cases hf : f b.graph with
    | ok g => exact .inr ⟨a, g, rfl, h _ _ hf⟩
    | error e => exact .inl ⟨e, rfl⟩

theorem atomic_get {α : Type} {f : Builder → Build α} (h : ∀ b, Atomic (f b)) :
    Atomic (get >>= f) := fun b => h b b

theorem atomic_read {α β : Type} {r : Graph → Except Fault α} {f : α → Build β}
    (h : ∀ a, Atomic (f a)) : Atomic (read r >>= f) := by
  intro b
  rw [run_bind, run_read]
  cases r b.graph with
  | error e => exact .inl ⟨_, rfl⟩
  | ok a => exact h a b

theorem atomic_unless {α : Type} {c : Prop} [Decidable c] {e : BuildError} {x : Build α}
    (h : Atomic x) : Atomic (do
      if c then throw e
      x) := by
  intro b
  by_cases hc : c
  · rw [if_pos hc]
    exact .inl ⟨e, rfl⟩
  · rw [if_neg hc]
    exact h b

theorem atomic_nodeWithId (id : NodeId) (name : String) (kind : NodeKind) (params : Params) :
    Atomic (nodeWithId id name kind params) := fun b =>
  atomic_change b.graph.nodes.size (fun _ _ h => .inl ⟨id, name, kind, params, h⟩) b

theorem atomic_node (kind : NodeKind) (params : Params) : Atomic (node kind params) := by
  rw [node]
  exact atomic_get fun b => atomic_nodeWithId _ "" kind params

theorem atomic_connect (source target : PortId) : Atomic (connect source target) := fun b =>
  atomic_change (b.graph.edges.size : EdgeId) (fun _ _ h => .inr ⟨source, target, h⟩) b

theorem atomic_connectNodes (source : Nat) (output : String) (target : Nat) (input : String) :
    Atomic (connectNodes source output target input) :=
  atomic_read fun _ => atomic_read fun _ => atomic_read fun _ => atomic_read fun _ =>
    atomic_unless (atomic_unless (atomic_connect _ _))

/-- **What a call does**: it fails and leaves the builder as it was, or it adds one node or edge. -/
theorem Call.perform_cases (c : Call) (b : Builder) :
    (∃ e, c.perform b = (.error e, b)) ∨
      ∃ g, c.perform b = (.ok (), { b with graph := g }) ∧ Extends b.graph g := by
  have hall : ∀ {α : Type} {x : Build α}, Atomic x →
      (∃ e, (do let _ ← x : Build Unit).run.run b = (.error e, b)) ∨
        ∃ g, (do let _ ← x : Build Unit).run.run b = (.ok (), { b with graph := g }) ∧
          Extends b.graph g := by
    intro α x hx
    rw [run_bind]
    rcases hx b with ⟨e, he⟩ | ⟨a, g, hg, hext⟩
    · rw [he]
      exact .inl ⟨e, rfl⟩
    · rw [hg]
      exact .inr ⟨g, rfl, hext⟩
  cases c with
  | node kind params => exact hall (atomic_node kind params)
  | namedNode name kind params => exact hall (atomic_nodeWithId _ name kind params)
  | nodeWithId id name kind params => exact hall (atomic_nodeWithId id name kind params)
  | connect source target => exact hall (atomic_connect source target)
  | connectNodes source output target input =>
    exact hall (atomic_connectNodes source output target input)

/-- The builder stays open and its graph built, call by call. -/
theorem Call.perform_built (c : Call) {b : Builder} (hb : b.graph.Built) :
    (c.perform b).2.graph.Built ∧ (c.perform b).2.isSealed = b.isSealed := by
  rcases c.perform_cases b with ⟨e, he⟩ | ⟨g, hg, hext⟩
  · rw [he]
    exact ⟨hb, rfl⟩
  · rw [hg]
    rcases hext with ⟨id, name, kind, params, ha⟩ | ⟨source, target, hc⟩
    · exact ⟨.node hb ha, rfl⟩
    · exact ⟨.edge hb hc, rfl⟩

/-- **Whatever the calls, the graph is built** and the builder open. -/
theorem calls_built (cs : List Call) : (calls cs).graph.Built ∧ (calls cs).isSealed = false := by
  have hall : ∀ (cs : List Call) (b : Builder), b.graph.Built →
      (cs.foldl (fun b c => (c.perform b).2) b).graph.Built ∧
        (cs.foldl (fun b c => (c.perform b).2) b).isSealed = b.isSealed := by
    intro cs
    induction cs with
    | nil => exact fun b hb => ⟨hb, rfl⟩
    | cons c cs ih =>
      intro b hb
      obtain ⟨hbuilt, hsealed⟩ := c.perform_built hb
      obtain ⟨h₁, h₂⟩ := ih _ hbuilt
      exact ⟨h₁, h₂.trans hsealed⟩
  exact hall cs .new .empty

/-- Building an open builder's graph gives the graph. -/
theorem run_finish {b : Builder} (hopen : b.isSealed = false) (hbuilt : b.graph.Built) :
    finish.run.run b = (.ok b.graph, { b with isSealed := true }) := by
  rw [finish, run_bind, run_get]
  dsimp only
  rw [hopen, hbuilt.intact.validate_eq_ok]
  rfl

/-- **Builders keep graphs intact.**  After any calls, some of which failed, the graph is intact; a
call that fails leaves the builder as it was; and the graph is built without an error. -/
theorem calls_intact (cs : List Call) :
    (calls cs).graph.Intact ∧
    (∀ (c : Call) (e : BuildError), (c.perform (calls cs)).1 = .error e → (c.perform (calls cs)).2 = calls cs) ∧
    (calls cs).graph.validate = .ok () ∧
    (finish.run.run (calls cs)).1 = .ok (calls cs).graph := by
  obtain ⟨hbuilt, hopen⟩ := calls_built cs
  refine ⟨hbuilt.intact, ?_, hbuilt.intact.validate_eq_ok, by rw [run_finish hopen hbuilt]⟩
  intro c e he
  rcases c.perform_cases (calls cs) with ⟨e', he'⟩ | ⟨g, hg, -⟩
  · rw [he']
  · rw [hg] at he
    cases he

namespace CallExample

/-- The time and its negation. -/
def steps : List Call :=
  [.nodeWithId (Uuid.ofBytes [1]) "" .time .none, .nodeWithId (Uuid.ofBytes [2]) "" .negate .none,
    .connectNodes 0 "out" 1 "in"]

/-- The input is connected already. -/
def again : Call := .connectNodes 0 "out" 1 "in"

end CallExample

/-- Connecting twice fails, and leaves the graph of the first time. -/
theorem calls_intact_again :
    ∃ e, (CallExample.again.perform (calls CallExample.steps)).1 = .error e ∧
      (CallExample.again.perform (calls CallExample.steps)).2 = calls CallExample.steps ∧
      (calls CallExample.steps).graph.Intact ∧ (calls CallExample.steps).graph.edges.size = 1 := by
  have hfails : (CallExample.again.perform (calls CallExample.steps)).1.toOption = none := by
    decide +kernel
  have hsize : (calls CallExample.steps).graph.edges.size = 1 := by decide +kernel
  obtain ⟨hintact, hatomic, -⟩ := calls_intact CallExample.steps
  cases he : (CallExample.again.perform (calls CallExample.steps)).1 with
  | ok u =>
    rw [he] at hfails
    cases hfails
  | error e => exact ⟨e, rfl, hatomic _ e he, hintact, hsize⟩

end Build

end NodeShader
