import NodeShader.Proofs.Graph.Integrity
import NodeShader.Proofs.Graph.Ports

/-!
# Nodes and edges without their numbers

Where the nodes, ports and edges of a graph stand is a matter of the order in which they were made.
What does not hang on it are the facts about each node (`NodeFacts`) and the wires, which are the
edges by the identities of nodes and the names of ports (`Wire`).  Graphs that agree in these are
the same but for their numbers (`Graph.Renumbered`).

The builder accepts or refuses a step by facts and wires only: a node by `Built.addNode_isOk`, a
connection by `Consistent.connect_wires` and `Consistent.connect_isOk`.
-/

namespace NodeShader

/-- What a node is wherever it stands in a graph. -/
structure NodeFacts where
  id : NodeId
  name : String
  kind : NodeKind
  params : Params

def Node.facts (n : Node) : NodeFacts := ⟨n.id, n.name, n.kind, n.params⟩

/-- An edge by its ends. -/
structure Wire where
  source : NodeId
  output : String
  target : NodeId
  input : String
  type : TypeSet

/-- The input that a wire leads to. -/
def Wire.sink (w : Wire) : NodeId × String := (w.target, w.input)

namespace NodeFacts

/-- The ports that a node declares; none if its parameters are refused. -/
def ports (n : NodeFacts) (direction : Direction) : List PortSpec :=
  match portSpecs n.kind n.params, direction with
  | .ok (ins, _), .input => ins
  | .ok (_, outs), .output => outs
  | .error _, _ => []

/-- The name of a node's first output. -/
def firstOutput? (n : NodeFacts) : Option String := (n.ports .output).head?.map (·.name)

/-- The wire from an output of a node to an input of another, if their types allow one. -/
def wire? (n : NodeFacts) (output : String) (m : NodeFacts) (input : String) : Option Wire := do
  let o ← (n.ports .output).find? (·.name == output)
  let i ← (m.ports .input).find? (·.name == input)
  if n.id = m.id ∨ (o.type.inter i.type).isEmpty = true then none
  else return ⟨n.id, output, m.id, input, o.type.inter i.type⟩

theorem wire?_eq_some {n m : NodeFacts} {output input : String} {w : Wire} :
    n.wire? output m input = some w ↔ ∃ o i, (n.ports .output).find? (·.name == output) = some o ∧
      (m.ports .input).find? (·.name == input) = some i ∧ n.id ≠ m.id ∧
      (o.type.inter i.type).isEmpty = false ∧
      w = ⟨n.id, output, m.id, input, o.type.inter i.type⟩ := by
  simp only [wire?, Option.bind_eq_bind, Option.bind_eq_some_iff]
  constructor
  · rintro ⟨o, ho, i, hi, h⟩
    split at h
    · cases h
    · rename_i hne
      rw [not_or, Bool.not_eq_true] at hne
      exact ⟨o, i, ho, hi, hne.1, hne.2, (Option.some.inj h).symm⟩
  · rintro ⟨o, i, ho, hi, hne, hcommon, rfl⟩
    refine ⟨o, ho, i, hi, ?_⟩
    rw [if_neg (by simp [hne, hcommon])]
    rfl

theorem ports_of {n : NodeFacts} {ins outs : List PortSpec}
    (h : portSpecs n.kind n.params = .ok (ins, outs)) :
    n.ports .input = ins ∧ n.ports .output = outs := by
  simp only [ports, h, and_self]

theorem nodup_names (n : NodeFacts) (direction : Direction) :
    ((n.ports direction).map (·.name)).Nodup := by
  cases h : portSpecs n.kind n.params with
  | error e => simp [ports, h]
  | ok specs =>
    obtain ⟨hins, houts⟩ := ports_of h
    cases direction with
    | input =>
      rw [hins]
      exact (NodeShader.nodup_names h).1
    | output =>
      rw [houts]
      exact (NodeShader.nodup_names h).2

end NodeFacts

namespace Graph

def facts (g : Graph) : List NodeFacts := g.nodes.toList.map (·.facts)

/-- The wire that an edge is; `none` if it has an end that is no port. -/
def wire? (g : Graph) (e : Edge) : Option Wire := do
  let output ← g.port? e.source
  let input ← g.port? e.target
  return ⟨output.owner, output.name, input.owner, input.name, e.type⟩

def wires (g : Graph) : List (Option Wire) := g.edges.toList.map g.wire?

/-- **Graphs that are the same but for their numbers**: they have the same nodes and the same
connections between named ports. -/
structure Renumbered (g g' : Graph) : Prop where
  nodes : g.facts.Perm g'.facts
  wires : g.wires.Perm g'.wires
  /-- Every edge is a wire. -/
  whole : none ∉ g.wires

variable {g g' : Graph} {i j : Nat} {n m : Node} {q r : PortId}

/-! ### Named ports -/

/-- A port of a node, as it is declared. -/
def Bears (g : Graph) (n : Node) (direction : Direction) (q : PortId) (s : PortSpec) : Prop :=
  ∃ p, g.port? q = some p ∧ p.owner = n.id ∧ p.direction = direction ∧ p.spec = s

theorem Declares.bears {direction : Direction} {ports : List PortId} {specs : List PortSpec}
    (h : g.Declares i n direction ports specs) : List.Forall₂ (g.Bears n direction) ports specs := by
  have hzip : List.Forall₂ (fun q (s : PortSpec × Nat) => g.Bears n direction q s.1) ports
      specs.zipIdx := by
    refine h.imp fun q s hs => ?_
    obtain ⟨p, hp, hb⟩ := Option.map_eq_some_iff.1 hs
    exact ⟨p, hp, congrArg Port.owner hb, congrArg Port.direction hb, congrArg Port.spec hb⟩
  rw [← List.zipIdx_map_fst (l := specs) (i := 0), List.forall₂_map_right_iff]
  exact hzip

/-- **The ports of a node are those that its facts declare.** -/
theorem Consistent.bears (hg : g.Consistent) (hn : g.nodes[i]? = some n) (direction : Direction) :
    List.Forall₂ (g.Bears n direction) (n.portsOf direction) (n.facts.ports direction) := by
  obtain ⟨ins, outs, hs, hi, ho⟩ := (hg.node i n hn).ports
  obtain ⟨hins, houts⟩ := NodeFacts.ports_of (n := n.facts) hs
  cases direction with
  | input => exact hins ▸ hi.bears
  | output => exact houts ▸ ho.bears

/-- A name is looked up among the declared ports. -/
theorem findPort_bears {direction : Direction} {ports : List PortId} {specs : List PortSpec}
    {name : String} (h : List.Forall₂ (g.Bears n direction) ports specs)
    (hq : g.findPort ports name = .ok q) :
    (specs.find? (·.name == name) = none ∧ q = noPort) ∨
      ∃ s, specs.find? (·.name == name) = some s ∧ g.Bears n direction q s := by
  induction h with
  | nil =>
    cases hq
    exact .inl ⟨rfl, rfl⟩
  | @cons r s ports specs hr _ ih =>
    obtain ⟨p, hp, -, -, hs⟩ := id hr
    rw [findPort, hp] at hq
    simp only [found, Port.name, hs, bind, Except.bind] at hq
    by_cases hname : s.name = name
    · rw [if_pos hname] at hq
      cases hq
      exact .inr ⟨s, List.find?_cons_of_pos (by simpa using hname), hr⟩
    · rw [if_neg hname] at hq
      rw [List.find?_cons_of_neg (by simpa using hname)]
      exact ih hq

/-- The name of any ports of a node can be looked up. -/
theorem findPort_isOk {direction : Direction} {ports : List PortId} {specs : List PortSpec}
    (h : List.Forall₂ (g.Bears n direction) ports specs) (name : String) :
    ∃ q, g.findPort ports name = .ok q := by
  induction h with
  | nil => exact ⟨noPort, rfl⟩
  | @cons r s ports specs hr _ ih =>
    obtain ⟨p, hp, -⟩ := hr
    rw [findPort, hp]
    simp only [found, bind, Except.bind]
    split
    · exact ⟨r, rfl⟩
    · exact ih

/-- **A port found by its name** is the declared one of that name, or no port if none is declared. -/
theorem Consistent.find_named (hg : g.Consistent) (hn : g.nodes[i]? = some n)
    (direction : Direction) {name : String} (hq : g.findPort (n.portsOf direction) name = .ok q) :
    (n.facts.ports direction).find? (·.name == name) = (g.port? q).map (·.spec) ∧
      ∀ p, g.port? q = some p → p.owner = n.id ∧ p.direction = direction ∧ p.name = name := by
  rcases findPort_bears (hg.bears hn direction) hq with ⟨hnone, rfl⟩ | ⟨s, hs, p, hp, ho, hd, rfl⟩
  · have hport : g.port? noPort = none := rfl
    rw [hnone, hport]
    exact ⟨rfl, fun p hp => by cases hp⟩
  · rw [hs, hp]
    have hname := List.find?_some hs
    refine ⟨rfl, fun p' hp' => ?_⟩
    cases hp'
    exact ⟨ho, hd, beq_iff_eq.1 hname⟩

/-- The name of a port. -/
def portName? (g : Graph) (q : PortId) : Option String := (g.port? q).map (·.name)

theorem map_portName {direction : Direction} {ports : List PortId} {specs : List PortSpec}
    (h : List.Forall₂ (g.Bears n direction) ports specs) :
    ports.map g.portName? = (specs.map (·.name)).map some := by
  rw [List.map_map, ← List.forall₂_eq_eq_eq, List.forall₂_map_left_iff, List.forall₂_map_right_iff]
  refine h.imp fun q s hq => ?_
  obtain ⟨p, hp, -, -, hs⟩ := hq
  rw [portName?, hp, ← hs]
  rfl

/-- Nodes are told by their identities. -/
theorem Consistent.node_ext (hg : g.Consistent) (hn : g.nodes[i]? = some n)
    (hm : g.nodes[j]? = some m) (hid : n.id = m.id) : i = j := by
  have hi := (hg.node i n hn).position
  rw [hid, (hg.node j m hm).position] at hi
  exact (Option.some.inj hi).symm

/-- **A port is told by its node, its direction and its name.** -/
theorem Consistent.port_ext (hg : g.Consistent) {p p' : Port} (hq : g.port? q = some p)
    (hr : g.port? r = some p') (ho : p.owner = p'.owner) (hd : p.direction = p'.direction)
    (hname : p.name = p'.name) : q = r := by
  obtain ⟨i, n, hn, hi, hmem⟩ := hg.owner q p hq
  obtain ⟨j, m, hm, hj, hmem'⟩ := hg.owner r p' hr
  obtain ⟨_, hp, -, -, hpo⟩ := (hg.intactNode hn).own p.direction q hmem
  obtain ⟨_, hp', -, -, hpo'⟩ := (hg.intactNode hm).own p'.direction r hmem'
  rw [hq] at hp
  rw [hr] at hp'
  cases hp
  cases hp'
  obtain rfl : i = j := hg.node_ext hn hm (by rw [← hpo, ← hpo', ho])
  rw [hn] at hm
  cases hm
  have hnodup : ((n.portsOf p.direction).map g.portName?).Nodup := by
    rw [map_portName (hg.bears hn p.direction)]
    exact (n.facts.nodup_names _).map fun _ _ => Option.some.inj
  refine List.inj_on_of_nodup_map hnodup hmem (hd ▸ hmem') ?_
  rw [portName?, portName?, hq, hr, Option.map_some, Option.map_some, hname]

theorem head?_portName {direction : Direction} {ports : List PortId} {specs : List PortSpec}
    (h : List.Forall₂ (g.Bears n direction) ports specs) :
    ports.head?.bind g.portName? = specs.head?.map (·.name) := by
  cases h with
  | nil => rfl
  | cons hq _ =>
    obtain ⟨p, hp, -, -, rfl⟩ := hq
    rw [List.head?_cons, List.head?_cons, Option.bind_some, portName?, hp]
    rfl

/-! ### Adding a node -/

theorem facts_getElem? (g : Graph) (i : Nat) : g.facts[i]? = g.nodes[i]?.map (·.facts) := by
  rw [facts, List.getElem?_map, Array.getElem?_toList]

theorem Built.position_id (h : g.Built) :
    ∀ id k, (id, k) ∈ g.positions → ∃ n, g.nodes[k]? = some n ∧ n.id = id := by
  induction h with
  | empty => exact fun id k hk => absurd hk List.not_mem_nil
  | node _ ha ih =>
    obtain ⟨n, ins, outs, -, -, -, -, r⟩ := addNode_grows ha
    intro id k hk
    rw [r.positions, List.mem_cons] at hk
    rcases hk with hk | hk
    · cases hk
      exact ⟨n, by rw [r.nodes]; simp, rfl⟩
    · obtain ⟨m, hm, hid⟩ := ih id k hk
      exact ⟨m, r.nodes_old hm, hid⟩
  | edge _ hc ih =>
    intro id k hk
    have j := connect_joins hc
    rw [j.positions] at hk
    rw [j.nodes]
    exact ih id k hk

/-- An identity is found if a node has it. -/
theorem Built.nodeOf?_eq_none (h : g.Built) {id : NodeId} :
    g.nodeOf? id = none ↔ id ∉ g.facts.map (·.id) := by
  have hmem : id ∈ g.facts.map (·.id) ↔ ∃ (i : Nat) (n : Node), g.nodes[i]? = some n ∧ n.id = id := by
    rw [facts, List.map_map, List.mem_map]
    constructor
    · rintro ⟨n, hn, rfl⟩
      obtain ⟨i, hi⟩ := List.getElem?_of_mem hn
      rw [Array.getElem?_toList] at hi
      exact ⟨i, n, hi, rfl⟩
    · rintro ⟨i, n, hn, rfl⟩
      exact ⟨n, Array.mem_toList_iff.2 (Array.mem_of_getElem? hn), rfl⟩
  rw [hmem, ← not_iff_not, not_not]
  constructor
  · intro hsome
    obtain ⟨n, hn⟩ := Option.ne_none_iff_exists'.1 hsome
    rw [nodeOf?, Option.bind_eq_some_iff] at hn
    obtain ⟨k, hk, hn⟩ := hn
    obtain ⟨n', hn', hid⟩ := h.position_id id k (lookup_mem hk)
    exact ⟨k, n', hn', hid⟩
  · rintro ⟨i, n, hn, rfl⟩ hnone
    rw [nodeOf?, (h.consistent.node i n hn).position, Option.bind_some, hn] at hnone
    cases hnone

theorem Grows.facts {ins outs : List PortSpec} (r : g.Grows n ins outs g') :
    g'.facts = g.facts ++ [n.facts] := by
  rw [Graph.facts, r.nodes, Array.toList_push, List.map_append]
  rfl

/-- An edge is the same wire where its ports are the same but for their edges. -/
theorem wire?_mono {e : Edge} {p p' : Port} (hs : g.port? e.source = some p)
    (ht : g.port? e.target = some p')
    (hport : ∀ q p, g.port? q = some p → (g'.port? q).map Port.bare = some p.bare) :
    g'.wire? e = g.wire? e := by
  obtain ⟨o, ho, hbo⟩ := Option.map_eq_some_iff.1 (hport _ _ hs)
  obtain ⟨t, ht', hbt⟩ := Option.map_eq_some_iff.1 (hport _ _ ht)
  have h₁ : o.owner = p.owner := by injection hbo
  have h₂ : o.spec = p.spec := by injection hbo
  have h₃ : t.owner = p'.owner := by injection hbt
  have h₄ : t.spec = p'.spec := by injection hbt
  rw [wire?, wire?, hs, ht, ho, ht']
  simp only [Option.bind_eq_bind, Option.bind_some, Port.name, h₁, h₂, h₃, h₄]

theorem Consistent.wires_mono (hg : g.Consistent)
    (hport : ∀ q p, g.port? q = some p → (g'.port? q).map Port.bare = some p.bare) :
    g.edges.toList.map g'.wire? = g.wires := by
  refine List.map_congr_left fun e he => ?_
  obtain ⟨⟨p, hs, -⟩, p', ht, -⟩ := hg.ends e he
  exact wire?_mono hs ht hport

theorem Grows.wires {ins outs : List PortSpec} (r : g.Grows n ins outs g') (hg : g.Consistent) :
    g'.wires = g.wires := by
  rw [Graph.wires, r.edges]
  exact hg.wires_mono fun q p hp => by rw [r.port?_old hp]; rfl

/-- **When a node can be added**: its kind is one of the palette, no other node has its identity, and
the kind admits its parameters. -/
theorem Built.addNode_isOk (h : g.Built) {f : NodeFacts} :
    (∃ g', g.addNode f.id f.name f.kind f.params = .ok g') ↔
      f.kind.isValid = true ∧ f.id ∉ g.facts.map (·.id) ∧
        ∃ specs, portSpecs f.kind f.params = .ok specs := by
  rw [← h.nodeOf?_eq_none]
  constructor
  · rintro ⟨g', hg'⟩
    obtain ⟨n, ins, outs, hid, -, hkind, hparams, r⟩ := addNode_grows hg'
    rw [← hid, ← hkind, ← hparams]
    exact ⟨r.valid, r.unused, (ins, outs), r.specs⟩
  · rintro ⟨hvalid, hunused, ⟨ins, outs⟩, hspecs⟩
    rw [addNode, if_neg (by simp [hvalid]), hunused, hspecs]
    exact ⟨_, rfl⟩

/-! ### Adding an edge -/

/-- Ports that can be connected. -/
structure Joinable (g : Graph) (source target : PortId) (output input : Port) : Prop where
  source : g.port? source = some output
  target : g.port? target = some input
  outward : output.direction = .output
  inward : input.direction = .input
  others : output.owner ≠ input.owner
  vacant : input.edges = []
  common : (output.type.inter input.type).isEmpty = false

theorem connect_of_joinable {source target : PortId} {output input : Port}
    (h : g.Joinable source target output input) : ∃ g', g.connect source target = .ok g' := by
  have hconn : input.isConnected = false := by rw [Port.isConnected, h.vacant]; rfl
  rw [connect, h.source, h.target]
  dsimp only
  rw [if_neg (by simp [h.outward, h.inward]), if_neg h.others, if_neg (by simp [hconn]),
    if_neg (by simp [h.common])]
  exact ⟨_, rfl⟩

/-- An input is vacant if no wire leads to it. -/
theorem Consistent.vacant_iff (hg : g.Consistent) {p : Port} (hr : g.port? r = some p)
    (hd : p.direction = .input) :
    p.edges = [] ↔ ∀ v, some v ∈ g.wires → v.sink ≠ (p.owner, p.name) := by
  have hlisted := hg.listed r p hr
  rw [hd] at hlisted
  rw [hlisted, List.map_eq_nil_iff, List.filter_eq_nil_iff]
  constructor
  · intro hnone v hv hsink
    obtain ⟨e, he, hev⟩ := List.mem_map.1 hv
    obtain ⟨⟨o, ho, -⟩, p', hp', hd'⟩ := hg.ends e he
    rw [wire?, ho, hp'] at hev
    cases hev
    rw [Wire.sink, Prod.mk.injEq] at hsink
    have ht : e.target = r := hg.port_ext hp' hr hsink.1 (hd'.trans hd.symm) hsink.2
    exact hnone e he (by rw [Edge.touches, ht]; exact beq_self_eq_true r)
  · intro hfree e he ht
    obtain ⟨⟨o, ho, -⟩, p', hp', -⟩ := hg.ends e he
    have htr : e.target = r := beq_iff_eq.1 ht
    have hv : g.wire? e = some ⟨o.owner, o.name, p.owner, p.name, e.type⟩ := by
      rw [wire?, ho, htr, hr]
      rfl
    exact hfree _ (List.mem_map.2 ⟨e, he, hv⟩) rfl

variable {output input : String}

/-- **What connecting does**: it adds the wire between the two ports, to an input where no wire leads
yet. -/
theorem Consistent.connect_wires (hg : g.Consistent) (hn : g.nodes[i]? = some n)
    (hm : g.nodes[j]? = some m) (hq : g.outputNamed n output = .ok q)
    (hr : g.inputNamed m input = .ok r) (h : g.connect q r = .ok g') :
    ∃ w, n.facts.wire? output m.facts input = some w ∧
      (∀ v, some v ∈ g.wires → v.sink ≠ w.sink) ∧ g'.facts = g.facts ∧
      g'.wires = g.wires ++ [some w] := by
  have hjoins := connect_joins h
  obtain ⟨o, t, ho, ht, -, hdt, hne, hvacant, hcommon, rfl⟩ := connect_eq_ok h
  obtain ⟨hospec, hoport⟩ := hg.find_named hn .output hq
  obtain ⟨htspec, htport⟩ := hg.find_named hm .input hr
  obtain ⟨howner, -, honame⟩ := hoport o ho
  obtain ⟨htowner, -, htname⟩ := htport t ht
  rw [ho] at hospec
  rw [ht] at htspec
  refine ⟨⟨n.id, output, m.id, input, o.type.inter t.type⟩, ?_, ?_, rfl, ?_⟩
  · refine NodeFacts.wire?_eq_some.2 ⟨_, _, hospec, htspec, fun hid => hne ?_, hcommon, rfl⟩
    exact howner.trans (Eq.trans hid htowner.symm)
  · intro v hv
    rw [Wire.sink, Wire.sink, ← htowner, ← htname]
    exact (hg.vacant_iff ht hdt).1 hvacant v hv
  · rw [Graph.wires, Array.toList_push, List.map_append, hg.wires_mono fun q p => hjoins.bare,
      List.map_singleton, wire?_mono ho ht fun q p => hjoins.bare, wire?, ho, ht]
    rw [← howner, ← htowner, ← honame, ← htname]
    rfl

/-- **When ports can be connected**: a wire between them is allowed and none leads to the input. -/
theorem Consistent.connect_isOk (hg : g.Consistent) (hn : g.nodes[i]? = some n)
    (hm : g.nodes[j]? = some m) (hq : g.outputNamed n output = .ok q)
    (hr : g.inputNamed m input = .ok r) {w : Wire} (hw : n.facts.wire? output m.facts input = some w)
    (hfree : ∀ v, some v ∈ g.wires → v.sink ≠ w.sink) : ∃ g', g.connect q r = .ok g' := by
  obtain ⟨s, u, hs, hu, hid, hcommon, rfl⟩ := NodeFacts.wire?_eq_some.1 hw
  obtain ⟨hospec, hoport⟩ := hg.find_named hn .output hq
  obtain ⟨htspec, htport⟩ := hg.find_named hm .input hr
  obtain ⟨o, ho, rfl⟩ := Option.map_eq_some_iff.1 (hospec.symm.trans hs)
  obtain ⟨t, ht, rfl⟩ := Option.map_eq_some_iff.1 (htspec.symm.trans hu)
  obtain ⟨howner, hdo, -⟩ := hoport o ho
  obtain ⟨htowner, hdt, htname⟩ := htport t ht
  refine connect_of_joinable ⟨ho, ht, hdo, hdt, fun he => hid ?_, ?_, hcommon⟩
  · exact howner.symm.trans (he.trans htowner)
  · refine (hg.vacant_iff ht hdt).2 ?_
    rw [htowner, htname]
    exact hfree

end Graph

end NodeShader
