import Mathlib.Data.List.Nodup
import NodeShader.Graph.Edit
import NodeShader.Proofs.Graph.Built
import NodeShader.Proofs.Lists
import NodeShader.Proofs.Outcome

/-!
# What validation establishes

Validation accepts exactly the sound graphs (`validate_eq_ok_iff`): nodes stand where they say and own
the ports they list, ports list edges that are there, an input at most one, and edges go from an output
to an input of another node.

It follows edges from the ports that list them and ports from the edges that name them, but never
asks whether an edge is listed at all.  So a sound graph need not be mutual (`Graph.Mutual`): it is
exactly if what validation leaves out holds too (`Sound.mutual_iff`), and a second edge into an input
goes unnoticed if the input does not list it (`validate_unlisted`).
-/

namespace NodeShader

namespace Graph

/-- A node that passes: it stands where it says, is found by its identity and owns its ports. -/
structure SoundNode (g : Graph) (i : Nat) (n : Node) : Prop where
  index : n.index = i
  valid : n.kind.isValid = true
  found : g.position? n.id = some i
  own : ∀ q ∈ n.inputs ++ n.outputs, ∃ p, g.port? q = some p ∧ p.ownerIndex = i ∧ p.owner = n.id

/-- A port that passes: it has an owner and lists edges that name it, an input at most one. -/
structure SoundPort (g : Graph) (p : Port) : Prop where
  owner : (Array.at? g.nodes p.ownerIndex).isSome = true
  single : p.direction = .input → p.edges.length ≤ 1
  edges : ∀ x ∈ p.edges, ∃ e, g.edge? x = some e ∧ (e.source = p.id ∨ e.target = p.id)

/-- An edge that passes: it goes from an output to an input of another node. -/
def SoundEdge (g : Graph) (e : Edge) : Prop :=
  ∃ output input, g.port? e.source = some output ∧ g.port? e.target = some input ∧
    output.direction = .output ∧ input.direction = .input ∧ output.ownerIndex ≠ input.ownerIndex

/-- **The graphs that pass validation.** -/
structure Sound (g : Graph) : Prop where
  node : ∀ (i : Nat) (n : Node), g.nodes[i]? = some n → g.SoundNode i n
  port : ∀ p ∈ g.ports.toList, g.SoundPort p
  edge : ∀ e ∈ g.edges.toList, g.SoundEdge e

/-- **Ports and edges that refer to each other consistently**, and nodes that list their own ports. -/
structure Mutual (g : Graph) : Prop where
  /-- Both ends of an edge list it. -/
  listed : ∀ (k : Nat) (e : Edge), g.edges[k]? = some e → ∃ output input,
    g.port? e.source = some output ∧ g.port? e.target = some input ∧
      (k : EdgeId) ∈ output.edges ∧ (k : EdgeId) ∈ input.edges
  /-- A port lists only edges that start or end at it. -/
  attached : ∀ q p, g.port? q = some p → ∀ x ∈ p.edges, ∃ e, g.edge? x = some e ∧
    (e.source = q ∨ e.target = q)
  once : ∀ q p, g.port? q = some p → p.edges.Nodup
  /-- No two edges end at one port. -/
  single : ∀ (k k' : Nat) (e e' : Edge), g.edges[k]? = some e → g.edges[k']? = some e' →
    e.target = e'.target → k = k'
  /-- An output feeds exactly the inputs whose producer it is. -/
  inverse : ∀ q out, g.producer q = .ok (some out) ↔
    ∃ inputs, g.consumers out = .ok (some inputs) ∧ q ∈ inputs
  /-- A node lists ports of its own, each in its direction. -/
  own : ∀ (i : Nat) (n : Node), g.nodes[i]? = some n → ∀ direction, ∀ q ∈ n.portsOf direction,
    ∃ p, g.port? q = some p ∧ p.direction = direction ∧ p.ownerIndex = i ∧ p.owner = n.id

/-- **What validation leaves out.** -/
structure Unasked (g : Graph) : Prop where
  listed : ∀ (k : Nat) (e : Edge), g.edges[k]? = some e → ∀ q p, g.port? q = some p →
    q = e.source ∨ q = e.target → (k : EdgeId) ∈ p.edges
  /-- An edge is compared with the identifier of the port, not with where the port stands. -/
  here : ∀ q p, g.port? q = some p → ∀ x ∈ p.edges, ∀ e, g.edge? x = some e →
    e.source = q ∨ e.target = q
  once : ∀ q p, g.port? q = some p → p.direction = .output → p.edges.Nodup
  direction : ∀ (i : Nat) (n : Node), g.nodes[i]? = some n → ∀ direction,
    ∀ q ∈ n.portsOf direction, ∀ p, g.port? q = some p → p.direction = direction

variable {g : Graph}

/-! ### What passes -/

theorem require_eq_ok {condition : Bool} {e : StructureError} :
    require condition e = .ok () ↔ condition = true := by
  cases condition with
  | true => exact ⟨fun _ => rfl, fun _ => rfl⟩
  | false => exact ⟨fun h => (by cases h), fun h => (by cases h)⟩

theorem require_bind_eq_ok {condition : Bool} {e : StructureError}
    {rest : Except StructureError Unit} :
    (require condition e >>= fun _ => rest) = .ok () ↔ condition = true ∧ rest = .ok () := by
  rw [bind_eq_ok]
  exact ⟨fun ⟨_, h, hr⟩ => ⟨require_eq_ok.1 h, hr⟩, fun ⟨h, hr⟩ => ⟨(), require_eq_ok.2 h, hr⟩⟩

theorem validateNode_eq_ok {i : Nat} {n : Node} :
    g.validateNode i n = .ok () ↔ g.SoundNode i n := by
  rw [validateNode, require_bind_eq_ok, require_bind_eq_ok, require_bind_eq_ok, forM_eq_ok]
  simp only [require_eq_ok, beq_iff_eq, Option.any_eq_true, Bool.and_eq_true]
  exact ⟨fun ⟨hi, hv, hf, ho⟩ => ⟨hi, hv, hf, ho⟩, fun ⟨hi, hv, hf, ho⟩ => ⟨hi, hv, hf, ho⟩⟩

theorem validatePort_eq_ok {p : Port} : g.validatePort p = .ok () ↔ g.SoundPort p := by
  rw [validatePort]
  cases ho : Array.at? g.nodes p.ownerIndex with
  | none =>
    refine ⟨fun h => (by cases h), fun h => ?_⟩
    have := h.owner
    rw [ho] at this
    cases this
  | some owner =>
    dsimp only
    rw [require_bind_eq_ok, forM_eq_ok]
    refine (and_congr ?_ (forall₂_congr fun x _ => ?_)).trans
      ⟨fun ⟨hs, he⟩ => ⟨by rw [ho]; rfl, hs, he⟩, fun h => ⟨h.single, h.edges⟩⟩
    · simp only [Bool.or_eq_true, bne_iff_ne, decide_eq_true_eq, ne_eq, ← imp_iff_not_or]
    · cases g.edge? x with
      | none => exact ⟨fun h => (by cases h), fun ⟨e, h, _⟩ => (by cases h)⟩
      | some e => simp [require_eq_ok]

theorem validateEdge_eq_ok (hports : ∀ p ∈ g.ports.toList, g.SoundPort p) {e : Edge} :
    g.validateEdge e = .ok () ↔ g.SoundEdge e := by
  rw [validateEdge, SoundEdge]
  cases hs : g.port? e.source with
  | none => simp
  | some output =>
    cases ht : g.port? e.target with
    | none => simp
    | some input =>
      obtain ⟨k, -, hk⟩ := at?_eq_some hs
      -- the ports passed before, so the owner is there
      obtain ⟨n, hn⟩ := Option.isSome_iff_exists.1
        (hports output (Array.mem_toList_iff.2 (Array.mem_of_getElem? hk))).owner
      dsimp only
      rw [hn, require_bind_eq_ok]
      simp only [require_eq_ok, Bool.and_eq_true, beq_iff_eq, bne_iff_ne, and_assoc]
      constructor
      · exact fun h => ⟨output, input, rfl, rfl, h⟩
      · rintro ⟨_, _, ho, hi, h⟩
        cases ho
        cases hi
        exact h

/-- **Validation accepts exactly the sound graphs.** -/
theorem validate_eq_ok_iff : g.validate = .ok () ↔ g.Sound := by
  have hnodes : (g.nodes.toList.zipIdx).forM (fun p => g.validateNode p.2 p.1) = .ok () ↔
      ∀ (i : Nat) (n : Node), g.nodes[i]? = some n → g.SoundNode i n := by
    rw [forM_eq_ok]
    simp only [Prod.forall, List.mk_mem_zipIdx_iff_getElem?, Array.getElem?_toList,
      validateNode_eq_ok]
    exact forall_comm
  have hports : g.ports.toList.forM g.validatePort = .ok () ↔
      ∀ p ∈ g.ports.toList, g.SoundPort p := by
    rw [forM_eq_ok]
    simp only [validatePort_eq_ok]
  have hedges : (∀ p ∈ g.ports.toList, g.SoundPort p) →
      (g.edges.toList.forM g.validateEdge = .ok () ↔ ∀ e ∈ g.edges.toList, g.SoundEdge e) := by
    intro h
    rw [forM_eq_ok]
    simp only [validateEdge_eq_ok h]
  rw [validate, bind_eq_ok]
  constructor
  · rintro ⟨_, hn, h⟩
    obtain ⟨_, hp, he⟩ := bind_eq_ok.1 h
    exact ⟨hnodes.1 hn, hports.1 hp, (hedges (hports.1 hp)).1 he⟩
  · intro h
    exact ⟨(), hnodes.2 h.node, bind_eq_ok.2 ⟨(), hports.2 h.port, (hedges h.port).2 h.edge⟩⟩

/-! ### What follows -/

/-- The producer of a port is the source of the first edge it lists. -/
theorem producer_eq_some {q out : PortId} : g.producer q = .ok (some out) ↔
    ∃ p x rest e, g.port? q = some p ∧ p.direction = .input ∧ p.edges = x :: rest ∧
      g.edge? x = some e ∧ e.source = out := by
  rw [producer]
  constructor
  · intro h
    cases hp : g.port? q with
    | none => rw [hp] at h; cases h
    | some p =>
      rw [hp] at h
      dsimp only at h
      by_cases hd : p.direction = .input
      · rw [if_neg (not_not.2 hd)] at h
        match hl : p.edges with
        | [] => rw [hl] at h; cases h
        | x :: rest =>
          rw [hl] at h
          obtain ⟨e, he, hs⟩ := map_eq_ok.1 h
          refine ⟨p, x, rest, e, rfl, hd, hl, ?_, Option.some.inj hs⟩
          cases hx : g.edge? x with
          | none => rw [hx] at he; cases he
          | some e' => rw [hx] at he; cases he; rfl
      · rw [if_pos hd] at h
        cases h
  · rintro ⟨p, x, rest, e, hp, hd, hl, he, rfl⟩
    rw [hp]
    dsimp only
    rw [if_neg (not_not.2 hd), hl]
    dsimp only
    rw [he]
    rfl

theorem target_eq_ok {x : EdgeId} {q : PortId} :
    (found (g.edge? x)).map (·.target) = .ok q ↔ ∃ e, g.edge? x = some e ∧ e.target = q := by
  rw [map_eq_ok]
  refine exists_congr fun e => and_congr_left' ?_
  cases g.edge? x with
  | none => exact ⟨fun h => (by cases h), fun h => (by cases h)⟩
  | some e' => exact ⟨fun h => (by cases h; rfl), fun h => (by cases h; rfl)⟩

/-- The consumers of a port are the targets of the edges it lists. -/
theorem consumers_eq_some {out : PortId} {inputs : List PortId} :
    g.consumers out = .ok (some inputs) ↔ ∃ p, g.port? out = some p ∧ p.direction = .output ∧
      List.Forall₂ (fun x q => ∃ e, g.edge? x = some e ∧ e.target = q) p.edges inputs := by
  rw [consumers]
  cases hp : g.port? out with
  | none => exact ⟨fun h => (by cases h), fun ⟨p, h, _⟩ => (by cases h)⟩
  | some p =>
    dsimp only
    by_cases hd : p.direction = .output
    · rw [if_neg (not_not.2 hd), map_eq_ok]
      simp only [Option.some.injEq, exists_eq_right, mapM_eq_ok, target_eq_ok]
      exact ⟨fun h => ⟨p, rfl, hd, h⟩, fun ⟨p', hp', _, h⟩ => by cases hp'; exact h⟩
    · rw [if_pos hd]
      refine ⟨fun h => (by cases h), fun ⟨p', hp', hd', _⟩ => ?_⟩
      cases hp'
      exact absurd hd' hd

/-- A sound input lists no edge or one. -/
theorem SoundPort.edges_cases {p : Port} (h : g.SoundPort p) (hd : p.direction = .input) :
    p.edges = [] ∨ ∃ x, p.edges = [x] := by
  rcases hl : p.edges with _ | ⟨x, _ | ⟨y, rest⟩⟩
  · exact .inl rfl
  · exact .inr ⟨x, rfl⟩
  · have hone := h.single hd
    rw [hl] at hone
    simp at hone

/-- A mutual graph has all that validation leaves out. -/
theorem Mutual.unasked (h : g.Mutual) : g.Unasked where
  listed := by
    intro k e he q p hp hq
    obtain ⟨output, input, ho, hi, hko, hki⟩ := h.listed k e he
    rcases hq with rfl | rfl
    · rw [ho] at hp
      cases hp
      exact hko
    · rw [hi] at hp
      cases hp
      exact hki
  here := by
    intro q p hp x hx e he
    obtain ⟨e', he', hend⟩ := h.attached q p hp x hx
    rw [he] at he'
    cases he'
    exact hend
  once q p hp _ := h.once q p hp
  direction := by
    intro i n hn direction q hq p hp
    obtain ⟨p', hp', hd, -⟩ := h.own i n hn direction q hq
    rw [hp] at hp'
    cases hp'
    exact hd

namespace Sound

theorem port? (h : g.Sound) {q : PortId} {p : Port} (hp : g.port? q = some p) : g.SoundPort p := by
  obtain ⟨k, -, hk⟩ := at?_eq_some hp
  exact h.port p (Array.mem_toList_iff.2 (Array.mem_of_getElem? hk))

theorem edge? (h : g.Sound) {x : EdgeId} {e : Edge} (he : g.edge? x = some e) : g.SoundEdge e := by
  obtain ⟨k, -, hk⟩ := at?_eq_some he
  exact h.edge e (Array.mem_toList_iff.2 (Array.mem_of_getElem? hk))

/-- The end of an edge that an input port lists is its target. -/
theorem target_of_input (h : g.Sound) (hu : g.Unasked) {q : PortId} {p : Port}
    (hp : g.port? q = some p) (hd : p.direction = .input) {x : EdgeId} (hx : x ∈ p.edges) {e : Edge}
    (he : g.edge? x = some e) : e.target = q := by
  refine (hu.here q p hp x hx e he).resolve_left fun hq => ?_
  obtain ⟨output, input, ho, -, hdo, -⟩ := h.edge? he
  rw [hq, hp] at ho
  cases ho
  rw [hd] at hdo
  cases hdo

/-- The end of an edge that an output port lists is its source. -/
theorem source_of_output (h : g.Sound) (hu : g.Unasked) {q : PortId} {p : Port}
    (hp : g.port? q = some p) (hd : p.direction = .output) {x : EdgeId} (hx : x ∈ p.edges) {e : Edge}
    (he : g.edge? x = some e) : e.source = q := by
  refine (hu.here q p hp x hx e he).resolve_right fun hq => ?_
  obtain ⟨output, input, -, hi, -, hdi, -⟩ := h.edge? he
  rw [hq, hp] at hi
  cases hi
  rw [hd] at hdi
  cases hdi

/-- An input port lists nothing but the one edge that ends at it. -/
theorem edges_of_target (h : g.Sound) (hu : g.Unasked) {k : Nat} {e : Edge}
    (he : g.edges[k]? = some e) : ∃ p, g.port? e.target = some p ∧ p.direction = .input ∧
      p.edges = [(k : EdgeId)] := by
  obtain ⟨output, input, -, hi, -, hdi, -⟩ := h.edge? (x := k) he
  have hmem := hu.listed k e he e.target input hi (.inr rfl)
  refine ⟨input, hi, hdi, ?_⟩
  rcases (h.port? hi).edges_cases hdi with hl | ⟨x, hl⟩
  · rw [hl] at hmem
    cases hmem
  · rw [hl, List.mem_singleton] at hmem
    rw [hl, hmem]

/-- Producers and consumers are inverse. -/
theorem producer_iff_consumers (h : g.Sound) (hu : g.Unasked) {q out : PortId} :
    g.producer q = .ok (some out) ↔ ∃ inputs, g.consumers out = .ok (some inputs) ∧ q ∈ inputs := by
  simp only [producer_eq_some, consumers_eq_some]
  constructor
  · rintro ⟨p, x, rest, e, hp, hd, hl, he, rfl⟩
    have hx : x ∈ p.edges := by
      rw [hl]
      exact List.mem_cons_self
    obtain ⟨output, -, ho, -, hdo, -⟩ := h.edge? he
    obtain ⟨k, rfl, hk⟩ := at?_eq_some he
    obtain ⟨inputs, hinputs⟩ := mapM_isOk (l := output.edges) fun y hy => by
      obtain ⟨e', he', -⟩ := (h.port? ho).edges y hy
      exact ⟨e'.target, target_eq_ok.2 ⟨e', he', rfl⟩⟩
    simp only [mapM_eq_ok, target_eq_ok] at hinputs
    refine ⟨inputs, ⟨output, ho, hdo, hinputs⟩, ?_⟩
    obtain ⟨t, ht, e', he', het⟩ := exists_of_mem_left hinputs
      (hu.listed k e hk e.source output ho (.inl rfl))
    rw [he] at he'
    cases he'
    rw [← h.target_of_input hu hp hd hx he, het]
    exact ht
  · rintro ⟨inputs, ⟨po, hpo, hdo, hinputs⟩, hq⟩
    obtain ⟨x, hx, e, he, rfl⟩ := exists_of_mem_right hinputs hq
    obtain ⟨k, rfl, hk⟩ := at?_eq_some he
    obtain ⟨p, hp, hd, hl⟩ := h.edges_of_target hu hk
    exact ⟨p, k, [], e, hp, hd, hl, he, h.source_of_output hu hpo hdo hx he⟩

/-- A sound graph with all that validation leaves out is mutual. -/
theorem mutual_of_unasked (h : g.Sound) (hu : g.Unasked) : g.Mutual where
  listed := by
    intro k e he
    obtain ⟨output, input, ho, hi, -⟩ := h.edge? (x := k) he
    exact ⟨output, input, ho, hi, hu.listed k e he _ _ ho (.inl rfl),
      hu.listed k e he _ _ hi (.inr rfl)⟩
  attached := by
    intro q p hp x hx
    obtain ⟨e, he, -⟩ := (h.port? hp).edges x hx
    exact ⟨e, he, hu.here q p hp x hx e he⟩
  once := by
    intro q p hp
    cases hd : p.direction with
    | output => exact hu.once q p hp hd
    | input =>
      rcases (h.port? hp).edges_cases hd with hl | ⟨x, hl⟩
      · rw [hl]
        exact List.nodup_nil
      · rw [hl]
        exact List.nodup_singleton x
  single := by
    intro k k' e e' he he' ht
    obtain ⟨p, hp, -, hl⟩ := h.edges_of_target hu he
    obtain ⟨p', hp', -, hl'⟩ := h.edges_of_target hu he'
    rw [ht, hp'] at hp
    cases hp
    rw [hl', List.singleton_inj] at hl
    exact Int.natCast_inj.1 hl.symm
  inverse _ _ := h.producer_iff_consumers hu
  own := by
    intro i n hn direction q hq
    have hmem : q ∈ n.inputs ++ n.outputs := by
      cases direction with
      | input => exact List.mem_append_left _ hq
      | output => exact List.mem_append_right _ hq
    obtain ⟨p, hp, hi, ho⟩ := (h.node i n hn).own q hmem
    exact ⟨p, hp, hu.direction i n hn direction q hq p hp, hi, ho⟩

/-- **When a sound graph is mutual**: exactly if what validation leaves out holds as well. -/
theorem mutual_iff (h : g.Sound) : g.Mutual ↔ g.Unasked := ⟨Mutual.unasked, h.mutual_of_unasked⟩

/-- **Sound graphs have no dangling references.** -/
theorem closed (h : g.Sound) : g.closed = true := by
  rw [Graph.closed, Bool.and_eq_true, Bool.and_eq_true, ← Array.all_toList, ← Array.all_toList,
    ← Array.all_toList, List.all_eq_true, List.all_eq_true, List.all_eq_true]
  refine ⟨⟨fun n hn => ?_, fun p hp => ?_⟩, fun e he => ?_⟩
  · obtain ⟨i, hi⟩ := List.getElem?_of_mem hn
    rw [Array.getElem?_toList] at hi
    refine List.all_eq_true.2 fun q hq => ?_
    obtain ⟨p, hp, -⟩ := (h.node i n hi).own q hq
    rw [hp]
    rfl
  · obtain ⟨n, hn⟩ := Option.isSome_iff_exists.1 (h.port p hp).owner
    obtain ⟨i, hi, hget⟩ := at?_eq_some hn
    have hlt := (Array.getElem?_eq_some_iff.1 hget).1
    have hedges : p.edges.all (fun x => (g.edge? x).isSome) = true := by
      refine List.all_eq_true.2 fun x hx => ?_
      obtain ⟨e, he, -⟩ := (h.port p hp).edges x hx
      rw [he]
      rfl
    rw [hi, hedges]
    simpa using hlt
  · obtain ⟨output, input, ho, hi, -⟩ := h.edge e he
    rw [ho, hi]
    rfl

end Sound

/-- **What validation establishes.**  It accepts exactly the sound graphs, in which no reference
dangles; and the ports and edges of a sound graph refer to each other consistently exactly if the
things hold that validation does not ask for. -/
theorem validate_establishes : (g.validate = .ok () ↔ g.Sound) ∧ (g.Sound → g.closed = true) ∧
    (g.Sound → (g.Mutual ↔ g.Unasked)) :=
  ⟨validate_eq_ok_iff, Sound.closed, Sound.mutual_iff⟩

/-- A second edge from the constant to its negation, which neither port lists, passes validation. -/
theorem validate_unlisted :
    ∃ g, (Graph.grown [.node (Uuid.ofBytes [1]) "" .constant (.constant [1] .invalid),
        .node (Uuid.ofBytes [2]) "" .negate .none, .edge 0 1]).edit .edgeAdd 0 1 = some g ∧
      g.validate = .ok () ∧ ¬ g.Mutual := by
  refine ⟨_, rfl, toOption_eq_some.1 (by decide +kernel), fun h => ?_⟩
  have := h.single 0 1 _ _ rfl rfl rfl
  cases this

end Graph

end NodeShader
