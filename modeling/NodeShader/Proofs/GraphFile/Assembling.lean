import NodeShader.Proofs.GraphFile.Plans

/-!
# Assembling a graph from blocks

The nodes are made one after another and then the connections, and a step that fails leaves a problem
behind.  Each step either does what its block or connection asks for, or that is no part of any plan
(`Assembly.addBlock_cases`, `Assembly.connect_cases`).  By induction a whole run carries out a plan,
or there is none (`foldl_cases`), so building succeeds on exactly the blocks that have a plan
(`build_cases`).
-/

namespace NodeShader

namespace Build

variable {b : Builder}

/-- A change through an open builder. -/
theorem run_changed {α : Type} (hopen : b.isSealed = false) (f : Graph → Except BuildError Graph)
    (a : α) :
    (do change f; return a : Build α).run.run b =
      match f b.graph with
      | .ok g => (.ok a, { b with graph := g })
      | .error e => (.error e, b) := by
  rw [run_bind, run_change, hopen, if_neg (by simp)]
  cases f b.graph <;> rfl

theorem run_nodeWithId (hopen : b.isSealed = false) (id : NodeId) (name : String) (kind : NodeKind)
    (params : Params) :
    (nodeWithId id name kind params).run.run b =
      match b.graph.addNode id name kind params with
      | .ok g => (.ok b.graph.nodes.size, { b with graph := g })
      | .error e => (.error e, b) := by
  rw [nodeWithId, run_bind, run_get]
  exact run_changed hopen (fun g => g.addNode id name kind params) b.graph.nodes.size

theorem run_connect (hopen : b.isSealed = false) (source target : PortId) :
    (connect source target).run.run b =
      match b.graph.connect source target with
      | .ok g => (.ok (b.graph.edges.size : EdgeId), { b with graph := g })
      | .error e => (.error e, b) := by
  rw [connect, run_bind, run_get]
  exact run_changed hopen (fun g => g.connect source target) (b.graph.edges.size : EdgeId)

/-- Connecting named ports through an open builder.  A name that no port has is looked up as the
reference to no port, which cannot be connected. -/
theorem run_connectNodes (hopen : b.isSealed = false) {i j : Nat} {n m : Node} {q r : PortId}
    {output input : String} (hn : b.graph.nodes[i]? = some n) (hm : b.graph.nodes[j]? = some m)
    (hq : b.graph.outputNamed n output = .ok q) (hr : b.graph.inputNamed m input = .ok r) :
    (∃ id g, b.graph.connect q r = .ok g ∧
        (connectNodes i output j input).run.run b = (.ok id, { b with graph := g })) ∨
      (∀ g, b.graph.connect q r ≠ .ok g) ∧
        ∃ e, (connectNodes i output j input).run.run b = (.error e, b) := by
  have hrefused : ∀ g, b.graph.connect q r = .ok g → q ≠ noPort ∧ r ≠ noPort := by
    intro g hg
    obtain ⟨o, t, ho, ht, -⟩ := Graph.connect_eq_ok hg
    constructor
    · rintro rfl
      cases ho
    · rintro rfl
      cases ht
  have hrun : (connectNodes i output j input).run.run b =
      (do if q = noPort then throw (.noOutput n output)
          if r = noPort then throw (.noInput m input)
          connect q r : Build EdgeId).run.run b := by
    rw [connectNodes, run_bind, nodeAt, run_read, hn]
    dsimp only [found, Except.mapError]
    rw [run_bind, nodeAt, run_read, hm]
    dsimp only [found, Except.mapError]
    rw [run_bind, run_read, hq]
    dsimp only [Except.mapError]
    rw [run_bind, run_read, hr]
    rfl
  rw [hrun]
  by_cases hnq : q = noPort
  · rw [if_pos hnq]
    exact .inr ⟨fun g hg => (hrefused g hg).1 hnq, _, rfl⟩
  rw [if_neg hnq]
  by_cases hnr : r = noPort
  · rw [if_pos hnr]
    exact .inr ⟨fun g hg => (hrefused g hg).2 hnr, _, rfl⟩
  rw [if_neg hnr]
  show (∃ id g, _ ∧ (connect q r).run.run b = _) ∨ _ ∧ ∃ e, (connect q r).run.run b = _
  rw [run_connect hopen]
  cases b.graph.connect q r with
  | ok g => exact .inl ⟨_, g, rfl, rfl⟩
  | error e => exact .inr ⟨fun g hg => (by cases hg), e, rfl⟩

end Build

/-! ### Runs of steps that succeed or leave a mark -/

section Runs

variable {σ α β : Type} (step : σ → α → σ) (f : α → Option β) (Ok : List β → Prop)
  (Good : σ → List β → Prop) (Bad : σ → Prop) {as : List α}

/-- **A run does what its steps ask for, or that cannot be done.**  Each step either adds what it asks
for to what was done before, or is bad, and then what it asks for is not acceptable. -/
theorem foldl_cases (hOk : ∀ bs bs', Ok (bs ++ bs') → Ok bs) (hBad : ∀ s a, Bad s → Bad (step s a))
    (hstep : ∀ s bs, ∀ a ∈ as, Ok bs → Good s bs →
      (∃ b, f a = some b ∧ Ok (bs ++ [b]) ∧ Good (step s a) (bs ++ [b])) ∨
        Bad (step s a) ∧ ∀ b, f a = some b → ¬ Ok (bs ++ [b]))
    {s : σ} {bs : List β} (hbs : Ok bs) (hs : Good s bs) :
    (∃ bs', List.Forall₂ (fun a b => f a = some b) as bs' ∧ Ok (bs ++ bs') ∧
        Good (as.foldl step s) (bs ++ bs')) ∨
      Bad (as.foldl step s) ∧
        ∀ bs', List.Forall₂ (fun a b => f a = some b) as bs' → ¬ Ok (bs ++ bs') := by
  induction as generalizing s bs with
  | nil => exact .inl ⟨[], .nil, by simpa using hbs, by simpa using hs⟩
  | cons a as ih =>
    rw [List.foldl_cons]
    rcases hstep s bs a List.mem_cons_self hbs hs with ⟨b, hb, hok, hgood⟩ | ⟨hbad, hno⟩
    · have hstep' := fun s bs a' ha' => hstep s bs a' (List.mem_cons_of_mem a ha')
      rcases ih hstep' hok hgood with ⟨bs', hbs', hok', hgood'⟩ | ⟨hbad, hno⟩
      · rw [List.append_assoc, List.singleton_append] at hok' hgood'
        exact .inl ⟨b :: bs', .cons hb hbs', hok', hgood'⟩
      · refine .inr ⟨hbad, fun bs' h => ?_⟩
        cases h with
        | cons hb' h =>
          rw [hb] at hb'
          cases hb'
          rw [← List.singleton_append, ← List.append_assoc]
          exact hno _ h
    · refine .inr ⟨List.foldlRecOn as step hbad fun s hs a _ => hBad s a hs, fun bs' h hok => ?_⟩
      cases h with
      | cons hb' h =>
        rw [← List.singleton_append, ← List.append_assoc] at hok
        exact hno _ hb' (hOk _ _ hok)

end Runs

namespace GraphFile

variable {ds : List NodeDraft} {ws : List Wire}

/-- The identities of drafts by their names. -/
def named (ds : List NodeDraft) : List (String × NodeId) := ds.map fun d => (d.name, d.id)

namespace Assembly

variable {a : Assembly}

/-- **An assembly that has done what drafts and wires ask for**, without a problem. -/
structure Realizes (a : Assembly) (ds : List NodeDraft) (ws : List Wire) : Prop where
  isOpen : a.builder.isSealed = false
  built : a.builder.graph.Built
  placed : a.placed = ds.zipIdx.map fun d => ⟨d.1, d.2⟩
  nodes : a.builder.graph.facts = ds.map (·.facts)
  wires : a.builder.graph.wires = ws.map some
  problems : a.problems = []

theorem realizes_empty : empty.Realizes [] [] := ⟨rfl, .empty, rfl, rfl, rfl, rfl⟩

theorem checked_eq_ok (h : a.problems = []) : a.checked = .ok a := by rw [checked, h]

theorem checked_eq_error (h : a.problems ≠ []) : a.checked = .error a.problems := by
  rw [checked]
  cases hp : a.problems with
  | nil => exact absurd hp h
  | cons p ps => rfl

/-! ### Problems stay -/

theorem tell_ne_nil {ps : List Problem} (h : ps ≠ []) : (a.tell ps).problems ≠ [] :=
  List.append_ne_nil_of_right_ne_nil a.problems h

theorem tell_keeps (ps : List Problem) (h : a.problems ≠ []) : (a.tell ps).problems ≠ [] :=
  List.append_ne_nil_of_left_ne_nil h ps

theorem addBlock_keeps (b : NodeBlock) (h : a.problems ≠ []) : (a.addBlock b).problems ≠ [] := by
  rw [addBlock]
  split
  · exact tell_keeps _ h
  · split
    · exact tell_keeps _ h
    · split
      · exact h
      · exact tell_keeps _ h

theorem connect_keeps (target : Placed) (c : Connection) (h : a.problems ≠ []) :
    (a.connect target c).problems ≠ [] := by
  rw [connect]
  split
  · exact tell_keeps _ h
  · split
    · exact tell_keeps _ h
    · split
      · exact h
      · exact tell_keeps _ h

namespace Realizes

/-! ### The nodes that are there -/

theorem size (h : a.Realizes ds ws) : a.builder.graph.nodes.size = ds.length := by
  have hlen := congrArg List.length h.nodes
  rwa [Graph.facts, List.length_map, Array.length_toList, List.length_map] at hlen

/-- The draft of a node that was made is found by its name. -/
theorem named? (h : a.Realizes ds ws) (name : String) :
    (a.named? name).map (·.draft) = ds.find? (·.name == name) := by
  rw [Assembly.named?, h.placed]
  conv_rhs => rw [← List.zipIdx_map_fst (l := ds) (i := 0)]
  rw [List.find?_map, List.find?_map, Option.map_map]
  rfl

theorem named?_isSome (h : a.Realizes ds ws) (name : String) :
    (a.named? name).isSome = true ↔ name ∈ ds.map (·.name) := by
  rw [← Option.isSome_map (f := (·.draft)), h.named?, List.find?_isSome]
  simp

/-- The node of a draft stands where it is said to. -/
theorem node_of_placed (h : a.Realizes ds ws) {p : Placed} (hp : p ∈ a.placed) :
    ∃ n, a.builder.graph.nodes[p.position]? = some n ∧ n.facts = p.draft.facts := by
  rw [h.placed, List.mem_map] at hp
  obtain ⟨⟨d, i⟩, hd, rfl⟩ := hp
  have hi : (a.builder.graph.facts)[i]? = some d.facts := by
    rw [h.nodes, List.getElem?_map, List.mk_mem_zipIdx_iff_getElem?.1 hd]
    rfl
  rw [Graph.facts_getElem?, Option.map_eq_some_iff] at hi
  exact hi

theorem firstOutput? (h : a.Realizes ds ws) {p : Placed} (hp : p ∈ a.placed) :
    a.firstOutput? p = p.draft.facts.firstOutput? := by
  obtain ⟨n, hn, hfacts⟩ := h.node_of_placed hp
  have hhead := Graph.head?_portName (h.built.consistent.bears hn .output)
  rw [hfacts] at hhead
  have hname : a.builder.graph.portName? =
      fun q => (a.builder.graph.port? q).bind fun p => some p.name := by
    funext q
    rw [Graph.portName?, Option.map_eq_bind]
    rfl
  rw [Assembly.firstOutput?, NodeFacts.firstOutput?, ← hhead, hn, hname]
  rfl

theorem named (h : a.Realizes ds ws) :
    a.placed.map (fun p => (p.draft.name, p.draft.id)) = named ds := by
  rw [h.placed, List.map_map, GraphFile.named]
  conv_rhs => rw [← List.zipIdx_map_fst (l := ds) (i := 0), List.map_map]
  rfl

/-- The wires that are there. -/
theorem forall_wires (h : a.Realizes ds ws) {P : Wire → Prop} :
    (∀ v, some v ∈ a.builder.graph.wires → P v) ↔ ∀ v ∈ ws, P v := by
  rw [h.wires]
  simp

end Realizes

/-! ### One step -/

/-- **A block adds what it asks for, or it is no part of any plan.** -/
theorem addBlock_cases (b : NodeBlock) (hds : Makeable ds) (h : a.Realizes ds ws) :
    (∃ d, b.draft = .ok d ∧ Makeable (ds ++ [d]) ∧ (a.addBlock b).Realizes (ds ++ [d]) ws) ∨
      (a.addBlock b).problems ≠ [] ∧ ∀ d, b.draft = .ok d → ¬ Makeable (ds ++ [d]) := by
  rw [addBlock]
  by_cases hname : b.name ∈ ds.map (·.name)
  · rw [if_pos ((h.named?_isSome b.name).2 hname)]
    refine .inr ⟨tell_ne_nil (List.cons_ne_nil _ _), fun d hd hmake => ?_⟩
    exact ((makeable_concat hds).1 hmake).1 (b.draft_name hd ▸ hname)
  rw [if_neg (by rw [h.named?_isSome]; exact hname)]
  cases hd : b.draft with
  | error ps => exact .inr ⟨tell_ne_nil (b.explained_draft ps hd), fun d hd => by cases hd⟩
  | ok d =>
    dsimp only
    rw [Build.run_nodeWithId h.isOpen]
    have hids : a.builder.graph.facts.map (·.id) = ds.map (·.id) := by
      rw [h.nodes, List.map_map]
      rfl
    have hmake : Makeable (ds ++ [d]) ↔
        ∃ g, a.builder.graph.addNode d.id d.name d.kind d.params = .ok g := by
      have hadd := h.built.addNode_isOk (f := d.facts)
      rw [hids] at hadd
      have hfresh : d.name ∉ ds.map (·.name) := NodeBlock.draft_name hd ▸ hname
      exact (makeable_concat hds).trans ⟨fun hm => hadd.2 hm.2, fun hg => ⟨hfresh, hadd.1 hg⟩⟩
    cases hg : a.builder.graph.addNode d.id d.name d.kind d.params with
    | ok g =>
      refine .inl ⟨d, rfl, hmake.2 ⟨g, hg⟩, ?_⟩
      obtain ⟨n, ins, outs, hid, hname, hkind, hparams, r⟩ := Graph.addNode_grows hg
      have hfacts : n.facts = d.facts := by
        rw [Node.facts, hid, hname, hkind, hparams]
        rfl
      refine ⟨h.isOpen, .node h.built hg, ?_, ?_, ?_, h.problems⟩
      · show a.placed ++ [⟨d, a.builder.graph.nodes.size⟩] = _
        rw [h.placed, h.size, List.zipIdx_append, List.map_append, Nat.zero_add]
        rfl
      · rw [r.facts, h.nodes, hfacts, List.map_append]
        rfl
      · rw [r.wires h.built.consistent, h.wires]
    | error e =>
      refine .inr ⟨tell_ne_nil (List.cons_ne_nil _ _), fun d' hd' hm => ?_⟩
      cases hd'
      obtain ⟨g, hg'⟩ := hmake.1 hm
      rw [hg] at hg'
      cases hg'

/-- **A connection adds what it asks for, or it is no part of any plan.** -/
theorem connect_cases {p : Placed} (hp : p ∈ a.placed) (c : Connection)
    (hws : (ws.map Wire.sink).Nodup) (h : a.Realizes ds ws) :
    (∃ w, wireOf? ds p.draft c = some w ∧ ((ws ++ [w]).map Wire.sink).Nodup ∧
        (a.connect p c).Realizes ds (ws ++ [w])) ∨
      (a.connect p c).problems ≠ [] ∧
        ∀ w, wireOf? ds p.draft c = some w → ¬ ((ws ++ [w]).map Wire.sink).Nodup := by
  have hfind := h.named? c.source
  rw [connect]
  cases hs : a.named? c.source with
  | none =>
    rw [hs] at hfind
    refine .inr ⟨tell_ne_nil (List.cons_ne_nil _ _), fun w hw => ?_⟩
    rw [wireOf?, ← hfind] at hw
    cases hw
  | some source =>
    rw [hs] at hfind
    have hsource : source ∈ a.placed := List.mem_of_find?_eq_some hs
    dsimp only
    have hwire : wireOf? ds p.draft c =
        (c.output <|> source.draft.facts.firstOutput?).bind fun output =>
          source.draft.facts.wire? output p.draft.facts c.input := by
      rw [wireOf?, ← hfind]
      rfl
    rw [hwire, h.firstOutput? hsource]
    cases ho : (c.output <|> source.draft.facts.firstOutput?) with
    | none =>
      exact .inr ⟨tell_ne_nil (List.cons_ne_nil _ _), fun w hw => by cases hw⟩
    | some output =>
      dsimp only
      rw [Option.bind_some]
      obtain ⟨n, hn, hnfacts⟩ := h.node_of_placed hsource
      obtain ⟨m, hm, hmfacts⟩ := h.node_of_placed hp
      have hg := h.built.consistent
      obtain ⟨q, hq⟩ := Graph.findPort_isOk (hg.bears hn .output) output
      obtain ⟨r, hr⟩ := Graph.findPort_isOk (hg.bears hm .input) c.input
      rw [← hnfacts, ← hmfacts]
      rcases Build.run_connectNodes h.isOpen hn hm hq hr with ⟨id, g, hconn, hrun⟩ | ⟨hno, e, hrun⟩
      · rw [hrun]
        obtain ⟨w, hw, hfree, hfacts, hwires⟩ := hg.connect_wires hn hm hq hr hconn
        refine .inl ⟨w, hw, ?_, h.isOpen, .edge h.built hconn, h.placed, hfacts.trans h.nodes, ?_,
          h.problems⟩
        · exact distinct_concat.2 ⟨h.forall_wires.1 hfree, hws⟩
        · rw [hwires, h.wires, List.map_append]
          rfl
      · rw [hrun]
        refine .inr ⟨tell_ne_nil (List.cons_ne_nil _ _), fun w hw hdistinct => ?_⟩
        obtain ⟨g, hconn⟩ := hg.connect_isOk hn hm hq hr hw
          (h.forall_wires.2 (distinct_concat.1 hdistinct).1)
        exact hno g hconn

/-! ### All steps -/

/-- **Making the nodes of all blocks.** -/
theorem addBlocks_cases (blocks : List NodeBlock) :
    (∃ ds, List.Forall₂ (fun b d => b.draft = .ok d) blocks ds ∧ Makeable ds ∧
        (blocks.foldl addBlock .empty).Realizes ds []) ∨
      (blocks.foldl addBlock .empty).problems ≠ [] ∧
        ∀ ds, List.Forall₂ (fun b d => b.draft = .ok d) blocks ds → ¬ Makeable ds := by
  have hnil : Makeable [] :=
    ⟨List.nodup_nil, List.nodup_nil, fun d hd => absurd hd List.not_mem_nil⟩
  have hcases := foldl_cases addBlock (fun b => b.draft.toOption) Makeable
    (fun a ds => a.Realizes ds []) (fun a => a.problems ≠ []) (fun _ _ h => h.of_append)
    (fun _ b h => addBlock_keeps b h)
    (fun a ds b (_ : b ∈ blocks) hds h => by
      simpa only [toOption_eq_some] using addBlock_cases b hds h) hnil realizes_empty
  simpa only [toOption_eq_some, List.nil_append] using hcases

/-- The connections of nodes that were made. -/
def connections (ps : List Placed) : List (Placed × Connection) :=
  ps.flatMap fun p => p.draft.connections.map fun c => (p, c)

theorem foldl_connectAll (a : Assembly) (ps : List Placed) :
    ps.foldl connectAll a = (connections ps).foldl (fun a i => a.connect i.1 i.2) a := by
  rw [connections, List.foldl_flatMap]
  congr 1
  funext a p
  rw [List.foldl_map]
  rfl

theorem Realizes.asked (h : a.Realizes ds ws) :
    asked ds = (connections a.placed).map fun i => (i.1.draft, i.2) := by
  rw [GraphFile.asked, connections, List.map_flatMap, h.placed, List.flatMap_map]
  conv_lhs => rw [← List.zipIdx_map_fst (l := ds) (i := 0), List.flatMap_map]
  congr 1
  funext d
  rw [List.map_map]
  rfl

/-- **Making all connections.** -/
theorem connectAll_cases (h : a.Realizes ds []) :
    (∃ ws, List.Forall₂ (fun i w => wireOf? ds i.1 i.2 = some w) (asked ds) ws ∧
        (ws.map Wire.sink).Nodup ∧ (a.placed.foldl connectAll a).Realizes ds ws) ∨
      (a.placed.foldl connectAll a).problems ≠ [] ∧
        ∀ ws, List.Forall₂ (fun i w => wireOf? ds i.1 i.2 = some w) (asked ds) ws →
          ¬ (ws.map Wire.sink).Nodup := by
  have hplaced : ∀ {a' : Assembly} {ws : List Wire} (i : Placed × Connection),
      a'.Realizes ds ws → i ∈ connections a.placed → i.1 ∈ a'.placed := by
    intro a' ws i h' hi
    obtain ⟨p, hp, hi⟩ := List.mem_flatMap.1 hi
    obtain ⟨c, -, rfl⟩ := List.mem_map.1 hi
    rw [h'.placed, ← h.placed]
    exact hp
  have hnil : (([] : List Wire).map Wire.sink).Nodup := List.nodup_nil
  rw [foldl_connectAll, h.asked]
  simp only [List.forall₂_map_left_iff]
  exact foldl_cases (fun (a : Assembly) i => a.connect i.1 i.2) (fun i => wireOf? ds i.1.draft i.2)
    (fun ws => (ws.map Wire.sink).Nodup) (fun a ws => a.Realizes ds ws) (fun a => a.problems ≠ [])
    (fun _ _ h => by rw [List.map_append] at h; exact h.of_append_left)
    (fun _ i h => connect_keeps i.1 i.2 h)
    (fun _ _ i hi hws h' => connect_cases (hplaced i h' hi) i.2 hws h') hnil h

end Assembly

/-- **Building succeeds on the blocks that have a plan**, and carries it out; what remains to go wrong is
the choice of the output. -/
theorem build_cases (c : Content) :
    (∃ ds ws g, Plan c.nodes ds ws ∧ g.facts = ds.map (·.facts) ∧ g.wires = ws.map some ∧
        build c = (selected c.output g (named ds)).map fun id => ⟨g, id, named ds, c.options⟩) ∨
      (∃ ps, build c = .error ps) ∧ ∀ ds ws, ¬ Plan c.nodes ds ws := by
  rw [build]
  rcases Assembly.addBlocks_cases c.nodes with ⟨ds, hdrafts, hmake, hmade⟩ | ⟨hbad, hno⟩
  · rw [Assembly.checked_eq_ok hmade.problems]
    simp only [bind, Except.bind]
    rcases Assembly.connectAll_cases hmade with ⟨ws, hwires, hdistinct, h⟩ | ⟨hbad, hno⟩
    · rw [Assembly.checked_eq_ok h.problems]
      refine .inl ⟨ds, ws, _, ⟨hdrafts, hmake, hwires, hdistinct⟩, h.nodes, h.wires, ?_⟩
      dsimp only
      rw [Build.run_finish h.isOpen h.built, h.named]
      rfl
    · rw [Assembly.checked_eq_error hbad]
      refine .inr ⟨⟨_, rfl⟩, fun ds' ws h => ?_⟩
      obtain rfl := drafts_unique hdrafts h.drafts
      exact hno ws h.wires h.distinct
  · rw [Assembly.checked_eq_error hbad]
    exact .inr ⟨⟨_, rfl⟩, fun ds ws h => hno ds h.drafts h.makeable⟩

end GraphFile

end NodeShader

/-!
## The order of blocks does not matter

Blocks have the same plan in whatever order they stand, and building carries out the plan.  So
permuting the blocks of a file neither makes building fail nor changes what is built, but for the
numbers in the graph (`build_perm`).
-/

namespace NodeShader.GraphFile

/-- **Files that are the same but for the numbers in their graphs.** -/
structure Same (f f' : GraphFile) : Prop where
  output : f.output = f'.output
  nodes : ∀ name, f.nodeNamed? name = f'.nodeNamed? name
  options : f.options = f'.options
  graph : f.graph.Renumbered f'.graph

/-- **The chosen output does not hang on the order of the nodes.** -/
theorem selected_perm {output : String} {g g' : Graph} {nodes nodes' : List (String × NodeId)}
    (hfacts : g.facts.Perm g'.facts) (hnodes : nodes.lookup output = nodes'.lookup output) :
    selected output g nodes = selected output g' nodes' := by
  have hids : ((g.nodes.toList.filter fun n => n.kind.stage = .render).map (·.id)).Perm
      ((g'.nodes.toList.filter fun n => n.kind.stage = .render).map (·.id)) := by
    have h := (hfacts.filter fun n => decide (n.kind.stage = .render)).map (·.id)
    rw [Graph.facts, Graph.facts, List.filter_map, List.filter_map, List.map_map, List.map_map] at h
    exact h
  rw [selected, selected, hnodes]
  by_cases hnamed : output ≠ ""
  · rw [if_pos hnamed, if_pos hnamed]
  rw [if_neg hnamed, if_neg hnamed]
  generalize (g.nodes.toList.filter fun n => decide (n.kind.stage = .render)) = l at hids ⊢
  generalize (g'.nodes.toList.filter fun n => decide (n.kind.stage = .render)) = l' at hids ⊢
  have hlen : l.length = l'.length := by simpa using hids.length_eq
  rcases l with _ | ⟨n, _ | ⟨n₂, l⟩⟩
  · obtain rfl := List.eq_nil_of_length_eq_zero hlen.symm
    rfl
  · obtain ⟨m, rfl⟩ := List.length_eq_one_iff.1 hlen.symm
    exact congrArg Except.ok (List.singleton_perm_singleton.1 hids)
  · rcases l' with _ | ⟨m, _ | ⟨m₂, l'⟩⟩
    · cases hlen
    · simp at hlen
    · rfl

theorem lookup_named {ds ds' : List NodeDraft} (hnames : (ds.map (·.name)).Nodup)
    (h : ds.Perm ds') (name : String) : (named ds).lookup name = (named ds').lookup name := by
  refine lookup_perm ?_ (h.map _) name
  rw [List.map_map]
  exact hnames

/-- Permuted blocks are both built, to files that are the same, or neither is. -/
theorem build_perm_cases (output : String) (options : FileOptions) {blocks blocks' : List NodeBlock}
    (h : blocks.Perm blocks') :
    (∃ f f', build ⟨output, options, blocks⟩ = .ok f ∧ build ⟨output, options, blocks'⟩ = .ok f' ∧
        Same f f') ∨
      (∃ ps, build ⟨output, options, blocks⟩ = .error ps) ∧
        ∃ ps, build ⟨output, options, blocks'⟩ = .error ps := by
  rcases build_cases ⟨output, options, blocks⟩ with
    ⟨ds, ws, g, hplan, hfacts, hwires, hbuild⟩ | ⟨hfails, hno⟩ <;>
  rcases build_cases ⟨output, options, blocks'⟩ with
    ⟨ds', ws', g', hplan', hfacts', hwires', hbuild'⟩ | ⟨hfails', hno'⟩
  · obtain ⟨ds₀, ws₀, hplan₀, hds, hws⟩ := hplan.perm h
    obtain ⟨rfl, rfl⟩ := hplan₀.unique hplan'
    have hsame : g.Renumbered g' := by
      refine ⟨?_, ?_, ?_⟩
      · rw [hfacts, hfacts']
        exact hds.map _
      · rw [hwires, hwires']
        exact hws.map _
      · rw [hwires]
        simp
    have hlookup := lookup_named hplan.makeable.names hds
    have hselected := selected_perm hsame.nodes (hlookup output)
    rw [hbuild, hbuild', ← hselected]
    cases selected output g (named ds) with
    | ok id => exact .inl ⟨_, _, rfl, rfl, rfl, hlookup, rfl, hsame⟩
    | error ps => exact .inr ⟨⟨ps, rfl⟩, ps, rfl⟩
  · obtain ⟨ds₀, ws₀, hplan₀, -⟩ := hplan.perm h
    exact absurd hplan₀ (hno' ds₀ ws₀)
  · obtain ⟨ds₀, ws₀, hplan₀, -⟩ := hplan'.perm h.symm
    exact absurd hplan₀ (hno ds₀ ws₀)
  · exact .inr ⟨hfails, hfails'⟩

/-- **The order of the blocks does not matter.**  Permuting the blocks of a file neither makes building
fail nor mends it, and the files that are built are the same but for the numbers in their graphs. -/
theorem build_perm (output : String) (options : FileOptions) {blocks blocks' : List NodeBlock}
    (h : blocks.Perm blocks') :
    ((∃ f, build ⟨output, options, blocks⟩ = .ok f) ↔
        ∃ f', build ⟨output, options, blocks'⟩ = .ok f') ∧
      ∀ f f', build ⟨output, options, blocks⟩ = .ok f →
        build ⟨output, options, blocks'⟩ = .ok f' → Same f f' := by
  rcases build_perm_cases output options h with ⟨f, f', hf, hf', hsame⟩ | ⟨⟨ps, hps⟩, ps', hps'⟩
  · refine ⟨⟨fun _ => ⟨f', hf'⟩, fun _ => ⟨f, hf⟩⟩, fun f₁ f₁' h₁ h₁' => ?_⟩
    rw [hf] at h₁
    rw [hf'] at h₁'
    cases h₁
    cases h₁'
    exact hsame
  · rw [hps, hps']
    exact ⟨⟨fun ⟨_, hf⟩ => (by cases hf), fun ⟨_, hf⟩ => (by cases hf)⟩, fun _ _ hf => (by cases hf)⟩

namespace OrderExample

def place : Config.Span := ⟨.first, .first⟩

/-- The negation of the node `t`. -/
def negated : NodeBlock :=
  { name := "n", op := "negate", id := some "00000000-0000-0000-0000-000000000001",
    inputs := some (.object [.mk (.name "in" []) false place (.name "t" []) place]), rest := ⟨[], []⟩,
    heading := place }

def time : NodeBlock :=
  { name := "t", op := "time", id := some "00000000-0000-0000-0000-000000000002", inputs := none,
    rest := ⟨[], []⟩, heading := place }

/-- The file whose blocks come in the given order. -/
def content (blocks : List NodeBlock) : Content := ⟨"n", ⟨none, none⟩, blocks⟩

end OrderExample

open OrderExample in
/-- A block may refer to one before it or after it. -/
theorem build_perm_forward :
    ∃ f f', build (content [negated, time]) = .ok f ∧ build (content [time, negated]) = .ok f' ∧
      Same f f' ∧ f.graph.edges.size = 1 := by
  have hsize : (build (content [negated, time])).toOption.map (·.graph.edges.size) = some 1 := by
    decide +kernel
  obtain ⟨hbuilt, hsame⟩ := build_perm "n" ⟨none, none⟩ (List.Perm.swap time negated [])
  obtain ⟨f, hf, hone⟩ := Option.map_eq_some_iff.1 hsize
  rw [toOption_eq_some] at hf
  obtain ⟨f', hf'⟩ := hbuilt.1 ⟨f, hf⟩
  exact ⟨f, f', hf, hf', hsame f f' hf hf', hone⟩

end NodeShader.GraphFile
