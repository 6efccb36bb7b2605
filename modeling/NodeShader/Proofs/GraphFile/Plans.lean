import NodeShader.GraphFile.Build
import NodeShader.Proofs.Graph.Wires
import NodeShader.Proofs.Lists
import NodeShader.Proofs.Outcome

/-!
# What the blocks of a file ask for

A plan (`Plan`) is what the blocks of a file ask for, if all of it can be done: a node for each block
and a wire for each connection.  Nothing in it hangs on the order of the blocks, since what a
connection refers to is looked up among all of them (`wireOf?`).  So the plan for some blocks,
permuted, is the plan for the permuted blocks (`Plan.perm`).
-/

namespace NodeShader.GraphFile

/-! ### Drafts

A block that gives no draft has something wrong with it, and the draft of a block has the name of the
block. -/

section Drafts

variable {α β : Type}

/-- A failure comes with problems. -/
def Explained (x : Except (List Problem) α) : Prop := ∀ ps, x = .error ps → ps ≠ []

theorem explained_ok (a : α) : Explained (.ok a) := fun ps h => by cases h

theorem explained_error (p : Problem) (ps : List Problem) :
    Explained (.error (p :: ps) : Except (List Problem) α) := by
  intro qs h
  cases h
  exact List.cons_ne_nil p ps

theorem Explained.bind {x : Except (List Problem) α} {f : α → Except (List Problem) β}
    (hx : Explained x) (hf : ∀ a, Explained (f a)) : Explained (x >>= f) := by
  cases x with
  | ok a => exact hf a
  | error ps =>
    intro qs h
    cases h
    exact hx ps rfl

theorem explained_mapError {ε : Type} (x : Except ε α) (f : ε → Problem) :
    Explained (x.mapError fun e => [f e]) := by
  cases x with
  | ok a => exact explained_ok a
  | error e => exact explained_error (f e) []

theorem explained_decoded (d : Config.Decode α) : Explained (decoded d) := by
  rw [decoded, Config.Decode.run]
  rcases StateT.run d [] with ⟨a, _ | ⟨p, ps⟩⟩
  · exact explained_ok a
  · exact explained_error (.config p) (ps.map .config)

namespace NodeBlock

theorem explained_connections (b : NodeBlock) : Explained b.connections := by
  rw [connections]
  split
  · exact explained_ok []
  · rename_i items _
    rcases gather (items.map (connectionOf b.name)) with ⟨cs, _ | ⟨p, ps⟩⟩
    · exact explained_ok cs
    · exact explained_error p ps
  · exact explained_error _ []

theorem explained_params (b : NodeBlock) (kind : NodeKind) (cs : List Connection) :
    Explained (b.params kind cs) := by
  cases kind with
  | constant =>
    refine (explained_decoded _).bind ?_
    rintro ⟨values, scalar⟩
    cases scalar with
    | none => exact explained_ok _
    | some s =>
      dsimp only
      split
      · exact explained_error _ []
      · exact explained_ok _
  | compare =>
    refine (explained_decoded _).bind fun operator => ?_
    dsimp only
    split
    · exact explained_ok _
    · exact explained_error _ []
  | _ => exact explained_decoded _

/-- **A block that gives no draft has a problem.** -/
theorem explained_draft (b : NodeBlock) : Explained b.draft := by
  rw [draft]
  split
  · exact explained_error _ []
  · exact explained_error _ []
  · exact (explained_mapError _ _).bind fun id => b.explained_connections.bind fun cs =>
      (b.explained_params _ cs).bind fun params => explained_ok _

/-- The draft of a block has its name. -/
theorem draft_name {b : NodeBlock} {d : NodeDraft} (h : b.draft = .ok d) : d.name = b.name := by
  rw [draft] at h
  split at h
  · cases h
  · cases h
  · obtain ⟨id, -, h⟩ := bind_eq_ok.1 h
    obtain ⟨cs, -, h⟩ := bind_eq_ok.1 h
    obtain ⟨params, -, h⟩ := bind_eq_ok.1 h
    cases h
    rfl

end NodeBlock

end Drafts

/-! ### Plans -/

/-- The node that a draft is of. -/
def NodeDraft.facts (d : NodeDraft) : NodeFacts := ⟨d.id, d.name, d.kind, d.params⟩

/-- **Drafts whose nodes can be made.** -/
structure Makeable (ds : List NodeDraft) : Prop where
  names : (ds.map (·.name)).Nodup
  ids : (ds.map (·.id)).Nodup
  each : ∀ d ∈ ds, d.kind.isValid = true ∧ ∃ specs, portSpecs d.kind d.params = .ok specs

/-- The connections that drafts ask for, each with the draft whose input it is to feed. -/
def asked (ds : List NodeDraft) : List (NodeDraft × Connection) :=
  ds.flatMap fun d => d.connections.map fun c => (d, c)

/-- The wire that a connection asks for, if there are such ports and their types allow it. -/
def wireOf? (ds : List NodeDraft) (target : NodeDraft) (c : Connection) : Option Wire := do
  let source ← ds.find? (·.name == c.source)
  let output ← c.output <|> source.facts.firstOutput?
  source.facts.wire? output target.facts c.input

/-- **What blocks ask for**: a node for each block, a wire for each connection, and at most one wire
to an input. -/
structure Plan (blocks : List NodeBlock) (ds : List NodeDraft) (ws : List Wire) : Prop where
  drafts : List.Forall₂ (fun b d => b.draft = .ok d) blocks ds
  makeable : Makeable ds
  wires : List.Forall₂ (fun a w => wireOf? ds a.1 a.2 = some w) (asked ds) ws
  distinct : (ws.map Wire.sink).Nodup

variable {ds ds' : List NodeDraft} {ws : List Wire} {blocks blocks' : List NodeBlock}

theorem Makeable.perm (h : Makeable ds) (hp : ds.Perm ds') : Makeable ds' where
  names := (hp.map _).nodup_iff.1 h.names
  ids := (hp.map _).nodup_iff.1 h.ids
  each := fun d hd => h.each d (hp.mem_iff.2 hd)

/-- One more draft can be made if its name and its identity are new. -/
theorem makeable_concat {d : NodeDraft} (h : Makeable ds) :
    Makeable (ds ++ [d]) ↔ d.name ∉ ds.map (·.name) ∧ d.kind.isValid = true ∧
      d.id ∉ ds.map (·.id) ∧ ∃ specs, portSpecs d.kind d.params = .ok specs := by
  constructor
  · rintro ⟨hnames, hids, heach⟩
    rw [List.map_append, List.map_singleton, ← List.concat_eq_append, List.nodup_concat] at hnames
    rw [List.map_append, List.map_singleton, ← List.concat_eq_append, List.nodup_concat] at hids
    obtain ⟨hvalid, hspecs⟩ := heach d (by simp)
    exact ⟨hnames.1, hvalid, hids.1, hspecs⟩
  · rintro ⟨hname, hvalid, hid, hspecs⟩
    refine ⟨?_, ?_, List.forall_mem_append.2 ⟨h.each, List.forall_mem_singleton.2 ⟨hvalid, hspecs⟩⟩⟩
    · rw [List.map_append, List.map_singleton, ← List.concat_eq_append, List.nodup_concat]
      exact ⟨hname, h.names⟩
    · rw [List.map_append, List.map_singleton, ← List.concat_eq_append, List.nodup_concat]
      exact ⟨hid, h.ids⟩

theorem Makeable.of_append (h : Makeable (ds ++ ds')) : Makeable ds where
  names := by
    have hnames := h.names
    rw [List.map_append] at hnames
    exact hnames.of_append_left
  ids := by
    have hids := h.ids
    rw [List.map_append] at hids
    exact hids.of_append_left
  each := fun d hd => h.each d (List.mem_append_left _ hd)

/-- One more wire may be added if it leads to another input than the others. -/
theorem distinct_concat {w : Wire} : ((ws ++ [w]).map Wire.sink).Nodup ↔
    (∀ v ∈ ws, v.sink ≠ w.sink) ∧ (ws.map Wire.sink).Nodup := by
  rw [List.map_append, List.map_singleton, ← List.concat_eq_append, List.nodup_concat, List.mem_map]
  simp only [not_exists, not_and]

theorem wireOf?_perm (h : (ds.map (·.name)).Nodup) (hp : ds.Perm ds') : wireOf? ds = wireOf? ds' := by
  funext target c
  rw [wireOf?, wireOf?, find?_perm h hp]

theorem drafts_unique (h : List.Forall₂ (fun b d => b.draft = .ok d) blocks ds)
    (h' : List.Forall₂ (fun b d => b.draft = .ok d) blocks ds') : ds = ds' :=
  Except.ok.inj ((mapM_eq_ok.2 h).symm.trans (mapM_eq_ok.2 h'))

/-- Blocks have one plan at most. -/
theorem Plan.unique (h : Plan blocks ds ws) {ws' : List Wire} (h' : Plan blocks ds' ws') :
    ds = ds' ∧ ws = ws' := by
  obtain rfl := drafts_unique h.drafts h'.drafts
  exact ⟨rfl, Option.some.inj ((mapM_eq_some.2 h.wires).symm.trans (mapM_eq_some.2 h'.wires))⟩

/-- **Plans do not hang on the order of the blocks.** -/
theorem Plan.perm (h : Plan blocks ds ws) (hp : blocks.Perm blocks') :
    ∃ ds' ws', Plan blocks' ds' ws' ∧ ds.Perm ds' ∧ ws.Perm ws' := by
  obtain ⟨ds', hdrafts, hds⟩ := exists_perm_of_forall₂ hp h.drafts
  have hasked : (asked ds).Perm (asked ds') := hds.flatMap_right _
  obtain ⟨ws', hwires, hws⟩ := exists_perm_of_forall₂ hasked h.wires
  rw [wireOf?_perm h.makeable.names hds] at hwires
  exact ⟨ds', ws', ⟨hdrafts, h.makeable.perm hds, hwires, (hws.map _).nodup_iff.1 h.distinct⟩, hds, hws⟩

end NodeShader.GraphFile
