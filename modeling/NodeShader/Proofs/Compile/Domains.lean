import NodeShader.Proofs.Compile.Staging

/-!
# The domains of stages

A stage is built from its own nodes and from the stages it samples, each of which is built before it.
Its domain is the union of theirs and of those of its nodes, so flags travel from stage to stage as
far as the samples go.

* `buildStages_split`: a stage is built from its plan and the stages before it.
* `Compilation.Ordered.domain_iff`: a flag of a stage is one of a node of a stage that it samples, near
  or far.
* `Graph.Built.compile_domain`: **the domain of a stage** has exactly the flags that lead to its root
  along live edges.
-/

namespace NodeShader

/-! ### Flags -/

namespace Domain

variable {α : Type} {k : Nat}

/-- Whether a flag is one of a domain. -/
def has (d : Domain) (k : Nat) : Bool := d.flags.getLsbD k

@[simp] theorem has_constant : constant.has k = false := BitVec.getLsbD_zero

@[simp] theorem has_union (a b : Domain) : (a.union b).has k = (a.has k || b.has k) :=
  BitVec.getLsbD_or

/-- The flags of a union of many. -/
theorem has_foldl_union {f : α → Domain} {l : List α} {d : Domain} :
    (l.foldl (fun d a => d.union (f a)) d).has k = true ↔
      d.has k = true ∨ ∃ a ∈ l, (f a).has k = true := by
  induction l generalizing d with
  | nil => simp
  | cons a l ih => rw [List.foldl_cons, ih, has_union, Bool.or_eq_true, List.exists_mem_cons_iff, or_assoc]

end Domain

variable {g : Graph} {p : StagePlan} {c : Compilation} {s t : CompiledStage} {k : Nat}

/-- **A node introduces a flag.** -/
def Graph.Introduces (g : Graph) (i k : Nat) : Prop :=
  ∃ n, g.nodes[i]? = some n ∧ n.domain.has k = true

/-- The flags of the nodes that a stage has code for. -/
theorem StagePlan.has_domain :
    p.domain.has k = true ↔ ∃ i ∈ p.nodes, p.graph.Introduces i k := by
  have hrun : ∀ (l : List Nat) (d : Domain),
      (l.foldl (fun d i => ((p.graph.nodes[i]?.map (·.domain)).map d.union).getD d) d).has k = true ↔
        d.has k = true ∨ ∃ i ∈ l, p.graph.Introduces i k := by
    intro l
    induction l with
    | nil => simp
    | cons i l ih =>
      intro d
      rw [List.foldl_cons, ih, List.exists_mem_cons_iff, ← or_assoc]
      refine or_congr_left ?_
      cases hn : p.graph.nodes[i]? with
      | none => simp [Graph.Introduces, hn]
      | some n => simp [Graph.Introduces, hn]
  rw [domain, hrun, Domain.has_constant]
  simp

/-! ### Building stages one after another -/

/-- The domain of a stage, by those of the stages built before it. -/
theorem StagePlan.has_domain_of_build {built : List CompiledStage} (h : p.build built = .ok s) :
    s.stage.domain.has k = true ↔ (∃ i ∈ s.stage.nodes, p.graph.Introduces i k) ∨
      ∃ d ∈ s.stage.dependencies, ∃ t, built.find? (·.stage.root == d) = some t ∧
        t.stage.domain.has k = true := by
  have hnodes := (build_spec h).nodes
  rw [build] at h
  obtain ⟨u, hu, h⟩ := bind_eq_ok.1 h
  obtain ⟨shaders, -, h⟩ := bind_eq_ok.1 h
  cases h
  have hdomain : u.domain = p.domain := by
    rw [generate, mapError_eq_ok, draft] at hu
    obtain ⟨n, -, hu⟩ := bind_eq_ok.1 hu
    obtain ⟨d, -, hu⟩ := bind_eq_ok.1 hu
    dsimp only at hu
    split at hu
    · obtain ⟨bodies, -, hu⟩ := bind_eq_ok.1 hu
      cases hu
      rfl
    · obtain ⟨bodies, -, hu⟩ := bind_eq_ok.1 hu
      cases hu
      rfl
  rw [hnodes, ← has_domain, ← hdomain]
  refine Domain.has_foldl_union.trans (or_congr_right ?_)
  constructor
  · rintro ⟨t, ht, hk⟩
    obtain ⟨d, hd, ht⟩ := List.mem_filterMap.1 ht
    exact ⟨d, hd, t, ht, hk⟩
  · rintro ⟨d, hd, t, ht, hk⟩
    exact ⟨t, List.mem_filterMap.2 ⟨d, hd, ht⟩, hk⟩

/-- **A stage is built from the stages before it.** -/
theorem buildStages_split {plans : List StagePlan} {stages A B : List CompiledStage}
    (h : buildStages plans = .ok stages) (hs : stages = A ++ s :: B) :
    ∃ p ∈ plans, p.build A = .ok s := by
  have hrun : ∀ (plans : List StagePlan) (built stages : List CompiledStage),
      plans.foldlM (fun built p => do return built ++ [← p.build built]) built = .ok stages →
      ∃ new, stages = built ++ new ∧ ∀ A s B, new = A ++ s :: B →
        ∃ p ∈ plans, p.build (built ++ A) = .ok s := by
    intro plans
    induction plans with
    | nil =>
      intro built stages h
      cases h
      exact ⟨[], (List.append_nil _).symm, fun A s B hAB => absurd hAB (by simp)⟩
    | cons p plans ih =>
      intro built stages h
      rw [List.foldlM_cons] at h
      obtain ⟨built', hb, h⟩ := bind_eq_ok.1 h
      obtain ⟨s, hs, hb⟩ := bind_eq_ok.1 hb
      cases hb
      obtain ⟨new, rfl, hnew⟩ := ih _ _ h
      refine ⟨s :: new, by rw [List.append_assoc, List.singleton_append], fun A t B hAB => ?_⟩
      cases A with
      | nil =>
        obtain ⟨rfl, -⟩ := List.cons.inj hAB
        exact ⟨p, List.mem_cons_self, by rwa [List.append_nil]⟩
      | cons a A =>
        rw [List.cons_append] at hAB
        obtain ⟨rfl, htail⟩ := List.cons.inj hAB
        obtain ⟨q, hq, hbuild⟩ := hnew A t B htail
        rw [List.append_assoc] at hbuild
        exact ⟨q, List.mem_cons_of_mem p hq, hbuild⟩
  obtain ⟨new, hnew, hsplit⟩ := hrun plans [] stages h
  exact hsplit A s B (hnew.symm.trans hs)

/-! ### Samples of samples -/

/-- One stage of a compilation samples the field of another. -/
def Compilation.Samples (c : Compilation) (s t : CompiledStage) : Prop :=
  t ∈ c.stages ∧ t.stage.root ∈ s.stage.dependencies

/-- **One stage needs another**: itself, or what it samples, near or far. -/
abbrev Compilation.Needs (c : Compilation) : CompiledStage → CompiledStage → Prop :=
  Relation.ReflTransGen c.Samples

theorem Compilation.Needs.mem (h : c.Needs s t) (hs : s ∈ c.stages) : t ∈ c.stages := by
  induction h with
  | refl => exact hs
  | tail _ hsample _ => exact hsample.1

/-- A stage has the flags of its nodes and of the stages it samples, which come before it. -/
def Graph.Sums (g : Graph) (stages : List CompiledStage) : Prop :=
  ∀ (A : List CompiledStage) (s : CompiledStage) (B : List CompiledStage), stages = A ++ s :: B → ∀ k,
    s.stage.domain.has k = true ↔ (∃ i ∈ s.stage.nodes, g.Introduces i k) ∨
      ∃ d ∈ s.stage.dependencies, ∃ t, A.find? (·.stage.root == d) = some t ∧
        t.stage.domain.has k = true

/-- **The order of stages**: their roots are told apart, and each stage comes after those it samples. -/
structure Compilation.Ordered (c : Compilation) : Prop where
  nodup : (c.stages.map (·.stage.root)).Nodup
  earlier : ∀ A s B, c.stages = A ++ s :: B → ∀ d ∈ s.stage.dependencies, ∃ t ∈ A, t.stage.root = d

/-- **Flags travel along samples.** -/
theorem Compilation.Ordered.domain_iff (hc : c.Ordered) (hsums : g.Sums c.stages) (hs : s ∈ c.stages) :
    s.stage.domain.has k = true ↔ ∃ t, c.Needs s t ∧ ∃ i ∈ t.stage.nodes, g.Introduces i k := by
  obtain ⟨A, B, hAB⟩ := List.append_of_mem hs
  -- the stages before it are fewer
  induction hn : A.length using Nat.strong_induction_on generalizing s A B with
  | _ n ih =>
  subst hn
  have hA : ∀ t ∈ A, t ∈ c.stages := fun t ht => by rw [hAB]; exact List.mem_append_left _ ht
  have hbefore : ∀ t ∈ A, t.stage.domain.has k = true ↔
      ∃ u, c.Needs t u ∧ ∃ i ∈ u.stage.nodes, g.Introduces i k := by
    intro t ht
    obtain ⟨A₁, A₂, rfl⟩ := List.append_of_mem ht
    refine ih A₁.length (by simp) (hA t ht) A₁ (A₂ ++ s :: B) ?_ rfl
    rw [hAB, List.append_assoc, List.cons_append]
  have hnodup : (A.map (·.stage.root)).Nodup := by
    have hroots := hc.nodup
    rw [hAB, List.map_append] at hroots
    exact hroots.of_append_left
  rw [hsums A s B hAB]
  constructor
  · rintro (⟨i, hi, hk⟩ | ⟨d, hd, t, ht, hk⟩)
    · exact ⟨s, .refl, i, hi, hk⟩
    · have htA := List.mem_of_find?_eq_some ht
      have hroot : t.stage.root = d := by simpa using List.find?_some ht
      obtain ⟨u, hu, hi⟩ := (hbefore t htA).1 hk
      exact ⟨u, .head ⟨hA t htA, hroot ▸ hd⟩ hu, hi⟩
  · rintro ⟨u, hu, hi⟩
    rcases Relation.ReflTransGen.cases_head hu with rfl | ⟨t, ⟨ht, hd⟩, hu⟩
    · exact .inl hi
    · obtain ⟨t', ht', hroot⟩ := hc.earlier A s B hAB _ hd
      -- a stage is told by its root
      have htt' : t = t' := by
        have hfound := find?_key hc.nodup (hA t' ht')
        rw [hroot, find?_key hc.nodup ht] at hfound
        exact Option.some.inj hfound
      subst htt'
      exact .inr ⟨_, hd, t, find?_key hnodup ht', (hbefore t ht').2 ⟨u, hu, hi⟩⟩

/-! ### Flags along live edges -/

/-- The stages of a compilation sum up the flags of their nodes. -/
theorem Graph.compile_sums {id : NodeId} {options : Options} (h : g.compile id options = .ok c) :
    g.Sums c.stages := by
  rw [compile] at h
  obtain ⟨plan, hplan, h⟩ := bind_eq_ok.1 h
  obtain ⟨stages, hstages, h⟩ := bind_eq_ok.1 h
  cases h
  obtain ⟨-, roots, -, -, hplans⟩ := planCompilation_spec hplan
  intro A s B hAB k
  obtain ⟨p, hp, hbuild⟩ := buildStages_split hstages hAB
  obtain ⟨r, -, hr⟩ := exists_of_mem_right hplans hp
  have hgraph : p.graph = g := by
    rw [Graph.plan] at hr
    obtain ⟨_, -, hr⟩ := bind_eq_ok.1 hr
    obtain ⟨_, -, hr⟩ := bind_eq_ok.1 hr
    cases hr
    rfl
  rw [← hgraph]
  exact StagePlan.has_domain_of_build hbuild

section Realized

variable (hg : g.Consistent) (hc : c.Ordered)
  (hrealized : ∀ s ∈ c.stages, g.Realizes s.stage.root s)
include hg hrealized

/-- What a stage needs leads to its root. -/
theorem Compilation.Needs.leads (h : c.Needs s t) (hs : s ∈ c.stages) :
    g.Leads t.stage.root s.stage.root := by
  induction h using Relation.ReflTransGen.head_induction_on with
  | refl => exact .refl
  | @head s u hsample _ ih =>
    have hu := ih hsample.1
    have hboundary := ((hrealized s hs).mem _).1 hsample.2
    exact hu.trans (Graph.leads_of_discovered hg (List.mem_filter.1 hboundary).1).1

include hc in
/-- **What leads to the root of a stage** has its code in a stage that is needed there. -/
theorem Compilation.exists_needed (hs : s ∈ c.stages) (hlt : s.stage.root < g.nodes.size) {i : Nat}
    (h : g.Leads i s.stage.root) : ∃ t, c.Needs s t ∧ i ∈ t.stage.nodes := by
  classical
  let R := (c.stages.filter fun t => decide (c.Needs s t)).map (·.stage.root)
  have hR : ∀ {x : Nat}, x ∈ R ↔ ∃ t ∈ c.stages, c.Needs s t ∧ t.stage.root = x := by
    intro x
    simp only [R, List.mem_map, List.mem_filter, decide_eq_true_eq, and_assoc]
  have hclosed : ∀ x ∈ R, ∀ b ∈ (g.stageLabels x).boundaries, b ∈ R := by
    intro x hx b hb
    obtain ⟨t, ht, hneeds, rfl⟩ := hR.1 hx
    have hd := ((hrealized t ht).mem b).2 hb
    obtain ⟨A, B, hAB⟩ := List.append_of_mem ht
    obtain ⟨u, hu, rfl⟩ := hc.earlier A t B hAB b hd
    have hmem : u ∈ c.stages := by rw [hAB]; exact List.mem_append_left _ hu
    exact hR.2 ⟨u, hmem, hneeds.tail ⟨hmem, hd⟩, rfl⟩
  obtain ⟨x, hx, hi⟩ := Graph.discovered_of_leads hg (hR.2 ⟨s, hs, .refl, rfl⟩) hlt hclosed h
  obtain ⟨t, ht, hneeds, rfl⟩ := hR.1 hx
  cases hf : (g.stageLabels t.stage.root).isForeignRoot i with
  | false => exact ⟨t, hneeds, ((hrealized t ht).mem_nodes i).2 ⟨hi, hf⟩⟩
  | true =>
    -- the root of a stage has its code there
    obtain ⟨u, hu, hneeds, rfl⟩ := hR.1 (hclosed _ hx i (List.mem_filter.2 ⟨hi, hf⟩))
    exact ⟨u, hneeds, ((hrealized u hu).mem_nodes _).2
      ⟨Graph.root_mem_discovered (lt_of_mem_reach hi), Graph.isForeignRoot_root⟩⟩

end Realized

/-- The stages of a compilation are ordered, and each realizes its root, a node. -/
theorem Graph.Built.compile_ordered (hg : g.Built) {id : NodeId} {options : Options}
    (h : g.compile id options = .ok c) : c.Ordered ∧
      ∀ s ∈ c.stages, g.Realizes s.stage.root s ∧ s.stage.root < g.nodes.size := by
  obtain ⟨⟨-, hlt, -⟩, -, roots, hroots, hbuilt⟩ := hg.compile_realizes h
  obtain ⟨hio, -, hothers⟩ := stageRoots_spec hg.consistent hlt hroots
  have hmap : c.stages.map (·.stage.root) = roots := by
    rw [← List.forall₂_eq_eq_eq, List.forall₂_map_left_iff]
    exact (hbuilt.imp fun _ _ h => h.root).flip
  have hrealized : ∀ s ∈ c.stages, g.Realizes s.stage.root s := by
    intro s hs
    obtain ⟨r, -, hr⟩ := exists_of_mem_right hbuilt hs
    rw [hr.root]
    exact hr
  refine ⟨⟨hmap ▸ hio.nodup, fun A s B hAB d hd => ?_⟩, fun s hs => ⟨hrealized s hs, ?_⟩⟩
  · have hs : s ∈ c.stages := by
      rw [hAB]
      simp
    have hsplit : roots = A.map (·.stage.root) ++ s.stage.root :: B.map (·.stage.root) := by
      rw [← hmap, hAB, List.map_append, List.map_cons]
    exact List.mem_map.1 (hio.before _ _ _ hsplit d (((hrealized s hs).mem d).1 hd))
  · by_cases hne : s.stage.root = c.root
    · rw [hne]
      exact hlt
    · have hmem : s.stage.root ∈ roots := hmap ▸ List.mem_map.2 ⟨s, hs, rfl⟩
      obtain ⟨n, hn, -⟩ := Option.map_eq_some_iff.1 ((hothers _ hne).1 hmem).1
      exact (Array.getElem?_eq_some_iff.1 hn).1

/-- **The domains of stages.**  The domain of a stage is the union of those of the nodes that it and
the stages it samples, near or far, have code for: a flag is set if and only if some node that
introduces it leads to the root of the stage along live edges. -/
theorem Graph.Built.compile_domain (hg : g.Built) {id : NodeId} {options : Options}
    (h : g.compile id options = .ok c) : ∀ s ∈ c.stages, ∀ k,
      (s.stage.domain.has k = true ↔
        ∃ t, c.Needs s t ∧ ∃ i ∈ t.stage.nodes, g.Introduces i k) ∧
      (s.stage.domain.has k = true ↔ ∃ i, g.Introduces i k ∧ g.Leads i s.stage.root) := by
  intro s hs k
  obtain ⟨hordered, hbuilt⟩ := hg.compile_ordered h
  have hrealized : ∀ s ∈ c.stages, g.Realizes s.stage.root s := fun s hs => (hbuilt s hs).1
  have hiff := hordered.domain_iff (compile_sums h) hs (k := k)
  refine ⟨hiff, hiff.trans ⟨?_, ?_⟩⟩
  · rintro ⟨t, hneeds, i, hi, hk⟩
    have hmem := ((hrealized t (hneeds.mem hs)).mem_nodes i).1 hi
    exact ⟨i, hk, (leads_of_discovered hg.consistent hmem.1).1.trans
      (hneeds.leads hg.consistent hrealized hs)⟩
  · rintro ⟨i, hk, hlead⟩
    obtain ⟨t, hneeds, hi⟩ :=
      Compilation.exists_needed hg.consistent hordered hrealized hs (hbuilt s hs).2 hlead
    exact ⟨t, hneeds, i, hi, hk⟩

/-- The time leads to the output that shows the field it fills. -/
theorem FieldExample.leads_time : FieldExample.graph.Leads 0 3 := by
  have hlive : ∀ i < 3, FieldExample.graph.LiveEdge i (i + 1) := by
    have hproducers : ∀ i < 3, i ∈ (FieldExample.graph.stageLabels (i + 1)).producers (i + 1) := by
      decide +kernel
    exact fun i hi => (Graph.mem_producers.1 (hproducers i hi)).2
  exact .head (hlive 0 (by decide)) (.head (hlive 1 (by decide)) (.single (hlive 2 (by decide))))

/-- The output shows a field of the time, so it varies with the time, and with nothing else. -/
theorem Graph.compile_domain_field :
    ∃ c, FieldExample.graph.compile (Uuid.ofBytes [4]) ⟨false, 0⟩ = .ok c ∧
      ∃ s ∈ c.stages, s.stage.root = 3 ∧ ∀ k, s.stage.domain.has k = true ↔ k = 0 := by
  obtain ⟨c, hcompile, hroots⟩ := FieldExample.compiles
  have hmem : 3 ∈ c.stages.map (·.stage.root) := by
    rw [show c.stages.map (·.stage.root) = [1, 3] from hroots]
    decide
  obtain ⟨s, hs, hroot⟩ := List.mem_map.1 hmem
  refine ⟨c, hcompile, s, hs, hroot, fun k => ?_⟩
  rw [((Built.grown _).compile_domain hcompile s hs k).2]
  constructor
  · rintro ⟨i, ⟨n, hn, hk⟩, -⟩
    have hall : ∀ n ∈ FieldExample.graph.nodes.toList,
        n.domain = .constant ∨ n.domain = .timeVarying := by decide +kernel
    rcases hall n (Array.mem_toList_iff.2 (Array.mem_of_getElem? hn)) with hd | hd
    · simp [hd] at hk
    · rw [hd, Domain.has, Domain.timeVarying] at hk
      have hlt := BitVec.lt_of_getLsbD hk
      revert hk
      interval_cases k <;> decide
  · rintro rfl
    refine ⟨0, ⟨_, rfl, by decide⟩, ?_⟩
    rw [hroot]
    exact FieldExample.leads_time

end NodeShader
