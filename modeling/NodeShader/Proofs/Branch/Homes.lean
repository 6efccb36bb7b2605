import NodeShader.Branch.Labels
import NodeShader.Proofs.Graph.Reaching
import NodeShader.Proofs.Graph.Wiring

/-!
# Where nodes are evaluated

The home of a node is the arm it is evaluated in, or none for the shared part.  Tags spread along
ordinary inputs, so a node has all tags of what it feeds that way (`tags_ordinary`), and what feeds an
arm has the tag of the arm (`tags_arm`).  From this:

* `home_ordinary`: what feeds a node through an ordinary input is shared or has the same home.
* `home_arm`: what feeds an arm is shared or has that arm as its home, and is shared if the branch is
  folded.
-/

namespace NodeShader

theorem nodup_eraseDups {α : Type} [BEq α] [LawfulBEq α] (l : List α) : l.eraseDups.Nodup := by
  generalize hn : l.length = k
  induction k using Nat.strongRecOn generalizing l with
  | ind k ih =>
    cases l with
    | nil => exact List.nodup_nil
    | cons a l =>
      rw [List.eraseDups_cons, List.nodup_cons]
      subst hn
      refine ⟨?_, ih _ ?_ _ rfl⟩
      · rw [List.mem_eraseDups, List.mem_filter]
        simp
      · exact Nat.lt_succ_of_le (List.length_filter_le _ _)

namespace Labels

variable {l : Labels} {i j : Nat} {f : Feed} {t : Tag}

/-- The tags of the node at a position. -/
def tagsAt (l : Labels) (i : Nat) : List Tag := l.tags.getD i []

/-- **The home of a node.** -/
def home (l : Labels) (i : Nat) : Option Tag := l.home? (l.tagsAt i)

theorem mem_nodes : i ∈ l.nodes ↔ i ∈ l.discovered := by
  rw [nodes, List.mem_filter, List.mem_range]
  constructor
  · intro h
    simpa using h.2
  · intro h
    exact ⟨lt_of_mem_reach h, by simpa using h⟩

theorem lt_of_mem_nodes (h : i ∈ l.nodes) : i < l.graph.nodes.size :=
  lt_of_mem_reach (mem_nodes.1 h)

theorem exists_node (h : i ∈ l.nodes) : ∃ n, l.graph.nodes[i]? = some n :=
  ⟨_, Array.getElem?_eq_getElem (lt_of_mem_nodes h)⟩

theorem nodup_nodes : l.nodes.Nodup := List.nodup_range.filter _

/-- What a feed is: a needed input of a node that is not the root of another stage. -/
theorem mem_feeds : f ∈ l.feeds i ↔ ∃ n q p, l.node? i = some n ∧ l.isForeignRoot i = false ∧
    q ∈ n.inputs ∧ l.graph.producerPosition? q = some f.producer ∧ l.graph.port? q = some p ∧
    p.arm = f.arm ∧ l.needs i p.arm = true := by
  rw [feeds]
  cases hn : l.node? i with
  | none => simp
  | some n =>
    by_cases hf : l.isForeignRoot i = true
    · simp [hf]
    · rw [Bool.not_eq_true] at hf
      simp only [hf, Bool.false_eq_true, if_false, List.mem_filterMap]
      constructor
      · rintro ⟨q, hq, h⟩
        simp only [Option.bind_eq_bind, Option.bind_eq_some_iff] at h
        obtain ⟨k, hk, p, hp, h⟩ := h
        split at h
        · rename_i hneeds
          cases h
          exact ⟨n, q, p, rfl, trivial, hq, hk, hp, rfl, hneeds⟩
        · cases h
      · rintro ⟨n', q, p, hn', -, hq, hk, hp, ha, hneeds⟩
        cases hn'
        refine ⟨q, hq, ?_⟩
        rw [hk, Option.bind_eq_bind, Option.bind_some, hp, Option.bind_eq_bind, Option.bind_some,
          if_pos hneeds, ha]

theorem producer_lt (h : f ∈ l.feeds i) : f.producer < l.graph.nodes.size := by
  obtain ⟨n, q, p, -, -, -, hk, -⟩ := mem_feeds.1 h
  rw [Graph.producerPosition?, Option.bind_eq_some_iff] at hk
  obtain ⟨out, -, ho⟩ := hk
  rw [Graph.ownerPosition?, Option.bind_eq_bind, Option.bind_eq_some_iff] at ho
  obtain ⟨po, -, ho⟩ := ho
  dsimp only at ho
  split at ho
  · rename_i hlt
    rw [← Option.some.inj ho]
    exact hlt.2
  · cases ho

/-- A stage needs what its nodes need. -/
theorem producer_mem_nodes (hi : i ∈ l.nodes) (hf : f ∈ l.feeds i) : f.producer ∈ l.nodes := by
  rw [mem_nodes] at hi ⊢
  exact reach_closed hi (List.mem_map_of_mem hf) (producer_lt hf)

/-! ### Tags -/

theorem mem_tagsAt : t ∈ l.tagsAt i ↔ i < l.graph.nodes.size ∧
    ∃ S, (t, S) ∈ l.tagged ∧ i ∈ S := by
  rw [tagsAt, tags]
  by_cases hi : i < l.graph.nodes.size
  · simp only [Array.getD_eq_getD_getElem?, Array.getElem?_map, Array.getElem?_range, hi, if_true,
      Option.map_some, Option.getD_some, List.mem_mergeSort, List.mem_eraseDups, List.mem_map,
      List.mem_filter, true_and]
    constructor
    · rintro ⟨⟨t', S⟩, ⟨hm, hS⟩, rfl⟩
      exact ⟨S, hm, by simpa using hS⟩
    · rintro ⟨S, hm, hS⟩
      exact ⟨(t, S), ⟨hm, by simpa using hS⟩, rfl⟩
  · simp [Array.getD_eq_getD_getElem?, hi]

theorem nodup_tagsAt (l : Labels) (i : Nat) : (l.tagsAt i).Nodup := by
  rw [tagsAt, tags]
  by_cases hi : i < l.graph.nodes.size
  · simp only [Array.getD_eq_getD_getElem?, Array.getElem?_map, Array.getElem?_range, hi, if_true,
      Option.map_some, Option.getD_some]
    exact (List.mergeSort_perm _ _).nodup_iff.2 (nodup_eraseDups _)
  · simp [Array.getD_eq_getD_getElem?, hi]

/-- The tags there are: that of the root, and one for each needed arm. -/
theorem mem_tagged {S : List Nat} : (t, S) ∈ l.tagged ↔
    (t = ⟨l.root, rootArm⟩ ∧ S = l.spread [l.root]) ∨
      ∃ i ∈ l.nodes, ∃ f ∈ l.feeds i, 0 ≤ f.arm ∧ t = ⟨i, f.arm⟩ ∧ S = l.spread [f.producer] := by
  rw [tagged]
  simp only [List.mem_cons, Prod.mk.injEq, List.mem_map, List.mem_flatMap, List.mem_filter]
  constructor
  · rintro (h | ⟨⟨t', k⟩, ⟨i, hi, f, ⟨hf, ha⟩, he⟩, rfl, rfl⟩)
    · exact .inl h
    · cases he
      exact .inr ⟨i, hi, f, hf, by simpa using ha, rfl, rfl⟩
  · rintro (h | ⟨i, hi, f, hf, ha, rfl, rfl⟩)
    · exact .inl h
    · exact .inr ⟨(⟨i, f.arm⟩, f.producer), ⟨i, hi, f, ⟨hf, by simpa using ha⟩, rfl⟩, rfl, rfl⟩

/-- **Tags spread along ordinary inputs.** -/
theorem tags_ordinary (hf : f ∈ l.feeds i) (ha : f.arm < 0) (ht : t ∈ l.tagsAt i) :
    t ∈ l.tagsAt f.producer := by
  rw [mem_tagsAt] at ht ⊢
  obtain ⟨hi, S, hS, hiS⟩ := ht
  have hord : f.producer ∈ l.ordinary i :=
    List.mem_map_of_mem (List.mem_filter.2 ⟨hf, by simpa using ha⟩)
  refine ⟨producer_lt hf, S, hS, ?_⟩
  rcases mem_tagged.1 hS with ⟨-, rfl⟩ | ⟨k, -, f', -, -, -, rfl⟩
  · exact reach_closed hiS hord (producer_lt hf)
  · exact reach_closed hiS hord (producer_lt hf)

/-- **What feeds an arm has the tag of the arm.** -/
theorem tags_arm (hi : i ∈ l.nodes) (hf : f ∈ l.feeds i) (ha : 0 ≤ f.arm) :
    ⟨i, f.arm⟩ ∈ l.tagsAt f.producer := by
  rw [mem_tagsAt]
  exact ⟨producer_lt hf, l.spread [f.producer], mem_tagged.2 (.inr ⟨i, hi, f, hf, ha, rfl, rfl⟩),
    start_mem_reach List.mem_cons_self (producer_lt hf)⟩

/-- Every node of a stage has a tag. -/
theorem exists_tag (hi : i ∈ l.nodes) : ∃ t, t ∈ l.tagsAt i := by
  have h : i ∈ l.nodes ∧ ∃ t, t ∈ l.tagsAt i := by
    refine reach_induction (P := fun i => i ∈ l.nodes ∧ ∃ t, t ∈ l.tagsAt i) ?_ ?_ (mem_nodes.1 hi)
    · intro s hs hlt
      rw [List.mem_singleton] at hs
      subst hs
      refine ⟨mem_nodes.2 (start_mem_reach List.mem_cons_self hlt), ⟨l.root, rootArm⟩, ?_⟩
      rw [mem_tagsAt]
      exact ⟨hlt, l.spread [l.root], mem_tagged.2 (.inl ⟨rfl, rfl⟩),
        start_mem_reach List.mem_cons_self hlt⟩
    · rintro k ⟨hk, t, ht⟩ j hj -
      obtain ⟨f, hf, rfl⟩ := List.mem_map.1 hj
      refine ⟨producer_mem_nodes hk hf, ?_⟩
      by_cases ha : f.arm < 0
      · exact ⟨t, tags_ordinary hf ha ht⟩
      · exact ⟨_, tags_arm hk hf (by omega)⟩
  exact h.2

/-! ### Homes -/

/-- The order of its tags makes no difference to the home of a node. -/
theorem home?_perm {tags tags' : List Tag} (h : tags.Perm tags') : l.home? tags = l.home? tags' := by
  match tags with
  | [] => rw [h.nil_eq]
  | [t] => rw [List.singleton_perm.1 h]
  | t :: u :: tags =>
    match tags', h.length_eq with
    | _ :: _ :: _, _ => rfl

/-- A node with a home has that arm as its only tag, and the branch is not folded. -/
theorem home_eq_some : l.home i = some t ↔
    l.tagsAt i = [t] ∧ t.isArm = true ∧ l.liveArm t.node = none := by
  unfold home home?
  split
  · rename_i tag htag
    rw [htag]
    split
    · rename_i hc
      rw [Bool.and_eq_true, Option.isNone_iff_eq_none] at hc
      constructor
      · intro h
        cases h
        exact ⟨rfl, hc⟩
      · rintro ⟨h, -⟩
        cases h
        rfl
    · rename_i hc
      refine ⟨fun h => (by cases h), ?_⟩
      rintro ⟨h, ht, hl⟩
      cases h
      simp [ht, hl] at hc
  · rename_i hne
    refine ⟨fun h => (by cases h), ?_⟩
    rintro ⟨h, -⟩
    exact absurd h (hne t)

/-- A node with the tag has it as its home, or none. -/
theorem home_of_mem (ht : t ∈ l.tagsAt i) : l.home i = none ∨ l.home i = some t := by
  cases h : l.home i with
  | none => exact .inl rfl
  | some t' =>
    rw [(home_eq_some.1 h).1, List.mem_singleton] at ht
    rw [ht]
    exact .inr rfl

/-- The root is shared. -/
theorem home_root (l : Labels) : l.home l.root = none := by
  cases h : l.home l.root with
  | none => rfl
  | some t =>
    obtain ⟨htags, harm, -⟩ := home_eq_some.1 h
    have ht : t ∈ l.tagsAt l.root := by
      rw [htags]
      exact List.mem_singleton_self t
    have hlt := (mem_tagsAt.1 ht).1
    have hroot : ⟨l.root, rootArm⟩ ∈ l.tagsAt l.root := by
      rw [mem_tagsAt]
      exact ⟨hlt, _, mem_tagged.2 (.inl ⟨rfl, rfl⟩), start_mem_reach List.mem_cons_self hlt⟩
    rw [htags, List.mem_singleton] at hroot
    subst hroot
    cases harm

/-- **What feeds a node through an ordinary input is shared or has the same home.** -/
theorem home_ordinary (hi : i ∈ l.nodes) (hf : f ∈ l.feeds i) (ha : f.arm < 0) :
    l.home f.producer = none ∨ l.home f.producer = l.home i := by
  cases h : l.home i with
  | some t =>
    refine home_of_mem (tags_ordinary hf ha ?_)
    rw [(home_eq_some.1 h).1]
    exact List.mem_singleton_self t
  | none =>
    cases hp : l.home f.producer with
    | none => exact .inl rfl
    | some t =>
      -- then the producer has one tag, so the node has the same one, and the same home
      obtain ⟨htags, harm, hlive⟩ := home_eq_some.1 hp
      have hall : ∀ t' ∈ l.tagsAt i, t' = t := fun t' ht' => by
        have := tags_ordinary hf ha ht'
        rwa [htags, List.mem_singleton] at this
      obtain ⟨t', ht'⟩ := exists_tag hi
      have hone : l.tagsAt i = [t] := by
        have hnd := nodup_tagsAt l i
        generalize l.tagsAt i = L at *
        match L, ht', hall, hnd with
        | [a], _, hall, _ => rw [hall a List.mem_cons_self]
        | a :: b :: L, _, hall, hnd =>
          rw [List.nodup_cons] at hnd
          exact absurd (by simp [hall a (by simp), hall b (by simp)]) hnd.1
      have := home_eq_some.2 ⟨hone, harm, hlive⟩
      rw [h] at this
      cases this

/-- **What feeds an arm is shared or has that arm as its home**, and is shared if the branch is
folded. -/
theorem home_arm (hi : i ∈ l.nodes) (hf : f ∈ l.feeds i) (ha : 0 ≤ f.arm) :
    l.home f.producer = none ∨ l.home f.producer = some ⟨i, f.arm⟩ ∧ l.liveArm i = none := by
  rcases home_of_mem (tags_arm hi hf ha) with h | h
  · exact .inl h
  · exact .inr ⟨h, (home_eq_some.1 h).2.2⟩

/-- A node with a home feeds the arm: what holds of the producer of the arm, and of ordinary
producers of what it holds of, holds of it. -/
theorem home_induction {P : Nat → Prop} (h : l.home j = some t)
    (harm : t.node ∈ l.nodes → ∀ f ∈ l.feeds t.node, f.arm = t.arm → P f.producer)
    (hord : ∀ k, P k → ∀ f ∈ l.feeds k, f.arm < 0 → P f.producer) :
    t.node ∈ l.nodes ∧ (∃ f ∈ l.feeds t.node, f.arm = t.arm) ∧ P j := by
  obtain ⟨htags, hisArm, -⟩ := home_eq_some.1 h
  have hmem : t ∈ l.tagsAt j := by rw [htags]; exact List.mem_singleton_self t
  rw [mem_tagsAt] at hmem
  obtain ⟨-, S, hS, hjS⟩ := hmem
  rcases mem_tagged.1 hS with ⟨rfl, -⟩ | ⟨i, hi, f, hf, ha, rfl, rfl⟩
  · cases hisArm
  · refine ⟨hi, ⟨f, hf, rfl⟩, reach_induction ?_ ?_ hjS⟩
    · intro s hs _
      rw [List.mem_singleton] at hs
      subst hs
      exact harm hi f hf rfl
    · intro k hk m hm _
      obtain ⟨f', hf', rfl⟩ := List.mem_map.1 hm
      rw [List.mem_filter] at hf'
      exact hord k hk f' hf'.1 (by simpa using hf'.2)

end Labels

end NodeShader
