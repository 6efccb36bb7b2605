import Mathlib
import NodeShader.Branch.Labelling
import NodeShader.Proofs.Branch.Regions

/-!
# What the labels of a stage say

The walk gives a node another turn whenever it gains a tag, and reads tags while they grow.  What it
leaves is the least family of tags that is closed under passing on (`Labels.Carries`): every tag it
gives is carried (`Labelled.sound`), and a node that does not wait has all its feeds served
(`Labelled.served`), so at the end nothing is left to pass.

* `Labels.mem_tagsAt_label`: **the walk finds the carried tags.**
* `Labels.Carries.path`: a tag is carried along a path of ordinary inputs in use.
* `Graph.Built.label_charted`: **what the labels say**, by paths of the graph.
-/

namespace NodeShader

namespace Labels

variable {l : Labels} {s : Labelling} {i j k : Nat} {t : Tag} {f : Feed} {carried : List Tag}

/-! ### Inputs in use -/

/-- **An input of a node**: it starts arm `arm` (a negative number: none), and the node at `j` feeds
it. -/
def Takes (l : Labels) (i : Nat) (arm : Int) (j : Nat) : Prop :=
  ∃ n q p, l.graph.nodes[i]? = some n ∧ q ∈ n.inputs ∧ l.graph.port? q = some p ∧ p.arm = arm ∧
    l.graph.producerPosition? q = some j

/-- **An input in use**: the root of another stage uses none of its inputs, and a conditional with a
live arm uses that arm alone. -/
structure Uses (l : Labels) (i : Nat) (arm : Int) (j : Nat) : Prop where
  takes : l.Takes i arm j
  ownStage : l.isStageRoot i = true → i = l.root
  live : l.isBranching i = true → ∀ a, l.live i = some a → arm = a

/-- A node uses what another gives through an ordinary input. -/
def Passes (l : Labels) (i j : Nat) : Prop := ∃ arm < 0, l.Uses i arm j

/-- The live arms of branching nodes are arms of theirs. -/
def ChoosesArms (l : Labels) : Prop :=
  ∀ i a, l.isBranching i = true → l.live i = some a → 0 ≤ a ∧ ∃ n q p,
    l.graph.nodes[i]? = some n ∧ q ∈ n.inputs ∧ l.graph.port? q = some p ∧ p.arm = a

theorem isForeignRoot_eq_false_iff :
    l.isForeignRoot i = false ↔ (l.isStageRoot i = true → i = l.root) := by
  rw [isForeignRoot, isStageRoot, Bool.and_eq_false_iff, bne_eq_false_iff_eq]
  constructor
  · rintro (h | h) hr
    · exact h
    · rw [h] at hr
      cases hr
  · intro h
    cases hr : ((l.node? i).map (·.kind.isRoot)).getD false with
    | false => exact .inr rfl
    | true => exact .inl (h hr)

theorem liveArm_eq (l : Labels) (i : Nat) :
    l.liveArm i = if l.isBranching i = true then l.live i else none := by
  rw [liveArm, isBranching]
  cases l.node? i with
  | none => rfl
  | some n => rfl

/-- A node needs the inputs in use. -/
theorem needs_iff (hl : l.ChoosesArms) {arm : Int} : l.needs i arm = true ↔
    (l.isBranching i = true → ∀ a, l.live i = some a → arm = a) := by
  rw [needs, liveArm_eq]
  by_cases hb : l.isBranching i = true
  · rw [if_pos hb]
    cases ha : l.live i with
    | none => simp
    | some a =>
      have hpos : ¬ a < 0 := Int.not_lt.2 (hl i a hb ha).1
      simp [hpos, hb]
  · rw [if_neg hb]
    simp [hb]

/-- **The feeds of a node are its inputs in use.** -/
theorem mem_feeds_iff (hl : l.ChoosesArms) : f ∈ l.feeds i ↔ l.Uses i f.arm f.producer := by
  rw [mem_feeds]
  constructor
  · rintro ⟨n, q, p, hn, hroot, hq, hk, hp, ha, hneeds⟩
    exact ⟨⟨n, q, p, hn, hq, hp, ha, hk⟩, isForeignRoot_eq_false_iff.1 hroot,
      (needs_iff hl).1 (ha ▸ hneeds)⟩
  · rintro ⟨⟨n, q, p, hn, hq, hp, ha, hk⟩, hroot, hlive⟩
    exact ⟨n, q, p, hn, isForeignRoot_eq_false_iff.2 hroot, hq, hk, hp, ha,
      (needs_iff hl).2 (ha ▸ hlive)⟩

/-! ### Tags that are carried -/

/-- **A node carries a tag**: the root its own, what feeds an arm that of the arm, and what feeds an
ordinary input those of the node it feeds. -/
inductive Carries (l : Labels) : Tag → Nat → Prop
  | root (h : l.root < l.graph.nodes.size) : l.Carries ⟨l.root, rootArm⟩ l.root
  | arm {t : Tag} {i : Nat} {f : Feed} (h : l.Carries t i) (hf : f ∈ l.feeds i) (ha : 0 ≤ f.arm) :
      l.Carries ⟨i, f.arm⟩ f.producer
  | ordinary {t : Tag} {i : Nat} {f : Feed} (h : l.Carries t i) (hf : f ∈ l.feeds i)
      (ha : f.arm < 0) : l.Carries t f.producer

theorem Carries.lt (h : l.Carries t i) : i < l.graph.nodes.size := by
  cases h with
  | root h => exact h
  | arm _ hf _ => exact producer_lt hf
  | ordinary _ hf _ => exact producer_lt hf

theorem Carries.mem_nodes (h : l.Carries t i) : i ∈ l.nodes := by
  induction h with
  | root h => exact Labels.mem_nodes.2 (start_mem_reach List.mem_cons_self h)
  | arm _ hf _ ih => exact producer_mem_nodes ih hf
  | ordinary _ hf _ ih => exact producer_mem_nodes ih hf

/-- What a tag spreads to carries it. -/
theorem carries_of_mem_spread {start : Nat} (h : i ∈ l.spread [start]) (hs : l.Carries t start) :
    l.Carries t i := by
  refine reach_induction ?_ ?_ h
  · intro s hm _
    rwa [List.mem_singleton.1 hm]
  · intro k hk j hj _
    obtain ⟨f, hf, rfl⟩ := List.mem_map.1 hj
    rw [List.mem_filter] at hf
    exact .ordinary hk hf.1 (by simpa using hf.2)

/-- Every node of a stage carries a tag. -/
theorem exists_carries (h : i ∈ l.nodes) : ∃ t, l.Carries t i := by
  refine reach_induction (P := fun i => ∃ t, l.Carries t i) ?_ ?_ (Labels.mem_nodes.1 h)
  · intro s hs hlt
    rw [List.mem_singleton] at hs
    subst hs
    exact ⟨_, .root hlt⟩
  · rintro k ⟨t, ht⟩ j hj -
    obtain ⟨f, hf, rfl⟩ := List.mem_map.1 hj
    by_cases ha : f.arm < 0
    · exact ⟨t, ht.ordinary hf ha⟩
    · exact ⟨_, ht.arm hf (by omega)⟩

/-- **The tags that spread from where they start are the tags that are carried.** -/
theorem mem_tagsAt_iff_carries : t ∈ l.tagsAt i ↔ l.Carries t i := by
  constructor
  · intro h
    obtain ⟨hi, S, hS, hiS⟩ := mem_tagsAt.1 h
    rcases mem_tagged.1 hS with ⟨rfl, rfl⟩ | ⟨k, hk, f, hf, ha, rfl, rfl⟩
    · have hroot : l.root < l.graph.nodes.size := by
        by_contra hout
        have hnone : ∀ j ∈ l.spread [l.root], False := fun j hj =>
          reach_induction (P := fun _ => False)
            (fun s hs hlt => by rw [List.mem_singleton.1 hs] at hlt; exact hout hlt)
            (fun _ h _ _ _ => h) hj
        exact hnone i hiS
      exact carries_of_mem_spread hiS (.root hroot)
    · obtain ⟨t, ht⟩ := exists_carries hk
      exact carries_of_mem_spread hiS (ht.arm hf ha)
  · intro h
    induction h with
    | root h =>
      exact mem_tagsAt.2 ⟨h, _, mem_tagged.2 (.inl ⟨rfl, rfl⟩), start_mem_reach List.mem_cons_self h⟩
    | arm h hf ha _ => exact tags_arm h.mem_nodes hf ha
    | ordinary _ hf ha ih => exact tags_ordinary hf ha ih

/-! ### One turn of the walk -/

theorem mem_tagsAt_give : t ∈ (l.give s j carried).tagsAt i ↔
    t ∈ s.tagsAt i ∨ i = j ∧ j < s.tags.size ∧ t ∈ carried := by
  rw [tagsAt_give]
  by_cases h : i = j ∧ j < s.tags.size
  · rw [if_pos h, h.1, List.mem_append, List.mem_filter]
    by_cases ht : t ∈ s.tagsAt j
    · simp [ht]
    · simp [ht, h.2]
  · rw [if_neg h]
    exact ⟨.inl, fun hm => hm.resolve_right fun hm => h ⟨hm.1, hm.2.1⟩⟩

theorem nodup_tagsAt_give (hs : (s.tagsAt j).Nodup) (hc : carried.Nodup) (hi : (s.tagsAt i).Nodup) :
    ((l.give s j carried).tagsAt i).Nodup := by
  rw [tagsAt_give]
  split
  · refine List.nodup_append.2 ⟨hs, hc.filter _, ?_⟩
    rintro t ht u hu rfl
    have := (List.mem_filter.1 hu).2
    simp [ht] at this
  · exact hi

/-- A node that gains a tag waits, and no node stops waiting. -/
theorem queue_give : (∀ k ∈ s.queue, k ∈ (l.give s j carried).queue) ∧
    (∀ k ∈ (l.give s j carried).queue, k ∈ s.queue ∨ (l.give s j carried).tagsAt k ≠ []) ∧
    ∀ k, (l.give s j carried).tagsAt k = s.tagsAt k ∨ k ∈ (l.give s j carried).queue := by
  rw [give]
  split
  · exact ⟨fun _ h => h, fun _ h => .inl h, fun _ => .inl rfl⟩
  · rename_i held hj
    split
    · exact ⟨fun _ h => h, fun _ h => .inl h, fun _ => .inl rfl⟩
    · rename_i t gained hgained
      have hlt := (Array.getElem?_eq_some_iff.1 hj).1
      refine ⟨fun k hk => List.mem_append_left _ hk, fun k hk => ?_, fun k => ?_⟩
      · refine (List.mem_append.1 hk).imp_right fun hk => ?_
        rw [List.mem_singleton.1 hk, Labelling.tagsAt, getD_setIfInBounds, if_pos ⟨rfl, hlt⟩]
        simp
      · by_cases hk : k = j
        · exact .inr (List.mem_append_right _ (List.mem_singleton.2 hk))
        · refine .inl ?_
          rw [Labelling.tagsAt, getD_setIfInBounds, if_neg fun h => hk h.1]
          rfl

theorem size_tags_give : (l.give s j carried).tags.size = s.tags.size := by
  rw [give]
  split
  · rfl
  · split
    · rfl
    · exact Array.size_setIfInBounds

theorem folded_give : (l.give s j carried).folded = s.folded := by
  rw [give]
  split
  · rfl
  · split <;> rfl

/-- The root of a stage is noted when it is met. -/
theorem boundaries_give :
    (l.give s j carried).boundaries = s.boundaries ∧
        (s.tagsAt j = [] → (l.give s j carried).tagsAt j ≠ [] → l.isStageRoot j = false) ∨
      (l.give s j carried).boundaries = s.boundaries ++ [j] ∧ s.tagsAt j = [] ∧
        (l.give s j carried).tagsAt j ≠ [] ∧ l.isStageRoot j = true := by
  rw [give]
  split
  · exact .inl ⟨rfl, fun h hn => absurd h hn⟩
  · rename_i held hj
    have hheld : s.tagsAt j = held := by
      rw [Labelling.tagsAt, Array.getD_eq_getD_getElem?, hj, Option.getD_some]
    split
    · exact .inl ⟨rfl, fun h hn => absurd h hn⟩
    · rename_i t gained hgained
      have hlt := (Array.getElem?_eq_some_iff.1 hj).1
      have hnow : (s.tags.setIfInBounds j (held ++ t :: gained)).getD j [] ≠ [] := by
        rw [getD_setIfInBounds, if_pos ⟨rfl, hlt⟩]
        simp
      rw [hheld]
      cases hr : l.isStageRoot j with
      | false => exact .inl ⟨by simp, fun _ _ => rfl⟩
      | true =>
        cases held with
        | nil => exact .inr ⟨by simp, rfl, hnow, rfl⟩
        | cons u held => exact .inl ⟨by simp, fun h => by cases h⟩

/-! ### The walk -/

/-- **A feed is served**: its tag, or else the tags of the node, are among those of its producer. -/
def Serves (s : Labelling) (i : Nat) (f : Feed) : Prop :=
  ∀ t ∈ if 0 ≤ f.arm then [⟨i, f.arm⟩] else s.tagsAt i, t ∈ s.tagsAt f.producer

/-- **What holds while a stage is labelled.**  Of a node that does not wait, every feed is served,
unless the node has its turn and the feed is still to be served. -/
structure Labelled (l : Labels) (s : Labelling) (todo : List (Nat × Feed)) : Prop where
  size : s.tags.size = l.graph.nodes.size
  root : ⟨l.root, rootArm⟩ ∈ s.tagsAt l.root
  sound : ∀ i, ∀ t ∈ s.tagsAt i, l.Carries t i
  nodup : ∀ i, (s.tagsAt i).Nodup
  met : ∀ i ∈ s.queue, s.tagsAt i ≠ []
  served : ∀ i, s.tagsAt i ≠ [] → i ∉ s.queue → ∀ f ∈ l.feeds i, (i, f) ∈ todo ∨ Serves s i f
  nodup_boundaries : s.boundaries.Nodup
  boundaries : ∀ b, b ∈ s.boundaries ↔ s.tagsAt b ≠ [] ∧ l.isStageRoot b = true ∧ b ≠ l.root
  folded : ∀ i a, (i, a) ∈ s.folded → s.tagsAt i ≠ [] ∧ l.liveArm i = some a
  noted : ∀ i, s.tagsAt i ≠ [] → i ∉ s.queue → ∀ a, l.liveArm i = some a → (i, a) ∈ s.folded

theorem labelled_start (hr : l.root < l.graph.nodes.size) : l.Labelled l.start [] := by
  have htags : ∀ i, l.start.tagsAt i = if i = l.root then [⟨l.root, rootArm⟩] else [] := by
    intro i
    rw [Labelling.tagsAt, start, getD_setIfInBounds]
    by_cases hi : i = l.root
    · rw [if_pos ⟨hi, by simpa using hr⟩, if_pos hi]
    · rw [if_neg (fun h => hi h.1), if_neg hi]
      simp [Array.getD_eq_getD_getElem?, Array.getElem?_replicate]
      split <;> rfl
  have hmet : ∀ i, l.start.tagsAt i ≠ [] → i = l.root := by
    intro i hi
    by_contra hne
    rw [htags, if_neg hne] at hi
    exact hi rfl
  have hqueue : ∀ i, l.start.tagsAt i ≠ [] → i ∈ l.start.queue :=
    fun i hi => List.mem_singleton.2 (hmet i hi)
  refine ⟨by simp [start], by rw [htags, if_pos rfl]; exact List.mem_cons_self, ?_, ?_, ?_, ?_,
    List.nodup_nil, ?_, ?_, ?_⟩
  · intro i t ht
    have hi := hmet i (List.ne_nil_of_mem ht)
    subst hi
    rw [htags, if_pos rfl, List.mem_singleton] at ht
    rw [ht]
    exact .root hr
  · intro i
    rw [htags]
    split <;> simp
  · intro i hi
    rw [List.mem_singleton.1 hi, htags, if_pos rfl]
    simp
  · exact fun i hi hnot => absurd (hqueue i hi) hnot
  · exact fun b => ⟨fun hb => absurd hb List.not_mem_nil, fun hb => absurd (hmet b hb.1) hb.2.2⟩
  · exact fun i a h => absurd h List.not_mem_nil
  · exact fun i hi hnot => absurd (hqueue i hi) hnot

namespace Labelled

variable {todo : List (Nat × Feed)} {rest : List Nat}

/-- A node takes its turn: its live arm is noted, and all its feeds are to be served. -/
theorem turn (h : l.Labelled s []) (hq : s.queue = i :: rest) :
    l.Labelled (l.note { s with queue := rest } i) ((l.feeds i).map (i, ·)) := by
  obtain ⟨htags, hqueue, hbound⟩ := l.note_tags { s with queue := rest } i
  generalize hs' : l.note { s with queue := rest } i = s' at *
  have hat : ∀ k, s'.tagsAt k = s.tagsAt k := fun k => by rw [Labelling.tagsAt, htags]; rfl
  have hwaits : ∀ k, k ∉ s'.queue → k = i ∨ k ∉ s.queue := by
    intro k hk
    rw [hq, List.mem_cons, not_or]
    rw [hqueue] at hk
    exact (em (k = i)).imp_right fun hki => ⟨hki, hk⟩
  have hi : s.tagsAt i ≠ [] := h.met i (by rw [hq]; exact List.mem_cons_self)
  have hfolded : ∀ k a, (k, a) ∈ s'.folded ↔
      (k, a) ∈ s.folded ∨ k = i ∧ l.liveArm i = some a := by
    intro k a
    rw [← hs', note]
    split
    · rename_i hnone
      simp [hnone]
    · rename_i arm harm
      split
      · rename_i hc
        rw [List.contains_iff_mem] at hc
        refine ⟨.inl, fun hm => hm.elim id ?_⟩
        rintro ⟨rfl, ha⟩
        rw [harm] at ha
        cases ha
        exact hc
      · rw [List.mem_append, List.mem_singleton, Prod.mk.injEq, harm, Option.some.injEq, eq_comm (a := a)]
  refine ⟨by rw [htags]; exact h.size, by rw [hat]; exact h.root, ?_, ?_, ?_, ?_,
    by rw [hbound]; exact h.nodup_boundaries, ?_, ?_, ?_⟩
  · intro k t ht
    rw [hat] at ht
    exact h.sound k t ht
  · intro k
    rw [hat]
    exact h.nodup k
  · intro k hk
    rw [hat]
    rw [hqueue] at hk
    exact h.met k (by rw [hq]; exact List.mem_cons_of_mem i hk)
  · intro k hk hnot f hf
    rw [hat] at hk
    rcases hwaits k hnot with rfl | hks
    · exact .inl (List.mem_map_of_mem hf)
    · refine .inr fun t ht => ?_
      rw [hat] at ht ⊢
      exact ((h.served k hk hks f hf).resolve_left List.not_mem_nil) t ht
  · intro b
    rw [hbound, hat]
    exact h.boundaries b
  · intro k a hka
    rw [hat]
    rcases (hfolded k a).1 hka with hka | ⟨rfl, ha⟩
    · exact h.folded k a hka
    · exact ⟨hi, ha⟩
  · intro k hk hnot a ha
    rw [hat] at hk
    rw [hfolded]
    rcases hwaits k hnot with rfl | hks
    · exact .inr ⟨rfl, ha⟩
    · exact .inl (h.noted k hk hks a ha)

/-- **One feed is served**, and what was served before still is: a node whose tags have grown waits
again. -/
theorem pass (h : l.Labelled s ((i, f) :: todo)) (hf : f ∈ l.feeds i) (hi : s.tagsAt i ≠ []) :
    l.Labelled (l.pass i s f) todo ∧ (l.pass i s f).tagsAt i ≠ [] := by
  obtain ⟨t₀, ht₀⟩ := List.exists_mem_of_ne_nil _ hi
  have hcarries : l.Carries t₀ i := h.sound i t₀ ht₀
  have hlt : f.producer < s.tags.size := h.size ▸ producer_lt hf
  rw [Labels.pass]
  generalize hc : (if 0 ≤ f.arm then [⟨i, f.arm⟩] else s.tagsAt i) = carried
  have hcsound : ∀ t ∈ carried, l.Carries t f.producer := by
    intro t ht
    rw [← hc] at ht
    split at ht
    · rename_i ha
      rw [List.mem_singleton.1 ht]
      exact hcarries.arm hf ha
    · rename_i ha
      exact (h.sound i t ht).ordinary hf (by omega)
  have hcnodup : carried.Nodup := by
    rw [← hc]
    split
    · exact List.nodup_singleton _
    · exact h.nodup i
  obtain ⟨hwait, hmet, hgrown⟩ := @queue_give l s f.producer carried
  have hmem := fun k t => @mem_tagsAt_give l s k f.producer t carried
  have hb := @boundaries_give l s f.producer carried
  have hsize : (l.give s f.producer carried).tags.size = s.tags.size := size_tags_give
  have hfold : (l.give s f.producer carried).folded = s.folded := folded_give
  have hnodup := fun k => nodup_tagsAt_give (l := l) (h.nodup f.producer) hcnodup (h.nodup k)
  generalize l.give s f.producer carried = s' at *
  have hkeep : ∀ k, s.tagsAt k ≠ [] → s'.tagsAt k ≠ [] := by
    intro k hk
    obtain ⟨t, ht⟩ := List.exists_mem_of_ne_nil _ hk
    exact List.ne_nil_of_mem ((hmem k t).2 (.inl ht))
  have hsame : ∀ k, k ∉ s'.queue → s'.tagsAt k = s.tagsAt k ∧ k ∉ s.queue :=
    fun k hk => ⟨(hgrown k).resolve_right hk, fun hks => hk (hwait k hks)⟩
  refine ⟨⟨by rw [hsize]; exact h.size, (hmem _ _).2 (.inl h.root), ?_, hnodup, ?_, ?_, ?_, ?_, ?_, ?_⟩,
    hkeep i hi⟩
  · intro k t ht
    rcases (hmem k t).1 ht with ht | ⟨rfl, -, ht⟩
    · exact h.sound k t ht
    · exact hcsound t ht
  · exact fun k hk => (hmet k hk).elim (fun hk => hkeep k (h.met k hk)) id
  · intro k hk hnot g hg
    obtain ⟨hk', hks⟩ := hsame k hnot
    rw [hk'] at hk
    -- the feed that has just been served, or one that was served or is still to be
    rcases h.served k hk hks g hg with hm | hserved
    · rcases List.mem_cons.1 hm with he | hm
      · cases he
        refine .inr fun t ht => (hmem _ t).2 (.inr ⟨rfl, hlt, ?_⟩)
        rw [hk', hc] at ht
        exact ht
      · exact .inl hm
    · refine .inr fun t ht => (hmem _ t).2 (.inl (hserved t ?_))
      rw [hk'] at ht
      exact ht
  · rcases hb with ⟨hb, -⟩ | ⟨hb, hnone, -⟩
    · rw [hb]
      exact h.nodup_boundaries
    · rw [hb, List.nodup_append]
      refine ⟨h.nodup_boundaries, List.nodup_singleton _, ?_⟩
      rintro b hb' c hc' rfl
      rw [List.mem_singleton.1 hc'] at hb'
      exact ((h.boundaries _).1 hb').1 hnone
  · intro b
    have hother : b ≠ f.producer → (s'.tagsAt b ≠ [] ↔ s.tagsAt b ≠ []) := by
      refine fun hne => ⟨fun hb' => ?_, hkeep b⟩
      obtain ⟨t, ht⟩ := List.exists_mem_of_ne_nil _ hb'
      exact List.ne_nil_of_mem (((hmem b t).1 ht).resolve_right fun h => hne h.1)
    rcases hb with ⟨hb, hnot⟩ | ⟨hb, hnone, hnow, hroot⟩
    · rw [hb, h.boundaries b]
      refine and_congr_left fun hbr => ⟨hkeep b, fun hb' => ?_⟩
      by_cases hbp : b = f.producer
      · subst hbp
        intro hnone
        rw [hnot hnone hb'] at hbr
        exact absurd hbr.1 Bool.false_ne_true
      · exact (hother hbp).1 hb'
    · rw [hb, List.mem_append, List.mem_singleton, h.boundaries b]
      by_cases hbp : b = f.producer
      · subst hbp
        have hne : f.producer ≠ l.root := fun he => by
          rw [he] at hnone
          exact List.ne_nil_of_mem h.root hnone
        exact ⟨fun _ => ⟨hnow, hroot, hne⟩, fun _ => .inr rfl⟩
      · rw [hother hbp]
        exact ⟨fun hm => hm.resolve_right hbp, .inl⟩
  · intro k a hka
    rw [hfold] at hka
    exact ⟨hkeep k (h.folded k a hka).1, (h.folded k a hka).2⟩
  · intro k hk hnot a ha
    obtain ⟨hk', hks⟩ := hsame k hnot
    rw [hk'] at hk
    rw [hfold]
    exact h.noted k hk hks a ha

/-- All feeds of a node are served, one after the other. -/
theorem foldl_pass {fs : List Feed} (h : l.Labelled s (fs.map (i, ·))) (hfs : ∀ f ∈ fs, f ∈ l.feeds i)
    (hi : s.tagsAt i ≠ []) : l.Labelled (fs.foldl (l.pass i) s) [] := by
  induction fs generalizing s with
  | nil => exact h
  | cons f fs ih =>
    obtain ⟨hpass, hi'⟩ := h.pass (hfs f List.mem_cons_self) hi
    exact ih hpass (fun g hg => hfs g (List.mem_cons_of_mem f hg)) hi'

/-- **A turn keeps what holds while a stage is labelled.** -/
theorem visit (h : l.Labelled s []) : l.Labelled (l.visit s) [] := by
  rw [Labels.visit]
  split
  · exact h
  · rename_i i rest hq
    refine (h.turn hq).foldl_pass (fun f hf => hf) ?_
    rw [Labelling.tagsAt, (l.note_tags _ i).1]
    exact h.met i (by rw [hq]; exact List.mem_cons_self)

end Labelled

/-- Labelling is turn after turn until no node waits. -/
theorem settle_spec (s : Labelling) (hs : l.Known s) :
    (∃ turns, l.visit^[turns] s = l.settle s hs) ∧ (l.settle s hs).queue = [] ∧
      (l.Labelled s [] → l.Labelled (l.settle s hs) []) := by
  fun_induction settle l s hs with
  | case1 s hs hq => exact ⟨⟨0, rfl⟩, hq, id⟩
  | case2 s hs i rest hq ih =>
    obtain ⟨⟨turns, hturns⟩, hqueue, hkeep⟩ := ih
    exact ⟨⟨turns + 1, hturns⟩, hqueue, fun h => hkeep h.visit⟩

theorem queue_label (l : Labels) : l.label.queue = [] :=
  (l.settle_spec l.start l.known_start).2.1

theorem labelled_label (hr : l.root < l.graph.nodes.size) : l.Labelled l.label [] :=
  (l.settle_spec l.start l.known_start).2.2 (labelled_start hr)

/-- **The walk ends with the carried tags** on every node. -/
theorem mem_tagsAt_label (hr : l.root < l.graph.nodes.size) :
    t ∈ l.label.tagsAt i ↔ l.Carries t i := by
  have h := labelled_label hr
  have hserved : ∀ {t i f}, t ∈ l.label.tagsAt i → f ∈ l.feeds i → Serves l.label i f := by
    intro t i f ht hf
    have hwait : i ∉ l.label.queue := by rw [queue_label]; exact List.not_mem_nil
    exact (h.served i (List.ne_nil_of_mem ht) hwait f hf).resolve_left List.not_mem_nil
  refine ⟨h.sound i t, fun hc => ?_⟩
  induction hc with
  | root => exact h.root
  | arm _ hf ha ih => exact hserved ih hf _ (by rw [if_pos ha]; exact List.mem_singleton_self _)
  | ordinary _ hf ha ih => exact hserved ih hf _ (by rw [if_neg (by omega)]; exact ih)

/-! ### Paths -/

theorem passes_iff (hl : l.ChoosesArms) : l.Passes i j ↔ ∃ f ∈ l.feeds i, f.arm < 0 ∧ f.producer = j := by
  constructor
  · rintro ⟨arm, ha, hu⟩
    exact ⟨⟨j, arm⟩, (mem_feeds_iff hl).2 hu, ha, rfl⟩
  · rintro ⟨f, hf, ha, rfl⟩
    exact ⟨f.arm, ha, (mem_feeds_iff hl).1 hf⟩

/-- Tags are carried along paths. -/
theorem Carries.along (hl : l.ChoosesArms) (h : l.Carries t i)
    (hp : Relation.ReflTransGen l.Passes i j) : l.Carries t j := by
  induction hp with
  | refl => exact h
  | tail _ hstep ih =>
    obtain ⟨f, hf, ha, rfl⟩ := (passes_iff hl).1 hstep
    exact ih.ordinary hf ha

/-- **Where a tag comes from**: the root tag from the root, the tag of an arm from what feeds the
arm. -/
theorem Carries.path (hl : l.ChoosesArms) (h : l.Carries t j) :
    t = ⟨l.root, rootArm⟩ ∧ Relation.ReflTransGen l.Passes l.root j ∨
      ∃ i k m u, t = ⟨i, k⟩ ∧ 0 ≤ k ∧ l.Carries u i ∧ l.Uses i k m ∧
        Relation.ReflTransGen l.Passes m j := by
  induction h with
  | root => exact .inl ⟨rfl, .refl⟩
  | @arm t i f h hf ha => exact .inr ⟨i, f.arm, f.producer, t, rfl, ha, h, (mem_feeds_iff hl).1 hf, .refl⟩
  | ordinary _ hf ha ih =>
    have hstep := (passes_iff hl).2 ⟨_, hf, ha, rfl⟩
    rcases ih with ⟨ht, hp⟩ | ⟨i, k, m, u, ht, hk, hu, huse, hp⟩
    · exact .inl ⟨ht, hp.tail hstep⟩
    · exact .inr ⟨i, k, m, u, ht, hk, hu, huse, hp.tail hstep⟩

theorem carries_root_iff (hl : l.ChoosesArms) (hr : l.root < l.graph.nodes.size) :
    l.Carries ⟨l.root, rootArm⟩ j ↔ Relation.ReflTransGen l.Passes l.root j := by
  constructor
  · intro h
    rcases h.path hl with ⟨-, hp⟩ | ⟨i, k, m, u, ht, hk, -⟩
    · exact hp
    · rw [← (Tag.mk.inj ht).2] at hk
      exact absurd hk (by decide)
  · exact (Carries.root hr).along hl

theorem carries_arm_iff (hl : l.ChoosesArms) {arm : Int} (ha : 0 ≤ arm) :
    l.Carries ⟨i, arm⟩ j ↔ (∃ t, l.Carries t i) ∧
      ∃ m, l.Uses i arm m ∧ Relation.ReflTransGen l.Passes m j := by
  constructor
  · intro h
    rcases h.path hl with ⟨ht, -⟩ | ⟨i', k, m, u, ht, -, hu, huse, hp⟩
    · rw [(Tag.mk.inj ht).2] at ha
      exact absurd ha (by decide)
    · cases ht
      exact ⟨⟨u, hu⟩, m, huse, hp⟩
  · rintro ⟨⟨t, ht⟩, m, huse, hp⟩
    exact (ht.arm ((mem_feeds_iff (f := ⟨m, arm⟩) hl).2 huse) ha).along hl hp

/-- Only conditionals branch. -/
theorem conditional_of_isBranching (h : l.isBranching i = true) :
    ∃ n, l.graph.nodes[i]? = some n ∧ n.kind = .conditional := by
  rw [isBranching] at h
  cases hn : l.node? i with
  | none => rw [hn] at h; cases h
  | some n =>
    rw [hn, Option.map_some, Option.getD_some] at h
    refine ⟨n, hn, ?_⟩
    cases hk : n.kind <;> rw [hk] at h <;> first | rfl | cases h

/-- **The arms in use**: those of branching nodes, but where an arm is known to be live, that arm
alone. -/
theorem uses_arm_iff (hg : l.graph.Consistent) (hl : l.ChoosesArms) {arm : Int} (ha : 0 ≤ arm) :
    l.Uses i arm j ↔ l.isBranching i = true ∧ (∀ a, l.live i = some a → a = arm) ∧
      l.Takes i arm j := by
  constructor
  · intro h
    have hbr := (feed_arm hg ((mem_feeds_iff (f := ⟨j, arm⟩) hl).2 h) ha).1
    exact ⟨hbr, fun a hlive => (h.live hbr a hlive).symm, h.takes⟩
  · rintro ⟨hbr, hlive, htakes⟩
    refine ⟨htakes, fun hroot => ?_, fun _ a hlive' => (hlive a hlive').symm⟩
    obtain ⟨n, hn, hk⟩ := conditional_of_isBranching hbr
    rw [isStageRoot, node?, hn, Option.map_some, Option.getD_some, hk] at hroot
    cases hroot

/-! ### What the labels say -/

/-- **Labels read off the paths of a graph.**  The tag of an arm is on what feeds the arm, if the arm
may be taken, and on what is reached from there backwards through ordinary inputs in use; the root tag
is on what is reached so from the root. -/
structure Charted (l : Labels) (s : Labelling) : Prop where
  arm : ∀ C k n, 0 ≤ k → (⟨C, k⟩ ∈ s.tagsAt n ↔ s.tagsAt C ≠ [] ∧ l.isBranching C = true ∧
    (∀ a, l.live C = some a → a = k) ∧ ∃ m, l.Takes C k m ∧ Relation.ReflTransGen l.Passes m n)
  root : ∀ n, ⟨l.root, rootArm⟩ ∈ s.tagsAt n ↔ Relation.ReflTransGen l.Passes l.root n
  only : ∀ n, ∀ t ∈ s.tagsAt n, t = ⟨l.root, rootArm⟩ ∨ 0 ≤ t.arm
  nodup_boundaries : s.boundaries.Nodup
  boundaries : ∀ b, b ∈ s.boundaries ↔ s.tagsAt b ≠ [] ∧ l.isStageRoot b = true ∧ b ≠ l.root

theorem tagsAt_label_ne_nil (hr : l.root < l.graph.nodes.size) :
    l.label.tagsAt i ≠ [] ↔ ∃ t, l.Carries t i := by
  constructor
  · intro h
    obtain ⟨t, ht⟩ := List.exists_mem_of_ne_nil _ h
    exact ⟨t, (mem_tagsAt_label hr).1 ht⟩
  · rintro ⟨t, ht⟩
    exact List.ne_nil_of_mem ((mem_tagsAt_label hr).2 ht)

theorem charted_label (hg : l.graph.Consistent) (hl : l.ChoosesArms)
    (hr : l.root < l.graph.nodes.size) : l.Charted l.label := by
  have h := labelled_label hr
  refine ⟨fun C k n hk => ?_, fun n => ?_, fun n t ht => ?_, h.nodup_boundaries, h.boundaries⟩
  · rw [mem_tagsAt_label hr, tagsAt_label_ne_nil hr, carries_arm_iff hl hk]
    simp only [uses_arm_iff hg hl hk]
    tauto
  · rw [mem_tagsAt_label hr, carries_root_iff hl hr]
  · rcases (h.sound n t ht).path hl with ⟨rfl, -⟩ | ⟨i, k, m, u, rfl, hk, -⟩
    · exact .inl rfl
    · exact .inr hk

/-! ### The tables of a stage -/

theorem tagBefore_trans (a b c : Tag) (hab : tagBefore a b = true) (hbc : tagBefore b c = true) :
    tagBefore a c = true := by
  simp only [tagBefore, Bool.or_eq_true, Bool.and_eq_true, decide_eq_true_eq, beq_iff_eq] at *
  omega

theorem tagBefore_total (a b : Tag) : (tagBefore a b || tagBefore b a) = true := by
  simp only [tagBefore, Bool.or_eq_true, Bool.and_eq_true, decide_eq_true_eq, beq_iff_eq]
  omega

theorem tagBefore_antisymm (a b : Tag) (hab : tagBefore a b = true) (hba : tagBefore b a = true) :
    a = b := by
  simp only [tagBefore, Bool.or_eq_true, Bool.and_eq_true, decide_eq_true_eq, beq_iff_eq] at hab hba
  cases a
  cases b
  simp only at hab hba
  rw [Tag.mk.injEq]
  omega

theorem pairwise_tagsAt (l : Labels) (i : Nat) : (l.tagsAt i).Pairwise (tagBefore · ·) := by
  rw [tagsAt, tags]
  by_cases hi : i < l.graph.nodes.size
  · simp only [Array.getD_eq_getD_getElem?, Array.getElem?_map, Array.getElem?_range, hi, if_true,
      Option.map_some, Option.getD_some]
    exact List.pairwise_mergeSort tagBefore_trans tagBefore_total _
  · simp [Array.getD_eq_getD_getElem?, hi]

/-- **The walk and the tables of a stage agree.** -/
structure Agrees (l : Labels) (s : Labelling) : Prop where
  tags : ∀ i, s.sortedTags i = l.tagsAt i
  nodes : s.nodes = l.nodes
  boundaries : ∀ b, b ∈ s.boundaries ↔ b ∈ l.boundaries
  folded : ∀ i ∈ l.nodes, s.foldedArm? i = l.liveArm i

theorem agrees_label (hr : l.root < l.graph.nodes.size) : l.Agrees l.label := by
  have h := labelled_label hr
  have hmet : ∀ i, l.label.tagsAt i ≠ [] ↔ i ∈ l.nodes := fun i => by
    rw [tagsAt_label_ne_nil hr]
    exact ⟨fun ⟨t, ht⟩ => ht.mem_nodes, exists_carries⟩
  refine ⟨fun i => ?_, ?_, fun b => ?_, fun i hi => ?_⟩
  · have hperm : (l.label.sortedTags i).Perm (l.tagsAt i) := by
      refine (List.mergeSort_perm _ _).trans
        ((List.perm_ext_iff_of_nodup (h.nodup i) (nodup_tagsAt l i)).2 fun t => ?_)
      rw [mem_tagsAt_label hr, mem_tagsAt_iff_carries]
    refine hperm.eq_of_pairwise (fun a b _ _ => tagBefore_antisymm a b) ?_ (l.pairwise_tagsAt i)
    exact List.pairwise_mergeSort tagBefore_trans tagBefore_total _
  · rw [Labelling.nodes, h.size, nodes]
    refine List.filter_congr fun i _ => ?_
    rw [Bool.eq_iff_iff, Bool.not_eq_true', List.isEmpty_eq_false_iff, hmet, Labels.mem_nodes,
      List.contains_iff_mem]
  · rw [h.boundaries, hmet, Labels.mem_nodes, boundaries, List.mem_filter, isForeignRoot,
      Bool.and_eq_true, bne_iff_ne, isStageRoot]
    tauto
  · have hwait : i ∉ l.label.queue := by
      rw [queue_label]
      exact List.not_mem_nil
    rw [Labelling.foldedArm?]
    cases ha : l.liveArm i with
    | some a =>
      cases hlook : l.label.folded.lookup i with
      | none =>
        rw [List.lookup_eq_none_iff] at hlook
        have := hlook _ (h.noted i ((hmet i).2 hi) hwait a ha)
        simp at this
      | some b =>
        have := (h.folded i b (lookup_mem hlook)).2
        rw [ha] at this
        exact this.symm
    | none =>
      cases hlook : l.label.folded.lookup i with
      | none => rfl
      | some b =>
        have := (h.folded i b (lookup_mem hlook)).2
        rw [ha] at this
        cases this

end Labels

/-- **Labels are read off paths**: whatever the graph, the walk from the root of a stage ends, and
what it leaves is what the paths of the graph say, which is what regions are split by. -/
theorem Graph.Built.label_charted {g : Graph} (hg : g.Built) {root : Nat} (hr : root < g.nodes.size)
    {live : LiveArm} (hl : (Labels.mk g root live).ChoosesArms) :
    (∃ turns, (Labels.mk g root live).visit^[turns] (Labels.mk g root live).start =
        (Labels.mk g root live).label) ∧
      (Labels.mk g root live).label.queue = [] ∧
      (Labels.mk g root live).Charted (Labels.mk g root live).label ∧
      (Labels.mk g root live).Agrees (Labels.mk g root live).label := by
  have hturns := (Labels.settle_spec _ (Labels.known_start ⟨g, root, live⟩)).1
  exact ⟨hturns, Labels.queue_label _, Labels.charted_label hg.consistent hl hr,
    Labels.agrees_label hr⟩

/-- A conditional whose arm is fed by what it feeds has the tag of its own arm besides the root tag. -/
theorem Graph.label_charted_loop :
    let g := Graph.grown [.node (Uuid.ofBytes [1]) "" .conditional .none,
      .node (Uuid.ofBytes [2]) "" .negate .none, .node (Uuid.ofBytes [3]) "" .previewOutput .none,
      .edge 5 1, .edge 3 4, .edge 3 6]
    let l : Labels := ⟨g, 2, fun _ => none⟩
    2 < g.nodes.size ∧ l.ChoosesArms ∧ l.Charted l.label ∧ l.Agrees l.label ∧
      ⟨2, rootArm⟩ ∈ l.label.tagsAt 0 ∧ ⟨0, 0⟩ ∈ l.label.tagsAt 0 := by
  intro g l
  have hr : 2 < g.nodes.size := by decide +kernel
  have hl : l.ChoosesArms := fun i a _ ha => by cases ha
  obtain ⟨-, -, hchart, hagree⟩ := (Built.grown _).label_charted hr hl
  have hfeeds : ⟨0, -1⟩ ∈ l.feeds 2 ∧ ⟨1, 0⟩ ∈ l.feeds 0 ∧ ⟨0, -1⟩ ∈ l.feeds 1 := by decide +kernel
  have hout : l.Passes 2 0 := (Labels.passes_iff hl).2 ⟨_, hfeeds.1, by decide, rfl⟩
  have hback : l.Passes 1 0 := (Labels.passes_iff hl).2 ⟨_, hfeeds.2.2, by decide, rfl⟩
  have hroot := (hchart.root 0).2 (.single hout)
  refine ⟨hr, hl, hchart, hagree, hroot, (hchart.arm 0 0 0 (by decide)).2
    ⟨List.ne_nil_of_mem hroot, by decide +kernel, (fun a ha => by cases ha), 1, ?_, .single hback⟩⟩
  exact ((Labels.mem_feeds_iff hl).1 hfeeds.2.1).takes

end NodeShader
