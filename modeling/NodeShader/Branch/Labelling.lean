import NodeShader.Branch.Labels
import NodeShader.Total

/-!
# Labelling

The walk that labels the nodes of a stage. A queue holds the nodes whose tags are still to be passed
to what feeds them, the root first. A node that gains a tag waits for another turn, however often it
had one before, and tags are read while they grow: on a cycle a node may pass tags to itself.

A turn that makes a node wait also gives it a tag it did not have, and there are finitely many tags
(`Labels.everyTag`). So the tags that are still missing bound the walk (`Labelling.missing`).
-/

namespace NodeShader

/-- What a walk has found: the tags of each node (none before the node is met), the nodes that wait
for a turn, the roots of other stages and the folded branches. -/
structure Labelling where
  tags : Array (List Tag)
  queue : List Nat
  boundaries : List Nat
  folded : List (Nat × Int)

namespace Labelling

/-- The tags of the node at a position. -/
def tagsAt (s : Labelling) (i : Nat) : List Tag := s.tags.getD i []

/-- The nodes that were met, in graph order. -/
def nodes (s : Labelling) : List Nat :=
  (List.range s.tags.size).filter fun i => !(s.tagsAt i).isEmpty

/-- The nodes that were not met, in graph order. -/
def pruned (s : Labelling) : List Nat :=
  (List.range s.tags.size).filter fun i => (s.tagsAt i).isEmpty

/-- The tags of the node at a position, in order. -/
def sortedTags (s : Labelling) (i : Nat) : List Tag := (s.tagsAt i).mergeSort Labels.tagBefore

/-- The live arm that was noted for the node at a position. -/
def foldedArm? (s : Labelling) (i : Nat) : Option Int := s.folded.lookup i

end Labelling

namespace Labels

/-- Whether the node at a position is the root of a stage. -/
def isStageRoot (l : Labels) (i : Nat) : Bool := ((l.node? i).map (·.kind.isRoot)).getD false

/-- Gives tags to the node at a position. If it lacked one of them it waits for a turn, and if it is
met for the first time and the root of a stage, it is a boundary of this one. -/
def give (l : Labels) (s : Labelling) (j : Nat) (carried : List Tag) : Labelling :=
  match s.tags[j]? with
  | none => s
  | some held =>
    match carried.filter fun t => !held.contains t with
    | [] => s
    | t :: gained =>
      { s with
        tags := s.tags.setIfInBounds j (held ++ t :: gained)
        queue := s.queue ++ [j]
        boundaries :=
          if held.isEmpty && l.isStageRoot j then s.boundaries ++ [j] else s.boundaries }

/-- Passes tags to one producer: the tag of the arm it feeds, or else all tags of the node. -/
def pass (l : Labels) (i : Nat) (s : Labelling) (f : Feed) : Labelling :=
  l.give s f.producer (if 0 ≤ f.arm then [⟨i, f.arm⟩] else s.tagsAt i)

/-- Notes the live arm of a node, once. -/
def note (l : Labels) (s : Labelling) (i : Nat) : Labelling :=
  match l.liveArm i with
  | none => s
  | some arm =>
    if s.folded.contains (i, arm) then s else { s with folded := s.folded ++ [(i, arm)] }

/-- The turn of the first node that waits. -/
def visit (l : Labels) (s : Labelling) : Labelling :=
  match s.queue with
  | [] => s
  | i :: rest => (l.feeds i).foldl (l.pass i) (l.note { s with queue := rest } i)

/-- The walk starts at the root, which has the root tag. -/
def start (l : Labels) : Labelling where
  tags := (Array.replicate l.graph.nodes.size []).setIfInBounds l.root [⟨l.root, rootArm⟩]
  queue := [l.root]
  boundaries := []
  folded := []

/-! ### The walk ends -/

/-- The tags there may be. -/
def everyTag (l : Labels) : List Tag :=
  ⟨l.root, rootArm⟩ ::
    (List.range l.graph.nodes.size).flatMap fun i => (l.feeds i).map fun f => ⟨i, f.arm⟩

/-- The tags of a labelling are among those there may be. -/
def Known (l : Labels) (s : Labelling) : Prop := ∀ i, ∀ t ∈ s.tagsAt i, t ∈ l.everyTag

end Labels

/-- The number of tags that nodes do not have yet, over all nodes. -/
def Labelling.missing (s : Labelling) (l : Labels) : Nat :=
  total (fun held => (l.everyTag.filter fun t => !held.contains t).length) s.tags.toList

namespace Labels

variable {l : Labels} {s : Labelling} {i j : Nat} {t : Tag} {f : Feed} {carried : List Tag}

theorem mem_everyTag (hf : f ∈ l.feeds i) : ⟨i, f.arm⟩ ∈ l.everyTag := by
  refine List.mem_cons_of_mem _ (List.mem_flatMap.2 ⟨i, List.mem_range.2 ?_, List.mem_map_of_mem hf⟩)
  rw [feeds] at hf
  cases hn : l.node? i with
  | none => rw [hn] at hf; cases hf
  | some n => exact (Array.getElem?_eq_some_iff.1 hn).1

/-- The tags of a node after those of one are replaced. -/
theorem getD_setIfInBounds (tags : Array (List Tag)) (i j : Nat) (held : List Tag) :
    (tags.setIfInBounds j held).getD i [] =
      if i = j ∧ j < tags.size then held else tags.getD i [] := by
  rw [Array.getD_eq_getD_getElem?, Array.getD_eq_getD_getElem?, Array.getElem?_setIfInBounds]
  by_cases hi : j = i
  · subst hi
    by_cases hj : j < tags.size
    · simp [hj]
    · rw [if_pos rfl, if_neg hj, if_neg (by simp [hj]), Array.getElem?_eq_none (Nat.le_of_not_lt hj)]
  · rw [if_neg hi, if_neg (fun h => hi h.1.symm)]

/-- The tags of a node after tags were given to one. -/
theorem tagsAt_give (l : Labels) (s : Labelling) (i j : Nat) (carried : List Tag) :
    (l.give s j carried).tagsAt i =
      if i = j ∧ j < s.tags.size then
        s.tagsAt j ++ carried.filter fun t => !(s.tagsAt j).contains t
      else s.tagsAt i := by
  rw [give]
  split
  · rename_i hj
    rw [Array.getElem?_eq_none_iff] at hj
    rw [if_neg (fun h => absurd h.2 (Nat.not_lt_of_le hj))]
  · rename_i held hj
    have hheld : s.tagsAt j = held := by
      rw [Labelling.tagsAt, Array.getD_eq_getD_getElem?, hj, Option.getD_some]
    rw [hheld]
    split
    · rename_i hnone
      rw [hnone, List.append_nil]
      split
      · rename_i hi
        rw [hi.1, hheld]
      · rfl
    · rename_i t gained hgained
      rw [hgained, Labelling.tagsAt, getD_setIfInBounds]
      rfl

theorem Known.give (h : l.Known s) (hc : ∀ t ∈ carried, t ∈ l.everyTag) :
    l.Known (l.give s j carried) := by
  intro i t ht
  rw [tagsAt_give] at ht
  split at ht
  · rcases List.mem_append.1 ht with ht | ht
    · exact h j t ht
    · exact hc t (List.mem_filter.1 ht).1
  · exact h i t ht

/-- What a node passes on are tags there may be. -/
theorem Known.mem_carried (h : l.Known s) (hf : f ∈ l.feeds i) :
    ∀ t ∈ if 0 ≤ f.arm then [⟨i, f.arm⟩] else s.tagsAt i, t ∈ l.everyTag := by
  intro t ht
  split at ht
  · rw [List.mem_singleton.1 ht]
    exact mem_everyTag hf
  · exact h i t ht

/-- Giving tags changes nothing, or a tag is missing no longer. -/
theorem missing_give (hc : ∀ t ∈ carried, t ∈ l.everyTag) :
    l.give s j carried = s ∨ (l.give s j carried).missing l < s.missing l := by
  rw [give]
  split
  · exact .inl rfl
  · rename_i held hj
    obtain ⟨hlt, hget⟩ := Array.getElem?_eq_some_iff.1 hj
    split
    · exact .inl rfl
    · rename_i t gained hgained
      refine .inr ?_
      have ht : t ∈ carried.filter fun t => !held.contains t := by
        rw [hgained]
        exact List.mem_cons_self
      rw [List.mem_filter] at ht
      have hless : (l.everyTag.filter fun u => !(held ++ t :: gained).contains u).length <
          (l.everyTag.filter fun u => !held.contains u).length := by
        have hsub : (l.everyTag.filter fun u => !(held ++ t :: gained).contains u) =
            (l.everyTag.filter fun u => !held.contains u).filter
              fun u => !(t :: gained).contains u := by
          rw [List.filter_filter]
          refine List.filter_congr fun u _ => ?_
          rw [Bool.eq_iff_iff]
          simp [and_comm]
        rw [hsub]
        refine List.length_filter_lt_length_iff_exists.2 ⟨t, ?_, by simp⟩
        exact List.mem_filter.2 ⟨hc t ht.1, ht.2⟩
      have hset := total_set (fun held => (l.everyTag.filter fun u => !held.contains u).length)
        s.tags.toList j (held ++ t :: gained) (by simpa using hlt)
      simp only [Labelling.missing, Array.toList_setIfInBounds]
      simp only [Array.getElem_toList, hget] at hset
      omega

/-- Passing tags to several producers changes nothing, or a tag is missing no longer. -/
theorem missing_foldl_pass {fs : List Feed} (hfs : ∀ f ∈ fs, f ∈ l.feeds i) (h : l.Known s) :
    l.Known (fs.foldl (l.pass i) s) ∧
      (fs.foldl (l.pass i) s = s ∨ (fs.foldl (l.pass i) s).missing l < s.missing l) := by
  induction fs generalizing s with
  | nil => exact ⟨h, .inl rfl⟩
  | cons f fs ih =>
    have hc := h.mem_carried (hfs f List.mem_cons_self)
    obtain ⟨hk, hrest⟩ := ih (s := l.pass i s f) (fun g hg => hfs g (List.mem_cons_of_mem f hg))
      (h.give hc)
    refine ⟨hk, ?_⟩
    rw [List.foldl_cons]
    rcases missing_give (j := f.producer) hc with hsame | hless
    · have hp : l.pass i s f = s := hsame
      rw [hp] at hrest ⊢
      exact hrest
    · refine .inr ?_
      have hp : (l.pass i s f).missing l < s.missing l := hless
      rcases hrest with hrest | hrest
      · rw [hrest]
        exact hp
      · exact Nat.lt_trans hrest hp

theorem note_tags (l : Labels) (s : Labelling) (i : Nat) :
    (l.note s i).tags = s.tags ∧ (l.note s i).queue = s.queue ∧
      (l.note s i).boundaries = s.boundaries := by
  rw [note]
  split
  · exact ⟨rfl, rfl, rfl⟩
  · split <;> exact ⟨rfl, rfl, rfl⟩

/-- A turn keeps to the tags there may be, and shortens the queue unless a tag is missing no
longer. -/
theorem visit_ends {rest : List Nat} (h : l.Known s) (hq : s.queue = i :: rest) :
    l.Known (l.visit s) ∧
      ((l.visit s).missing l = s.missing l ∧ (l.visit s).queue = rest ∨
        (l.visit s).missing l < s.missing l) := by
  obtain ⟨htags, hqueue, -⟩ := l.note_tags { s with queue := rest } i
  have hmiss : (l.note { s with queue := rest } i).missing l = s.missing l := by
    rw [Labelling.missing, htags]
    rfl
  have hknown : l.Known (l.note { s with queue := rest } i) := by
    intro k t ht
    rw [Labelling.tagsAt, htags] at ht
    exact h k t ht
  obtain ⟨hk, hstep⟩ := missing_foldl_pass (fun f hf => hf) hknown (i := i)
  have hvisit : l.visit s = (l.feeds i).foldl (l.pass i) (l.note { s with queue := rest } i) := by
    rw [visit, hq]
  rw [hvisit]
  refine ⟨hk, hstep.imp (fun hsame => ?_) fun hless => ?_⟩
  · rw [hsame]
    exact ⟨hmiss, hqueue⟩
  · rwa [hmiss] at hless

theorem known_start (l : Labels) : l.Known l.start := by
  intro i t ht
  have hone : t ∈ [(⟨l.root, rootArm⟩ : Tag)] := by
    simp only [Labelling.tagsAt, start, Array.getD_eq_getD_getElem?,
      Array.getElem?_setIfInBounds, Array.getElem?_replicate] at ht
    split at ht
    · split at ht
      · exact ht
      · cases ht
    · split at ht <;> cases ht
  rw [List.mem_singleton.1 hone]
  exact List.mem_cons_self

/-- Turn after turn until no node waits. -/
def settle (l : Labels) (s : Labelling) (h : l.Known s) : Labelling :=
  match hq : s.queue with
  | [] => s
  | _ :: _ => settle l (l.visit s) (visit_ends h hq).1
termination_by (s.missing l, s.queue.length)
decreasing_by
  rcases (visit_ends h hq).2 with ⟨hmiss, hqueue⟩ | hless
  · rw [hmiss, hqueue]
    exact Prod.Lex.right _ (by simp [hq])
  · exact Prod.Lex.left _ _ hless

/-- The labels of a stage as the walk from its root finds them. -/
def label (l : Labels) : Labelling := l.settle l.start l.known_start

end Labels

end NodeShader
