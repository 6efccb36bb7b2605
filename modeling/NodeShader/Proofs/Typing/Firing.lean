import NodeShader.Proofs.Typing.Confluence

/-!
# Firing a constraint

A constraint that has just fired does not wait for its own changes, and the queue grows whenever
something changes.  The first is right because a rule leaves alone what it has narrowed, the second
comes to an end because every change takes a type away from some port.

* `Domains.mem_touched_iff`: the ports that are told to have changed are those that have.
* `Rule.effect_eq_dirty`: a rule tells of a change exactly if there is one.
* `ConstraintSystem.Fire`: the first constraint that waits fires; `length_le_of_firings` bounds
  every run by the length of the queue and the number of types.
* `Graph.Built.firing`: **what a constraint does and tells, and that propagation ends**, for the
  constraints of every graph; `Graph.firing_combine` is an instance.
-/

namespace NodeShader

namespace Domains

variable {d d' : Domains} {l : List (PortId × TypeSet)} {touched : List PortId} {p : PortId}

/-- What is told to have changed has lost a type. -/
theorem typesOf_ne_of_mem_touched (h : d.narrow l = some (d', touched)) (hp : p ∈ touched) :
    d'.typesOf p ≠ d.typesOf p := by
  induction l generalizing d touched with
  | nil =>
    rw [narrow] at h
    cases h
    cases hp
  | cons entry l ih =>
    obtain ⟨q, A⟩ := entry
    rw [narrow] at h
    split at h
    · cases h
    · rename_i hne
      rw [Bool.not_eq_true] at hne
      split at h
      · exact ih h hp
      · rename_i hchange
        split at h
        · rename_i d₂ touched₂ hrest
          cases h
          obtain ⟨t, ht⟩ := TypeSet.isEmpty_eq_false hne
          have hset := fun r => typesOf_set (q := r) (s := (d.typesOf q).inter A)
            ⟨t, (TypeSet.mem_inter.1 ht).1⟩
          obtain ⟨hmem, -, -⟩ := narrow_spec hrest
          by_cases hpq : p = q
          · -- what the first entry takes from its port, the others do not give back
            subst hpq
            intro hsame
            refine hchange (TypeSet.ext_mem fun u => ?_)
            rw [TypeSet.mem_inter]
            refine ⟨fun hu => hu.1, fun hu => ?_⟩
            rw [← hsame, hmem p u, hset p, if_pos rfl, TypeSet.mem_inter] at hu
            exact hu.1
          · have hlost := ih hrest ((List.mem_cons.1 hp).resolve_left hpq)
            rw [hset p, if_neg hpq] at hlost
            exact hlost
        · cases h

/-- **The ports that are told to have changed** are exactly those that have. -/
theorem mem_touched_iff (h : d.narrow l = some (d', touched)) :
    p ∈ touched ↔ d'.typesOf p ≠ d.typesOf p := by
  refine ⟨typesOf_ne_of_mem_touched h, fun hne => ?_⟩
  by_contra hp
  exact hne ((narrow_spec h).2.1 p hp)

/-- No port is told to have changed exactly if the domains are the same. -/
theorem touched_eq_nil_iff (h : d.narrow l = some (d', touched)) : touched = [] ↔ d' = d := by
  constructor
  · rintro rfl
    exact eq_of_narrow_nil h
  · rintro rfl
    refine List.eq_nil_iff_forall_not_mem.2 fun p hp => ?_
    exact typesOf_ne_of_mem_touched h hp rfl

end Domains

namespace Rule

variable {d : Domains} {r : Rule}

theorem effect_eq_contradiction : r.effect d = .contradiction ↔ r.narrow d = none := by
  rw [effect]
  split
  · rename_i hn
    simp [hn]
  · rename_i hn
    simp [hn]
  · rename_i hn
    simp [hn]

/-- **A rule tells of a change exactly if there is one.** -/
theorem effect_eq_dirty :
    r.effect d = .dirty ↔ ∃ d' touched, r.narrow d = some (d', touched) ∧ d' ≠ d := by
  constructor
  · intro h
    rw [effect] at h
    split at h
    · cases h
    · cases h
    · rename_i d' p touched hn
      refine ⟨d', p :: touched, hn, fun he => ?_⟩
      exact List.cons_ne_nil p touched ((Domains.touched_eq_nil_iff hn).2 he)
  · rintro ⟨d', touched, hn, hne⟩
    cases touched with
    | nil => exact absurd (Domains.eq_of_narrow_nil hn) hne
    | cons p touched =>
      rw [effect, hn]

end Rule

namespace ConstraintSystem

variable {s : ConstraintSystem} {d d' : Domains} {queue rest : List Nat} {c : Constraint} {i : Nat}
  {x y : Domains × List Nat}

/-! ### What is added to the queue -/

/-- What waits keeps its place, and each constraint is added at most once. -/
theorem enqueue_eq_append (current : Nat) (queue : List Nat) (touched : List PortId) :
    ∃ more, s.enqueue current queue touched = queue ++ more ∧ more.Nodup ∧
      ∀ j ∈ more, j ∈ touched.flatMap s.touching ∧ j ∉ queue := by
  rw [enqueue]
  generalize touched.flatMap s.touching = l
  induction l generalizing queue with
  | nil => exact ⟨[], (List.append_nil queue).symm, List.nodup_nil, fun _ h => by cases h⟩
  | cons a l ih =>
    rw [List.foldl_cons]
    by_cases ha : a = current ∨ queue.contains a
    · rw [if_pos ha]
      obtain ⟨more, heq, hnd, hmem⟩ := ih queue
      exact ⟨more, heq, hnd, fun j hj => ⟨List.mem_cons_of_mem a (hmem j hj).1, (hmem j hj).2⟩⟩
    · rw [if_neg ha]
      obtain ⟨more, heq, hnd, hmem⟩ := ih (queue ++ [a])
      rw [not_or, List.contains_iff_mem] at ha
      refine ⟨a :: more, by rw [heq, List.append_assoc, List.singleton_append], ?_, ?_⟩
      · refine List.nodup_cons.2 ⟨fun hmore => (hmem a hmore).2 ?_, hnd⟩
        exact List.mem_append_right _ (List.mem_singleton_self a)
      · refine List.forall_mem_cons.2 ⟨⟨List.mem_cons_self, ha.2⟩, fun j hj => ?_⟩
        obtain ⟨hl, hq⟩ := hmem j hj
        exact ⟨List.mem_cons_of_mem a hl, fun hjq => hq (List.mem_append_left _ hjq)⟩

/-- The constraints that are listed at ports are there. -/
def Listed (s : ConstraintSystem) : Prop := ∀ p, ∀ j ∈ s.touching p, j < s.constraints.size

theorem ofGraph_listed {g : Graph} (h : ofGraph g = .ok s) : s.Listed := by
  obtain ⟨cs, -, h⟩ := bind_eq_ok.1 h
  cases h
  let Below (table : Array (List Nat)) : Prop :=
    ∀ k : Nat, ∀ j ∈ (table[k]?).getD [], j < cs.length
  have hadd : ∀ (table : Array (List Nat)) (p : PortId) (n : Nat), n < cs.length → Below table →
      Below (table.modify p.toNat (· ++ [n])) := by
    intro table p n hn htable k j hj
    rw [Array.getElem?_modify] at hj
    cases hk : table[k]? with
    | none =>
      rw [hk] at hj
      simp at hj
    | some numbers =>
      have hbelow : ∀ j ∈ numbers, j < cs.length := by
        have hb := htable k
        rw [hk] at hb
        exact hb
      rw [hk] at hj
      split at hj
      · rcases List.mem_append.1 hj with hj | hj
        · exact hbelow j hj
        · rw [List.mem_singleton.1 hj]
          exact hn
      · exact hbelow j hj
  have hports : ∀ (ports : List PortId) (table : Array (List Nat)) (n : Nat), n < cs.length →
      Below table → Below (ports.foldl (fun table p => table.modify p.toNat (· ++ [n])) table) := by
    intro ports
    induction ports with
    | nil => exact fun _ _ _ h => h
    | cons p ports ih => exact fun table n hn h => ih _ n hn (hadd table p n hn h)
  have hall : ∀ (l : List (Constraint × Nat)) (table : Array (List Nat)),
      (∀ e ∈ l, e.2 < cs.length) → Below table →
        Below (l.foldl (fun (table : Array (List Nat)) (e : Constraint × Nat) =>
          e.1.rule.ports.foldl (fun table p => table.modify p.toNat (· ++ [e.2])) table) table) := by
    intro l
    induction l with
    | nil => exact fun _ _ h => h
    | cons e l ih =>
      intro table hl h
      obtain ⟨he, hl⟩ := List.forall_mem_cons.1 hl
      exact ih _ hl (hports _ table e.2 he h)
  have hbelow := hall cs.zipIdx (Array.replicate g.ports.size [])
    (fun e he => by
      have := List.mk_mem_zipIdx_iff_getElem?.1 he
      exact (List.getElem?_eq_some_iff.1 this).1)
    (fun k j hj => by
      rw [Array.getElem?_replicate] at hj
      split at hj <;> cases hj)
  intro p j hj
  rw [List.size_toArray]
  cases p with
  | negSucc k => cases hj
  | ofNat k => exact hbelow k j hj

/-! ### Firing -/

/-- **The first constraint that waits fires.** Where it narrows domains, other constraints are added
to the queue, none of them twice; which ones, and whether they wait already, is left open. -/
inductive Fire (s : ConstraintSystem) : Domains × List Nat → Domains × List Nat → Prop
  | skip {d : Domains} {i : Nat} {rest : List Nat} (hi : s.constraints[i]? = none) :
      s.Fire (d, i :: rest) (d, rest)
  | quiet {d d' : Domains} {i : Nat} {rest : List Nat} {c : Constraint}
      (hi : s.constraints[i]? = some c) (hn : c.rule.narrow d = some (d', [])) :
      s.Fire (d, i :: rest) (d', rest)
  | dirty {d d' : Domains} {i : Nat} {rest more : List Nat} {c : Constraint} {p : PortId}
      {touched : List PortId} (hi : s.constraints[i]? = some c)
      (hn : c.rule.narrow d = some (d', p :: touched)) (hnodup : more.Nodup)
      (hmore : ∀ j ∈ more, j < s.constraints.size) : s.Fire (d, i :: rest) (d', rest ++ more)

/-- How many times constraints can fire: each that waits once, and all of them for each type. -/
def reserve (s : ConstraintSystem) (x : Domains × List Nat) : Nat :=
  x.2.length + x.1.weight * s.constraints.size

/-- **Firing spends what is in reserve.** -/
theorem Fire.reserve_lt (h : s.Fire x y) : s.reserve y < s.reserve x := by
  cases h with
  | skip hi => simp [reserve]
  | quiet hi hn =>
    rw [Domains.eq_of_narrow_nil hn]
    simp [reserve]
  | @dirty d d' i rest more c p touched hi hn hnodup hmore =>
    have hweight : d'.weight + 1 ≤ d.weight := by
      have h := Domains.weight_narrow hn
      rw [List.length_cons] at h
      omega
    have hlen : more.length ≤ s.constraints.size := by
      have h := (List.subperm_of_subset hnodup fun j hj => List.mem_range.2 (hmore j hj)).length_le
      rwa [List.length_range] at h
    have hmul := Nat.mul_le_mul_right s.constraints.size hweight
    rw [Nat.add_mul, Nat.one_mul] at hmul
    simp only [reserve, List.length_append, List.length_cons]
    omega

/-- **Every run comes to an end.** -/
theorem length_le_of_firings {run : List (Domains × List Nat)} (h : (x :: run).IsChain s.Fire) :
    run.length ≤ s.reserve x := by
  induction run generalizing x with
  | nil => exact Nat.zero_le _
  | cons y run ih =>
    obtain ⟨hxy, hrun⟩ := List.isChain_cons_cons.1 h
    have hy := ih hrun
    have hlt := hxy.reserve_lt
    rw [List.length_cons]
    omega

/-- Propagation fires the constraint that has waited longest. -/
theorem Fire.head {p : PortId} {touched : List PortId} (hs : s.Listed)
    (hi : s.constraints[i]? = some c) (hn : c.rule.narrow d = some (d', p :: touched)) :
    s.Fire (d, i :: rest) (d', s.enqueue i rest (p :: touched)) := by
  obtain ⟨more, heq, hnodup, hmem⟩ := enqueue_eq_append (s := s) i rest (p :: touched)
  rw [heq]
  refine .dirty hi hn hnodup fun j hj => ?_
  obtain ⟨q, -, hq⟩ := List.mem_flatMap.1 (hmem j hj).1
  exact hs q j hq

/-- Firing leads to an outcome: to domains when nothing waits, or to the constraint that leaves a
port without a type. -/
def FiresTo (s : ConstraintSystem) (x : Domains × List Nat) : Except Constraint Domains → Prop
  | .ok d => Relation.ReflTransGen s.Fire x (d, [])
  | .error c => ∃ d i rest, Relation.ReflTransGen s.Fire x (d, i :: rest) ∧
      s.constraints[i]? = some c ∧ c.rule.effect d = .contradiction

theorem FiresTo.step {o : Except Constraint Domains} (hxy : s.Fire x y) (h : s.FiresTo y o) :
    s.FiresTo x o := by
  cases o with
  | ok d => exact Relation.ReflTransGen.head hxy h
  | error c =>
    obtain ⟨d, i, rest, hrun, hc⟩ := h
    exact ⟨d, i, rest, .head hxy hrun, hc⟩

/-- **Propagation is a run of firings**, from any domains and any queue. -/
theorem propagate_fires (hs : s.Listed) (d : Domains) (queue : List Nat) (steps : Nat) :
    s.FiresTo (d, queue) (s.propagate d queue steps).result := by
  fun_induction propagate s d queue steps with
  | case1 d steps => exact .refl
  | case2 d steps i rest hi ih => exact ih.step (.skip hi)
  | case3 d steps i rest c hc hn =>
    exact ⟨d, i, rest, .refl, hc, Rule.effect_eq_contradiction.2 hn⟩
  | case4 d steps i rest c hc d₂ hn ih =>
    have hfire : s.Fire (d, i :: rest) (d₂, rest) := .quiet hc hn
    rw [Domains.eq_of_narrow_nil hn] at hfire
    exact ih.step hfire
  | case5 d steps i rest c hc d₂ p touched hn ih => exact ih.step (.head hs hc hn)

/-- **Propagation counts no more steps than there are in reserve.** -/
theorem steps_propagate_le (hs : s.Listed) (d : Domains) (queue : List Nat) (steps : Nat) :
    (s.propagate d queue steps).steps ≤ steps + s.reserve (d, queue) := by
  fun_induction propagate s d queue steps with
  | case1 d steps => exact Nat.le_add_right steps _
  | case2 d steps i rest hi ih =>
    have hlt : s.reserve (d, rest) < s.reserve (d, i :: rest) := (Fire.skip hi).reserve_lt
    omega
  | case3 d steps i rest c hc hn =>
    simp only [reserve, List.length_cons]
    omega
  | case4 d steps i rest c hc d₂ hn ih =>
    have hlt : s.reserve (d₂, rest) < s.reserve (d, i :: rest) := (Fire.quiet hc hn).reserve_lt
    rw [Domains.eq_of_narrow_nil hn] at hlt
    omega
  | case5 d steps i rest c hc d₂ p touched hn ih =>
    have hlt : s.reserve (d₂, _) < s.reserve (d, i :: rest) := (Fire.head hs hc hn).reserve_lt
    omega

end ConstraintSystem

namespace Graph

variable {g : Graph}

/-- **Firing a constraint of a graph.** From domains of its ports that are not empty, a rule that
does not fail leaves domains that are not empty and that it leaves as they are when it fires again;
the ports it tells of are those that have lost types; and it tells of a change exactly if there is
one. Propagation ends from any domains and any queue: it fires the constraint that has waited
longest, and in whatever way the queue grows no run is longer than the queue and the number of types
allow. -/
theorem Built.firing (hg : g.Built) :
    ∃ s, ConstraintSystem.ofGraph g = .ok s ∧ g.constraints = .ok s.constraints.toList ∧
      (∀ c ∈ s.constraints, ∀ d : Domains, d.size = g.ports.size → d.Valid → d.Inhabited →
        (∀ d' touched, c.rule.narrow d = some (d', touched) →
          c.rule.effect d' = .unchanged ∧ d'.Inhabited ∧
            ∀ p, p ∈ touched ↔ d'.typesOf p ≠ d.typesOf p) ∧
        (c.rule.effect d = .dirty ↔ ∃ d' touched, c.rule.narrow d = some (d', touched) ∧ d' ≠ d) ∧
        (c.rule.effect d = .unchanged ↔ c.rule.narrow d = some (d, [])) ∧
        (c.rule.effect d = .contradiction ↔ c.rule.narrow d = none)) ∧
      (∀ x run, (x :: run).IsChain s.Fire →
        run.length ≤ x.2.length + x.1.weight * s.constraints.size) ∧
      ∀ d queue, s.FiresTo (d, queue) (s.propagate d queue 0).result ∧
        (s.propagate d queue 0).steps ≤ queue.length + d.weight * s.constraints.size := by
  obtain ⟨s, hs, hready⟩ := hg.consistent.ready
  obtain ⟨-, hcs, -⟩ := ConstraintSystem.ofGraph_touching hs
  have hlisted := ConstraintSystem.ofGraph_listed hs
  refine ⟨s, hs, hcs, fun c hc d hsize hvalid hne => ⟨fun d' touched hn => ?_,
    Rule.effect_eq_dirty, Rule.effect_eq_unchanged, Rule.effect_eq_contradiction⟩,
    fun x run hrun => ConstraintSystem.length_le_of_firings hrun, fun d queue =>
    ⟨ConstraintSystem.propagate_fires hlisted d queue 0, ?_⟩⟩
  · obtain ⟨i, hi⟩ := Array.getElem?_of_mem hc
    have hne' : d'.Inhabited := hne.narrow hn
    have hports : ∀ p ∈ c.rule.ports, ∃ t, (d'.typesOf p).Mem t := by
      intro p hp
      obtain ⟨k, rfl, hk⟩ := hready.ports i c hi p hp
      rw [domains, Array.size_map] at hk
      exact hne' k (by rw [(Domains.narrow_spec hn).2.2, hsize]; exact hk)
    exact ⟨Rule.effect_narrow (hready.indexed.proper i c hi) hvalid hports hn, hne',
      fun p => Domains.mem_touched_iff hn⟩
  · have h := ConstraintSystem.steps_propagate_le hlisted d queue 0
    rwa [Nat.zero_add] at h

/-- The edge to an output fires: it narrows what is combined to the type that is shown, and leaves
that alone when it fires again.  Some constraints wait twice. -/
theorem firing_combine :
    let g := grown [.node (Uuid.ofBytes [1]) "" .combine (.combine 2),
      .node (Uuid.ofBytes [2]) "" .materialOutput .none, .edge 2 3]
    let r : Rule := .equal [2, 3]
    ∃ s c d', ConstraintSystem.ofGraph g = .ok s ∧ c ∈ s.constraints ∧ c.rule = r ∧
      r.narrow g.domains = some (d', [2]) ∧ r.effect d' = .unchanged ∧
      (s.propagate g.domains [1, 0, 1] 0).steps ≤ 3 + g.domains.weight * s.constraints.size := by
  intro g r
  have hbuilt : g.Built := .grown _
  obtain ⟨_, -, hready⟩ := hbuilt.consistent.ready
  obtain ⟨s, hs, hcs, hfire, -, hends⟩ := hbuilt.firing
  have hrules : g.constraints.toOption.map (·.map (·.rule)) = some [r, .combine [0, 1, 2]] ∧
      (r.narrow g.domains).map (·.2) = some [2] := by decide +kernel
  obtain ⟨hrules, hnarrow⟩ := hrules
  rw [hcs] at hrules
  have hmap : s.constraints.toList.map Constraint.rule = [r, .combine [0, 1, 2]] :=
    Option.some.inj hrules
  obtain ⟨c, hc, hcr⟩ : ∃ c ∈ s.constraints.toList, c.rule = r :=
    List.mem_map.1 (by rw [hmap]; exact List.mem_cons_self)
  obtain ⟨⟨d', touched⟩, hn, htouched⟩ := Option.map_eq_some_iff.1 hnarrow
  obtain rfl : touched = [2] := htouched
  have hsize : g.domains.size = g.ports.size := by rw [domains, Array.size_map]
  have hunchanged := ((hfire c (by simpa using hc) g.domains hsize hready.valid
    hready.inhabited).1 d' [2] (hcr ▸ hn)).1
  exact ⟨s, c, d', hs, by simpa using hc, hcr, hn, hcr ▸ hunchanged, (hends g.domains [1, 0, 1]).2⟩

end Graph

end NodeShader
