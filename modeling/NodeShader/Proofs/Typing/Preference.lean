import Mathlib
import NodeShader.Proofs.Typing.Confluence

/-!
# The preferred types

Search tries the types of a port in order and turns back from those that fail.  What it finds can be
told without turning back (`Graph.Decides`): decide the most constrained port for the first type that
it has in an assignment that passes the check and agrees with what was decided before, and propagate.

* `Consistent.search_descends`: search descends through the first entries that are viable, since below
  the others it finds nothing.
* `Reached.step`: the first viable choice decides the most constrained port for its preferred type.
* `Graph.Built.resolveTypes_preferred`: **the resolved types are the preferred ones**.
-/

namespace NodeShader

/-- A type is known by its code. -/
theorem ValueType.ext {t u : ValueType} (h : t.code = u.code) : t = u := by
  cases t
  exact congrArg ValueType.mk h

/-- The members of a set are listed in order of preference. -/
theorem TypeSet.sorted_toList {s : TypeSet} : s.toList.Pairwise (·.code < ·.code) := by
  rw [toList, List.pairwise_map]
  exact (List.pairwise_lt_range.filter _).imp fun h => Int.ofNat_lt.2 h

/-- Only one port is the most constrained. -/
theorem Domains.MostConstrained.unique {d : Domains} {p q : PortId} (hp : d.MostConstrained p)
    (hq : d.MostConstrained q) : p = q := by
  obtain ⟨k, rfl, hk, hlen, hmin⟩ := hp
  obtain ⟨m, rfl, hm, hlen', hmin'⟩ := hq
  have h := hmin m hm hlen'
  have h' := hmin' k hk hlen
  have hkm : k = m := by omega
  rw [hkm]

theorem Domains.MostConstrained.has {d : Domains} {p : PortId} (hp : d.MostConstrained p) :
    d.Has p := by
  obtain ⟨k, hk, hlt, -⟩ := hp
  exact ⟨k, hk, hlt⟩

theorem Domains.Admits.mem {d : Domains} {τ : PortId → ValueType} (h : d.Admits τ) {p : PortId}
    (hp : d.Has p) : (d.typesOf p).Mem (τ p) := by
  obtain ⟨k, rfl, hk⟩ := hp
  exact h k hk

/-- Domains admit what is admitted within them. -/
theorem Domains.Admits.of_within {d d' : Domains} {τ : PortId → ValueType} (had : d'.Admits τ)
    (hw : d'.Within d) : d.Admits τ :=
  fun k hk => hw.mem _ _ (had k (by rw [hw.size]; exact hk))

/-- Where an element of two lists in a row stands. -/
theorem append_eq_append_cons {α : Type} {l₁ l₂ before after : List α} {x : α}
    (h : l₁ ++ l₂ = before ++ x :: after) : (∃ rest, l₁ = before ++ x :: rest) ∨
      ∃ rest, before = l₁ ++ rest ∧ l₂ = rest ++ x :: after := by
  rcases List.append_eq_append_iff.1 h with ⟨rest, hbefore, hrest⟩ | ⟨rest, hl, hrest⟩
  · exact .inr ⟨rest, hbefore, hrest⟩
  · cases rest with
    | nil => exact .inr ⟨[], by simpa using hl.symm, by simpa using hrest.symm⟩
    | cons y rest =>
      obtain ⟨rfl, -⟩ := List.cons.inj hrest
      exact .inl ⟨rest, hl⟩

namespace Graph

variable {g : Graph} {s : ConstraintSystem} {d d' : Domains} {choices : List (PortId × ValueType)}
  {p : PortId} {t : ValueType} {a b : TypeAssignment}

/-! ### Deciding ports one by one -/

/-- An assignment passes the check and agrees with the choices made so far. -/
structure Compatible (g : Graph) (choices : List (PortId × ValueType)) (a : TypeAssignment) :
    Prop where
  check : g.checkTypes a = .ok ()
  agrees : ∀ c ∈ choices, assigned a c.1 = c.2

/-- **The preferred type of a port**: the first that it has in an assignment compatible with the
choices made so far. -/
structure Prefers (g : Graph) (choices : List (PortId × ValueType)) (p : PortId) (t : ValueType) :
    Prop where
  possible : ∃ a, g.Compatible choices a ∧ assigned a p = t
  first : ∀ a, g.Compatible choices a → t.code ≤ (assigned a p).code

/-- **Deciding the ports one by one**: while some port has more than one type, the most constrained
one is decided for its preferred type, and constraints are propagated. -/
inductive Decides (g : Graph) (s : ConstraintSystem) :
    Domains → List (PortId × ValueType) → TypeAssignment → Prop
  | decided {d : Domains} {choices : List (PortId × ValueType)}
      (h : ∀ k : Nat, k < d.size → (d.typesOf (k : PortId)).length ≤ 1) :
      Decides g s d choices d.assignment
  | choose {d d' : Domains} {choices : List (PortId × ValueType)} {p : PortId} {t : ValueType}
      {a : TypeAssignment} (hp : d.MostConstrained p) (ht : g.Prefers choices p t)
      (hd : (s.propagate (d.setIfInBounds p.toNat (.singleton t)) s.all 0).result = .ok d')
      (h : Decides g s d' ((p, t) :: choices) a) : Decides g s d choices a

/-- **The preferred assignment**: what deciding the ports one by one gives, once the declared types
are propagated. -/
def Preferred (g : Graph) (a : TypeAssignment) : Prop :=
  ∃ s d, ConstraintSystem.ofGraph g = .ok s ∧ (s.propagate g.domains s.all 0).result = .ok d ∧
    g.Decides s d [] a

theorem Prefers.unique {u : ValueType} (ht : g.Prefers choices p t) (hu : g.Prefers choices p u) :
    t = u := by
  obtain ⟨a, ha, rfl⟩ := ht.possible
  obtain ⟨b, hb, rfl⟩ := hu.possible
  exact ValueType.ext (Int.le_antisymm (ht.first b hb) (hu.first a ha))

/-- Deciding the ports one by one leaves nothing open. -/
theorem Decides.unique (ha : g.Decides s d choices a) (hb : g.Decides s d choices b) : b = a := by
  -- a port to decide has more than one type
  have hopen : ∀ {d : Domains} {p : PortId}, d.MostConstrained p →
      ¬ ∀ k : Nat, k < d.size → (d.typesOf (k : PortId)).length ≤ 1 := by
    rintro d p ⟨k, -, hk, hlen, -⟩ hall
    exact absurd (hall k hk) (Nat.not_le.2 hlen)
  induction ha with
  | decided h =>
    cases hb with
    | decided => rfl
    | choose hp => exact absurd h (hopen hp)
  | choose hp ht hd _ ih =>
    cases hb with
    | decided h => exact absurd h (hopen hp)
    | choose hp' ht' hd' hb =>
      obtain rfl := hp.unique hp'
      obtain rfl := ht.unique ht'
      rw [hd] at hd'
      cases hd'
      exact ih hb

theorem Preferred.unique (ha : g.Preferred a) (hb : g.Preferred b) : b = a := by
  obtain ⟨s, d, hs, hd, ha⟩ := ha
  obtain ⟨s', d', hs', hd', hb⟩ := hb
  rw [hs] at hs'
  cases hs'
  rw [hd] at hd'
  cases hd'
  exact ha.unique hb

/-! ### How search descends -/

/-- An entry of the search stack is viable: some assignment that passes the check is below it. -/
def Viable (g : Graph) (s : ConstraintSystem) (entry : Domains × PortId × ValueType) : Prop :=
  ∃ a, g.checkTypes a = .ok () ∧ s.Leads (assigned a) entry

/-- **Search descends from an entry to domains**: these are complete once the entry is decided, or
search descends to them from the first viable choice that is left. -/
inductive Descends (g : Graph) (s : ConstraintSystem) :
    Domains × PortId × ValueType → Domains → Prop
  | found {d d' : Domains} {p : PortId} {t : ValueType}
      (hd : (s.propagate (d.setIfInBounds p.toNat (.singleton t)) (s.startQueue p) 0).result = .ok d')
      (hc : d'.isComplete = true) : Descends g s (d, p, t) d'
  | deeper {d d' d'' : Domains} {p : PortId} {t : ValueType}
      {before after : List (Domains × PortId × ValueType)} {entry : Domains × PortId × ValueType}
      (hd : (s.propagate (d.setIfInBounds p.toNat (.singleton t)) (s.startQueue p) 0).result = .ok d')
      (hs : ConstraintSystem.choices d' = before ++ entry :: after)
      (hnot : ∀ e ∈ before, ¬ g.Viable s e) (h : Descends g s entry d'') :
      Descends g s (d, p, t) d''

/-- What passes the check solves the constraints. -/
theorem Consistent.solution (hg : g.Consistent) (hs : ConstraintSystem.ofGraph g = .ok s)
    (ha : g.checkTypes a = .ok ()) : s.Solution (assigned a) := by
  obtain ⟨s', hs', hsol, -⟩ := ((checkTypes_iff hg).1 ha).2.solution hg
  rw [hs] at hs'
  cases hs'
  exact hsol

/-- Deciding an entry keeps the assignments below it. -/
theorem Consistent.decide_admits (hg : g.Consistent) (hs : ConstraintSystem.ofGraph g = .ok s)
    (ha : g.checkTypes a = .ok ()) (h : s.Leads (assigned a) (d, p, t)) (queue : List Nat) :
    ∃ d', (s.propagate (d.setIfInBounds p.toNat (.singleton t)) queue 0).result = .ok d' ∧
      d'.Admits (assigned a) ∧ d'.size = s.byPort.size := by
  have hsize : (d.setIfInBounds p.toNat (.singleton t)).size = s.byPort.size := by
    rw [Array.size_setIfInBounds]
    exact h.size
  obtain ⟨d', hd', had, hsize'⟩ :=
    ConstraintSystem.propagate_admits queue 0 (hg.solution hs ha) hsize h.decide
  exact ⟨d', hd', had, hsize'.trans hsize⟩

/-- Below a viable entry that leaves a choice, some choice is viable. -/
theorem Viable.exists_choice (hg : g.Consistent) (hs : ConstraintSystem.ofGraph g = .ok s)
    (h : g.Viable s (d, p, t))
    (hd : (s.propagate (d.setIfInBounds p.toNat (.singleton t)) (s.startQueue p) 0).result = .ok d')
    (hc : ¬ d'.isComplete = true) : ∃ e ∈ ConstraintSystem.choices d', g.Viable s e := by
  obtain ⟨a, ha, hlead⟩ := h
  obtain ⟨d'', hd'', had, hsize⟩ := hg.decide_admits hs ha hlead (s.startQueue p)
  rw [hd] at hd''
  cases hd''
  obtain ⟨e, he, hlead⟩ := ConstraintSystem.exists_choice hsize had hc
  exact ⟨e, he, a, ha, hlead⟩

/-- **What search finds is below the first viable entry** of its stack. -/
theorem Consistent.search_descends (hg : g.Consistent) (hs : ConstraintSystem.ofGraph g = .ok s)
    {first : PortId} {budget : Nat} {state : ConstraintSystem.Search}
    (h : (s.search first budget state).1 = .ok d') :
    ∃ before entry after, state.stack = before ++ entry :: after ∧
      (∀ e ∈ before, ¬ g.Viable s e) ∧ g.Descends s entry d' := by
  induction budget generalizing state with
  | zero =>
    obtain ⟨stack, failed, stats⟩ := state
    cases stack with
    | nil => rw [ConstraintSystem.search] at h; cases h
    | cons entry stack => rw [ConstraintSystem.search] at h; cases h
  | succ budget ih =>
    obtain ⟨stack, failed, stats⟩ := state
    cases stack with
    | nil => rw [ConstraintSystem.search] at h; cases h
    | cons entry stack =>
      obtain ⟨d, p, t⟩ := entry
      rw [ConstraintSystem.search] at h
      simp only at h
      split at h
      · rename_i hfailed
        obtain ⟨before, entry, after, hstack, hnot, hdesc⟩ := ih h
        refine ⟨(d, p, t) :: before, entry, after, congrArg _ hstack, ?_, hdesc⟩
        refine List.forall_mem_cons.2 ⟨?_, hnot⟩
        rintro ⟨a, ha, hlead⟩
        obtain ⟨d'', hd'', -⟩ := hg.decide_admits hs ha hlead (s.startQueue p)
        rw [hfailed] at hd''
        cases hd''
      · rename_i d₂ hd₂
        split at h
        · rename_i hc
          cases h
          exact ⟨[], _, stack, rfl, fun e he => absurd he List.not_mem_nil, .found hd₂ hc⟩
        · rename_i hc
          obtain ⟨before, entry, after, hstack, hnot, hdesc⟩ := ih h
          -- the entry is one of the choices, or all of them are passed over
          rcases append_eq_append_cons hstack with ⟨rest, hchoices⟩ | ⟨rest, rfl, hrest⟩
          · exact ⟨[], _, stack, rfl, fun e he => absurd he List.not_mem_nil,
              .deeper hd₂ hchoices hnot hdesc⟩
          · refine ⟨(d, p, t) :: rest, entry, after, congrArg _ hrest, ?_, hdesc⟩
            refine List.forall_mem_cons.2 ⟨fun hv => ?_, fun e he =>
              hnot e (List.mem_append_right _ he)⟩
            obtain ⟨e, he, hve⟩ := hv.exists_choice hg hs hd₂ hc
            exact hnot e (List.mem_append_left _ he) hve

/-! ### What is known after some choices -/

/-- **What is known of domains after some choices**: they are stable, and the assignments that they
admit are those compatible with the choices. -/
structure Reached (g : Graph) (s : ConstraintSystem) (d : Domains)
    (choices : List (PortId × ValueType)) : Prop where
  within : d.Within g.domains
  stable : s.Stable d
  admits : ∀ a, g.Compatible choices a → d.Admits (assigned a)
  agrees : ∀ a, g.checkTypes a = .ok () → d.Admits (assigned a) →
    ∀ c ∈ choices, assigned a c.1 = c.2

namespace Reached

/-- A choice leaves domains to start from. -/
theorem ready_decide (h : g.Reached s d choices) (hready : s.Ready g.domains)
    (ht : (d.typesOf p).Mem t) : s.Ready (d.setIfInBounds p.toNat (.singleton t)) := by
  have hw := (ConstraintSystem.within_decide ht).trans h.within
  refine ⟨hready.indexed, hw.size.trans hready.size,
    fun i c hc q hq => hw.has (hready.ports i c hc q hq), hw.valid hready.valid, fun k hk => ?_⟩
  rw [Domains.typesOf_set ⟨t, ht⟩]
  split
  · exact ⟨t, TypeSet.mem_singleton.2 ⟨rfl, ht.inMask⟩⟩
  · rw [Array.size_setIfInBounds] at hk
    exact h.stable.inhabited k hk

/-- Once a port is decided, the constraints that do not touch it leave the domains as they are. -/
theorem narrowed_decide (h : g.Reached s d choices) (hready : s.Ready g.domains)
    (ht : (d.typesOf p).Mem t) : s.Narrowed (d.setIfInBounds p.toNat (.singleton t))
      (d.setIfInBounds p.toNat (.singleton t)) (s.startQueue p) := by
  refine ⟨Domains.Within.refl _, (h.ready_decide hready ht).inhabited, fun i c hc hi => ?_,
    fun _ _ he => he⟩
  refine Rule.effect_congr (fun q hq => ?_) (h.stable.unchanged i c hc)
  rw [Domains.typesOf_set ⟨t, ht⟩, if_neg ?_]
  rintro rfl
  obtain ⟨k, rfl, hk⟩ := hready.ports i c hc q hq
  have htouch := hready.indexed.touching i k c hc hq (by rw [← hready.size]; exact hk)
  rw [ConstraintSystem.startQueue] at hi
  split at hi
  · rename_i hnone
    rw [hnone] at htouch
    cases htouch
  · exact hi htouch

/-- **One more choice**: what is known of the domains is known of those that propagation leaves. -/
theorem chosen (hg : g.Consistent) (hs : ConstraintSystem.ofGraph g = .ok s)
    (hready : s.Ready g.domains) (h : g.Reached s d choices) (hp : d.Has p)
    (ht : (d.typesOf p).Mem t) {queue : List Nat}
    (hd : (s.propagate (d.setIfInBounds p.toNat (.singleton t)) queue 0).result = .ok d')
    (hn : s.Narrowed (d.setIfInBounds p.toNat (.singleton t)) d' []) :
    g.Reached s d' ((p, t) :: choices) ∧ d'.Within d := by
  have hw : d'.Within d := hn.within.trans (ConstraintSystem.within_decide ht)
  refine ⟨⟨hw.trans h.within, hn.stable, fun a ha => ?_, fun a ha had => ?_⟩, hw⟩
  · obtain ⟨hat, hchoices⟩ := List.forall_mem_cons.1 ha.agrees
    have hlead : s.Leads (assigned a) (d, p, t) :=
      ⟨h.within.size.trans hready.size, h.admits a ⟨ha.check, hchoices⟩, hat, hp⟩
    obtain ⟨d₂, hd₂, had, -⟩ := hg.decide_admits hs ha.check hlead queue
    rw [hd] at hd₂
    cases hd₂
    exact had
  · refine List.forall_mem_cons.2 ⟨?_, h.agrees a ha (had.of_within hw)⟩
    have hmem := hn.within.mem _ _ (had.mem (hw.has hp))
    rw [Domains.typesOf_set ⟨t, ht⟩, if_pos rfl, TypeSet.mem_singleton] at hmem
    exact hmem.1

/-- The constraints that touch a decided port leave what all constraints leave. -/
theorem decide (hg : g.Consistent) (hs : ConstraintSystem.ofGraph g = .ok s)
    (hready : s.Ready g.domains) (h : g.Reached s d choices) (hp : d.Has p)
    (ht : (d.typesOf p).Mem t)
    (hd : (s.propagate (d.setIfInBounds p.toNat (.singleton t)) (s.startQueue p) 0).result =
      .ok d') :
    g.Reached s d' ((p, t) :: choices) ∧ d'.Within d ∧
      (s.propagate (d.setIfInBounds p.toNat (.singleton t)) s.all 0).result = .ok d' := by
  have hready' := h.ready_decide hready ht
  have hn := (h.narrowed_decide hready ht).of_propagate hready' hd
  obtain ⟨hreached, hw⟩ := h.chosen hg hs hready hp ht hd hn
  refine ⟨hreached, hw, ?_⟩
  rcases hready'.narrowed.propagate hready' 0 with ⟨d₂, hd₂, hn₂⟩ | ⟨c, -, hnone⟩
  · rw [← hn.eq hn₂]
    exact hd₂
  · exact absurd hn.within (hnone d' hn.stable)

/-- Complete domains assign types that pass the check. -/
theorem assignment (hg : g.Consistent) (hs : ConstraintSystem.ofGraph g = .ok s)
    (hready : s.Ready g.domains) (h : g.Reached s d choices) (hc : d.isComplete = true) :
    g.checkTypes d.assignment = .ok () ∧ d.Admits (assigned d.assignment) := by
  have hsteady : s.Steady d [] := fun i c hi _ => Rule.narrow_settled (hready.indexed.proper i c hi)
    (Rule.effect_eq_unchanged.1 (h.stable.unchanged i c hi))
  refine ⟨(checkTypes_iff hg).2 ⟨?_, typed_of_steady hg hs hsteady h.within hc⟩, fun k hk => ?_⟩
  · rw [Domains.assignment, Array.size_map, h.within.size, domains, Array.size_map]
  · rw [TypeSet.Mem, toList_of_isComplete hc hk]
    exact List.mem_singleton_self _

/-- **The first viable choice decides the most constrained port for its preferred type.** -/
theorem prefers (hready : s.Ready g.domains) (h : g.Reached s d choices)
    {before after : List (Domains × PortId × ValueType)} {entry : Domains × PortId × ValueType}
    (hsplit : ConstraintSystem.choices d = before ++ entry :: after)
    (hnot : ∀ e ∈ before, ¬ g.Viable s e) :
    ∃ p t, entry = (d, p, t) ∧ d.MostConstrained p ∧ (d.typesOf p).Mem t ∧
      ∀ a, g.Compatible choices a → t.code ≤ (assigned a p).code := by
  rw [ConstraintSystem.choices] at hsplit
  rcases d.mostConstrained?_spec with ⟨p, hp, hmost⟩ | ⟨hnone, -⟩
  swap
  · rw [hnone] at hsplit
    exact absurd hsplit.symm (by simp)
  rw [hp] at hsplit
  obtain ⟨lower, rest, hlist, rfl, hrest⟩ := List.map_eq_append_iff.1 hsplit
  obtain ⟨t, higher, rfl, rfl, -⟩ := List.map_eq_cons_iff.1 hrest
  have ht : (d.typesOf p).Mem t := by
    rw [TypeSet.Mem, hlist]
    exact List.mem_append_right _ List.mem_cons_self
  refine ⟨p, t, rfl, hmost, ht, fun a ha => ?_⟩
  have had := h.admits a ha
  have hmem := had.mem hmost.has
  have hsorted := (d.typesOf p).sorted_toList
  rw [TypeSet.Mem, hlist] at hmem
  rw [hlist, List.pairwise_append] at hsorted
  rcases List.mem_append.1 hmem with hlower | hhigher
  · -- a lower type is not viable, and this one would be
    refine absurd ?_ (hnot (d, p, assigned a p)
      (List.mem_map_of_mem (f := fun t => (d, p, t)) hlower))
    exact ⟨a, ha.check, h.within.size.trans hready.size, had, rfl, hmost.has⟩
  · rcases List.mem_cons.1 hhigher with heq | hhigher
    · rw [heq]
    · exact Int.le_of_lt (List.rel_of_pairwise_cons hsorted.2.1 hhigher)

/-- **One step down**: what is decided after the first viable choice is decided before it. -/
theorem step (hg : g.Consistent) (hs : ConstraintSystem.ofGraph g = .ok s)
    (hready : s.Ready g.domains) (h : g.Reached s d choices)
    {before after : List (Domains × PortId × ValueType)} {d₁ : Domains}
    (hsplit : ConstraintSystem.choices d = before ++ (d₁, p, t) :: after)
    (hnot : ∀ e ∈ before, ¬ g.Viable s e)
    (hd : (s.propagate (d₁.setIfInBounds p.toNat (.singleton t)) (s.startQueue p) 0).result =
      .ok d') :
    ∃ c, g.Reached s d' (c :: choices) ∧ ∀ a, g.checkTypes a = .ok () → d'.Admits (assigned a) →
      g.Decides s d' (c :: choices) a → g.Decides s d choices a ∧ d.Admits (assigned a) := by
  obtain ⟨q, u, heq, hmost, hu, hfirst⟩ := h.prefers hready hsplit hnot
  cases heq
  obtain ⟨hreached, hw, hall⟩ := h.decide hg hs hready hmost.has hu hd
  refine ⟨_, hreached, fun a ha had hdec => ?_⟩
  have hat := (List.forall_mem_cons.1 (hreached.agrees a ha had)).1
  have hcompatible : g.Compatible choices a := ⟨ha, h.agrees a ha (had.of_within hw)⟩
  exact ⟨.choose hmost ⟨⟨a, hcompatible, hat⟩, hfirst⟩ hall hdec, had.of_within hw⟩

end Reached

/-- Complete domains leave nothing to decide. -/
theorem Decides.of_isComplete (hc : d.isComplete = true) : g.Decides s d choices d.assignment :=
  .decided fun k hk => by rw [TypeSet.length, toList_of_isComplete hc hk, List.length_singleton]

/-- **What search descends to is decided port by port.** -/
theorem Descends.decides (hg : g.Consistent) (hs : ConstraintSystem.ofGraph g = .ok s)
    (hready : s.Ready g.domains) {entry : Domains × PortId × ValueType}
    (hdesc : g.Descends s entry d') (h : g.Reached s d choices)
    {before after : List (Domains × PortId × ValueType)}
    (hsplit : ConstraintSystem.choices d = before ++ entry :: after)
    (hnot : ∀ e ∈ before, ¬ g.Viable s e) :
    g.checkTypes d'.assignment = .ok () ∧ g.Decides s d choices d'.assignment ∧
      d.Admits (assigned d'.assignment) := by
  induction hdesc generalizing d choices before after with
  | found hd hc =>
    obtain ⟨c, hreached, hstep⟩ := h.step hg hs hready hsplit hnot hd
    obtain ⟨hcheck, had⟩ := hreached.assignment hg hs hready hc
    exact ⟨hcheck, hstep _ hcheck had (.of_isComplete hc)⟩
  | deeper hd hs' hnot' _ ih =>
    obtain ⟨c, hreached, hstep⟩ := h.step hg hs hready hsplit hnot hd
    obtain ⟨hcheck, hdec, had⟩ := ih hreached hs' hnot'
    exact ⟨hcheck, hstep _ hcheck had hdec⟩

/-- The declared types, propagated: nothing is chosen, and every assignment that passes the check is
admitted. -/
theorem Consistent.reached (hg : g.Consistent) (hs : ConstraintSystem.ofGraph g = .ok s)
    (hready : s.Ready g.domains) (hd : (s.propagate g.domains s.all 0).result = .ok d) :
    g.Reached s d [] := by
  have hn := hready.narrowed.of_propagate hready hd
  refine ⟨hn.within, hn.stable, fun a ha => ?_, fun _ _ _ c hc => absurd hc List.not_mem_nil⟩
  obtain ⟨s', hs', hsol, had, hsize⟩ := ((checkTypes_iff hg).1 ha.check).2.solution hg
  rw [hs] at hs'
  cases hs'
  obtain ⟨d', hd', had', -⟩ := ConstraintSystem.propagate_admits s.all 0 hsol hsize had
  rw [hd] at hd'
  cases hd'
  exact had'

/-- What resolution finds is decided port by port. -/
theorem Consistent.preferred (hg : g.Consistent) {budget : Int}
    (h : (g.resolveTypes budget).1 = .ok a) : g.Preferred a := by
  obtain ⟨s, hs, hready⟩ := hg.ready
  rw [resolveTypes, hs] at h
  dsimp only at h
  split at h
  · cases h
  · rename_i d hd
    refine ⟨s, d, hs, hd, ?_⟩
    split at h
    · rename_i hcomplete
      cases h
      exact .of_isComplete hcomplete
    · split at h
      · rename_i d' hfound
        cases h
        obtain ⟨before, entry, after, hsplit, hnot, hdesc⟩ := hg.search_descends hs hfound
        exact (hdesc.decides hg hs hready (hg.reached hs hready hd) hsplit hnot).2.1
      · cases h

/-- **The resolved types are the preferred ones**, whatever the budget: the types that the ports have
if the most constrained port is decided, again and again, for the first type that it has in an
assignment that passes the check and agrees with what was decided before. -/
theorem Built.resolveTypes_preferred (hg : g.Built) {budget : Int} {a : TypeAssignment}
    (h : (g.resolveTypes budget).1 = .ok a) : g.Preferred a ∧ ∀ b, g.Preferred b → b = a := by
  have hpref := hg.consistent.preferred h
  exact ⟨hpref, fun b hb => hpref.unique hb⟩

/-- An open negation and an open comparison: the operands compared have fewer types, so the first of
them is decided before the operand negated. -/
theorem resolveTypes_preferred_compare :
    let g := grown [.node (Uuid.ofBytes [1]) "" .negate .none,
      .node (Uuid.ofBytes [2]) "" .compare (.compare .less)]
    let a : TypeAssignment := #[.float, .float, .float, .float, .bool]
    (g.resolveTypes 0).1 = .ok a ∧ g.Preferred a ∧ ∀ b, g.Preferred b → b = a := by
  intro g a
  have hwithin : g.typesWithin? 20 = some a := by decide +kernel
  have h : (g.resolveTypes 0).1 = .ok a := resolveTypes_of_within hwithin
  exact ⟨h, (Built.grown _).resolveTypes_preferred h⟩

end Graph

end NodeShader
