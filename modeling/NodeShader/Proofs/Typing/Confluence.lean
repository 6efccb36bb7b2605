import Mathlib
import NodeShader.Proofs.Typing.Support

/-!
# Propagation in any order

Propagation applies constraints that wait until none does, first in first out, and a constraint that
has just been applied does not wait for its own changes.  Neither matters.  In whatever order
constraints take their turns (`ConstraintSystem.Turn`), what holds at the start is kept
(`Narrowed.turn`): a constraint that does not wait leaves the domains as they are, and stable domains
within those at the start stay within them.  So at the end the domains are the largest stable ones.

* `ConstraintSystem.wellFounded_turn`: every order comes to an end.
* `Narrowed.eq`: **all orders end in the same domains**.
* `Graph.Built.narrowTypes_greatest`: narrowing the types of a graph finds its largest stable domains.
-/

namespace NodeShader

namespace ConstraintSystem

variable {s : ConstraintSystem} {d d' d₀ e : Domains} {queue rest : List Nat} {c : Constraint}
  {i : Nat} {touched : List PortId}

/-- **Stable domains**: every port has a type, and every constraint leaves them as they are. -/
structure Stable (s : ConstraintSystem) (e : Domains) : Prop where
  inhabited : e.Inhabited
  unchanged : ∀ (i : Nat) (c : Constraint), s.constraints[i]? = some c → c.rule.effect e = .unchanged

/-- Domains to start from: every port has a type, and the constraints are about these ports. -/
structure Ready (s : ConstraintSystem) (d : Domains) : Prop where
  indexed : s.Indexed
  size : d.size = s.byPort.size
  ports : ∀ (i : Nat) (c : Constraint), s.constraints[i]? = some c → ∀ p ∈ c.rule.ports, d.Has p
  valid : d.Valid
  inhabited : d.Inhabited

/-- **What holds while types are narrowed**: the constraints that do not wait leave the domains as
they are, and what is stable within the domains at the start is within them. -/
structure Narrowed (s : ConstraintSystem) (d₀ d : Domains) (queue : List Nat) : Prop where
  within : d.Within d₀
  inhabited : d.Inhabited
  quiet : ∀ (i : Nat) (c : Constraint), s.constraints[i]? = some c → i ∉ queue →
    c.rule.effect d = .unchanged
  above : ∀ e, s.Stable e → e.Within d₀ → e.Within d

/-- Every constraint waits at the start. -/
theorem Ready.narrowed (hs : s.Ready d) : s.Narrowed d d s.all :=
  ⟨Domains.Within.refl d, hs.inhabited, fun _ _ hc hi =>
    absurd (List.mem_range.2 (Array.getElem?_eq_some_iff.1 hc).1) hi, fun _ _ he => he⟩

theorem Ready.exists_mem (hs : s.Ready d₀) (hd : d.Within d₀) (hne : d.Inhabited)
    (hc : s.constraints[i]? = some c) : ∀ p ∈ c.rule.ports, ∃ t, (d.typesOf p).Mem t :=
  fun p hp => hne.exists_mem (hd.has (hs.ports i c hc p hp))

namespace Narrowed

/-- **One turn**: the constraint that is applied leaves the new domains as they are, and so does what
its changes do not touch. -/
theorem step (h : s.Narrowed d₀ d queue) (hs : s.Ready d₀) (hc : s.constraints[i]? = some c)
    (hn : c.rule.narrow d = some (d', touched)) (hrest : ∀ j ∈ queue, j = i ∨ j ∈ rest) :
    s.Narrowed d₀ d' (s.enqueue i rest touched) := by
  have hvalid := h.within.valid hs.valid
  have hproper := hs.indexed.proper i c hc
  have hw : d'.Within d₀ := (Domains.within_of_narrow hn).trans h.within
  have hne : d'.Inhabited := h.inhabited.narrow hn
  refine ⟨hw, hne, fun j c' hc' hj => ?_, fun e he hed => ?_⟩
  · rw [mem_enqueue, not_or, not_and] at hj
    by_cases hji : j = i
    · subst hji
      rw [hc] at hc'
      cases hc'
      exact Rule.effect_narrow hproper hvalid (hs.exists_mem hw hne hc) hn
    · have hjq : j ∉ queue := fun hq => (hrest j hq).elim hji hj.1
      refine Rule.effect_congr (fun p hp => (Domains.narrow_spec hn).2.1 p fun ht => ?_)
        (h.quiet j c' hc' hjq)
      obtain ⟨k, rfl, hk⟩ := hs.ports j c' hc' p hp
      exact hj.2 hji (List.mem_flatMap.2
        ⟨_, ht, hs.indexed.touching j k c' hc' hp (by rw [← hs.size]; exact hk)⟩)
  · obtain ⟨d'', touched', hn', hed'⟩ := Rule.narrow_above hproper hvalid (h.above e he hed)
      (hs.exists_mem hed he.inhabited hc) (he.unchanged i c hc)
    rw [hn] at hn'
    cases hn'
    exact hed'

/-- **A contradiction**: no domains within those at the start are stable. -/
theorem not_stable (h : s.Narrowed d₀ d queue) (hs : s.Ready d₀) (hc : s.constraints[i]? = some c)
    (hn : c.rule.narrow d = none) : ∀ e, s.Stable e → ¬ e.Within d₀ := by
  intro e he hed
  obtain ⟨d', touched, hn', -⟩ := Rule.narrow_above (hs.indexed.proper i c hc)
    (h.within.valid hs.valid) (h.above e he hed) (hs.exists_mem hed he.inhabited hc)
    (he.unchanged i c hc)
  rw [hn] at hn'
  cases hn'

/-- Where nothing waits the domains are stable. -/
theorem stable (h : s.Narrowed d₀ d []) : s.Stable d :=
  ⟨h.inhabited, fun i c hc => h.quiet i c hc List.not_mem_nil⟩

/-- **All orders end in the same domains.** -/
theorem eq (h : s.Narrowed d₀ d []) (h' : s.Narrowed d₀ d' []) : d' = d :=
  (h.above d' h'.stable h'.within).antisymm (h'.above d h.stable h.within)

end Narrowed

/-! ### Turns in any order -/

/-- **One turn, in any order**: of the constraints that wait, some one is applied. -/
inductive Turn (s : ConstraintSystem) : Domains × List Nat → Domains × List Nat → Prop
  | skip {d : Domains} {before after : List Nat} {i : Nat} (hi : s.constraints[i]? = none) :
      s.Turn (d, before ++ i :: after) (d, before ++ after)
  | apply {d d' : Domains} {before after : List Nat} {i : Nat} {c : Constraint}
      {touched : List PortId} (hi : s.constraints[i]? = some c)
      (hn : c.rule.narrow d = some (d', touched)) :
      s.Turn (d, before ++ i :: after) (d', s.enqueue i (before ++ after) touched)

/-- The first constraint that waits may take its turn. -/
theorem Turn.head (hi : s.constraints[i]? = some c) (hn : c.rule.narrow d = some (d', touched)) :
    s.Turn (d, i :: rest) (d', s.enqueue i rest touched) :=
  @Turn.apply s d d' [] rest i c touched hi hn

theorem Turn.skipHead (hi : s.constraints[i]? = none) : s.Turn (d, i :: rest) (d, rest) :=
  @Turn.skip s d [] rest i hi

/-- Some constraint that waits leaves a port without a type. -/
def Fails (s : ConstraintSystem) (d : Domains) (queue : List Nat) : Prop :=
  ∃ i ∈ queue, ∃ c, s.constraints[i]? = some c ∧ c.rule.narrow d = none

/-- As long as a constraint waits, some turn can be taken, or a contradiction is met. -/
theorem exists_turn (hq : queue ≠ []) : s.Fails d queue ∨ ∃ x, s.Turn (d, queue) x := by
  obtain ⟨i, after, rfl⟩ := List.exists_cons_of_ne_nil hq
  cases hc : s.constraints[i]? with
  | none => exact .inr ⟨_, .skipHead hc⟩
  | some c =>
    cases hn : c.rule.narrow d with
    | none => exact .inl ⟨i, List.mem_cons_self, c, hc, hn⟩
    | some r => exact .inr ⟨_, .head hc hn⟩

/-- **Every order comes to an end**: a turn takes types away, or one constraint less waits. -/
theorem wellFounded_turn (s : ConstraintSystem) : WellFounded fun y x => s.Turn x y := by
  refine Subrelation.wf (r := InvImage (Prod.Lex (· < ·) (· < ·))
    fun x : Domains × List Nat => (x.1.weight, x.2.length)) ?_
    (InvImage.wf _ (Prod.lex Nat.lt_wfRel Nat.lt_wfRel).wf)
  intro y x h
  cases h with
  | skip hi => exact .right _ (by simp)
  | apply hi hn =>
    rename_i touched
    have hweight := Domains.weight_narrow hn
    cases touched with
    | nil =>
      rw [Domains.eq_of_narrow_nil hn]
      exact .right _ (by simp [enqueue])
    | cons p touched =>
      rw [List.length_cons] at hweight
      refine .left _ _ ?_
      dsimp only
      omega

/-- What holds while types are narrowed is kept by every turn. -/
theorem Narrowed.turn {x y : Domains × List Nat} (hs : s.Ready d₀) (h : s.Narrowed d₀ x.1 x.2)
    (ht : s.Turn x y) : s.Narrowed d₀ y.1 y.2 := by
  cases ht with
  | skip hi =>
    refine ⟨h.within, h.inhabited, fun j c hc hj => h.quiet j c hc ?_, h.above⟩
    intro hm
    rcases List.mem_append.1 hm with hm | hm
    · exact hj (List.mem_append_left _ hm)
    · rcases List.mem_cons.1 hm with rfl | hm
      · rw [hi] at hc
        cases hc
      · exact hj (List.mem_append_right _ hm)
  | apply hi hn =>
    refine h.step hs hi hn fun j hj => ?_
    rcases List.mem_append.1 hj with hj | hj
    · exact .inr (List.mem_append_left _ hj)
    · exact (List.mem_cons.1 hj).imp_right (List.mem_append_right _)

theorem Narrowed.turns {x y : Domains × List Nat} (hs : s.Ready d₀) (h : s.Narrowed d₀ x.1 x.2)
    (ht : Relation.ReflTransGen s.Turn x y) : s.Narrowed d₀ y.1 y.2 := by
  induction ht with
  | refl => exact h
  | tail _ ht ih => exact ih.turn hs ht

/-- Turns lead to an outcome: to domains when nothing waits, to a contradiction when one is met. -/
def LeadsTo (s : ConstraintSystem) (x : Domains × List Nat) : Except Constraint Domains → Prop
  | .ok d => Relation.ReflTransGen s.Turn x (d, [])
  | .error _ => ∃ y, Relation.ReflTransGen s.Turn x y ∧ s.Fails y.1 y.2

theorem LeadsTo.head {x y : Domains × List Nat} {o : Except Constraint Domains} (ht : s.Turn x y)
    (h : s.LeadsTo y o) : s.LeadsTo x o := by
  cases o with
  | ok d => exact Relation.ReflTransGen.head ht h
  | error c =>
    obtain ⟨z, hz, hfails⟩ := h
    exact ⟨z, .head ht hz, hfails⟩

/-- **Propagation takes turns**, until nothing waits or it meets a contradiction. -/
theorem propagate_turns (s : ConstraintSystem) (d : Domains) (queue : List Nat) (steps : Nat) :
    s.LeadsTo (d, queue) (s.propagate d queue steps).result := by
  fun_induction propagate s d queue steps with
  | case1 d steps => exact .refl
  | case2 d steps i rest hi ih => exact ih.head (.skipHead hi)
  | case3 d steps i rest c hc hn => exact ⟨_, .refl, i, List.mem_cons_self, c, hc, hn⟩
  | case4 d steps i rest c hc d₂ hn ih =>
    have hturn : s.Turn (d, i :: rest) (d₂, s.enqueue i rest []) := .head hc hn
    rw [Domains.eq_of_narrow_nil hn] at hturn
    exact ih.head hturn
  | case5 d steps i rest c hc d₂ p touched hn ih => exact ih.head (.head hc hn)

/-- **Propagation finds the largest stable domains** within those at the start, or there are none. -/
theorem Narrowed.propagate (hs : s.Ready d₀) (h : s.Narrowed d₀ d queue) (steps : Nat) :
    (∃ d', (s.propagate d queue steps).result = .ok d' ∧ s.Narrowed d₀ d' []) ∨
      ∃ c, (s.propagate d queue steps).result = .error c ∧ ∀ e, s.Stable e → ¬ e.Within d₀ := by
  have hturns := s.propagate_turns d queue steps
  cases hr : (s.propagate d queue steps).result with
  | ok d' =>
    rw [hr] at hturns
    exact .inl ⟨d', rfl, h.turns (x := (d, queue)) hs hturns⟩
  | error c =>
    rw [hr] at hturns
    obtain ⟨x, hx, i, -, c', hc', hn⟩ := hturns
    exact .inr ⟨c, rfl, (h.turns (x := (d, queue)) hs hx).not_stable hs hc' hn⟩

theorem Narrowed.of_propagate (hs : s.Ready d₀) (h : s.Narrowed d₀ d queue) {steps : Nat}
    (hd : (s.propagate d queue steps).result = .ok d') : s.Narrowed d₀ d' [] := by
  rcases h.propagate hs steps with ⟨d₂, hd₂, hn⟩ | ⟨c, hc, -⟩
  · rw [hd] at hd₂
    cases hd₂
    exact hn
  · rw [hd] at hc
    cases hc

end ConstraintSystem

namespace Graph

variable {g : Graph}

/-- **Domains of a graph that are stable**: within the declared types, with a type for each port, and
every constraint leaves them as they are. -/
structure Stable (g : Graph) (e : Domains) : Prop where
  declared : e.Within g.domains
  inhabited : e.Inhabited
  unchanged : ∃ cs, g.constraints = .ok cs ∧ ∀ c ∈ cs, c.rule.effect e = .unchanged

/-- The declared types are domains to start from. -/
theorem Consistent.ready (hg : g.Consistent) :
    ∃ s, ConstraintSystem.ofGraph g = .ok s ∧ s.Ready g.domains := by
  obtain ⟨cs, hcs⟩ := hg.exists_constraints
  have hok : ∃ s, ConstraintSystem.ofGraph g = .ok s := by
    rw [ConstraintSystem.ofGraph, hcs]
    exact ⟨_, rfl⟩
  obtain ⟨s, hs⟩ := hok
  obtain ⟨hsize, hcs', -⟩ := ConstraintSystem.ofGraph_touching hs
  have hdsize : g.domains.size = g.ports.size := by rw [domains, Array.size_map]
  -- the declared types of a port
  have hport : ∀ k : Nat, k < g.domains.size → ∃ p, g.port? (k : PortId) = some p ∧
      g.domains.typesOf (k : PortId) = p.type := by
    intro k hk
    rw [hdsize] at hk
    refine ⟨g.ports[k], Array.getElem?_eq_getElem hk, ?_⟩
    rw [Domains.typesOf, at?_natCast, domains, Array.getElem?_map, Array.getElem?_eq_getElem hk]
    rfl
  refine ⟨s, hs, hg.indexed hs, by rw [hdsize, hsize], ?_, ?_, ?_⟩
  · intro i c hc q hq
    have hmem : c ∈ s.constraints.toList := by
      refine List.mem_of_getElem? (i := i) ?_
      rw [Array.getElem?_toList]
      exact hc
    obtain ⟨p, hp⟩ := (hg.constraint_ports hcs' hmem).2 q hq
    obtain ⟨k, rfl, hk⟩ := at?_eq_some hp
    exact ⟨k, rfl, by rw [hdsize]; exact (Array.getElem?_eq_some_iff.1 hk).1⟩
  · intro q t ht
    cases q with
    | negSucc k => exact absurd ht TypeSet.not_mem_empty
    | ofNat k =>
      by_cases hk : k < g.domains.size
      · obtain ⟨p, hp, htypes⟩ := hport k hk
        exact hg.isValid_of_mem hp (htypes ▸ ht)
      · rw [Domains.typesOf] at ht
        rw [show Array.at? g.domains (Int.ofNat k) = none from
          Array.getElem?_eq_none (Nat.le_of_not_lt hk)] at ht
        exact absurd ht TypeSet.not_mem_empty
  · intro k hk
    obtain ⟨p, hp, htypes⟩ := hport k hk
    rw [htypes]
    exact hg.exists_type hp

/-- What is stable for a graph is what is stable for its constraints, within the declared types. -/
theorem stable_iff {s : ConstraintSystem} (hs : ConstraintSystem.ofGraph g = .ok s) {e : Domains} :
    g.Stable e ↔ s.Stable e ∧ e.Within g.domains := by
  obtain ⟨-, hcs, -⟩ := ConstraintSystem.ofGraph_touching hs
  constructor
  · rintro ⟨hw, hne, cs, hcs', hu⟩
    rw [hcs] at hcs'
    cases hcs'
    refine ⟨⟨hne, fun i c hc => hu c (List.mem_of_getElem? (i := i) ?_)⟩, hw⟩
    rw [Array.getElem?_toList]
    exact hc
  · rintro ⟨⟨hne, hu⟩, hw⟩
    refine ⟨hw, hne, _, hcs, fun c hc => ?_⟩
    obtain ⟨i, hi⟩ := List.getElem?_of_mem hc
    rw [Array.getElem?_toList] at hi
    exact hu i c hi

/-- Narrowing gives stable domains that hold all others, or there are none. -/
theorem narrowTypes_cases {s : ConstraintSystem} (hs : ConstraintSystem.ofGraph g = .ok s)
    (hready : s.Ready g.domains) :
    (∃ d, g.narrowTypes = .ok d ∧ s.Narrowed g.domains d []) ∨
      (∃ e, g.narrowTypes = .error e) ∧ ∀ e, s.Stable e → ¬ e.Within g.domains := by
  rw [narrowTypes, hs]
  dsimp only
  rcases hready.narrowed.propagate hready 0 with ⟨d, hd, h⟩ | ⟨c, hc, hnone⟩
  · rw [hd]
    exact .inl ⟨d, rfl, h⟩
  · rw [hc]
    exact .inr ⟨⟨_, rfl⟩, hnone⟩

/-- **Narrowing finds the largest stable domains**: it succeeds exactly if there are stable domains,
the domains it gives are stable, and all others are within them.  The constraints may as well take
their turns in any other order: every order comes to an end, in the same domains or in a
contradiction as narrowing does. -/
theorem Built.narrowTypes_greatest (hg : g.Built) :
    ((∃ d, g.narrowTypes = .ok d) ↔ ∃ e, g.Stable e) ∧
      (∀ d, g.narrowTypes = .ok d → g.Stable d ∧ ∀ e, g.Stable e → e.Within d) ∧
      ∃ s, ConstraintSystem.ofGraph g = .ok s ∧ (WellFounded fun y x => s.Turn x y) ∧
        ∀ d queue, Relation.ReflTransGen s.Turn (g.domains, s.all) (d, queue) →
          (queue = [] → g.narrowTypes = .ok d) ∧
          (s.Fails d queue → ∃ e, g.narrowTypes = .error e) ∧
          (queue ≠ [] → s.Fails d queue ∨ ∃ x, s.Turn (d, queue) x) := by
  obtain ⟨s, hs, hready⟩ := hg.consistent.ready
  have hstable := fun e => stable_iff (e := e) hs
  have hturns : ∀ d queue, Relation.ReflTransGen s.Turn (g.domains, s.all) (d, queue) →
      s.Narrowed g.domains d queue := fun d queue ht => hready.narrowed.turns hready ht
  rcases narrowTypes_cases hs hready with ⟨d', hd', h'⟩ | ⟨⟨e', he'⟩, hnone⟩
  · have hd'stable : g.Stable d' := (hstable d').2 ⟨h'.stable, h'.within⟩
    refine ⟨⟨fun _ => ⟨d', hd'stable⟩, fun _ => ⟨d', hd'⟩⟩, ?_, s, hs, s.wellFounded_turn,
      fun d queue ht => ⟨?_, ?_, ConstraintSystem.exists_turn⟩⟩
    · intro d hd
      rw [hd'] at hd
      cases hd
      exact ⟨hd'stable, fun e he => h'.above e ((hstable e).1 he).1 ((hstable e).1 he).2⟩
    · rintro rfl
      rw [hd', h'.eq (hturns d [] ht)]
    · rintro ⟨i, -, c, hc, hn⟩
      exact absurd h'.within ((hturns d queue ht).not_stable hready hc hn d' h'.stable)
  · have hno : ∀ e, ¬ g.Stable e := fun e he => hnone e ((hstable e).1 he).1 ((hstable e).1 he).2
    have hfail : ∀ d, g.narrowTypes ≠ .ok d := fun d hd => by rw [he'] at hd; cases hd
    refine ⟨⟨fun ⟨d, hd⟩ => absurd hd (hfail d), fun ⟨e, he⟩ => absurd he (hno e)⟩,
      fun d hd => absurd hd (hfail d), s, hs, s.wellFounded_turn,
      fun d queue ht => ⟨?_, fun _ => ⟨_, he'⟩, ConstraintSystem.exists_turn⟩⟩
    rintro rfl
    exact absurd (hturns d [] ht).within (hnone d (hturns d [] ht).stable)

/-- Two parts of three components: one has one component and the other two, and propagation cannot
tell which. -/
theorem narrowTypes_greatest_combine :
    let g := grown [.node (Uuid.ofBytes [1]) "" .combine (.combine 2),
      .node (Uuid.ofBytes [2]) "" .materialOutput .none, .edge 2 3]
    let part : TypeSet := .ofList [.float, .float2]
    let d : Domains := #[part, part, .singleton .float3, .singleton .float3, .singleton .float,
      .singleton .float3]
    g.narrowTypes = .ok d ∧ (g.Stable d ∧ ∀ e, g.Stable e → e.Within d) ∧
      ∃ s, ConstraintSystem.ofGraph g = .ok s ∧ ∀ d',
        Relation.ReflTransGen s.Turn (g.domains, s.all) (d', []) → d' = d := by
  intro g part d
  have hwithin : (g.narrowWithin? 20).bind (·.toOption) = some d := by decide +kernel
  have h : g.narrowTypes = .ok d := by
    obtain ⟨r, hr, hd⟩ := Option.bind_eq_some_iff.1 hwithin
    rw [narrowTypes_of_within hr]
    exact toOption_eq_some.1 hd
  obtain ⟨-, hgreatest, s, hs, -, hturns⟩ := (Built.grown _ : g.Built).narrowTypes_greatest
  refine ⟨h, hgreatest d h, s, hs, fun d' ht => ?_⟩
  have hd' := (hturns d' [] ht).1 rfl
  rw [h] at hd'
  cases hd'
  rfl

end Graph

end NodeShader
