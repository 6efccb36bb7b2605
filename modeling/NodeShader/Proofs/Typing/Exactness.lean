import Mathlib
import NodeShader.Proofs.Typing.Solutions

/-!
# Type resolution is exact

A typing of a graph is never lost: it stays in the domains while constraints are propagated
(`ConstraintSystem.propagate_admits`), and while it is not found some entry of the search stack still
leads to it (`ConstraintSystem.search_exhausted`).

* `Graph.Built.resolveTypes_sound`: **what is resolved passes the check**, and each port has a type
  that propagation alone leaves it.
* `Graph.Built.resolveTypes_complete`: **where resolution gives up before its budget is spent, no
  assignment passes the check**.
-/

namespace NodeShader

variable {τ : PortId → ValueType}

/-- The domains hold the chosen type of every port. -/
def Domains.Admits (d : Domains) (τ : PortId → ValueType) : Prop :=
  ∀ k : Nat, k < d.size → (d.typesOf (k : PortId)).Mem (τ k)

namespace Domains

variable {d : Domains}

/-- The better of a port found before and the next one. -/
def tighter (best : Option (Nat × Nat)) (entry : TypeSet × Nat) : Option (Nat × Nat) :=
  let n := entry.1.length
  if n ≤ 1 then best
  else
    match best with
    | none => some (entry.2, n)
    | some (_, m) => if n < m then some (entry.2, n) else best

theorem mostConstrained?_eq (d : Domains) :
    d.mostConstrained? = (d.toList.zipIdx.foldl tighter none).map fun b => (b.1 : Int) := rfl

/-- What is kept while the most constrained port is looked for: of the ports seen that have more than
one type, the first with the fewest. -/
def Found (seen : List (TypeSet × Nat)) : Option (Nat × Nat) → Prop
  | none => ∀ e ∈ seen, e.1.length ≤ 1
  | some b => 1 < b.2 ∧ (∃ e ∈ seen, e.2 = b.1 ∧ e.1.length = b.2) ∧
      ∀ e ∈ seen, 1 < e.1.length → b.2 < e.1.length ∨ b.2 = e.1.length ∧ b.1 ≤ e.2

/-- One more port is seen, which comes after the others. -/
theorem found_tighter {seen : List (TypeSet × Nat)} {best : Option (Nat × Nat)} {e : TypeSet × Nat}
    (h : Found seen best) (hlast : ∀ e' ∈ seen, e'.2 ≤ e.2) : Found (seen ++ [e]) (tighter best e) := by
  have hlater : ∀ {P : TypeSet × Nat → Prop}, (∀ e' ∈ seen, P e') → P e → ∀ e' ∈ seen ++ [e], P e' :=
    fun hseen he => List.forall_mem_append.2 ⟨hseen, List.forall_mem_singleton.2 he⟩
  have hself : e ∈ seen ++ [e] := List.mem_append_right _ (List.mem_singleton_self e)
  unfold tighter
  by_cases hle : e.1.length ≤ 1
  · dsimp only
    rw [if_pos hle]
    cases best with
    | none => exact hlater h hle
    | some b =>
      obtain ⟨hn, ⟨e', he', hk⟩, hmin⟩ := h
      exact ⟨hn, ⟨e', List.mem_append_left _ he', hk⟩, hlater hmin fun h => absurd h (by omega)⟩
  · dsimp only
    rw [if_neg hle]
    cases best with
    | none =>
      refine ⟨by omega, ⟨e, hself, rfl, rfl⟩, hlater (fun e' he' h' => ?_) fun _ =>
        .inr ⟨rfl, Nat.le_refl _⟩⟩
      have : e'.1.length ≤ 1 := h e' he'
      omega
    | some b =>
      obtain ⟨hn, ⟨e', he', hk, hn'⟩, hmin⟩ := h
      dsimp only
      split
      · rename_i hlt
        refine ⟨by omega, ⟨e, hself, rfl, rfl⟩, hlater (fun e' he' h' => .inl ?_) fun _ =>
          .inr ⟨rfl, Nat.le_refl _⟩⟩
        have := hmin e' he' h'
        omega
      · have hke : b.1 ≤ e.2 := hk ▸ hlast e' he'
        exact ⟨hn, ⟨e', List.mem_append_left _ he', hk, hn'⟩, hlater hmin fun _ => by omega⟩

theorem found_foldl (l : List TypeSet) : Found l.zipIdx (l.zipIdx.foldl tighter none) := by
  induction l using List.reverseRecOn with
  | nil => exact fun e he => absurd he List.not_mem_nil
  | append_singleton l s ih =>
    rw [List.zipIdx_append, List.zipIdx_singleton, List.foldl_append]
    refine found_tighter ih fun e he => ?_
    have := List.snd_lt_of_mem_zipIdx he
    show e.2 ≤ 0 + l.length
    omega

/-- **The most constrained port** has more than one type; of the ports that have it has the fewest,
and of several it is the first. -/
def MostConstrained (d : Domains) (p : PortId) : Prop :=
  ∃ k : Nat, p = k ∧ k < d.size ∧ 1 < (d.typesOf (k : PortId)).length ∧
    ∀ m : Nat, m < d.size → 1 < (d.typesOf (m : PortId)).length →
      (d.typesOf (k : PortId)).length < (d.typesOf (m : PortId)).length ∨
        (d.typesOf (k : PortId)).length = (d.typesOf (m : PortId)).length ∧ k ≤ m

theorem typesOf_eq_getElem {k : Nat} (hk : k < d.size) : d.typesOf (k : PortId) = d[k] := by
  rw [typesOf, at?_natCast, Array.getElem?_eq_getElem hk, Option.getD_some]

/-- **The most constrained port is found**, unless every port has one type at most. -/
theorem mostConstrained?_spec (d : Domains) :
    (∃ p, d.mostConstrained? = some p ∧ d.MostConstrained p) ∨
      d.mostConstrained? = none ∧ ∀ k : Nat, k < d.size → (d.typesOf (k : PortId)).length ≤ 1 := by
  have hplace : ∀ (k : Nat) (hk : k < d.size), (d[k], k) ∈ d.toList.zipIdx := by
    intro k hk
    rw [List.mk_mem_zipIdx_iff_getElem?, Array.getElem?_toList, Array.getElem?_eq_getElem hk]
  have h := found_foldl d.toList
  rw [mostConstrained?_eq]
  cases hbest : d.toList.zipIdx.foldl tighter none with
  | none =>
    rw [hbest] at h
    refine .inr ⟨rfl, fun k hk => ?_⟩
    rw [typesOf_eq_getElem hk]
    exact h (d[k], k) (hplace k hk)
  | some best =>
    rw [hbest] at h
    obtain ⟨hn, ⟨e, he, hm, hs⟩, hmin⟩ := h
    rw [List.mem_zipIdx_iff_getElem?, Array.getElem?_toList] at he
    obtain ⟨hk, he⟩ := Array.getElem?_eq_some_iff.1 he
    have hlen : (d.typesOf (e.2 : PortId)).length = best.2 := by
      rw [typesOf_eq_getElem hk, he, hs]
    refine .inl ⟨_, rfl, e.2, by rw [hm], hk, by omega, fun j hj hj' => ?_⟩
    rw [hlen, hm]
    rw [typesOf_eq_getElem hj] at hj' ⊢
    exact hmin (d[j], j) (hplace j hj) hj'

end Domains

namespace ConstraintSystem

variable {s : ConstraintSystem} {d d' : Domains}

/-- A choice of types that satisfies all constraints, which are about ports of the graph. -/
def Solution (s : ConstraintSystem) (τ : PortId → ValueType) : Prop :=
  ∀ (i : Nat) (c : Constraint), s.constraints[i]? = some c → c.rule.Satisfied τ ∧
    ∀ p ∈ c.rule.ports, (τ p).isValid = true ∧ ∃ k : Nat, p = k ∧ k < s.byPort.size

/-- **Propagation keeps solutions**: it never fails where there is one. -/
theorem propagate_admits (queue : List Nat) (steps : Nat) (hsol : s.Solution τ)
    (hsize : d.size = s.byPort.size) (had : d.Admits τ) :
    ∃ d', (s.propagate d queue steps).result = .ok d' ∧ d'.Admits τ ∧ d'.size = d.size := by
  -- one step keeps the types of the solution
  have hstep : ∀ (d : Domains) (i : Nat) (c : Constraint), s.constraints[i]? = some c →
      d.size = s.byPort.size → d.Admits τ → ∃ d' touched, c.rule.narrow d = some (d', touched) ∧
        d'.Admits τ ∧ d'.size = d.size := by
    intro d i c hc hsize had
    obtain ⟨hsat, hports⟩ := hsol i c hc
    obtain ⟨d', touched, hn, hkeep⟩ := Rule.narrow_keeps (d := d) hsat
      (fun p hp => (hports p hp).1) (fun p hp => by
        obtain ⟨-, k, rfl, hk⟩ := hports p hp
        exact had k (by omega))
    obtain ⟨-, -, hsize'⟩ := Domains.narrow_spec hn
    exact ⟨d', touched, hn, fun k hk => hkeep k (had k (by omega)), hsize'⟩
  fun_induction propagate s d queue steps with
  | case1 d steps => exact ⟨d, rfl, had, rfl⟩
  | case2 d steps i rest hi ih => exact ih hsize had
  | case3 d steps i rest c hc hn =>
    obtain ⟨d', touched, hn', -⟩ := hstep d i c hc hsize had
    rw [hn] at hn'
    cases hn'
  | case4 d steps i rest c hc d₂ hn ih => exact ih hsize had
  | case5 d steps i rest c hc d₂ p touched hn ih =>
    obtain ⟨d', touched', hn', had', hsize'⟩ := hstep d i c hc hsize had
    rw [hn] at hn'
    cases hn'
    obtain ⟨d₃, hd₃, had₃, hsize₃⟩ := ih (hsize'.trans hsize) had'
    exact ⟨d₃, hd₃, had₃, hsize₃.trans hsize'⟩

/-! ### Search -/

/-- An entry of the stack leads to a solution. -/
structure Leads (s : ConstraintSystem) (τ : PortId → ValueType) (entry : Domains × PortId × ValueType) :
    Prop where
  size : entry.1.size = s.byPort.size
  admits : entry.1.Admits τ
  value : τ entry.2.1 = entry.2.2
  port : ∃ k : Nat, entry.2.1 = k ∧ k < entry.1.size

/-- Undecided domains that hold a solution have a choice that leads to it. -/
theorem exists_choice (hsize : d.size = s.byPort.size) (had : d.Admits τ)
    (hc : ¬ d.isComplete = true) : ∃ entry ∈ choices d, s.Leads τ entry := by
  rcases d.mostConstrained?_spec with ⟨p, hk, k, rfl, hlt, -⟩ | ⟨-, hall⟩
  · refine ⟨(d, k, τ k), ?_, hsize, had, rfl, k, rfl, hlt⟩
    rw [choices, hk]
    exact List.mem_map_of_mem (had k hlt)
  · -- every port has at most one type, and at least that of the solution
    refine absurd (Array.all_eq_true.2 fun k hk => ?_) hc
    have hle := hall k hk
    have hmem := had k hk
    rw [Domains.typesOf_eq_getElem hk] at hle hmem
    have hpos : 0 < d[k].length := List.length_pos_of_mem hmem
    rw [TypeSet.isSingleton, beq_iff_eq]
    omega

/-- A decided port of an entry that leads to a solution keeps it. -/
theorem Leads.decide {p : PortId} {t : ValueType} (h : s.Leads τ (d, p, t)) :
    Domains.Admits (d.setIfInBounds p.toNat (.singleton t)) τ := by
  obtain ⟨m, hm, hlt⟩ := h.port
  obtain rfl : p = m := hm
  have hmem := h.admits m hlt
  intro k hk
  rw [Array.size_setIfInBounds] at hk
  rw [Domains.typesOf_set ⟨_, hmem⟩]
  split
  · rename_i hkm
    rw [hkm, TypeSet.mem_singleton]
    have hval : τ (m : PortId) = t := h.value
    rw [hval] at hmem ⊢
    exact ⟨rfl, hmem.inMask⟩
  · exact h.admits k hk

/-- **Search does not miss a solution**: while an entry of the stack leads to one, the search can
fail only because its budget is spent. -/
theorem search_exhausted {first : PortId} {budget : Nat} {state : Search} (hsol : s.Solution τ)
    (h : ∃ entry ∈ state.stack, s.Leads τ entry) {e : Unsatisfiable}
    (hr : (s.search first budget state).1 = .error e) : e.budgetExhausted = true := by
  induction budget generalizing state with
  | zero =>
    obtain ⟨stack, failed, stats⟩ := state
    obtain ⟨entry, hmem, -⟩ := h
    cases stack with
    | nil => cases hmem
    | cons top stack =>
      rw [search] at hr
      cases hr
      rfl
  | succ budget ih =>
    obtain ⟨stack, failed, stats⟩ := state
    obtain ⟨entry, hmem, hlead⟩ := h
    cases stack with
    | nil => cases hmem
    | cons top stack =>
      obtain ⟨d, p, t⟩ := top
      rw [search] at hr
      simp only at hr
      -- what becomes of the top entry if it is the one that leads to the solution
      have htop : entry = (d, p, t) → ∃ d', (s.propagate (d.setIfInBounds p.toNat (.singleton t))
          (s.startQueue p) 0).result = .ok d' ∧ d'.Admits τ ∧ d'.size = s.byPort.size := by
        rintro rfl
        have hs : (d.setIfInBounds p.toNat (.singleton t)).size = s.byPort.size := by
          rw [Array.size_setIfInBounds]
          exact hlead.size
        obtain ⟨d', hd', had', hsize'⟩ := propagate_admits _ _ hsol hs hlead.decide
        exact ⟨d', hd', had', hsize'.trans hs⟩
      rcases List.mem_cons.1 hmem with heq | hmem
      · obtain ⟨d', hd', had', hsize'⟩ := htop heq
        rw [hd'] at hr
        simp only at hr
        split at hr
        · cases hr
        · rename_i hc
          obtain ⟨entry', hm, hl⟩ := exists_choice hsize' had' hc
          exact ih ⟨entry', List.mem_append_left _ hm, hl⟩ hr
      · split at hr
        · exact ih ⟨entry, hmem, hlead⟩ hr
        · split at hr
          · cases hr
          · exact ih ⟨entry, List.mem_append_right _ hmem, hlead⟩ hr

end ConstraintSystem

namespace Graph

variable {g : Graph}

/-- A typing solves the constraints of a graph, and the declared types admit it. -/
theorem Typed.solution (ht : g.Typed τ) (hg : g.Consistent) :
    ∃ s, ConstraintSystem.ofGraph g = .ok s ∧ s.Solution τ ∧ g.domains.Admits τ ∧
      g.domains.size = s.byPort.size := by
  obtain ⟨cs, hcs⟩ := hg.exists_constraints
  have hok : ∃ s, ConstraintSystem.ofGraph g = .ok s := by
    rw [ConstraintSystem.ofGraph, hcs]
    exact ⟨_, rfl⟩
  obtain ⟨s, hs⟩ := hok
  obtain ⟨hsize, hcs', -⟩ := ConstraintSystem.ofGraph_touching hs
  have hdsize : g.domains.size = g.ports.size := by rw [domains, Array.size_map]
  refine ⟨s, hs, ?_, ?_, by rw [hdsize, hsize]⟩
  · intro i c hc
    have hmem : c ∈ s.constraints.toList := by
      refine List.mem_of_getElem? (i := i) ?_
      rw [Array.getElem?_toList]
      exact hc
    refine ⟨ht.satisfies hcs' hmem, fun q hq => ?_⟩
    obtain ⟨p, hp⟩ := (hg.constraint_ports hcs' hmem).2 q hq
    refine ⟨ht.isValid hg hp, ?_⟩
    obtain ⟨k, rfl, hk⟩ := at?_eq_some hp
    exact ⟨k, rfl, by rw [hsize]; exact (Array.getElem?_eq_some_iff.1 hk).1⟩
  · intro k hk
    rw [hdsize] at hk
    have hp : g.port? (k : PortId) = some g.ports[k] := Array.getElem?_eq_getElem hk
    rw [Domains.typesOf, at?_natCast, domains, Array.getElem?_map, Array.getElem?_eq_getElem hk]
    exact ht.declared k _ hp

/-- **Resolved types pass the check**, and each port has a type that propagation alone leaves it. -/
theorem Built.resolveTypes_sound (hg : g.Built) {budget : Int} {a : TypeAssignment}
    (h : (g.resolveTypes budget).1 = .ok a) :
    g.checkTypes a = .ok () ∧ ∃ d, g.narrowTypes = .ok d ∧ d.size = g.ports.size ∧
      ∀ (k : Nat) (hk : k < a.size), (d.typesOf (k : PortId)).has a[k] = true := by
  have hc := hg.consistent
  obtain ⟨s, d, d', -, hn, hw, hw', -, hcomplete, ha⟩ := hc.resolved h
  have ht := hc.typed h
  have hdsize : d.size = g.ports.size := by rw [hw.size, domains, Array.size_map]
  have hsize : a.size = g.ports.size := by
    rw [ha, Domains.assignment, Array.size_map, hw'.size, hdsize]
  refine ⟨(checkTypes_iff hc).2 ⟨hsize, ht⟩, d, hn, hdsize, fun k hk => ?_⟩
  have hp : g.port? (k : PortId) = some g.ports[k] := Array.getElem?_eq_getElem (by omega)
  have hak : assigned a (k : PortId) = a[k] := by
    rw [assigned, at?_natCast, Array.getElem?_eq_getElem hk, Option.getD_some]
  rw [← hak, TypeSet.has_iff]
  refine ⟨ht.isValid hc hp, hw'.mem _ _ ?_⟩
  have hk' : k < d'.size := by rw [hw'.size]; omega
  have hone : d'[k].isSingleton = true := Array.all_eq_true.1 hcomplete k hk'
  rw [TypeSet.isSingleton, beq_iff_eq, TypeSet.length, List.length_eq_one_iff] at hone
  obtain ⟨t, ht'⟩ := hone
  have hat : assigned a (k : PortId) = t := by
    rw [ha, assigned, at?_natCast, Domains.assignment, Array.getElem?_map,
      Array.getElem?_eq_getElem hk', Option.map_some, Option.getD_some, TypeSet.single, ht']
  rw [hat, Domains.typesOf_eq_getElem hk', TypeSet.Mem, ht']
  exact List.mem_singleton_self t

/-- Two open operands leave all types to choose from, and the first is taken. -/
theorem resolveTypes_sound_open_sum :
    let g := grown [.node (Uuid.ofBytes [1]) "" .add .none]
    let a : TypeAssignment := #[.float, .float, .float]
    (g.resolveTypes 0).1 = .ok a ∧ g.checkTypes a = .ok () ∧ ∃ d, g.narrowTypes = .ok d ∧
      d.size = g.ports.size ∧
      ∀ (k : Nat) (hk : k < a.size), (d.typesOf (k : PortId)).has a[k] = true := by
  intro g a
  have hwithin : g.typesWithin? 20 = some a := by decide +kernel
  have h : (g.resolveTypes 0).1 = .ok a := resolveTypes_of_within hwithin
  exact ⟨h, (Built.grown _).resolveTypes_sound h⟩

/-- **Where resolution fails, no assignment passes the check**, unless the budget is spent. -/
theorem Built.resolveTypes_complete (hg : g.Built) (budget : Int)
    (h : (∃ e, g.narrowTypes = .error e) ∨
      ∃ e, (g.resolveTypes budget).1 = .error (.unsatisfiable e) ∧ e.budgetExhausted = false)
    (a : TypeAssignment) : g.checkTypes a ≠ .ok () := by
  intro hcheck
  have hc := hg.consistent
  obtain ⟨-, ht⟩ := (checkTypes_iff hc).1 hcheck
  obtain ⟨s, hs, hsol, had, hsize⟩ := ht.solution hc
  obtain ⟨d, hd, hdad, hdsize⟩ :=
    ConstraintSystem.propagate_admits s.all 0 hsol hsize had
  rcases h with ⟨e, he⟩ | ⟨e, he, hbudget⟩
  · rw [narrowTypes, hs] at he
    dsimp only at he
    rw [hd] at he
    cases he
  · rw [resolveTypes, hs] at he
    dsimp only at he
    rw [hd] at he
    dsimp only at he
    split at he
    · cases he
    · rename_i hcomplete
      split at he
      · cases he
      · rename_i e' hfailed
        cases he
        have hlead := ConstraintSystem.exists_choice (hdsize.trans hsize) hdad hcomplete
        rw [ConstraintSystem.search_exhausted hsol hlead hfailed] at hbudget
        cases hbudget

/-- A sum of two and three components has no types, and propagation tells. -/
theorem resolveTypes_complete_clash :
    let g := grown [.node (Uuid.ofBytes [1]) "" .texCoord .none,
      .node (Uuid.ofBytes [2]) "" .position .none, .node (Uuid.ofBytes [3]) "" .add .none,
      .edge 0 2, .edge 1 3]
    g.edges.size = 2 ∧ (∃ e, g.narrowTypes = .error e) ∧
      ∀ a : TypeAssignment, g.checkTypes a ≠ .ok () := by
  intro g
  obtain ⟨hedges, hwithin⟩ : g.edges.size = 2 ∧ (g.narrowWithin? 20).map (·.toOption) = some none := by
    decide +kernel
  obtain ⟨r, hr, hnone⟩ := Option.map_eq_some_iff.1 hwithin
  have hfail : ∃ e, g.narrowTypes = .error e := by
    rw [narrowTypes_of_within hr]
    cases r with
    | error e => exact ⟨e, rfl⟩
    | ok d => cases hnone
  exact ⟨hedges, hfail, (Built.grown _).resolveTypes_complete 0 (.inl hfail)⟩

end Graph

end NodeShader
