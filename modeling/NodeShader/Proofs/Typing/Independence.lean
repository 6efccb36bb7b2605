import Mathlib
import NodeShader.Proofs.Typing.Preference

/-!
# Unrelated nodes do not change types

A graph grows apart (`Graph.GrowsApart`) if further edges join further ports only.  Its constraints are
then a part of those of the larger graph (`ConstraintSystem.Part`), and the others are about other ports:

* `ConstraintSystem.Narrowed.take`: the largest stable domains of the whole are, on the old ports, the
  largest stable domains of the part.
* `Graph.Compatible.graft`: the types of the old ports and those of the further ones can be chosen
  apart from each other.
* `Graph.Decides.take`: so the ports of the part are decided in the same order and for the same types,
  whatever is decided between them.
* `Graph.Built.resolveTypes_apart`: **resolution gives the old ports the types that they have alone**.
* `Graph.resolveTypes_joined`: it need not if a further edge joins two old ports.
-/

namespace NodeShader

/-! ### The entries of a part, and those of the rest -/

section Arrays

variable {α : Type} {xs ys : Array α} {n : Nat}

/-- The entries of `xs`, and behind them those of `ys`. -/
def graft (xs ys : Array α) : Array α := xs ++ ys.extract xs.size ys.size

theorem size_graft (h : xs.size ≤ ys.size) : (graft xs ys).size = ys.size := by
  rw [graft, Array.size_append, Array.size_extract]
  omega

theorem at?_graft (q : Int) :
    Array.at? (graft xs ys) q = if q < xs.size then Array.at? xs q else Array.at? ys q := by
  cases q with
  | negSucc k =>
    rw [if_pos (by omega)]
    rfl
  | ofNat k =>
    show (graft xs ys)[k]? = if (k : Int) < xs.size then xs[k]? else ys[k]?
    rw [graft, Array.getElem?_append, Array.getElem?_extract]
    simp only [Int.ofNat_lt]
    split
    · rfl
    · rename_i hk
      by_cases hlt : k < ys.size
      · rw [if_pos (by omega)]
        congr 1
        omega
      · rw [if_neg (by omega), Array.getElem?_eq_none (by omega)]

theorem size_take : (xs.take n).size = min n xs.size := by
  rw [Array.take_eq_extract, Array.size_extract, Nat.sub_zero]

theorem at?_take (q : Int) :
    Array.at? (xs.take n) q = if q < n then Array.at? xs q else none := by
  cases q with
  | negSucc k => rw [if_pos (by omega)]; rfl
  | ofNat k =>
    show (xs.take n)[k]? = if (k : Int) < n then xs[k]? else none
    rw [Array.take_eq_extract, Array.getElem?_extract, Nat.sub_zero, Nat.zero_add]
    simp only [Int.ofNat_lt]
    by_cases hk : k < n
    · rw [if_pos hk]
      split
      · rfl
      · rw [Array.getElem?_eq_none (by omega)]
    · rw [if_neg hk, if_neg (by omega)]

end Arrays

namespace Domains

variable {d d' e : Domains} {n : Nat} {p : PortId} {t : ValueType}

theorem typesOf_take (q : PortId) :
    Domains.typesOf (d.take n) q = if q < n then d.typesOf q else .empty := by
  rw [typesOf, at?_take]
  split <;> rfl

theorem typesOf_graft (q : PortId) :
    Domains.typesOf (graft d e) q = if q < d.size then d.typesOf q else e.typesOf q := by
  rw [typesOf, at?_graft]
  split <;> rfl

theorem Within.take (h : d'.Within d) : Domains.Within (d'.take n) (d.take n) := by
  refine ⟨by rw [size_take, size_take, h.size], fun q t ht => ?_⟩
  rw [typesOf_take] at ht ⊢
  split
  · rename_i hq
    rw [if_pos hq] at ht
    exact h.mem q t ht
  · rename_i hq
    rwa [if_neg hq] at ht

/-- A type for an old port is one for a port of the part. -/
theorem take_setIfInBounds (hp : p < n) (ht : (d.typesOf p).Mem t) :
    (d.setIfInBounds p.toNat (.singleton t)).take n =
      (d.take n).setIfInBounds p.toNat (.singleton t) := by
  refine Domains.ext_typesOf (by simp) fun q u => ?_
  rw [typesOf_take, typesOf_set ⟨t, ht⟩, typesOf_set ⟨t, by rw [typesOf_take, if_pos hp]; exact ht⟩,
    typesOf_take]
  by_cases hq : q = p
  · subst hq
    rw [if_pos hp, if_pos rfl, if_pos rfl]
  · rw [if_neg hq, if_neg hq]

/-- A type for a further port leaves the part as it is. -/
theorem take_setIfInBounds_of_le (hp : ¬ p < n) (ht : (d.typesOf p).Mem t) :
    (d.setIfInBounds p.toNat (.singleton t)).take n = d.take n := by
  refine Domains.ext_typesOf (by simp) fun q u => ?_
  rw [typesOf_take, typesOf_take, typesOf_set ⟨t, ht⟩]
  split
  · rename_i hq
    rw [if_neg fun h => hp (by rw [← h]; exact hq)]
  · rfl

/-- The most constrained port is so among the old ports, if it is one of them. -/
theorem MostConstrained.take (h : d.MostConstrained p) (hp : p < n) (hn : n ≤ d.size) :
    Domains.MostConstrained (d.take n) p := by
  obtain ⟨k, rfl, hk, hlen, hmin⟩ := h
  have hsize : (d.take n).size = n := by rw [size_take]; omega
  have htypes : ∀ m : Nat, m < n → Domains.typesOf (d.take n) (m : PortId) = d.typesOf m := by
    intro m hm
    rw [typesOf_take, if_pos (Int.ofNat_lt.2 hm)]
  have hkn : k < n := Int.ofNat_lt.1 hp
  refine ⟨k, rfl, by omega, by rw [htypes k hkn]; exact hlen, fun m hm hm' => ?_⟩
  rw [hsize] at hm
  rw [htypes m hm] at hm'
  rw [htypes m hm, htypes k hkn]
  exact hmin m (by omega) hm'

theorem assignment_take : Domains.assignment (d.take n) = d.assignment.take n := by
  rw [assignment, assignment, Array.take_eq_extract, Array.take_eq_extract, Array.map_extract]

end Domains

/-- Whether types satisfy a rule hangs on those of its ports only. -/
theorem Rule.satisfied_congr {r : Rule} {τ τ' : PortId → ValueType}
    (h : ∀ p ∈ r.ports, τ' p = τ p) (hs : r.Satisfied τ) : r.Satisfied τ' := by
  cases r with
  | equal ports => exact fun p hp q hq => by rw [h p hp, h q hq]; exact hs p hp q hq
  | minSize q k => rwa [Satisfied, h q (by simp [Rule.ports])]
  | combine ports =>
    have hmap : ports.map τ' = ports.map τ := List.map_congr_left h
    rwa [Satisfied, hmap]
  | scalarOf a b | resized a b k | sameDimension a b =>
    rwa [Satisfied, h a (by simp [Rule.ports]), h b (by simp [Rule.ports])]

/-! ### A part of the constraints -/

namespace ConstraintSystem

variable {s s' : ConstraintSystem} {d d' e f : Domains} {n : Nat}

/-- **The constraints about the first `n` ports**: they are among those of a larger system, and the
further ones of that are about further ports. -/
structure Part (s s' : ConstraintSystem) (n : Nat) : Prop where
  ports : ∀ (i : Nat) (c : Constraint), s.constraints[i]? = some c → ∀ q ∈ c.rule.ports, q < n
  kept : ∀ (i : Nat) (c : Constraint), s.constraints[i]? = some c →
    ∃ (j : Nat) (c' : Constraint), s'.constraints[j]? = some c' ∧ c'.rule = c.rule
  apart : ∀ (j : Nat) (c' : Constraint), s'.constraints[j]? = some c' →
    (∃ (i : Nat) (c : Constraint), s.constraints[i]? = some c ∧ c.rule = c'.rule) ∨
      ∀ q ∈ c'.rule.ports, ¬ q < n

/-- Stable domains are stable on the first ports. -/
theorem Stable.take (hs : s.Part s' n) (h : s'.Stable e) (hn : n ≤ e.size) :
    s.Stable (e.take n) := by
  refine ⟨fun k hk => ?_, fun i c hc => ?_⟩
  · rw [size_take] at hk
    rw [Domains.typesOf_take, if_pos (Int.ofNat_lt.2 (by omega))]
    exact h.inhabited k (by omega)
  · obtain ⟨j, c', hc', hr⟩ := hs.kept i c hc
    refine Rule.effect_congr (fun q hq => ?_) (hr ▸ h.unchanged j c' hc')
    rw [Domains.typesOf_take, if_pos (hs.ports i c hc q hq)]

/-- Domains that are stable on the first ports, with others that are stable, are stable. -/
theorem Stable.graft (hs : s.Part s' n) (hf : s.Stable f) (hsize : f.size = n) (h : s'.Stable e)
    (hn : n ≤ e.size) : s'.Stable (graft f e) := by
  have htypes := fun q => Domains.typesOf_graft (d := f) (e := e) q
  rw [hsize] at htypes
  refine ⟨fun k hk => ?_, fun j c' hc' => ?_⟩
  · rw [size_graft (by omega)] at hk
    rw [htypes]
    split
    · rename_i hk'
      exact hf.inhabited k (hsize ▸ Int.ofNat_lt.1 hk')
    · exact h.inhabited k hk
  · rcases hs.apart j c' hc' with ⟨i, c, hc, hr⟩ | hnew
    · refine Rule.effect_congr (fun q hq => ?_) (hr ▸ hf.unchanged i c hc)
      rw [htypes, if_pos (hs.ports i c hc q (hr ▸ hq))]
    · refine Rule.effect_congr (fun q hq => ?_) (h.unchanged j c' hc')
      rw [htypes, if_neg (hnew q hq)]

/-- **The largest stable domains of the whole are the largest of the part.** -/
theorem Narrowed.take (hs : s.Part s' n) (h : s'.Narrowed e d []) (hn : n ≤ e.size) :
    s.Narrowed (e.take n) (d.take n) [] := by
  have hn' : n ≤ d.size := by rw [h.within.size]; exact hn
  have hstable := h.stable.take hs hn'
  refine ⟨h.within.take, hstable.inhabited, fun i c hc _ => hstable.unchanged i c hc,
    fun f hf hfe => ?_⟩
  have hsize : f.size = n := by rw [hfe.size, size_take]; omega
  -- with the largest domains of the further ports they are stable, so they are within the largest
  have hgraft : Domains.Within (graft f d) e := by
    refine ⟨by rw [size_graft (by omega), h.within.size], fun q t ht => ?_⟩
    rw [Domains.typesOf_graft, hsize] at ht
    split at ht
    · rename_i hq
      have hmem := hfe.mem q t ht
      rwa [Domains.typesOf_take, if_pos hq] at hmem
    · exact h.within.mem q t ht
  have habove := h.above _ (hf.graft hs hsize h.stable hn') hgraft
  refine ⟨by rw [hsize, size_take]; omega, fun q t ht => ?_⟩
  have hq : q < n := by
    by_contra hq
    have hmem := hfe.mem q t ht
    rw [Domains.typesOf_take, if_neg hq] at hmem
    exact TypeSet.not_mem_empty hmem
  have hmem := habove.mem q t (by rw [Domains.typesOf_graft, hsize, if_pos hq]; exact ht)
  rwa [Domains.typesOf_take, if_pos hq]

/-- Domains to start from, on the first ports. -/
theorem Ready.take (hs₀ : s.Ready f) (hsize : f.size = n) (h : s'.Ready e)
    (hn : n ≤ e.size) : s.Ready (e.take n) := by
  have htake : (e.take n).size = n := by rw [size_take]; omega
  refine ⟨hs₀.indexed, by rw [htake, ← hsize, hs₀.size], fun i c hc q hq => ?_, fun q t ht => ?_,
    fun k hk => ?_⟩
  · obtain ⟨k, rfl, hk⟩ := hs₀.ports i c hc q hq
    exact ⟨k, rfl, by omega⟩
  · rw [Domains.typesOf_take] at ht
    split at ht
    · exact h.valid q t ht
    · exact absurd ht TypeSet.not_mem_empty
  · rw [htake] at hk
    rw [Domains.typesOf_take, if_pos (Int.ofNat_lt.2 (by omega))]
    exact h.inhabited k (by omega)

/-- What propagation leaves of the whole is what it leaves of the part. -/
theorem propagate_take (hs : s.Part s' n) (hs₀ : s.Ready (e.take n)) (h : s'.Ready e)
    (hn : n ≤ e.size) (hd : (s'.propagate e s'.all 0).result = .ok d) :
    (s.propagate (e.take n) s.all 0).result = .ok (d.take n) := by
  have hnarrowed := (h.narrowed.of_propagate h hd).take hs hn
  rcases hs₀.narrowed.propagate hs₀ 0 with ⟨d₂, hd₂, h₂⟩ | ⟨c, -, hnone⟩
  · rw [← hnarrowed.eq h₂]
    exact hd₂
  · exact absurd hnarrowed.within (hnone _ hnarrowed.stable)

end ConstraintSystem

namespace Graph

variable {g g' g'' : Graph} {s s' : ConstraintSystem} {τ : PortId → ValueType} {i : Nat} {n : Node}
  {q source target : PortId} {a b : TypeAssignment} {choices : List (PortId × ValueType)}

theorem exists_port {k : Nat} (hk : k < g.ports.size) : ∃ p, g.port? (k : PortId) = some p :=
  ⟨g.ports[k], Array.getElem?_eq_getElem hk⟩

theorem size_domains (g : Graph) : g.domains.size = g.ports.size := by
  rw [domains, Array.size_map]

/-! ### Growing apart -/

/-- An edge leads from one port to another. -/
def Joined (g : Graph) (source target : PortId) : Prop :=
  ∃ e ∈ g.edges.toList, e.source = source ∧ e.target = target

/-- **A graph grows without edges between old and new**: its nodes, its ports and its edges are kept, and
an edge joins two old ports or two further ones. -/
structure GrowsBeside (g g' : Graph) : Prop where
  nodes : ∀ (i : Nat) (n : Node), g.nodes[i]? = some n → g'.nodes[i]? = some n
  ports : ∀ q p, g.port? q = some p → (g'.port? q).map Port.bare = some p.bare
  edges : ∀ source target, g.Joined source target → g'.Joined source target
  unmixed : ∀ source target, g'.Joined source target →
    (g.port? source = none ↔ g.port? target = none)

/-- **A graph grows by unrelated nodes**: its nodes, its ports and its edges are kept, and each further
edge leads from one further port to another.  This shuts out further edges between two old ports, which
change the constraints on these (`resolveTypes_joined`). -/
structure GrowsApart (g g' : Graph) : Prop where
  nodes : ∀ (i : Nat) (n : Node), g.nodes[i]? = some n → g'.nodes[i]? = some n
  ports : ∀ q p, g.port? q = some p → (g'.port? q).map Port.bare = some p.bare
  edges : ∀ source target, g.Joined source target → g'.Joined source target
  apart : ∀ source target, g'.Joined source target → g.Joined source target ∨
    g.port? source = none ∧ g.port? target = none

/-- The edges after connecting. -/
theorem Joins.joined (j : g.Joins source target g') (a b : PortId) :
    g'.Joined a b ↔ g.Joined a b ∨ source = a ∧ target = b := by
  obtain ⟨type, hedges⟩ := j.edges
  rw [Joined, Joined, hedges, Array.toList_push]
  simp only [List.mem_append, List.mem_singleton, or_and_right, exists_or, exists_eq_left]

/-- Edges join ports of the graph. -/
theorem Consistent.unmixed (hg : g.Consistent) (h : g.Joined source target) :
    g.port? source = none ↔ g.port? target = none := by
  obtain ⟨e, he, rfl, rfl⟩ := h
  obtain ⟨⟨p, hp, -⟩, p', hp', -⟩ := hg.ends e he
  rw [hp, hp']
  exact iff_of_false nofun nofun

/-- One more edge between old ports. -/
theorem Joins.growsBeside (hg : g.Consistent) (j : g.Joins source target g') : g.GrowsBeside g' := by
  refine ⟨fun i n hn => j.nodes ▸ hn, fun q p hp => j.bare hp, fun a b he => (j.joined a b).2 (.inl he),
    fun a b he => ?_⟩
  rcases (j.joined a b).1 he with he | ⟨rfl, rfl⟩
  · exact hg.unmixed he
  · obtain ⟨p, hp, -⟩ := j.output
    obtain ⟨p', hp', -⟩ := j.input
    rw [hp, hp']
    exact iff_of_false nofun nofun

namespace GrowsApart

theorem refl (g : Graph) : g.GrowsApart g :=
  ⟨fun _ _ h => h, fun _ _ h => by rw [h]; rfl, fun _ _ h => h, fun _ _ h => .inl h⟩

/-- One more node. -/
theorem node {ins outs : List PortSpec} (h : g.GrowsApart g') (r : g'.Grows n ins outs g'') :
    g.GrowsApart g'' := by
  have hjoined : ∀ source target, g''.Joined source target ↔ g'.Joined source target := by
    intro source target
    rw [Joined, Joined, r.edges]
  refine ⟨fun i m hm => r.nodes_old (h.nodes i m hm), fun q p hp => ?_, fun a b he =>
    (hjoined a b).2 (h.edges a b he), fun a b he => h.apart a b ((hjoined a b).1 he)⟩
  obtain ⟨p', hp', hbare⟩ := Option.map_eq_some_iff.1 (h.ports q p hp)
  rw [r.port?_old hp', Option.map_some, hbare]

/-- One more edge between further ports. -/
theorem edge (h : g.GrowsApart g') (j : g'.Joins source target g'')
    (hs : g.port? source = none) (ht : g.port? target = none) : g.GrowsApart g'' := by
  refine ⟨fun i m hm => ?_, fun q p hp => ?_, fun a b he => (j.joined a b).2 (.inl (h.edges a b he)),
    fun a b he => ?_⟩
  · rw [j.nodes]
    exact h.nodes i m hm
  · obtain ⟨p', hp', hbare⟩ := Option.map_eq_some_iff.1 (h.ports q p hp)
    rw [j.bare hp', hbare]
  · rcases (j.joined a b).1 he with he | ⟨rfl, rfl⟩
    · exact h.apart a b he
    · exact .inr ⟨hs, ht⟩

/-- One more step, which joins further ports only. -/
theorem after (h : g.GrowsApart g') {step : Growth}
    (hstep : ∀ source target, step = .edge source target →
      g.port? source = none ∧ g.port? target = none) : g.GrowsApart (g'.after step) := by
  cases step with
  | node id name kind params =>
    rw [Graph.after]
    split
    · rename_i g'' hadd
      obtain ⟨_, _, _, -, -, -, -, hgrows⟩ := addNode_grows hadd
      exact h.node hgrows
    · exact h
  | edge source target =>
    rw [Graph.after]
    split
    · rename_i g'' hconnect
      obtain ⟨hs, ht⟩ := hstep source target rfl
      exact h.edge (connect_joins hconnect) hs ht
    · exact h

/-- **Whatever is built on a graph without joining it to anything** makes it grow apart. -/
theorem grown (steps : List Growth) {further : List Growth}
    (hfurther : ∀ source target, Growth.edge source target ∈ further →
      (Graph.grown steps).port? source = none ∧ (Graph.grown steps).port? target = none) :
    (Graph.grown steps).GrowsApart (Graph.grown (steps ++ further)) := by
  rw [Graph.grown, Graph.grown, List.foldl_append, ← Graph.grown]
  induction further using List.reverseRecOn with
  | nil => exact refl _
  | append_singleton further step ih =>
    rw [List.foldl_append]
    refine (ih fun s t he => hfurther s t (List.mem_append_left _ he)).after fun s t he => ?_
    exact hfurther s t (List.mem_append_right _ (by rw [he]; exact List.mem_singleton_self _))

/-- A port of the smaller graph is one of the larger. -/
theorem port (h : g.GrowsApart g') {p : Port} (hp : g.port? q = some p) :
    ∃ p', g'.port? q = some p' ∧ p'.bare = p.bare :=
  Option.map_eq_some_iff.1 (h.ports q p hp)

theorem size_ports (h : g.GrowsApart g') : g.ports.size ≤ g'.ports.size := by
  by_contra hlt
  obtain ⟨p, hp⟩ := exists_port (Nat.lt_of_not_le hlt)
  obtain ⟨p', hp', -⟩ := h.port hp
  exact absurd (Array.getElem?_eq_some_iff.1 hp').1 (Nat.lt_irrefl _)

end GrowsApart

/-! ### The constraints of the old nodes -/

section Constraints

variable (hg : g.Consistent) (hg' : g'.Consistent) (h : g.GrowsApart g')

include hg hg' h

/-- The outputs of an old node are connected if they were. -/
theorem GrowsApart.isConnected_eq (hn : g.nodes[i]? = some n) (hq : q ∈ n.outputs) :
    (g'.port? q).map (·.isConnected) = (g.port? q).map (·.isConnected) := by
  obtain ⟨p, hp, hd, -⟩ := hg.output_port hn hq
  obtain ⟨p', hp', hd', -⟩ := hg'.output_port (h.nodes i n hn) hq
  rw [hp, hp']
  refine congrArg some (Bool.eq_iff_iff.2 ?_)
  rw [hg.isConnected_iff hp hd, hg'.isConnected_iff hp' hd']
  constructor
  · rintro ⟨e, he, rfl⟩
    rcases h.apart _ _ ⟨e, he, rfl, rfl⟩ with ⟨e₀, he₀, hs, -⟩ | ⟨hnone, -⟩
    · exact ⟨e₀, he₀, hs⟩
    · rw [hp] at hnone
      cases hnone
  · rintro ⟨e, he, rfl⟩
    obtain ⟨e', he', hs, -⟩ := h.edges _ _ ⟨e, he, rfl, rfl⟩
    exact ⟨e', he', hs⟩

/-- **The rules of an old node stay the same.** -/
theorem GrowsApart.nodeRules_eq (hn : g.nodes[i]? = some n) : g'.nodeRules n = g.nodeRules n := by
  rw [nodeRules, nodeRules]
  split <;> try rfl
  -- only separations look at the ports in the graph
  refine bind_congr fun vector => congrArg (· >>= _) (mapM_congr fun out hout => ?_)
  have hc := h.isConnected_eq hg hg' hn (List.fst_mem_of_mem_zipIdx hout)
  dsimp only
  cases hp : g.port? out.1 with
  | none =>
    rw [hp, Option.map_none, Option.map_eq_none_iff] at hc
    rw [hc]
  | some p =>
    rw [hp, Option.map_some] at hc
    obtain ⟨p', hp', hc⟩ := Option.map_eq_some_iff.1 hc
    rw [hp']
    dsimp only
    rw [hc]

/-- The ports of a further node are further ports. -/
theorem GrowsApart.port?_eq_none (hn : g'.nodes[i]? = some n) (hnone : g.nodes[i]? = none)
    (hq : q ∈ n.inputs ++ n.outputs) : g.port? q = none := by
  have howner : ∃ p', g'.port? q = some p' ∧ p'.ownerIndex = i := by
    rcases List.mem_append.1 hq with hq | hq
    · obtain ⟨p', hp', -, hi⟩ := hg'.input_port hn hq
      exact ⟨p', hp', hi⟩
    · obtain ⟨p', hp', -, hi⟩ := hg'.output_port hn hq
      exact ⟨p', hp', hi⟩
  obtain ⟨p', hp', hi⟩ := howner
  cases hp : g.port? q with
  | none => rfl
  | some p =>
    -- an old port has an old owner
    obtain ⟨p₂, hp₂, hbare⟩ := h.port hp
    rw [hp'] at hp₂
    cases hp₂
    obtain ⟨j, m, hm, hj, -⟩ := hg.owner q p hp
    have hsame : p'.bare.ownerIndex = p.bare.ownerIndex := by rw [hbare]
    have hij : (i : Int) = j := hi.symm.trans (hsame.trans hj)
    rw [Int.natCast_inj] at hij
    rw [hij, hm] at hnone
    cases hnone

/-- **The constraints of the smaller graph are a part of those of the larger.** -/
theorem GrowsApart.part (hs : ConstraintSystem.ofGraph g = .ok s)
    (hs' : ConstraintSystem.ofGraph g' = .ok s') : s.Part s' g.ports.size := by
  obtain ⟨-, hcs, -⟩ := ConstraintSystem.ofGraph_touching hs
  obtain ⟨-, hcs', -⟩ := ConstraintSystem.ofGraph_touching hs'
  have hmem : ∀ {s : ConstraintSystem} {i : Nat} {c : Constraint},
      s.constraints[i]? = some c ↔ s.constraints.toList[i]? = some c := by
    intro s i c
    rw [Array.getElem?_toList]
  have hold : ∀ {q : PortId}, (∃ p, g.port? q = some p) → q < g.ports.size := by
    rintro q ⟨p, hp⟩
    obtain ⟨k, rfl, hk⟩ := at?_eq_some hp
    exact Int.ofNat_lt.2 (Array.getElem?_eq_some_iff.1 hk).1
  have hnew : ∀ {q : PortId}, (∃ p, g'.port? q = some p) → g.port? q = none →
      ¬ q < g.ports.size := by
    rintro q ⟨p, hp⟩ hnone hlt
    obtain ⟨k, rfl, -⟩ := at?_eq_some hp
    obtain ⟨p₀, hp₀⟩ := exists_port (Int.ofNat_lt.1 hlt)
    rw [hnone] at hp₀
    cases hp₀
  -- a rule that is stated is that of a constraint
  have hfind : ∀ {s : ConstraintSystem} {r : Rule}, (∃ c ∈ s.constraints.toList, c.rule = r) →
      ∃ (j : Nat) (c : Constraint), s.constraints[j]? = some c ∧ c.rule = r := by
    rintro s r ⟨c, hc, hr⟩
    obtain ⟨j, hj⟩ := List.getElem?_of_mem hc
    exact ⟨j, c, hmem.2 hj, hr⟩
  obtain ⟨hedges, hnodes⟩ := constraints_complete hcs
  obtain ⟨hedges', hnodes'⟩ := constraints_complete hcs'
  refine ⟨fun i c hc q hq => ?_, fun i c hc => hfind ?_, fun j c' hc' => ?_⟩
  · exact hold ((hg.constraint_ports hcs (List.mem_of_getElem? (hmem.1 hc))).2 q hq)
  · rcases mem_constraints hcs (List.mem_of_getElem? (hmem.1 hc)) with
      ⟨e, he, hr⟩ | ⟨k, n, rs, hn, hrs, hr⟩
    · obtain ⟨e', he', hsource, htarget⟩ := h.edges _ _ ⟨e, he, rfl, rfl⟩
      rw [hr, ← hsource, ← htarget]
      exact hedges' e' he'
    · obtain ⟨rs', hrs', hall⟩ := hnodes' k n (h.nodes k n hn)
      rw [h.nodeRules_eq hg hg' hn, hrs] at hrs'
      cases hrs'
      exact hall c.rule hr
  · have hports := (hg'.constraint_ports hcs' (List.mem_of_getElem? (hmem.1 hc'))).2
    rcases mem_constraints hcs' (List.mem_of_getElem? (hmem.1 hc')) with
      ⟨e', he', hr⟩ | ⟨k, n, rs, hn, hrs, hr⟩
    · rw [hr] at hports ⊢
      rcases h.apart _ _ ⟨e', he', rfl, rfl⟩ with ⟨e, he, hsource, htarget⟩ | ⟨hsource, htarget⟩
      · refine .inl (hfind ?_)
        rw [← hsource, ← htarget]
        exact hedges e he
      · refine .inr (List.forall_mem_cons.2 ⟨hnew (hports _ ?_) hsource,
          List.forall_mem_singleton.2 (hnew (hports _ ?_) htarget)⟩)
        · exact List.mem_cons_self
        · exact List.mem_cons_of_mem _ List.mem_cons_self
    · cases hk : g.nodes[k]? with
      | none =>
        refine .inr fun q hq => hnew (hports q hq) ?_
        exact h.port?_eq_none hg hg' hn hk ((hg'.rules hn hrs hr).2 q hq)
      | some n₀ =>
        have hsame := h.nodes k n₀ hk
        rw [hn] at hsame
        cases hsame
        rw [h.nodeRules_eq hg hg' hk] at hrs
        obtain ⟨rs', hrs', hall⟩ := hnodes k n hk
        rw [hrs] at hrs'
        cases hrs'
        exact .inl (hfind (hall c'.rule hr))

end Constraints

/-! ### Choosing types apart -/

/-- **A typing satisfies the constraints**, and takes types that are declared. -/
theorem Consistent.typed_iff (hg : g.Consistent) (hs : ConstraintSystem.ofGraph g = .ok s) :
    g.Typed τ ↔ g.domains.Admits τ ∧
      ∀ (i : Nat) (c : Constraint), s.constraints[i]? = some c → c.rule.Satisfied τ := by
  obtain ⟨-, hcs, -⟩ := ConstraintSystem.ofGraph_touching hs
  constructor
  · intro ht
    obtain ⟨s₂, hs₂, hsol, had, -⟩ := ht.solution hg
    rw [hs] at hs₂
    cases hs₂
    exact ⟨had, fun i c hc => (hsol i c hc).1⟩
  · rintro ⟨had, hsat⟩
    have hall : ∀ c ∈ s.constraints.toList, c.rule.Satisfied τ := by
      intro c hc
      obtain ⟨i, hi⟩ := List.getElem?_of_mem hc
      rw [Array.getElem?_toList] at hi
      exact hsat i c hi
    obtain ⟨hedges, hnodes⟩ := constraints_complete hcs
    refine ⟨fun q p hp => ?_, fun e he => ?_, fun i n hn => ?_⟩
    · obtain ⟨k, rfl, hk⟩ := at?_eq_some hp
      have hlt : k < g.domains.size := by
        rw [size_domains]
        exact (Array.getElem?_eq_some_iff.1 hk).1
      have hmem := had k hlt
      rwa [Domains.typesOf, at?_natCast, domains, Array.getElem?_map, hk] at hmem
    · obtain ⟨c, hc, hr⟩ := hedges e he
      have hc' := hall c hc
      rw [hr] at hc'
      exact hc' _ List.mem_cons_self _ (List.mem_cons_of_mem _ List.mem_cons_self)
    · obtain ⟨rs, hrs, hrules⟩ := hnodes i n hn
      refine ⟨rs, hrs, fun r hr => ?_⟩
      obtain ⟨c, hc, rfl⟩ := hrules r hr
      exact hall c hc

theorem assigned_take {k : Nat} (hq : q < k) : assigned (a.take k) q = assigned a q := by
  rw [assigned, assigned, at?_take, if_pos hq]

theorem assigned_graft : assigned (graft a b) q = if q < a.size then assigned a q else assigned b q := by
  rw [assigned, at?_graft]
  split <;> rfl

section Choosing

variable (hg : g.Consistent) (hg' : g'.Consistent) (h : g.GrowsApart g')

include h in
/-- The declared types of the smaller graph are those of the larger, on the old ports. -/
theorem GrowsApart.domains_take : g'.domains.take g.ports.size = g.domains := by
  have hsize := h.size_ports
  refine Domains.ext_typesOf (by rw [size_take, size_domains, size_domains]; omega) fun q t => ?_
  rw [Domains.typesOf_take]
  cases q with
  | negSucc k =>
    rw [if_pos (Int.lt_of_lt_of_le (Int.negSucc_lt_zero k) (Int.natCast_nonneg _))]
    rfl
  | ofNat k =>
    have htypes : ∀ g : Graph, g.domains.typesOf (Int.ofNat k) =
        ((g.port? (k : PortId)).map (·.bare.spec.type)).getD .empty := by
      intro g
      show ((g.ports.map Port.type)[k]?).getD _ = ((g.ports[k]?).map _).getD _
      rw [Array.getElem?_map]
      rfl
    rw [htypes, htypes]
    split
    · rename_i hk
      obtain ⟨p, hp⟩ := exists_port (Int.ofNat_lt.1 hk)
      obtain ⟨p', hp', hbare⟩ := h.port hp
      rw [hp, hp', Option.map_some, Option.map_some, hbare]
    · rename_i hk
      have hnone : g.port? (k : PortId) = none :=
        Array.getElem?_eq_none (Nat.le_of_not_lt fun hlt => hk (Int.ofNat_lt.2 hlt))
      rw [hnone]
      rfl

include hg hg' h

/-- What passes the check passes it on the old ports. -/
theorem GrowsApart.check_take (ha : g'.checkTypes a = .ok ()) :
    g.checkTypes (a.take g.ports.size) = .ok () := by
  obtain ⟨s, hs, -⟩ := hg.ready
  obtain ⟨s', hs', -⟩ := hg'.ready
  have hpart := h.part hg hg' hs hs'
  obtain ⟨hsize, ht⟩ := (checkTypes_iff hg').1 ha
  obtain ⟨had, hsat⟩ := (hg'.typed_iff hs').1 ht
  have hle := h.size_ports
  refine (checkTypes_iff hg).2 ⟨by rw [size_take, hsize]; omega, (hg.typed_iff hs).2
    ⟨fun k hk => ?_, fun i c hc => ?_⟩⟩
  · rw [size_domains] at hk
    have hmem := had k (by rw [size_domains]; omega)
    rw [assigned_take (Int.ofNat_lt.2 hk), ← h.domains_take, Domains.typesOf_take,
      if_pos (Int.ofNat_lt.2 hk)]
    exact hmem
  · obtain ⟨j, c', hc', hr⟩ := hpart.kept i c hc
    exact Rule.satisfied_congr (fun q hq => assigned_take (hpart.ports i c hc q hq))
      (hr ▸ hsat j c' hc')

/-- **Types of the old ports and types of the further ones can be chosen apart.** -/
theorem GrowsApart.check_graft (ha : g.checkTypes a = .ok ()) (hb : g'.checkTypes b = .ok ()) :
    g'.checkTypes (graft a b) = .ok () := by
  obtain ⟨s, hs, -⟩ := hg.ready
  obtain ⟨s', hs', -⟩ := hg'.ready
  have hpart := h.part hg hg' hs hs'
  obtain ⟨hsize, ht⟩ := (checkTypes_iff hg).1 ha
  obtain ⟨hsize', ht'⟩ := (checkTypes_iff hg').1 hb
  obtain ⟨had, hsat⟩ := (hg.typed_iff hs).1 ht
  obtain ⟨had', hsat'⟩ := (hg'.typed_iff hs').1 ht'
  have hle := h.size_ports
  have hgraft : ∀ q, assigned (graft a b) q =
      if q < g.ports.size then assigned a q else assigned b q := fun q => by
    rw [assigned_graft, hsize]
  refine (checkTypes_iff hg').2 ⟨by rw [size_graft (by omega), hsize'], (hg'.typed_iff hs').2
    ⟨fun k hk => ?_, fun j c' hc' => ?_⟩⟩
  · rw [hgraft]
    split
    · rename_i hk'
      have hmem := had k (by rw [size_domains]; exact Int.ofNat_lt.1 hk')
      rwa [← h.domains_take, Domains.typesOf_take, if_pos hk'] at hmem
    · exact had' k hk
  · rcases hpart.apart j c' hc' with ⟨i, c, hc, hr⟩ | hnew
    · refine Rule.satisfied_congr (fun q hq => ?_) (hr ▸ hsat i c hc)
      rw [hgraft, if_pos (hpart.ports i c hc q (hr ▸ hq))]
    · refine Rule.satisfied_congr (fun q hq => ?_) (hsat' j c' hc')
      rw [hgraft, if_neg (hnew q hq)]

/-- Assignments compatible with choices for all ports are so, on the old ports, with the choices made
there. -/
theorem Compatible.take (ha : g'.Compatible choices a) :
    g.Compatible (choices.filter (·.1 < g.ports.size)) (a.take g.ports.size) := by
  refine ⟨h.check_take hg hg' ha.check, fun c hc => ?_⟩
  obtain ⟨hc, hold⟩ := List.mem_filter.1 hc
  rw [assigned_take (of_decide_eq_true hold)]
  exact ha.agrees c hc

/-- **Assignments compatible with the choices for the old ports** are completed by any that are
compatible with all choices. -/
theorem Compatible.graft (ha : g.Compatible (choices.filter (·.1 < g.ports.size)) a)
    (hb : g'.Compatible choices b) : g'.Compatible choices (graft a b) := by
  refine ⟨h.check_graft hg hg' ha.check hb.check, fun c hc => ?_⟩
  rw [assigned_graft, ((checkTypes_iff hg).1 ha.check).1]
  split
  · rename_i hold
    exact ha.agrees c (List.mem_filter.2 ⟨hc, decide_eq_true hold⟩)
  · exact hb.agrees c hc

/-- The preferred type of an old port is the one that it prefers alone. -/
theorem Prefers.take {p : PortId} {t : ValueType} (ht : g'.Prefers choices p t)
    (hp : p < g.ports.size) : g.Prefers (choices.filter (·.1 < g.ports.size)) p t := by
  obtain ⟨b, hb, hbt⟩ := ht.possible
  refine ⟨⟨_, hb.take hg hg' h, by rw [assigned_take hp, hbt]⟩, fun a ha => ?_⟩
  have hfirst := ht.first _ (ha.graft hg hg' h hb)
  rwa [assigned_graft, ((checkTypes_iff hg).1 ha.check).1, if_pos hp] at hfirst

/-- **The ports of the smaller graph are decided as they are alone**: a choice for an old port is one
that is made there, and a choice for a further port leaves the old ones as they are. -/
theorem Decides.take (hs : ConstraintSystem.ofGraph g = .ok s)
    (hs' : ConstraintSystem.ofGraph g' = .ok s') {d' : Domains}
    (hdec : g'.Decides s' d' choices a) (hreached : g'.Reached s' d' choices) :
    g.Decides s (d'.take g.ports.size) (choices.filter (·.1 < g.ports.size))
      (a.take g.ports.size) := by
  obtain ⟨s₁, hs₁, hready⟩ := hg.ready
  obtain ⟨s₂, hs₂, hready'⟩ := hg'.ready
  rw [hs] at hs₁
  rw [hs'] at hs₂
  cases hs₁
  cases hs₂
  have hpart := h.part hg hg' hs hs'
  have hle := h.size_ports
  induction hdec with
  | decided hone =>
    rw [← Domains.assignment_take]
    refine .decided fun k hk => ?_
    rw [size_take] at hk
    rw [Domains.typesOf_take, if_pos (Int.ofNat_lt.2 (by omega))]
    exact hone k (by omega)
  | @choose d' d'' choices p t a hp ht hprop _ ih =>
    have hsize : g.ports.size ≤ d'.size := by rw [hreached.within.size, size_domains]; exact hle
    obtain ⟨b, hb, hbt⟩ := ht.possible
    have hmem : (d'.typesOf p).Mem t := hbt ▸ (hreached.admits b hb).mem hp.has
    have hstart := hreached.ready_decide hready' hmem
    have hn := hstart.narrowed.of_propagate hstart hprop
    have hsize' : g.ports.size ≤ (d'.setIfInBounds p.toNat (.singleton t)).size := by
      rw [Array.size_setIfInBounds]
      exact hsize
    have hrest := ih (hreached.chosen hg' hs' hready' hp.has hmem hprop hn).1
    by_cases hold : p < g.ports.size
    · rw [List.filter_cons_of_pos (by simpa using hold)] at hrest
      have hready₀ := hready.take (size_domains g) hstart hsize'
      have hprop₀ := ConstraintSystem.propagate_take hpart hready₀ hstart hsize' hprop
      rw [Domains.take_setIfInBounds hold hmem] at hprop₀
      exact .choose (hp.take hold hsize) (ht.take hg hg' h hold) hprop₀ hrest
    · -- the old ports keep their largest stable domains
      rw [List.filter_cons_of_neg (by simpa using hold)] at hrest
      have hsame : d''.take g.ports.size = d'.take g.ports.size := by
        have hnarrowed := hn.take hpart hsize'
        rw [Domains.take_setIfInBounds_of_le hold hmem] at hnarrowed
        have hstable := hreached.stable.take hpart hsize
        have hself : s.Narrowed (d'.take g.ports.size) (d'.take g.ports.size) [] :=
          ⟨Domains.Within.refl _, hstable.inhabited, fun i c hc _ => hstable.unchanged i c hc,
            fun _ _ hw => hw⟩
        exact hself.eq hnarrowed
      rwa [hsame] at hrest

/-- The preferred assignment of the larger graph is, on the old ports, that of the smaller. -/
theorem Preferred.take (ha : g'.Preferred a) : g.Preferred (a.take g.ports.size) := by
  obtain ⟨s', d', hs', hd', hdec⟩ := ha
  obtain ⟨s, hs, hready⟩ := hg.ready
  obtain ⟨s₂, hs₂, hready'⟩ := hg'.ready
  rw [hs'] at hs₂
  cases hs₂
  have hsize : g.ports.size ≤ g'.domains.size := by
    rw [size_domains]
    exact h.size_ports
  have hready₀ : s.Ready (g'.domains.take g.ports.size) := by
    rw [h.domains_take]
    exact hready
  have hprop := ConstraintSystem.propagate_take (h.part hg hg' hs hs') hready₀ hready' hsize hd'
  rw [h.domains_take] at hprop
  exact ⟨s, _, hs, hprop, hdec.take hg hg' h hs hs' (hg'.reached hs' hready' hd')⟩

end Choosing

/-! ### Resolution -/

/-- One type is resolved for each port. -/
theorem Consistent.size_resolved (hg : g.Consistent) {budget : Int}
    (ha : (g.resolveTypes budget).1 = .ok a) : a.size = g.ports.size := by
  obtain ⟨_, d, d', -, -, hw, hw', -, -, rfl⟩ := hg.resolved ha
  rw [Domains.assignment, Array.size_map, hw'.size, hw.size, size_domains]

/-- **Unrelated nodes do not change types**: what is resolved for a graph that has grown by further nodes,
and by edges that join two of their ports each, gives each old port the type that is resolved for it alone,
whatever the budgets. -/
theorem Built.resolveTypes_apart (hg : g.Built) (hg' : g'.Built) (h : g.GrowsApart g')
    {budget budget' : Int} {a a' : TypeAssignment} (ha : (g.resolveTypes budget).1 = .ok a)
    (ha' : (g'.resolveTypes budget').1 = .ok a') :
    ∀ (k : Nat), k < g.ports.size → ∃ t, a[k]? = some t ∧ a'[k]? = some t := by
  intro k hk
  have hsize := hg.consistent.size_resolved ha
  have hsame : a'.take g.ports.size = a :=
    (hg.consistent.preferred ha).unique
      ((hg'.consistent.preferred ha').take hg.consistent hg'.consistent h)
  have hka : a[k]? = some a[k] := Array.getElem?_eq_getElem (by omega)
  refine ⟨a[k], hka, ?_⟩
  have hkt : Array.at? (a'.take g.ports.size) (k : Int) = some a[k] := by
    rw [hsame]
    exact hka
  rwa [at?_take, if_pos (Int.ofNat_lt.2 hk)] at hkt

/-- A negation, and beside it a choice by a comparison: the operands compared are decided first, and
the operand negated has the type that it has alone. -/
theorem resolveTypes_apart_compare :
    let steps : List Growth := [.node (Uuid.ofBytes [1]) "" .negate .none]
    let further : List Growth := [.node (Uuid.ofBytes [2]) "" .compare (.compare .less),
      .node (Uuid.ofBytes [3]) "" .conditional .none, .edge 4 5]
    let a : TypeAssignment := #[.float, .float]
    let a' : TypeAssignment :=
      #[.float, .float, .float, .float, .bool, .bool, .float, .float, .float]
    (grown steps).GrowsApart (grown (steps ++ further)) ∧
      ((grown steps).resolveTypes 0).1 = .ok a ∧
      ((grown (steps ++ further)).resolveTypes 0).1 = .ok a' ∧
      ∀ (k : Nat), k < (grown steps).ports.size → ∃ t, a[k]? = some t ∧ a'[k]? = some t := by
  intro steps further a a'
  have h : (grown steps).GrowsApart (grown (steps ++ further)) := by
    refine GrowsApart.grown steps fun source target he => ?_
    simp only [further, List.mem_cons, reduceCtorEq, Growth.edge.injEq, List.not_mem_nil, or_false,
      false_or] at he
    obtain ⟨rfl, rfl⟩ := he
    exact ⟨rfl, rfl⟩
  obtain ⟨hwithin, hwithin'⟩ : (grown steps).typesWithin? 20 = some a ∧
      (grown (steps ++ further)).typesWithin? 20 = some a' := by decide +kernel
  have ha : ((grown steps).resolveTypes 0).1 = .ok a := resolveTypes_of_within hwithin
  have ha' : ((grown (steps ++ further)).resolveTypes 0).1 = .ok a' := resolveTypes_of_within hwithin'
  exact ⟨h, ha, ha', (Built.grown _).resolveTypes_apart (Built.grown _) h ha ha'⟩

/-- A coordinate and a negation: an edge between these two old ports makes the negation one of vectors. -/
theorem resolveTypes_joined :
    let steps : List Growth := [.node (Uuid.ofBytes [1]) "" .texCoord .none,
      .node (Uuid.ofBytes [2]) "" .negate .none]
    let further : List Growth := [.edge 0 1]
    let a : TypeAssignment := #[.float2, .float, .float]
    let a' : TypeAssignment := #[.float2, .float2, .float2]
    (grown steps).GrowsBeside (grown (steps ++ further)) ∧
      ((grown steps).resolveTypes 0).1 = .ok a ∧
      ((grown (steps ++ further)).resolveTypes 0).1 = .ok a' ∧
      ¬ ∀ (k : Nat), k < (grown steps).ports.size → ∃ t, a[k]? = some t ∧ a'[k]? = some t := by
  intro steps further a a'
  have hjoins : (grown steps).Joins 0 1 (grown (steps ++ further)) := by
    have hok : ((grown steps).connect 0 1).toOption.isSome = true := by decide +kernel
    obtain ⟨g', hg'⟩ := Option.isSome_iff_exists.1 hok
    rw [toOption_eq_some] at hg'
    have hgrown : grown (steps ++ further) = g' := by
      rw [grown, List.foldl_append, ← grown]
      exact after_edge hg'
    exact hgrown ▸ connect_joins hg'
  obtain ⟨hwithin, hwithin'⟩ : (grown steps).typesWithin? 20 = some a ∧
      (grown (steps ++ further)).typesWithin? 20 = some a' := by decide +kernel
  refine ⟨hjoins.growsBeside (Built.grown steps).consistent, resolveTypes_of_within hwithin,
    resolveTypes_of_within hwithin', fun hall => ?_⟩
  obtain ⟨t, ht, ht'⟩ := hall 1 (by decide +kernel)
  have hfloat : ValueType.float = t := Option.some.inj ht
  have hvector : ValueType.float2 = t := Option.some.inj ht'
  cases hfloat.trans hvector.symm

end Graph

end NodeShader
