import NodeShader.Proofs.Graph.Wiring
import NodeShader.Proofs.Outcome
import NodeShader.Proofs.Typing.Settling
import NodeShader.Typing.Resolve

/-!
# Resolved types satisfy the rules

Propagation keeps every constraint that does not wait in the queue settled
(`ConstraintSystem.Steady`), and a decided port queues the constraints that touch it.  When the queue
is empty and every port has one type left, all rules are satisfied:

* `Graph.Typed`: every port has a declared type, both ends of an edge have one type, and the rules of
  each node are satisfied.
* `Graph.Consistent.typed`: **what type resolution finds is typed**.
-/

namespace NodeShader

/-- Domains that have lost types, or none. -/
structure Domains.Within (d' d : Domains) : Prop where
  size : d'.size = d.size
  mem : ∀ p t, (d'.typesOf p).Mem t → (d.typesOf p).Mem t

namespace Domains.Within

variable {d d' d₂ : Domains}

theorem refl (d : Domains) : d.Within d := ⟨rfl, fun _ _ h => h⟩

theorem trans (h₂ : d₂.Within d') (h : d'.Within d) : d₂.Within d :=
  ⟨h₂.size.trans h.size, fun p t ht => h.mem p t (h₂.mem p t ht)⟩

end Domains.Within

/-- What all steps of a fold keep, and one of its steps makes, holds at the end. -/
theorem foldl_reaches {α β : Type} {f : β → α → β} {I P : β → Prop} {l : List α} {b : β} {x : α}
    (hI : ∀ b a, I b → I (f b a)) (hP : ∀ b a, P b → P (f b a)) (hx : x ∈ l)
    (hmake : ∀ b, I b → P (f b x)) (hb : I b) : P (l.foldl f b) := by
  have hkeep : ∀ (l : List α) (b : β), P b → P (l.foldl f b) := by
    intro l
    induction l with
    | nil => exact fun _ h => h
    | cons a l ih => exact fun b h => ih (f b a) (hP b a h)
  induction l generalizing b with
  | nil => cases hx
  | cons a l ih =>
    rcases List.mem_cons.1 hx with rfl | hx
    · exact hkeep l _ (hmake b hb)
    · exact ih hx (hI b a hb)

namespace ConstraintSystem

variable {s : ConstraintSystem} {d d' d₀ : Domains} {queue : List Nat} {c : Constraint} {i : Nat}

/-- Every constraint that does not wait is settled. -/
def Steady (s : ConstraintSystem) (d : Domains) (queue : List Nat) : Prop :=
  ∀ (i : Nat) (c : Constraint), s.constraints[i]? = some c → i ∉ queue → c.rule.Settled d

/-- Constraints are found by their ports, and their rules are proper. -/
structure Indexed (s : ConstraintSystem) : Prop where
  touching : ∀ (i k : Nat) (c : Constraint), s.constraints[i]? = some c →
    (k : PortId) ∈ c.rule.ports → k < s.byPort.size → i ∈ s.touching k
  proper : ∀ (i : Nat) (c : Constraint), s.constraints[i]? = some c → c.rule.Proper

/-! ### Propagation -/

theorem mem_enqueue {current : Nat} {touched : List PortId} :
    i ∈ s.enqueue current queue touched ↔
      i ∈ queue ∨ i ≠ current ∧ i ∈ touched.flatMap s.touching := by
  rw [enqueue]
  generalize touched.flatMap s.touching = l
  induction l generalizing queue with
  | nil => simp
  | cons a l ih =>
    rw [List.foldl_cons, ih, List.mem_cons]
    by_cases h : a = current ∨ queue.contains a
    · rw [if_pos h]
      constructor
      · rintro (hq | ⟨hne, hl⟩)
        · exact .inl hq
        · exact .inr ⟨hne, .inr hl⟩
      · rintro (hq | ⟨hne, rfl | hl⟩)
        · exact .inl hq
        · rcases h with h | h
          · exact absurd h hne
          · exact .inl (by simpa using h)
        · exact .inr ⟨hne, hl⟩
    · rw [if_neg h, not_or] at *
      rw [List.mem_append, List.mem_singleton]
      constructor
      · rintro ((hq | rfl) | ⟨hne, hl⟩)
        · exact .inl hq
        · exact .inr ⟨h.1, .inl rfl⟩
        · exact .inr ⟨hne, .inr hl⟩
      · rintro (hq | ⟨hne, rfl | hl⟩)
        · exact .inl (.inl hq)
        · exact .inl (.inr rfl)
        · exact .inr ⟨hne, hl⟩

/-- A port that is touched by no change keeps its domain, and one outside the table has none. -/
theorem typesOf_of_untouched {p : PortId} (hsize : d.size = s.byPort.size) (hsize' : d'.size = d.size)
    (hkeep : ∀ k : Nat, k < s.byPort.size → p = k → d'.typesOf p = d.typesOf p) :
    d'.typesOf p = d.typesOf p := by
  cases p with
  | negSucc k => rfl
  | ofNat k =>
    by_cases hk : k < s.byPort.size
    · exact hkeep k hk rfl
    · show (d'[k]?).getD _ = (d[k]?).getD _
      rw [Array.getElem?_eq_none (by omega), Array.getElem?_eq_none (by omega)]

/-- One step: the constraint that is applied is settled, and what its changes touch waits. -/
theorem Steady.step {rest : List Nat} {touched : List PortId} (hs : s.Indexed)
    (hsize : d.size = s.byPort.size) (h : s.Steady d (i :: rest)) (hc : s.constraints[i]? = some c)
    (hn : c.rule.narrow d = some (d', touched)) : s.Steady d' (s.enqueue i rest touched) := by
  intro j c' hc' hj
  obtain ⟨-, hkeep, hsize'⟩ := Domains.narrow_spec hn
  rw [mem_enqueue, not_or] at hj
  by_cases hji : j = i
  · subst hji
    rw [hc] at hc'
    cases hc'
    exact Rule.narrow_settled (hs.proper j c hc) hn
  · have hj' : j ∉ i :: rest := by
      rw [List.mem_cons, not_or]
      exact ⟨hji, hj.1⟩
    refine (h j c' hc' hj').congr fun p hp => ?_
    refine typesOf_of_untouched hsize hsize' fun k hk he => hkeep p fun hpt => hj.2 ⟨hji, ?_⟩
    exact List.mem_flatMap.2 ⟨p, hpt, by rw [he] at hp ⊢; exact hs.touching j k c' hc' hp hk⟩

/-- **Propagation settles every constraint** and only takes types away. -/
theorem propagate_spec (hs : s.Indexed) {steps : Nat} (hsize : d.size = s.byPort.size)
    (h : s.Steady d queue) (hr : (s.propagate d queue steps).result = .ok d') :
    s.Steady d' [] ∧ d'.Within d := by
  fun_induction propagate s d queue steps with
  | case1 d steps =>
    cases hr
    exact ⟨h, Domains.Within.refl _⟩
  | case2 d steps i rest hi ih =>
    refine ih hsize ?_ hr
    intro j c hc hj
    refine h j c hc ?_
    rw [List.mem_cons, not_or]
    refine ⟨?_, hj⟩
    rintro rfl
    rw [hi] at hc
    cases hc
  | case3 d steps i rest c hc hn => cases hr
  | case4 d steps i rest c hc d₂ hn ih =>
    refine ih hsize ?_ hr
    have hstep := h.step hs hsize hc hn
    obtain ⟨-, hkeep, -⟩ := Domains.narrow_spec hn
    exact fun j c' hc' hj => (hstep j c' hc' hj).congr fun p _ => (hkeep p List.not_mem_nil).symm
  | case5 d steps i rest c hc d₂ p touched hn ih =>
    obtain ⟨hmem, -, hsize'⟩ := Domains.narrow_spec hn
    obtain ⟨hst, hw⟩ := ih (by rw [hsize', hsize]) (h.step hs hsize hc hn) hr
    exact ⟨hst, hw.trans ⟨hsize', fun q t ht => ((hmem q t).1 ht).1⟩⟩

/-! ### Search -/

theorem mem_choices {p : PortId} {t : ValueType} (h : (d, p, t) ∈ choices d') :
    d = d' ∧ (d.typesOf p).Mem t := by
  rw [choices] at h
  cases hm : d'.mostConstrained? with
  | none => rw [hm] at h; cases h
  | some q =>
    rw [hm] at h
    obtain ⟨u, hu, he⟩ := List.mem_map.1 h
    cases he
    exact ⟨rfl, hu⟩

/-- A decided port leaves settled what does not touch it. -/
theorem Steady.decide {p : PortId} {t : ValueType} (hs : s.Indexed)
    (hsize : d.size = s.byPort.size) (h : s.Steady d []) (ht : (d.typesOf p).Mem t) :
    s.Steady (d.setIfInBounds p.toNat (.singleton t)) (s.startQueue p) := by
  intro i c hc hi
  refine (h i c hc List.not_mem_nil).congr fun q hq => ?_
  refine typesOf_of_untouched hsize (by simp) fun k hk he => ?_
  rw [Domains.typesOf_set ⟨t, ht⟩, if_neg ?_]
  rintro rfl
  rw [he] at hi hq
  have ht := hs.touching i k c hc hq hk
  rw [startQueue] at hi
  cases hl : s.touching (k : PortId) with
  | nil => rw [hl] at ht; cases ht
  | cons a l =>
    rw [hl] at hi ht
    exact hi ht

theorem within_decide {p : PortId} {t : ValueType} (ht : (d.typesOf p).Mem t) :
    Domains.Within (d.setIfInBounds p.toNat (.singleton t)) d := by
  refine ⟨by simp, fun q u hu => ?_⟩
  rw [Domains.typesOf_set ⟨t, ht⟩] at hu
  by_cases hq : q = p
  · subst hq
    rw [if_pos rfl, TypeSet.mem_singleton] at hu
    rw [hu.1]
    exact ht
  · rwa [if_neg hq] at hu

/-- **A found assignment settles every constraint**, and each port has one of the types it started
with. -/
theorem search_spec (hs : s.Indexed) (hsize : d₀.size = s.byPort.size) {first : PortId}
    {budget : Nat} {state : Search}
    (h : ∀ d p t, (d, p, t) ∈ state.stack → s.Steady d [] ∧ d.Within d₀ ∧ (d.typesOf p).Mem t)
    (hr : (s.search first budget state).1 = .ok d') :
    s.Steady d' [] ∧ d'.Within d₀ ∧ d'.isComplete = true := by
  induction budget generalizing state with
  | zero =>
    obtain ⟨stack, failed, stats⟩ := state
    cases stack with
    | nil => rw [search] at hr; cases hr
    | cons entry stack => rw [search] at hr; cases hr
  | succ budget ih =>
    obtain ⟨stack, failed, stats⟩ := state
    cases stack with
    | nil => rw [search] at hr; cases hr
    | cons entry stack =>
      obtain ⟨d, p, t⟩ := entry
      obtain ⟨hst, hw, ht⟩ := h d p t List.mem_cons_self
      have hrest : ∀ d p t, (d, p, t) ∈ stack → s.Steady d [] ∧ d.Within d₀ ∧ (d.typesOf p).Mem t :=
        fun d p t hm => h d p t (List.mem_cons_of_mem _ hm)
      rw [search] at hr
      simp only at hr
      split at hr
      · exact ih hrest hr
      · rename_i d₂ hprop
        have hsd : d.size = s.byPort.size := by rw [hw.size, hsize]
        obtain ⟨hst₂, hw₂⟩ := propagate_spec hs (by rw [Array.size_setIfInBounds, hsd])
          (hst.decide hs hsd ht) hprop
        have hw₀ := (hw₂.trans (within_decide ht)).trans hw
        split at hr
        · rename_i hcomplete
          cases hr
          exact ⟨hst₂, hw₀, hcomplete⟩
        · refine ih ?_ hr
          intro d' p' t' hm
          rcases List.mem_append.1 hm with hm | hm
          · obtain ⟨rfl, ht'⟩ := mem_choices hm
            exact ⟨hst₂, hw₀, ht'⟩
          · exact hrest d' p' t' hm

/-! ### The constraints of a graph -/

/-- The table of the constraints by port lists each of them at its ports. -/
theorem ofGraph_touching {g : Graph} (h : ofGraph g = .ok s) :
    s.byPort.size = g.ports.size ∧ g.constraints = .ok s.constraints.toList ∧
      ∀ (i k : Nat) (c : Constraint), s.constraints[i]? = some c →
        (k : PortId) ∈ c.rule.ports → k < s.byPort.size → i ∈ s.touching k := by
  obtain ⟨cs, hcs, h⟩ := bind_eq_ok.1 h
  cases h
  have hinner : ∀ (n : Nat) (table : Array (List Nat)) (e : Constraint × Nat), table.size = n →
      (e.1.rule.ports.foldl (fun table p => table.modify p.toNat (· ++ [e.2])) table).size = n := by
    intro n table e
    generalize e.1.rule.ports = ports
    induction ports generalizing table with
    | nil => exact fun h => h
    | cons p ports ih => exact fun h => ih _ (by rw [Array.size_modify, h])
  have hsize : ∀ (n : Nat) (l : List (Constraint × Nat)) (table : Array (List Nat)),
      table.size = n → (l.foldl (fun (table : Array (List Nat)) (e : Constraint × Nat) =>
        e.1.rule.ports.foldl (fun table p => table.modify p.toNat (· ++ [e.2])) table) table).size
          = n := by
    intro n l
    induction l with
    | nil => exact fun _ h => h
    | cons e l ih => exact fun table h => ih _ (hinner n table e h)
  refine ⟨hsize _ _ _ Array.size_replicate, by rw [hcs], ?_⟩
  intro i k c hc hk hlt
  rw [hsize _ _ _ Array.size_replicate] at hlt
  -- a number listed for a port stays listed
  have hkeep : ∀ (table : Array (List Nat)) (p : PortId) (j : Nat), i ∈ (table[k]?).getD [] →
      i ∈ ((table.modify p.toNat (· ++ [j]))[k]?).getD [] := by
    intro table p j hi
    rw [Array.getElem?_modify]
    cases ht : table[k]? with
    | none => rw [ht] at hi; cases hi
    | some l =>
      rw [ht] at hi
      split
      · exact List.mem_append_left _ hi
      · exact hi
  have hkeep' : ∀ (table : Array (List Nat)) (e : Constraint × Nat), i ∈ (table[k]?).getD [] →
      i ∈ ((e.1.rule.ports.foldl (fun table p => table.modify p.toNat (· ++ [e.2])) table)[k]?).getD
        [] := by
    intro table e
    generalize e.1.rule.ports = ports
    induction ports generalizing table with
    | nil => exact fun h => h
    | cons p ports ih => exact fun h => ih _ (hkeep table p e.2 h)
  have hmem : (c, i) ∈ cs.zipIdx := by
    rw [List.mk_mem_zipIdx_iff_getElem?]
    simpa using hc
  refine foldl_reaches (P := fun table : Array (List Nat) => i ∈ (table[k]?).getD [])
    (I := fun table => table.size = g.ports.size) (fun table e h => hinner _ table e h) hkeep' hmem ?_
    Array.size_replicate
  intro table htable
  refine foldl_reaches (P := fun table : Array (List Nat) => i ∈ (table[k]?).getD [])
    (I := fun table => table.size = g.ports.size) (fun table p h => by rw [Array.size_modify, h])
    (fun table p => hkeep table p i) hk ?_ htable
  intro table htable
  rw [Array.getElem?_modify]
  show i ∈ ((if k = k then _ else _) : Option (List Nat)).getD []
  rw [if_pos rfl, Array.getElem?_eq_getElem (by omega)]
  exact List.mem_append_right _ (List.mem_singleton_self i)

end ConstraintSystem

namespace Graph

variable {g : Graph} {n : Node} {i : Nat} {τ : PortId → ValueType}

theorem portNumber_eq_ok {ports : List PortId} {k : Nat} {q : PortId} :
    portNumber ports k = .ok q ↔ ports[k]? = some q := by
  rw [portNumber]
  cases ports[k]? with
  | none => exact ⟨fun h => (by cases h), fun h => (by cases h)⟩
  | some p => simp

/-- An input of a node is no output of it. -/
theorem Consistent.input_ne_output (hg : g.Consistent) (hn : g.nodes[i]? = some n) {p q : PortId}
    (hp : p ∈ n.inputs) (hq : q ∈ n.outputs) : p ≠ q := by
  rintro rfl
  obtain ⟨P, hP, hdP, -⟩ := hg.input_port hn hp
  obtain ⟨Q, hQ, hdQ, -⟩ := hg.output_port hn hq
  rw [hQ] at hP
  cases hP
  rw [hdQ] at hdP
  cases hdP

/-- The rules of a node are about ports of the node, and they are proper. -/
theorem Consistent.rules (hg : g.Consistent) (hn : g.nodes[i]? = some n) {rs : List Rule}
    (h : g.nodeRules n = .ok rs) {r : Rule} (hr : r ∈ rs) :
    r.Proper ∧ ∀ q ∈ r.ports, q ∈ n.inputs ++ n.outputs := by
  have hin : ∀ {k : Nat} {q : PortId}, portNumber n.inputs k = .ok q → q ∈ n.inputs :=
    fun h => List.mem_of_getElem? (portNumber_eq_ok.1 h)
  have hout : ∀ {k : Nat} {q : PortId}, portNumber n.outputs k = .ok q → q ∈ n.outputs :=
    fun h => List.mem_of_getElem? (portNumber_eq_ok.1 h)
  have hleft : ∀ {q : PortId}, q ∈ n.inputs → q ∈ n.inputs ++ n.outputs :=
    fun h => List.mem_append_left _ h
  have hright : ∀ {q : PortId}, q ∈ n.outputs → q ∈ n.inputs ++ n.outputs :=
    fun h => List.mem_append_right _ h
  have hnone : (pure [] : Except ConstraintError (List Rule)) = .ok rs →
      r.Proper ∧ ∀ q ∈ r.ports, q ∈ n.inputs ++ n.outputs := by
    intro h
    cases h
    cases hr
  have hequal : (portNumber (n.inputs ++ n.outputs) 0 >>= fun _ =>
      pure [.equal (n.inputs ++ n.outputs)]) = .ok rs →
      r.Proper ∧ ∀ q ∈ r.ports, q ∈ n.inputs ++ n.outputs := by
    intro h
    obtain ⟨_, -, h⟩ := bind_eq_ok.1 h
    cases h
    rw [List.mem_singleton.1 hr]
    exact ⟨trivial, fun q hq => hq⟩
  rw [nodeRules] at h
  split at h <;> first | exact hnone h | exact hequal h | skip
  · -- length
    obtain ⟨p, hp, h⟩ := bind_eq_ok.1 h
    obtain ⟨q, hq, h⟩ := bind_eq_ok.1 h
    cases h
    rw [List.mem_singleton.1 hr]
    refine ⟨hg.input_ne_output hn (hin hp) (hout hq), ?_⟩
    simp [Rule.ports, hin hp, hout hq]
  · -- dot
    obtain ⟨p, hp, h⟩ := bind_eq_ok.1 h
    obtain ⟨q, hq, h⟩ := bind_eq_ok.1 h
    cases h
    rcases List.mem_cons.1 hr with rfl | hr
    · exact ⟨trivial, fun q hq => hleft hq⟩
    · rw [List.mem_singleton.1 hr]
      refine ⟨hg.input_ne_output hn (hin hp) (hout hq), ?_⟩
      simp [Rule.ports, hin hp, hout hq]
  · -- compare
    obtain ⟨p, hp, h⟩ := bind_eq_ok.1 h
    cases h
    rw [List.mem_singleton.1 hr]
    exact ⟨trivial, fun q hq => hleft hq⟩
  · -- conditional
    obtain ⟨p, hp, h⟩ := bind_eq_ok.1 h
    obtain ⟨q, hq, h⟩ := bind_eq_ok.1 h
    obtain ⟨o, ho, h⟩ := bind_eq_ok.1 h
    cases h
    rw [List.mem_singleton.1 hr]
    refine ⟨trivial, ?_⟩
    simp [Rule.ports, hin hp, hin hq, hout ho]
  · -- swizzle
    split at h
    · obtain ⟨p, hp, h⟩ := bind_eq_ok.1 h
      obtain ⟨p', hp', h⟩ := bind_eq_ok.1 h
      obtain ⟨q, hq, h⟩ := bind_eq_ok.1 h
      cases h
      rcases List.mem_cons.1 hr with rfl | hr
      · refine ⟨trivial, ?_⟩
        simp [Rule.ports, hin hp]
      · rw [List.mem_singleton.1 hr]
        refine ⟨hg.input_ne_output hn (hin hp') (hout hq), ?_⟩
        simp [Rule.ports, hin hp', hout hq]
    · cases h
  · -- combine
    rename_i hk
    cases h
    rw [List.mem_singleton.1 hr]
    obtain ⟨ins, outs, hspecs, hi, ho⟩ := (hg.node i n hn).ports
    refine ⟨⟨List.nodup_append.2 ⟨hi.nodup, ho.nodup, ?_⟩, ?_⟩, fun q hq => hq⟩
    · exact fun p hp q hq => hg.input_ne_output hn hp hq
    · intro he
      rw [List.append_eq_nil_iff] at he
      rw [he.2] at ho
      have hlen := ho.length_eq
      rw [List.length_zipIdx] at hlen
      rw [hk] at hspecs
      cases hpar : n.params with
      | combine count =>
        rw [hpar] at hspecs
        simp only [portSpecs] at hspecs
        split at hspecs
        · cases hspecs
        · cases hspecs
          cases hlen
      | _ =>
        rw [hpar] at hspecs
        cases hspecs
  · -- separate
    obtain ⟨p, hp, h⟩ := bind_eq_ok.1 h
    obtain ⟨rss, hrss, h⟩ := bind_eq_ok.1 h
    cases h
    obtain ⟨l, hl, hr⟩ := List.mem_flatten.1 hr
    obtain ⟨⟨q, k⟩, hq, hq'⟩ := exists_of_mem_right (mapM_eq_ok.1 hrss) hl
    have hqo : q ∈ n.outputs :=
      List.mem_of_getElem? (List.mk_mem_zipIdx_iff_getElem?.1 hq)
    dsimp only at hq'
    split at hq'
    · cases hq'
    · cases hq'
      rcases List.mem_cons.1 hr with rfl | hr
      · refine ⟨hg.input_ne_output hn (hin hp) hqo, ?_⟩
        simp [Rule.ports, hin hp, hqo]
      · split at hr
        · rw [List.mem_singleton.1 hr]
          refine ⟨trivial, ?_⟩
          simp [Rule.ports, hin hp]
        · cases hr
  · -- sample
    obtain ⟨p, hp, h⟩ := bind_eq_ok.1 h
    obtain ⟨q, hq, h⟩ := bind_eq_ok.1 h
    cases h
    rw [List.mem_singleton.1 hr]
    refine ⟨?_, by simp [Rule.ports, hin hp, hin hq]⟩
    rw [portNumber_eq_ok] at hp hq
    rintro rfl
    have hlt := (List.getElem?_eq_some_iff.1 hp).1
    have h01 := (List.getElem?_inj hlt (hg.nodup_ports hn .input)).1 (hp.trans hq.symm)
    cases h01
  · cases h
  · cases h

/-- **A typing of a graph**: every port has a declared type, both ends of an edge have one type, and
the rules of each node are satisfied. -/
structure Typed (g : Graph) (τ : PortId → ValueType) : Prop where
  declared : ∀ q p, g.port? q = some p → p.type.Mem (τ q)
  edges : ∀ e ∈ g.edges.toList, τ e.source = τ e.target
  rules : ∀ (i : Nat) (n : Node), g.nodes[i]? = some n →
    ∃ rs, g.nodeRules n = .ok rs ∧ ∀ r ∈ rs, r.Satisfied τ

/-- The constraints of a graph are those of its edges and of its nodes. -/
theorem mem_constraints {cs : List Constraint} (h : g.constraints = .ok cs) {c : Constraint} :
    c ∈ cs → (∃ e ∈ g.edges.toList, c.rule = .equal [e.source, e.target]) ∨
      ∃ (i : Nat) (n : Node) (rs : List Rule), g.nodes[i]? = some n ∧ g.nodeRules n = .ok rs ∧
        c.rule ∈ rs := by
  intro hc
  rw [constraints] at h
  obtain ⟨es, hes, h⟩ := bind_eq_ok.1 h
  obtain ⟨ns, hns, h⟩ := bind_eq_ok.1 h
  cases h
  rcases List.mem_append.1 hc with hc | hc
  · obtain ⟨e, he, hce⟩ := exists_of_mem_right (mapM_eq_ok.1 hes) hc
    refine .inl ⟨e, he, ?_⟩
    split at hce
    · cases hce
      rfl
    · cases hce
  · obtain ⟨l, hl, hc⟩ := List.mem_flatten.1 hc
    obtain ⟨n, hn, hnl⟩ := exists_of_mem_right (mapM_eq_ok.1 hns) hl
    obtain ⟨rs, hrs, hnl⟩ := bind_eq_ok.1 hnl
    cases hnl
    obtain ⟨r, hr, rfl⟩ := List.mem_map.1 hc
    obtain ⟨i, hi⟩ := List.getElem?_of_mem hn
    rw [Array.getElem?_toList] at hi
    exact .inr ⟨i, n, rs, hi, hrs, hr⟩

/-- The constraints of the edges and nodes are among those of the graph. -/
theorem constraints_complete {cs : List Constraint} (h : g.constraints = .ok cs) :
    (∀ e ∈ g.edges.toList, ∃ c ∈ cs, c.rule = .equal [e.source, e.target]) ∧
      ∀ (i : Nat) (n : Node), g.nodes[i]? = some n → ∃ rs, g.nodeRules n = .ok rs ∧
        ∀ r ∈ rs, ∃ c ∈ cs, c.rule = r := by
  rw [constraints] at h
  obtain ⟨es, hes, h⟩ := bind_eq_ok.1 h
  obtain ⟨ns, hns, h⟩ := bind_eq_ok.1 h
  cases h
  constructor
  · intro e he
    obtain ⟨c, hc, hce⟩ := exists_of_mem_left (mapM_eq_ok.1 hes) he
    refine ⟨c, List.mem_append_left _ hc, ?_⟩
    split at hce
    · cases hce
      rfl
    · cases hce
  · intro i n hn
    have hmem : n ∈ g.nodes.toList := by
      refine List.mem_of_getElem? (i := i) ?_
      rw [Array.getElem?_toList]
      exact hn
    obtain ⟨l, hl, hnl⟩ := exists_of_mem_left (mapM_eq_ok.1 hns) hmem
    obtain ⟨rs, hrs, hnl⟩ := bind_eq_ok.1 hnl
    cases hnl
    refine ⟨rs, hrs, fun r hr => ?_⟩
    exact ⟨_, List.mem_append_right _ (List.mem_flatten.2 ⟨_, hl, List.mem_map_of_mem hr⟩), rfl⟩

theorem Consistent.indexed (hg : g.Consistent) {s : ConstraintSystem}
    (h : ConstraintSystem.ofGraph g = .ok s) : s.Indexed := by
  obtain ⟨-, hcs, htouch⟩ := ConstraintSystem.ofGraph_touching h
  refine ⟨htouch, fun k c hc => ?_⟩
  have hmem : c ∈ s.constraints.toList := by
    refine List.mem_of_getElem? (i := k) ?_
    rw [Array.getElem?_toList]
    exact hc
  rcases mem_constraints hcs hmem with ⟨e, -, he⟩ | ⟨i, n, rs, hn, hrs, hr⟩
  · rw [he]
    trivial
  · exact (hg.rules hn hrs hr).1

/-- The type an assignment gives to a port. -/
def assigned (types : TypeAssignment) (q : PortId) : ValueType :=
  (Array.at? types q).getD .invalid

/-- Complete domains leave each port the type that they assign to it. -/
theorem toList_of_isComplete {d : Domains} (hc : d.isComplete = true) {k : Nat} (hk : k < d.size) :
    (d.typesOf (k : PortId)).toList = [assigned d.assignment (k : PortId)] := by
  have hsingle : d[k].isSingleton = true := Array.all_eq_true.1 hc k hk
  rw [TypeSet.isSingleton, beq_iff_eq, TypeSet.length, List.length_eq_one_iff] at hsingle
  obtain ⟨t, ht⟩ := hsingle
  have hd : d.typesOf (k : PortId) = d[k] := by
    rw [Domains.typesOf, at?_natCast, Array.getElem?_eq_getElem hk]
    rfl
  rw [hd, ht, assigned, at?_natCast, Domains.assignment, Array.getElem?_map,
    Array.getElem?_eq_getElem hk, Option.map_some, Option.getD_some, TypeSet.single, ht]

/-- Complete domains in which all constraints are settled give a typing. -/
theorem typed_of_steady (hg : g.Consistent) {s : ConstraintSystem} {d : Domains}
    (h : ConstraintSystem.ofGraph g = .ok s) (hst : s.Steady d []) (hw : d.Within g.domains)
    (hc : d.isComplete = true) : g.Typed (assigned d.assignment) := by
  obtain ⟨-, hcs, -⟩ := ConstraintSystem.ofGraph_touching h
  have hsize : d.size = g.ports.size := by rw [hw.size, domains, Array.size_map]
  have hone : ∀ q p, g.port? q = some p →
      (d.typesOf q).toList = [assigned d.assignment q] := by
    intro q p hp
    obtain ⟨k, rfl, hk⟩ := at?_eq_some hp
    exact toList_of_isComplete hc (by rw [hsize]; exact (Array.getElem?_eq_some_iff.1 hk).1)
  have hleft : ∀ ports : List PortId, (∀ q ∈ ports, ∃ p, g.port? q = some p) →
      Rule.Left d (assigned d.assignment) ports := by
    intro ports hports q hq
    obtain ⟨p, hp⟩ := hports q hq
    exact hone q p hp
  have hsat : ∀ c ∈ s.constraints.toList, (∀ q ∈ c.rule.ports, ∃ p, g.port? q = some p) →
      c.rule.Satisfied (assigned d.assignment) := by
    intro c hc hports
    obtain ⟨k, hk⟩ := List.getElem?_of_mem hc
    rw [Array.getElem?_toList] at hk
    exact hst k c hk List.not_mem_nil _ (hleft _ hports)
  obtain ⟨hedges, hnodes⟩ := constraints_complete hcs
  refine ⟨?_, ?_, ?_⟩
  · intro q p hp
    have hm : (d.typesOf q).Mem (assigned d.assignment q) := by
      rw [TypeSet.Mem, hone q p hp]
      exact List.mem_singleton_self _
    have hm' := hw.mem q _ hm
    obtain ⟨k, rfl, hk⟩ := at?_eq_some hp
    rw [Domains.typesOf, at?_natCast, domains, Array.getElem?_map, hk] at hm'
    exact hm'
  · intro e he
    obtain ⟨c, hc, hr⟩ := hedges e he
    obtain ⟨⟨p, hp, -⟩, p', hp', -⟩ := hg.ends e he
    have hsat' := hsat c hc (by
      rw [hr]
      intro q hq
      rcases List.mem_cons.1 hq with rfl | hq
      · exact ⟨p, hp⟩
      · rw [List.mem_singleton.1 hq]
        exact ⟨p', hp'⟩)
    rw [hr] at hsat'
    exact hsat' e.source List.mem_cons_self e.target (List.mem_cons_of_mem _ List.mem_cons_self)
  · intro i n hn
    obtain ⟨rs, hrs, hall⟩ := hnodes i n hn
    refine ⟨rs, hrs, fun r hr => ?_⟩
    obtain ⟨c, hc, rfl⟩ := hall r hr
    refine hsat c hc fun q hq => ?_
    rcases List.mem_append.1 ((hg.rules hn hrs hr).2 q hq) with hq | hq
    · obtain ⟨p, hp, -⟩ := hg.input_port hn hq
      exact ⟨p, hp⟩
    · obtain ⟨p, hp, -⟩ := hg.output_port hn hq
      exact ⟨p, hp⟩

/-- What type resolution finds: complete domains in which every constraint is settled, within those
that propagation alone leaves. -/
theorem Consistent.resolved (hg : g.Consistent) {budget : Int} {types : TypeAssignment}
    (h : (g.resolveTypes budget).1 = .ok types) :
    ∃ s d d', ConstraintSystem.ofGraph g = .ok s ∧ g.narrowTypes = .ok d ∧ d.Within g.domains ∧
      d'.Within d ∧ s.Steady d' [] ∧ d'.isComplete = true ∧ types = d'.assignment := by
  rw [resolveTypes] at h
  cases hs : ConstraintSystem.ofGraph g with
  | error e => rw [hs] at h; cases h
  | ok s =>
    rw [hs] at h
    dsimp only at h
    have hix := hg.indexed hs
    obtain ⟨hsize, -, -⟩ := ConstraintSystem.ofGraph_touching hs
    have hd : g.domains.size = s.byPort.size := by rw [domains, Array.size_map, hsize]
    have hstart : s.Steady g.domains s.all := by
      intro k c hc hk
      exact absurd (List.mem_range.2 (Array.getElem?_eq_some_iff.1 hc).1) hk
    split at h
    · cases h
    · rename_i d hprop
      obtain ⟨hst, hw⟩ := ConstraintSystem.propagate_spec hix hd hstart hprop
      have hnarrow : g.narrowTypes = .ok d := by
        rw [narrowTypes, hs]
        dsimp only
        rw [hprop]
      split at h
      · rename_i hc
        cases h
        exact ⟨s, d, d, rfl, hnarrow, hw, Domains.Within.refl d, hst, hc, rfl⟩
      · split at h
        · rename_i d' hfound
          cases h
          have hsd : d.size = s.byPort.size := by rw [hw.size, hd]
          obtain ⟨hst', hw', hc'⟩ := ConstraintSystem.search_spec hix hsd (fun d₂ p t hm => by
              obtain ⟨rfl, ht⟩ := ConstraintSystem.mem_choices hm
              exact ⟨hst, Domains.Within.refl d₂, ht⟩) hfound
          exact ⟨s, d, d', rfl, hnarrow, hw, hw', hst', hc', rfl⟩
        · cases h

/-- **What type resolution finds is a typing of the graph.** -/
theorem Consistent.typed (hg : g.Consistent) {budget : Int} {types : TypeAssignment}
    (h : (g.resolveTypes budget).1 = .ok types) : g.Typed (assigned types) := by
  obtain ⟨s, d, d', hs, -, hw, hw', hst, hc, rfl⟩ := hg.resolved h
  exact typed_of_steady hg hs hst (hw'.trans hw) hc

end Graph

/-! ### Propagation in a bounded number of steps -/

namespace ConstraintSystem

/-- Propagation that ends within `fuel` steps. -/
def propagateWithin (s : ConstraintSystem) : (fuel : Nat) → Domains → List Nat → Nat → Option Outcome
  | _, d, [], steps => some ⟨.ok d, steps⟩
  | 0, _, _ :: _, _ => none
  | fuel + 1, d, i :: rest, steps =>
    match s.constraints[i]? with
    | none => s.propagateWithin fuel d rest steps
    | some c =>
      match c.rule.narrow d with
      | none => some ⟨.error c, steps + 1⟩
      | some (_, []) => s.propagateWithin fuel d rest (steps + 1)
      | some (d', p :: touched) =>
        s.propagateWithin fuel d' (s.enqueue i rest (p :: touched)) (steps + 1)

/-- Propagation that ends within a bound is propagation. -/
theorem propagate_of_within {s : ConstraintSystem} {fuel : Nat} {d : Domains} {queue : List Nat}
    {steps : Nat} {o : Outcome} (h : s.propagateWithin fuel d queue steps = some o) :
    s.propagate d queue steps = o := by
  induction fuel generalizing d queue steps with
  | zero =>
    cases queue with
    | nil =>
      rw [propagate]
      exact Option.some.inj h
    | cons i rest => cases h
  | succ fuel ih =>
    cases queue with
    | nil =>
      rw [propagate]
      exact Option.some.inj h
    | cons i rest =>
      rw [propagateWithin] at h
      rw [propagate]
      cases hc : s.constraints[i]? with
      | none =>
        rw [hc] at h
        exact ih h
      | some c =>
        rw [hc] at h
        dsimp only at h ⊢
        split
        · rename_i hd
          rw [hd] at h
          exact Option.some.inj h
        · rename_i hd
          rw [hd] at h
          exact ih h
        · rename_i hd
          rw [hd] at h
          exact ih h

/-- A search in which each propagation ends within `fuel` steps. -/
def searchWithin (s : ConstraintSystem) (first : PortId) (fuel : Nat) :
    Nat → Search → Option (Except Unsatisfiable Domains × TypingStats)
  | _, ⟨[], failed, stats⟩ => some (.error { unsatisfiable failed with node := s.ownerId first }, stats)
  | 0, ⟨(_, p, _) :: _, _, stats⟩ =>
    some (.error { node := s.ownerId p, constraint := "", budgetExhausted := true },
      { stats with searchNodes := stats.searchNodes + 1 })
  | budget + 1, ⟨(d, p, t) :: stack, failed, stats⟩ => do
    let o ← s.propagateWithin fuel (d.setIfInBounds p.toNat (.singleton t)) (s.startQueue p) 0
    let stats := { stats with
      searchNodes := stats.searchNodes + 1, propagations := stats.propagations + o.steps }
    match o.result with
    | .error c => s.searchWithin first fuel budget ⟨stack, some c, stats⟩
    | .ok d' =>
      if d'.isComplete then some (.ok d', stats)
      else s.searchWithin first fuel budget ⟨choices d' ++ stack, failed, stats⟩

/-- A search whose propagations end within a bound is a search. -/
theorem search_of_within {s : ConstraintSystem} {first : PortId} {fuel budget : Nat} {x : Search}
    {r : Except Unsatisfiable Domains × TypingStats}
    (h : s.searchWithin first fuel budget x = some r) : s.search first budget x = r := by
  induction budget generalizing x with
  | zero =>
    obtain ⟨_ | ⟨⟨d, p, t⟩, stack⟩, failed, stats⟩ := x <;> exact Option.some.inj h
  | succ budget ih =>
    obtain ⟨_ | ⟨⟨d, p, t⟩, stack⟩, failed, stats⟩ := x
    · exact Option.some.inj h
    · obtain ⟨o, ho, h⟩ := Option.bind_eq_some_iff.1 h
      rw [search, propagate_of_within ho]
      dsimp only at h ⊢
      cases hr : o.result with
      | error c =>
        rw [hr] at h
        exact ih h
      | ok d' =>
        rw [hr] at h
        dsimp only at h ⊢
        split at h
        · rename_i hcomplete
          rw [if_pos hcomplete]
          exact Option.some.inj h
        · rename_i hcomplete
          rw [if_neg hcomplete]
          exact ih h

end ConstraintSystem

/-- The domains that propagation alone leaves within `fuel` steps, or why it leaves none. -/
def Graph.narrowWithin? (g : Graph) (fuel : Nat) : Option (Except TypingError Domains) :=
  match ConstraintSystem.ofGraph g with
  | .error e => some (.error (.constraints e))
  | .ok s =>
    (s.propagateWithin fuel g.domains s.all 0).map fun o =>
      match o.result with
      | .ok d => .ok d
      | .error c => .error (.unsatisfiable (ConstraintSystem.unsatisfiable (some c)))

theorem Graph.narrowTypes_of_within {g : Graph} {fuel : Nat} {r : Except TypingError Domains}
    (h : g.narrowWithin? fuel = some r) : g.narrowTypes = r := by
  rw [narrowWithin?] at h
  rw [narrowTypes]
  cases hs : ConstraintSystem.ofGraph g with
  | error e =>
    rw [hs] at h
    exact Option.some.inj h
  | ok s =>
    rw [hs] at h
    obtain ⟨o, ho, h⟩ := Option.map_eq_some_iff.1 h
    dsimp only
    rw [ConstraintSystem.propagate_of_within ho]
    exact h

/-- Type resolution in which each propagation ends within `fuel` steps. -/
def Graph.resolveWithin? (g : Graph) (fuel : Nat) (budget : Int) :
    Option (Except TypingError TypeAssignment × TypingStats) :=
  match ConstraintSystem.ofGraph g with
  | .error e => some (.error (.constraints e), default)
  | .ok s => do
    let o ← s.propagateWithin fuel g.domains s.all 0
    let stats : TypingStats :=
      { constraints := s.constraints.size, propagations := o.steps, searchNodes := 0 }
    match o.result with
    | .error c => some (.error (.unsatisfiable (ConstraintSystem.unsatisfiable (some c))), stats)
    | .ok d =>
      if d.isComplete then some (.ok d.assignment, stats)
      else do
        let (result, stats) ← s.searchWithin (d.mostConstrained?.getD noPort) fuel
          (if budget ≤ 0 then defaultBudget else budget.toNat) ⟨ConstraintSystem.choices d, none, stats⟩
        match result with
        | .ok d => some (.ok d.assignment, stats)
        | .error e => some (.error (.unsatisfiable e), stats)

theorem Graph.resolve_of_within {g : Graph} {fuel : Nat} {budget : Int}
    {r : Except TypingError TypeAssignment × TypingStats} (h : g.resolveWithin? fuel budget = some r) :
    g.resolveTypes budget = r := by
  rw [resolveWithin?] at h
  rw [resolveTypes]
  cases hs : ConstraintSystem.ofGraph g with
  | error e =>
    rw [hs] at h
    exact Option.some.inj h
  | ok s =>
    rw [hs] at h
    obtain ⟨o, ho, h⟩ := Option.bind_eq_some_iff.1 h
    dsimp only
    rw [ConstraintSystem.propagate_of_within ho]
    cases hr : o.result with
    | error c =>
      rw [hr] at h
      exact Option.some.inj h
    | ok d =>
      rw [hr] at h
      dsimp only at h ⊢
      split at h
      · rename_i hcomplete
        rw [if_pos hcomplete]
        exact Option.some.inj h
      · rename_i hcomplete
        rw [if_neg hcomplete]
        obtain ⟨found, hfound, h⟩ := Option.bind_eq_some_iff.1 h
        rw [ConstraintSystem.search_of_within hfound]
        obtain ⟨result, stats⟩ := found
        cases result <;> exact Option.some.inj h

/-- The types that are found so, with the search budget where none is given. -/
def Graph.typesWithin? (g : Graph) (fuel : Nat) : Option TypeAssignment :=
  (g.resolveWithin? fuel 0).bind (·.1.toOption)

theorem Graph.resolveTypes_of_within {g : Graph} {fuel : Nat} {types : TypeAssignment}
    (h : g.typesWithin? fuel = some types) : (g.resolveTypes 0).1 = .ok types := by
  obtain ⟨r, hr, htypes⟩ := Option.bind_eq_some_iff.1 h
  rw [resolve_of_within hr]
  exact toOption_eq_some.1 htypes

end NodeShader
