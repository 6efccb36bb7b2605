import Mathlib.Tactic.ByContra
import NodeShader.Proofs.Lists
import NodeShader.Typing.Constraint

/-!
# Members of type sets

A type set is seen through the list of its members: what each operation does to the members, and
that sets with the same members are equal.
-/

namespace NodeShader.TypeSet

/-- A type is a member of a set. -/
def Mem (s : TypeSet) (t : ValueType) : Prop := t ∈ s.toList

/-- A code that has a place in the mask. -/
def InMask (t : ValueType) : Prop := ∃ n : Nat, n < 32 ∧ t = ⟨(n : Int)⟩

variable {a b s : TypeSet} {t u : ValueType} {ts : List ValueType}

theorem mem_iff : s.Mem t ↔ ∃ n : Nat, n < 32 ∧ t = ⟨(n : Int)⟩ ∧ s.bits.getLsbD n = true := by
  simp only [Mem, toList, List.mem_map, List.mem_filter, List.mem_range]
  constructor
  · rintro ⟨n, ⟨hn, hb⟩, rfl⟩
    exact ⟨n, hn, rfl, hb⟩
  · rintro ⟨n, hn, rfl, hb⟩
    exact ⟨n, ⟨hn, hb⟩, rfl⟩

theorem mem_code {n : Nat} : s.Mem ⟨(n : Int)⟩ ↔ n < 32 ∧ s.bits.getLsbD n = true := by
  rw [mem_iff]
  constructor
  · rintro ⟨m, hm, he, hb⟩
    have hnm : n = m := Int.ofNat.inj (ValueType.mk.inj he)
    subst hnm
    exact ⟨hm, hb⟩
  · rintro ⟨hn, hb⟩
    exact ⟨n, hn, rfl, hb⟩

theorem Mem.inMask (h : s.Mem t) : InMask t := by
  obtain ⟨n, hn, ht, -⟩ := mem_iff.1 h
  exact ⟨n, hn, ht⟩

theorem inMask_of_isValid (h : t.isValid = true) : InMask t := by
  obtain ⟨code⟩ := t
  simp only [ValueType.isValid, Bool.and_eq_true, decide_eq_true_eq] at h
  exact ⟨code.toNat, by omega, by congr 1; omega⟩

/-- Sets with the same members are equal. -/
theorem ext_mem (h : ∀ t, a.Mem t ↔ b.Mem t) : a = b := by
  have hbits : a.bits = b.bits := by
    apply BitVec.eq_of_getLsbD_eq
    intro n hn
    have := h ⟨(n : Int)⟩
    rw [mem_code, mem_code] at this
    simp only [hn, true_and] at this
    exact Bool.eq_iff_iff.2 this
  cases a
  cases b
  rw [TypeSet.mk.injEq]
  exact hbits

@[simp] theorem mem_inter : (a.inter b).Mem t ↔ a.Mem t ∧ b.Mem t := by
  constructor
  · intro h
    obtain ⟨n, hn, rfl, hb⟩ := mem_iff.1 h
    simp only [inter, BitVec.getLsbD_and, Bool.and_eq_true] at hb
    exact ⟨mem_code.2 ⟨hn, hb.1⟩, mem_code.2 ⟨hn, hb.2⟩⟩
  · rintro ⟨ha, hb⟩
    obtain ⟨n, hn, rfl, ha'⟩ := mem_iff.1 ha
    rw [mem_code] at hb ⊢
    exact ⟨hn, by rw [inter, BitVec.getLsbD_and, ha', hb.2]; rfl⟩

@[simp] theorem mem_union : (a.union b).Mem t ↔ a.Mem t ∨ b.Mem t := by
  constructor
  · intro h
    obtain ⟨n, hn, rfl, hb⟩ := mem_iff.1 h
    simp only [union, BitVec.getLsbD_or, Bool.or_eq_true] at hb
    exact hb.imp (fun h => mem_code.2 ⟨hn, h⟩) fun h => mem_code.2 ⟨hn, h⟩
  · rintro (h | h)
    · obtain ⟨n, hn, rfl, h'⟩ := mem_iff.1 h
      exact mem_code.2 ⟨hn, by rw [union, BitVec.getLsbD_or, h', Bool.true_or]⟩
    · obtain ⟨n, hn, rfl, h'⟩ := mem_iff.1 h
      exact mem_code.2 ⟨hn, by rw [union, BitVec.getLsbD_or, h', Bool.or_true]⟩

@[simp] theorem not_mem_empty : ¬ empty.Mem t := by
  intro h
  obtain ⟨n, hn, rfl, hb⟩ := mem_iff.1 h
  simp [empty] at hb

theorem getLsbD_bitOf {n m : Nat} (hn : n < 32) :
    (bitOf ⟨(m : Int)⟩).getLsbD n = decide (n = m) := by
  show ((1 : BitVec 32) <<< m).getLsbD n = _
  simp only [BitVec.getLsbD_shiftLeft, hn, decide_true, Bool.true_and, BitVec.ofNat_eq_ofNat,
    BitVec.getLsbD_one]
  by_cases h : n < m
  · simp [h]
    omega
  · simp [h]
    omega

@[simp] theorem mem_singleton : (singleton u).Mem t ↔ t = u ∧ InMask u := by
  obtain ⟨code⟩ := u
  cases code with
  | negSucc k =>
    have hempty : singleton ⟨.negSucc k⟩ = empty := rfl
    rw [hempty]
    refine ⟨fun h => absurd h not_mem_empty, ?_⟩
    rintro ⟨-, n, -, h⟩
    cases h
  | ofNat m =>
    constructor
    · intro h
      obtain ⟨n, hn, rfl, hb⟩ := mem_iff.1 h
      have hnm : n = m := by simpa [getLsbD_bitOf hn] using (show (bitOf ⟨(m : Int)⟩).getLsbD n = true from hb)
      subst hnm
      exact ⟨rfl, n, hn, rfl⟩
    · rintro ⟨rfl, n, hn, h⟩
      have hnm : m = n := Int.ofNat.inj (ValueType.mk.inj h)
      subst hnm
      exact mem_code.2 ⟨hn, by rw [singleton]; exact (getLsbD_bitOf hn).trans (decide_eq_true rfl)⟩

theorem mem_foldl_union (s : TypeSet) :
    (ts.foldl (fun s t => s.union (singleton t)) s).Mem t ↔ s.Mem t ∨ t ∈ ts ∧ InMask t := by
  induction ts generalizing s with
  | nil => simp
  | cons u ts ih =>
    rw [List.foldl_cons, ih, mem_union, mem_singleton, List.mem_cons]
    constructor
    · rintro ((h | ⟨rfl, h⟩) | ⟨h, hm⟩)
      · exact .inl h
      · exact .inr ⟨.inl rfl, h⟩
      · exact .inr ⟨.inr h, hm⟩
    · rintro (h | ⟨rfl | h, hm⟩)
      · exact .inl (.inl h)
      · exact .inl (.inr ⟨rfl, hm⟩)
      · exact .inr ⟨h, hm⟩

@[simp] theorem mem_ofList : (ofList ts).Mem t ↔ t ∈ ts ∧ InMask t := by
  rw [ofList, mem_foldl_union]
  simp

@[simp] theorem mem_filter {keep : ValueType → Bool} :
    (s.filter keep).Mem t ↔ s.Mem t ∧ keep t = true := by
  rw [filter, mem_ofList, List.mem_filter]
  exact ⟨fun h => h.1, fun h => ⟨h, h.1.inMask⟩⟩

theorem has_iff : s.has t = true ↔ t.isValid = true ∧ s.Mem t := by
  rw [has, Bool.and_eq_true, decide_eq_true_eq]
  refine and_congr_right fun hv => ?_
  obtain ⟨n, hn, rfl⟩ := inMask_of_isValid hv
  rw [mem_code]
  simp only [hn, true_and]
  constructor
  · intro h
    by_contra hb
    apply h
    apply BitVec.eq_of_getLsbD_eq
    intro k hk
    rw [BitVec.getLsbD_and, getLsbD_bitOf hk]
    by_cases hkn : k = n
    · subst hkn
      simpa using hb
    · simp [hkn]
  · intro hb h
    have hg : (s.bits &&& bitOf ⟨(n : Int)⟩).getLsbD n = false := by
      rw [h]
      simp
    rw [BitVec.getLsbD_and, getLsbD_bitOf hn, hb] at hg
    simp at hg

theorem isEmpty_eq_false (h : s.isEmpty = false) : ∃ t, s.Mem t := by
  by_contra hn
  have he : s = empty := ext_mem fun t =>
    ⟨fun ht => absurd ⟨t, ht⟩ hn, fun ht => absurd ht not_mem_empty⟩
  rw [he] at h
  cases h

theorem not_isEmpty_of_mem (h : s.Mem t) : ¬ s.isEmpty = true := by
  intro he
  have hbits : s = empty := by
    cases s
    rw [isEmpty, beq_iff_eq] at he
    rw [empty, TypeSet.mk.injEq]
    exact he
  rw [hbits] at h
  exact not_mem_empty h

theorem toList_singleton (h : u.isValid = true) : (singleton u).toList = [u] := by
  obtain ⟨n, hn, rfl⟩ := inMask_of_isValid h
  have hall : ∀ n < 32, (singleton ⟨((n : Nat) : Int)⟩).toList = [⟨(n : Int)⟩] := by decide
  exact hall n hn

end NodeShader.TypeSet

/-!
## What a constraint does to domains

`Rule.Satisfied` says what a rule asks of one type for each port.  A rule is *settled* in domains
(`Rule.Settled`) if it is satisfied as soon as each of its ports has one type left.  Narrowing by a
rule settles it (`narrow_settled`), and it stays settled as long as the domains of its ports stay the
same.  Propagation has to ask no more of a rule than that.
-/

namespace NodeShader

namespace Domains

variable {d d' : Domains} {p q : PortId} {s : TypeSet}

/-- The domain of a port after one port is given another. -/
theorem typesOf_set (h : ∃ t, (d.typesOf p).Mem t) :
    Domains.typesOf (d.setIfInBounds p.toNat s) q = if q = p then s else d.typesOf q := by
  obtain ⟨t, ht⟩ := h
  rw [typesOf] at ht
  cases hp : Array.at? d p with
  | none =>
    rw [hp] at ht
    exact absurd ht TypeSet.not_mem_empty
  | some a =>
    cases p with
    | negSucc k => cases hp
    | ofNat k =>
      have hk : k < d.size := (Array.getElem?_eq_some_iff.1 hp).1
      cases q with
      | negSucc m => rw [if_neg (by simp)]; rfl
      | ofNat m =>
        show ((d.setIfInBounds k s)[m]?).getD .empty = _
        rw [Array.getElem?_setIfInBounds]
        by_cases hm : k = m
        · subst hm
          simp [hk]
        · rw [if_neg hm, if_neg (by intro h; cases h; exact hm rfl)]
          rfl

/-- **What narrowing does**: a port keeps the types that are allowed, and a port that is not touched
keeps all. -/
theorem narrow_spec {l : List (PortId × TypeSet)} {touched : List PortId}
    (h : d.narrow l = some (d', touched)) :
    (∀ p t, (d'.typesOf p).Mem t ↔ (d.typesOf p).Mem t ∧ ∀ A, (p, A) ∈ l → A.Mem t) ∧
      (∀ p, p ∉ touched → d'.typesOf p = d.typesOf p) ∧ d'.size = d.size := by
  induction l generalizing d touched with
  | nil =>
    rw [narrow] at h
    cases h
    simp
  | cons entry l ih =>
    obtain ⟨p, A⟩ := entry
    rw [narrow] at h
    split at h
    · cases h
    · rename_i hne
      rw [Bool.not_eq_true] at hne
      split at h
      · rename_i hsame
        obtain ⟨hmem, hkeep, hsize⟩ := ih h
        refine ⟨?_, hkeep, hsize⟩
        intro q t
        rw [hmem q t]
        constructor
        · rintro ⟨hq, hall⟩
          refine ⟨hq, fun B hB => ?_⟩
          rcases List.mem_cons.1 hB with he | hB
          · cases he
            rw [← hsame, TypeSet.mem_inter] at hq
            exact hq.2
          · exact hall B hB
        · rintro ⟨hq, hall⟩
          exact ⟨hq, fun B hB => hall B (List.mem_cons_of_mem _ hB)⟩
      · split at h
        · rename_i d₂ touched₂ hrest
          cases h
          obtain ⟨hmem, hkeep, hsize⟩ := ih hrest
          obtain ⟨t₀, ht₀⟩ := TypeSet.isEmpty_eq_false hne
          have hset := fun q => typesOf_set (q := q) (s := (d.typesOf p).inter A)
            ⟨t₀, (TypeSet.mem_inter.1 ht₀).1⟩
          refine ⟨?_, ?_, by rw [hsize, Array.size_setIfInBounds]⟩
          · intro q t
            rw [hmem q t, hset q]
            by_cases hq : q = p
            · subst hq
              rw [if_pos rfl, TypeSet.mem_inter]
              constructor
              · rintro ⟨⟨hq, hA⟩, hall⟩
                refine ⟨hq, fun B hB => ?_⟩
                rcases List.mem_cons.1 hB with he | hB
                · cases he
                  exact hA
                · exact hall B hB
              · rintro ⟨hq, hall⟩
                exact ⟨⟨hq, hall A List.mem_cons_self⟩,
                  fun B hB => hall B (List.mem_cons_of_mem _ hB)⟩
            · rw [if_neg hq]
              refine and_congr_right fun _ => ⟨fun hall B hB => ?_, fun hall B hB =>
                hall B (List.mem_cons_of_mem _ hB)⟩
              rcases List.mem_cons.1 hB with he | hB
              · cases he
                exact absurd rfl hq
              · exact hall B hB
          · intro q hq
            rw [List.mem_cons, not_or] at hq
            rw [hkeep q hq.2, hset q, if_neg hq.1]
        · cases h

end Domains

namespace Rule

/-- What a rule asks of one type for each port. -/
def Satisfied (τ : PortId → ValueType) : Rule → Prop
  | equal ports => ∀ p ∈ ports, ∀ q ∈ ports, τ p = τ q
  | scalarOf vector scalar => τ scalar = (τ vector).scalar
  | minSize port index => index < (τ port).size
  | resized input output size => τ output = (τ input).withSize size
  | sameDimension field position => (τ field).size = (τ position).size
  | combine ports => combinesTuple (ports.map τ) = true

/-- The ports of a rule are distinct where that matters. -/
def Proper : Rule → Prop
  | scalarOf vector scalar => vector ≠ scalar
  | resized input output _ => input ≠ output
  | sameDimension field position => field ≠ position
  | combine ports => ports.Nodup ∧ ports ≠ []
  | _ => True

/-- The one type left to each port. -/
def Left (d : Domains) (τ : PortId → ValueType) (ports : List PortId) : Prop :=
  ∀ p ∈ ports, (d.typesOf p).toList = [τ p]

/-- **Settled**: the rule is satisfied once each of its ports has one type left. -/
def Settled (d : Domains) (r : Rule) : Prop := ∀ τ, Left d τ r.ports → r.Satisfied τ

variable {d d' : Domains} {r : Rule} {τ : PortId → ValueType} {ports : List PortId} {p : PortId}
  {t : ValueType}

theorem Left.mem (h : Left d τ ports) (hp : p ∈ ports) : (d.typesOf p).Mem (τ p) := by
  rw [TypeSet.Mem, h p hp]
  exact List.mem_singleton_self _

theorem Left.eq (h : Left d τ ports) (hp : p ∈ ports) (ht : (d.typesOf p).Mem t) : t = τ p := by
  rw [TypeSet.Mem, h p hp] at ht
  exact List.mem_singleton.1 ht

/-- Rules whose ports keep their domains stay settled. -/
theorem Settled.congr (h : Settled d r) (he : ∀ p ∈ r.ports, d'.typesOf p = d.typesOf p) :
    Settled d' r := by
  intro τ hl
  exact h τ fun p hp => by rw [← he p hp]; exact hl p hp

/-! ### Combinations -/

/-- The tuples of a list of choices take one type from each. -/
theorem mem_tuples {choices : List (List ValueType)} {T : List ValueType} :
    T ∈ tuples choices ↔ List.Forall₂ (· ∈ ·) T choices := by
  induction choices generalizing T with
  | nil => simp [tuples]
  | cons c choices ih =>
    rw [tuples, List.forall₂_cons_right_iff]
    simp only [List.mem_flatMap, List.mem_map]
    constructor
    · rintro ⟨t, ht, T', hT', rfl⟩
      exact ⟨t, T', ht, ih.1 hT', rfl⟩
    · rintro ⟨t, T', ht, hT', rfl⟩
      exact ⟨t, ht, T', ih.2 hT', rfl⟩

/-- Collecting tuples place by place. -/
theorem mem_collect {Ts : List (List ValueType)} {sets : List TypeSet}
    (hlen : ∀ T ∈ Ts, T.length = sets.length) {k : Nat} {s : TypeSet}
    (h : (Ts.foldl (fun sets T => List.zipWith (fun s t => s.union (.singleton t)) sets T)
      sets)[k]? = some s) :
    s.Mem t ↔ (∃ s₀, sets[k]? = some s₀ ∧ s₀.Mem t) ∨
      ∃ T ∈ Ts, T[k]? = some t ∧ TypeSet.InMask t := by
  induction Ts generalizing sets with
  | nil =>
    have hk : sets[k]? = some s := h
    simp [hk]
  | cons T Ts ih =>
    have hT := hlen T List.mem_cons_self
    rw [List.foldl_cons] at h
    rw [ih (by
      intro T' hT'
      rw [List.length_zipWith, hT, Nat.min_self]
      exact hlen T' (List.mem_cons_of_mem T hT')) h]
    simp only [List.getElem?_zipWith, List.mem_cons, exists_eq_or_imp]
    constructor
    · rintro (⟨s₀, hs₀, ht⟩ | h)
      · cases hsk : sets[k]? with
        | none => simp [hsk] at hs₀
        | some a =>
          cases hTk : T[k]? with
          | none => simp [hsk, hTk] at hs₀
          | some u =>
            simp only [hsk, hTk, Option.some.injEq] at hs₀
            subst hs₀
            rw [TypeSet.mem_union, TypeSet.mem_singleton] at ht
            rcases ht with ht | ⟨rfl, hm⟩
            · exact .inl ⟨a, rfl, ht⟩
            · exact .inr (.inl ⟨rfl, hm⟩)
      · exact .inr (.inr h)
    · rintro (⟨a, ha, ht⟩ | ⟨hTk, hm⟩ | h)
      · have hk : k < T.length := by
          rw [hT]
          exact (List.getElem?_eq_some_iff.1 ha).1
        refine .inl ⟨a.union (.singleton T[k]), ?_, TypeSet.mem_union.2 (.inl ht)⟩
        rw [ha, List.getElem?_eq_getElem hk]
      · have hk : k < sets.length := by
          rw [← hT]
          exact (List.getElem?_eq_some_iff.1 hTk).1
        refine .inl ⟨sets[k].union (.singleton t), ?_, TypeSet.mem_union.2 (.inr ?_)⟩
        · rw [hTk, List.getElem?_eq_getElem hk]
        · exact TypeSet.mem_singleton.2 ⟨rfl, hm⟩
      · exact .inr h

/-- The support of choices holds, place by place, the types of the satisfying tuples. -/
theorem mem_support {choices : List (List ValueType)} {k : Nat} {s : TypeSet}
    (h : (support choices)[k]? = some s) :
    s.Mem t ↔ ∃ T ∈ tuples choices, combinesTuple T = true ∧ T[k]? = some t ∧
      TypeSet.InMask t := by
  rw [mem_collect ?_ h]
  · simp only [List.getElem?_map, Option.map_eq_some_iff, List.mem_filter]
    constructor
    · rintro (⟨s₀, ⟨c, -, rfl⟩, ht⟩ | ⟨T, ⟨hT, hc⟩, hk⟩)
      · exact absurd ht TypeSet.not_mem_empty
      · exact ⟨T, hT, hc, hk⟩
    · rintro ⟨T, hT, hc, hk⟩
      exact .inr ⟨T, ⟨hT, hc⟩, hk⟩
  · intro T hT
    rw [List.length_map]
    exact (mem_tuples.1 (List.mem_filter.1 hT).1).length_eq

theorem length_support (choices : List (List ValueType)) :
    (support choices).length = choices.length := by
  have hall : ∀ (Ts : List (List ValueType)) (sets : List TypeSet),
      (∀ T ∈ Ts, T.length = sets.length) →
      (Ts.foldl (fun sets T => List.zipWith (fun s t => s.union (.singleton t)) sets T)
        sets).length = sets.length := by
    intro Ts
    induction Ts with
    | nil => exact fun _ _ => rfl
    | cons T Ts ih =>
      intro sets hlen
      have hz : (List.zipWith (fun s t => TypeSet.union s (.singleton t)) sets T).length =
          sets.length := by
        rw [List.length_zipWith, hlen T List.mem_cons_self, Nat.min_self]
      rw [List.foldl_cons, ih _ fun T' hT' => by
        rw [hz]; exact hlen T' (List.mem_cons_of_mem T hT'), hz]
  rw [support, hall, List.length_map]
  intro T hT
  rw [List.length_map]
  exact (mem_tuples.1 (List.mem_filter.1 hT).1).length_eq

/-! ### Narrowing settles -/

theorem mem_foldl_inter (rest : List PortId) (s : TypeSet) :
    (rest.foldl (fun s q => s.inter (d.typesOf q)) s).Mem t ↔
      s.Mem t ∧ ∀ q ∈ rest, (d.typesOf q).Mem t := by
  induction rest generalizing s with
  | nil => simp
  | cons q rest ih =>
    rw [List.foldl_cons, ih, TypeSet.mem_inter, List.forall_mem_cons, and_assoc]

/-- What a port of a narrowed domain may be, and that everything else allowed is still there. -/
theorem narrow_mem {allowed : List (PortId × TypeSet)} {touched : List PortId}
    (ha : r.allowed d = some allowed) (h : r.narrow d = some (d', touched)) (p : PortId)
    (t : ValueType) :
    (d'.typesOf p).Mem t ↔ (d.typesOf p).Mem t ∧ ∀ A, (p, A) ∈ allowed → A.Mem t := by
  rw [narrow, ha] at h
  exact (Domains.narrow_spec h).1 p t

theorem settled_equal {touched : List PortId} (h : (equal ports).narrow d = some (d', touched)) :
    Settled d' (equal ports) := by
  intro τ hl
  cases ports with
  | nil => intro p hp; cases hp
  | cons a rest =>
    have hmem := narrow_mem rfl h
    have hcommon : ∀ p ∈ a :: rest, ∀ q ∈ a :: rest, (d'.typesOf q).Mem (τ p) := by
      intro p hp q hq
      have hp' := ((hmem p (τ p)).1 (hl.mem hp)).2 _ (List.mem_map_of_mem hp)
      have hall : ∀ q ∈ a :: rest, (d.typesOf q).Mem (τ p) := by
        rw [mem_foldl_inter] at hp'
        exact List.forall_mem_cons.2 hp'
      refine (hmem q (τ p)).2 ⟨hall q hq, ?_⟩
      intro A hA
      obtain ⟨q', -, he⟩ := List.mem_map.1 hA
      cases he
      exact hp'
    intro p hp q hq
    exact hl.eq hq (hcommon p hp q hq)

theorem settled_scalarOf {v s : PortId} {touched : List PortId} (hvs : v ≠ s)
    (h : (scalarOf v s).narrow d = some (d', touched)) : Settled d' (scalarOf v s) := by
  intro τ hl
  have hmem := narrow_mem rfl h
  simp only [List.mem_cons, Prod.mk.injEq, List.not_mem_nil, or_false] at hmem
  have hv := ((hmem v (τ v)).1 (hl.mem (by simp [Rule.ports]))).2 _ (.inl ⟨rfl, rfl⟩)
  rw [TypeSet.mem_filter, TypeSet.has_iff] at hv
  obtain ⟨-, -, hs⟩ := hv
  refine (hl.eq (by simp [Rule.ports]) ((hmem s _).2 ⟨(TypeSet.mem_inter.1 hs).1, ?_⟩)).symm
  rintro A (⟨he, -⟩ | ⟨-, rfl⟩)
  · exact absurd he.symm hvs
  · exact hs

theorem settled_minSize {q : PortId} {k : Nat} {touched : List PortId}
    (h : (minSize q k).narrow d = some (d', touched)) : Settled d' (minSize q k) := by
  intro τ hl
  have hmem := narrow_mem rfl h
  simp only [List.mem_singleton, Prod.mk.injEq] at hmem
  have hq := ((hmem q (τ q)).1 (hl.mem (by simp [Rule.ports]))).2 _ ⟨rfl, rfl⟩
  rw [TypeSet.mem_filter, decide_eq_true_eq] at hq
  exact hq.2

theorem settled_resized {i o : PortId} {k : Nat} {touched : List PortId} (hio : i ≠ o)
    (h : (resized i o k).narrow d = some (d', touched)) : Settled d' (resized i o k) := by
  intro τ hl
  have hmem := narrow_mem rfl h
  simp only [List.mem_cons, Prod.mk.injEq, List.not_mem_nil, or_false] at hmem
  have hi := ((hmem i (τ i)).1 (hl.mem (by simp [Rule.ports]))).2 _ (.inl ⟨rfl, rfl⟩)
  rw [TypeSet.mem_filter, TypeSet.has_iff] at hi
  obtain ⟨-, -, ho⟩ := hi
  refine (hl.eq (by simp [Rule.ports]) ((hmem o _).2 ⟨(TypeSet.mem_inter.1 ho).2, ?_⟩)).symm
  rintro A (⟨he, -⟩ | ⟨-, rfl⟩)
  · exact absurd he.symm hio
  · exact ho

theorem settled_sameDimension {f q : PortId} {touched : List PortId} (hfq : f ≠ q)
    (h : (sameDimension f q).narrow d = some (d', touched)) : Settled d' (sameDimension f q) := by
  intro τ hl
  have hmem := narrow_mem rfl h
  simp only [List.mem_cons, Prod.mk.injEq, List.not_mem_nil, or_false] at hmem
  have hf := ((hmem f (τ f)).1 (hl.mem (by simp [Rule.ports]))).2 _ (.inl ⟨rfl, rfl⟩)
  rw [TypeSet.mem_filter, List.contains_iff_mem, List.mem_map] at hf
  obtain ⟨-, t, ht, hsize⟩ := hf
  have ht' : (d'.typesOf q).Mem t := by
    refine (hmem q t).2 ⟨(TypeSet.mem_filter.1 ht).1, ?_⟩
    rintro A (⟨he, -⟩ | ⟨-, rfl⟩)
    · exact absurd he.symm hfq
    · exact ht
  rw [Satisfied, ← hsize, hl.eq (by simp [Rule.ports]) ht']

theorem settled_combine {touched : List PortId} (hnd : ports.Nodup) (hne : ports ≠ [])
    (h : (combine ports).narrow d = some (d', touched)) : Settled d' (combine ports) := by
  intro τ hl
  by_cases hlimit : tupleLimit < ((ports.map fun p => (d.typesOf p).toList).map List.length).foldl
      (· * ·) 1
  · -- nothing was narrowed, so there is one tuple, and the limit is not passed
    have hallowed : (combine ports).allowed d = none := by
      rw [allowed, if_pos hlimit]
    rw [narrow, hallowed] at h
    cases h
    have hone : ((ports.map fun p => (d.typesOf p).toList).map List.length).foldl (· * ·) 1 = 1 := by
      rw [List.map_map]
      clear hlimit hallowed hnd hne
      have hl' : ∀ p ∈ ports, (d.typesOf p).toList = [τ p] := hl
      clear hl
      induction ports with
      | nil => rfl
      | cons p ports ih =>
        rw [List.map_cons, List.foldl_cons, Function.comp, hl' p List.mem_cons_self]
        exact ih fun q hq => hl' q (List.mem_cons_of_mem p hq)
    rw [hone] at hlimit
    exact absurd hlimit (by decide)
  have hallowed : (combine ports).allowed d =
      some (ports.zip (support (ports.map fun p => (d.typesOf p).toList))) := by
    rw [allowed, if_neg hlimit]
  have hmem := narrow_mem hallowed h
  have hlen := length_support (ports.map fun p => (d.typesOf p).toList)
  rw [List.length_map] at hlen
  -- the support of the place of a port
  have hplace : ∀ (k : Nat) (p : PortId), ports[k]? = some p → ∃ s,
      (support (ports.map fun p => (d.typesOf p).toList))[k]? = some s ∧
      ∀ A, (p, A) ∈ ports.zip (support (ports.map fun p => (d.typesOf p).toList)) ↔ A = s := by
    intro k p hk
    have hkl := (List.getElem?_eq_some_iff.1 hk).1
    refine ⟨_, List.getElem?_eq_getElem (by omega), fun A => ?_⟩
    constructor
    · intro hA
      obtain ⟨m, hm⟩ := List.getElem?_of_mem hA
      rw [List.getElem?_zip_eq_some] at hm
      have hmk : k = m := (List.getElem?_inj hkl hnd).1 (hk.trans hm.1.symm)
      subst hmk
      have hs := hm.2
      rw [List.getElem?_eq_getElem (by omega)] at hs
      exact (Option.some.inj hs).symm
    · rintro rfl
      refine List.mem_of_getElem? (i := k) ?_
      rw [List.getElem?_zip_eq_some]
      exact ⟨hk, List.getElem?_eq_getElem (by omega)⟩
  obtain ⟨a, rest, rfl⟩ := List.exists_cons_of_ne_nil hne
  obtain ⟨s, hs, hzip⟩ := hplace 0 a rfl
  have ha := ((hmem a (τ a)).1 (hl.mem List.mem_cons_self)).2 s ((hzip s).2 rfl)
  obtain ⟨T, hT, hc, -⟩ := (mem_support hs).1 ha
  -- the types of a satisfying tuple are all left, so they are the ones that are left
  have hT' : T = (a :: rest).map τ := by
    have hF := mem_tuples.1 hT
    refine List.ext_getElem? fun k => ?_
    rw [List.getElem?_map]
    cases hk : (a :: rest)[k]? with
    | none =>
      rw [List.getElem?_eq_none_iff] at hk
      rw [Option.map_none, List.getElem?_eq_none_iff, hF.length_eq, List.length_map]
      exact hk
    | some p =>
      have hkl := (List.getElem?_eq_some_iff.1 hk).1
      have hTk : k < T.length := by rw [hF.length_eq, List.length_map]; exact hkl
      have hTm : (d.typesOf p).Mem T[k] := by
        have := hF.get hTk (by rw [List.length_map]; exact hkl)
        simp only [List.get_eq_getElem, List.getElem_map] at this
        rw [List.getElem?_eq_getElem hkl, Option.some.injEq] at hk
        rw [hk] at this
        exact this
      obtain ⟨s', hs', hzip'⟩ := hplace k p hk
      have hmem' : (d'.typesOf p).Mem T[k] := by
        refine (hmem p _).2 ⟨hTm, fun A hA => ?_⟩
        rw [(hzip' A).1 hA]
        exact (mem_support hs').2 ⟨T, hT, hc, List.getElem?_eq_getElem hTk, hTm.inMask⟩
      rw [List.getElem?_eq_getElem hTk, Option.map_some, hl.eq (List.mem_of_getElem? hk) hmem']
  rw [Satisfied, ← hT']
  exact hc

/-- **Narrowing by a rule settles it.** -/
theorem narrow_settled {touched : List PortId} (hp : r.Proper)
    (h : r.narrow d = some (d', touched)) : Settled d' r := by
  cases r with
  | equal ports => exact settled_equal h
  | scalarOf v s => exact settled_scalarOf hp h
  | minSize q k => exact settled_minSize h
  | resized i o k => exact settled_resized hp h
  | sameDimension f q => exact settled_sameDimension hp h
  | combine ports => exact settled_combine hp.1 hp.2 h

end Rule

end NodeShader
