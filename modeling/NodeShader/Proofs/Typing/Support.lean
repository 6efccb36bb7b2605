import Mathlib
import NodeShader.Proofs.Typing.Exactness

/-!
# What a rule allows

A type of a port has support (`Rule.Supported`) if some choice from the domains of the rule's ports
satisfies the rule and gives the port this type.  Support is what a rule looks at: it allows a port
exactly the types that have it (`Rule.allowed_iff_supported`), unless there are too many tuples and it
tells nothing.  From this, for every rule at once:

* `Rule.narrow_above`: narrowing is monotone: what a rule leaves as it is stays within.
* `Rule.effect_narrow`: narrowing is idempotent: what a rule has narrowed it leaves as it is.
* `Rule.effect_congr`: what a rule does hangs on the domains of its ports only.
-/

namespace NodeShader

namespace Domains

variable {d d' e : Domains} {l : List (PortId × TypeSet)} {touched : List PortId}

/-- Every port has a type left. -/
def Inhabited (d : Domains) : Prop := ∀ k : Nat, k < d.size → ∃ t, (d.typesOf (k : PortId)).Mem t

/-- Types of the table only. -/
def Valid (d : Domains) : Prop := ∀ p t, (d.typesOf p).Mem t → t.isValid = true

theorem Within.valid (h : d'.Within d) (hd : d.Valid) : d'.Valid :=
  fun p t ht => hd p t (h.mem p t ht)

theorem Within.antisymm (h : d'.Within d) (h' : d.Within d') : d' = d :=
  ext_typesOf h.size fun p t => ⟨h.mem p t, h'.mem p t⟩

/-- A port of the table. -/
def Has (d : Domains) (p : PortId) : Prop := ∃ k : Nat, p = k ∧ k < d.size

theorem Within.has (h : d'.Within d) {p : PortId} (hp : d.Has p) : d'.Has p := by
  obtain ⟨k, rfl, hk⟩ := hp
  exact ⟨k, rfl, by rw [h.size]; exact hk⟩

theorem Inhabited.exists_mem (hd : d.Inhabited) {p : PortId} (hp : d.Has p) :
    ∃ t, (d.typesOf p).Mem t := by
  obtain ⟨k, rfl, hk⟩ := hp
  exact hd k hk

/-- Narrowing to what is there leaves the domains as they are. -/
theorem narrow_self (h : ∀ p A, (p, A) ∈ l → (∃ t, (d.typesOf p).Mem t) ∧
    ∀ t, (d.typesOf p).Mem t → A.Mem t) : d.narrow l = some (d, []) := by
  induction l with
  | nil => rfl
  | cons entry l ih =>
    obtain ⟨p, A⟩ := entry
    obtain ⟨⟨t, ht⟩, hA⟩ := h p A List.mem_cons_self
    have hinter : (d.typesOf p).inter A = d.typesOf p := by
      refine TypeSet.ext_mem fun u => ?_
      rw [TypeSet.mem_inter]
      exact ⟨fun hu => hu.1, fun hu => ⟨hu, hA u hu⟩⟩
    rw [narrow]
    simp only [hinter, if_true]
    rw [if_neg (TypeSet.not_isEmpty_of_mem ht)]
    exact ih fun q B hq => h q B (List.mem_cons_of_mem _ hq)

/-- Narrowing that touches nothing leaves the domains as they are. -/
theorem eq_of_narrow_nil (h : d.narrow l = some (d', [])) : d' = d := by
  obtain ⟨-, hkeep, hsize⟩ := narrow_spec h
  exact ext_typesOf hsize fun p t => by rw [hkeep p List.not_mem_nil]

theorem within_of_narrow (h : d.narrow l = some (d', touched)) : d'.Within d := by
  obtain ⟨hmem, -, hsize⟩ := narrow_spec h
  exact ⟨hsize, fun p t ht => ((hmem p t).1 ht).1⟩

/-- **Narrowing that succeeds leaves each of its ports a type.** -/
theorem exists_mem_of_narrow (h : d.narrow l = some (d', touched)) {p : PortId}
    (hp : ∃ A, (p, A) ∈ l) : ∃ t, (d'.typesOf p).Mem t := by
  induction l generalizing d touched with
  | nil =>
    obtain ⟨A, hA⟩ := hp
    cases hA
  | cons entry l ih =>
    obtain ⟨q, B⟩ := entry
    rw [narrow] at h
    split at h
    · cases h
    · rename_i hne
      rw [Bool.not_eq_true] at hne
      by_cases hpl : ∃ A, (p, A) ∈ l
      · split at h
        · exact ih h hpl
        · split at h
          · rename_i hrest
            cases h
            exact ih hrest hpl
          · cases h
      · -- the entry at hand is the only one of the port
        obtain rfl : p = q := by
          obtain ⟨A, hA⟩ := hp
          rcases List.mem_cons.1 hA with he | hA
          · exact (Prod.mk.inj he).1
          · exact absurd ⟨A, hA⟩ hpl
        obtain ⟨t, ht⟩ := TypeSet.isEmpty_eq_false hne
        refine ⟨t, ?_⟩
        split at h
        · exact ((narrow_spec h).1 p t).2 ⟨(TypeSet.mem_inter.1 ht).1, fun A hA => absurd ⟨A, hA⟩ hpl⟩
        · split at h
          · rename_i hrest
            cases h
            refine ((narrow_spec hrest).1 p t).2 ⟨?_, fun A hA => absurd ⟨A, hA⟩ hpl⟩
            rw [typesOf_set ⟨t, (TypeSet.mem_inter.1 ht).1⟩, if_pos rfl]
            exact ht
          · cases h

/-- **Narrowing leaves domains as they are** exactly if its ports have types and all are allowed. -/
theorem narrow_eq_self_iff : d.narrow l = some (d, []) ↔ ∀ p A, (p, A) ∈ l →
    (∃ t, (d.typesOf p).Mem t) ∧ ∀ t, (d.typesOf p).Mem t → A.Mem t := by
  refine ⟨fun h p A hA => ⟨exists_mem_of_narrow h ⟨A, hA⟩, fun t ht => ?_⟩, narrow_self⟩
  exact (((narrow_spec h).1 p t).1 ht).2 A hA

/-- Narrowing leaves every port a type. -/
theorem Inhabited.narrow (hd : d.Inhabited) (h : d.narrow l = some (d', touched)) : d'.Inhabited := by
  obtain ⟨hmem, -, hsize⟩ := narrow_spec h
  intro k hk
  by_cases hl : ∃ A, ((k : PortId), A) ∈ l
  · exact exists_mem_of_narrow h hl
  · obtain ⟨t, ht⟩ := hd k (by omega)
    exact ⟨t, (hmem k t).2 ⟨ht, fun A hA => absurd ⟨A, hA⟩ hl⟩⟩

end Domains

theorem TypeSet.nodup_toList {s : TypeSet} : s.toList.Nodup :=
  (List.nodup_range.filter _).map fun _ _ h => Int.ofNat.inj (ValueType.mk.inj h)

namespace Rule

variable {d d' e : Domains} {r : Rule} {allowed : List (PortId × TypeSet)} {touched : List PortId}
  {p a b : PortId} {t u : ValueType} {ports : List PortId}

/-! ### Support -/

/-- **A type of a port has support**: some choice from the domains of the rule's ports satisfies the
rule and gives the port this type. -/
def Supported (d : Domains) (r : Rule) (p : PortId) (t : ValueType) : Prop :=
  ∃ τ, r.Satisfied τ ∧ (∀ q ∈ r.ports, (d.typesOf q).Mem (τ q)) ∧ τ p = t

theorem Supported.mono (hw : e.Within d) (h : Supported e r p t) : Supported d r p t := by
  obtain ⟨τ, hs, hτ, ht⟩ := h
  exact ⟨τ, hs, fun q hq => hw.mem q _ (hτ q hq), ht⟩

/-- A satisfying pair supports both of its types. -/
theorem supported_pair (hab : a ≠ b) (hports : r.ports = [a, b]) (ht : (d.typesOf a).Mem t)
    (hu : (d.typesOf b).Mem u) (hs : r.Satisfied (Function.update (fun _ => t) b u)) :
    Supported d r a t ∧ Supported d r b u := by
  have ha : Function.update (fun _ => t) b u a = t := Function.update_of_ne hab _ _
  have hb : Function.update (fun _ => t) b u b = u := Function.update_self _ _ _
  have hmem : ∀ q ∈ r.ports, (d.typesOf q).Mem (Function.update (fun _ => t) b u q) := by
    rw [hports]
    exact List.forall_mem_cons.2 ⟨ha.symm ▸ ht, List.forall_mem_singleton.2 (hb.symm ▸ hu)⟩
  exact ⟨⟨_, hs, hmem, ha⟩, _, hs, hmem, hb⟩

/-! ### What is allowed has support -/

theorem supported_equal (ha : (equal ports).allowed d = some allowed) (hp : p ∈ ports)
    (h : ∀ A, (p, A) ∈ allowed → A.Mem t) : Supported d (equal ports) p t := by
  cases ports with
  | nil => cases hp
  | cons a rest =>
    obtain rfl := Option.some.inj ha
    have hall := (mem_foldl_inter rest _).1 (h _ (List.mem_map_of_mem hp))
    exact ⟨fun _ => t, fun _ _ _ _ => rfl, List.forall_mem_cons.2 hall, rfl⟩

theorem supported_scalarOf {v s : PortId} (hvs : v ≠ s)
    (ha : (scalarOf v s).allowed d = some allowed) (hp : p ∈ [v, s]) (ht : (d.typesOf p).Mem t)
    (h : ∀ A, (p, A) ∈ allowed → A.Mem t) : Supported d (scalarOf v s) p t := by
  obtain rfl := Option.some.inj ha
  -- a vector of the domain and its scalar type
  have hpair : ∀ {t : ValueType}, (d.typesOf v).Mem t → (d.typesOf s).Mem t.scalar →
      Supported d (scalarOf v s) v t ∧ Supported d (scalarOf v s) s t.scalar := fun ht hs =>
    supported_pair hvs rfl ht hs (by simp [Satisfied, Function.update_of_ne hvs])
  simp only [List.mem_cons, List.not_mem_nil, or_false] at hp
  rcases hp with rfl | rfl
  · have hv := (TypeSet.mem_filter.1 (h _ List.mem_cons_self)).2
    exact (hpair ht (TypeSet.mem_inter.1 (TypeSet.has_iff.1 hv).2).1).1
  · have hs := h _ (List.mem_cons_of_mem _ (List.mem_singleton_self _))
    obtain ⟨w, hw, rfl⟩ := List.mem_map.1 (TypeSet.mem_ofList.1 (TypeSet.mem_inter.1 hs).2).1
    exact (hpair hw ht).2

theorem supported_minSize {q : PortId} {k : Nat} (ha : (minSize q k).allowed d = some allowed)
    (hp : p ∈ [q]) (ht : (d.typesOf p).Mem t) (h : ∀ A, (p, A) ∈ allowed → A.Mem t) :
    Supported d (minSize q k) p t := by
  obtain rfl := Option.some.inj ha
  obtain rfl := List.mem_singleton.1 hp
  have hk := of_decide_eq_true (TypeSet.mem_filter.1 (h _ List.mem_cons_self)).2
  exact ⟨fun _ => t, hk, List.forall_mem_singleton.2 ht, rfl⟩

theorem supported_resized {i o : PortId} {k : Nat} (hio : i ≠ o)
    (ha : (resized i o k).allowed d = some allowed) (hp : p ∈ [i, o]) (ht : (d.typesOf p).Mem t)
    (h : ∀ A, (p, A) ∈ allowed → A.Mem t) : Supported d (resized i o k) p t := by
  obtain rfl := Option.some.inj ha
  -- an input type of the domain and what it is resized to
  have hpair : ∀ {t : ValueType}, (d.typesOf i).Mem t → (d.typesOf o).Mem (t.withSize k) →
      Supported d (resized i o k) i t ∧ Supported d (resized i o k) o (t.withSize k) := fun ht ho =>
    supported_pair hio rfl ht ho (by simp [Satisfied, Function.update_of_ne hio])
  simp only [List.mem_cons, List.not_mem_nil, or_false] at hp
  rcases hp with rfl | rfl
  · have hi := (TypeSet.mem_filter.1 (h _ List.mem_cons_self)).2
    exact (hpair ht (TypeSet.mem_inter.1 (TypeSet.has_iff.1 hi).2).2).1
  · have ho := h _ (List.mem_cons_of_mem _ (List.mem_singleton_self _))
    have himage := (List.mem_filter.1 (TypeSet.mem_ofList.1 (TypeSet.mem_inter.1 ho).1).1).1
    obtain ⟨w, hw, rfl⟩ := List.mem_map.1 himage
    exact (hpair hw ht).2

theorem supported_sameDimension {f q : PortId} (hfq : f ≠ q)
    (ha : (sameDimension f q).allowed d = some allowed) (hp : p ∈ [f, q])
    (ht : (d.typesOf p).Mem t) (h : ∀ A, (p, A) ∈ allowed → A.Mem t) :
    Supported d (sameDimension f q) p t := by
  obtain rfl := Option.some.inj ha
  -- a field and a position of its dimension
  have hpair : ∀ {t u : ValueType}, (d.typesOf f).Mem t → (d.typesOf q).Mem u → t.size = u.size →
      Supported d (sameDimension f q) f t ∧ Supported d (sameDimension f q) q u := fun ht hu hs =>
    supported_pair hfq rfl ht hu (by simp [Satisfied, Function.update_of_ne hfq, hs])
  simp only [List.mem_cons, List.not_mem_nil, or_false] at hp
  rcases hp with rfl | rfl
  · have hf := (TypeSet.mem_filter.1 (h _ List.mem_cons_self)).2
    obtain ⟨u, hu, hs⟩ := List.mem_map.1 (List.contains_iff_mem.1 hf)
    exact (hpair ht (TypeSet.mem_filter.1 hu).1 hs.symm).1
  · have hq := h _ (List.mem_cons_of_mem _ (List.mem_singleton_self _))
    obtain ⟨u, hu, hs⟩ := List.mem_map.1 (List.contains_iff_mem.1 (TypeSet.mem_filter.1 hq).2)
    exact (hpair hu ht hs).2

theorem supported_combine (hnd : ports.Nodup) (ha : (combine ports).allowed d = some allowed)
    (hp : p ∈ ports) (h : ∀ A, (p, A) ∈ allowed → A.Mem t) : Supported d (combine ports) p t := by
  rw [Rule.allowed] at ha
  split at ha
  · cases ha
  obtain rfl := Option.some.inj ha
  have hlen := length_support (ports.map fun p => (d.typesOf p).toList)
  rw [List.length_map] at hlen
  have hplace : ports.idxOf p < ports.length := List.idxOf_lt_length_iff.2 hp
  have hzip : (p, (support (ports.map fun p => (d.typesOf p).toList))[ports.idxOf p]) ∈
      ports.zip (support (ports.map fun p => (d.typesOf p).toList)) := by
    refine List.mem_of_getElem? (i := ports.idxOf p) ?_
    rw [List.getElem?_zip_eq_some]
    exact ⟨by rw [List.getElem?_eq_getElem hplace, List.getElem_idxOf hplace],
      List.getElem?_eq_getElem _⟩
  obtain ⟨T, hT, hc, hTp, -⟩ := (mem_support (List.getElem?_eq_getElem _)).1 (h _ hzip)
  have hF := mem_tuples.1 hT
  have hTlen : T.length = ports.length := by rw [hF.length_eq, List.length_map]
  -- the choice that reads the tuple place by place
  have hget : ∀ k (hk : k < ports.length), T.getD (ports.idxOf ports[k]) .invalid = T[k] := by
    intro k hk
    rw [hnd.idxOf_getElem k hk, List.getD_eq_getElem?_getD, List.getElem?_eq_getElem (by omega)]
    rfl
  refine ⟨fun q => T.getD (ports.idxOf q) .invalid, ?_, ?_, ?_⟩
  · have hmap : ports.map (fun q => T.getD (ports.idxOf q) .invalid) = T := by
      refine List.ext_getElem (by rw [List.length_map, hTlen]) fun k hk hk' => ?_
      rw [List.getElem_map]
      exact hget k (by omega)
    rw [Satisfied, hmap]
    exact hc
  · show ∀ q ∈ ports, (d.typesOf q).Mem (T.getD (ports.idxOf q) .invalid)
    intro q hq
    obtain ⟨k, hk, rfl⟩ := List.getElem_of_mem hq
    have hmem := hF.get (i := k) (by omega) (by rw [List.length_map]; exact hk)
    simp only [List.get_eq_getElem, List.getElem_map] at hmem
    rw [hget k hk]
    exact hmem
  · show T.getD (ports.idxOf p) .invalid = t
    rw [List.getD_eq_getElem?_getD, hTp]
    rfl

/-- **A type that a rule allows has support.** -/
theorem supported_of_allowed (hr : r.Proper) (ha : r.allowed d = some allowed) (hp : p ∈ r.ports)
    (ht : (d.typesOf p).Mem t) (h : ∀ A, (p, A) ∈ allowed → A.Mem t) : Supported d r p t := by
  cases r with
  | equal ports => exact supported_equal ha hp h
  | scalarOf v s => exact supported_scalarOf hr ha hp ht h
  | minSize q k => exact supported_minSize ha hp ht h
  | resized i o k => exact supported_resized hr ha hp ht h
  | sameDimension f q => exact supported_sameDimension hr ha hp ht h
  | combine ports => exact supported_combine hr.1 ha hp h

/-- A rule allows types to its own ports only. -/
theorem mem_ports_of_allowed (ha : r.allowed d = some allowed) {A : TypeSet}
    (h : (p, A) ∈ allowed) : p ∈ r.ports := by
  cases r with
  | equal ports =>
    cases ports with
    | nil => cases ha
    | cons a rest =>
      obtain rfl := Option.some.inj ha
      obtain ⟨q, hq, he⟩ := List.mem_map.1 h
      rw [← (Prod.mk.inj he).1]
      exact hq
  | combine ports =>
    rw [Rule.allowed] at ha
    split at ha
    · cases ha
    · obtain rfl := Option.some.inj ha
      exact (List.of_mem_zip h).1
  | _ =>
    obtain rfl := Option.some.inj ha
    exact List.mem_map_of_mem (f := Prod.fst) h

/-- **A rule allows exactly the types that have support.** -/
theorem allowed_iff_supported (hr : r.Proper) (hd : d.Valid) (ha : r.allowed d = some allowed)
    (hp : p ∈ r.ports) (ht : (d.typesOf p).Mem t) :
    (∀ A, (p, A) ∈ allowed → A.Mem t) ↔ Supported d r p t := by
  refine ⟨supported_of_allowed hr ha hp ht, ?_⟩
  rintro ⟨τ, hs, hτ, rfl⟩ A hA
  exact (allowed_mem ha hs (fun q hq => hd q _ (hτ q hq)) hτ hA).2

/-! ### Rules that tell nothing -/

theorem length_le_of_within (hw : e.Within d) (p : PortId) :
    (e.typesOf p).toList.length ≤ (d.typesOf p).toList.length :=
  (List.subperm_of_subset TypeSet.nodup_toList fun t ht => hw.mem p t ht).length_le

/-- **A rule that tells nothing of some domains tells nothing of larger ones.** -/
theorem allowed_eq_none_above (hw : e.Within d) (he : r.allowed e = none) : r.allowed d = none := by
  cases r with
  | equal ports =>
    cases ports with
    | nil => rfl
    | cons a rest => cases he
  | combine ports =>
    have hproduct : ∀ (ports : List PortId) (m n : Nat), m ≤ n →
        ((ports.map fun p => (e.typesOf p).toList).map List.length).foldl (· * ·) m ≤
          ((ports.map fun p => (d.typesOf p).toList).map List.length).foldl (· * ·) n := by
      intro ports
      induction ports with
      | nil => exact fun m n h => h
      | cons p ports ih => exact fun m n h => ih _ _ (Nat.mul_le_mul h (length_le_of_within hw p))
    rw [allowed] at he ⊢
    split at he
    · rename_i hlimit
      rw [if_pos (Nat.lt_of_lt_of_le hlimit (hproduct ports 1 1 (Nat.le_refl 1)))]
    · cases he
  | _ => cases he

/-- What a rule allows hangs on the domains of its ports only. -/
theorem allowed_congr (h : ∀ p ∈ r.ports, d'.typesOf p = d.typesOf p) : r.allowed d' = r.allowed d := by
  cases r with
  | equal ports =>
    cases ports with
    | nil => rfl
    | cons a rest =>
      have hfold : ∀ (rest : List PortId) (s : TypeSet), (∀ q ∈ rest, d'.typesOf q = d.typesOf q) →
          rest.foldl (fun s q => s.inter (d'.typesOf q)) s =
            rest.foldl (fun s q => s.inter (d.typesOf q)) s := by
        intro rest
        induction rest with
        | nil => exact fun _ _ => rfl
        | cons q rest ih =>
          intro s hq
          rw [List.foldl_cons, List.foldl_cons, hq q List.mem_cons_self]
          exact ih _ fun q' hq' => hq q' (List.mem_cons_of_mem q hq')
      obtain ⟨ha, hrest⟩ := List.forall_mem_cons.1 h
      simp only [allowed, ha, hfold rest _ hrest]
  | combine ports =>
    have hmap : (ports.map fun p => (d'.typesOf p).toList) =
        ports.map fun p => (d.typesOf p).toList :=
      List.map_congr_left fun p hp => by rw [h p hp]
    simp only [allowed, hmap]
  | minSize q k => simp only [allowed, h q (by simp [Rule.ports])]
  | scalarOf a b => simp only [allowed, h a (by simp [Rule.ports]), h b (by simp [Rule.ports])]
  | resized a b k => simp only [allowed, h a (by simp [Rule.ports]), h b (by simp [Rule.ports])]
  | sameDimension a b => simp only [allowed, h a (by simp [Rule.ports]), h b (by simp [Rule.ports])]

/-! ### What narrowing does -/

/-- A rule leaves domains as they are if narrowing does. -/
theorem effect_eq_unchanged : r.effect d = .unchanged ↔ r.narrow d = some (d, []) := by
  rw [effect]
  constructor
  · intro h
    split at h
    · cases h
    · rename_i d' hn
      rw [hn, Domains.eq_of_narrow_nil hn]
    · cases h
  · intro h
    rw [h]

/-- Domains all of whose types have support are left as they are. -/
theorem narrow_of_supported (hr : r.Proper) (hd : d.Valid)
    (hne : ∀ p ∈ r.ports, ∃ t, (d.typesOf p).Mem t)
    (hs : ∀ p ∈ r.ports, ∀ t, (d.typesOf p).Mem t → Supported d r p t) :
    r.narrow d = some (d, []) := by
  refine Domains.narrow_self fun p A hA => ?_
  cases ha : r.allowed d with
  | none =>
    rw [ha] at hA
    cases hA
  | some allowed =>
    rw [ha] at hA
    have hp := mem_ports_of_allowed ha hA
    exact ⟨hne p hp, fun t ht => (allowed_iff_supported hr hd ha hp ht).2 (hs p hp t ht) A hA⟩

/-- The types of domains that a rule leaves as they are have support, unless it tells nothing. -/
theorem supported_of_unchanged (hr : r.Proper) (ha : r.allowed e = some allowed)
    (h : r.effect e = .unchanged) (hp : p ∈ r.ports) (ht : (e.typesOf p).Mem t) :
    Supported e r p t :=
  supported_of_allowed hr ha hp ht
    ((narrow_mem ha (effect_eq_unchanged.1 h) p t).1 ht).2

/-- **Narrowing is monotone**: it succeeds above domains that the rule leaves as they are, and what it
leaves is still above them. -/
theorem narrow_above (hr : r.Proper) (hd : d.Valid) (hw : e.Within d)
    (hne : ∀ p ∈ r.ports, ∃ t, (e.typesOf p).Mem t) (h : r.effect e = .unchanged) :
    ∃ d' touched, r.narrow d = some (d', touched) ∧ e.Within d' := by
  cases ha : r.allowed d with
  | none => exact ⟨d, [], by rw [narrow, ha]; rfl, hw⟩
  | some allowed =>
    have hsupported : ∀ p ∈ r.ports, ∀ t, (e.typesOf p).Mem t →
        ∀ A, (p, A) ∈ allowed → A.Mem t := by
      intro p hp t ht
      refine (allowed_iff_supported hr hd ha hp (hw.mem p t ht)).2 ?_
      cases he : r.allowed e with
      | none =>
        rw [allowed_eq_none_above hw he] at ha
        cases ha
      | some _ => exact (supported_of_unchanged hr he h hp ht).mono hw
    choose! τ hτ using hne
    obtain ⟨d', touched, hn⟩ := Domains.narrow_eq_some (d := d) (τ := τ) (l := allowed)
      fun p A hA => by
        have hp := mem_ports_of_allowed ha hA
        exact ⟨hw.mem p _ (hτ p hp), hsupported p hp _ (hτ p hp) A hA⟩
    have hn : r.narrow d = some (d', touched) := by
      rw [narrow, ha]
      exact hn
    obtain ⟨-, -, hsize⟩ := Domains.narrow_spec hn
    refine ⟨d', touched, hn, hw.size.trans hsize.symm, fun p t ht => ?_⟩
    exact (narrow_mem ha hn p t).2 ⟨hw.mem p t ht, fun A hA =>
      hsupported p (mem_ports_of_allowed ha hA) t ht A hA⟩

/-- **Narrowing is idempotent**: what a rule has narrowed it leaves as it is. -/
theorem effect_narrow (hr : r.Proper) (hd : d.Valid)
    (hne : ∀ p ∈ r.ports, ∃ t, (d'.typesOf p).Mem t) (h : r.narrow d = some (d', touched)) :
    r.effect d' = .unchanged := by
  rw [effect_eq_unchanged]
  have hw : d'.Within d := Domains.within_of_narrow h
  cases ha : r.allowed d with
  | none =>
    have hsame : d.narrow [] = some (d', touched) := by rw [narrow, ha] at h; exact h
    obtain ⟨rfl, rfl⟩ := Prod.mk.inj (Option.some.inj hsame)
    exact h
  | some allowed =>
    have hmem := narrow_mem ha h
    refine narrow_of_supported hr (hw.valid hd) hne fun p hp t ht => ?_
    obtain ⟨τ, hs, hτ, hpt⟩ := supported_of_allowed hr ha hp (hw.mem p t ht) ((hmem p t).1 ht).2
    -- the types of the supporting choice have the same support, so they are left
    exact ⟨τ, hs, fun q hq => (hmem q (τ q)).2 ⟨hτ q hq,
      (allowed_iff_supported hr hd ha hq (hτ q hq)).2 ⟨τ, hs, hτ, rfl⟩⟩, hpt⟩

/-- **What a rule leaves as it is** hangs on the domains of its ports only. -/
theorem effect_congr (h : ∀ p ∈ r.ports, d'.typesOf p = d.typesOf p)
    (hu : r.effect d = .unchanged) : r.effect d' = .unchanged := by
  rw [effect_eq_unchanged, narrow, Domains.narrow_eq_self_iff] at *
  rw [allowed_congr h]
  intro p A hA
  have hp : p ∈ r.ports := by
    cases ha : r.allowed d with
    | none =>
      rw [ha] at hA
      cases hA
    | some allowed =>
      rw [ha] at hA
      exact mem_ports_of_allowed ha hA
  rw [h p hp]
  exact hu p A hA

end Rule

end NodeShader
