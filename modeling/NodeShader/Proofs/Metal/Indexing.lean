import Mathlib.Data.List.Sort
import Mathlib.Data.Prod.Lex
import NodeShader.Proofs.Metal.Reflecting
import NodeShader.Proofs.Steps

/-!
# Indices of bindings

The bindings of an argument table are numbered in the order of their sets and slots.  That is said of all
modules here, whatever their annotations are: sets and slots may be shared, and nothing is known of types.

* `rank_lt_iff`: of two bindings, each in its turn, the one that is declared first has the smaller number
  unless its place is the greater one.
* `indices_number`: the numbers of a table are 0, 1, 2 and so on.
* `reflects_of_reflect`: **bindings are indexed**, in their order of declaration.
-/

namespace NodeShader.Metal

open Spirv

/-- The place of a binding in its table: places are in the order of sets, and of slots within a set. -/
def Binding.place (b : Binding) : ℕ ×ₗ ℕ := toLex (b.set, b.slot)

theorem before_iff {a b : Binding} : a.before b = true ↔ a.place ≤ b.place := by
  simp [Binding.before, Binding.place, Prod.Lex.toLex_le_toLex]

/-! ### Sorting -/

section Sorting

variable {α : Type} {before : α → α → Bool} {r : α → α → Prop} [DecidableRel r]

theorem insertBinding_eq (h : ∀ a b, before a b = true ↔ r a b) (a : α) (l : List α) :
    insertBinding before a l = l.orderedInsert r a := by
  induction l with
  | nil => rfl
  | cons b l ih =>
    rw [insertBinding, List.orderedInsert_cons, ih]
    simp only [h a b]

/-- Sorting bindings is insertion sort. -/
theorem sortBindings_eq (h : ∀ a b, before a b = true ↔ r a b) (l : List α) :
    sortBindings before l = l.insertionSort r := by
  induction l with
  | nil => rfl
  | cons a l ih => rw [sortBindings, List.insertionSort_cons, ih, insertBinding_eq h]

theorem sortBindings_perm (before : α → α → Bool) (l : List α) : (sortBindings before l).Perm l := by
  rw [sortBindings_eq (r := fun a b => before a b = true) fun _ _ => Iff.rfl]
  exact List.perm_insertionSort _ l

end Sorting

/-! ### Numbers -/

/-- Whether the place of a binding is not after that of another, whatever their turns are. -/
abbrev NotAfter (a b : Binding × Nat) : Prop := a.1.place ≤ b.1.place

instance : Std.Total NotAfter := ⟨fun a b => le_total a.1.place b.1.place⟩

instance : IsTrans (Binding × Nat) NotAfter := ⟨fun _ _ _ => le_trans⟩

/-- Bindings with their turns, in the order of their numbers. -/
def ranked (l : List (Binding × Nat)) : List (Binding × Nat) := l.insertionSort NotAfter

/-- The number of a binding among others. -/
def rank (l : List (Binding × Nat)) (e : Binding × Nat) : Nat := ((ranked l).map (·.2)).idxOf e.2

section Ranks

variable {l : List (Binding × Nat)} {a b : Binding × Nat}

theorem ranked_perm (l : List (Binding × Nat)) : (ranked l).Perm l := List.perm_insertionSort NotAfter l

variable (hl : l.Pairwise fun a b => a.2 < b.2)
include hl

/-- Each binding has a turn of its own. -/
theorem nodup_turns : ((ranked l).map (·.2)).Nodup := by
  rw [((ranked_perm l).map (·.2)).nodup_iff]
  exact List.pairwise_map.2 (hl.imp fun h => Nat.ne_of_lt h)

/-- Where a binding stands is its number. -/
theorem rank_getElem {i : Nat} (hi : i < (ranked l).length) : rank l (ranked l)[i] = i := by
  have hnodup := nodup_turns hl
  have hi' : i < ((ranked l).map (·.2)).length := by rwa [List.length_map]
  have h := hnodup.idxOf_getElem i hi'
  rwa [List.getElem_map] at h

theorem ranks_ranked : (ranked l).map (rank l) = List.range (ranked l).length := by
  refine List.ext_getElem (by simp) fun i hi _ => ?_
  rw [List.getElem_map, List.getElem_range]
  exact rank_getElem hl _

/-- **The numbers of bindings** are 0, 1, 2 and so on. -/
theorem ranks_perm : (l.map (rank l)).Perm (List.range l.length) := by
  have h := ((ranked_perm l).map (rank l)).symm
  rwa [ranks_ranked hl, (ranked_perm l).length_eq] at h

/-- The smaller number has the place that is not after. -/
theorem notAfter_of_rank_lt (ha : a ∈ l) (hb : b ∈ l) (h : rank l a < rank l b) : NotAfter a b := by
  obtain ⟨i, hi, rfl⟩ := List.getElem_of_mem ((ranked_perm l).mem_iff.2 ha)
  obtain ⟨j, hj, rfl⟩ := List.getElem_of_mem ((ranked_perm l).mem_iff.2 hb)
  rw [rank_getElem hl, rank_getElem hl] at h
  exact List.pairwise_iff_getElem.1 (List.pairwise_insertionSort NotAfter l) i j hi hj h

/-- **Of two bindings** the first has the smaller number exactly if its place is not after that of the other:
equal places keep their turns. -/
theorem rank_lt_iff (h : [a, b].Sublist l) : rank l a < rank l b ↔ NotAfter a b := by
  have hmem := h.subset
  refine ⟨notAfter_of_rank_lt hl (hmem (by simp)) (hmem (by simp)), fun hab => ?_⟩
  have hstable : [a, b].Sublist (ranked l) := List.pair_sublist_insertionSort hab h
  have hpair : (ranked l).Pairwise fun a b => rank l a < rank l b := by
    rw [← List.pairwise_map, ranks_ranked hl]
    exact List.pairwise_lt_range
  exact List.rel_of_pairwise_cons (hpair.sublist hstable) List.mem_cons_self

end Ranks

/-! ### Tables -/

/-- The entries of a table. -/
def entriesIn (entries : List (Binding × Nat)) (table : ArgumentTable) : List (Binding × Nat) :=
  entries.filter (·.1.kind.table? == some table)

theorem number_of_table {entries : List (Binding × Nat)} {e : Binding × Nat} {table : ArgumentTable}
    (h : e.1.kind.table? = some table) :
    number entries e = { e.1 with index := (rank (entriesIn entries table) e : Nat) } := by
  have hsort : sortBindings (fun a b : Binding × Nat => a.1.before b.1) (entriesIn entries table) =
      ranked (entriesIn entries table) := sortBindings_eq (fun _ _ => before_iff) _
  rw [number, h]
  dsimp only
  rw [show entries.filter (·.1.kind.table? == some table) = entriesIn entries table from rfl, hsort, rank,
    List.idxOf, List.findIdx_map]
  rfl

/-- Numbering changes the numbers only. -/
theorem number_same (entries : List (Binding × Nat)) (e : Binding × Nat) :
    (number entries e).kind = e.1.kind ∧ (number entries e).place = e.1.place ∧
      (number entries e).variable_ = e.1.variable_ ∧ (number entries e).builtIn = e.1.builtIn := by
  cases h : e.1.kind.table? with
  | none =>
    rw [number, h]
    exact ⟨rfl, rfl, rfl, rfl⟩
  | some table =>
    rw [number_of_table h]
    exact ⟨rfl, rfl, rfl, rfl⟩

/-- **The bindings of a table**, in their order of declaration: their indices are 0, 1, 2 and so on, and of
two bindings the first has the smaller index exactly if its place is not after that of the second. -/
structure Indexed (bs : List Binding) : Prop where
  indices : (bs.map (·.index)).Perm ((List.range bs.length).map Int.ofNat)
  order : bs.Pairwise fun a b => a.index < b.index ↔ a.place ≤ b.place

theorem indices_number {entries : List (Binding × Nat)} (hentries : entries.Pairwise fun a b => a.2 < b.2)
    (table : ArgumentTable) :
    Indexed ((entries.map (number entries)).filter (·.kind.table? == some table)) := by
  have hsub : (entriesIn entries table).Pairwise fun a b => a.2 < b.2 := hentries.filter _
  have hmap : (entries.map (number entries)).filter (·.kind.table? == some table) =
      (entriesIn entries table).map (number entries) := by
    rw [List.filter_map, entriesIn]
    refine congrArg _ (List.filter_congr fun e _ => ?_)
    show ((number entries e).kind.table? == some table) = _
    rw [(number_same entries e).1]
  have htable : ∀ e ∈ entriesIn entries table, e.1.kind.table? = some table := fun e he =>
    beq_iff_eq.1 (List.mem_filter.1 he).2
  have hindex : ∀ e ∈ entriesIn entries table,
      (number entries e).index = (rank (entriesIn entries table) e : Nat) := fun e he => by
    rw [number_of_table (htable e he)]
  rw [hmap]
  refine ⟨?_, ?_⟩
  · rw [List.map_map, List.length_map]
    refine List.Perm.trans (.of_eq (List.map_congr_left hindex)) ?_
    have h := (ranks_perm hsub).map Int.ofNat
    rwa [List.map_map] at h
  · rw [List.pairwise_map, List.pairwise_iff_forall_sublist]
    intro a b hab
    have ha := hab.subset (List.mem_cons_self (a := a))
    have hb := hab.subset (show b ∈ [a, b] by simp)
    rw [hindex a ha, hindex b hb, (number_same entries a).2.1, (number_same entries b).2.1, Int.ofNat_lt]
    exact rank_lt_iff hsub hab

/-- Numbers that are 0, 1, 2 and so on, in order. -/
theorem map_index_sort {bs : List Binding} (h : Indexed bs) :
    (sortBindings (fun a b => a.index ≤ b.index) bs).map (·.index) = (List.range bs.length).map Int.ofNat := by
  let before : Binding → Binding → Prop := fun a b => a.index ≤ b.index
  let _ : Std.Total before := ⟨fun a b => le_total a.index b.index⟩
  let _ : IsTrans Binding before := ⟨fun _ _ _ => le_trans⟩
  rw [sortBindings_eq (r := before) (fun a b => decide_eq_true_iff)]
  have hsorted : ((bs.insertionSort before).map (·.index)).Pairwise (· ≤ ·) :=
    List.pairwise_map.2 (List.pairwise_insertionSort before bs)
  have hrange : ((List.range bs.length).map Int.ofNat).Pairwise (· ≤ ·) :=
    List.pairwise_map.2 (List.pairwise_lt_range.imp fun hlt => Int.ofNat_le.2 (Nat.le_of_lt hlt))
  exact List.Perm.eq_of_pairwise (fun _ _ _ _ => le_antisymm) hsorted hrange
    (((List.perm_insertionSort before bs).map _).trans h.indices)

/-! ### Variables -/

/-- **A binding with the annotations of its variable**: the set and the slot of a bound one, and the location
of any other or -1 if it is built in. -/
structure Binding.Annotated (t : Tables) (b : Binding) : Prop where
  bound : b.kind.isBound = true → ∃ i is j js,
    t.decoration? b.variable_ Decoration.descriptorSet = some (i :: is) ∧
    t.decoration? b.variable_ Decoration.binding = some (j :: js) ∧ b.place = toLex (i.toNat, j.toNat)
  free : b.kind.isBound = false →
    (∃ k ks, t.decoration? b.variable_ Decoration.location = some (k :: ks) ∧ b.index = k.toNat ∧
      b.builtIn = "") ∨
    (t.decoration? b.variable_ Decoration.location = none ∧ b.index = -1 ∧ b.builtIn ≠ "")

section Variables

variable {t : Tables} {v : Variable} {b b' : Binding} {names names' : Names} {type : UInt32}

theorem operand_eq_ok {ops : List UInt32} {x : UInt32} (h : operand ops 0 = .ok x) : ∃ xs, ops = x :: xs := by
  cases ops with
  | nil => cases h
  | cons y ys =>
    cases h
    exact ⟨ys, rfl⟩

/-- The built-in variables have marks. -/
theorem mark_ne_empty {code : UInt32} {e : String × String} (h : builtIn? code = some e) : e.2 ≠ "" := by
  have hmem := lookup_mem h
  simp only [List.mem_cons, List.not_mem_nil, or_false, Prod.mk.injEq] at hmem
  rcases hmem with ⟨-, rfl⟩ | ⟨-, rfl⟩ | ⟨-, rfl⟩ <;> decide

/-- A stage input or output keeps its location. -/
theorem stageVariable_annotated (hkind : b.kind.isBound = false) (hindex : b.index = -1) (hb : b.builtIn = "")
    (h : Gives (stageVariable t b type) names b' names') :
    b'.variable_ = b.variable_ ∧ b'.kind = b.kind ∧ b'.Annotated t := by
  obtain ⟨format, names₁, -, h⟩ := gives_bind.1 h
  dsimp only at h
  have hfree : ∀ b' : Binding, b'.kind = b.kind → ¬ b'.kind.isBound = true := fun b' hk => by
    rw [hk, hkind]
    decide
  cases hl : t.decoration? b.variable_ Decoration.location with
  | some params =>
    rw [hl] at h
    obtain ⟨k, hk, h⟩ := gives_lift_bind.1 h
    obtain ⟨rfl, -⟩ := gives_pure.1 h
    obtain ⟨ks, rfl⟩ := operand_eq_ok hk
    exact ⟨rfl, rfl, fun h => absurd h (hfree _ rfl), fun _ => .inl ⟨k, ks, hl, rfl, hb⟩⟩
  | none =>
    rw [hl] at h
    dsimp only at h
    split at h
    · cases (gives_lift.1 h).1
    · obtain ⟨code, -, h⟩ := gives_lift_bind.1 h
      split at h
      · cases (gives_lift.1 h).1
      · rename_i name mark hmark
        obtain ⟨_, _, -, h⟩ := gives_bind.1 h
        obtain ⟨rfl, -⟩ := gives_pure.1 h
        exact ⟨rfl, rfl, fun h => absurd h (hfree _ rfl), fun _ => .inr ⟨hl, hindex, mark_ne_empty hmark⟩⟩

/-- What classifying a variable leaves to its annotations. -/
theorem classifyVariable_annotated (h : Gives (classifyVariable t v) names b names') :
    b.variable_ = v.id ∧ (b.kind.isBound = false → b.Annotated t) := by
  obtain ⟨info, -, h⟩ := gives_lift_bind.1 h
  cases info with
  | pointer storage element =>
    obtain ⟨pointee, -, h⟩ := gives_lift_bind.1 h
    dsimp only at h
    split at h
    · cases pointee with
      | struct ms =>
        obtain ⟨format, _, -, h⟩ := gives_bind.1 h
        obtain ⟨ms, _, -, h⟩ := gives_bind.1 h
        obtain ⟨rfl, -⟩ := gives_pure.1 h
        exact ⟨rfl, fun h => by cases h⟩
      | _ => cases (gives_lift.1 h).1
    · split at h
      · cases pointee with
        | image e dim sampled format =>
          obtain ⟨rfl, -⟩ := gives_pure.1 h
          refine ⟨rfl, fun h => ?_⟩
          dsimp only at h
          split at h <;> cases h
        | sampler =>
          obtain ⟨rfl, -⟩ := gives_pure.1 h
          exact ⟨rfl, fun h => by cases h⟩
        | _ => cases (gives_lift.1 h).1
      · split at h
        · obtain ⟨hid, -, ha⟩ := stageVariable_annotated rfl rfl rfl h
          exact ⟨hid, fun _ => ha⟩
        · split at h
          · obtain ⟨hid, -, ha⟩ := stageVariable_annotated rfl rfl rfl h
            exact ⟨hid, fun _ => ha⟩
          · cases (gives_lift.1 h).1
  | _ => cases (gives_lift.1 h).1

/-- **A variable that is bound** has its annotations. -/
theorem bindVariable_annotated (h : Gives (bindVariable t v) names b names') :
    b.variable_ = v.id ∧ b.Annotated t := by
  obtain ⟨b₁, names₁, h₁, h⟩ := gives_bind.1 h
  obtain ⟨hid, hfree⟩ := classifyVariable_annotated h₁
  dsimp only at h
  split at h
  · rename_i hbound
    split at h
    · rename_i is js his hjs
      obtain ⟨i, hi, h⟩ := gives_lift_bind.1 h
      obtain ⟨j, hj, h⟩ := gives_lift_bind.1 h
      obtain ⟨b₂, _, h₂, h⟩ := gives_bind.1 h
      obtain ⟨name, _, -, h⟩ := gives_bind.1 h
      obtain ⟨rfl, -⟩ := gives_pure.1 h
      obtain rfl := (gives_pure.1 h₂).1
      obtain ⟨is, rfl⟩ := operand_eq_ok hi
      obtain ⟨js, rfl⟩ := operand_eq_ok hj
      rw [← hid] at his hjs
      refine ⟨hid, fun _ => ⟨i, is, j, js, his, hjs, rfl⟩, fun h => ?_⟩
      rw [show ({ b₁ with set := i.toNat, slot := j.toNat, name } : Binding).kind = b₁.kind from rfl,
        hbound] at h
      cases h
    · obtain ⟨_, _, h₂, -⟩ := gives_bind.1 h
      cases (gives_lift.1 h₂).1
  · rename_i hbound
    obtain ⟨b₂, _, h₂, h⟩ := gives_bind.1 h
    obtain ⟨name, _, -, h⟩ := gives_bind.1 h
    obtain ⟨rfl, -⟩ := gives_pure.1 h
    obtain rfl := (gives_pure.1 h₂).1
    have ha := hfree (Bool.eq_false_iff.2 hbound)
    exact ⟨hid, fun h => absurd h hbound, ha.free⟩

/-- A number in a table changes no annotations. -/
theorem Binding.Annotated.number (h : b.Annotated t) (entries : List (Binding × Nat)) (k : Nat) :
    (number entries (b, k)).Annotated t := by
  obtain ⟨hkind, hplace, hid, hbuiltIn⟩ := number_same entries (b, k)
  refine ⟨fun hbound => ?_, fun hfree => ?_⟩
  · rw [hkind] at hbound
    rw [hplace, hid]
    exact h.bound hbound
  · rw [hkind] at hfree
    have hindex : (Metal.number entries (b, k)).index = b.index := by
      rw [Metal.number, show b.kind.table? = none by cases hk : b.kind <;> rw [hk] at hfree <;> trivial]
    rw [hindex, hid, hbuiltIn]
    exact h.free hfree

end Variables

/-- **Bindings that are indexed**: they stand in the order of the variables, the bindings of each argument
table are numbered by their places, and all have the annotations of their variables. -/
structure Reflection (t : Tables) (bs : List Binding) : Prop where
  ids : bs.map (·.variable_) = t.globals.map (·.id)
  tables : ∀ table : ArgumentTable, Indexed (bs.filter (·.kind.table? == some table))
  annotated : ∀ b ∈ bs, b.Annotated t

theorem pairwise_zipIdx (bs : List Binding) (k : Nat) : (bs.zipIdx k).Pairwise fun a b => a.2 < b.2 := by
  rw [← List.pairwise_map (f := Prod.snd) (R := (· < ·)), List.zipIdx_map_snd]
  exact List.pairwise_lt_range'

/-- **All bindings are indexed**, whatever the module is. -/
theorem reflection_of_reflect {t : Tables} {bs : List Binding} {names names' : Names}
    (h : Gives (reflect t) names bs names') : Reflection t bs := by
  rw [reflect] at h
  obtain ⟨plain, _, h₁, h⟩ := gives_bind.1 h
  obtain ⟨rfl, -⟩ := gives_pure.1 h
  have hplain : List.Forall₂ (fun v b => b.variable_ = v.id ∧ Binding.Annotated t b) t.globals plain := gives_mapM (fun v _ _ _ _ hv => bindVariable_annotated hv) h₁
  have hnumbered : List.Forall₂ (fun v b => b.variable_ = v.id ∧ b.Annotated t) t.globals
      (plain.zipIdx.map (number plain.zipIdx)) :=
    forall₂_number (fun entries k v b hb => ⟨(number_same entries (b, k)).2.2.1.trans hb.1,
      hb.2.number entries k⟩) _ 0 hplain
  refine ⟨?_, indices_number (pairwise_zipIdx plain 0), fun b hb => ?_⟩
  · have hids := List.forall₂_map_right_iff.2 (List.forall₂_map_left_iff.2 (hnumbered.imp fun _ _ h => h.1.symm))
    rw [List.forall₂_eq_eq_eq] at hids
    exact hids.symm
  · obtain ⟨_, -, -, hb⟩ := exists_of_mem_right hnumbered hb
    exact hb

end NodeShader.Metal
