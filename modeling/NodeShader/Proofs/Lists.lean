import Mathlib.Data.List.Forall2
import Mathlib.Data.List.Perm.Basic
import NodeShader.Total

/-!
# Lists

Members of lists that are related element by element, values that stand under a key, and counting the
elements of one list by those of another.
-/

namespace NodeShader

section Related

variable {α β : Type} {R : α → β → Prop} {as : List α} {bs : List β}

/-- Every element of the second list has one of the first it is related to. -/
theorem exists_of_mem_right (h : List.Forall₂ R as bs) {b : β} (hb : b ∈ bs) : ∃ a ∈ as, R a b := by
  induction h with
  | nil => cases hb
  | @cons a b' as bs hR _ ih =>
    rcases List.mem_cons.1 hb with rfl | hb
    · exact ⟨a, List.mem_cons_self, hR⟩
    · obtain ⟨a', ha', hR'⟩ := ih hb
      exact ⟨a', List.mem_cons_of_mem a ha', hR'⟩

/-- Every element of the first list has one of the second it is related to. -/
theorem exists_of_mem_left (h : List.Forall₂ R as bs) {a : α} (ha : a ∈ as) : ∃ b ∈ bs, R a b :=
  exists_of_mem_right h.flip ha

/-- Related elements are members of the two lists. -/
theorem forall₂_imp_mem {S : α → β → Prop} (h : List.Forall₂ R as bs)
    (himp : ∀ a ∈ as, ∀ b ∈ bs, R a b → S a b) : List.Forall₂ S as bs := by
  induction h with
  | nil => exact .nil
  | cons hR _ ih =>
    refine .cons (himp _ List.mem_cons_self _ List.mem_cons_self hR) (ih fun a ha b hb => ?_)
    exact himp a (List.mem_cons_of_mem _ ha) b (List.mem_cons_of_mem _ hb)

/-- A list that is related to another is permuted with it. -/
theorem exists_perm_of_forall₂ {as' : List α} (hp : as.Perm as') (h : List.Forall₂ R as bs) :
    ∃ bs', List.Forall₂ R as' bs' ∧ bs.Perm bs' := by
  obtain ⟨bs', h', hp'⟩ := List.perm_comp_forall₂ hp.symm h
  exact ⟨bs', h', hp'.symm⟩

end Related

/-! ### Keys -/

theorem lookup_mem {α β : Type} [BEq α] [LawfulBEq α] {l : List (α × β)} {a : α} {b : β}
    (h : l.lookup a = some b) : (a, b) ∈ l := by
  rw [List.lookup_eq_some_iff] at h
  obtain ⟨l₁, l₂, rfl, -⟩ := h
  simp

/-- A key that stands once is found. -/
theorem lookup_eq_some_of_mem {α β : Type} [BEq α] [LawfulBEq α] {l : List (α × β)} {a : α} {b : β}
    (hl : (l.map (·.1)).Nodup) (h : (a, b) ∈ l) : l.lookup a = some b := by
  induction l with
  | nil => cases h
  | cons e l ih =>
    obtain ⟨a', b'⟩ := e
    rw [List.map_cons, List.nodup_cons] at hl
    rcases List.mem_cons.1 h with he | hm
    · cases he
      rw [List.lookup_cons_self]
    · have hne : (a == a') = false := by
        rw [beq_eq_false_iff_ne]
        rintro rfl
        exact hl.1 (List.mem_map.2 ⟨_, hm, rfl⟩)
      rw [List.lookup_cons, hne]
      exact ih hl.2 hm

/-- An element is found by its key where keys are told apart. -/
theorem find?_key {α β : Type} [BEq β] [LawfulBEq β] {f : α → β} {l : List α} {a : α}
    (hl : (l.map f).Nodup) (ha : a ∈ l) : l.find? (f · == f a) = some a := by
  induction l with
  | nil => cases ha
  | cons b l ih =>
    rw [List.map_cons, List.nodup_cons] at hl
    rcases List.mem_cons.1 ha with rfl | ha
    · exact List.find?_cons_of_pos (beq_self_eq_true _)
    · have hne : f b ≠ f a := fun h => hl.1 (h ▸ List.mem_map.2 ⟨a, ha, rfl⟩)
      rw [List.find?_cons_of_neg (by simpa using hne), ih hl.2 ha]

/-- What is found by a key does not hang on the order. -/
theorem find?_perm {α β : Type} [BEq β] [LawfulBEq β] {f : α → β} {l l' : List α}
    (hl : (l.map f).Nodup) (h : l.Perm l') (b : β) : l.find? (f · == b) = l'.find? (f · == b) := by
  have hl' : (l'.map f).Nodup := (h.map f).nodup_iff.1 hl
  cases hf : l.find? (f · == b) with
  | some a =>
    have hb : f a = b := by simpa using List.find?_some hf
    subst hb
    exact (find?_key hl' (h.mem_iff.1 (List.mem_of_find?_eq_some hf))).symm
  | none =>
    rw [eq_comm, List.find?_eq_none]
    exact fun a ha => List.find?_eq_none.1 hf a (h.mem_iff.2 ha)

/-- The value under a key does not hang on the order. -/
theorem lookup_perm {α β : Type} [BEq α] [LawfulBEq α] {l l' : List (α × β)}
    (hl : (l.map (·.1)).Nodup) (h : l.Perm l') (a : α) : l.lookup a = l'.lookup a := by
  have hl' : (l'.map (·.1)).Nodup := (h.map _).nodup_iff.1 hl
  refine Option.ext fun b => ⟨fun hb => ?_, fun hb => ?_⟩
  · exact lookup_eq_some_of_mem hl' (h.mem_iff.1 (lookup_mem hb))
  · exact lookup_eq_some_of_mem hl (h.mem_iff.2 (lookup_mem hb))

/-! ### Counting -/

theorem total_congr {α : Type} {f f' : α → Nat} {l : List α} (h : ∀ a ∈ l, f a = f' a) :
    total f l = total f' l := by
  induction l with
  | nil => rfl
  | cons a l ih =>
    rw [total, total, h a List.mem_cons_self, ih fun b hb => h b (List.mem_cons_of_mem a hb)]

theorem total_map {α β : Type} (f : α → β) (w : β → Nat) (l : List α) :
    total w (l.map f) = total (fun a => w (f a)) l := by
  induction l with
  | nil => rfl
  | cons a l ih => rw [List.map_cons, total, total, ih]

theorem total_add {α : Type} (f f' : α → Nat) (l : List α) :
    total (fun a => f a + f' a) l = total f l + total f' l := by
  induction l with
  | nil => rfl
  | cons a l ih =>
    rw [total, total, total, ih]
    omega

theorem total_eq_zero {α : Type} {f : α → Nat} {l : List α} (h : ∀ a ∈ l, f a = 0) :
    total f l = 0 := by
  induction l with
  | nil => rfl
  | cons a l ih =>
    rw [total, h a List.mem_cons_self, ih fun b hb => h b (List.mem_cons_of_mem a hb)]

/-- Adding up, over distinct keys, the elements that have the key. -/
theorem total_countP {α β : Type} [BEq α] [LawfulBEq α] (f : β → α) (P : β → Bool) (E : List β) {L : List α} (hL : L.Nodup) :
    total (fun q => E.countP fun e => f e == q && P e) L =
      E.countP fun e => L.contains (f e) && P e := by
  induction L with
  | nil => simp [total]
  | cons a L ih =>
    rw [List.nodup_cons] at hL
    rw [total, ih hL.2]
    clear ih
    induction E with
    | nil => rfl
    | cons e E ihE =>
      simp only [List.countP_cons, List.contains_cons] at ihE ⊢
      rw [← ihE]
      by_cases ha : f e == a
      · have hn : L.contains (f e) = false := by
          rw [beq_iff_eq] at ha
          rw [ha]
          simpa using hL.1
        simp only [ha, hn, Bool.true_or, Bool.false_and, Bool.true_and, Bool.false_eq_true, if_false]
        omega
      · rw [Bool.not_eq_true] at ha
        simp only [ha, Bool.false_or, Bool.false_and, Bool.false_eq_true, if_false]
        omega

/-- Only one element of a list contributes to it. -/
theorem flatMap_eq_of_mem {α β : Type} {f : α → List β} {l : List α} {a : α} (hl : l.Nodup)
    (ha : a ∈ l) (hf : ∀ b ∈ l, b ≠ a → f b = []) : l.flatMap f = f a := by
  induction l with
  | nil => cases ha
  | cons b l ih =>
    rw [List.nodup_cons] at hl
    rw [List.flatMap_cons]
    rcases List.mem_cons.1 ha with rfl | ha
    · have hrest : l.flatMap f = [] := List.flatMap_eq_nil_iff.2 fun c hc =>
        hf c (List.mem_cons_of_mem _ hc) fun hca => hl.1 (hca ▸ hc)
      rw [hrest, List.append_nil]
    · rw [hf b List.mem_cons_self fun hba => hl.1 (hba ▸ ha),
        ih hl.2 ha fun c hc => hf c (List.mem_cons_of_mem _ hc), List.nil_append]

/-- A weaker test that one more element passes counts more. -/
theorem countP_lt_countP {α : Type} {P Q : α → Bool} {l : List α} {a : α}
    (h : ∀ b ∈ l, P b = true → Q b = true) (ha : a ∈ l) (hP : P a = false) (hQ : Q a = true) :
    l.countP P < l.countP Q := by
  obtain ⟨A, B, rfl⟩ := List.append_of_mem ha
  have hA : A.countP P ≤ A.countP Q :=
    List.countP_mono_left fun b hb => h b (List.mem_append_left _ hb)
  have hB : B.countP P ≤ B.countP Q :=
    List.countP_mono_left fun b hb => h b (List.mem_append_right _ (List.mem_cons_of_mem a hb))
  rw [List.countP_append, List.countP_append, List.countP_cons_of_neg (by rw [hP]; simp),
    List.countP_cons_of_pos hQ]
  omega

theorem countP_eq_total {α : Type} (P : α → Bool) (l : List α) :
    l.countP P = total (fun a => if P a then 1 else 0) l := by
  induction l with
  | nil => rfl
  | cons a l ih => rw [List.countP_cons, total, ih, Nat.add_comm]

theorem count_flatMap_eq_total {α γ : Type} [BEq α] (l : List γ) (f : γ → List α) (x : α) :
    (l.flatMap f).count x = total (fun c => (f c).count x) l := by
  induction l with
  | nil => rfl
  | cons c l ih => rw [List.flatMap_cons, List.count_append, ih, total]

end NodeShader
