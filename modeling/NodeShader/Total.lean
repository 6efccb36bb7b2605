/-!
# Totals

`total f l` adds the measure `f` over a list. The bounds on the work of the solver and of the
scheduler are totals, and `total_set` is what one update of a table does to them.
-/

namespace NodeShader

/-- The sum of a measure over a list. -/
def total {α : Type} (f : α → Nat) : List α → Nat
  | [] => 0
  | a :: l => f a + total f l

/-- Replacing one element changes a total by the difference of the two terms. -/
theorem total_set {α : Type} (f : α → Nat) (l : List α) (i : Nat) (v : α) (h : i < l.length) :
    total f (l.set i v) + f l[i] = total f l + f v := by
  induction l generalizing i with
  | nil => simp at h
  | cons a l ih =>
    cases i with
    | zero =>
      simp only [List.set_cons_zero, List.getElem_cons_zero, total]
      omega
    | succ i =>
      have := ih i (by simpa using h)
      simp only [List.set_cons_succ, List.getElem_cons_succ, total]
      omega

end NodeShader
