import NodeShader.Graph.Basic

/-!
# What a walk reaches

The positions a walk gives are closed under its step (`reach_closed`), contain where it starts, and
are all led to from there (`reach_induction`).
-/

namespace NodeShader

variable {next : Nat → List Nat}

theorem mem_without {unmet met : List Nat} {j : Nat} :
    j ∈ without unmet met ↔ j ∈ unmet ∧ j ∉ met := by
  simp [without]

/-- A walk keeps what it has visited. -/
theorem subset_walk (unmet queue visited : List Nat) :
    visited ⊆ walk next unmet queue visited := by
  fun_induction walk next unmet queue visited with
  | case1 => exact List.Subset.refl _
  | case2 unmet visited i rest _ ih => exact ih
  | case3 unmet visited i rest x fresh _ ih =>
    exact List.Subset.trans (List.subset_append_left _ _) ih

/-- **A walk is closed**: if what was visited and is not queued has no unmet successor, then every
unmet successor of what the walk gives is given too. -/
theorem walk_closed (unmet queue visited : List Nat)
    (hdone : ∀ i ∈ visited, i ∉ queue → ∀ j ∈ next i, j ∉ unmet) :
    ∀ i ∈ walk next unmet queue visited, ∀ j ∈ next i, j ∈ unmet →
      j ∈ walk next unmet queue visited := by
  fun_induction walk next unmet queue visited with
  | case1 unmet visited =>
    intro i hi j hj hu
    exact absurd hu (hdone i hi (List.not_mem_nil) j hj)
  | case2 unmet visited i rest hf ih =>
    refine ih ?_
    intro k hk hkr j hj hu
    by_cases hki : k = i
    · subst hki
      have hm : j ∈ ((next k).filter unmet.contains).eraseDups := by
        rw [List.mem_eraseDups, List.mem_filter]
        exact ⟨hj, by simpa using hu⟩
      rw [hf] at hm
      cases hm
    · exact hdone k hk (by simp [hki, hkr]) j hj hu
  | case3 unmet visited i rest x fresh hf ih =>
    intro k hk j hj hu
    by_cases hjf : j ∈ x :: fresh
    · exact subset_walk _ _ _ (List.mem_append_right _ hjf)
    refine ih ?_ k hk j hj (mem_without.2 ⟨hu, hjf⟩)
    intro k hk hkq j hj hu
    rw [List.mem_append] at hk hkq
    rw [not_or] at hkq
    rw [mem_without] at hu
    have hkv : k ∈ visited := hk.resolve_right hkq.2
    by_cases hki : k = i
    · subst hki
      have hm : j ∈ ((next k).filter unmet.contains).eraseDups := by
        rw [List.mem_eraseDups, List.mem_filter]
        exact ⟨hj, by simpa using hu.1⟩
      rw [hf] at hm
      exact hu.2 hm
    · exact hdone k hkv (by simp [hki, hkq.1]) j hj hu.1

/-- What holds of the visited, and of the successors of what it holds of, holds of all a walk
gives. -/
theorem walk_induction {P : Nat → Prop} (unmet queue visited : List Nat) (hq : queue ⊆ visited)
    (hv : ∀ i ∈ visited, P i) (hstep : ∀ i, P i → ∀ j ∈ next i, j ∈ unmet → P j) :
    ∀ i ∈ walk next unmet queue visited, P i := by
  fun_induction walk next unmet queue visited with
  | case1 => exact hv
  | case2 unmet visited i rest _ ih =>
    exact ih (fun j hj => hq (List.mem_cons_of_mem i hj)) hv hstep
  | case3 unmet visited i rest x fresh hf ih =>
    refine ih ?_ ?_ fun k hk j hj hu => hstep k hk j hj (mem_without.1 hu).1
    · intro j hj
      rw [List.mem_append] at hj ⊢
      exact hj.imp_left fun hj => hq (List.mem_cons_of_mem i hj)
    · intro j hj
      rcases List.mem_append.1 hj with hj | hj
      · exact hv j hj
      · rw [← hf, List.mem_eraseDups, List.mem_filter] at hj
        exact hstep i (hv i (hq List.mem_cons_self)) j hj.1 (by simpa using hj.2)

variable {size : Nat} {start : List Nat} {i j : Nat}

/-- Where a walk starts is reached. -/
theorem start_mem_reach (h : i ∈ start) (hi : i < size) : i ∈ reach size next start := by
  refine subset_walk _ _ _ ?_
  rw [List.mem_eraseDups, List.mem_filter]
  exact ⟨h, by simpa using hi⟩

/-- **What is reached leads to what is reached.** -/
theorem reach_closed (h : i ∈ reach size next start) (hj : j ∈ next i) (hs : j < size) :
    j ∈ reach size next start := by
  by_cases hjs : j ∈ (start.filter (· < size)).eraseDups
  · exact subset_walk _ _ _ hjs
  · refine walk_closed _ _ _ ?_ i h j hj (mem_without.2 ⟨List.mem_range.2 hs, hjs⟩)
    intro k hk hkq
    exact absurd hk hkq

/-- **What holds of the start and of successors holds of all that is reached.** -/
theorem reach_induction {P : Nat → Prop} (hstart : ∀ s ∈ start, s < size → P s)
    (hstep : ∀ k, P k → ∀ l ∈ next k, l < size → P l) (h : i ∈ reach size next start) : P i := by
  refine walk_induction _ _ _ (List.Subset.refl _) ?_ ?_ i h
  · intro s hs
    rw [List.mem_eraseDups, List.mem_filter] at hs
    exact hstart s hs.1 (by simpa using hs.2)
  · intro k hk l hl hu
    exact hstep k hk l hl (List.mem_range.1 (mem_without.1 hu).1)

theorem lt_of_mem_reach (h : i ∈ reach size next start) : i < size :=
  reach_induction (P := (· < size)) (fun _ _ hs => hs) (fun _ _ _ _ hs => hs) h

/-! ### Walks in a bounded number of steps -/

/-- A walk that ends within `fuel` steps. -/
def walkWithin (next : Nat → List Nat) :
    (fuel : Nat) → (unmet queue visited : List Nat) → Option (List Nat)
  | _, _, [], visited => some visited
  | 0, _, _ :: _, _ => none
  | fuel + 1, unmet, i :: rest, visited =>
    match ((next i).filter unmet.contains).eraseDups with
    | [] => walkWithin next fuel unmet rest visited
    | x :: fresh =>
      walkWithin next fuel (without unmet (x :: fresh)) (rest ++ x :: fresh) (visited ++ x :: fresh)

/-- A walk that ends within a bound is a walk. -/
theorem walk_of_within {fuel : Nat} {unmet queue visited found : List Nat}
    (h : walkWithin next fuel unmet queue visited = some found) :
    walk next unmet queue visited = found := by
  induction fuel generalizing unmet queue visited with
  | zero =>
    cases queue with
    | nil =>
      rw [walk]
      exact Option.some.inj h
    | cons i rest => cases h
  | succ fuel ih =>
    cases queue with
    | nil =>
      rw [walk]
      exact Option.some.inj h
    | cons i rest =>
      rw [walkWithin] at h
      rw [walk]
      split at h
      · rename_i hf
        split
        · exact ih h
        · rename_i hf'
          rw [hf] at hf'
          cases hf'
      · rename_i hf
        split
        · rename_i hf'
          rw [hf] at hf'
          cases hf'
        · rename_i hf'
          rw [hf] at hf'
          cases hf'
          exact ih h

/-- The positions that a walk of at most `fuel` steps reaches. -/
def reachWithin (fuel size : Nat) (next : Nat → List Nat) (start : List Nat) : Option (List Nat) :=
  let start := (start.filter (· < size)).eraseDups
  walkWithin next fuel (without (List.range size) start) start start

theorem reach_of_within {fuel : Nat} {found : List Nat}
    (h : reachWithin fuel size next start = some found) : reach size next start = found :=
  walk_of_within h

end NodeShader
