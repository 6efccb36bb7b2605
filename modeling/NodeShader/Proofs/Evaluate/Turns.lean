import Mathlib.Data.List.Basic
import NodeShader.Evaluate.Dispatch

/-!
# What one move does

Every move but the cancellation belongs to one stage, whose phase it changes.  `Dispatch.Turn` lists the
changes, each with what has to hold for it and with what the stage tells by it; `Dispatch.Moved` adds
what becomes of everything else.

* `Dispatch.moved_of_perform?`: a move that can be made is the cancellation or such a change.
* `Dispatch.Moved.phases_other`, `Dispatch.Moved.latches_other`: other stages stay where they are, but
  that one of them may be woken.
* `Dispatch.Moved.outcomeOf?_mono`: what has been told stays told.
-/

namespace NodeShader

namespace Dispatch

/-- The state after some moves, if they can be made one after the other. -/
def follow? (d : Dispatch) (ms : List Move) : Option Dispatch := ms.foldlM perform? d

/-- **The turns of a stage**: where a move takes it, and what it tells by it. -/
inductive Turn (d : Dispatch) (t : Task) (i : Nat) : Move → Phase → Phase → Option Outcome → Prop
  | passed {k : Nat} {dep : NodeId} : t.dependencies[k]? = some dep →
    d.outcomeOf? dep = some .succeeded → Turn d t i (.advance i) (.waiting k) (.waiting (k + 1)) none
  | skipped {k : Nat} {dep : NodeId} {o : Outcome} : t.dependencies[k]? = some dep →
    d.outcomeOf? dep = some o → o ≠ .succeeded →
    Turn d t i (.advance i) (.waiting k) (.leaving (.skipped dep)) none
  | lapsed {k : Nat} : t.dependencies[k]? = none → d.cancelled = true →
    Turn d t i (.advance i) (.waiting k) (.leaving .cancelled) none
  | ready {k : Nat} : t.dependencies[k]? = none → d.cancelled = false →
    Turn d t i (.advance i) (.waiting k) .queued none
  | noticed {k : Nat} : k < t.dependencies.length → d.cancelled = true →
    Turn d t i (.notice i) (.waiting k) (.leaving .cancelled) none
  | entered : d.pool.isFull = false → Turn d t i (.enter i) .queued .admitted none
  | slept : d.pool.isFull = true → Turn d t i (.sleep i) .queued .asleep none
  | started : Turn d t i (.start i) .admitted .running none
  | returned : Turn d t i (.finish i) .running .returned none
  | recorded : Turn d t i (.record i) .returned .recorded none
  | told : Turn d t i (.tell i) .recorded .settled (some t.outcome)
  | left {o : Outcome} : o ≠ .cancelled → Turn d t i (.tell i) (.leaving o) .ended (some o)
  | aborted : Turn d t i (.tell i) (.leaving .cancelled) .aborted (some .cancelled)
  | noted : Turn d t i (.record i) .aborted .ended none
  | released {sleeper : Option Nat} : (∀ j, sleeper = some j → d.phases[j]? = some .asleep) →
    (sleeper = none → .asleep ∉ d.phases) →
    Turn d t i (.release i sleeper) .settled .ended none

/-- The phases once a move has woken whom it wakes. -/
def wakes (phases : List Phase) : Move → List Phase
  | .release _ (some j) => phases.set j .queued
  | _ => phases

/-- The pool after a move. -/
def poolAfter (p : Pool) : Move → Pool
  | .enter _ => { p with running := p.running + 1 }
  | .release _ _ => p.release
  | _ => p

/-- **A move of a stage**: its turn, and what becomes of the whole. -/
structure Moved (d : Dispatch) (m : Move) (d' : Dispatch) (i : Nat) (t : Task) (p p' : Phase)
    (o : Option Outcome) : Prop where
  task : d.tasks[i]? = some t
  phase : d.phases[i]? = some p
  turn : d.Turn t i m p p' o
  tasks : d'.tasks = d.tasks
  cancelled : d'.cancelled = d.cancelled
  phases : d'.phases = wakes (d.phases.set i p') m
  latches : d'.latches = o.elim d.latches fun o => d.latches.modify i (·.trigger o)
  pool : d'.pool = poolAfter d.pool m

variable {d d' : Dispatch} {m : Move}

/-- **What can happen**: the cancellation, or the turn of some stage. -/
theorem moved_of_perform? (h : d.perform? m = some d') (htasks : d.phases.length = d.tasks.length) :
    (m = .cancel ∧ d' = { d with cancelled := true }) ∨
      ∃ i t p p' o, d.Moved m d' i t p p' o := by
  have htask : ∀ {i : Nat} {p : Phase}, d.phases[i]? = some p → ∃ t, d.tasks[i]? = some t := by
    intro i p hp
    have hi : i < d.tasks.length := htasks ▸ (List.getElem?_eq_some_iff.1 hp).1
    exact ⟨_, List.getElem?_eq_getElem hi⟩
  cases m with
  | advance i =>
    simp only [perform?, advance?] at h
    split at h
    · rename_i t k ht hp
      split at h
      · rename_i dep hdep
        split at h
        · cases h
        · rename_i ho
          cases h
          exact .inr ⟨i, t, _, _, none, ht, hp, .passed hdep ho, rfl, rfl, rfl, rfl, rfl⟩
        · rename_i o ho hne
          cases h
          exact .inr ⟨i, t, _, _, none, ht, hp, .skipped hdep hne ho, rfl, rfl, rfl, rfl, rfl⟩
      · rename_i hdep
        cases h
        cases hc : d.cancelled with
        | true => exact .inr ⟨i, t, _, _, none, ht, hp, .lapsed hdep hc, rfl, rfl, rfl, rfl, rfl⟩
        | false => exact .inr ⟨i, t, _, _, none, ht, hp, .ready hdep hc, rfl, rfl, rfl, rfl, rfl⟩
    · cases h
  | notice i =>
    simp only [perform?, notice?] at h
    split at h
    · rename_i t k ht hp
      split at h
      · rename_i hc
        rw [Bool.and_eq_true, decide_eq_true_eq] at hc
        cases h
        exact .inr ⟨i, t, _, _, none, ht, hp, .noticed hc.2 hc.1, rfl, rfl, rfl, rfl, rfl⟩
      · cases h
    · cases h
  | enter i =>
    simp only [perform?, enter?] at h
    split at h
    · rename_i hp
      obtain ⟨t, ht⟩ := htask hp
      obtain ⟨pool, hpool, rfl⟩ := Option.map_eq_some_iff.1 h
      rw [Pool.start?] at hpool
      split at hpool
      · cases hpool
      · rename_i hfull
        cases hpool
        exact .inr ⟨i, t, _, _, none, ht, hp, .entered (Bool.not_eq_true _ ▸ hfull), rfl, rfl, rfl, rfl,
          rfl⟩
    · cases h
  | sleep i =>
    simp only [perform?, sleep?] at h
    split at h
    · rename_i hp
      obtain ⟨t, ht⟩ := htask hp
      split at h
      · rename_i hfull
        cases h
        exact .inr ⟨i, t, _, _, none, ht, hp, .slept hfull, rfl, rfl, rfl, rfl, rfl⟩
      · cases h
    · cases h
  | start i =>
    simp only [perform?, start?] at h
    split at h
    · rename_i hp
      obtain ⟨t, ht⟩ := htask hp
      cases h
      exact .inr ⟨i, t, _, _, none, ht, hp, .started, rfl, rfl, rfl, rfl, rfl⟩
    · cases h
  | finish i =>
    simp only [perform?, finish?] at h
    split at h
    · rename_i hp
      obtain ⟨t, ht⟩ := htask hp
      cases h
      exact .inr ⟨i, t, _, _, none, ht, hp, .returned, rfl, rfl, rfl, rfl, rfl⟩
    · cases h
  | record i =>
    simp only [perform?, record?] at h
    split at h
    · rename_i t ht hp
      cases h
      exact .inr ⟨i, t, _, _, none, ht, hp, .recorded, rfl, rfl, rfl, rfl, rfl⟩
    · rename_i t ht hp
      cases h
      exact .inr ⟨i, t, _, _, none, ht, hp, .noted, rfl, rfl, rfl, rfl, rfl⟩
    · cases h
  | tell i =>
    simp only [perform?, tell?] at h
    split at h
    · rename_i t ht hp
      cases h
      exact .inr ⟨i, t, _, _, some t.outcome, ht, hp, .told, rfl, rfl, rfl, rfl, rfl⟩
    · rename_i t o ht hp
      cases h
      by_cases ho : o = .cancelled
      · subst ho
        exact .inr ⟨i, t, _, _, some .cancelled, ht, hp, .aborted, rfl, rfl, rfl, rfl, rfl⟩
      · rw [if_neg ho]
        exact .inr ⟨i, t, _, _, some o, ht, hp, .left ho, rfl, rfl, rfl, rfl, rfl⟩
    · cases h
  | release i sleeper =>
    simp only [perform?, release?] at h
    split at h
    · rename_i hp
      obtain ⟨t, ht⟩ := htask hp
      cases sleeper with
      | none =>
        simp only [wake?] at h
        split at h
        · cases h
        · rename_i hnone
          cases h
          refine .inr ⟨i, t, _, _, none, ht, hp, .released (fun j hj => by cases hj) fun _ ha => ?_, rfl,
            rfl, rfl, rfl, rfl⟩
          obtain ⟨j, hj⟩ := List.getElem?_of_mem ha
          have hij : i ≠ j := by
            rintro rfl
            rw [hp] at hj
            cases hj
          refine hnone (List.contains_iff_mem.2 (List.mem_of_getElem? (i := j) ?_))
          simp only [setPhase]
          rw [List.getElem?_set_ne hij]
          exact hj
      | some j =>
        simp only [wake?] at h
        split at h
        · rename_i hj
          cases h
          refine .inr ⟨i, t, _, _, none, ht, hp, .released (fun j' hj' => ?_) (fun hs => by cases hs),
            rfl, rfl, rfl, rfl, rfl⟩
          cases hj'
          simp only [setPhase] at hj
          have hij : i ≠ j := by
            rintro rfl
            rw [List.getElem?_set_self (List.getElem?_eq_some_iff.1 hp).1] at hj
            cases hj
          rw [List.getElem?_set_ne hij] at hj
          exact hj
        · cases h
    · cases h
  | cancel =>
    cases h
    exact .inl ⟨rfl, rfl⟩

variable {i j : Nat} {t : Task} {p p' : Phase} {o : Option Outcome}

namespace Moved

theorem phases_length (h : d.Moved m d' i t p p' o) : d'.phases.length = d.phases.length := by
  rw [h.phases, wakes.eq_def]
  split <;> simp

theorem latches_length (h : d.Moved m d' i t p p' o) : d'.latches.length = d.latches.length := by
  rw [h.latches]
  cases o <;> simp

/-- Where the stage is after its turn. -/
theorem phases_self (h : d.Moved m d' i t p p' o) : d'.phases[i]? = some p' := by
  have hset : (d.phases.set i p')[i]? = some p' :=
    List.getElem?_set_self (List.getElem?_eq_some_iff.1 h.phase).1
  have hturn := h.turn
  rw [h.phases]
  cases hturn with
  | @released sleeper hs =>
    cases sleeper with
    | none => exact hset
    | some j =>
      -- the stage that is woken sleeps, and so is another one
      have hij : j ≠ i := by
        rintro rfl
        have hj := hs j rfl
        rw [h.phase] at hj
        cases hj
      exact (List.getElem?_set_ne hij).trans hset
  | _ => exact hset

/-- Other stages stay where they are, unless they are woken. -/
theorem phases_other (h : d.Moved m d' i t p p' o) (hij : i ≠ j) :
    d'.phases[j]? = d.phases[j]? ∨
      d.phases[j]? = some .asleep ∧ d'.phases[j]? = some .queued := by
  have hset : (d.phases.set i p')[j]? = d.phases[j]? := List.getElem?_set_ne hij
  have hturn := h.turn
  rw [h.phases]
  cases hturn with
  | @released sleeper hs =>
    cases sleeper with
    | none => exact .inl hset
    | some k =>
      by_cases hkj : k = j
      · subst hkj
        have hk : k < (d.phases.set i Phase.ended).length := by
          rw [List.length_set]
          exact (List.getElem?_eq_some_iff.1 (hs k rfl)).1
        exact .inr ⟨hs k rfl, List.getElem?_set_self hk⟩
      · exact .inl ((List.getElem?_set_ne hkj).trans hset)
  | _ => exact .inl hset

/-- What the stage has told after its turn. -/
theorem latches_self (h : d.Moved m d' i t p p' o) :
    d'.latches[i]? = d.latches[i]?.map fun l => o.elim l l.trigger := by
  rw [h.latches]
  cases o with
  | none => simp
  | some o => simp [List.getElem?_modify_eq]

theorem latches_other (h : d.Moved m d' i t p p' o) (hij : i ≠ j) :
    d'.latches[j]? = d.latches[j]? := by
  rw [h.latches]
  cases o with
  | none => rfl
  | some o => exact List.getElem?_modify_ne _ _ hij

/-- **What has been told stays told.** -/
theorem outcomeOf?_mono (h : d.Moved m d' i t p p' o) {id : NodeId} {x : Outcome}
    (hx : d.outcomeOf? id = some x) : d'.outcomeOf? id = some x := by
  simp only [outcomeOf?, Option.bind_eq_bind, Option.bind_eq_some_iff] at hx ⊢
  obtain ⟨j, hj, l, hl, hx⟩ := hx
  refine ⟨j, by rw [h.tasks]; exact hj, ?_⟩
  by_cases hij : i = j
  · subst hij
    rw [h.latches_self, hl]
    refine ⟨_, rfl, ?_⟩
    cases o with
    | none => exact hx
    | some o => simp [Latch.trigger, hx]
  · exact ⟨l, (h.latches_other hij).trans hl, hx⟩

end Moved

end Dispatch

end NodeShader
