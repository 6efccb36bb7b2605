import Mathlib.Data.Nat.Find
import NodeShader.Proofs.Evaluate.Safety

/-!
# How runs of stages end

A run is over once every stage has told its outcome and needs nothing more.  Until then some stage can
move: one that asks for a worker gets one or falls asleep, those that sleep are woken by one that has
a worker, and of those that wait the first waits for stages that are over.

An error is recorded before the stage tells of it, and the cancellation after, so once a run is over
the first error accounts for every stage that failed or was cancelled; and a stage is skipped only where
another one, before it, failed or was cancelled.

* `Dispatch.Turn.accounted`: a turn keeps what the stage has recorded in step with what it tells.
* `Dispatch.Awake.turn`: whoever sleeps is going to be woken.
* `Dispatch.Sound.canMove`: **no stage waits for ever.**
* `Dispatch.follow?_finishes`: **how runs end.**
-/

namespace NodeShader

/-! ### The texts of errors -/

theorem Text.length_hexOfBytes (bs : List UInt8) :
    (Text.hexOfBytes bs).toList.length = 2 * bs.length := by
  rw [Text.hexOfBytes, String.toList_ofList]
  induction bs with
  | nil => rfl
  | cons b bs ih =>
    simp only [List.flatMap_cons, List.length_append, List.length_cons, List.length_nil, ih]
    omega

theorem Uuid.length_text (u : Uuid) : (toString u).toList.length = 36 := by
  change u.text.toList.length = 36
  have hbytes : u.toBytes.length = 16 := u.bytes.size_toArray
  simp only [Uuid.text, String.intercalate_cons_cons, String.intercalate_singleton,
    String.toList_append, List.length_append, Text.length_hexOfBytes, List.length_drop,
    List.length_take, hbytes]
  decide

/-- The error of a runner does not read as that of a stage that was skipped: they differ right after
the stage. -/
theorem Dispatch.runnerError_ne (t : Task) (message : String) (x : DependencyError) :
    runnerError t message ≠ x.message := by
  intro h
  have h := congrArg String.toList h
  simp only [runnerError, DependencyError.message, String.toList_append, List.append_assoc] at h
  have h := (List.append_inj (List.append_cancel_left h) (by simp only [Uuid.length_text])).2
  have hparen : (toString " (").toList = [' ', '('] := by decide
  have hrun : (toString " not run: dependency ").toList =
      ' ' :: 'n' :: "ot run: dependency ".toList := by decide
  rw [hparen, hrun] at h
  simp at h

/-- Nor does the cancellation. -/
theorem Dispatch.cancellation_ne (x : DependencyError) : cancellation ≠ x.message := by
  intro h
  have h := congrArg String.toList h
  simp only [DependencyError.message, String.toList_append, List.append_assoc] at h
  have hcontext : cancellation.toList = 'c' :: "ontext canceled".toList := by decide
  have hstage : (toString "stage ").toList = 's' :: "tage ".toList := by decide
  rw [hcontext, hstage] at h
  simp at h

/-! ### Stages in order -/

/-- What an accepted stage depends on is listed before it. -/
theorem dependency_before {listed : List NodeId} {tasks : List Task}
    (h : checkTasks listed tasks = .ok ()) {i : Nat} {t : Task} (ht : tasks[i]? = some t)
    {dep : NodeId} (hdep : dep ∈ t.dependencies) :
    dep ∈ listed ∨ ∃ j < i, ∃ u, tasks[j]? = some u ∧ u.id = dep := by
  induction tasks generalizing listed i with
  | nil => cases ht
  | cons s rest ih =>
    rw [checkTasks] at h
    split at h
    · cases h
    · rename_i hlisted
      split at h
      · cases h
      · cases i with
        | zero =>
          cases ht
          have hin := List.find?_eq_none.1 hlisted dep hdep
          rw [Bool.not_eq_true', Bool.not_eq_false] at hin
          exact .inl (List.contains_iff_mem.1 hin)
        | succ i =>
          rcases ih h ht with hin | ⟨j, hj, u, hu, hid⟩
          · rcases List.mem_cons.1 hin with rfl | hin
            · exact .inr ⟨0, Nat.succ_pos i, s, rfl, rfl⟩
            · exact .inl hin
          · exact .inr ⟨j + 1, Nat.succ_lt_succ hj, u, hu, hid⟩

/-- The outcomes that a run does not pass over. -/
def Outcome.isError : Outcome → Bool
  | .failed _ | .cancelled => true
  | .succeeded | .skipped _ => false

theorem Task.failure_isSome_of_isError {t : Task} (h : t.outcome.isError = true) :
    t.failure.isSome = true := by
  cases hf : t.failure with
  | none =>
    rw [Task.outcome, hf] at h
    cases h
  | some message => rfl

namespace Dispatch

variable {d d' : Dispatch} {m : Move} {ms : List Move} {i j : Nat} {t u : Task} {p p' : Phase}
  {o told : Option Outcome} {tasks : List Task} {pool : Pool}

/-! ### What is recorded -/

/-- The error that a turn records. -/
def records (t : Task) : Move → Phase → Option String
  | .record _, .returned => t.failure.map (runnerError t)
  | .record _, .aborted => some cancellation
  | _, _ => none

/-- Only the first error is kept. -/
theorem Moved.firstError (h : d.Moved m d' i t p p' o) (hd : d.perform? m = some d') :
    d'.firstError = (records t m p).elim d.firstError d.firstError.trigger := by
  have htask := h.task
  have hphase := h.phase
  have hturn := h.turn
  cases hturn with
  | recorded | noted =>
    simp only [perform?, record?, htask, hphase, Option.some.injEq] at hd
    rw [← hd]
    rfl
  | passed | skipped | lapsed | ready =>
    simp only [perform?, advance?, htask, hphase] at hd
    split at hd
    · split at hd <;> cases hd <;> rfl
    · cases hd
      rfl
  | noticed =>
    simp only [perform?, notice?, htask, hphase] at hd
    split at hd <;> cases hd
    rfl
  | entered =>
    simp only [perform?, enter?, hphase] at hd
    obtain ⟨_, -, rfl⟩ := Option.map_eq_some_iff.1 hd
    rfl
  | slept hfull =>
    simp only [perform?, sleep?, hphase, if_pos hfull] at hd
    cases hd
    rfl
  | started | returned =>
    simp only [perform?, start?, finish?, hphase] at hd
    cases hd
    rfl
  | told | left | aborted =>
    simp only [perform?, tell?, htask, hphase] at hd
    cases hd
    rfl
  | @released sleeper =>
    simp only [perform?, release?, hphase] at hd
    cases sleeper with
    | none =>
      simp only [wake?] at hd
      split at hd <;> cases hd
      rfl
    | some j =>
      simp only [wake?] at hd
      split at hd <;> cases hd
      rfl

theorem Latch.isTriggered_elim {α : Type} {l : Latch α} {a : Option α} (h : l.isTriggered = true) :
    (a.elim l l.trigger).isTriggered = true := by
  cases a with
  | none => exact h
  | some a => rfl

/-- **What a stage has recorded**, by its phase and by what it has told: its error before it tells of
it, the cancellation after. -/
def Accounted (d : Dispatch) (t : Task) : Phase → Option Outcome → Prop
  | .aborted, o => d.cancelled = true ∧ o = some .cancelled
  | .recorded, _ => t.failure.isSome = true → d.firstError.isTriggered = true
  | .settled, o | .ended, o => ∀ x, o = some x → x.isError = true → d.firstError.isTriggered = true
  | _, _ => True

/-- **What is recorded stays recorded.** -/
theorem Accounted.frame (h : d.Accounted t p o) (hc : d'.cancelled = d.cancelled)
    (hf : d.firstError.isTriggered = true → d'.firstError.isTriggered = true) :
    d'.Accounted t p o := by
  cases p with
  | aborted => exact ⟨hc.trans h.1, h.2⟩
  | recorded => exact fun hs => hf (h hs)
  | settled | ended => exact fun x hx he => hf (h x hx he)
  | _ => trivial

/-- **A turn records what it has to.** -/
theorem Turn.accounted (hturn : d.Turn t i m p p' told) (hs : d.Stands ms i t p o)
    (h : d.Accounted t p o) (hc : d'.cancelled = d.cancelled)
    (hf : d'.firstError = (records t m p).elim d.firstError d.firstError.trigger) :
    d'.Accounted t p' (told.elim o fun x => some (o.getD x)) := by
  cases hturn with
  | recorded =>
    intro hsome
    obtain ⟨message, hm⟩ := Option.isSome_iff_exists.1 hsome
    rw [hf, records, hm]
    rfl
  | told =>
    obtain ⟨rfl, -⟩ := hs
    rintro x hx he
    cases hx
    rw [hf]
    exact h (Task.failure_isSome_of_isError he)
  | left hne =>
    obtain ⟨rfl, -, he⟩ := hs
    rintro x hx herr
    cases hx
    -- a stage that leaves is skipped
    cases he with
    | cancelled => exact absurd rfl hne
    | skipped => cases herr
  | aborted =>
    obtain ⟨rfl, -, he⟩ := hs
    cases he with
    | cancelled hcancelled => exact ⟨hc.trans hcancelled, rfl⟩
  | noted =>
    intro x hx he
    rw [hf]
    rfl
  | released =>
    intro x hx he
    rw [hf]
    exact h x hx he
  | _ => trivial

/-- **Where the first error comes from.** -/
inductive Origin (tasks : List Task) (ms : List Move) (d : Dispatch) : String → Prop
  /-- The runner of a stage has returned it. -/
  | runner {i : Nat} {t : Task} {message : String} : tasks[i]? = some t →
    t.failure = some message → .finish i ∈ ms → Origin tasks ms d (runnerError t message)
  /-- A stage has noticed the cancellation. -/
  | cancelled {i : Nat} : d.cancelled = true → d.latches[i]? = some ⟨some .cancelled⟩ →
    Origin tasks ms d cancellation

/-- **What is recorded after some moves.** -/
structure Reported (tasks : List Task) (ms : List Move) (d : Dispatch) : Prop where
  accounted : ∀ (i : Nat) (t : Task) (p : Phase) (l : Latch Outcome), tasks[i]? = some t →
    d.phases[i]? = some p → d.latches[i]? = some l → d.Accounted t p l.value
  origin : ∀ e, d.firstError.value = some e → d.Origin tasks ms e

/-- A latch that is triggered stays as it is. -/
theorem Moved.latches_mono (h : d.Moved m d' i t p p' told) {x : Outcome}
    (hx : d.latches[j]? = some ⟨some x⟩) : d'.latches[j]? = some ⟨some x⟩ := by
  by_cases hij : i = j
  · subst hij
    rw [h.latches_self, hx]
    cases told <;> rfl
  · rw [h.latches_other hij, hx]

theorem Origin.step {e : String} (h : d.Origin tasks ms e) (hm : d.Moved m d' i t p p' told) :
    d'.Origin tasks (ms ++ [m]) e := by
  cases h with
  | runner ht hf hfin => exact .runner ht hf (List.mem_append_left _ hfin)
  | cancelled hc hl => exact .cancelled (hm.cancelled.trans hc) (hm.latches_mono hl)

/-- **The error that a turn records** is that of its stage. -/
theorem Sound.origin (h : d.Sound tasks pool ms) (hr : d.Reported tasks ms)
    (hm : d.Moved m d' i t p p' told) {e : String} (he : records t m p = some e) :
    d.Origin tasks ms e := by
  have ht : tasks[i]? = some t := h.listed ▸ hm.task
  obtain ⟨_, ⟨o⟩, -, hl⟩ := h.exists_phase ht
  have hs := h.stands i t p _ ht hm.phase hl
  have ha := hr.accounted i t p _ ht hm.phase hl
  have hturn := hm.turn
  cases hturn with
  | recorded =>
    obtain ⟨message, hf, rfl⟩ := Option.map_eq_some_iff.1 he
    exact .runner ht hf hs.2.1.finish
  | noted =>
    obtain ⟨hc, rfl⟩ := ha
    cases he
    exact .cancelled hc hl
  | _ => cases he

theorem reported_new (tasks : List Task) (pool : Pool) (cancelled : Bool) :
    (new tasks pool cancelled).Reported tasks [] where
  accounted := by
    intro i t p l ht hp hl
    simp only [new, List.getElem?_map, ht, Option.map_some, Option.some.injEq] at hp
    subst hp
    trivial
  origin := fun e he => by cases he

/-- **It is recorded after one more move.** -/
theorem Reported.step (hr : d.Reported tasks ms) (h : d.Sound tasks pool ms)
    (hd : d.perform? m = some d') : d'.Reported tasks (ms ++ [m]) := by
  rcases moved_of_perform? hd (h.phases_length.trans (congrArg _ h.listed.symm)) with
    ⟨rfl, rfl⟩ | ⟨i, t, p, p', told, hm⟩
  · refine ⟨fun i t p l ht hp hl => ?_, fun e he => ?_⟩
    · have ha := hr.accounted i t p l ht hp hl
      cases p with
      | aborted => exact ⟨rfl, ha.2⟩
      | _ => exact ha
    · cases hr.origin e he with
      | runner ht hf hfin => exact .runner ht hf (List.mem_append_left _ hfin)
      | cancelled _ hl => exact .cancelled rfl hl
  · have hfirst := hm.firstError hd
    refine ⟨fun j u q l hu hq hl => ?_, fun e he => ?_⟩
    · have hkeeps : d.firstError.isTriggered = true → d'.firstError.isTriggered = true :=
        fun htrig => hfirst ▸ Latch.isTriggered_elim htrig
      by_cases hij : i = j
      · subst hij
        have htu : t = u := by
          have ht := hm.task
          rw [h.listed, hu] at ht
          exact (Option.some.inj ht).symm
        subst htu
        rw [hm.phases_self] at hq
        cases hq
        rw [hm.latches_self] at hl
        obtain ⟨l', hl', rfl⟩ := Option.map_eq_some_iff.1 hl
        have hstep := hm.turn.accounted (h.stands i t p l' hu hm.phase hl')
          (hr.accounted i t p l' hu hm.phase hl') hm.cancelled hfirst
        cases told with
        | none => exact hstep
        | some x => exact hstep
      · rw [hm.latches_other hij] at hl
        rcases hm.phases_other hij with hsame | ⟨-, hwoken⟩
        · rw [hsame] at hq
          exact (hr.accounted j u q l hu hq hl).frame hm.cancelled hkeeps
        · rw [hwoken] at hq
          cases hq
          trivial
    · rw [hfirst] at he
      cases hrec : records t m p with
      | none =>
        rw [hrec] at he
        exact (hr.origin e he).step hm
      | some x =>
        rw [hrec] at he
        cases hold : d.firstError.value with
        | none =>
          have hx : x = e := by simpa [Latch.trigger, hold] using he
          exact hx ▸ (h.origin hr hm hrec).step hm
        | some y =>
          have hy : y = e := by simpa [Latch.trigger, hold] using he
          exact hy ▸ (hr.origin y hold).step hm

/-! ### Who sleeps is woken -/

/-- **Some stage is going to wake those that sleep**: it has a worker, or asks for one of them. -/
structure Awake (d : Dispatch) : Prop where
  workers : ∀ n, d.pool.capacity = some n → 0 < n
  wakes : .asleep ∈ d.phases → ∃ p ∈ d.phases, p.isBusy = true ∨ p = .queued

/-- **A turn lets nobody sleep for ever.** -/
theorem Awake.turn (hw : d.Awake) (h : d.Sound tasks pool ms) (hm : d.Moved m d' i t p p' told) :
    d'.Awake := by
  refine ⟨fun n hn => hw.workers n ?_, fun hasleep => ?_⟩
  · rw [hm.pool] at hn
    cases m <;> exact hn
  have hself : p' ∈ d'.phases := List.mem_of_getElem? hm.phases_self
  -- what another stage does, it still does
  have hother : ∀ {q : Phase} {j : Nat}, d.phases[j]? = some q → i ≠ j → q ≠ .asleep →
      q ∈ d'.phases := by
    intro q j hq hij hne
    rcases hm.phases_other hij with hsame | ⟨hwas, -⟩
    · exact List.mem_of_getElem? (hsame.trans hq)
    · rw [hq] at hwas
      exact absurd (Option.some.inj hwas) hne
  have hold : (.asleep : Phase) ∈ d.phases → p.isBusy = false → p ≠ .queued →
      ∃ p ∈ d'.phases, p.isBusy = true ∨ p = .queued := by
    intro hin hbusy hqueued
    obtain ⟨q, hq, hqq⟩ := hw.wakes hin
    obtain ⟨j, hj⟩ := List.getElem?_of_mem hq
    have hij : i ≠ j := by
      rintro rfl
      rw [hm.phase] at hj
      cases hj
      rcases hqq with hb | hb
      · rw [hbusy] at hb
        cases hb
      · exact hqueued hb
    refine ⟨q, hother hj hij ?_, hqq⟩
    rintro rfl
    rcases hqq with hb | hb <;> cases hb
  have hbefore : p' ≠ .asleep → (.asleep : Phase) ∈ d.phases := by
    intro hne
    obtain ⟨j, hj⟩ := List.getElem?_of_mem hasleep
    have hij : i ≠ j := by
      rintro rfl
      rw [hm.phases_self] at hj
      exact hne (Option.some.inj hj)
    rcases hm.phases_other hij with hsame | ⟨hwas, -⟩
    · exact List.mem_of_getElem? (hsame.symm.trans hj)
    · exact List.mem_of_getElem? hwas
  have hturn := hm.turn
  cases hturn with
  | entered | started | returned | recorded | told => exact ⟨_, hself, .inl rfl⟩
  | ready => exact ⟨_, hself, .inr rfl⟩
  | slept hfull =>
    -- all workers are taken, and there is one
    rw [Pool.isFull, Option.any_eq_true] at hfull
    obtain ⟨n, hn, hle⟩ := hfull
    have hpos : 0 < d.phases.countP Phase.isBusy := by
      rw [← h.busy]
      exact Nat.lt_of_lt_of_le (hw.workers n hn) (of_decide_eq_true hle)
    obtain ⟨q, hq, hbusy⟩ := List.countP_pos_iff.1 hpos
    obtain ⟨j, hj⟩ := List.getElem?_of_mem hq
    refine ⟨q, hother hj ?_ ?_, .inl hbusy⟩
    · rintro rfl
      rw [hm.phase] at hj
      cases hj
      cases hbusy
    · rintro rfl
      cases hbusy
  | @released sleeper hs hnone =>
    cases sleeper with
    | none => exact absurd (hbefore (by simp)) (hnone rfl)
    | some k =>
      have hk : k < (d.phases.set i Phase.ended).length := by
        rw [List.length_set]
        exact (List.getElem?_eq_some_iff.1 (hs k rfl)).1
      refine ⟨.queued, List.mem_of_getElem? (i := k) ?_, .inr rfl⟩
      rw [hm.phases]
      exact List.getElem?_set_self hk
  | _ => exact hold (hbefore (by simp)) rfl (by simp)

/-! ### Some stage can move -/

/-- **Some stage can move**, whether or not the run is cancelled. -/
def CanMove (d : Dispatch) : Prop := ∃ m, m ≠ .cancel ∧ (d.perform? m).isSome = true

/-- A stage that neither waits nor sleeps can move. -/
theorem canMove_of_phase (hi : i < d.tasks.length) (hp : d.phases[i]? = some p)
    (hwaiting : ∀ k, p ≠ .waiting k) (hasleep : p ≠ .asleep) (hended : p ≠ .ended) : d.CanMove := by
  have ht := List.getElem?_eq_getElem hi
  cases p with
  | waiting k => exact absurd rfl (hwaiting k)
  | asleep => exact absurd rfl hasleep
  | ended => exact absurd rfl hended
  | leaving | recorded =>
    exact ⟨.tell i, by simp, by simp only [perform?, tell?, ht, hp, Option.isSome_some]⟩
  | aborted | returned =>
    exact ⟨.record i, by simp, by simp only [perform?, record?, ht, hp, Option.isSome_some]⟩
  | queued =>
    by_cases hfull : d.pool.isFull = true
    · exact ⟨.sleep i, by simp, by simp only [perform?, sleep?, hp, if_pos hfull, Option.isSome_some]⟩
    · refine ⟨.enter i, by simp, ?_⟩
      simp only [perform?, enter?, hp, Pool.start?, if_neg hfull, Option.map_some, Option.isSome_some]
  | admitted => exact ⟨.start i, by simp, by simp only [perform?, start?, hp, Option.isSome_some]⟩
  | running => exact ⟨.finish i, by simp, by simp only [perform?, finish?, hp, Option.isSome_some]⟩
  | settled =>
    by_cases hsome : (.asleep : Phase) ∈ d.phases
    · obtain ⟨j, hj⟩ := List.getElem?_of_mem hsome
      have hij : i ≠ j := by
        rintro rfl
        rw [hp] at hj
        cases hj
      refine ⟨.release i (some j), by simp, ?_⟩
      have hset : ({ d.setPhase i .ended with pool := d.pool.release } : Dispatch).phases[j]? =
          some .asleep := (List.getElem?_set_ne hij).trans hj
      simp only [perform?, release?, hp]
      rw [wake?, if_pos hset, Option.isSome_some]
    · refine ⟨.release i none, by simp, ?_⟩
      have hnone : (d.phases.set i .ended).contains .asleep = false := by
        rw [List.contains_eq_mem, decide_eq_false_iff_not]
        intro hin
        rcases List.mem_or_eq_of_mem_set hin with hin | hin
        · exact hsome hin
        · cases hin
      simp only [perform?, release?, hp, wake?, setPhase, hnone, Bool.false_eq_true, if_false,
        Option.isSome_some]

/-- A stage that waits for one that has told its outcome can move. -/
theorem canMove_of_waiting {k : Nat} (ht : d.tasks[i]? = some t) (hp : d.phases[i]? = some (.waiting k))
    (htold : ∀ dep, t.dependencies[k]? = some dep → ∃ x, d.outcomeOf? dep = some x) :
    d.CanMove := by
  refine ⟨.advance i, by simp, ?_⟩
  rw [perform?, advance?, ht, hp]
  dsimp only
  split
  · rename_i dep hdep
    obtain ⟨x, hx⟩ := htold dep hdep
    rw [hx]
    cases x <;> rfl
  · rfl

namespace Sound

variable (h : d.Sound tasks pool ms)
include h

/-- What the stage of an identity has told, by its place. -/
theorem outcomeOf?_of_latch (hids : (tasks.map (·.id)).Nodup) (hu : tasks[j]? = some u) {x : Outcome}
    (hl : d.latches[j]? = some ⟨some x⟩) : d.outcomeOf? u.id = some x := by
  obtain ⟨hj, hget⟩ := List.getElem?_eq_some_iff.1 hu
  have hfind : tasks.findIdx? (·.id == u.id) = some j := by
    refine List.findIdx?_eq_some_iff_getElem.2 ⟨hj, by simp [hget], fun k hk => ?_⟩
    rw [Bool.not_eq_true, beq_eq_false_iff_ne]
    intro heq
    have hk' : k < (tasks.map (·.id)).length := by
      rw [List.length_map]
      omega
    have hkj : k = j := (List.getElem?_inj hk' hids).1 (by
      rw [List.getElem?_map, List.getElem?_map, hu, List.getElem?_eq_getElem (by omega)]
      simp [heq])
    omega
  rw [outcomeOf?, h.listed, hfind]
  simp [hl]

/-- **A stage that is over has told its outcome.** -/
theorem told_of_over (ht : tasks[i]? = some t)
    (hp : d.phases[i]? = some .ended ∨ d.phases[i]? = some .settled) : ∃ x,
      d.latches[i]? = some ⟨some x⟩ ∧ (d.Left ms i t (some x) ∨ d.Settled ms i t (some x)) := by
  obtain ⟨_, ⟨o⟩, -, hl⟩ := h.exists_phase ht
  rcases hp with hp | hp
  · have hs := h.stands i t _ _ ht hp hl
    rcases hs with hs | hs
    · obtain ⟨hf, x, rfl, he⟩ := hs
      exact ⟨x, hl, .inl ⟨hf, x, rfl, he⟩⟩
    · obtain ⟨rfl, hran⟩ := hs
      exact ⟨_, hl, .inr ⟨rfl, hran⟩⟩
  · obtain ⟨rfl, hran⟩ := h.stands i t _ _ ht hp hl
    exact ⟨_, hl, .inr ⟨rfl, hran⟩⟩

/-- **No stage waits for ever**: as long as one of them has not ended, one of them can move. -/
theorem canMove (hok : checkTasks [] tasks = .ok ()) (hw : d.Awake)
    (hp : ∃ p ∈ d.phases, p ≠ .ended) : d.CanMove := by
  have hlt : ∀ {i : Nat} {p : Phase}, d.phases[i]? = some p → i < d.tasks.length := fun hi => by
    rw [h.listed, ← h.phases_length]
    exact (List.getElem?_eq_some_iff.1 hi).1
  by_cases hfree : ∃ p ∈ d.phases, (∀ k, p ≠ Phase.waiting k) ∧ p ≠ .asleep ∧ p ≠ .ended
  · obtain ⟨p, hin, hne⟩ := hfree
    obtain ⟨i, hi⟩ := List.getElem?_of_mem hin
    exact canMove_of_phase (hlt hi) hi hne.1 hne.2.1 hne.2.2
  · push Not at hfree
    -- whoever sleeps is woken by one that can move
    have hawake : (.asleep : Phase) ∉ d.phases := by
      intro hin
      obtain ⟨q, hq, hbusy⟩ := hw.wakes hin
      have hnot : (∀ k, q ≠ Phase.waiting k) ∧ q ≠ .asleep ∧ q ≠ .ended := by
        rcases hbusy with hbusy | rfl
        · cases q with
          | admitted | running | returned | recorded | settled => exact ⟨nofun, nofun, nofun⟩
          | _ => cases hbusy
        · exact ⟨nofun, nofun, nofun⟩
      exact hnot.2.2 (hfree q hq hnot.1 hnot.2.1)
    -- of those that wait, the first can move
    have hfirst : ∃ i : Nat, ∃ k, d.phases[i]? = some (Phase.waiting k) := by
      obtain ⟨p, hin, hne⟩ := hp
      obtain ⟨i, hi⟩ := List.getElem?_of_mem hin
      by_cases hk : ∃ k, p = Phase.waiting k
      · obtain ⟨k, rfl⟩ := hk
        exact ⟨i, k, hi⟩
      · push Not at hk
        exact absurd (hfree p hin hk fun heq => hawake (heq ▸ hin)) hne
    classical
    obtain ⟨k, hk⟩ := Nat.find_spec hfirst
    obtain ⟨t, ht⟩ : ∃ t, d.tasks[Nat.find hfirst]? = some t :=
      ⟨_, List.getElem?_eq_getElem (hlt hk)⟩
    refine canMove_of_waiting ht hk fun dep hdep => ?_
    rw [h.listed] at ht
    obtain ⟨j, hj, u, hu, rfl⟩ := (dependency_before hok ht
      (List.mem_of_getElem? hdep)).resolve_left List.not_mem_nil
    obtain ⟨q, l, hq, -⟩ := h.exists_phase hu
    have hended : q = .ended :=
      hfree q (List.mem_of_getElem? hq) (fun k heq => Nat.find_min hfirst hj ⟨k, heq ▸ hq⟩)
        fun heq => hawake (heq ▸ List.mem_of_getElem? hq)
    subst hended
    obtain ⟨x, hx, -⟩ := h.told_of_over hu (.inl hq)
    exact ⟨x, h.outcomeOf?_of_latch (nodup_of_checkTasks hok).1 hu hx⟩

end Sound

/-! ### Runs that are over -/

/-- **A run is over** once every stage has told its outcome and needs nothing more; a worker may not be
free yet. -/
def Over (d : Dispatch) : Prop := ∀ p ∈ d.phases, p = .ended ∨ p = .settled

namespace Sound

variable (h : d.Sound tasks pool ms) (hover : d.Over)
include h hover

/-- Every stage of a run that is over was run, or has told why not. -/
theorem tells (ht : tasks[i]? = some t) : ∃ x, d.latches[i]? = some ⟨some x⟩ ∧
    (d.Left ms i t (some x) ∨ d.Settled ms i t (some x)) := by
  obtain ⟨p, l, hp, -⟩ := h.exists_phase ht
  rcases hover p (List.mem_of_getElem? hp) with rfl | rfl
  · exact h.told_of_over ht (.inl hp)
  · exact h.told_of_over ht (.inr hp)

/-- **An outcome that is an error is reported.** -/
theorem triggered (hr : d.Reported tasks ms) (ht : tasks[i]? = some t) {x : Outcome}
    (hl : d.latches[i]? = some ⟨some x⟩) (he : x.isError = true) :
    d.firstError.isTriggered = true := by
  obtain ⟨p, l, hp, -⟩ := h.exists_phase ht
  have ha := hr.accounted i t p _ ht hp hl
  rcases hover p (List.mem_of_getElem? hp) with rfl | rfl
  · exact ha x rfl he
  · exact ha x rfl he

/-- **Why a stage was not run**: it was cancelled, or one that is listed before it has not succeeded. -/
theorem left_cases (hok : checkTasks [] tasks = .ok ()) (ht : tasks[i]? = some t) {x : Outcome}
    (hl : d.Left ms i t (some x)) : (x = .cancelled ∧ d.cancelled = true) ∨
      ∃ j < i, DependsOn tasks i j ∧ ∃ y, d.latches[j]? = some ⟨some y⟩ ∧ y ≠ .succeeded := by
  obtain ⟨-, y, hy, he⟩ := hl
  obtain rfl := Option.some.inj hy
  cases he with
  | cancelled hc => exact .inl ⟨rfl, hc⟩
  | @skipped dep o hdep ho hne =>
    obtain ⟨j, hj, u, hu, rfl⟩ := (dependency_before hok ht hdep).resolve_left List.not_mem_nil
    obtain ⟨y, hy, -⟩ := h.tells hover hu
    have ho' := h.outcomeOf?_of_latch (nodup_of_checkTasks hok).1 hu hy
    rw [ho] at ho'
    exact .inr ⟨j, hj, ⟨t, u, ht, hu, hdep⟩, y, hy, Option.some.inj ho' ▸ hne⟩

/-- **Where nothing is reported, every stage has succeeded.** -/
theorem succeeded (hok : checkTasks [] tasks = .ok ()) (hr : d.Reported tasks ms)
    (hnone : d.firstError.value = none) (ht : tasks[i]? = some t) :
    d.latches[i]? = some ⟨some .succeeded⟩ := by
  have hquiet : ¬ d.firstError.isTriggered = true := by
    rw [Latch.isTriggered, hnone]
    exact nofun
  induction i using Nat.strong_induction_on generalizing t with
  | _ i ih =>
  obtain ⟨x, hx, hleft | ⟨ho, -⟩⟩ := h.tells hover ht
  · rcases h.left_cases hover hok ht hleft with ⟨rfl, -⟩ | ⟨j, hj, ⟨_, u, -, hu, -⟩, y, hy, hne⟩
    · exact absurd (h.triggered hover hr ht hx rfl) hquiet
    · rw [ih j hj hu] at hy
      cases hy
      exact absurd rfl hne
  · cases hf : t.failure with
    | none =>
      rw [hx, Option.some.inj ho, Task.outcome, hf]
      rfl
    | some message =>
      refine absurd (h.triggered hover hr ht hx ?_) hquiet
      rw [Option.some.inj ho, Task.outcome, hf]
      rfl

/-- **Without a cancellation, a stage is run unless something it depends on failed**, near or far. -/
theorem ran_of_not_failed (hok : checkTasks [] tasks = .ok ()) (hc : d.cancelled = false)
    (ht : tasks[i]? = some t)
    (hdeps : ∀ j, Relation.TransGen (DependsOn tasks) i j → ¬ d.Failed ms j) : Ran ms i := by
  induction i using Nat.strong_induction_on generalizing t with
  | _ i ih =>
  obtain ⟨x, hx, hleft | ⟨-, hran, -⟩⟩ := h.tells hover ht
  · rcases h.left_cases hover hok ht hleft with ⟨-, hcancelled⟩ | ⟨j, hj, hdep, y, hy, hne⟩
    · rw [hc] at hcancelled
      cases hcancelled
    · -- the dependency was run, so it failed
      obtain ⟨_, u, -, hu, -⟩ := id hdep
      have hran := ih j hj hu fun k hk => hdeps k (.head hdep hk)
      obtain ⟨z, hz, hleft | ⟨ho, -⟩⟩ := h.tells hover hu
      · exact absurd hran.finish hleft.1.finish
      · rw [hy] at hz
        cases hz
        cases hf : u.failure with
        | none =>
          rw [Task.outcome, hf] at ho
          exact absurd (Option.some.inj ho) hne
        | some message =>
          exact absurd ⟨hran.finish, u, message, h.listed ▸ hu, hf⟩ (hdeps j (.single hdep))
  · exact hran

end Sound

/-! ### Every run -/

/-- **What holds after every run.** -/
theorem Reported.follow? {ms' : List Move} (hr : d.Reported tasks ms) (hw : d.Awake)
    (h : d.Sound tasks pool ms) (hd : d.follow? ms' = some d') :
    d'.Reported tasks (ms ++ ms') ∧ d'.Awake ∧
      (d'.cancelled = true ↔ d.cancelled = true ∨ .cancel ∈ ms') := by
  induction ms' generalizing d ms with
  | nil =>
    cases hd
    rw [List.append_nil]
    exact ⟨hr, hw, by simp⟩
  | cons m ms' ih =>
    rw [Dispatch.follow?, List.foldlM_cons] at hd
    obtain ⟨d₁, h₁, hd⟩ := Option.bind_eq_some_iff.1 hd
    have hstep : d₁.Awake ∧ (d₁.cancelled = true ↔ d.cancelled = true ∨ .cancel = m) := by
      rcases moved_of_perform? h₁ (h.phases_length.trans (congrArg _ h.listed.symm)) with
        ⟨rfl, rfl⟩ | ⟨i, t, p, p', told, hm⟩
      · exact ⟨⟨hw.workers, hw.wakes⟩, by simp⟩
      · refine ⟨hw.turn h hm, ?_⟩
        have hne : .cancel ≠ m := by
          rintro rfl
          cases hm.turn
        simp [hm.cancelled, hne]
    obtain ⟨hreported, hawake, hcancelled⟩ := ih (hr.step h h₁) hstep.1 (h.step h₁) hd
    rw [List.append_cons]
    exact ⟨hreported, hawake, hcancelled.trans (by rw [hstep.2, List.mem_cons, or_assoc])⟩

/-- **How runs of stages end**, whatever order things happen in, if there is a worker.  As long as a
stage has not ended, some stage can move.  Once all are over, nothing is reported if and only if every
stage was run and its runner returned without an error; what is reported is the error of a runner, with
the stage it belongs to, or the cancellation, and never that a dependency failed; and without a
cancellation every stage was run of which nothing that it depends on, near or far, failed. -/
theorem follow?_finishes (hok : checkTasks [] tasks = .ok ()) {processors : Nat} {limit : PoolLimit}
    {cancelled : Bool} (hlimit : ∀ n, limit.capacity? processors = some n → 0 < n)
    (h : (new tasks (.new processors limit) cancelled).follow? ms = some d) :
    ((∃ p ∈ d.phases, p ≠ .ended) → d.CanMove) ∧
      (d.Over →
        (d.firstError.value = none ↔
          ∀ i t, tasks[i]? = some t → Ran ms i ∧ t.failure = none) ∧
        (∀ e, d.firstError.value = some e →
          ((∃ i t message, tasks[i]? = some t ∧ Ran ms i ∧ t.failure = some message ∧
              e = runnerError t message) ∨
            (cancelled = true ∨ .cancel ∈ ms) ∧ e = cancellation) ∧
          ∀ x : DependencyError, e ≠ x.message) ∧
        (cancelled = false → .cancel ∉ ms → ∀ i < tasks.length,
          (∀ j, Relation.TransGen (DependsOn tasks) i j → ¬ d.Failed ms j) → Ran ms i)) := by
  have hnew := sound_new tasks processors limit cancelled
  have hd : d.Sound tasks (.new processors limit) ms := hnew.follow? h
  have hasleep : (new tasks (.new processors limit) cancelled).Awake := by
    refine ⟨hlimit, fun hin => ?_⟩
    obtain ⟨_, -, heq⟩ := List.mem_map.1 hin
    cases heq
  obtain ⟨hr, hw, hcancel⟩ := (reported_new tasks _ cancelled).follow? hasleep hnew h
  refine ⟨hd.canMove hok hw, fun hover =>
    ⟨⟨fun hnone i t ht => ?_, fun hall => ?_⟩, fun e he => ?_, ?_⟩⟩
  · have hran := hd.ran_of_told ht (hd.succeeded hover hok hr hnone ht)
    exact ⟨hran.2, hran.1⟩
  · cases he : d.firstError.value with
    | none => rfl
    | some e =>
      cases hr.origin e he with
      | runner ht hf _ =>
        rw [(hall _ _ ht).2] at hf
        cases hf
      | @cancelled i _ hl =>
        -- a stage that was run has told what its runner ended with
        have hi : i < tasks.length := hd.latches_length ▸ (List.getElem?_eq_some_iff.1 hl).1
        have ht := List.getElem?_eq_getElem hi
        obtain ⟨hran, hf⟩ := hall i _ ht
        obtain ⟨x, hx, hleft | ⟨ho, -⟩⟩ := hd.tells hover ht
        · exact absurd hran.finish hleft.1.finish
        · rw [hl] at hx
          cases hx
          rw [Task.outcome, hf] at ho
          cases ho
  · cases hr.origin e he with
    | @runner i t message ht hf hfin =>
      refine ⟨.inl ⟨i, t, message, ht, ?_, hf, rfl⟩, runnerError_ne t message⟩
      obtain ⟨x, -, hleft | ⟨-, hran, -⟩⟩ := hd.tells hover ht
      · exact absurd hfin hleft.1.finish
      · exact hran
    | cancelled hc _ => exact ⟨.inr ⟨hcancel.1 hc, rfl⟩, cancellation_ne⟩
  · intro hc hm i hi hdeps
    have hnot : d.cancelled = false := by
      rw [← Bool.not_eq_true, hcancel, hc]
      simp [hm, new]
    exact hd.ran_of_not_failed hover hok hnot (List.getElem?_eq_getElem hi) hdeps

end Dispatch

theorem ChainExample.final_phases :
    final?.map (·.phases) = some [.ended, .settled, .ended] := by
  decide +kernel

/-- The run of three stages is over when the third is skipped: the first was run, an error of a runner
is reported, and the worker of the second stage becomes free. -/
theorem Dispatch.follow?_finishes_chain : ∃ d, ChainExample.final? = some d ∧ d.Over ∧ d.CanMove ∧
    Ran ChainExample.moves 0 ∧ ∃ (i : Nat) (t : Task) (message : String),
      ChainExample.tasks[i]? = some t ∧ d.firstError.value = some (runnerError t message) := by
  obtain ⟨d, hd, hphases⟩ := Option.map_eq_some_iff.1 ChainExample.final_phases
  obtain ⟨hmove, hends⟩ := follow?_finishes (by decide +kernel) (by decide) hd
  have hover : d.Over := by
    rw [Over, hphases]
    decide
  obtain ⟨hnone, hsome, hran⟩ := hends hover
  refine ⟨d, hd, hover, hmove (by rw [hphases]; decide), ?_, ?_⟩
  · refine hran rfl (by decide) 0 (by decide) fun j hj => ?_
    -- the first stage depends on nothing
    obtain ⟨k, ⟨t, u, ht, -, hdep⟩, -⟩ := Relation.TransGen.head'_iff.1 hj
    cases ht
    cases hdep
  · cases he : d.firstError.value with
    | none => cases ((hnone.1 he) 1 _ rfl).2
    | some e =>
      obtain ⟨⟨i, t, message, ht, -, -, rfl⟩ | ⟨hcancel, -⟩, -⟩ := hsome e he
      · exact ⟨i, t, message, ht, rfl⟩
      · rcases hcancel with hcancel | hcancel
        · cases hcancel
        · exact absurd hcancel (by decide)

end NodeShader
