import Mathlib.Data.List.Nodup
import Mathlib.Logic.Relation
import NodeShader.Proofs.Evaluate.Turns

/-!
# What holds in every run of stages

A run is any list of moves, so what is shown here holds for every order in which stages, workers and
latches take their turns, for whatever the runners return, and for a cancellation at any time.

The invariant says of each stage how its phase goes with what it has told and with the moves so far
(`Dispatch.Stands`): a stage asks for a worker only once all its dependencies have told that they
succeeded, and it tells so itself only after its runner has returned without an error.

* `Dispatch.Stands.step`: a turn keeps that of the stage whose turn it is, `Dispatch.Stands.frame` that
  of the others.
* `Dispatch.Sound.step`, `Dispatch.Sound.follow?`: so it holds after every move, and after every run.
* `Dispatch.follow?_safe`: **dispatch is safe**.
-/

namespace NodeShader

/-- **One stage depends on another**, both given by their places. -/
def DependsOn (tasks : List Task) (i j : Nat) : Prop :=
  ∃ t u, tasks[i]? = some t ∧ tasks[j]? = some u ∧ u.id ∈ t.dependencies

/-- Accepted stages have different identities. -/
theorem nodup_of_checkTasks {tasks : List Task} {listed : List NodeId}
    (h : checkTasks listed tasks = .ok ()) :
    (tasks.map (·.id)).Nodup ∧ ∀ t ∈ tasks, t.id ∉ listed := by
  induction tasks generalizing listed with
  | nil => exact ⟨List.nodup_nil, fun t ht => absurd ht List.not_mem_nil⟩
  | cons t rest ih =>
    rw [checkTasks] at h
    split at h
    · cases h
    · split at h
      · cases h
      · rename_i hnew
        obtain ⟨hnodup, hrest⟩ := ih h
        have hnew : t.id ∉ listed := fun hin => hnew (List.contains_iff_mem.2 hin)
        rw [List.map_cons, List.nodup_cons, List.mem_map]
        refine ⟨⟨?_, hnodup⟩, ?_⟩
        · rintro ⟨u, hu, heq⟩
          exact hrest u hu (heq ▸ List.mem_cons_self)
        · intro u hu
          rcases List.mem_cons.1 hu with rfl | hu
          · exact hnew
          · exact fun hin => hrest u hu (List.mem_cons_of_mem _ hin)

/-- The move is neither the start nor the return of the runner of a stage. -/
structure Move.Spares (m : Move) (i : Nat) : Prop where
  start : m ≠ .start i
  finish : m ≠ .finish i

namespace Dispatch

variable {d d' : Dispatch} {m : Move} {ms : List Move} {i j : Nat} {t u : Task} {p p' : Phase}
  {o : Option Outcome}

/-! ### Where a stage stands -/

/-- All these dependencies have told that they succeeded. -/
def Passed (d : Dispatch) (dependencies : List NodeId) : Prop :=
  ∀ dep ∈ dependencies, d.outcomeOf? dep = some .succeeded

/-- Why a stage is not run: it is cancelled, or one of its dependencies has not succeeded. -/
inductive Excused (d : Dispatch) (t : Task) : Outcome → Prop
  | cancelled : d.cancelled = true → Excused d t .cancelled
  | skipped {dep : NodeId} {o : Outcome} : dep ∈ t.dependencies → d.outcomeOf? dep = some o →
    o ≠ .succeeded → Excused d t (.skipped dep)

/-- The runner of a stage has not been started. -/
structure Fresh (ms : List Move) (i : Nat) : Prop where
  start : Move.start i ∉ ms
  finish : Move.finish i ∉ ms

/-- The runner of a stage has been started, once, and has returned. -/
structure Ran (ms : List Move) (i : Nat) : Prop where
  start : ms.count (.start i) = 1
  finish : Move.finish i ∈ ms

/-- The stage has told, without having been run, why it was not. -/
def Left (d : Dispatch) (ms : List Move) (i : Nat) (t : Task) (o : Option Outcome) : Prop :=
  Fresh ms i ∧ ∃ x, o = some x ∧ d.Excused t x

/-- The stage has told what its runner ended with. -/
def Settled (d : Dispatch) (ms : List Move) (i : Nat) (t : Task) (o : Option Outcome) : Prop :=
  o = some t.outcome ∧ Ran ms i ∧ d.Passed t.dependencies

/-- **How the phase of a stage goes with what it has told and with the moves so far.** -/
def Stands (d : Dispatch) (ms : List Move) (i : Nat) (t : Task) : Phase → Option Outcome → Prop
  | .waiting k, o => o = none ∧ Fresh ms i ∧ d.Passed (t.dependencies.take k)
  | .leaving x, o => o = none ∧ Fresh ms i ∧ d.Excused t x
  | .aborted, o => d.Left ms i t o
  | .queued, o | .asleep, o | .admitted, o => o = none ∧ Fresh ms i ∧ d.Passed t.dependencies
  | .running, o => o = none ∧ (ms.count (.start i) = 1 ∧ .finish i ∉ ms) ∧ d.Passed t.dependencies
  | .returned, o | .recorded, o => o = none ∧ Ran ms i ∧ d.Passed t.dependencies
  | .settled, o => d.Settled ms i t o
  | .ended, o => d.Left ms i t o ∨ d.Settled ms i t o

theorem Excused.ne_succeeded {o : Outcome} (h : d.Excused t o) : o ≠ .succeeded := by
  cases h <;> exact fun h => by cases h

/-- A later state knows of every outcome, and of the cancellation, that an earlier one did. -/
structure Knows (d d' : Dispatch) : Prop where
  outcomes : ∀ id o, d.outcomeOf? id = some o → d'.outcomeOf? id = some o
  cancelled : d.cancelled = true → d'.cancelled = true

theorem Passed.mono {l : List NodeId} (h : d.Passed l) (hk : d.Knows d') : d'.Passed l :=
  fun dep hdep => hk.outcomes dep _ (h dep hdep)

theorem Excused.mono {o : Outcome} (h : d.Excused t o) (hk : d.Knows d') : d'.Excused t o := by
  cases h with
  | cancelled hc => exact .cancelled (hk.cancelled hc)
  | skipped hdep ho hne => exact .skipped hdep (hk.outcomes _ _ ho) hne

theorem Fresh.snoc (h : Fresh ms i) (hm : m.Spares i) : Fresh (ms ++ [m]) i where
  start := by simp [h.start, hm.start.symm]
  finish := by simp [h.finish, hm.finish.symm]

theorem Ran.snoc (h : Ran ms i) (hm : m.Spares i) : Ran (ms ++ [m]) i where
  start := by rw [List.count_append, h.start, List.count_singleton]; simp [hm.start]
  finish := List.mem_append_left _ h.finish

theorem Left.frame (h : d.Left ms i t o) (hk : d.Knows d') (hm : m.Spares i) :
    d'.Left (ms ++ [m]) i t o := by
  obtain ⟨hf, x, hx, he⟩ := h
  exact ⟨hf.snoc hm, x, hx, he.mono hk⟩

theorem Settled.frame (h : d.Settled ms i t o) (hk : d.Knows d') (hm : m.Spares i) :
    d'.Settled (ms ++ [m]) i t o :=
  ⟨h.1, h.2.1.snoc hm, h.2.2.mono hk⟩

/-- **What others do leaves a stage as it stands.** -/
theorem Stands.frame (h : d.Stands ms i t p o) (hk : d.Knows d') (hm : m.Spares i) :
    d'.Stands (ms ++ [m]) i t p o := by
  cases p with
  | waiting | queued | asleep | admitted => exact ⟨h.1, h.2.1.snoc hm, h.2.2.mono hk⟩
  | leaving => exact ⟨h.1, h.2.1.snoc hm, h.2.2.mono hk⟩
  | aborted => exact Left.frame h hk hm
  | running =>
    obtain ⟨ho, ⟨hstart, hfinish⟩, hp⟩ := h
    refine ⟨ho, ⟨?_, ?_⟩, hp.mono hk⟩
    · rw [List.count_append, hstart, List.count_singleton]
      simp [hm.start]
    · simp [hfinish, hm.finish.symm]
  | returned | recorded => exact ⟨h.1, h.2.1.snoc hm, h.2.2.mono hk⟩
  | settled => exact Settled.frame h hk hm
  | ended => exact Or.imp (Left.frame · hk hm) (Settled.frame · hk hm) h

/-- **The turn of a stage.** -/
theorem Stands.step {told : Option Outcome} (h : d.Stands ms i t p o) (hk : d.Knows d')
    (hturn : d.Turn t i m p p' told) :
    d'.Stands (ms ++ [m]) i t p' (told.elim o fun x => some (o.getD x)) := by
  cases hturn with
  | @passed k dep hdep hout =>
    obtain ⟨ho, hf, hp⟩ := h
    refine ⟨ho, hf.snoc ⟨nofun, nofun⟩, fun x hx => ?_⟩
    rw [List.take_add_one, hdep, List.mem_append] at hx
    rcases hx with hx | hx
    · exact hk.outcomes _ _ (hp x hx)
    · rw [Option.mem_toList.1 hx |> Option.some.inj |>.symm]
      exact hk.outcomes _ _ hout
  | @skipped k dep x hdep hout hne =>
    obtain ⟨ho, hf, -⟩ := h
    have hmem : dep ∈ t.dependencies := List.mem_of_getElem? hdep
    exact ⟨ho, hf.snoc ⟨nofun, nofun⟩, .skipped hmem (hk.outcomes _ _ hout) hne⟩
  | lapsed _ hc | noticed _ hc =>
    exact ⟨h.1, h.2.1.snoc ⟨nofun, nofun⟩, .cancelled (hk.cancelled hc)⟩
  | @ready k hlast =>
    obtain ⟨ho, hf, hp⟩ := h
    rw [List.take_of_length_le (List.getElem?_eq_none_iff.1 hlast)] at hp
    exact ⟨ho, hf.snoc ⟨nofun, nofun⟩, hp.mono hk⟩
  | entered | slept => exact ⟨h.1, h.2.1.snoc ⟨nofun, nofun⟩, h.2.2.mono hk⟩
  | started =>
    obtain ⟨ho, hf, hp⟩ := h
    refine ⟨ho, ⟨?_, ?_⟩, hp.mono hk⟩
    · rw [List.count_append, List.count_eq_zero.2 hf.start]
      simp
    · simp [hf.finish]
  | returned =>
    obtain ⟨ho, ⟨hstart, -⟩, hp⟩ := h
    refine ⟨ho, ⟨?_, by simp⟩, hp.mono hk⟩
    rw [List.count_append, hstart, List.count_singleton]
    simp
  | recorded => exact ⟨h.1, h.2.1.snoc ⟨nofun, nofun⟩, h.2.2.mono hk⟩
  | told =>
    obtain ⟨rfl, hr, hp⟩ := h
    exact ⟨rfl, hr.snoc ⟨nofun, nofun⟩, hp.mono hk⟩
  | @left x =>
    obtain ⟨rfl, hf, he⟩ := h
    exact .inl ⟨hf.snoc ⟨nofun, nofun⟩, x, rfl, he.mono hk⟩
  | aborted =>
    obtain ⟨rfl, hf, he⟩ := h
    exact ⟨hf.snoc ⟨nofun, nofun⟩, .cancelled, rfl, he.mono hk⟩
  | noted => exact .inl (Left.frame h hk ⟨nofun, nofun⟩)
  | released => exact .inr (Settled.frame h hk ⟨nofun, nofun⟩)

/-- The move of one stage neither starts nor ends the runner of another. -/
theorem Turn.spares {told : Option Outcome} (h : d.Turn t i m p p' told) (hij : j ≠ i) :
    m.Spares j := by
  cases h with
  | started => exact ⟨fun heq => hij (Move.start.inj heq).symm, nofun⟩
  | returned => exact ⟨nofun, fun heq => hij (Move.finish.inj heq).symm⟩
  | _ => exact ⟨nofun, nofun⟩

/-! ### Workers -/

/-- Counting after one place of a list is set. -/
theorem countP_set_add {α : Type} (f : α → Bool) {l : List α} {a : α} (b : α) (h : l[i]? = some a) :
    (l.set i b).countP f + (if f a then 1 else 0) = l.countP f + if f b then 1 else 0 := by
  induction l generalizing i with
  | nil => cases h
  | cons c l ih =>
    cases i with
    | zero =>
      cases h
      simp only [List.set_cons_zero, List.countP_cons]
      omega
    | succ i =>
      have := ih h
      simp only [List.set_cons_succ, List.countP_cons]
      omega

/-- **Workers are counted**: a turn takes one, frees one or does neither. -/
theorem Turn.running {told : Option Outcome} (h : d.Turn t i m p p' told)
    (hpos : p.isBusy = true → 0 < d.pool.running) :
    (poolAfter d.pool m).running + (if p.isBusy then 1 else 0) =
      d.pool.running + if p'.isBusy then 1 else 0 := by
  cases h with
  | released =>
    have := hpos rfl
    simp only [poolAfter, Pool.release, Phase.isBusy, if_true, Bool.false_eq_true, if_false]
    omega
  | _ => rfl

/-- A worker is taken only where one is free. -/
theorem Turn.room {told : Option Outcome} {n : Nat} (h : d.Turn t i m p p' told)
    (hn : d.pool.capacity = some n) (hle : d.pool.running ≤ n) :
    (poolAfter d.pool m).capacity = some n ∧ (poolAfter d.pool m).running ≤ n := by
  cases h with
  | entered hfull =>
    rw [Pool.isFull, hn, Option.any_some, decide_eq_false_iff_not, Nat.not_le] at hfull
    exact ⟨hn, hfull⟩
  | released => exact ⟨hn, Nat.le_trans (Nat.sub_le _ _) hle⟩
  | _ => exact ⟨hn, hle⟩

/-- The stages that hold a worker after a turn. -/
theorem Moved.countP_isBusy {told : Option Outcome} (h : d.Moved m d' i t p p' told) :
    d'.phases.countP Phase.isBusy + (if p.isBusy then 1 else 0) =
      d.phases.countP Phase.isBusy + if p'.isBusy then 1 else 0 := by
  have hset := countP_set_add Phase.isBusy p' h.phase
  have hturn := h.turn
  rw [h.phases]
  cases hturn with
  | @released sleeper hs =>
    cases sleeper with
    | none => exact hset
    | some j =>
      have hij : i ≠ j := by
        rintro rfl
        have hj := hs i rfl
        rw [h.phase] at hj
        cases hj
      -- who sleeps and who asks hold no worker
      have hj : (d.phases.set i .ended)[j]? = some .asleep := by
        rw [List.getElem?_set_ne hij]
        exact hs j rfl
      have hwake := countP_set_add Phase.isBusy .queued hj
      simp only [Phase.isBusy, Bool.false_eq_true, if_false, Nat.add_zero] at hwake
      rw [wakes, hwake]
      exact hset
  | _ => exact hset

/-! ### Every run -/

/-- **What holds after some moves.** -/
structure Sound (tasks : List Task) (pool : Pool) (ms : List Move) (d : Dispatch) : Prop where
  listed : d.tasks = tasks
  phases_length : d.phases.length = tasks.length
  latches_length : d.latches.length = tasks.length
  stands : ∀ i t p l, tasks[i]? = some t → d.phases[i]? = some p → d.latches[i]? = some l →
    d.Stands ms i t p l.value
  busy : d.pool.running = d.phases.countP Phase.isBusy
  room : ∀ n, pool.capacity = some n → d.pool.capacity = some n ∧ d.pool.running ≤ n

variable {tasks : List Task} {pool : Pool}

/-- It holds at the beginning. -/
theorem sound_new (tasks : List Task) (processors : Nat) (limit : PoolLimit) (cancelled : Bool) :
    (new tasks (.new processors limit) cancelled).Sound tasks (.new processors limit) [] where
  listed := rfl
  phases_length := List.length_map _
  latches_length := List.length_map _
  stands := by
    intro i t p l ht hp hl
    simp only [new, List.getElem?_map, ht, Option.map_some, Option.some.injEq] at hp hl
    subst hp hl
    exact ⟨rfl, ⟨List.not_mem_nil, List.not_mem_nil⟩, fun x hx => by simp at hx⟩
  busy := by
    have hnone : ∀ p ∈ tasks.map (fun _ => Phase.waiting 0), ¬ p.isBusy = true := by
      simp [Phase.isBusy]
    exact (List.countP_eq_zero.2 hnone).symm
  room := fun n hn => ⟨hn, Nat.zero_le n⟩

/-- **It holds after one more move.** -/
theorem Sound.step (h : d.Sound tasks pool ms) (hd : d.perform? m = some d') :
    d'.Sound tasks pool (ms ++ [m]) := by
  rcases moved_of_perform? hd (h.phases_length.trans (congrArg _ h.listed.symm)) with
    ⟨rfl, rfl⟩ | ⟨i, t, p, p', o, hm⟩
  · exact ⟨h.listed, h.phases_length, h.latches_length,
      fun i t p l ht hp hl => (h.stands i t p l ht hp hl).frame ⟨fun _ _ => id, fun _ => rfl⟩
        ⟨nofun, nofun⟩, h.busy, h.room⟩
  · have hknows : d.Knows d' :=
      ⟨fun _ _ => hm.outcomeOf?_mono, fun hc => hm.cancelled.trans hc⟩
    refine ⟨hm.tasks.trans h.listed, hm.phases_length.trans h.phases_length,
      hm.latches_length.trans h.latches_length, ?_, ?_, ?_⟩
    · intro j u q l hu hq hl
      by_cases hij : i = j
      · subst hij
        have htu : t = u := by
          have ht := hm.task
          rw [h.listed, hu] at ht
          exact (Option.some.inj ht).symm
        subst htu
        rw [hm.phases_self] at hq
        cases hq
        rw [hm.latches_self] at hl
        obtain ⟨l', hl', rfl⟩ := Option.map_eq_some_iff.1 hl
        have hstep := (h.stands i t p l' hu hm.phase hl').step hknows hm.turn
        cases o with
        | none => exact hstep
        | some x => exact hstep
      · rw [hm.latches_other hij] at hl
        have hspares := hm.turn.spares (Ne.symm hij)
        rcases hm.phases_other hij with hsame | ⟨hasleep, hwoken⟩
        · rw [hsame] at hq
          exact (h.stands j u q l hu hq hl).frame hknows hspares
        · rw [hwoken] at hq
          cases hq
          exact (h.stands j u .asleep l hu hasleep hl).frame hknows hspares
    · have hcount := hm.countP_isBusy
      have hrun := hm.turn.running fun hb => by
        rw [h.busy]
        exact List.countP_pos_iff.2 ⟨p, List.mem_of_getElem? hm.phase, hb⟩
      have hbusy := h.busy
      rw [hm.pool]
      omega
    · intro n hn
      rw [hm.pool]
      exact hm.turn.room (h.room n hn).1 (h.room n hn).2

/-- **It holds after every run.** -/
theorem Sound.follow? {ms' : List Move} (h : d.Sound tasks pool ms) (hd : d.follow? ms' = some d') :
    d'.Sound tasks pool (ms ++ ms') := by
  induction ms' generalizing d ms with
  | nil =>
    cases hd
    rw [List.append_nil]
    exact h
  | cons m ms' ih =>
    rw [Dispatch.follow?, List.foldlM_cons] at hd
    obtain ⟨d₁, h₁, hd⟩ := Option.bind_eq_some_iff.1 hd
    rw [List.append_cons]
    exact ih (h.step h₁) hd

/-! ### Safety -/

/-- The runner of a stage has returned with an error. -/
def Failed (d : Dispatch) (ms : List Move) (j : Nat) : Prop :=
  .finish j ∈ ms ∧ ∃ t message, d.tasks[j]? = some t ∧ t.failure = some message

/-- A stage is not run because of one of its dependencies. -/
def Skipped (d : Dispatch) (j : Nat) : Prop :=
  ∃ dep, d.phases[j]? = some (.leaving (.skipped dep)) ∨ d.latches[j]? = some ⟨some (.skipped dep)⟩

namespace Sound

variable (h : d.Sound tasks pool ms)
include h

/-- Every stage has a phase and a latch. -/
theorem exists_phase (ht : tasks[i]? = some t) :
    ∃ p l, d.phases[i]? = some p ∧ d.latches[i]? = some l := by
  have hi : i < tasks.length := (List.getElem?_eq_some_iff.1 ht).1
  exact ⟨_, _, List.getElem?_eq_getElem (h.phases_length ▸ hi),
    List.getElem?_eq_getElem (h.latches_length ▸ hi)⟩

/-- A runner is started at most once, and only if all dependencies have passed. -/
theorem started (ht : tasks[i]? = some t) (hs : .start i ∈ ms) :
    ms.count (.start i) = 1 ∧ d.Passed t.dependencies := by
  obtain ⟨p, l, hp, hl⟩ := h.exists_phase ht
  have hst := h.stands i t p l ht hp hl
  cases p with
  | waiting | leaving | queued | asleep | admitted => exact absurd hs hst.2.1.start
  | aborted => exact absurd hs hst.1.start
  | running => exact ⟨hst.2.1.1, hst.2.2⟩
  | returned | recorded | settled => exact ⟨hst.2.1.start, hst.2.2⟩
  | ended =>
    rcases hst with hst | hst
    · exact absurd hs hst.1.start
    · exact ⟨hst.2.1.start, hst.2.2⟩

/-- **A stage that has told its success has run**, and its runner returned without an error. -/
theorem ran_of_told (ht : tasks[i]? = some t) (hl : d.latches[i]? = some ⟨some .succeeded⟩) :
    t.failure = none ∧ Ran ms i := by
  obtain ⟨p, l, hp, -⟩ := h.exists_phase ht
  have hst := h.stands i t p _ ht hp hl
  have hleft : ¬ d.Left ms i t (some .succeeded) := by
    rintro ⟨-, x, hx, he⟩
    exact he.ne_succeeded (Option.some.inj hx).symm
  have hsettled : d.Settled ms i t (some .succeeded) → t.failure = none ∧ Ran ms i := by
    rintro ⟨ho, hran, -⟩
    refine ⟨?_, hran⟩
    cases hf : t.failure with
    | none => rfl
    | some message =>
      rw [Task.outcome, hf] at ho
      cases ho
  cases p with
  | aborted => exact absurd hst hleft
  | settled => exact hsettled hst
  | ended => exact hsettled (Or.resolve_left hst hleft)
  | _ => cases hst.1

/-- The outcome told by the stage of an identity is in a latch of that stage. -/
theorem latch_of_outcomeOf? {id : NodeId} {x : Outcome} (hx : d.outcomeOf? id = some x) :
    ∃ (j : Nat) (u : Task), tasks[j]? = some u ∧ u.id = id ∧ d.latches[j]? = some ⟨some x⟩ := by
  simp only [outcomeOf?, Option.bind_eq_bind, Option.bind_eq_some_iff] at hx
  obtain ⟨j, hj, l, hl, hx⟩ := hx
  rw [h.listed] at hj
  obtain ⟨hlt, hid, -⟩ := List.findIdx?_eq_some_iff_getElem.1 hj
  refine ⟨j, tasks[j], List.getElem?_eq_getElem hlt, beq_iff_eq.1 hid, ?_⟩
  rw [hl, ← hx]

/-- **Whatever a started stage depends on has succeeded**, near and far. -/
theorem succeeded_of_dependsOn (hids : (tasks.map (·.id)).Nodup)
    (hdep : Relation.TransGen (DependsOn tasks) i j) (hs : .start i ∈ ms) :
    ∃ u, tasks[j]? = some u ∧ u.failure = none ∧ Ran ms j ∧
      d.latches[j]? = some ⟨some .succeeded⟩ := by
  have hnear : ∀ i j, DependsOn tasks i j → .start i ∈ ms → ∃ u, tasks[j]? = some u ∧
      u.failure = none ∧ Ran ms j ∧ d.latches[j]? = some ⟨some .succeeded⟩ := by
    rintro i j ⟨t, u, ht, hu, hdep⟩ hs
    obtain ⟨k, v, hv, hid, hl⟩ := h.latch_of_outcomeOf? ((h.started ht hs).2 u.id hdep)
    have hkj : k = j := by
      refine (List.getElem?_inj (by simpa using (List.getElem?_eq_some_iff.1 hv).1) hids).1 ?_
      rw [List.getElem?_map, List.getElem?_map, hv, hu, Option.map_some, Option.map_some, hid]
    subst hkj
    exact ⟨v, hv, (h.ran_of_told hv hl).1, (h.ran_of_told hv hl).2, hl⟩
  induction hdep with
  | single hdep => exact hnear _ _ hdep hs
  | tail _ hdep ih =>
    obtain ⟨-, -, -, hran, -⟩ := ih
    exact hnear _ _ hdep (List.count_pos_iff.1 (by rw [hran.start]; exact Nat.one_pos))

end Sound

/-- **Dispatch is safe**, whatever order things happen in: a runner is started at most once, after the
runners of all dependencies of its stage have returned without an error; it is never started if a
dependency, near or far, has failed or was skipped; and no more runners run at a time than the pool
has workers. -/
theorem follow?_safe (hok : checkTasks [] tasks = .ok ()) {processors : Nat} {limit : PoolLimit}
    {cancelled : Bool} (h : (new tasks (.new processors limit) cancelled).follow? ms = some d) :
    (∀ i < tasks.length, ms.count (.start i) ≤ 1) ∧
      (∀ A i B, ms = A ++ .start i :: B → ∀ t, tasks[i]? = some t → ∀ dep ∈ t.dependencies,
        ∃ j u, tasks[j]? = some u ∧ u.id = dep ∧ u.failure = none ∧ .finish j ∈ A) ∧
      (∀ i j, Relation.TransGen (DependsOn tasks) i j → d.Failed ms j ∨ d.Skipped j →
        .start i ∉ ms) ∧
      ∀ n, limit.capacity? processors = some n → d.phases.count .running ≤ n := by
  have hnew := sound_new tasks processors limit cancelled
  have hd : d.Sound tasks (.new processors limit) ms := hnew.follow? h
  refine ⟨?_, ?_, ?_, ?_⟩
  · intro i hi
    by_cases hs : Move.start i ∈ ms
    · exact Nat.le_of_eq (hd.started (List.getElem?_eq_getElem hi) hs).1
    · rw [List.count_eq_zero.2 hs]
      exact Nat.zero_le 1
  · intro A i B hms t ht dep hdep
    -- the state right before the start
    rw [hms, follow?, List.foldlM_append] at h
    obtain ⟨dA, hA, h⟩ := Option.bind_eq_some_iff.1 h
    rw [List.foldlM_cons] at h
    obtain ⟨d₁, h₁, -⟩ := Option.bind_eq_some_iff.1 h
    have hstarted : d₁.Sound tasks (.new processors limit) (A ++ [.start i]) :=
      (hnew.follow? hA).step h₁
    have hpassed := (hstarted.started ht (by simp)).2 dep hdep
    obtain ⟨j, u, hu, hid, hl⟩ := hstarted.latch_of_outcomeOf? hpassed
    obtain ⟨hfailure, hran⟩ := hstarted.ran_of_told hu hl
    exact ⟨j, u, hu, hid, hfailure, by simpa using hran.finish⟩
  · intro i j hdep hlost hs
    obtain ⟨u, hu, hfailure, -, hl⟩ := hd.succeeded_of_dependsOn (nodup_of_checkTasks hok).1 hdep hs
    rcases hlost with ⟨-, t, message, ht, hfail⟩ | ⟨dep, hphase | hlatch⟩
    · rw [hd.listed, hu] at ht
      cases ht
      rw [hfailure] at hfail
      cases hfail
    · cases (hd.stands j u _ _ hu hphase hl).1
    · rw [hl] at hlatch
      cases hlatch
  · intro n hn
    have hle : d.phases.count .running ≤ d.phases.countP Phase.isBusy :=
      List.countP_mono_left fun p _ hp => by
        rw [beq_iff_eq.1 hp]
        rfl
    exact Nat.le_trans hle (hd.busy ▸ (hd.room n hn).2)

end Dispatch

/-! ### A stage that fails -/

namespace ChainExample

/-- Three stages, each depending on the one before; the second fails. -/
def tasks : List Task :=
  [⟨Uuid.ofBytes [1], .compute, [], none⟩,
    ⟨Uuid.ofBytes [2], .compute, [Uuid.ofBytes [1]], some "out of memory"⟩,
    ⟨Uuid.ofBytes [3], .render, [Uuid.ofBytes [2]], none⟩]

/-- The second stage has to wait for the one worker, which the first still holds. -/
def moves : List Move :=
  [.advance 0, .enter 0, .start 0, .finish 0, .record 0, .tell 0, .advance 1, .advance 1, .sleep 1,
    .release 0 (some 1), .enter 1, .start 1, .finish 1, .record 1, .tell 1, .advance 2, .tell 2]

/-- The run on one worker. -/
def final? : Option Dispatch := (Dispatch.new tasks (.new 4 (.workers 1)) false).follow? moves

theorem final_state : final?.map (fun d => (d.tasks[1]?.map (·.failure), d.latches[2]?)) =
    some (some (some "out of memory"), some ⟨some (.skipped (Uuid.ofBytes [2]))⟩) := by
  decide +kernel

end ChainExample

/-- The second stage starts after the first has returned; the third, which depends on it, never does. -/
theorem Dispatch.follow?_safe_chain : ∃ d, ChainExample.final? = some d ∧
    d.Failed ChainExample.moves 1 ∧ d.Skipped 2 ∧
    (∃ j u, ChainExample.tasks[j]? = some u ∧ u.id = Uuid.ofBytes [1] ∧ u.failure = none ∧
      .finish j ∈ ChainExample.moves.take 11) ∧
    .start 2 ∉ ChainExample.moves ∧ d.phases.count .running ≤ 1 := by
  obtain ⟨d, hd, hstate⟩ := Option.map_eq_some_iff.1 ChainExample.final_state
  rw [Prod.mk.injEq] at hstate
  obtain ⟨t, ht, hfail⟩ := Option.map_eq_some_iff.1 hstate.1
  obtain ⟨-, horder, hnever, hroom⟩ := follow?_safe (by decide +kernel) hd
  have hfailed : d.Failed ChainExample.moves 1 := ⟨by decide, t, _, ht, hfail⟩
  refine ⟨d, hd, hfailed, ⟨_, .inr hstate.2⟩, ?_, ?_, hroom 1 rfl⟩
  · exact horder (ChainExample.moves.take 11) 1 (ChainExample.moves.drop 12) rfl _ rfl _
      List.mem_cons_self
  · exact hnever 2 1 (.single ⟨_, _, rfl, rfl, List.mem_cons_self⟩) (.inl hfailed)

end NodeShader
