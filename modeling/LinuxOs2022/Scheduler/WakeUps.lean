import LinuxOs2022.Scheduler.Sleeping
import LinuxOs2022.Scheduler.StartStop

/-!
# No waking is lost

`try_to_wake_up` marks a sleeping task with `TASK_WAKING` and then makes it runnable itself or
leaves it on the call queue of another CPU. A task carries the mark exactly while one waking
of it is under way, and no task has two. A runnable task is on the run queue of its CPU, or
one CPU carries it to a run queue.
-/

namespace LinuxOs2022.Scheduler

open Custody Library Relation

/-! ## Wakings in the machine of custody -/

namespace Custody

variable {Tid Cpu : Type} [DecidableEq Tid] [DecidableEq Cpu] {idle : Cpu → Tid}
  {v v' : View Tid Cpu}

/-- The CPU has begun a waking of the task and has not ended it. -/
def View.Wakes (v : View Tid Cpu) (c : Cpu) (p : Tid) : Prop :=
  p ∈ (v.cpu c).inbox ∨ (v.cpu c).phase = .claimed p ∨ ∃ x, (v.cpu c).phase = .own true p x

omit [DecidableEq Tid] [DecidableEq Cpu] in
/-- A task with a waking under way is marked. -/
theorem Inv.waking_of_wakes (hi : Inv idle v) {c : Cpu} {p : Tid} (h : v.Wakes c p) :
    (v.task p).waking = true := by
  have hp := hi.phase c
  obtain h | h | ⟨x, h⟩ := h
  · exact (hi.inbox_plain c p h).1
  · rw [h] at hp
    exact hp.2.1
  · rw [h] at hp
    exact hp.2.1

omit [DecidableEq Tid] [DecidableEq Cpu] in
theorem View.held_of_wakes {c : Cpu} {p : Tid} (h : v.Wakes c p)
    (hn : p ∉ (v.cpu c).inbox) : (v.cpu c).phase.held = some p := by
  obtain h | h | ⟨x, h⟩ := h
  · exact absurd h hn
  · rw [h]
    rfl
  · rw [h]
    rfl

omit [DecidableEq Tid] [DecidableEq Cpu] in
/-- Only one CPU wakes a task. -/
theorem Inv.wakes_unique (hi : Inv idle v) {c c' : Cpu} {p : Tid} (h : v.Wakes c p)
    (h' : v.Wakes c' p) : c = c' := by
  by_cases hc : p ∈ (v.cpu c).inbox
  · by_cases hc' : p ∈ (v.cpu c').inbox
    · exact hi.inbox_disjoint c c' p hc hc'
    · exact absurd (View.held_of_wakes h' hc') ((hi.inbox_plain c p hc).2.2 c')
  · by_cases hc' : p ∈ (v.cpu c').inbox
    · exact absurd (View.held_of_wakes h hc) ((hi.inbox_plain c' p hc').2.2 c)
    · exact hi.held_unique c c' p (View.held_of_wakes h hc) (View.held_of_wakes h' hc')

/-- Every marked task has a waking under way. -/
def View.Attended (v : View Tid Cpu) : Prop :=
  ∀ p, (v.task p).waking = true → ∃ c, v.Wakes c p

attribute [local grind =] View.setPhase in
attribute [local grind] View.Wakes in
/-- A mark is set by the CPU that goes on with the waking, and erased by the one that ends
it. -/
theorem Effect.attended (h : Effect idle v v') (ha : v.Attended) : v'.Attended := by
  intro p hp
  have hold := ha p
  cases h with
  | setWaking c q hc =>
      by_cases hq : p = q
      · exact ⟨c, by grind⟩
      · obtain ⟨b, hb⟩ := hold (by grind)
        exact ⟨b, by grind⟩
  | push c q d hcd hc hq hw =>
      by_cases hq : p = q
      · exact ⟨d, by grind⟩
      · obtain ⟨b, hb⟩ := hold (by grind)
        exact ⟨b, by grind [Phase.held]⟩
  | attach c w q x hc d hd =>
      obtain ⟨b, hb⟩ := hold (by grind)
      exact ⟨b, by grind⟩
  | pop c q rest hc hn =>
      obtain ⟨b, hb⟩ := hold (by grind)
      exact ⟨b, by grind⟩
  | create c q hf =>
      obtain ⟨b, hb⟩ := hold (by grind)
      exact ⟨b, by grind⟩
  | _ =>
      obtain ⟨b, hb⟩ := hold (by grind)
      exact ⟨b, by grind⟩

end Custody

variable {Tid : Type} [DecidableEq Tid] {n : ℕ} {M : Machine Tid n} {c₀ c : Cpu n}
  {s s' : State Tid n} {e : Event Tid n} {es : List (Event Tid n)} {a : Action Tid n} {p : Tid}

/-! ## Wakings of the scheduler -/

/-- The task that `try_to_wake_up` has marked and not yet let go of. -/
def wakingOf : Pc Tid n → Option Tid
  | .tryToWakeUp p .loadOnCpu => some p
  | .tryToWakeUp p .queueOnCpu => some p
  | .tryToWakeUp p .waitOnCpu => some p
  | .tryToWakeUp p .selectTaskRq => some p
  | .tryToWakeUp p (.queue _) => some p
  | .tryToWakeUp p (.activate _) => some p
  | _ => none

/-- How many wakings of the task CPU `c` has under way: one in `try_to_wake_up`, and one for
each place on its call queue or on the part that it has taken off. -/
def State.wakings (s : State Tid n) (c : Cpu n) (p : Tid) : ℕ :=
  (if wakingOf (s.pc c) = some p then 1 else 0) +
    (llistOf (s.pc c) ++ (s.rq c).wakeList).count p

omit [DecidableEq Tid] in
theorem wakingOf_eq_some {k : Pc Tid n} :
    wakingOf k = some p ↔ phaseOf k = .claimed p ∨ ∃ x, phaseOf k = .own true p x := by
  cases k with
  | schedule k => cases k <;> simp [wakingOf, phaseOf]
  | tryToWakeUp q k => cases k <;> simp [wakingOf, phaseOf]
  | wakeUpNewTask q k => cases k <;> simp [wakingOf, phaseOf]
  | taskRqLock q caller k => cases caller <;> simp [wakingOf, phaseOf]
  | moveQueuedTask q src dest k => cases k <;> simp [wakingOf, phaseOf]
  | _ => simp [wakingOf, phaseOf]

theorem State.wakings_pos : 0 < s.wakings c p ↔ s.view.Wakes c p := by
  have hcount : 0 < (llistOf (s.pc c) ++ (s.rq c).wakeList).count p ↔
      p ∈ (s.view.cpu c).inbox := List.count_pos_iff
  unfold State.wakings View.Wakes
  rw [view_phase rfl, ← wakingOf_eq_some, ← hcount]
  split <;> simp_all

omit [DecidableEq Tid] in
theorem held_of_wakingOf {k : Pc Tid n} (h : wakingOf k = some p) :
    (phaseOf k).held = some p := by
  obtain h | ⟨x, h⟩ := wakingOf_eq_some.mp h
  · rw [h]
    rfl
  · rw [h]
    rfl

/-- A CPU has no two wakings of a task. -/
theorem Ok.wakings_le_one (hi : Ok M s) (c : Cpu n) (p : Tid) : s.wakings c p ≤ 1 := by
  unfold State.wakings
  split
  next hw =>
    have hin : p ∉ llistOf (s.pc c) ++ (s.rq c).wakeList := fun hin =>
      (hi.custody.inbox_plain c p hin).2.2 c (held_of_wakingOf hw)
    rw [List.count_eq_zero.mpr hin]
  next =>
    rw [zero_add]
    exact List.nodup_iff_count_le_one.mp (hi.custody.inbox_nodup c) p

/-- One CPU has the waking of a marked task under way, and nobody that of another task. -/
theorem Ok.sum_wakings (hi : Ok M s) (ha : s.view.Attended) (p : Tid) :
    ∑ c, s.wakings c p = if (s.task p).state = taskWaking then 1 else 0 := by
  have hview : (s.view.task p).waking = true ↔ (s.task p).state = taskWaking := by
    simp [State.view, TaskStruct.view]
  split
  next hw =>
    obtain ⟨c, hc⟩ := ha p (hview.mpr hw)
    have hother : ∀ b ∈ Finset.univ, b ≠ c → s.wakings b p = 0 := by
      intro b _ hb
      by_contra hpos
      have hwb := State.wakings_pos.mp (Nat.pos_of_ne_zero hpos)
      exact hb (hi.custody.wakes_unique hwb hc)
    rw [Finset.sum_eq_single c hother (by simp)]
    exact le_antisymm (hi.wakings_le_one c p) (State.wakings_pos.mpr hc)
  next hw =>
    apply Finset.sum_eq_zero
    intro c _
    by_contra hpos
    have hwc := State.wakings_pos.mp (Nat.pos_of_ne_zero hpos)
    exact hw (hview.mp (hi.custody.waking_of_wakes hwc))

/-- In a reachable state every marked task has a waking under way. -/
theorem run_attended (h : Run (Steps M) (boot M c₀) es s) : s.view.Attended := by
  have hboot : (boot M c₀).view.Attended := by
    intro p hp
    simp [State.view, TaskStruct.view, boot, bootTask, taskRunning, taskWaking] at hp
  have hrun := run_effects h
  generalize s.view = v at hrun ⊢
  induction hrun with
  | refl => exact hboot
  | tail _ he ih => exact he.attended ih

/-- In every reachable state a task is marked with `TASK_WAKING` exactly while a waking of it
is under way, and there is no more than one: no task waits for a waking that was lost, and
none is woken twice. -/
theorem wakings_conserved (h : Run (Steps M) (boot M c₀) es s) (p : Tid) :
    ∑ c, s.wakings c p = if (s.task p).state = taskWaking then 1 else 0 :=
  (run_ok h).sum_wakings (run_attended h) p

/-- Task 10 goes to sleep on CPU 0. -/
def sleep : List (Cpu 2 × Action ℕ 2) :=
  (0, .setCurrentState taskInterruptible) :: (0, .schedule false) :: (0, .signalPending false) ::
    (0, .next) :: (0, .pick 0) :: List.replicate 8 (0, .next)

/-- CPU 1 begins to wake task 10. -/
def beginWaking : List (Cpu 2 × Action ℕ 2) :=
  (1, .tryToWakeUp 10 taskInterruptible) :: List.replicate 3 (1, .next)

/-- CPU 1 has the waking of task 10 under way. -/
theorem wakings_conserved_sleeping :
    let s := execState twoCpus (boot twoCpus 0) (forkAndRun ++ (sleep ++ beginWaking))
    s.wakings 1 10 = 1 ∧
      ∑ c, s.wakings c 10 = if (s.task 10).state = taskWaking then 1 else 0 := by
  have h : Run (Steps twoCpus) (boot twoCpus 0) _ _ :=
    execState_run (forkAndRun ++ (sleep ++ beginWaking)) rfl
  exact ⟨rfl, wakings_conserved h 10⟩

/-! ## Runnable tasks -/

/-- A runnable task is on a run queue, or some CPU takes it to one. -/
def State.Placed (s : State Tid n) (M : Machine Tid n) : Prop :=
  ∀ p, (s.task p).allocated = true → (∀ i, M.idle i ≠ p) → (s.task p).state = taskRunning →
    (s.task p).onRq = .queued ∨ ∃ c, carriedOf (s.pc c) = some p

omit [DecidableEq Tid] in
theorem phaseOf_of_carried {k : Pc Tid n} (h : carriedOf k = some p) :
    ∃ x, phaseOf k = .own false p x := by
  cases k with
  | wakeUpNewTask q k => cases k <;> cases h <;> exact ⟨_, rfl⟩
  | taskRqLock q caller k =>
      cases caller <;> cases h
      exact ⟨none, rfl⟩
  | moveQueuedTask q src dest k => cases k <;> cases h <;> exact ⟨_, rfl⟩
  | _ => cases h

/-- A CPU lets go of the task it carries when it has queued it. -/
theorem Transition.carried (ht : Transition M s c e s') (hp : carriedOf (s.pc c) = some p) :
    carriedOf (s'.pc c) = some p ∨ (s'.task p).onRq = .queued := by
  cases ht with
  | newActivate q r hpc =>
      obtain rfl : q = p := by simpa [hpc, carriedOf] using hp
      exact .inr (by simp [TaskStruct.activateTask])
  | moveEnqueue q src dest hpc =>
      obtain rfl : q = p := by simpa [hpc, carriedOf] using hp
      exact .inr (by simp [TaskStruct.activateTask])
  | loadRq q caller hpc => cases caller <;> simp_all [carriedOf]
  | lockRq q caller r hpc hl => cases caller <;> simp_all [carriedOf]
  | lockRetry q caller r hpc hc => cases caller <;> simp_all [carriedOf]
  | loadBalance q src dest hpc hq hn hl =>
      obtain hpc | ⟨_, _, _, hpc⟩ := hpc <;> simp [hpc, carriedOf] at hp
  | _ =>
      have hpc := ‹s.pc c = _›
      simp_all [carriedOf]

/-- Every step keeps the runnable tasks placed. -/
theorem State.step_placed (hs : Awake M s) (hp : s.Placed M)
    (h : s.step M c a = some (e, s')) : s'.Placed M := by
  intro p ha hidle hrun
  have ht := step_transition h
  have hal := ht.allocated_of_not_new ha (hrun ▸ by decide)
  have hcurr : p = (s.rq c).curr → phaseOf (s.pc c) = .quiet → (s.task p).onRq = .queued := by
    rintro rfl hq
    have hsettled := hs.ok.custody.phase c
    rw [view_phase rfl, hq] at hsettled
    obtain hqc | hic := hsettled
    · have hqc' : (s.task (s.rq c).curr).queuedOn = some c := hqc
      exact (hs.ok.coherent.task _).onRq_of_queuedOn (by simp [hqc'])
    · exact absurd hic.symm (hidle c)
  cases step_stateStep hs.ok h p with
  | same hst hq =>
      obtain hold | ⟨b, hb⟩ := hp p hal hidle (hst.symm.trans hrun)
      · exact .inl (hq.trans hold)
      · by_cases hbc : b = c
        · subst hbc
          obtain hc | hc := ht.carried hb
          · exact .inr ⟨b, hc⟩
          · exact .inl hc
        · exact .inr ⟨b, (ht.pc_of_ne hbc).symm ▸ hb⟩
  | sleep hpc hst hq => exact absurd (hst.symm.trans hrun) (hs.sleep.deactivate c p hpc)
  | keep hpc hst hq => exact .inl (hq.trans (hcurr (hs.ok.pcOk hpc) (by rw [hpc]; rfl)))
  | self hpc hpe hd hl hw hn hq => exact .inl (hq.trans (hcurr hpe (by rw [hpc]; rfl)))
  | remote r hpc hr hst hq => exact .inl (hq.trans hr)
  | waking hpc hst hq => exact absurd (hst.symm.trans hrun) (by decide)
  | activate d hpc hst hq => exact .inl hq
  | pending rest hpc hn hst hq => exact .inl hq
  | create hpc hf hst hq => exact absurd (hst.symm.trans hrun) (by decide)
  | wakeNew hpc hf hnew hl hst hq hk => exact .inr ⟨c, hk⟩
  | start r hpc hst hq => exact .inl hq
  | detach hl hr hst hq hk => exact .inr ⟨c, hk⟩
  | attach src dest hpc hst hq => exact .inl hq

theorem Steps.placed (h : Steps M s e s') (hs : Awake M s ∧ s.Placed M) :
    Awake M s' ∧ s'.Placed M := by
  obtain ⟨c, a, hstep⟩ := h
  exact ⟨Steps.awake ⟨c, a, hstep⟩ hs.1, State.step_placed hs.1 hs.2 hstep⟩

theorem boot_placed : (boot M c₀).Placed M := by
  intro p ha hidle _
  obtain ⟨i, hi⟩ : ∃ i, M.idleCpu p = some i :=
    Option.isSome_iff_exists.mp (by simpa [boot, bootTask] using ha)
  exact absurd (idleCpu_eq_some hi) (hidle i)

theorem run_placed (h : Run (Steps M) (boot M c₀) es s) : s.Placed M := by
  have hinv := h.invariant (I := fun t => Awake M t ∧ t.Placed M)
    (fun _ _ _ hs hstep => hstep.placed hs) ⟨boot_awake, boot_placed⟩
  exact hinv.2

/-- A task that a CPU carries is on no run queue, and no other CPU carries it. -/
theorem Ok.carried_unique (hi : Ok M s) {b : Cpu n} (hc : carriedOf (s.pc c) = some p)
    (hb : carriedOf (s.pc b) = some p) : b = c := by
  obtain ⟨x, hx⟩ := phaseOf_of_carried hc
  obtain ⟨y, hy⟩ := phaseOf_of_carried hb
  apply hi.custody.held_unique b c p
  · rw [view_phase rfl, hy]
    rfl
  · rw [view_phase rfl, hx]
    rfl

theorem Ok.queuedOn_of_carried (hi : Ok M s) (hc : carriedOf (s.pc c) = some p) :
    (s.task p).queuedOn = none := by
  obtain ⟨x, hx⟩ := phaseOf_of_carried hc
  have hph := hi.custody.phase c
  rw [view_phase rfl, hx] at hph
  exact hph.2.2.1

end LinuxOs2022.Scheduler
