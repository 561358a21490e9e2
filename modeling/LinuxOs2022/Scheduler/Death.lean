import LinuxOs2022.Scheduler.StartStop
import LinuxOs2022.Scheduler.Sleeping

/-!
# Dead tasks

`do_task_dead` sets `TASK_DEAD` and calls `__schedule` one last time. Nothing erases the
state again: every store to the state of a task is made by the task itself, or by a CPU that
has seen another state under a lock. A dead task that has left its run queue never runs
again, so `do_task_dead` never returns from `__schedule`.
-/

namespace LinuxOs2022.Scheduler

open Custody Library

variable {Tid : Type} [DecidableEq Tid] {n : ℕ} {M : Machine Tid n} {c₀ c : Cpu n}
  {s s' t : State Tid n} {e : Event Tid n} {es es' : List (Event Tid n)} {a : Action Tid n}
  {p : Tid}

/-- The task executes: it is switched in, makes a system call or forks. -/
def Event.isOf (p : Tid) : Event Tid n → Prop
  | .tau => False
  | .switch _ _ next => next = p
  | .start t => t = p
  | .stop t _ => t = p
  | .cpuNumber t _ _ => t = p
  | .fork parent _ => parent = p

/-- The task exists and is dead. -/
structure State.Dead (s : State Tid n) (p : Tid) : Prop where
  allocated : (s.task p).allocated = true
  state : (s.task p).state = taskDead

/-! ## Entering `__schedule` -/

/-- A CPU in no function of the scheduler begins `__schedule` when it is called, and not
otherwise. -/
theorem State.enterStep_pc (hpc : s.pc c = .running) (h : s.enterStep M c a = some (e, s')) :
    (∃ preempt, a = .schedule preempt ∧ s'.task = s.task ∧
        s'.pc c = .schedule (.loadState preempt (s.rq c).curr)) ∨
      ∀ k, s'.pc c ≠ .schedule k := by
  have hset : ∀ v, s.setCurrentState M c v = some (e, s') → ∀ k, s'.pc c ≠ .schedule k := by
    intro v h
    obtain ⟨-, h⟩ := when_eq_some.mp h
    obtain ⟨-, rfl⟩ := tau_eq_some.mp h
    simp [hpc]
  unfold enterStep at h
  split at h
  next preempt =>
    obtain ⟨-, h⟩ := when_eq_some.mp h
    obtain ⟨-, rfl⟩ := tau_eq_some.mp h
    exact .inl ⟨preempt, rfl, rfl, by simp [current]⟩
  next q mask =>
    obtain ⟨-, h⟩ := when_eq_some.mp h
    split at h
    · split at h <;> obtain ⟨-, rfl⟩ := tau_eq_some.mp h <;> exact .inr (by simp [hpc])
    · obtain ⟨-, h⟩ := when_eq_some.mp h
      obtain ⟨-, rfl⟩ := tau_eq_some.mp h
      exact .inr (by simp)
  next =>
    obtain ⟨-, rfl⟩ := tau_eq_some.mp h
    exact .inr (by simp)
  next child thread =>
    obtain ⟨-, h⟩ := when_eq_some.mp h
    obtain ⟨-, rfl⟩ := Prod.mk.inj (Option.some.inj h)
    exact .inr (by simp [hpc])
  next v =>
    obtain ⟨-, h⟩ := when_eq_some.mp h
    obtain ⟨-, rfl⟩ := tau_eq_some.mp h
    exact .inr (by simp)
  next v =>
    obtain ⟨-, h⟩ := when_eq_some.mp h
    exact .inr (hset _ h)
  next =>
    obtain ⟨-, h⟩ := when_eq_some.mp h
    exact .inr (hset _ h)
  case h_15 =>
    unfold loadBalance at h
    split at h
    next => cases h
    next =>
      obtain ⟨-, h⟩ := when_eq_some.mp h
      obtain ⟨-, rfl⟩ := tau_eq_some.mp h
      exact .inr (by simp [hpc])
  case h_16 => cases h
  all_goals
    obtain ⟨-, h⟩ := when_eq_some.mp h
    obtain ⟨-, rfl⟩ := Prod.mk.inj (Option.some.inj h)
    exact .inr (by simp [hpc])

/-- No other function leads into `__schedule`. -/
theorem State.step_pc (hpc : ∀ k, s.pc c ≠ .schedule k) (h : s.step M c a = some (e, s')) :
    (∃ preempt, a = .schedule preempt ∧ s'.task = s.task ∧
        s'.pc c = .schedule (.loadState preempt (s.rq c).curr)) ∨
      ∀ k, s'.pc c ≠ .schedule k := by
  by_cases hrun : s.pc c = .running
  · exact enterStep_pc hrun (by simpa [step, hrun] using h)
  · right
    cases step_transition h with
    | enterSchedule preempt hpc' hl => exact absurd hpc' hrun
    | loadBalance q src dest hpc' hq hn hl =>
        obtain hpc' | ⟨_, _, _, hpc'⟩ := hpc'
        · exact absurd hpc' hrun
        · exact absurd hpc' (hpc _)
    | _ =>
        have hpc' := ‹s.pc c = _›
        simp_all

/-! ## Steps -/

/-- A dead task is no idle task. -/
theorem Ok.idle_ne_of_dead (hi : Ok M s) (hd : (s.task p).state = taskDead) (i : Cpu n) :
    M.idle i ≠ p := by
  intro hidle
  have hrun := (hi.coherent.task p).idle_state i hidle
  rw [hd] at hrun
  exact absurd hrun (by decide)

omit [DecidableEq Tid] in
/-- Nobody has a waking of a dead task under way. -/
theorem State.Dead.waking (hd : s.Dead p) : (s.view.task p).waking = false := by
  have hne : taskDead ≠ taskWaking := by decide
  simp [State.view, TaskStruct.view, hd.state, hne]

/-- Dead tasks stay dead, and what has left its run queue stays off it. -/
theorem Awake.dead_step (hs : Awake M s) (hd : s.Dead p) (h : s.step M c a = some (e, s')) :
    s'.Dead p ∧ ((s.task p).onRq = .none → (s'.task p).onRq = .none) := by
  have hal := (State.step_transition h).allocated hd.allocated
  have hwaking := hd.waking
  have hkeep : (s'.task p).state = (s.task p).state → s'.Dead p := fun hst =>
    ⟨hal, hst.trans hd.state⟩
  cases State.step_stateStep hs.ok h p with
  | same hst hq => exact ⟨hkeep hst, fun hn => hq.trans hn⟩
  | sleep hpc hst hq => exact ⟨hkeep hst, fun _ => hq⟩
  | keep hpc hst hq => exact absurd hd.state (hs.sleep.signal c p hpc)
  | self hpc hp hne hl hw hn hq => exact absurd hd.state hne
  | remote r hpc hr hst hq => exact absurd hd.state (hs.sleep.pinned c p (.inl (by rw [hpc]; rfl)))
  | waking hpc hst hq => exact absurd hd.state (hs.sleep.pinned c p (.inr (by rw [hpc]; rfl)))
  | activate d hpc hst hq =>
      have hw := (hs.ok.phaseOk hpc).2.1
      rw [hwaking] at hw
      cases hw
  | pending rest hpc hn hst hq =>
      have hin : p ∈ (s.view.cpu c).inbox := by simp [State.view, hpc, llistOf]
      have hw := (hs.ok.custody.inbox_plain c p hin).1
      rw [hwaking] at hw
      cases hw
  | create hpc ha hst hq =>
      have hal' := hd.allocated
      rw [ha] at hal'
      cases hal'
  | wakeNew hpc ha hnew hl hst hq hk =>
      rw [hd.state] at hnew
      exact absurd hnew (by decide)
  | start r hpc hst hq =>
      have hrun := hs.sleep.starting c p (by rw [hpc]; rfl)
      rw [hd.state] at hrun
      exact absurd hrun (by decide)
  | detach hl hr hst hq hk =>
      refine ⟨hkeep hst, fun hn => ?_⟩
      rw [hr] at hn
      cases hn
  | attach src dest hpc hst hq =>
      refine ⟨hkeep hst, fun hn => ?_⟩
      have hm := hs.sleep.moving c p src dest .enqueue hpc
      rw [hm] at hn
      cases hn

/-- A dead task off its run queue is nobody's choice and no CPU returns to it. -/
theorem Ok.not_settled_of_dead (hi : Ok M s) (hd : s.Dead p) (hq : (s.task p).onRq = .none)
    (c : Cpu n) : ¬ ((s.task p).queuedOn = some c ∨ p = M.idle c) := by
  rintro (hon | hidle)
  · have hqueued := (hi.coherent.task p).onRq_of_queuedOn (by simp [hon])
    rw [hq] at hqueued
    cases hqueued
  · exact hi.idle_ne_of_dead hd.state c hidle.symm

theorem Ok.not_running_of_dead (hi : Ok M s) (hd : s.Dead p) (hq : (s.task p).onRq = .none)
    (hpc : phaseOf (s.pc c) = .quiet) : (s.rq c).curr ≠ p := by
  rintro rfl
  have hs := hi.custody.phase c
  rw [view_phase rfl, hpc] at hs
  exact hi.not_settled_of_dead hd hq c hs

/-- It takes no step of its own. -/
theorem Ok.not_isOf_of_dead (hi : Ok M s) (hd : s.Dead p) (hq : (s.task p).onRq = .none)
    (ht : Transition M s c e s') : ¬ e.isOf p := by
  intro he
  cases ht with
  | curr prev next sc hpc =>
      obtain rfl : next = p := he
      exact hi.not_settled_of_dead hd hq c (hi.phaseOk hpc).1
  | fork child thread hpc ha => exact hi.not_running_of_dead hd hq (by rw [hpc]; rfl) he
  | startToCount hpc => exact hi.not_running_of_dead hd hq (by rw [hpc]; rfl) he
  | stopToCount hpc => exact hi.not_running_of_dead hd hq (by rw [hpc]; rfl) he
  | myGetCpuNumber hpc => exact hi.not_running_of_dead hd hq (by rw [hpc]; rfl) he
  | _ => exact he

/-! ## Whole runs -/

/-- A reachable state with a dead task off its run queue. -/
structure Buried (M : Machine Tid n) (p : Tid) (s : State Tid n) : Prop where
  awake : Awake M s
  dead : s.Dead p
  offRq : (s.task p).onRq = .none

theorem Steps.buried (h : Steps M s e s') (hb : Buried M p s) : Buried M p s' ∧ ¬ e.isOf p := by
  obtain ⟨c, a, hstep⟩ := h
  obtain ⟨hd, hq⟩ := hb.awake.dead_step hb.dead hstep
  refine ⟨⟨Steps.awake ⟨c, a, hstep⟩ hb.awake, hd, hq hb.offRq⟩, ?_⟩
  exact hb.awake.ok.not_isOf_of_dead hb.dead hb.offRq (State.step_transition hstep)

theorem Buried.run (hb : Buried M p s) (h : Run (Steps M) s es t) :
    Buried M p t ∧ ∀ e ∈ es, ¬ e.isOf p := by
  induction h with
  | nil s => exact ⟨hb, fun _ h => nomatch h⟩
  | cons hstep _ ih =>
      obtain ⟨hb', he⟩ := hstep.buried hb
      obtain ⟨hbt, hes⟩ := ih hb'
      refine ⟨hbt, fun e hmem => ?_⟩
      obtain rfl | hmem := List.mem_cons.mp hmem
      · exact he
      · exact hes e hmem

theorem Awake.dead_run (hs : Awake M s) (hd : s.Dead p) (h : Run (Steps M) s es t) :
    t.Dead p := by
  have hinv := h.invariant (I := fun r => Awake M r ∧ r.Dead p) ?_ ⟨hs, hd⟩
  · exact hinv.2
  · rintro r e r' ⟨hr, hrd⟩ ⟨c, a, hstep⟩
    exact ⟨Steps.awake ⟨c, a, hstep⟩ hr, (hr.dead_step hrd hstep).1⟩

/-- A task that is dead in a reachable state is dead ever after. Once it has left its run
queue it is switched in no more, makes no system call, and no CPU returns to it. -/
theorem dead_never_runs (h₁ : Run (Steps M) (boot M c₀) es s)
    (hd : (s.task p).allocated = true ∧ (s.task p).state = taskDead)
    (h₂ : Run (Steps M) s es' t) :
    (t.task p).state = taskDead ∧ ((s.task p).onRq = .none →
      (∀ e ∈ es', ¬ e.isOf p) ∧ ∀ c, t.pc c = .running → (t.rq c).curr ≠ p) := by
  have hs := run_awake h₁
  have hdead : s.Dead p := ⟨hd.1, hd.2⟩
  refine ⟨(hs.dead_run hdead h₂).state, fun hq => ?_⟩
  obtain ⟨hb, hes⟩ := Buried.run ⟨hs, hdead, hq⟩ h₂
  refine ⟨hes, fun c hpc => ?_⟩
  exact hb.awake.ok.not_running_of_dead hb.dead hb.offRq (by rw [hpc]; rfl)

/-- Task 10 dies on CPU 0. -/
def exit : List (Cpu 2 × Action ℕ 2) :=
  [(0, .doTaskDead), (0, .schedule false), (0, .signalPending true), (0, .next)]

/-- CPU 0 goes on with its idle task. -/
def leave : List (Cpu 2 × Action ℕ 2) := (0, .pick 0) :: List.replicate 8 (0, .next)

def leaveEvents : List (Event ℕ 2) :=
  List.replicate 2 .tau ++ .switch 0 10 0 :: List.replicate 6 .tau

/-- Task 10 dies on CPU 0, which leaves it for good. -/
theorem dead_never_runs_exited :
    let s := execState twoCpus (boot twoCpus 0) (forkAndRun ++ exit)
    let t := execState twoCpus s leave
    (t.task 10).state = taskDead ∧ ((s.task 10).onRq = .none →
      (∀ e ∈ leaveEvents, ¬ e.isOf 10) ∧ ∀ c, t.pc c = .running → (t.rq c).curr ≠ 10) := by
  have h₁ : Run (Steps twoCpus) (boot twoCpus 0) _ _ := execState_run (forkAndRun ++ exit) rfl
  exact dead_never_runs h₁ ⟨rfl, rfl⟩ (execState_run leave rfl)

end LinuxOs2022.Scheduler
