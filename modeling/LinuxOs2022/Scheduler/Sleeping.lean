import LinuxOs2022.Scheduler.Counting

/-!
# Who writes the state of a task

`task_struct.state` is written by the task itself, by whoever wakes it, and by `__schedule`
when a signal is pending; `on_rq` is written under the lock of a run queue. `StateStep` lists
these writes with the tests that the code makes before them. From them follows what a CPU
knows about a task that it is putting to sleep or waking: it is not runnable, not dead, and
not on the move.

## Implementation notes

`Transition` does not keep every test of the code; the lemmas at the beginning read the
missing ones off `State.step`.
-/

namespace LinuxOs2022.Scheduler

open Custody Library

variable {Tid : Type} [DecidableEq Tid] {n : ℕ} {M : Machine Tid n} {s s' : State Tid n}
  {c : Cpu n} {a : Action Tid n} {e : Event Tid n} {p : Tid}

/-! ## Tests -/

/-- `__schedule` puts a task to sleep, or keeps it for a pending signal, only when it is not
runnable; a dead task is no task that a signal keeps. -/
theorem State.step_loadState {preempt : Bool} {prev : Tid} (h : s.step M c a = some (e, s'))
    (hpc : s.pc c = .schedule (.loadState preempt prev)) :
    ((preempt = true ∨ (s.task prev).state = taskRunning) ∧
        s' = s.setPc c (.schedule (.pick prev .nivcsw true))) ∨
      (s.task prev).state ≠ taskRunning ∧
        (s' = s.setPc c (.schedule (.deactivate prev)) ∨
          (s.task prev).state ≠ taskDead ∧ s' = s.setPc c (.schedule (.signal prev))) := by
  simp only [step, hpc] at h
  unfold scheduleStep at h
  split at h
  next preempt' prev' b hk =>
    cases hk
    split at h
    next hkeep => exact .inl ⟨by simpa using hkeep, (tau_eq_some.mp h).2⟩
    next hrun =>
      have hne : (s.task prev).state ≠ taskRunning := fun hr => hrun (by simp [hr])
      split at h
      next hsig =>
        refine .inr ⟨hne, .inr ⟨?_, (tau_eq_some.mp h).2⟩⟩
        intro hd
        rw [hd] at hsig
        exact absurd hsig (by cases b <;> decide)
      · exact .inr ⟨hne, .inl (tau_eq_some.mp h).2⟩
  all_goals simp_all

/-- A remote waking makes a task runnable only while it is on its run queue. -/
theorem State.step_remote {r : Cpu n} (h : s.step M c a = some (e, s'))
    (hpc : s.pc c = .tryToWakeUp p (.remote r)) :
    ((s.task p).onRq = .queued ∧
        s' = (s.modTask p (·.ttwuDoWakeup)).setPc c (.taskRqUnlock p r)) ∨
      (s.task p).onRq ≠ .queued ∧ s' = s.setPc c (.tryToWakeUp p (.remoteUnlock r)) := by
  simp only [step, hpc] at h
  unfold tryToWakeUpStep at h
  split at h
  case h_3 r' hk =>
    obtain rfl : r = r' := by simpa using hk
    split at h
    next hq => exact .inl ⟨hq, (tau_eq_some.mp h).2⟩
    next hq => exact .inr ⟨hq, (tau_eq_some.mp h).2⟩
  all_goals simp_all

/-- `__task_rq_lock` goes on only with the run queue of the task, and when the task is not on
the move. -/
theorem State.step_check {r : Cpu n} (h : s.step M c a = some (e, s'))
    (hpc : s.pc c = .taskRqLock p .ttwuRemote (.check r)) :
    ((s.task p).cpu = r ∧ (s.task p).onRq ≠ .migrating ∧
        s' = s.setPc c (.tryToWakeUp p (.remote r))) ∨
      s' = (s.release (.rq r)).setPc c (.taskRqLock p .ttwuRemote .load) := by
  simp only [step, hpc] at h
  unfold taskRqLockStep at h
  split at h
  case h_3 r' hk =>
    obtain rfl : r = r' := by simpa using hk
    split at h
    next heq _ =>
      simp only [Bool.and_eq_true, beq_iff_eq, bne_iff_ne] at heq
      exact .inl ⟨heq.1, heq.2, (tau_eq_some.mp h).2⟩
    all_goals simp_all [tau_eq_some]
  all_goals simp_all

/-! ## Writes to the state of a task -/

/-- The runnable task that a CPU takes to a run queue: a new one, or one on the move. -/
def carriedOf : Pc Tid n → Option Tid
  | .wakeUpNewTask p _ => some p
  | .taskRqLock p .wakeUpNewTask _ => some p
  | .moveQueuedTask p _ _ _ => some p
  | _ => none

/-- What the step of `c` from `s` to `s'` makes of `state` and `on_rq` in the record `t` of
task `p`. -/
inductive StateStep (s s' : State Tid n) (c : Cpu n) (p : Tid) (t t' : TaskStruct Tid n) : Prop
  | same (hs : t'.state = t.state) (hq : t'.onRq = t.onRq)
  | sleep (hpc : s.pc c = .schedule (.deactivate p)) (hs : t'.state = t.state)
      (hq : t'.onRq = .none)
  | keep (hpc : s.pc c = .schedule (.signal p)) (hs : t'.state = taskRunning)
      (hq : t'.onRq = t.onRq)
  /-- The task itself, with its lock free for a special state, or an interrupt on it that
  wakes it. -/
  | self (hpc : s.pc c = .running) (hp : p = (s.rq c).curr) (hd : t.state ≠ taskDead)
      (hl : isSpecialTaskState t'.state = true → s.lock (.pi p) = none)
      (hw : t'.state ≠ taskWaking) (hn : t'.state ≠ taskNew) (hq : t'.onRq = t.onRq)
  | remote (r : Cpu n) (hpc : s.pc c = .tryToWakeUp p (.remote r)) (hr : t.onRq = .queued)
      (hs : t'.state = taskRunning) (hq : t'.onRq = t.onRq)
  | waking (hpc : s.pc c = .tryToWakeUp p .waking) (hs : t'.state = taskWaking)
      (hq : t'.onRq = t.onRq)
  | activate (d : Cpu n) (hpc : s.pc c = .tryToWakeUp p (.activate d))
      (hs : t'.state = taskRunning) (hq : t'.onRq = .queued)
  | pending (rest : List Tid) (hpc : s.pc c = .schedTtwuPending (p :: rest) true)
      (hn : t.onCpu = false) (hs : t'.state = taskRunning) (hq : t'.onRq = .queued)
  | create (hpc : s.pc c = .running) (ha : t.allocated = false) (hs : t'.state = taskNew)
      (hq : t'.onRq = .none)
  | wakeNew (hpc : s.pc c = .running) (ha : t.allocated = true) (ht : t.state = taskNew)
      (hl : s.lock (.pi p) = none) (hs : t'.state = taskRunning) (hq : t'.onRq = t.onRq)
      (hk : carriedOf (s'.pc c) = some p)
  | start (r : Cpu n) (hpc : s.pc c = .wakeUpNewTask p (.activate r))
      (hs : t'.state = t.state) (hq : t'.onRq = .queued)
  | detach (hl : .pi p ∈ heldLocks c (s.pc c)) (hr : t.onRq = .queued)
      (hs : t'.state = t.state) (hq : t'.onRq = .migrating) (hk : carriedOf (s'.pc c) = some p)
  | attach (src dest : Cpu n) (hpc : s.pc c = .moveQueuedTask p src dest .enqueue)
      (hs : t'.state = t.state) (hq : t'.onRq = .queued)

/-- The two fields. -/
def TaskStruct.stateOnRq (t : TaskStruct Tid n) : TaskState × OnRq := (t.state, t.onRq)

omit [DecidableEq Tid] in
theorem StateStep.of_eq {t t' : TaskStruct Tid n} (h : t'.stateOnRq = t.stateOnRq) :
    StateStep s s' c p t t' :=
  .same (congrArg Prod.fst h) (congrArg Prod.snd h)

/-- A write to the record of one task. -/
theorem StateStep.modTask {q : Tid} {f : TaskStruct Tid n → TaskStruct Tid n}
    (h : StateStep s s' c q (s.task q) (f (s.task q))) :
    StateStep s s' c p (s.task p) ((s.modTask q f).task p) := by
  by_cases hp : p = q
  · subst hp
    rwa [State.modTask_task, Function.update_self]
  · rw [State.modTask_of_ne hp]
    exact .same rfl rfl

theorem State.migrateSwapTask_stateOnRq (q : Tid) (d : Cpu n) :
    ((s.migrateSwapTask q d).task p).stateOnRq = (s.task p).stateOnRq := by
  unfold migrateSwapTask
  split
  next hq => exact proj_modTask TaskStruct.stateOnRq (Prod.ext rfl hq.symm)
  next => rfl

omit [DecidableEq Tid] in
/-- No caller asks to wake dead tasks. -/
theorem ne_taskDead_of_mask {mask v : TaskState} (hm : isSchedulerState mask = false)
    (hv : v &&& mask ≠ 0) : v ≠ taskDead := by
  rintro rfl
  have hm' : mask &&& (taskDead ||| taskWaking ||| taskNew) = 0 := by
    simpa [isSchedulerState] using hm
  have hsub : taskDead = taskDead &&& (taskDead ||| taskWaking ||| taskNew) := by decide
  apply hv
  calc taskDead &&& mask = taskDead &&& (taskDead ||| taskWaking ||| taskNew) &&& mask := by
        rw [← hsub]
    _ = taskDead &&& (mask &&& (taskDead ||| taskWaking ||| taskNew)) := by ac_rfl
    _ = 0 := by rw [hm']; exact BitVec.and_zero

/-- A store of the current task to its own state. -/
theorem State.setCurrentState_stateStep {v : TaskState} (hpc : s.pc c = .running)
    (hcall : s.callable c = true) (hw : v ≠ taskWaking) (hn : v ≠ taskNew)
    (h : s.setCurrentState M c v = some (e, s')) :
    StateStep s s' c p (s.task p) (s'.task p) := by
  obtain ⟨hb, h⟩ := when_eq_some.mp h
  obtain ⟨rfl, rfl⟩ := tau_eq_some.mp h
  refine .modTask (.self hpc rfl ?_ ?_ hw hn rfl)
  · simpa [callable] using hcall
  · intro hv
    have hl : isSpecialTaskState v = false ∨ s.lock (.pi (s.rq c).curr) = none := by
      simpa [current, free_iff] using (Bool.and_eq_true_iff.mp hb).2
    exact hl.resolve_left (by simpa [TaskStruct.setState] using hv)

/-- Balancing takes a queued task to another queue. -/
theorem State.loadBalance_stateStep {q : Tid} {dest : Cpu n}
    (ht : ∀ q, TaskOk M q (s.task q)) (h : s.loadBalance c q dest = some (e, s')) :
    StateStep s s' c p (s.task p) (s'.task p) := by
  unfold loadBalance at h
  split at h
  next => cases h
  next src hq =>
    obtain ⟨-, h⟩ := when_eq_some.mp h
    obtain ⟨rfl, rfl⟩ := tau_eq_some.mp h
    refine .modTask (.same rfl ?_)
    exact ((ht q).onRq_of_queuedOn (by simp [hq])).symm

/-- What the entry to a function, or a system call, makes of the states. -/
theorem State.enterStep_stateStep {a : Action Tid n} (hpc : s.pc c = .running)
    (h : s.enterStep M c a = some (e, s')) (ht : ∀ q, TaskOk M q (s.task q)) :
    StateStep s s' c p (s.task p) (s'.task p) := by
  unfold enterStep at h
  split at h
  next preempt =>
    obtain ⟨-, h⟩ := when_eq_some.mp h
    obtain ⟨rfl, rfl⟩ := tau_eq_some.mp h
    exact .same rfl rfl
  next q mask =>
    obtain ⟨hb, h⟩ := when_eq_some.mp h
    simp only [Bool.and_eq_true, Bool.not_eq_true'] at hb
    split at h
    next hq =>
      split at h
      · obtain ⟨rfl, rfl⟩ := tau_eq_some.mp h
        exact .same rfl rfl
      next hm =>
        obtain ⟨rfl, rfl⟩ := tau_eq_some.mp h
        refine .modTask (.self hpc hq (ne_taskDead_of_mask hb.2 hm) ?_ ?_ ?_ rfl)
        · intro hv
          exact absurd hv (by decide : ¬ isSpecialTaskState taskRunning = true)
        · exact (by decide : taskRunning ≠ taskWaking)
        · exact (by decide : taskRunning ≠ taskNew)
    next =>
      obtain ⟨-, h⟩ := when_eq_some.mp h
      obtain ⟨rfl, rfl⟩ := tau_eq_some.mp h
      exact .same rfl rfl
  next =>
    obtain ⟨rfl, rfl⟩ := tau_eq_some.mp h
    exact .same rfl rfl
  next child thread =>
    obtain ⟨hb, h⟩ := when_eq_some.mp h
    simp only [Bool.and_eq_true, Bool.not_eq_true'] at hb
    obtain ⟨rfl, rfl⟩ := Prod.mk.inj (Option.some.inj h)
    exact .modTask (.create hpc hb.2 rfl rfl)
  next q =>
    obtain ⟨hb, h⟩ := when_eq_some.mp h
    simp only [Bool.and_eq_true, beq_iff_eq, free_iff] at hb
    obtain ⟨rfl, rfl⟩ := tau_eq_some.mp h
    exact .modTask (.wakeNew hpc hb.1.1 hb.1.2 hb.2 rfl rfl (by simp [carriedOf]))
  next v =>
    obtain ⟨hb, h⟩ := when_eq_some.mp h
    simp only [Bool.and_eq_true, Bool.not_eq_true'] at hb
    obtain ⟨hw, hn⟩ := ne_of_isSchedulerState hb.2
    exact setCurrentState_stateStep hpc hb.1 hw hn h
  next =>
    obtain ⟨hb, h⟩ := when_eq_some.mp h
    exact setCurrentState_stateStep hpc hb (by decide) (by decide) h
  next =>
    obtain ⟨-, h⟩ := when_eq_some.mp h
    obtain ⟨rfl, rfl⟩ := Prod.mk.inj (Option.some.inj h)
    exact .modTask (.same rfl rfl)
  next =>
    obtain ⟨-, h⟩ := when_eq_some.mp h
    obtain ⟨rfl, rfl⟩ := Prod.mk.inj (Option.some.inj h)
    exact .same rfl rfl
  next =>
    obtain ⟨-, h⟩ := when_eq_some.mp h
    obtain ⟨rfl, rfl⟩ := Prod.mk.inj (Option.some.inj h)
    exact .same rfl rfl
  next q dest =>
    obtain ⟨-, h⟩ := when_eq_some.mp h
    obtain ⟨rfl, rfl⟩ := tau_eq_some.mp h
    exact .same rfl rfl
  next q dest =>
    obtain ⟨-, h⟩ := when_eq_some.mp h
    obtain ⟨rfl, rfl⟩ := tau_eq_some.mp h
    exact .same rfl rfl
  next partner =>
    obtain ⟨-, h⟩ := when_eq_some.mp h
    obtain ⟨rfl, rfl⟩ := tau_eq_some.mp h
    exact .same rfl rfl
  next arg =>
    obtain ⟨-, h⟩ := when_eq_some.mp h
    obtain ⟨rfl, rfl⟩ := tau_eq_some.mp h
    exact .same rfl rfl
  next q dest => exact loadBalance_stateStep ht h
  next => cases h

/-- What a step makes of the states. -/
theorem State.step_stateStep (hi : Ok M s) (h : s.step M c a = some (e, s')) (p : Tid) :
    StateStep s s' c p (s.task p) (s'.task p) := by
  by_cases hrun : s.pc c = .running
  · exact enterStep_stateStep hrun (by simpa [step, hrun] using h) hi.coherent.task
  cases step_transition h with
  | signal prev hpc => exact .modTask (.keep hpc rfl rfl)
  | deactivate prev hpc => exact .modTask (.sleep hpc rfl rfl)
  | switchCount prev next sc hpc => exact .modTask (.of_eq (by cases sc <;> rfl))
  | storeCount prev next v hpc =>
      rw [setPc_task]
      apply StateStep.modTask
      exact .same rfl rfl
  | prepareTask prev next hpc =>
      rw [setPc_task]
      apply StateStep.modTask
      exact .same rfl rfl
  | finishTask prev hpc =>
      rw [setPc_task]
      apply StateStep.modTask
      exact .same rfl rfl
  | remoteWake q r hpc =>
      obtain ⟨hq, -⟩ | ⟨-, hs⟩ := step_remote h hpc
      · exact .modTask (.remote r hpc hq rfl rfl)
      · rw [hs]
        exact .same rfl rfl
  | waking q hpc => exact .modTask (.waking hpc rfl rfl)
  | selectTaskRq q d hpc => exact .modTask (.same rfl rfl)
  | activate q d hpc => exact .modTask (.activate d hpc rfl rfl)
  | activatePending q rest hpc hn =>
      rw [setPc_task]
      apply StateStep.modTask
      exact .pending rest hpc hn rfl rfl
  | newSetCpu q d hpc =>
      rw [setPc_task]
      apply StateStep.modTask
      exact .same rfl rfl
  | newActivate q r hpc => exact .modTask (.start r hpc rfl rfl)
  | lockedMove q dest r hpc hr hn hq =>
      exact .modTask (.detach (by simp [hpc, heldLocks]) hq rfl rfl (by simp [carriedOf]))
  | cpuStopMove q dest hpc hr hq =>
      exact .modTask (.detach (by simp [hpc, heldLocks]) hq rfl rfl (by simp [carriedOf]))
  | moveSetCpu q src dest hpc => exact .modTask (.same rfl rfl)
  | moveEnqueue q src dest hpc => exact .modTask (.attach src dest hpc rfl rfl)
  | swap arg hpc hsrc hdst =>
      exact .of_eq ((migrateSwapTask_stateOnRq _ _).trans (migrateSwapTask_stateOnRq _ _))
  | loadBalance q src dest hpc hq hn hl =>
      exact .modTask (.same rfl ((hi.coherent.task q).onRq_of_queuedOn (by simp [hq])).symm)
  | enterSchedule preempt hpc hl => exact absurd hpc hrun
  | wakeSelf mask hpc => exact absurd hpc hrun
  | fork child thread hpc ha => exact absurd hpc hrun
  | wakeNew q hpc ha hs hl => exact absurd hpc hrun
  | setState v hpc hidle hv hv' => exact absurd hpc hrun
  | startToCount hpc => exact absurd hpc hrun
  | _ => exact .same rfl rfl

/-! ## What other CPUs leave alone -/

/-- A task comes into being as a new one. -/
theorem Transition.allocated_of_not_new (ht : Transition M s c e s')
    (ha : (s'.task p).allocated = true) (hn : (s'.task p).state ≠ taskNew) :
    (s.task p).allocated = true := by
  cases ht.accountStep p with
  | same h => exact (congrArg Prod.fst h).symm.trans ha
  | switchCount next sc hpc h =>
      rw [h] at ha
      cases sc <;> exact ha
  | storeCount prev v hpc h =>
      rw [h] at ha
      exact ha
  | start hpc hp he h =>
      rw [h] at ha
      exact ha
  | fork tgid hpc he hf h =>
      rw [h] at hn
      exact absurd rfl hn

/-- Two CPUs do not lock one task. -/
theorem Ok.ne_of_locked (hi : Ok M s) {b : Cpu n} {q : Tid} (hb : b ≠ c)
    (hp : .pi p ∈ heldLocks b (s.pc b)) (hq : .pi q ∈ heldLocks c (s.pc c)) : p ≠ q := by
  rintro rfl
  exact hb (hi.locks.exclusive hp hq)

omit [DecidableEq Tid] in
theorem StateStep.ne_dead {t t' : TaskStruct Tid n} (h : StateStep s s' c p t t')
    (hl : s.lock (.pi p) ≠ none) (hd : t.state ≠ taskDead) : t'.state ≠ taskDead := by
  cases h with
  | keep hpc hs hq => exact hs ▸ by decide
  | self hpc hp hd' hl' hw hn hq =>
      intro he
      exact hl (hl' (he ▸ by decide))
  | remote r hpc hr hs hq => exact hs ▸ by decide
  | waking hpc hs hq => exact hs ▸ by decide
  | activate d hpc hs hq => exact hs ▸ by decide
  | pending rest hpc hn hs hq => exact hs ▸ by decide
  | create hpc ha hs hq => exact hs ▸ by decide
  | wakeNew hpc ha ht hl' hs hq hk => exact hs ▸ by decide
  | same hs hq => exact hs ▸ hd
  | sleep hpc hs hq => exact hs ▸ hd
  | start r hpc hs hq => exact hs ▸ hd
  | detach hl' hr hs hq hk => exact hs ▸ hd
  | attach src dest hpc hs hq => exact hs ▸ hd

/-- A task that is on no queue and used by no CPU belongs to the CPU that holds it. -/
theorem StateStep.eq_of_own {b : Cpu n} {w : Bool} {x : Option (Cpu n)}
    (h : StateStep s s' c p (s.task p) (s'.task p)) (hi : Ok M s) (hb : b ≠ c)
    (hown : phaseOf (s.pc b) = .own w p x) :
    (s'.task p).stateOnRq = (s.task p).stateOnRq := by
  have hheld : (phaseOf (s.pc b)).held = some p := by rw [hown]; rfl
  have hpi := pi_of_held (c := b) hheld
  have hlock := hi.locks b _ hpi
  have hother : .pi p ∉ heldLocks c (s.pc c) := fun hc => hi.ne_of_locked hb hpi hc rfl
  have hfree : ¬ s.view.Occupies c p := by
    have hph := hi.custody.phase b
    rw [view_phase rfl, hown] at hph
    exact hph.2.2.2.1 c
  have hcurr : p ≠ (s.rq c).curr := fun he => hfree (.inl he.symm)
  have hplain := hi.custody.held_plain b p hheld
  cases h with
  | same hs hq => exact Prod.ext hs hq
  | sleep hpc hs hq => exact absurd (hi.pcOk hpc) hcurr
  | keep hpc hs hq => exact absurd (hi.pcOk hpc) hcurr
  | self hpc hp hd hl hw hn hq => exact absurd hp hcurr
  | pending rest hpc hn hs hq =>
      have hin : p ∈ (s.view.cpu c).inbox := by simp [State.view, hpc, llistOf]
      exact absurd hheld ((hi.custody.inbox_plain c p hin).2.2 b)
  | create hpc ha hs hq =>
      have hf : (s.view.task p).fresh = true := by simp [State.view, TaskStruct.view, ha]
      rw [hplain.1] at hf
      cases hf
  | wakeNew hpc ha ht hl hs hq hk =>
      rw [hlock] at hl
      cases hl
  | detach hl hr hs hq hk => exact absurd hl hother
  | _ =>
      have hpc := ‹s.pc c = _›
      exact absurd (by simp [hpc, heldLocks]) hother

/-- The current task of a CPU that holds its own run queue's lock keeps its state. -/
theorem StateStep.state_of_curr {b : Cpu n} (h : StateStep s s' c p (s.task p) (s'.task p))
    (hi : Ok M s) (hr : ∀ r, s.pc c = .tryToWakeUp p (.remote r) → (s.task p).cpu = r)
    (hb : b ≠ c) (hp : p = (s.rq b).curr) (hl : .rq b ∈ heldLocks b (s.pc b))
    (hq : phaseOf (s.pc b) = .quiet) : (s'.task p).state = (s.task p).state := by
  have hs : Settled M.idle s.view b := by
    have h := hi.custody.phase b
    rwa [view_phase rfl, hq] at h
  have hsettled : (s.view.task p).queued = some b ∨ p = M.idle b := by rw [hp]; exact hs
  have hcurr : p ≠ (s.rq c).curr := fun he => hb (hi.curr_injective (hp.symm.trans he))
  have hplain := hi.curr_plain hs
  rw [← hp] at hplain
  -- nobody can have it in hand off its queue
  have hheld : ∀ a, (phaseOf (s.pc a)).held = some p → (s.view.task p).queued ≠ none := by
    intro a ha hn
    obtain hqb | hidle := hsettled
    · rw [hqb] at hn
      cases hn
    · exact (hi.custody.held_plain a p ha).2 b hidle.symm
  cases h with
  | same hs' hq' => exact hs'
  | sleep hpc hs' hq' => exact hs'
  | keep hpc hs' hq' => exact absurd (hi.pcOk hpc) hcurr
  | self hpc hp' hd hl' hw hn hq' => exact absurd hp' hcurr
  | remote r hpc hr' hs' hq' =>
      have hcpu : (s.task p).cpu = b := hp ▸ hi.cpu_curr b
      obtain rfl : b = r := hcpu.symm.trans (hr r hpc)
      exact absurd (hi.locks.exclusive hl (by simp [hpc, heldLocks])) hb
  | waking hpc hs' hq' =>
      exact absurd (hi.phaseOk hpc).2.2 (hheld c (by rw [hpc]; rfl))
  | activate d hpc hs' hq' =>
      exact absurd (hi.phaseOk hpc).2.2.1 (hheld c (by rw [hpc]; rfl))
  | pending rest hpc hn hs' hq' =>
      have hin : p ∈ (s.view.cpu c).inbox := by simp [State.view, hpc, llistOf]
      obtain hqb | hidle := hsettled
      · rw [hi.custody.queued_of_inbox hin] at hqb
        cases hqb
      · exact absurd hidle.symm (hi.custody.idle_ne_of_inbox hin b)
  | create hpc ha hs' hq' =>
      have hal : (s.task p).allocated = true := hp ▸ hi.allocated_curr
      rw [ha] at hal
      cases hal
  | wakeNew hpc ha ht hl' hs' hq' hk =>
      have hf := hplain.2
      simp [TaskStruct.view, ht] at hf
  | start r hpc hs' hq' => exact hs'
  | detach hl' hr' hs' hq' hk => exact hs'
  | attach src dest hpc hs' hq' => exact hs'

/-- A task keeps its CPU while another CPU holds both of its locks. -/
theorem Transition.cpu_of_pin (ht : Transition M s c e s') (hi : Ok M s) {b r : Cpu n}
    (hb : b ≠ c) (hpc : s.pc b = .tryToWakeUp p (.remote r)) (hr : (s.task p).cpu = r) :
    (s'.task p).cpu = (s.task p).cpu := by
  have hpi : .pi p ∈ heldLocks b (s.pc b) := by simp [hpc, heldLocks]
  have hheld : (s.view.cpu b).phase.held = some p := by rw [view_phase hpc]; rfl
  have hne : ∀ q, .pi q ∈ heldLocks c (s.pc c) → p ≠ q := fun q => hi.ne_of_locked hb hpi
  have hswap : ∀ (q : Tid) (d : Cpu n) (t : State Tid n), p ≠ q →
      (t.migrateSwapTask q d).task p = t.task p := by
    intro q d t hq
    unfold State.migrateSwapTask
    split
    · exact State.modTask_of_ne hq
    · rfl
  cases ht with
  | selectTaskRq q d hpc' =>
      rw [State.setPc_task, State.modTask_of_ne (hne q (by simp [hpc', heldLocks]))]
  | activatePending q rest hpc' hn =>
      have hin : q ∈ (s.view.cpu c).inbox := by simp [State.view, hpc', llistOf]
      have hq : p ≠ q := by
        rintro rfl
        exact (hi.custody.inbox_plain c p hin).2.2 b hheld
      rw [State.setPc_task, State.modTask_of_ne hq]
  | fork child thread hpc' ha =>
      have hf := (hi.custody.held_plain b p hheld).1
      have hq : p ≠ child := by
        rintro rfl
        simp [State.view, TaskStruct.view, ha] at hf
      rw [State.modTask_of_ne hq]
  | newSetCpu q d hpc' =>
      rw [State.setPc_task, State.modTask_of_ne (hne q (by simp [hpc', heldLocks]))]
  | moveSetCpu q src dest hpc' =>
      rw [State.setPc_task, State.modTask_of_ne (hne q (by simp [hpc', heldLocks]))]
  | swap arg hpc' hsrc hdst =>
      rw [State.setPc_task, hswap _ _ _ (hne arg.dstTask (by simp [hpc', heldLocks])),
        hswap _ _ _ (hne arg.srcTask (by simp [hpc', heldLocks]))]
  | loadBalance q src dest hpc' hq hn hl =>
      have hq' : p ≠ q := by
        rintro rfl
        have hhome : (s.task p).cpu = src := hi.custody.queued_home src p hq
        have hown := hi.locks b (.rq r) (by simp [hpc, heldLocks])
        rw [← hr, hhome] at hown
        obtain hl | hl := hl
        · rw [hown] at hl
          cases hl
        · exact hb (Option.some.inj (hown.symm.trans hl))
      rw [State.modTask_of_ne hq']
  | switchCount prev next sc hpc' =>
      rw [State.setPc_task]
      exact State.proj_modTask TaskStruct.cpu (by cases sc <;> rfl)
  | storeCount prev next v hpc' =>
      rw [State.setPc_task]
      exact State.proj_modTask TaskStruct.cpu rfl
  | prepareTask prev next hpc' =>
      rw [State.setPc_task]
      exact State.proj_modTask TaskStruct.cpu rfl
  | finishTask prev hpc' =>
      rw [State.setPc_task]
      exact State.proj_modTask TaskStruct.cpu rfl
  | stopToCount hpc' => rfl
  | myGetCpuNumber hpc' => rfl
  | stay hpc' => rfl
  | _ =>
      first
      | rfl
      | exact State.proj_modTask TaskStruct.cpu (by rfl)

/-! ## What a CPU knows of the task it has in hand -/

/-- The new task that a CPU is starting. -/
def startingOf : Pc Tid n → Option Tid
  | .wakeUpNewTask p _ => some p
  | .taskRqLock p .wakeUpNewTask _ => some p
  | _ => none

omit [DecidableEq Tid] in
theorem phaseOf_of_starting {k : Pc Tid n} (h : startingOf k = some p) :
    ∃ x, phaseOf k = .own false p x := by
  unfold startingOf at h
  split at h
  next q k => cases k <;> cases h <;> exact ⟨_, rfl⟩
  next => cases h; exact ⟨_, rfl⟩
  next => cases h

/-- A task is put to sleep when it does not run; it is woken, or kept for a signal, when it is
not dead. A remote waking has the run queue of the task. A task that starts is runnable, and
one between two queues is on the move. -/
structure SleepOk (s : State Tid n) : Prop where
  deactivate : ∀ c p, s.pc c = .schedule (.deactivate p) → (s.task p).state ≠ taskRunning
  signal : ∀ c p, s.pc c = .schedule (.signal p) → (s.task p).state ≠ taskDead
  pinned : ∀ c p, phaseOf (s.pc c) = .pin p ∨ phaseOf (s.pc c) = .claim p →
    (s.task p).state ≠ taskDead
  remote : ∀ c p r, s.pc c = .tryToWakeUp p (.remote r) → (s.task p).cpu = r
  starting : ∀ c p, startingOf (s.pc c) = some p → (s.task p).state = taskRunning
  moving : ∀ c p src dest k, s.pc c = .moveQueuedTask p src dest k →
    (s.task p).onRq = .migrating

theorem State.step_deactivate (h : s.step M c a = some (e, s'))
    (hpc : s'.pc c = .schedule (.deactivate p)) : (s'.task p).state ≠ taskRunning := by
  cases step_transition h with
  | loadStateSleep preempt prev hpc' =>
      obtain rfl : prev = p := by simpa using hpc
      obtain ⟨-, hk⟩ | ⟨hne, -⟩ := step_loadState h hpc'
      · have hc := congrArg (State.pc · c) hk
        simp at hc
      · exact hne
  | loadBalance q src dest hpc' hq hn hl =>
      obtain hpc' | ⟨_, _, _, hpc'⟩ := hpc' <;> simp [hpc'] at hpc
  | _ =>
      have hpc' := ‹s.pc c = _›
      simp_all

theorem State.step_signal (h : s.step M c a = some (e, s'))
    (hpc : s'.pc c = .schedule (.signal p)) : (s'.task p).state ≠ taskDead := by
  cases step_transition h with
  | loadStateSignal preempt prev hpc' =>
      obtain rfl : prev = p := by simpa using hpc
      obtain ⟨-, hk⟩ | ⟨-, hk | ⟨hne, -⟩⟩ := step_loadState h hpc'
      · have hc := congrArg (State.pc · c) hk
        simp at hc
      · have hc := congrArg (State.pc · c) hk
        simp at hc
      · exact hne
  | loadBalance q src dest hpc' hq hn hl =>
      obtain hpc' | ⟨_, _, _, hpc'⟩ := hpc' <;> simp [hpc'] at hpc
  | _ =>
      have hpc' := ‹s.pc c = _›
      simp_all

/-- A waking begins with a task that is not dead. -/
theorem Transition.pinned (ht : Transition M s c e s') (hi : Ok M s) (hs : SleepOk s)
    (hpin : phaseOf (s'.pc c) = .pin p ∨ phaseOf (s'.pc c) = .claim p) :
    (s'.task p).state ≠ taskDead := by
  have hold := hs.pinned c p
  cases ht with
  | stateHit q mask hpc hm =>
      obtain rfl : q = p := by simpa [phaseOf] using hpin
      exact ne_taskDead_of_mask (hi.pcOk hpc).2 hm
  | loadRq q caller hpc => cases caller <;> simp_all [phaseOf]
  | lockRq q caller r hpc hl => cases caller <;> simp_all [phaseOf]
  | lockRetry q caller r hpc hc => cases caller <;> simp_all [phaseOf]
  | loadBalance q src dest hpc hq hn hl =>
      obtain hpc | ⟨_, _, _, hpc⟩ := hpc <;> simp [hpc, phaseOf] at hpin
  | _ =>
      have hpc := ‹s.pc c = _›
      simp_all [phaseOf]

/-- A remote waking begins with the run queue of the task. -/
theorem State.step_remoteLocked {r : Cpu n} (h : s.step M c a = some (e, s'))
    (hpc : s'.pc c = .tryToWakeUp p (.remote r)) : (s'.task p).cpu = r := by
  cases step_transition h with
  | remoteLocked q r' hpc' =>
      obtain ⟨rfl, rfl⟩ : q = p ∧ r' = r := by simpa using hpc
      obtain ⟨hr, -⟩ | hk := step_check h hpc'
      · exact hr
      · have hc := congrArg (State.pc · c) hk
        simp at hc
  | loadBalance q src dest hpc' hq hn hl =>
      obtain hpc' | ⟨_, _, _, hpc'⟩ := hpc' <;> simp [hpc'] at hpc
  | _ =>
      have hpc' := ‹s.pc c = _›
      simp_all

/-- A task is started runnable. -/
theorem Transition.starting (ht : Transition M s c e s') (hs : SleepOk s)
    (hp : startingOf (s'.pc c) = some p) : (s'.task p).state = taskRunning := by
  have hold := hs.starting c p
  cases ht with
  | wakeNew q hpc ha ht hl =>
      obtain rfl : q = p := by simpa [startingOf] using hp
      simp [TaskStruct.setState]
  | loadRq q caller hpc => cases caller <;> simp_all [startingOf]
  | lockRq q caller r hpc hl => cases caller <;> simp_all [startingOf]
  | lockRetry q caller r hpc hc => cases caller <;> simp_all [startingOf]
  | loadBalance q src dest hpc hq hn hl =>
      obtain hpc | ⟨_, _, _, hpc⟩ := hpc <;> simp [hpc, startingOf] at hp
  | _ =>
      have hpc := ‹s.pc c = _›
      simp_all [startingOf]

/-- A task that leaves its run queue for another one is on the move. -/
theorem Transition.moving (ht : Transition M s c e s') (hs : SleepOk s) {src dest : Cpu n}
    {k : MovePc} (hp : s'.pc c = .moveQueuedTask p src dest k) :
    (s'.task p).onRq = .migrating := by
  have hold := hs.moving c p src dest
  cases ht with
  | loadBalance q src dest hpc hq hn hl =>
      obtain hpc | ⟨_, _, _, hpc⟩ := hpc <;> simp [hpc] at hp
  | lockedMove q dest' r hpc hr hn hq =>
      obtain ⟨rfl, -⟩ : q = p ∧ _ := by simpa using hp
      simp [TaskStruct.deactivateTask]
  | cpuStopMove q dest' hpc hr hq =>
      obtain ⟨rfl, -⟩ : q = p ∧ _ := by simpa using hp
      simp [TaskStruct.deactivateTask]
  | moveSetCpu q src' dest' hpc =>
      obtain ⟨rfl, rfl, rfl, -⟩ : q = p ∧ src' = src ∧ dest' = dest ∧ _ := by simpa using hp
      simpa [TaskStruct.setTaskCpu] using hold .setCpu hpc
  | moveUnlock q src' dest' hpc =>
      obtain ⟨rfl, rfl, rfl, -⟩ : q = p ∧ src' = src ∧ dest' = dest ∧ _ := by simpa using hp
      exact hold .unlock hpc
  | moveLock q src' dest' hpc hl =>
      obtain ⟨rfl, rfl, rfl, -⟩ : q = p ∧ src' = src ∧ dest' = dest ∧ _ := by simpa using hp
      exact hold .lock hpc
  | _ =>
      have hpc := ‹s.pc c = _›
      simp_all

/-- Every step keeps what the CPUs know of these tasks. -/
theorem State.step_sleepOk (hi : Ok M s) (hs : SleepOk s)
    (h : s.step M c a = some (e, s')) : SleepOk s' := by
  have ht := step_transition h
  have hstep := fun p => step_stateStep hi h p
  have hpc : ∀ {b}, b ≠ c → s'.pc b = s.pc b := ht.pc_of_ne
  have hown : ∀ {b p x}, b ≠ c → phaseOf (s.pc b) = .own false p x →
      (s'.task p).state = (s.task p).state ∧ (s'.task p).onRq = (s.task p).onRq := by
    intro b p x hb hx
    exact Prod.mk.inj ((hstep p).eq_of_own hi hb hx)
  constructor
  · intro b p hp
    by_cases hb : b = c
    · exact step_deactivate h (hb ▸ hp)
    · rw [hpc hb] at hp
      rw [(hstep p).state_of_curr hi (hs.remote c p) hb (hi.pcOk hp) (by simp [hp, heldLocks])
        (by rw [hp]; rfl)]
      exact hs.deactivate b p hp
  · intro b p hp
    by_cases hb : b = c
    · exact step_signal h (hb ▸ hp)
    · rw [hpc hb] at hp
      rw [(hstep p).state_of_curr hi (hs.remote c p) hb (hi.pcOk hp) (by simp [hp, heldLocks])
        (by rw [hp]; rfl)]
      exact hs.signal b p hp
  · intro b p hp
    by_cases hb : b = c
    · exact ht.pinned hi hs (hb ▸ hp)
    · rw [hpc hb] at hp
      have hheld : (phaseOf (s.pc b)).held = some p := by
        obtain hp | hp := hp <;> rw [hp] <;> rfl
      have hlock := hi.locks b _ (pi_of_held hheld)
      exact (hstep p).ne_dead (by simp [hlock]) (hs.pinned b p hp)
  · intro b p r hp
    by_cases hb : b = c
    · exact step_remoteLocked h (hb ▸ hp)
    · rw [hpc hb] at hp
      have hr := hs.remote b p r hp
      rw [ht.cpu_of_pin hi hb hp hr, hr]
  · intro b p hp
    by_cases hb : b = c
    · exact ht.starting hs (hb ▸ hp)
    · rw [hpc hb] at hp
      obtain ⟨x, hx⟩ := phaseOf_of_starting hp
      rw [(hown hb hx).1]
      exact hs.starting b p hp
  · intro b p src dest k hp
    by_cases hb : b = c
    · exact ht.moving hs (hb ▸ hp)
    · rw [hpc hb] at hp
      have hx : ∃ x, phaseOf (s.pc b) = .own false p x := by
        rw [hp]
        cases k <;> exact ⟨_, rfl⟩
      rw [(hown hb hx.choose_spec).2]
      exact hs.moving b p src dest k hp

/-! ## Whole runs -/

/-- The state is in order, and so is what the CPUs know of the tasks they put to sleep or
wake. -/
structure Awake (M : Machine Tid n) (s : State Tid n) : Prop where
  ok : Ok M s
  sleep : SleepOk s

theorem Steps.awake (h : Steps M s e s') (hs : Awake M s) : Awake M s' := by
  obtain ⟨c, a, hstep⟩ := h
  exact ⟨Steps.ok ⟨c, a, hstep⟩ hs.ok, State.step_sleepOk hs.ok hs.sleep hstep⟩

theorem boot_awake {c₀ : Cpu n} : Awake M (boot M c₀) where
  ok := boot_ok
  sleep := by
    constructor
    · exact fun _ _ h => nomatch h
    · exact fun _ _ h => nomatch h
    · rintro _ _ (h | h) <;> cases h
    · exact fun _ _ _ h => nomatch h
    · exact fun _ _ h => nomatch h
    · exact fun _ _ _ _ _ h => nomatch h

theorem Awake.run {es : List (Event Tid n)} (hs : Awake M s) (h : Run (Steps M) s es s') :
    Awake M s' := h.invariant (fun _ _ _ hs hstep => hstep.awake hs) hs

/-- Every reachable state is awake. -/
theorem run_awake {c₀ : Cpu n} {es : List (Event Tid n)}
    (h : Run (Steps M) (boot M c₀) es s) : Awake M s := boot_awake.run h

end LinuxOs2022.Scheduler
