import LinuxOs2022.Scheduler.WakeUps

/-!
# When a task is asleep

A task is asleep from its deactivation in `__schedule` until it is activated by
`ttwu_do_activate`, on the CPU that wakes it or from the call queue of another one. No other
step puts a task to sleep or ends its sleep. What `__schedule` and `ttwu_do_activate` count is
therefore counted once.
-/

namespace LinuxOs2022.Scheduler

open Custody Library

variable {Tid : Type} [DecidableEq Tid] {n : ℕ} {M : Machine Tid n} {s s' : State Tid n}
  {c c₀ : Cpu n} {a : Action Tid n} {e : Event Tid n} {es : List (Event Tid n)} {p : Tid}

/-! ## Tasks on no run queue -/

/-- The task has left its run queue and is not yet back on one; a new task was on none. -/
structure State.Asleep (s : State Tid n) (p : Tid) : Prop where
  allocated : (s.task p).allocated = true
  onRq : (s.task p).onRq = .none
  not_running : (s.task p).state ≠ taskRunning
  not_new : (s.task p).state ≠ taskNew

/-- A task on the move is carried by some CPU. -/
def State.Moving (s : State Tid n) : Prop :=
  ∀ p, (s.task p).onRq = .migrating → ∃ c, carriedOf (s.pc c) = some p

/-- The state is in order, and every runnable task is on a run queue or in the hands of a
CPU. -/
structure Tended (M : Machine Tid n) (s : State Tid n) : Prop where
  awake : Awake M s
  placed : s.Placed M
  moving : s.Moving

/-- A CPU that carries a task to a queue goes on to do so. -/
theorem State.step_carried (hm : s.Moving) (h : s.step M c a = some (e, s'))
    (hq : (s.task p).onRq = .migrating) :
    (∃ b, carriedOf (s'.pc b) = some p) ∨ (s'.task p).onRq = .queued := by
  have ht := step_transition h
  obtain ⟨b, hb⟩ := hm p hq
  by_cases hbc : b = c
  · subst hbc
    exact (ht.carried hb).imp_left fun hc => ⟨b, hc⟩
  · exact .inl ⟨b, (ht.pc_of_ne hbc).symm ▸ hb⟩

theorem State.step_moving (hs : Awake M s) (hm : s.Moving) (h : s.step M c a = some (e, s')) :
    s'.Moving := by
  intro p hq
  have hkept : (s'.task p).onRq = (s.task p).onRq → ∃ b, carriedOf (s'.pc b) = some p := by
    intro hsame
    obtain hc | hc := step_carried hm h (hsame.symm.trans hq)
    · exact hc
    · rw [hq] at hc
      cases hc
  have hleft : ∀ v, (s'.task p).onRq = v → v ≠ .migrating → ∃ b, carriedOf (s'.pc b) = some p :=
    fun v hv hne => absurd (hv.symm.trans hq) hne
  cases step_stateStep hs.ok h p with
  | same hst hq' => exact hkept hq'
  | sleep hpc hst hq' => exact hleft _ hq' (by decide)
  | keep hpc hst hq' => exact hkept hq'
  | self hpc hp hd hl hw hn hq' => exact hkept hq'
  | remote r hpc hr hst hq' => exact hkept hq'
  | waking hpc hst hq' => exact hkept hq'
  | activate d hpc hst hq' => exact hleft _ hq' (by decide)
  | pending rest hpc hn hst hq' => exact hleft _ hq' (by decide)
  | create hpc ha hst hq' => exact hleft _ hq' (by decide)
  | wakeNew hpc ha hnew hl hst hq' hk => exact hkept hq'
  | start r hpc hst hq' => exact hleft _ hq' (by decide)
  | detach hl hr hst hq' hk => exact ⟨c, hk⟩
  | attach src dest hpc hst hq' => exact hleft _ hq' (by decide)

theorem State.step_tended (hs : Tended M s) (h : s.step M c a = some (e, s')) :
    Tended M s' where
  awake := Steps.awake ⟨c, a, h⟩ hs.awake
  placed := step_placed hs.awake hs.placed h
  moving := step_moving hs.awake hs.moving h

theorem boot_tended : Tended M (boot M c₀) where
  awake := boot_awake
  placed := boot_placed
  moving := by
    intro p hq
    have hne : (bootTask M c₀ p).onRq ≠ .migrating := by
      unfold bootTask
      dsimp only
      split <;> decide
    exact absurd hq hne

/-! ## What the wakers find -/

/-- A task on no run queue that no CPU carries, and that was started, is asleep. -/
theorem Tended.asleep (hs : Tended M s) (hq : (s.task p).queuedOn = none)
    (hf : (s.view.task p).fresh = false) (hidle : ∀ i, M.idle i ≠ p)
    (hc : ∀ b, carriedOf (s.pc b) ≠ some p) : s.Asleep p := by
  have hfresh : (s.task p).allocated = true ∧ (s.task p).state ≠ taskNew := by
    simpa [State.view, TaskStruct.view] using hf
  have hqueued : (s.task p).onRq ≠ .queued := fun hon =>
    (hs.awake.ok.coherent.task p).queuedOn_of_onRq hon hidle hq
  refine ⟨hfresh.1, ?_, ?_, hfresh.2⟩
  · cases hon : (s.task p).onRq with
    | none => rfl
    | queued => exact absurd hon hqueued
    | migrating =>
        obtain ⟨b, hb⟩ := hs.moving p hon
        exact absurd hb (hc b)
  · intro hrun
    obtain hon | ⟨b, hb⟩ := hs.placed p hfresh.1 hidle hrun
    · exact hqueued hon
    · exact hc b hb

/-- A waker that has found its task off the run queue has a sleeping task. -/
theorem Tended.asleep_of_held (hs : Tended M s) (hheld : (phaseOf (s.pc c)).held = some p)
    (hq : (s.task p).queuedOn = none) (hc : carriedOf (s.pc c) ≠ some p) : s.Asleep p := by
  have hplain := hs.awake.ok.custody.held_plain c p hheld
  refine hs.asleep hq hplain.1 hplain.2 fun b hb => ?_
  obtain ⟨x, hx⟩ := phaseOf_of_carried hb
  have hheld' : (phaseOf (s.pc b)).held = some p := by rw [hx]; rfl
  obtain rfl : b = c := hs.awake.ok.custody.held_unique b c p hheld' hheld
  exact hc hb

theorem Tended.asleep_of_inbox (hs : Tended M s) (hin : p ∈ (s.view.cpu c).inbox) :
    s.Asleep p := by
  have hplain := hs.awake.ok.custody.inbox_plain c p hin
  refine hs.asleep (hs.awake.ok.custody.queued_of_inbox hin) hplain.2.1
    (hs.awake.ok.custody.idle_ne_of_inbox hin) fun b hb => ?_
  obtain ⟨x, hx⟩ := phaseOf_of_carried hb
  apply hplain.2.2 b
  rw [view_phase rfl, hx]
  rfl

/-- The current task of a CPU outside a switch is not asleep. -/
theorem Tended.not_asleep_curr (hs : Tended M s) (hq : phaseOf (s.pc c) = .quiet) :
    ¬ s.Asleep (s.rq c).curr := by
  intro hp
  have hsettled := hs.awake.ok.custody.phase c
  rw [view_phase rfl, hq] at hsettled
  obtain hqc | hic := hsettled
  · have hqc' : (s.task (s.rq c).curr).queuedOn = some c := hqc
    have hon := (hs.awake.ok.coherent.task (s.rq c).curr).onRq_of_queuedOn (by simp [hqc'])
    rw [hp.onRq] at hon
    cases hon
  · exact hp.not_running ((hs.awake.ok.coherent.task _).idle_state c hic.symm)

/-! ## Falling asleep and waking up -/

/-- The task that `ttwu_do_activate` is about to put on a run queue. -/
def wokenOf : Pc Tid n → Option Tid
  | .tryToWakeUp p (.activate _) => some p
  | .schedTtwuPending (p :: _) true => some p
  | _ => none

theorem Tended.asleep_of_woken (hs : Tended M s) (hw : wokenOf (s.pc c) = some p) :
    s.Asleep p ∧ (s.task p).state = taskWaking := by
  unfold wokenOf at hw
  split at hw
  next q d hpc =>
    cases hw
    have hph := hs.awake.ok.phaseOk hpc
    refine ⟨hs.asleep_of_held (c := c) ?_ hph.2.2.1 ?_, ?_⟩
    · rw [hpc]
      rfl
    · simp [hpc, carriedOf]
    · simpa [State.view, TaskStruct.view] using hph.2.1
  next q rest hpc =>
    cases hw
    have hin : p ∈ (s.view.cpu c).inbox := by simp [State.view, hpc, llistOf]
    refine ⟨hs.asleep_of_inbox hin, ?_⟩
    simpa [State.view, TaskStruct.view] using (hs.awake.ok.custody.inbox_plain c p hin).1
  next => cases hw

theorem State.step_of_deactivate (h : s.step M c a = some (e, s'))
    (hpc : s.pc c = .schedule (.deactivate p)) :
    s' = (s.modTask p (·.deactivateTask true)).setPc c (.schedule (.pick p .nvcsw true)) := by
  have hstep := (step_transition h).scheduleStep_eq hpc rfl
  exact (Prod.mk.inj (Option.some.inj hstep)).2.symm

/-- `ttwu_do_activate` makes its task runnable. -/
theorem State.step_of_woken (h : s.step M c a = some (e, s')) (hw : wokenOf (s.pc c) = some p) :
    (s'.task p).state = taskRunning ∧ (s'.task p).onRq = .queued := by
  unfold wokenOf at hw
  split at hw
  next q d hpc =>
    cases hw
    cases step_transition h with
    | activate q d' hpc' =>
        obtain ⟨rfl, rfl⟩ : q = p ∧ d' = d := by simpa [hpc] using hpc'.symm
        simp [TaskStruct.ttwuDoActivate, TaskStruct.ttwuDoWakeup, TaskStruct.activateTask,
          TaskStruct.setState]
    | loadBalance q src dest hpc' hq hn hl =>
        obtain hpc' | ⟨_, _, _, hpc'⟩ := hpc' <;> simp [hpc] at hpc'
    | _ =>
        have hpc' := ‹s.pc c = _›
        simp_all
  next q rest hpc =>
    cases hw
    cases step_transition h with
    | activatePending q rest' hpc' hn =>
        obtain ⟨rfl, rfl⟩ : q = p ∧ rest' = rest := by simpa [hpc] using hpc'.symm
        simp [TaskStruct.ttwuDoActivate, TaskStruct.ttwuDoWakeup, TaskStruct.activateTask,
          TaskStruct.setState]
    | loadBalance q src dest hpc' hq hn hl =>
        obtain hpc' | ⟨_, _, _, hpc'⟩ := hpc' <;> simp [hpc] at hpc'
    | _ =>
        have hpc' := ‹s.pc c = _›
        simp_all
  next => cases hw

/-- Outside the two places a task keeps its sleep, or its lack of it. -/
theorem State.step_asleep_same (hs : Tended M s) (h : s.step M c a = some (e, s'))
    (hd : s.pc c ≠ .schedule (.deactivate p)) (hw : wokenOf (s.pc c) ≠ some p) :
    s'.Asleep p ↔ s.Asleep p := by
  have ht := step_transition h
  have hquiet : p = (s.rq c).curr → phaseOf (s.pc c) = .quiet → ¬ s.Asleep p := by
    rintro rfl hq
    exact hs.not_asleep_curr hq
  have hon : ∀ v, (s.task p).onRq = v → v ≠ .none → ¬ s.Asleep p := fun v hv hne hp =>
    hne (hv.symm.trans hp.onRq)
  have hon' : ∀ v, (s'.task p).onRq = v → v ≠ .none → ¬ s'.Asleep p := fun v hv hne hp =>
    hne (hv.symm.trans hp.onRq)
  cases step_stateStep hs.awake.ok h p with
  | same hst hq =>
      constructor
      · intro hp
        exact ⟨ht.allocated_of_not_new hp.allocated hp.not_new, hq ▸ hp.onRq,
          hst ▸ hp.not_running, hst ▸ hp.not_new⟩
      · intro hp
        exact ⟨ht.allocated hp.allocated, hq ▸ hp.onRq, hst ▸ hp.not_running, hst ▸ hp.not_new⟩
  | sleep hpc hst hq => exact absurd hpc hd
  | keep hpc hst hq =>
      have hold := hquiet (hs.awake.ok.pcOk hpc) (by rw [hpc]; rfl)
      exact iff_of_false (fun hp => hp.not_running hst) hold
  | self hpc hp hdead hl hwk hn hq =>
      have hold := hquiet hp (by rw [hpc]; rfl)
      refine iff_of_false (fun hp' => hold ?_) hold
      -- a runnable task that sets its state is still on its queue
      have hon : (s.task p).onRq = .none := hq.symm.trans hp'.onRq
      have hsettled : Settled M.idle s.view c := hs.awake.ok.phaseOk hpc
      obtain hqc | hic := hsettled
      · have hqc' : (s.task p).queuedOn = some c := hp ▸ hqc
        have honq := (hs.awake.ok.coherent.task p).onRq_of_queuedOn (by simp [hqc'])
        rw [hon] at honq
        cases honq
      · have hidle : M.idle c = p := hic.symm.trans hp.symm
        have hrun := ((Steps.ok ⟨c, a, h⟩ hs.awake.ok).coherent.task p).idle_state c hidle
        exact absurd hrun hp'.not_running
  | remote r hpc hr hst hq =>
      exact iff_of_false (hon' _ (hq.trans hr) (by decide)) (hon _ hr (by decide))
  | waking hpc hst hq =>
      have hph := hs.awake.ok.phaseOk hpc
      have hold : s.Asleep p := by
        refine hs.asleep_of_held (c := c) ?_ hph.2.2 ?_
        · rw [hpc]
          rfl
        · simp [hpc, carriedOf]
      refine iff_of_true ⟨ht.allocated hold.allocated, hq.trans hold.onRq, ?_, ?_⟩ hold
      · exact hst ▸ by decide
      · exact hst ▸ by decide
  | activate d hpc hst hq => exact absurd (by rw [hpc]; rfl) hw
  | pending rest hpc hn hst hq => exact absurd (by rw [hpc]; rfl) hw
  | create hpc ha hst hq =>
      refine iff_of_false (fun hp => hp.not_new hst) fun hp => ?_
      have hal := hp.allocated
      rw [ha] at hal
      cases hal
  | wakeNew hpc ha hnew hl hst hq hk =>
      exact iff_of_false (fun hp => hp.not_running hst) fun hp => hp.not_new hnew
  | start r hpc hst hq =>
      have hrun := hs.awake.sleep.starting c p (by rw [hpc]; rfl)
      exact iff_of_false (hon' _ hq (by decide)) fun hp => hp.not_running hrun
  | detach hl hr hst hq hk =>
      exact iff_of_false (hon' _ hq (by decide)) (hon _ hr (by decide))
  | attach src dest hpc hst hq =>
      have hmig := hs.awake.sleep.moving c p src dest .enqueue hpc
      exact iff_of_false (hon' _ hq (by decide)) (hon _ hmig (by decide))

/-- A task falls asleep in `__schedule` and wakes up in `ttwu_do_activate`. -/
theorem State.step_asleep (hs : Tended M s) (h : s.step M c a = some (e, s')) (p : Tid) :
    s'.Asleep p ↔
      s.pc c = .schedule (.deactivate p) ∨ wokenOf (s.pc c) ≠ some p ∧ s.Asleep p := by
  have ht := step_transition h
  by_cases hd : s.pc c = .schedule (.deactivate p)
  · refine iff_of_true ?_ (.inl hd)
    obtain rfl : p = (s.rq c).curr := hs.awake.ok.pcOk hd
    have hplain := hs.awake.ok.curr_plain (hs.awake.ok.phaseOk hd)
    have hfresh : (s.task (s.rq c).curr).allocated = true ∧
        (s.task (s.rq c).curr).state ≠ taskNew := by
      simpa [TaskStruct.view] using hplain.2
    rw [step_of_deactivate h hd]
    constructor <;> simp [TaskStruct.deactivateTask, hfresh, hs.awake.sleep.deactivate c _ hd]
  · by_cases hw : wokenOf (s.pc c) = some p
    · have hrun := (step_of_woken h hw).1
      exact iff_of_false (fun hp => hp.not_running hrun) (by simp [hd, hw])
    · rw [step_asleep_same hs h hd hw]
      simp [hd, hw]

theorem Tended.not_asleep_of_deactivate (hs : Tended M s)
    (hd : s.pc c = .schedule (.deactivate p)) : ¬ s.Asleep p := by
  obtain rfl : p = (s.rq c).curr := hs.awake.ok.pcOk hd
  exact hs.not_asleep_curr (by rw [hd]; rfl)

end LinuxOs2022.Scheduler
