import LinuxOs2022.Scheduler.StartStop

/-!
# The counter of a child

`dup_task_struct` copies the counter with the rest of the record, and neither
`__sched_fork` nor `sched_fork` resets it. A child goes on counting from what its parent had
counted.
-/

namespace LinuxOs2022.Scheduler

open Library

variable {Tid : Type} [DecidableEq Tid] {n : ℕ} {M : Machine Tid n} {c₀ : Cpu n}
  {s s' s₀ s₁ : State Tid n} {pre mid : List (Event Tid n)} {q t : Tid} {v : BitVec 64}

/-- What `fork` leaves behind: a task that runs nowhere, with the counter of its parent. -/
theorem Steps.fork (h : Steps M s (.fork q t) s') (hs : Sound M s) :
    Tracked M t s' ∧ Announced (s'.InPending t) (s'.task t).processSwitchesCount
      (s.task q).processSwitchesCount := by
  have hs' := h.sound hs
  obtain ⟨c, a, hstep⟩ := h
  obtain ⟨-, -, ha, tgid, rfl⟩ := (State.step_transition hstep).fork_inv
  have hfresh : (s.view.task t).fresh = true := by simp [State.view, TaskStruct.view, ha]
  have hcurr : ∀ c, (s.rq c).curr ≠ t := fun c h =>
    (hs.ok.custody.fresh_plain t hfresh).2 c (.inl h)
  refine ⟨⟨hs', by simp [TaskStruct.schedFork, TaskStruct.basicSchedFork,
    TaskStruct.dupTaskStruct]⟩, ?_⟩
  rw [State.modTask_task, Function.update_self]
  refine .reset ?_
  rintro ⟨b, hb, -⟩
  exact hcurr b hb

/-- The counter that `stop` returns to a child before its first `start`. -/
theorem child_stop (h₁ : Run (Steps M) (boot M c₀) pre s₀)
    (h₂ : Run (Steps M) s₀ (.fork q t :: (mid ++ [.stop t v])) s₁) (hmid : .start t ∉ mid) :
    v = ((s₀.task q).processSwitchesCount + BitVec.ofNat 32 (switchIns t mid)).setWidth 64 := by
  obtain ⟨s, hfork, h⟩ := Run.cons_iff.mp h₂
  obtain ⟨s', hrun, h⟩ := Run.append_iff.mp h
  obtain ⟨_, hstop, -⟩ := Run.cons_iff.mp h
  obtain ⟨htr, hm⟩ := hfork.fork (run_sound h₁)
  have hs' : Sound M s' := htr.sound.run hrun
  obtain ⟨-, hpend, -, hv⟩ := hstop.stop hs'
  rw [hv, (run_announced_in hrun htr hmid hm).exact hpend]

/-- A child counts its own switches exactly when its parent's counter is zero at the fork. -/
theorem child_counts_own_iff (h₁ : Run (Steps M) (boot M c₀) pre s₀)
    (h₂ : Run (Steps M) s₀ (.fork q t :: (mid ++ [.stop t v])) s₁) (hmid : .start t ∉ mid) :
    v = (BitVec.ofNat 32 (switchIns t mid)).setWidth 64 ↔
      (s₀.task q).processSwitchesCount = 0 := by
  rw [child_stop h₁ h₂ hmid]
  constructor
  · intro h
    have h' := congrArg (BitVec.setWidth 32) h
    simpa using h'
  · intro h
    rw [h, zero_add]

/-- The idle task has counted nothing when it forks task 10. -/
theorem child_counts_own_iff_idle :
    (1 : BitVec 64) = (BitVec.ofNat 32 (switchIns 10
        (List.replicate 8 .tau ++ preemptEvents (0 : Cpu 2) 0 10))).setWidth 64 ↔
      ((boot twoCpus 0).task 0).processSwitchesCount = 0 := by
  have h₁ : Run (Steps twoCpus) (boot twoCpus 0) [] (boot twoCpus 0) := .nil _
  exact child_counts_own_iff h₁ (execState_run (forkAndRun ++ [(0, .stopToCount)]) rfl)
    (by decide)

/-- Task 10 has been switched in once when it forks task 11. -/
theorem not_child_counts_own :
    ¬ ∀ (pre mid : List (Event ℕ 2)) (s : State ℕ 2) (q t : ℕ) (v : BitVec 64),
      Run (Steps twoCpus) (boot twoCpus 0) (pre ++ .fork q t :: (mid ++ [.stop t v])) s →
      .start t ∉ mid → v = (BitVec.ofNat 32 (switchIns t mid)).setWidth 64 := by
  intro hall
  have hrun : Run (Steps twoCpus) (boot twoCpus 0)
      (forkAndRunEvents ++ .fork 10 11 ::
        ((List.replicate 8 .tau ++ preemptEvents 0 10 11) ++ [.stop 11 2])) _ :=
    execState_run (forkAndRun ++ (0, .fork 11 false) :: ((wakeNew 0 11 0 ++ preempt 0 11) ++
      [(0, .stopToCount)])) rfl
  exact absurd (hall _ _ _ _ _ _ hrun (by decide)) (by decide)

end LinuxOs2022.Scheduler
