import LinuxOs2022.Scheduler.Counting

/-!
# Counting between `start` and `stop`

`stop_to_count_number_of_process_switches` returns the counter of the calling task. Whatever
happens between the two calls of a task, that is the number of switches to it.
-/

namespace LinuxOs2022.Scheduler

open Library

variable {Tid : Type} [DecidableEq Tid] {n : ℕ} {M : Machine Tid n} {c₀ : Cpu n}
  {s s' s₀ s₁ s₂ : State Tid n} {pre mid : List (Event Tid n)} {t : Tid} {v : BitVec 64}

/-- What `start` leaves behind: an executing task with a fresh counter. -/
theorem Steps.start (h : Steps M s (.start t) s') (hs : Sound M s) :
    Tracked M t s' ∧ s'.Current t ∧ s'.switchCounts t = s.switchCounts t ∧
      ¬ s'.OutPending t ∧
      Announced (s'.InPending t) (s'.task t).processSwitchesCount 0 := by
  have hs' := h.sound hs
  obtain ⟨c, a, hstep⟩ := h
  have ht := State.step_transition hstep
  obtain ⟨hpc, rfl, rfl⟩ := ht.start_inv
  refine ⟨⟨hs', ht.allocated hs.ok.allocated_curr⟩, ⟨c, rfl⟩,
    ht.switchCounts_eq (by simp [hpc]) (by simp), hs'.not_outPending hpc rfl, ?_⟩
  rw [State.modTask_task, Function.update_self]
  exact .reset (hs'.not_inPending hpc rfl)

/-- What `stop` finds: an executing task to which nothing is owed. -/
theorem Steps.stop (h : Steps M s (.stop t v) s') (hs : Sound M s) :
    s.Current t ∧ ¬ s.InPending t ∧ ¬ s.OutPending t ∧
      v = (s.task t).processSwitchesCount.setWidth 64 := by
  obtain ⟨c, a, hstep⟩ := h
  obtain ⟨hpc, ht, hv⟩ := (State.step_transition hstep).stop_inv
  exact ⟨⟨c, ht.symm⟩, hs.not_inPending hpc ht, hs.not_outPending hpc ht, hv⟩

/-- The window from a `start` of a task to its next `stop`, without another `start`. -/
theorem window_in (hs : Sound M s) (hstart : Steps M s (.start t) s₀)
    (h : Run (Steps M) s₀ mid s₁) (hstop : Steps M s₁ (.stop t v) s₂) (hmid : .start t ∉ mid) :
    v = (BitVec.ofNat 32 (switchIns t mid)).setWidth 64 := by
  obtain ⟨htr, -, -, -, hm⟩ := hstart.start hs
  have hs₁ : Sound M s₁ := htr.sound.run h
  obtain ⟨-, hpend, -, hv⟩ := hstop.stop hs₁
  have hcount := (run_announced_in h htr hmid hm).exact hpend
  rw [hv, hcount, zero_add]

/-- `stop` returns the number of switches to its task since the last `start` of the task. -/
theorem stop_eq_switchIns
    (h : Run (Steps M) (boot M c₀) (pre ++ .start t :: (mid ++ [.stop t v])) s)
    (hmid : .start t ∉ mid) : v = (BitVec.ofNat 32 (switchIns t mid)).setWidth 64 := by
  obtain ⟨s₀, s₁, s₂, hpre, hstart, hrun, hstop⟩ := h.window
  exact window_in (run_sound hpre) hstart hrun hstop hmid

/-- CPU 0 forks and runs task 10. -/
def forkAndRun : List (Cpu 2 × Action ℕ 2) :=
  (0, .fork 10 false) :: (wakeNew 0 10 0 ++ preempt 0 10)

/-- Task 10 is preempted by the idle task and comes back. -/
def preempted : List (Cpu 2 × Action ℕ 2) := preempt 0 0 ++ preempt 0 10

def forkAndRunEvents : List (Event ℕ 2) :=
  .fork 0 10 :: (List.replicate 8 .tau ++ preemptEvents 0 0 10)

def preemptedEvents : List (Event ℕ 2) := preemptEvents 0 10 0 ++ preemptEvents 0 0 10

/-- Task 10 is preempted once between its calls. -/
theorem stop_eq_switchIns_preempted :
    (1 : BitVec 64) = (BitVec.ofNat 32 (switchIns 10 preemptedEvents)).setWidth 64 := by
  have h : Run (Steps twoCpus) (boot twoCpus 0)
      (forkAndRunEvents ++ .start 10 :: (preemptedEvents ++ [.stop 10 1])) _ :=
    execState_run (forkAndRun ++ (0, .startToCount) :: (preempted ++ [(0, .stopToCount)])) rfl
  exact stop_eq_switchIns h (by decide)

/-- In a window of a task switches in and out balance, and `stop` returns the growth of its
switch counts. -/
theorem window_switches (h₁ : Run (Steps M) (boot M c₀) pre s₀)
    (h₂ : Run (Steps M) s₀ (.start t :: mid) s₁) (h₃ : Run (Steps M) s₁ [.stop t v] s₂)
    (hmid : .start t ∉ mid) :
    switchIns t mid = switchOuts t mid ∧
      v = ((s₁.switchCounts t - s₀.switchCounts t).setWidth 32).setWidth 64 := by
  obtain ⟨s, hstart, hrun⟩ := Run.cons_iff.mp h₂
  obtain ⟨s₃, hstop, -⟩ := Run.cons_iff.mp h₃
  have hs := run_sound h₁
  have hv := window_in hs hstart hrun hstop hmid
  obtain ⟨htr, hcurr, hcounts, hout, -⟩ := hstart.start hs
  have hs₁ : Sound M s₁ := htr.sound.run hrun
  obtain ⟨hcurr₁, -, hout₁, -⟩ := hstop.stop hs₁
  have hbalance : switchIns t mid = switchOuts t mid :=
    (run_announced_return hrun htr.sound hcurr).exact (not_not.mpr hcurr₁)
  have hgrowth := (run_announced_out hrun htr (.reset hout)).exact hout₁
  refine ⟨hbalance, ?_⟩
  have htrunc : (BitVec.ofNat 64 (switchOuts t mid)).setWidth 32 =
      BitVec.ofNat 32 (switchOuts t mid) := BitVec.setWidth_ofNat_of_le (by decide) _
  rw [hv, hgrowth, hcounts, hbalance, add_sub_cancel_left, htrunc]

/-- The same two calls, with the switch counts of task 10. -/
theorem window_switches_preempted :
    let s₀ := execState twoCpus (boot twoCpus 0) forkAndRun
    let s₁ := execState twoCpus s₀ ((0, .startToCount) :: preempted)
    switchIns 10 preemptedEvents = switchOuts 10 preemptedEvents ∧
      (1 : BitVec 64) = ((s₁.switchCounts 10 - s₀.switchCounts 10).setWidth 32).setWidth 64 := by
  have h₁ : Run (Steps twoCpus) (boot twoCpus 0) forkAndRunEvents _ := execState_run forkAndRun rfl
  exact window_switches h₁ (execState_run ((0, .startToCount) :: preempted) rfl)
    (execState_run [(0, .stopToCount)] rfl) (by decide)

end LinuxOs2022.Scheduler
