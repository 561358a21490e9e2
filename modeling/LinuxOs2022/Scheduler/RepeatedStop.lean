import LinuxOs2022.Scheduler.StartStop

/-!
# Successive calls of `stop`

`stop` only reads the counter, and `__schedule` goes on counting. A second `stop` without a
`start` in between returns what the first one returned and the switches since. A program
receives these values through the wrapper of the C library and as an `int`: no value is
taken for an error number, but from `2 ^ 31` on an `int` is negative, and at `2 ^ 32` the
counter begins anew.
-/

namespace LinuxOs2022.Scheduler

open Library

variable {Tid : Type} [DecidableEq Tid] {n : ℕ} {M : Machine Tid n} {c₀ c : Cpu n}
  {s s' s₀ s₁ : State Tid n} {pre mid es : List (Event Tid n)} {t : Tid} {v w : BitVec 64}

/-! ## The value of a second call -/

theorem Transition.stop_eq {e : Event Tid n} (ht : Transition M s c e s') (he : e = .stop t v) :
    s' = s := by
  cases ht with
  | stopToCount hpc => rfl
  | _ => cases he

/-- What `stop` leaves behind: the state it found, with nothing owed to its task. -/
theorem Steps.after_stop (h : Steps M s (.stop t v) s') (hs : Sound M s) :
    Tracked M t s' ∧ v = (s'.task t).processSwitchesCount.setWidth 64 ∧
      Announced (s'.InPending t) (s'.task t).processSwitchesCount
        (s'.task t).processSwitchesCount := by
  obtain ⟨⟨c, hc⟩, hin, -, hv⟩ := h.stop hs
  obtain ⟨d, a, hstep⟩ := h
  obtain rfl : s' = s := (State.step_transition hstep).stop_eq rfl
  exact ⟨⟨hs, hc ▸ hs.ok.allocated_curr⟩, hv, .reset hin⟩

/-- A second `stop` returns the value of the first one exactly when the task has been
switched in a multiple of `2 ^ 32` times between them. -/
theorem second_stop_eq_iff
    (h : Run (Steps M) (boot M c₀) (pre ++ .stop t v :: (mid ++ [.stop t w])) s)
    (hmid : .start t ∉ mid) : w = v ↔ 2 ^ 32 ∣ switchIns t mid := by
  obtain ⟨s₀, s₁, s₂, hpre, hfirst, hrun, hlast⟩ := h.window
  obtain ⟨htr, hv, hm⟩ := hfirst.after_stop (run_sound hpre)
  have hs₂ : Sound M s₂ := htr.sound.run hrun
  obtain ⟨-, hpend, -, hw⟩ := hlast.stop hs₂
  rw [hw, hv, (run_announced_in hrun htr hmid hm).exact hpend]
  exact add_ofNat_eq_self_iff _ _

/-- Task 10 calls `stop` twice in a row. -/
theorem second_stop_eq_iff_twice : (0 : BitVec 64) = 0 ↔ 2 ^ 32 ∣ switchIns (n := 2) 10 [] := by
  have h : Run (Steps twoCpus) (boot twoCpus 0)
      ((forkAndRunEvents ++ [.start 10]) ++ .stop 10 0 :: ([] ++ [.stop 10 0])) _ :=
    execState_run (forkAndRun ++ [(0, .startToCount), (0, .stopToCount), (0, .stopToCount)]) rfl
  exact second_stop_eq_iff h (by simp)

/-- Task 10 is preempted between two calls of `stop`; the second one counts that. -/
theorem not_second_stop_eq :
    ¬ ∀ (pre mid : List (Event ℕ 2)) (s : State ℕ 2) (t : ℕ) (v w : BitVec 64),
      Run (Steps twoCpus) (boot twoCpus 0) (pre ++ .stop t v :: (mid ++ [.stop t w])) s →
      .start t ∉ mid → w = v := by
  intro hall
  have hrun : Run (Steps twoCpus) (boot twoCpus 0)
      ((forkAndRunEvents ++ [.start 10]) ++ .stop 10 0 :: (preemptedEvents ++ [.stop 10 1])) _ :=
    execState_run (forkAndRun ++ [(0, .startToCount), (0, .stopToCount)] ++ preempted ++
      [(0, .stopToCount)]) rfl
  exact absurd (hall _ _ _ _ _ _ hrun (by decide)) (by decide)

end LinuxOs2022.Scheduler
