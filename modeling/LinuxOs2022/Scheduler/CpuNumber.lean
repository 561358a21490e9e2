import LinuxOs2022.Scheduler.Reachable

/-!
# The number of the executing CPU

`my_get_cpu_number` returns the field `cpu` of the current task. In every reachable state
that field is the CPU that runs the task, however the task came there.
-/

namespace LinuxOs2022.Scheduler

open Custody Library

variable {Tid : Type} [DecidableEq Tid] {n : ℕ} {M : Machine Tid n} {c₀ : Cpu n}
  {s : State Tid n} {es : List (Event Tid n)}

omit [DecidableEq Tid] in
/-- CPU numbers are far from the error value. -/
theorem cpuNumberResult_ofNat (M : Machine Tid n) (c : Cpu n) :
    State.enterStep.cpuNumberResult (BitVec.ofNat 32 c) = BitVec.ofNat 64 c := by
  have hc : (c : ℕ) < 2 ^ 31 := c.isLt.trans_le M.cpus_le
  have hne : BitVec.ofNat 32 c ≠ -1 := by
    intro h
    have h' := congrArg BitVec.toNat h
    simp only [BitVec.toNat_ofNat, BitVec.reduceNeg] at h'
    omega
  rw [State.enterStep.cpuNumberResult, if_neg hne]
  apply BitVec.eq_of_toNat_eq
  simp only [BitVec.toNat_setWidth, BitVec.toNat_ofNat]
  omega

/-- A task that executes on a CPU is assigned to it, so the call returns its number. -/
theorem run_cpuNumber (h : Run (Steps M) (boot M c₀) es s) :
    (∀ c, (s.task (s.rq c).curr).cpu = c) ∧
      (Function.Injective fun c => (s.rq c).curr) ∧
      ∀ c, s.pc c = .running → s.callable c = true →
        s.step M c .myGetCpuNumber =
          some (.cpuNumber (s.rq c).curr c (BitVec.ofNat 64 c), s) := by
  have hi := run_ok h
  refine ⟨hi.cpu_curr, hi.curr_injective, ?_⟩
  intro c hpc hcall
  simp only [State.step, hpc, State.enterStep, State.when, hcall, if_true, State.current,
    hi.cpu_curr, cpuNumberResult_ofNat M]

/-- CPU 0 forks task 10 and wakes it on CPU 1, which runs it. -/
def forkToCpu1 : List (Cpu 2 × Action ℕ 2) :=
  (0, .fork 10 false) :: (wakeNew 0 10 1 ++ preempt 1 10)

theorem run_cpuNumber_forkToCpu1 :
    let s := execState twoCpus (boot twoCpus 0) forkToCpu1
    (∀ c, (s.task (s.rq c).curr).cpu = c) ∧
      (Function.Injective fun c => (s.rq c).curr) ∧
      ∀ c, s.pc c = .running → s.callable c = true →
        s.step twoCpus c .myGetCpuNumber =
          some (.cpuNumber (s.rq c).curr c (BitVec.ofNat 64 c), s) := by
  have h : Run (Steps twoCpus) (boot twoCpus 0)
      (.fork 0 10 :: (List.replicate 8 .tau ++ preemptEvents 1 1 10)) _ :=
    execState_run forkToCpu1 rfl
  exact run_cpuNumber h

end LinuxOs2022.Scheduler
