import LinuxOs2022.Scheduler.StartStop

/-!
# Threads of one process

The counter belongs to a task, and the threads of a process are tasks of their own. `stop`
returns what its own thread has counted since that thread's `start`; the switches of the
other threads of the process are not in it, and their calls do not matter.
-/

namespace LinuxOs2022.Scheduler

open Library

variable {Tid : Type} [DecidableEq Tid] {n : ℕ} {M : Machine Tid n} {c₀ : Cpu n}
  {s : State Tid n} {pre mid : List (Event Tid n)} {t : Tid} {v : BitVec 64}

/-- The tasks of the process of `t`. -/
def State.inGroup (s : State Tid n) (t u : Tid) : Bool := (s.task u).tgid == (s.task t).tgid

/-- The other threads of the process of `t`. -/
def State.inGroupOther (s : State Tid n) (t u : Tid) : Bool := s.inGroup t u && u != t

@[simp] theorem State.inGroup_self (s : State Tid n) (t : Tid) : s.inGroup t t = true :=
  beq_self_eq_true _

/-- A switch to a thread of the process is one to `t` or one to another thread. -/
theorem Event.isSwitchIn_inGroup (s : State Tid n) (t : Tid) (e : Event Tid n) :
    (if e.isSwitchIn (s.inGroup t) then 1 else 0) =
      (if e.isSwitchIn (· == t) then 1 else 0) +
        if e.isSwitchIn (s.inGroupOther t) then 1 else 0 := by
  cases e with
  | switch c prev next =>
      by_cases h : next = t
      · subst h
        simp [isSwitchIn, State.inGroup, State.inGroupOther]
      · simp [isSwitchIn, State.inGroupOther, h]
  | _ => rfl

/-- The switches of a process are those of one thread and those of the others. -/
theorem switchInsOf_inGroup (s : State Tid n) (t : Tid) (es : List (Event Tid n)) :
    switchInsOf (s.inGroup t) es = switchIns t es + switchInsOf (s.inGroupOther t) es := by
  induction es with
  | nil => rfl
  | cons e es ih =>
      simp only [switchIns, switchInsOf, List.countP_cons] at ih ⊢
      rw [ih, Event.isSwitchIn_inGroup]
      omega

/-- `stop` returns the count of the calling thread since its own last `start`, which is the
count of the process exactly when the other threads are switched in a multiple of `2 ^ 32`
times. -/
theorem stop_eq_thread
    (h : Run (Steps M) (boot M c₀) (pre ++ .start t :: (mid ++ [.stop t v])) s)
    (hmid : .start t ∉ mid) :
    v = (BitVec.ofNat 32 (switchIns t mid)).setWidth 64 ∧
      (v = (BitVec.ofNat 32 (switchInsOf (s.inGroup t) mid)).setWidth 64 ↔
        2 ^ 32 ∣ switchInsOf (s.inGroupOther t) mid) := by
  obtain ⟨s₀, s₁, s₂, hpre, hstart, hrun, hstop⟩ := h.window
  have hv := window_in (run_sound hpre) hstart hrun hstop hmid
  refine ⟨hv, ?_⟩
  rw [hv, switchInsOf_inGroup, BitVec.ofNat_add, eq_comm]
  exact add_ofNat_eq_self_iff _ _

/-- Task 10 creates thread 11, which CPU 1 switches in. -/
def threadRun : List (Cpu 2 × Action ℕ 2) :=
  (0, .fork 11 true) :: (wakeNew 0 11 1 ++ preempt 1 11)

def threadRunEvents : List (Event ℕ 2) :=
  .fork 10 11 :: (List.replicate 8 .tau ++ preemptEvents 1 1 11)

/-- The whole schedule: task 10 makes both calls around it. -/
def countedThreadRun : List (Cpu 2 × Action ℕ 2) :=
  forkAndRun ++ (0, .startToCount) :: (threadRun ++ [(0, .stopToCount)])

theorem countedThreadRun_run : Run (Steps twoCpus) (boot twoCpus 0)
    (forkAndRunEvents ++ .start 10 :: (threadRunEvents ++ [.stop 10 0]))
    (execState twoCpus (boot twoCpus 0) countedThreadRun) :=
  execState_run countedThreadRun rfl

/-- Thread 11 is switched in while task 10 keeps its CPU. -/
theorem stop_eq_thread_forked :
    let s := execState twoCpus (boot twoCpus 0) countedThreadRun
    (0 : BitVec 64) = (BitVec.ofNat 32 (switchIns 10 threadRunEvents)).setWidth 64 ∧
      ((0 : BitVec 64) =
          (BitVec.ofNat 32 (switchInsOf (s.inGroup 10) threadRunEvents)).setWidth 64 ↔
        2 ^ 32 ∣ switchInsOf (s.inGroupOther 10) threadRunEvents) :=
  stop_eq_thread countedThreadRun_run (by decide)

/-- The count is not that of the process. -/
theorem not_stop_eq_process :
    ¬ ∀ (pre mid : List (Event ℕ 2)) (s : State ℕ 2) (u t : ℕ) (v : BitVec 64),
      Run (Steps twoCpus) (boot twoCpus 0) (pre ++ .start u :: (mid ++ [.stop t v])) s →
      s.inGroup t u = true → (∀ w, s.inGroup t w = true → .start w ∉ mid) →
      v = (BitVec.ofNat 32 (switchInsOf (s.inGroup t) mid)).setWidth 64 := by
  intro hall
  have hmid : ∀ w, Event.start w ∉ threadRunEvents := by
    intro w
    simp [threadRunEvents, preemptEvents]
  have h := hall _ _ _ 10 10 0 countedThreadRun_run (State.inGroup_self _ _)
    fun w _ => hmid w
  have hcount : switchInsOf ((execState twoCpus (boot twoCpus 0) countedThreadRun).inGroup 10)
      threadRunEvents = 1 := by decide +kernel
  rw [hcount] at h
  exact absurd h (by decide)

end LinuxOs2022.Scheduler
