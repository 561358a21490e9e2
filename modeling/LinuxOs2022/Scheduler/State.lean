import Mathlib

/-!
# The state of the scheduler

Tasks, run queues and one program counter for each CPU. The functions that sleep, wake and
move tasks run with interrupts disabled, so a CPU is inside at most one of them; its program
counter names the function, the statement and the local variables.

## Implementation notes

The lock words of `p->pi_lock` and `rq->lock` stand in one table beside the records. The
queues of the scheduling classes are outside the repository; `queuedOn` is the run queue
that `enqueue_task` put the task on and `dequeue_task` takes it from. A task that has died
keeps its record, and a new task gets one that was never used.
-/

namespace LinuxOs2022.Scheduler

/-- CPU numbers. -/
abbrev Cpu (n : ℕ) := Fin n

/-- A machine with `n` CPUs: their idle tasks and the stopper threads. CPU numbers are
`int`. -/
structure Machine (Tid : Type) (n : ℕ) where
  idle : Cpu n → Tid
  idle_injective : Function.Injective idle
  stopper : Tid → Bool
  stopper_idle : ∀ c, stopper (idle c) = false
  cpus_le : n ≤ 2 ^ 31

/-! ## Task states -/

/-- `task_struct.state`. -/
abbrev TaskState := BitVec 64

/-- `TASK_RUNNING`. -/
def taskRunning : TaskState := 0x0000

/-- `TASK_INTERRUPTIBLE`. -/
def taskInterruptible : TaskState := 0x0001

/-- `__TASK_STOPPED`. -/
def taskStopped : TaskState := 0x0004

/-- `__TASK_TRACED`. -/
def taskTraced : TaskState := 0x0008

/-- `TASK_PARKED`. -/
def taskParked : TaskState := 0x0040

/-- `TASK_DEAD`. -/
def taskDead : TaskState := 0x0080

/-- `TASK_WAKEKILL`. -/
def taskWakekill : TaskState := 0x0100

/-- `TASK_WAKING`. -/
def taskWaking : TaskState := 0x0200

/-- `TASK_NEW`. -/
def taskNew : TaskState := 0x0800

/-- `is_special_task_state(state)`. -/
def isSpecialTaskState (v : TaskState) : Bool :=
  v &&& (taskStopped ||| taskTraced ||| taskParked ||| taskDead) != 0

/-- The states that only the scheduler itself sets: no caller sets them with
`set_current_state` or asks `try_to_wake_up` for them. -/
def isSchedulerState (v : TaskState) : Bool :=
  v &&& (taskDead ||| taskWaking ||| taskNew) != 0

/-- `signal_pending_state(state, p)`, where `pending` is what the signals of `p` say. -/
def signalPendingState (v : TaskState) (pending : Bool) : Bool :=
  v &&& (taskInterruptible ||| taskWakekill) != 0 && pending

/-! ## Tasks -/

/-- `task_struct.on_rq`. -/
inductive OnRq
  | none
  | queued
  | migrating
  deriving DecidableEq

/-- The counter that `switch_count` points to. -/
inductive SwitchCount
  | nvcsw
  | nivcsw
  deriving DecidableEq

/-- `struct task_struct`. -/
structure TaskStruct (Tid : Type) (n : ℕ) where
  state : TaskState
  onCpu : Bool
  cpu : Cpu n
  onRq : OnRq
  /-- The run queue that the scheduling class keeps the task on. -/
  queuedOn : Option (Cpu n)
  tgid : Tid
  nvcsw : BitVec 64
  nivcsw : BitVec 64
  /-- `se.nr_migrations`. -/
  nrMigrations : BitVec 64
  processSwitchesCount : BitVec 32
  /-- The structure belongs to a task. -/
  allocated : Bool

namespace TaskStruct

variable {Tid : Type} {n : ℕ}

/-- `activate_task(rq, p, flags)` for the run queue of `d`. -/
def activateTask (d : Cpu n) (t : TaskStruct Tid n) : TaskStruct Tid n :=
  { t with queuedOn := some d, onRq := .queued }

/-- `deactivate_task(rq, p, flags)`, where `sleep` is the flag `DEQUEUE_SLEEP`. -/
def deactivateTask (sleep : Bool) (t : TaskStruct Tid n) : TaskStruct Tid n :=
  { t with onRq := if sleep then .none else .migrating, queuedOn := none }

/-- `set_task_cpu(p, new_cpu)`. -/
def setTaskCpu (d : Cpu n) (t : TaskStruct Tid n) : TaskStruct Tid n :=
  { t with
    nrMigrations := if t.cpu = d then t.nrMigrations else t.nrMigrations + 1
    cpu := d }

/-- A store to `p->state`. -/
def setState (v : TaskState) (t : TaskStruct Tid n) : TaskStruct Tid n := { t with state := v }

/-- `ttwu_do_wakeup(rq, p, wake_flags, rf)`. -/
def ttwuDoWakeup (t : TaskStruct Tid n) : TaskStruct Tid n := t.setState taskRunning

/-- `ttwu_do_activate(rq, p, wake_flags, rf)` on the run queue of `d`. -/
def ttwuDoActivate (d : Cpu n) (t : TaskStruct Tid n) : TaskStruct Tid n :=
  (t.activateTask d).ttwuDoWakeup

/-- `++*switch_count`. -/
def addSwitchCount (sc : SwitchCount) (t : TaskStruct Tid n) : TaskStruct Tid n :=
  match sc with
  | .nvcsw => { t with nvcsw := t.nvcsw + 1 }
  | .nivcsw => { t with nivcsw := t.nivcsw + 1 }

/-- `dup_task_struct`: the copy of the parent, with the thread group it belongs to. -/
def dupTaskStruct (tgid : Tid) (parent : TaskStruct Tid n) : TaskStruct Tid n :=
  { parent with tgid := tgid, allocated := true }

/-- `__sched_fork(clone_flags, p)`. -/
def basicSchedFork (t : TaskStruct Tid n) : TaskStruct Tid n :=
  { t with onRq := .none, nrMigrations := 0, queuedOn := none }

/-- `sched_fork(clone_flags, p)` on CPU `c`. -/
def schedFork (c : Cpu n) (t : TaskStruct Tid n) : TaskStruct Tid n :=
  { t.basicSchedFork with state := taskNew, cpu := c, onCpu := false }

end TaskStruct

/-- `struct rq`. -/
structure Rq (Tid : Type) where
  curr : Tid
  nrSwitches : BitVec 64
  /-- The tasks on the call queue of the CPU, oldest first. -/
  wakeList : List Tid

/-- The spin locks. -/
inductive Lock (Tid : Type) (n : ℕ)
  | rq (c : Cpu n)
  | pi (p : Tid)
  deriving DecidableEq

/-! ## Program counters -/

/-- The statements of `__schedule(preempt)`. -/
inductive SchedulePc (Tid : Type)
  | loadState (preempt : Bool) (prev : Tid)
  | signal (prev : Tid)
  | deactivate (prev : Tid)
  /-- `pick_next_task`; balancing inside it may drop the run queue's lock for a while. -/
  | pick (prev : Tid) (sc : SwitchCount) (locked : Bool)
  | nrSwitches (prev next : Tid) (sc : SwitchCount)
  | curr (prev next : Tid) (sc : SwitchCount)
  | switchCount (prev next : Tid) (sc : SwitchCount)
  | loadCount (prev next : Tid)
  | storeCount (prev next : Tid) (v : BitVec 32)
  | prepareTask (prev next : Tid)
  | finishTask (prev : Tid)
  | unlock

/-- The statements of `try_to_wake_up(p, state, wake_flags)` with `p->pi_lock` held. -/
inductive TtwuPc (n : ℕ)
  | checkState (mask : TaskState)
  | loadOnRq
  /-- `ttwu_remote` with the lock of run queue `r`. -/
  | remote (r : Cpu n)
  | remoteUnlock (r : Cpu n)
  | waking
  | loadOnCpu
  /-- `ttwu_queue_wakelist` for a task whose CPU had it marked as running. -/
  | queueOnCpu
  | waitOnCpu
  | selectTaskRq
  | queue (d : Cpu n)
  | activate (d : Cpu n)

/-- The statements of `wake_up_new_task(p)` with `p->pi_lock` held. -/
inductive NewTaskPc (n : ℕ)
  | setCpu
  | activate (r : Cpu n)

/-- The callers of `__task_rq_lock(p)` and `task_rq_lock(p)`. -/
inductive RqLockCaller (n : ℕ)
  | ttwuRemote
  | wakeUpNewTask
  | setCpusAllowedPtr (dest : Cpu n)

/-- One round of the loop that locks the run queue of a task. -/
inductive RqLockPc (n : ℕ)
  | load
  | spin (r : Cpu n)
  | check (r : Cpu n)

/-- The statements of `move_queued_task(rq, rf, p, new_cpu)` after the dequeue. -/
inductive MovePc
  | setCpu
  | unlock
  | lock
  | enqueue

/-- `struct migration_swap_arg`. -/
structure MigrationSwapArg (Tid : Type) (n : ℕ) where
  srcTask : Tid
  dstTask : Tid
  srcCpu : Cpu n
  dstCpu : Cpu n

/-- The statements of `migrate_swap_stop`. -/
inductive SwapPc
  | lockRqs
  | swap
  | unlock

/-- What a CPU executes. -/
inductive Pc (Tid : Type) (n : ℕ)
  /-- The current task or an interrupt on it, in no function of the scheduler. -/
  | running
  | schedule (k : SchedulePc Tid)
  | tryToWakeUp (p : Tid) (k : TtwuPc n)
  /-- `sched_ttwu_pending` on the tasks it has taken off the call queue. -/
  | schedTtwuPending (llist : List Tid) (locked : Bool)
  | wakeUpNewTask (p : Tid) (k : NewTaskPc n)
  | taskRqLock (p : Tid) (caller : RqLockCaller n) (k : RqLockPc n)
  /-- `migration_cpu_stop` with `p->pi_lock` held, and then with the own run queue's. -/
  | migrationCpuStop (p : Tid) (dest : Cpu n) (locked : Bool)
  | moveQueuedTask (p : Tid) (src dest : Cpu n) (k : MovePc)
  /-- `task_rq_unlock(rq, p, rf)`. -/
  | taskRqUnlock (p : Tid) (r : Cpu n)
  | unlockPi (p : Tid)
  | migrateSwapStop (arg : MigrationSwapArg Tid n) (k : SwapPc)
  /-- The other CPU of `stop_two_cpus`, spinning in its stopper. -/
  | multiCpuStop (partner : Cpu n)

/-! ## States -/

/-- The state of the scheduler. -/
structure State (Tid : Type) (n : ℕ) where
  task : Tid → TaskStruct Tid n
  rq : Cpu n → Rq Tid
  pc : Cpu n → Pc Tid n
  lock : Lock Tid n → Option (Cpu n)

namespace State

variable {Tid : Type} [DecidableEq Tid] {n : ℕ}

/-- Apply `f` to the record of task `p`. -/
def modTask (s : State Tid n) (p : Tid) (f : TaskStruct Tid n → TaskStruct Tid n) :
    State Tid n := { s with task := Function.update s.task p (f (s.task p)) }

/-- Apply `f` to the run queue of `c`. -/
def modRq (s : State Tid n) (c : Cpu n) (f : Rq Tid → Rq Tid) : State Tid n :=
  { s with rq := Function.update s.rq c (f (s.rq c)) }

/-- The next statement of `c`. -/
def setPc (s : State Tid n) (c : Cpu n) (k : Pc Tid n) : State Tid n :=
  { s with pc := Function.update s.pc c k }

/-- `raw_spin_lock` by `c`, when the lock is free. -/
def acquire (s : State Tid n) (c : Cpu n) (l : Lock Tid n) : State Tid n :=
  { s with lock := Function.update s.lock l (some c) }

/-- `raw_spin_unlock`. -/
def release (s : State Tid n) (l : Lock Tid n) : State Tid n :=
  { s with lock := Function.update s.lock l none }

/-- Nobody holds the lock. -/
def free (s : State Tid n) (l : Lock Tid n) : Bool := s.lock l = none

section Fields

variable (s : State Tid n) (p : Tid) (c : Cpu n) (l : Lock Tid n) (k : Pc Tid n)
  (f : TaskStruct Tid n → TaskStruct Tid n) (g : Rq Tid → Rq Tid)

@[simp] theorem modTask_task :
    (s.modTask p f).task = Function.update s.task p (f (s.task p)) := rfl
@[simp] theorem modTask_rq : (s.modTask p f).rq = s.rq := rfl
@[simp] theorem modTask_pc : (s.modTask p f).pc = s.pc := rfl
@[simp] theorem modTask_lock : (s.modTask p f).lock = s.lock := rfl

omit [DecidableEq Tid] in
@[simp] theorem modRq_task : (s.modRq c g).task = s.task := rfl
omit [DecidableEq Tid] in
@[simp] theorem modRq_rq : (s.modRq c g).rq = Function.update s.rq c (g (s.rq c)) := rfl
omit [DecidableEq Tid] in
@[simp] theorem modRq_pc : (s.modRq c g).pc = s.pc := rfl
omit [DecidableEq Tid] in
@[simp] theorem modRq_lock : (s.modRq c g).lock = s.lock := rfl

omit [DecidableEq Tid] in
@[simp] theorem setPc_task : (s.setPc c k).task = s.task := rfl
omit [DecidableEq Tid] in
@[simp] theorem setPc_rq : (s.setPc c k).rq = s.rq := rfl
omit [DecidableEq Tid] in
@[simp] theorem setPc_pc : (s.setPc c k).pc = Function.update s.pc c k := rfl
omit [DecidableEq Tid] in
@[simp] theorem setPc_lock : (s.setPc c k).lock = s.lock := rfl

@[simp] theorem acquire_task : (s.acquire c l).task = s.task := rfl
@[simp] theorem acquire_rq : (s.acquire c l).rq = s.rq := rfl
@[simp] theorem acquire_pc : (s.acquire c l).pc = s.pc := rfl
@[simp] theorem acquire_lock :
    (s.acquire c l).lock = Function.update s.lock l (some c) := rfl

@[simp] theorem release_task : (s.release l).task = s.task := rfl
@[simp] theorem release_rq : (s.release l).rq = s.rq := rfl
@[simp] theorem release_pc : (s.release l).pc = s.pc := rfl
@[simp] theorem release_lock : (s.release l).lock = Function.update s.lock l none := rfl

end Fields

end State

end LinuxOs2022.Scheduler
