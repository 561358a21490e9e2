import LinuxOs2022.Library.Tally
import LinuxOs2022.Scheduler.Asleep

/-!
# Load accounting

`__schedule` counts a task that it puts to sleep in `rq->nr_uninterruptible` when the task
contributes to the load, and in `rq->nr_iowait` when it waits for I/O. The waker counts it
down again: `nr_uninterruptible` on the run queue it activates the task on, and `nr_iowait` on
the one that the task slept on, before it marks the task.

## Implementation notes

The statements of the scheduler are those of `State.step`. What a function does to
`nr_uninterruptible` under the lock of the run queue is part of the statement beside it; the
two atomic operations on `nr_iowait` are steps of their own.
-/

namespace LinuxOs2022.Scheduler

open Library

/-- `TASK_UNINTERRUPTIBLE`. -/
def taskUninterruptible : TaskState := 0x0002

/-- `TASK_NOLOAD`. -/
def taskNoload : TaskState := 0x0400

/-- Whether a task that goes to sleep in this state contributes to the load; a frozen one
does not. -/
def contributesToLoad (prevState : TaskState) (frozen : Bool) : Bool :=
  prevState &&& taskUninterruptible != 0 && !(prevState &&& taskNoload != 0) && !frozen

/-- The scheduler with the accounts of its load. -/
structure LoadState (Tid : Type) (n : ℕ) where
  sched : State Tid n
  /-- The local variable `prev_state` of `__schedule`. -/
  prevState : Cpu n → TaskState
  /-- `task_struct.flags & PF_FROZEN`. -/
  frozen : Tid → Bool
  /-- `task_struct.sched_contributes_to_load`. -/
  contributes : Tid → Bool
  /-- `task_struct.in_iowait`. -/
  inIowait : Tid → Bool
  /-- What the calls of `io_schedule_prepare` that the task is in have returned. -/
  tokens : Tid → List Bool
  nrUninterruptible : Cpu n → BitVec 64
  nrIowait : Cpu n → BitVec 32
  /-- `__schedule` has yet to test `prev->in_iowait`. -/
  sleeping : Cpu n → Bool
  /-- `try_to_wake_up` has tested `p->in_iowait`. -/
  waking : Cpu n → Bool

/-- What a CPU does next. -/
inductive LoadAction (Tid : Type) (n : ℕ)
  | sched (a : Action Tid n)
  | incNrIowait
  | decNrIowait
  | ioSchedulePrepare
  | ioScheduleFinish
  | setFrozen (b : Bool)

namespace LoadState

variable {Tid : Type} [DecidableEq Tid] {n : ℕ} (M : Machine Tid n) (r : LoadState Tid n)
  (c : Cpu n)

/-- The accounts beside a new state of the scheduler. -/
def setSched (s : State Tid n) : LoadState Tid n := { r with sched := s }

section Fields

variable (s : State Tid n)

omit [DecidableEq Tid]

@[simp] theorem setSched_sched : (r.setSched s).sched = s := rfl
@[simp] theorem setSched_frozen : (r.setSched s).frozen = r.frozen := rfl
@[simp] theorem setSched_contributes : (r.setSched s).contributes = r.contributes := rfl
@[simp] theorem setSched_inIowait : (r.setSched s).inIowait = r.inIowait := rfl
@[simp] theorem setSched_nrUninterruptible :
    (r.setSched s).nrUninterruptible = r.nrUninterruptible := rfl
@[simp] theorem setSched_nrIowait : (r.setSched s).nrIowait = r.nrIowait := rfl
@[simp] theorem setSched_sleeping : (r.setSched s).sleeping = r.sleeping := rfl
@[simp] theorem setSched_waking : (r.setSched s).waking = r.waking := rfl

end Fields

/-- What `__schedule` does before it deactivates the previous task. -/
def sleep (prev : Tid) : LoadState Tid n :=
  let b := contributesToLoad (r.prevState c) (r.frozen prev)
  { r with
    contributes := Function.update r.contributes prev b
    nrUninterruptible := Function.update r.nrUninterruptible c
      (if b then r.nrUninterruptible c + 1 else r.nrUninterruptible c)
    sleeping := Function.update r.sleeping c true }

/-- What `ttwu_do_activate` does before it activates the task on the run queue of `d`. -/
def activate (d : Cpu n) (p : Tid) : LoadState Tid n :=
  { r with
    nrUninterruptible := Function.update r.nrUninterruptible d
      (if r.contributes p then r.nrUninterruptible d - 1 else r.nrUninterruptible d) }

/-- `if (prev->in_iowait) atomic_inc(&rq->nr_iowait)` of `__schedule`. -/
def incNrIowait (prev : Tid) : LoadState Tid n :=
  { r with
    nrIowait := Function.update r.nrIowait c
      (if r.inIowait prev then r.nrIowait c + 1 else r.nrIowait c)
    sleeping := Function.update r.sleeping c false }

/-- `if (p->in_iowait) atomic_dec(&task_rq(p)->nr_iowait)` of `try_to_wake_up`. -/
def decNrIowait (p : Tid) : LoadState Tid n :=
  let d := (r.sched.task p).cpu
  { r with
    nrIowait := Function.update r.nrIowait d
      (if r.inIowait p then r.nrIowait d - 1 else r.nrIowait d)
    waking := Function.update r.waking c true }

/-- The task stores `in_iowait`, with these tokens left on its stack. -/
def setInIowait (p : Tid) (v : Bool) (rest : List Bool) : LoadState Tid n :=
  { r with
    tokens := Function.update r.tokens p rest
    inIowait := Function.update r.inIowait p v }

/-- `dup_task_struct`: the child has the flags of its parent, and a stack of its own. -/
def dupFlags (child : Tid) : LoadState Tid n :=
  let parent := r.sched.current c
  { r with
    frozen := Function.update r.frozen child (r.frozen parent)
    contributes := Function.update r.contributes child (r.contributes parent)
    inIowait := Function.update r.inIowait child (r.inIowait parent)
    tokens := Function.update r.tokens child [] }

/-- The accounts that a statement of the scheduler keeps. -/
def account (k : Pc Tid n) (a : Action Tid n) : LoadState Tid n :=
  match k, a with
  | .schedule (.loadState _ prev), _ =>
      { r with prevState := Function.update r.prevState c (r.sched.task prev).state }
  | .schedule (.deactivate prev), _ => r.sleep c prev
  | .tryToWakeUp _ .waking, _ => { r with waking := Function.update r.waking c false }
  | .tryToWakeUp p (.activate d), _ => r.activate d p
  | .schedTtwuPending (p :: _) true, _ => r.activate c p
  | .running, .fork child _ => r.dupFlags c child
  | _, _ => r

/-- The statements of the scheduler that wait for a test of `in_iowait`. -/
def ready : Bool :=
  match r.sched.pc c with
  | .schedule (.pick _ _ _) => !r.sleeping c
  | .tryToWakeUp _ .waking => r.waking c
  | _ => true

/-- One statement of CPU `c`. -/
def step : LoadAction Tid n → Option (Event Tid n × LoadState Tid n)
  | .sched a =>
      if r.ready c then
        (r.sched.step M c a).map fun x =>
          (x.1, (r.account c (r.sched.pc c) a).setSched x.2)
      else none
  | .incNrIowait =>
      match r.sched.pc c, r.sleeping c with
      | .schedule (.pick prev _ _), true => some (.tau, r.incNrIowait c prev)
      | _, _ => none
  | .decNrIowait =>
      match r.sched.pc c, r.waking c with
      | .tryToWakeUp p .waking, false => some (.tau, r.decNrIowait c p)
      | _, _ => none
  | .ioSchedulePrepare =>
      match r.sched.pc c with
      | .running =>
          let p := r.sched.current c
          some (.tau, r.setInIowait p true (r.inIowait p :: r.tokens p))
      | _ => none
  | .ioScheduleFinish =>
      let p := r.sched.current c
      match r.sched.pc c, r.tokens p with
      | .running, token :: rest => some (.tau, r.setInIowait p token rest)
      | _, _ => none
  | .setFrozen b =>
      match r.sched.pc c with
      | .running =>
          some (.tau, { r with frozen := Function.update r.frozen (r.sched.current c) b })
      | _ => none

end LoadState

/-! ## Runs -/

section Runs

variable {Tid : Type} [DecidableEq Tid] {n : ℕ}

/-- One statement of some CPU. -/
def LoadSteps (M : Machine Tid n) (r : LoadState Tid n) (e : Event Tid n)
    (r' : LoadState Tid n) : Prop := ∃ c a, r.step M c a = some (e, r')

/-- The accounts after boot. -/
def bootLoad (M : Machine Tid n) (c₀ : Cpu n) : LoadState Tid n where
  sched := boot M c₀
  prevState := fun _ => taskRunning
  frozen := fun _ => false
  contributes := fun _ => false
  inIowait := fun _ => false
  tokens := fun _ => []
  nrUninterruptible := fun _ => 0
  nrIowait := fun _ => 0
  sleeping := fun _ => false
  waking := fun _ => false

/-- The last state of a schedule from boot. -/
def afterLoad (acts : List (Cpu 2 × LoadAction ℕ 2)) : LoadState ℕ 2 :=
  lastState (fun r (x : Cpu 2 × LoadAction ℕ 2) => r.step twoCpus x.1 x.2)
    (bootLoad twoCpus 0) acts

end Runs

end LinuxOs2022.Scheduler
