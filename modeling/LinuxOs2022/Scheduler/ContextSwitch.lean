import LinuxOs2022.Library.References
import LinuxOs2022.Scheduler.Death

/-!
# Address spaces across a context switch

A kernel thread has no address space of its own; it runs in the one of the task before it
and holds a reference to it until a task with an address space comes. `context_switch` lends
and returns these references, and `finish_task_switch` drops what it finds in `rq->prev_mm`
after it has released the run queue. It also drops the reference that a dead task had as the
current one, by a state that it loads before it clears `on_cpu`.

## Implementation notes

The statements of the scheduler are those of `State.step`; the statements here come between
them. The rest of the kernel takes and drops references by the rules of `mm_count`: a
reference is taken by a holder, and the users of an address space together hold one. `exit`
disables preemption before it sets `TASK_DEAD`.
-/

namespace LinuxOs2022.Scheduler

open Custody Library

/-- How far `context_switch` and `finish_task_switch` have come on a CPU, with the local
variables of the latter. -/
inductive Stage (Tid Mm : Type)
  | outside
  | switched
  | finishing (prev : Tid) (prevState : TaskState) (mm : Option Mm)

/-- The local variable `mm`. -/
def Stage.mm {Tid Mm : Type} : Stage Tid Mm → Option Mm
  | .finishing _ _ mm => mm
  | _ => none

/-- The scheduler with the address spaces of its tasks. -/
structure MmState (Tid Mm : Type) (n : ℕ) where
  sched : State Tid n
  stage : Cpu n → Stage Tid Mm
  /-- `task_struct.mm`. -/
  mm : Tid → Option Mm
  /-- `task_struct.active_mm`. -/
  activeMm : Tid → Option Mm
  /-- `rq->prev_mm`. -/
  prevMm : Cpu n → Option Mm
  /-- `mm_struct.mm_count`. -/
  counter : Mm → Counter
  /-- The tasks that `mm_struct.mm_users` counts. -/
  users : Mm → Finset Tid
  /-- References held elsewhere in the kernel, the one of the users included. -/
  held : Mm → ℕ
  /-- How often `finish_task_switch` has dropped the task. -/
  dropped : Tid → ℕ

/-- What a CPU does next. -/
inductive MmAction (Tid Mm : Type) (n : ℕ)
  | sched (a : Action Tid n)
  | fork (child : Tid) (thread : Bool) (m : Option Mm)
  | contextSwitch
  | finishTaskSwitch
  | endTaskSwitch
  | allocMm (m : Mm)
  | grabMm (m : Mm)
  | dropMm (m : Mm)
  | takeMm (m : Mm)
  | leaveMm

namespace MmState

variable {Tid Mm : Type} [DecidableEq Tid] [DecidableEq Mm] {n : ℕ}

section Writes

variable (r : MmState Tid Mm n) (c : Cpu n) (p : Tid) (m : Mm)

def setStage (k : Stage Tid Mm) : MmState Tid Mm n :=
  { r with stage := Function.update r.stage c k }

def setMm (x : Option Mm) : MmState Tid Mm n := { r with mm := Function.update r.mm p x }

def setActiveMm (x : Option Mm) : MmState Tid Mm n :=
  { r with activeMm := Function.update r.activeMm p x }

def setPrevMm (x : Option Mm) : MmState Tid Mm n :=
  { r with prevMm := Function.update r.prevMm c x }

/-- `mmgrab(m)`. -/
def mmgrab : MmState Tid Mm n :=
  { r with counter := Function.update r.counter m (r.counter m).get }

/-- `mmdrop(m)`. -/
def mmdrop : MmState Tid Mm n :=
  { r with counter := Function.update r.counter m (r.counter m).put }

def setUsers (u : Finset Tid) : MmState Tid Mm n :=
  { r with users := Function.update r.users m u }

def setHeld (k : ℕ) : MmState Tid Mm n := { r with held := Function.update r.held m k }

/-- `mmdrop(m)` where there is one. -/
def mmdropOpt : Option Mm → MmState Tid Mm n
  | none => r
  | some m => r.mmdrop m

/-- `put_task_struct_rcu_user(p)`. -/
def putTask : MmState Tid Mm n :=
  { r with dropped := Function.update r.dropped p (r.dropped p + 1) }

end Writes

variable (M : Machine Tid n) (r : MmState Tid Mm n) (c : Cpu n)

/-- The first part of `context_switch(rq, prev, next, rf)`, up to `switch_to`; `none` when it
follows a null pointer. -/
def contextSwitch (prev next : Tid) : Option (MmState Tid Mm n) :=
  match r.mm next with
  | none =>
      let r' := r.setActiveMm next (r.activeMm prev)
      if (r.mm prev).isSome then (r.activeMm prev).map r'.mmgrab
      else some (r'.setActiveMm prev none)
  | some _ =>
      if (r.mm prev).isNone then
        some ((r.setPrevMm c (r.activeMm prev)).setActiveMm prev none)
      else some r

/-- The statements of the scheduler that wait for those of `context_switch`, and what cannot
happen inside it or in a task that has begun to die. -/
def ready : Action Tid n → Bool
  | .schedule preempt =>
      match r.stage c with
      | .outside => !(preempt && (r.sched.task (r.sched.current c)).state == taskDead)
      | _ => false
  | .fork _ _ => false
  | _ =>
      match r.sched.pc c, r.stage c with
      | .schedule (.finishTask _), .finishing _ _ _ => true
      | .schedule (.finishTask _), _ => false
      | _, _ => true

/-- The current task gets the address space `m`, which somebody hands over: `exec`. -/
def takeMm (m : Mm) : Option (MmState Tid Mm n) :=
  let p := r.sched.current c
  let r' := ((r.setMm p (some m)).setActiveMm p (some m))
  match r.mm p with
  | some old =>
      let r'' := r'.setUsers old (r.users old \ {p})
      some (r''.setUsers m (insert p (r''.users m)))
  | none =>
      (r.activeMm p).map fun a => (r'.mmdrop a).setUsers m (insert p (r.users m))

/-- The current task gives up its address space and runs in it as a kernel thread would:
`exit`. -/
def leaveMm : Option (MmState Tid Mm n) :=
  let p := r.sched.current c
  (r.mm p).map fun m => ((r.setMm p none).mmgrab m).setUsers m (r.users m \ {p})

/-- The child of a `fork` gets its address space, a new one or that of its parent. -/
def copyMm (child : Tid) (m : Option Mm) : MmState Tid Mm n :=
  let r' := (r.setMm child m).setActiveMm child m
  match m with
  | none => r'
  | some m => r'.setUsers m (insert child (r.users m))

/-- The current task executes, in no function of the scheduler. -/
def executes : Bool :=
  match r.sched.pc c, r.stage c with
  | .running, .outside => true
  | _, _ => false

/-- One statement of CPU `c`. -/
def step : MmAction Tid Mm n → Option (Event Tid n × MmState Tid Mm n)
  | .sched a =>
      if r.ready c a then
        (r.sched.step M c a).map fun x => (x.1, { r with sched := x.2 })
      else none
  | .fork child thread m =>
      if r.executes c && m.all (fun m => decide (0 < r.held m)) then
        (r.sched.step M c (.fork child thread)).map fun x =>
          (x.1, { r with sched := x.2 }.copyMm child m)
      else none
  | .contextSwitch =>
      match r.sched.pc c, r.stage c with
      | .schedule (.finishTask prev), .outside =>
          (r.contextSwitch c prev (r.sched.current c)).map fun r' =>
            (.tau, r'.setStage c .switched)
      | _, _ => none
  | .finishTaskSwitch =>
      match r.sched.pc c, r.stage c with
      | .schedule (.finishTask prev), .switched =>
          some (.tau, (r.setPrevMm c none).setStage c
            (.finishing prev (r.sched.task prev).state (r.prevMm c)))
      | _, _ => none
  | .endTaskSwitch =>
      match r.sched.pc c, r.stage c with
      | .running, .finishing prev prevState mm =>
          let r' := (r.mmdropOpt mm).setStage c .outside
          some (.tau, if prevState = taskDead then r'.putTask prev else r')
      | _, _ => none
  | .allocMm m =>
      if (r.counter m).life = .unborn then
        some (.tau, { r with counter := Function.update r.counter m .init }.setHeld m 1)
      else none
  | .grabMm m =>
      if 0 < r.held m then some (.tau, (r.mmgrab m).setHeld m (r.held m + 1)) else none
  | .dropMm m =>
      if 1 < r.held m ∨ 0 < r.held m ∧ r.users m = ∅ then
        some (.tau, (r.mmdrop m).setHeld m (r.held m - 1))
      else none
  | .takeMm m =>
      if r.executes c && decide (0 < r.held m) then (r.takeMm c m).map fun r' => (.tau, r')
      else none
  | .leaveMm => if r.executes c then (r.leaveMm c).map fun r' => (.tau, r') else none

end MmState

end LinuxOs2022.Scheduler
