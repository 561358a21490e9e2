import LinuxOs2022.Scheduler.State

/-!
# Steps of the scheduler

A step executes one statement on one CPU. An action names the function a CPU enters and
settles what the code leaves open: what signals are pending, which task a class picks, which
CPU is selected, whether a wake list is used, what the affinity masks allow.

## Implementation notes

Memory is sequentially consistent. Entering a function takes its first lock, and the two locks
of a pair are taken in one step. Statements that touch only what the CPU owns through its
locks are merged; the loads and stores of the counter, the deactivation, the switch and the
clearing of `on_cpu` are steps of their own. The loop of `task_rq_lock` enables
interrupts before each round, so a failed round ends the call and the next round is a new
one. A pick returns a task queued on that run queue or its idle task; the balancing of the
classes moves queued tasks that do not run, under the locks of both run queues.
-/

namespace LinuxOs2022.Scheduler

variable {Tid : Type} [DecidableEq Tid] {n : ℕ}

/-- What a CPU does next, with the choices that the code leaves open. -/
inductive Action (Tid : Type) (n : ℕ)
  | next
  | schedule (preempt : Bool)
  | tryToWakeUp (p : Tid) (mask : TaskState)
  | schedTtwuPending
  | fork (child : Tid) (thread : Bool)
  | wakeUpNewTask (p : Tid)
  | setCurrentState (v : TaskState)
  | doTaskDead
  | startToCount
  | stopToCount
  | myGetCpuNumber
  | setCpusAllowedPtr (p : Tid) (dest : Cpu n)
  | migrationCpuStop (p : Tid) (dest : Cpu n)
  | multiCpuStop (partner : Cpu n)
  | migrateSwapStop (arg : MigrationSwapArg Tid n)
  | loadBalance (p : Tid) (dest : Cpu n)
  | signalPending (b : Bool)
  | dropLock
  | retakeLock
  | pick (next : Tid)
  | ttwuQueueWakelist (b : Bool)
  | selectTaskRq (d : Cpu n)
  | allowed (b : Bool)

/-- What an observer of the counters sees of a step. -/
inductive Event (Tid : Type) (n : ℕ)
  | tau
  /-- `rq->curr` of a CPU changes from one task to another. -/
  | switch (c : Cpu n) (prev next : Tid)
  | start (t : Tid)
  | stop (t : Tid) (v : BitVec 64)
  | cpuNumber (t : Tid) (c : Cpu n) (v : BitVec 64)
  | fork (parent child : Tid)
  deriving DecidableEq

/-- The outcome of a step; `none` when the CPU cannot take it. -/
abbrev Outcome (Tid : Type) (n : ℕ) := Option (Event Tid n × State Tid n)

namespace State

variable (M : Machine Tid n) (s : State Tid n) (c : Cpu n)

/-- A step without an event. -/
def tau : Outcome Tid n := some (.tau, s)

/-- A step that is possible under a condition. -/
def when (b : Bool) (o : Outcome Tid n) : Outcome Tid n := if b then o else none

/-- `current`. -/
def current : Tid := (s.rq c).curr

/-- The current task may make system calls: it has not begun its last `__schedule`. -/
def callable : Bool := (s.task (s.current c)).state != taskDead

/-- A task that a stopper may be asked to move. Stoppers and idle tasks are bound to their
CPUs. -/
def movable (p : Tid) : Bool :=
  (s.task p).allocated && !M.stopper p && decide (∀ i, M.idle i ≠ p)

/-- `__schedule(preempt)`. -/
def scheduleStep : SchedulePc Tid → Action Tid n → Outcome Tid n
  | .loadState preempt prev, .signalPending b =>
      if preempt || (s.task prev).state == taskRunning then
        tau (s.setPc c (.schedule (.pick prev .nivcsw true)))
      else if signalPendingState (s.task prev).state b then
        tau (s.setPc c (.schedule (.signal prev)))
      else tau (s.setPc c (.schedule (.deactivate prev)))
  | .signal prev, .next =>
      tau ((s.modTask prev (·.setState taskRunning)).setPc c
        (.schedule (.pick prev .nvcsw true)))
  | .deactivate prev, .next =>
      tau ((s.modTask prev (·.deactivateTask true)).setPc c
        (.schedule (.pick prev .nvcsw true)))
  | .pick prev sc true, .dropLock =>
      tau ((s.release (.rq c)).setPc c (.schedule (.pick prev sc false)))
  | .pick prev sc false, .retakeLock =>
      when (s.free (.rq c))
        (tau ((s.acquire c (.rq c)).setPc c (.schedule (.pick prev sc true))))
  | .pick prev sc true, .pick next =>
      when ((s.task next).queuedOn == some c || next == M.idle c)
        (if next = prev then tau (s.setPc c (.schedule .unlock))
        else tau (s.setPc c (.schedule (.nrSwitches prev next sc))))
  | .nrSwitches prev next sc, .next =>
      tau ((s.modRq c fun r => { r with nrSwitches := r.nrSwitches + 1 }).setPc c
        (.schedule (.curr prev next sc)))
  | .curr prev next sc, .next =>
      some (.switch c prev next, (s.modRq c fun r => { r with curr := next }).setPc c
        (.schedule (.switchCount prev next sc)))
  | .switchCount prev next sc, .next =>
      tau ((s.modTask prev (·.addSwitchCount sc)).setPc c (.schedule (.loadCount prev next)))
  | .loadCount prev next, .next =>
      tau (s.setPc c (.schedule (.storeCount prev next (s.task next).processSwitchesCount)))
  | .storeCount prev next v, .next =>
      tau ((s.modTask next fun t => { t with processSwitchesCount := v + 1 }).setPc c
        (.schedule (.prepareTask prev next)))
  | .prepareTask prev next, .next =>
      tau ((s.modTask next fun t => { t with onCpu := true }).setPc c
        (.schedule (.finishTask prev)))
  | .finishTask prev, .next =>
      tau ((s.modTask prev fun t => { t with onCpu := false }).setPc c (.schedule .unlock))
  | .unlock, .next => tau ((s.release (.rq c)).setPc c .running)
  | _, _ => none

/-- Append a task to the call queue of CPU `d`. -/
def pushWakeList (d : Cpu n) (p : Tid) : State Tid n :=
  s.modRq d fun r => { r with wakeList := r.wakeList ++ [p] }

/-- `try_to_wake_up(p, state, wake_flags)`. -/
def tryToWakeUpStep (p : Tid) : TtwuPc n → Action Tid n → Outcome Tid n
  | .checkState mask, .next =>
      if (s.task p).state &&& mask = 0 then tau (s.setPc c (.unlockPi p))
      else tau (s.setPc c (.tryToWakeUp p .loadOnRq))
  | .loadOnRq, .next =>
      if (s.task p).onRq = .none then tau (s.setPc c (.tryToWakeUp p .waking))
      else tau (s.setPc c (.taskRqLock p .ttwuRemote .load))
  | .remote r, .next =>
      if (s.task p).onRq = .queued then
        tau ((s.modTask p (·.ttwuDoWakeup)).setPc c (.taskRqUnlock p r))
      else tau (s.setPc c (.tryToWakeUp p (.remoteUnlock r)))
  | .remoteUnlock r, .next =>
      tau ((s.release (.rq r)).setPc c (.tryToWakeUp p .waking))
  | .waking, .next =>
      tau ((s.modTask p (·.setState taskWaking)).setPc c (.tryToWakeUp p .loadOnCpu))
  | .loadOnCpu, .next =>
      if (s.task p).onCpu then tau (s.setPc c (.tryToWakeUp p .queueOnCpu))
      else tau (s.setPc c (.tryToWakeUp p .waitOnCpu))
  | .queueOnCpu, .ttwuQueueWakelist b =>
      if b && (s.task p).cpu != c then
        tau ((s.pushWakeList (s.task p).cpu p).setPc c (.unlockPi p))
      else tau (s.setPc c (.tryToWakeUp p .waitOnCpu))
  | .waitOnCpu, .next =>
      when (!(s.task p).onCpu) (tau (s.setPc c (.tryToWakeUp p .selectTaskRq)))
  | .selectTaskRq, .selectTaskRq d =>
      tau ((s.modTask p (·.setTaskCpu d)).setPc c (.tryToWakeUp p (.queue d)))
  | .queue d, .ttwuQueueWakelist b =>
      if b && d != c then tau ((s.pushWakeList d p).setPc c (.unlockPi p))
      else when (s.free (.rq d))
        (tau ((s.acquire c (.rq d)).setPc c (.tryToWakeUp p (.activate d))))
  | .activate d, .next =>
      tau ((s.modTask p (·.ttwuDoActivate d)).setPc c (.taskRqUnlock p d))
  | _, _ => none

/-- `sched_ttwu_pending(llist)`. -/
def schedTtwuPendingStep : List Tid → Bool → Action Tid n → Outcome Tid n
  | llist, false, .next =>
      when (s.free (.rq c))
        (tau ((s.acquire c (.rq c)).setPc c (.schedTtwuPending llist true)))
  | p :: rest, true, .next =>
      when (!(s.task p).onCpu)
        (tau ((s.modTask p fun t => (t.setTaskCpu c).ttwuDoActivate c).setPc c
          (.schedTtwuPending rest true)))
  | [], true, .next => tau ((s.release (.rq c)).setPc c .running)
  | _, _, _ => none

/-- `wake_up_new_task(p)`. -/
def wakeUpNewTaskStep (p : Tid) : NewTaskPc n → Action Tid n → Outcome Tid n
  | .setCpu, .selectTaskRq d =>
      tau ((s.modTask p fun t => { t with cpu := d }).setPc c
        (.taskRqLock p .wakeUpNewTask .load))
  | .activate r, .next =>
      tau ((s.modTask p (·.activateTask r)).setPc c (.taskRqUnlock p r))
  | _, _ => none

/-- The first statement of `move_queued_task(rq, rf, p, new_cpu)`: the task leaves its run
queue. -/
def detach (p : Tid) (src dest : Cpu n) : Outcome Tid n :=
  tau ((s.modTask p (·.deactivateTask false)).setPc c (.moveQueuedTask p src dest .setCpu))

/-- `__set_cpus_allowed_ptr(p, new_mask, check)` after its `task_rq_lock`. The masks may end
it early; a running or waking task is left to `migration_cpu_stop`. -/
def setCpusAllowedPtrStep (p : Tid) (dest r : Cpu n) : Action Tid n → Outcome Tid n
  | .allowed b =>
      if b && !(s.task p).onCpu && (s.task p).state != taskWaking
          && decide ((s.task p).onRq = .queued) then s.detach c p r dest
      else tau (s.setPc c (.taskRqUnlock p r))
  | _ => none

/-- `__task_rq_lock(p)`, and `task_rq_lock(p)` with the lock of `p` taken. -/
def taskRqLockStep (p : Tid) (caller : RqLockCaller n) :
    RqLockPc n → Action Tid n → Outcome Tid n
  | .load, .next => tau (s.setPc c (.taskRqLock p caller (.spin (s.task p).cpu)))
  | .spin r, .next =>
      when (s.free (.rq r))
        (tau ((s.acquire c (.rq r)).setPc c (.taskRqLock p caller (.check r))))
  | .check r, a =>
      match (s.task p).cpu == r && (s.task p).onRq != .migrating, caller with
      | true, .ttwuRemote => tau (s.setPc c (.tryToWakeUp p (.remote r)))
      | true, .wakeUpNewTask => tau (s.setPc c (.wakeUpNewTask p (.activate r)))
      | true, .setCpusAllowedPtr dest => s.setCpusAllowedPtrStep c p dest r a
      -- only `task_rq_lock` gives up the lock of `p` as well
      | false, .setCpusAllowedPtr _ =>
          tau (((s.release (.rq r)).release (.pi p)).setPc c .running)
      | false, _ => tau ((s.release (.rq r)).setPc c (.taskRqLock p caller .load))
  | _, _ => none

/-- `migration_cpu_stop(data)`. -/
def migrationCpuStopStep (p : Tid) (dest : Cpu n) : Bool → Action Tid n → Outcome Tid n
  | false, .next =>
      when (s.free (.rq c))
        (tau ((s.acquire c (.rq c)).setPc c (.migrationCpuStop p dest true)))
  | true, .allowed b =>
      if b && (s.task p).cpu == c && decide ((s.task p).onRq = .queued) then
        s.detach c p c dest
      else tau (s.setPc c (.taskRqUnlock p c))
  | _, _ => none

/-- `move_queued_task(rq, rf, p, new_cpu)` after its dequeue. -/
def moveQueuedTaskStep (p : Tid) (src dest : Cpu n) : MovePc → Action Tid n → Outcome Tid n
  | .setCpu, .next =>
      tau ((s.modTask p (·.setTaskCpu dest)).setPc c (.moveQueuedTask p src dest .unlock))
  | .unlock, .next =>
      tau ((s.release (.rq src)).setPc c (.moveQueuedTask p src dest .lock))
  | .lock, .next =>
      when (s.free (.rq dest))
        (tau ((s.acquire c (.rq dest)).setPc c (.moveQueuedTask p src dest .enqueue)))
  | .enqueue, .next =>
      tau ((s.modTask p (·.activateTask dest)).setPc c (.taskRqUnlock p dest))
  | _, _ => none

/-- `__migrate_swap_task(p, cpu)`. -/
def migrateSwapTask (p : Tid) (d : Cpu n) : State Tid n :=
  if (s.task p).onRq = .queued then
    s.modTask p fun t => ((t.deactivateTask false).setTaskCpu d).activateTask d
  else s

/-- `migrate_swap_stop(data)`. -/
def migrateSwapStopStep (arg : MigrationSwapArg Tid n) :
    SwapPc → Action Tid n → Outcome Tid n
  | .lockRqs, .next =>
      when (s.free (.rq arg.srcCpu) && s.free (.rq arg.dstCpu))
        (tau (((s.acquire c (.rq arg.srcCpu)).acquire c (.rq arg.dstCpu)).setPc c
          (.migrateSwapStop arg .swap)))
  | .swap, .allowed b =>
      if b && (s.task arg.dstTask).cpu == arg.dstCpu
          && (s.task arg.srcTask).cpu == arg.srcCpu then
        tau (((s.migrateSwapTask arg.srcTask arg.dstCpu).migrateSwapTask arg.dstTask
          arg.srcCpu).setPc c (.migrateSwapStop arg .unlock))
      else tau (s.setPc c (.migrateSwapStop arg .unlock))
  | .unlock, .next =>
      tau ((((s.release (.rq arg.srcCpu)).release (.rq arg.dstCpu)).release
        (.pi arg.srcTask)).release (.pi arg.dstTask) |>.setPc c .running)
  | _, _ => none

/-- `c` holds the lock or nobody does. -/
def available (l : Lock Tid n) : Bool := s.free l || s.lock l == some c

/-- Balancing of a scheduling class: a queued task that does not run goes to another run
queue under the locks of both. -/
def loadBalance (p : Tid) (dest : Cpu n) : Outcome Tid n :=
  match (s.task p).queuedOn with
  | none => none
  | some src =>
      when (s.available c (.rq src) && s.available c (.rq dest) && !(s.task p).onCpu)
        (tau (s.modTask p fun t => (t.setTaskCpu dest).activateTask dest))

/-- `fork` by the current task up to the return of `sched_fork`; a `fork` that fails makes
no task. -/
def fork (child : Tid) (thread : Bool) : Outcome Tid n :=
  when (s.callable c && !(s.task child).allocated)
    (some (.fork (s.current c) child,
      let parent := s.task (s.current c)
      s.modTask child fun _ =>
        (parent.dupTaskStruct (if thread then parent.tgid else child)).schedFork c))

/-- `set_current_state(v)`, and `set_special_state(v)` where the state is special. -/
def setCurrentState (v : TaskState) : Outcome Tid n :=
  when (decide (∀ i, M.idle i ≠ s.current c) &&
      (!isSpecialTaskState v || s.free (.pi (s.current c))))
    (tau (s.modTask (s.current c) (·.setState v)))

/-- Both tasks and CPUs of a swap are in order: two movable tasks and the two CPUs of
`stop_two_cpus`. -/
def swapReady (arg : MigrationSwapArg Tid n) : Bool :=
  s.movable M arg.srcTask && s.movable M arg.dstTask && arg.srcTask != arg.dstTask
    && M.stopper (s.current c)
    && ((arg.srcCpu == c && spins arg.dstCpu) || (arg.dstCpu == c && spins arg.srcCpu))
where
  spins (d : Cpu n) : Bool :=
    match s.pc d with
    | .multiCpuStop partner => partner == c
    | _ => false

/-- A CPU in no function of the scheduler enters one, or its current task makes a system
call. -/
def enterStep : Action Tid n → Outcome Tid n
  | .schedule preempt =>
      when (s.free (.rq c))
        (tau ((s.acquire c (.rq c)).setPc c (.schedule (.loadState preempt (s.current c)))))
  | .tryToWakeUp p mask =>
      when ((s.task p).allocated && !isSchedulerState mask)
        (if p = s.current c then
          if (s.task p).state &&& mask = 0 then tau s
          else tau (s.modTask p (·.setState taskRunning))
        else when (s.free (.pi p))
          (tau ((s.acquire c (.pi p)).setPc c (.tryToWakeUp p (.checkState mask)))))
  | .schedTtwuPending =>
      tau ((s.modRq c fun r => { r with wakeList := [] }).setPc c
        (.schedTtwuPending (s.rq c).wakeList false))
  | .fork child thread => s.fork c child thread
  | .wakeUpNewTask p =>
      when ((s.task p).allocated && (s.task p).state == taskNew && s.free (.pi p))
        (tau (((s.acquire c (.pi p)).modTask p (·.setState taskRunning)).setPc c
          (.wakeUpNewTask p .setCpu)))
  | .setCurrentState v => when (s.callable c && !isSchedulerState v) (s.setCurrentState M c v)
  | .doTaskDead => when (s.callable c) (s.setCurrentState M c taskDead)
  | .startToCount =>
      when (s.callable c) (some (.start (s.current c),
        s.modTask (s.current c) fun t => { t with processSwitchesCount := 0 }))
  | .stopToCount =>
      when (s.callable c) (some (.stop (s.current c)
        ((s.task (s.current c)).processSwitchesCount.setWidth 64), s))
  | .myGetCpuNumber =>
      when (s.callable c) (some (.cpuNumber (s.current c) c
        (cpuNumberResult (BitVec.ofNat 32 (s.task (s.current c)).cpu)), s))
  | .setCpusAllowedPtr p dest =>
      when ((s.task p).allocated && decide (∀ i, M.idle i ≠ p) && s.free (.pi p))
        (tau ((s.acquire c (.pi p)).setPc c (.taskRqLock p (.setCpusAllowedPtr dest) .load)))
  | .migrationCpuStop p dest =>
      when (s.movable M p && M.stopper (s.current c) && s.free (.pi p))
        (tau ((s.acquire c (.pi p)).setPc c (.migrationCpuStop p dest false)))
  | .multiCpuStop partner =>
      when (M.stopper (s.current c) && partner != c)
        (tau (s.setPc c (.multiCpuStop partner)))
  | .migrateSwapStop arg =>
      when (s.swapReady M c arg && s.free (.pi arg.srcTask) && s.free (.pi arg.dstTask))
        (tau (((s.acquire c (.pi arg.srcTask)).acquire c (.pi arg.dstTask)).setPc c
          (.migrateSwapStop arg .lockRqs)))
  | .loadBalance p dest => s.loadBalance c p dest
  | _ => none
where
  /-- `my_get_cpu_number()` for the value of `current->cpu`. -/
  cpuNumberResult (v : BitVec 32) : BitVec 64 :=
    if v = -1 then -1 else v.setWidth 64

/-- One statement of CPU `c`. -/
def step (a : Action Tid n) : Outcome Tid n :=
  match s.pc c with
  | .running => s.enterStep M c a
  | .schedule k =>
      match k, a with
      | .pick _ _ _, .loadBalance p dest => s.loadBalance c p dest
      | k, a => s.scheduleStep M c k a
  | .tryToWakeUp p k => s.tryToWakeUpStep c p k a
  | .schedTtwuPending llist locked => s.schedTtwuPendingStep c llist locked a
  | .wakeUpNewTask p k => s.wakeUpNewTaskStep c p k a
  | .taskRqLock p caller k => s.taskRqLockStep c p caller k a
  | .migrationCpuStop p dest locked => s.migrationCpuStopStep c p dest locked a
  | .moveQueuedTask p src dest k => s.moveQueuedTaskStep c p src dest k a
  | .taskRqUnlock p r => tau ((s.release (.rq r)).setPc c (.unlockPi p))
  | .unlockPi p => tau ((s.release (.pi p)).setPc c .running)
  | .migrateSwapStop arg k => s.migrateSwapStopStep c arg k a
  | .multiCpuStop partner =>
      match s.pc partner with
      | .migrateSwapStop _ _ => none
      | _ => tau (s.setPc c .running)

end State

end LinuxOs2022.Scheduler
