import LinuxOs2022.Scheduler.Step

/-!
# What one step can do

`Transition` lists the steps of a CPU, one constructor for each way a statement can go, with
the tests that led there. Every result about steps is proved by cases on it.
-/

namespace LinuxOs2022.Scheduler

variable {Tid : Type} [DecidableEq Tid] {n : ℕ}

/-- The steps of CPU `c` from state `s`. -/
inductive Transition (M : Machine Tid n) (s : State Tid n) (c : Cpu n) :
    Event Tid n → State Tid n → Prop
  -- `__schedule`
  | enterSchedule (preempt : Bool) (hpc : s.pc c = .running) (hl : s.lock (.rq c) = none) :
      Transition M s c .tau ((s.acquire c (.rq c)).setPc c
        (.schedule (.loadState preempt (s.rq c).curr)))
  | loadStateKeep (preempt : Bool) (prev : Tid)
      (hpc : s.pc c = .schedule (.loadState preempt prev)) :
      Transition M s c .tau (s.setPc c (.schedule (.pick prev .nivcsw true)))
  | loadStateSignal (preempt : Bool) (prev : Tid)
      (hpc : s.pc c = .schedule (.loadState preempt prev)) :
      Transition M s c .tau (s.setPc c (.schedule (.signal prev)))
  | loadStateSleep (preempt : Bool) (prev : Tid)
      (hpc : s.pc c = .schedule (.loadState preempt prev)) :
      Transition M s c .tau (s.setPc c (.schedule (.deactivate prev)))
  | signal (prev : Tid) (hpc : s.pc c = .schedule (.signal prev)) :
      Transition M s c .tau ((s.modTask prev (·.setState taskRunning)).setPc c
        (.schedule (.pick prev .nvcsw true)))
  | deactivate (prev : Tid) (hpc : s.pc c = .schedule (.deactivate prev)) :
      Transition M s c .tau ((s.modTask prev (·.deactivateTask true)).setPc c
        (.schedule (.pick prev .nvcsw true)))
  | dropLock (prev : Tid) (sc : SwitchCount) (hpc : s.pc c = .schedule (.pick prev sc true)) :
      Transition M s c .tau ((s.release (.rq c)).setPc c (.schedule (.pick prev sc false)))
  | retakeLock (prev : Tid) (sc : SwitchCount)
      (hpc : s.pc c = .schedule (.pick prev sc false)) (hl : s.lock (.rq c) = none) :
      Transition M s c .tau ((s.acquire c (.rq c)).setPc c (.schedule (.pick prev sc true)))
  | pickPrev (prev : Tid) (sc : SwitchCount) (hpc : s.pc c = .schedule (.pick prev sc true))
      (hq : (s.task prev).queuedOn = some c ∨ prev = M.idle c) :
      Transition M s c .tau (s.setPc c (.schedule .unlock))
  | pickNext (prev next : Tid) (sc : SwitchCount)
      (hpc : s.pc c = .schedule (.pick prev sc true))
      (hq : (s.task next).queuedOn = some c ∨ next = M.idle c) (hne : next ≠ prev) :
      Transition M s c .tau (s.setPc c (.schedule (.nrSwitches prev next sc)))
  | nrSwitches (prev next : Tid) (sc : SwitchCount)
      (hpc : s.pc c = .schedule (.nrSwitches prev next sc)) :
      Transition M s c .tau ((s.modRq c fun r => { r with nrSwitches := r.nrSwitches + 1 }).setPc
        c (.schedule (.curr prev next sc)))
  | curr (prev next : Tid) (sc : SwitchCount)
      (hpc : s.pc c = .schedule (.curr prev next sc)) :
      Transition M s c (.switch c prev next)
        ((s.modRq c fun r => { r with curr := next }).setPc c
          (.schedule (.switchCount prev next sc)))
  | switchCount (prev next : Tid) (sc : SwitchCount)
      (hpc : s.pc c = .schedule (.switchCount prev next sc)) :
      Transition M s c .tau ((s.modTask prev (·.addSwitchCount sc)).setPc c
        (.schedule (.loadCount prev next)))
  | loadCount (prev next : Tid) (hpc : s.pc c = .schedule (.loadCount prev next)) :
      Transition M s c .tau (s.setPc c
        (.schedule (.storeCount prev next (s.task next).processSwitchesCount)))
  | storeCount (prev next : Tid) (v : BitVec 32)
      (hpc : s.pc c = .schedule (.storeCount prev next v)) :
      Transition M s c .tau
        ((s.modTask next fun t => { t with processSwitchesCount := v + 1 }).setPc c
          (.schedule (.prepareTask prev next)))
  | prepareTask (prev next : Tid) (hpc : s.pc c = .schedule (.prepareTask prev next)) :
      Transition M s c .tau ((s.modTask next fun t => { t with onCpu := true }).setPc c
        (.schedule (.finishTask prev)))
  | finishTask (prev : Tid) (hpc : s.pc c = .schedule (.finishTask prev)) :
      Transition M s c .tau ((s.modTask prev fun t => { t with onCpu := false }).setPc c
        (.schedule .unlock))
  | unlock (hpc : s.pc c = .schedule .unlock) :
      Transition M s c .tau ((s.release (.rq c)).setPc c .running)
  -- `try_to_wake_up`
  | wakeSelf (mask : TaskState) (hpc : s.pc c = .running) :
      Transition M s c .tau (s.modTask (s.rq c).curr (·.setState taskRunning))
  | wakeLock (p : Tid) (mask : TaskState) (hpc : s.pc c = .running)
      (hp : p ≠ (s.rq c).curr) (ha : (s.task p).allocated = true)
      (hm : isSchedulerState mask = false) (hl : s.lock (.pi p) = none) :
      Transition M s c .tau ((s.acquire c (.pi p)).setPc c (.tryToWakeUp p (.checkState mask)))
  | stateMiss (p : Tid) (mask : TaskState)
      (hpc : s.pc c = .tryToWakeUp p (.checkState mask)) :
      Transition M s c .tau (s.setPc c (.unlockPi p))
  | stateHit (p : Tid) (mask : TaskState)
      (hpc : s.pc c = .tryToWakeUp p (.checkState mask))
      (hm : (s.task p).state &&& mask ≠ 0) :
      Transition M s c .tau (s.setPc c (.tryToWakeUp p .loadOnRq))
  | offRq (p : Tid) (hpc : s.pc c = .tryToWakeUp p .loadOnRq)
      (hq : (s.task p).onRq = .none) :
      Transition M s c .tau (s.setPc c (.tryToWakeUp p .waking))
  | onRq (p : Tid) (hpc : s.pc c = .tryToWakeUp p .loadOnRq) :
      Transition M s c .tau (s.setPc c (.taskRqLock p .ttwuRemote .load))
  | remoteWake (p : Tid) (r : Cpu n) (hpc : s.pc c = .tryToWakeUp p (.remote r)) :
      Transition M s c .tau ((s.modTask p (·.ttwuDoWakeup)).setPc c (.taskRqUnlock p r))
  | remoteMiss (p : Tid) (r : Cpu n) (hpc : s.pc c = .tryToWakeUp p (.remote r))
      (hq : (s.task p).onRq ≠ .queued) :
      Transition M s c .tau (s.setPc c (.tryToWakeUp p (.remoteUnlock r)))
  | remoteUnlock (p : Tid) (r : Cpu n) (hpc : s.pc c = .tryToWakeUp p (.remoteUnlock r)) :
      Transition M s c .tau ((s.release (.rq r)).setPc c (.tryToWakeUp p .waking))
  | waking (p : Tid) (hpc : s.pc c = .tryToWakeUp p .waking) :
      Transition M s c .tau ((s.modTask p (·.setState taskWaking)).setPc c
        (.tryToWakeUp p .loadOnCpu))
  | loadOnCpu (p : Tid) (hpc : s.pc c = .tryToWakeUp p .loadOnCpu) :
      Transition M s c .tau (s.setPc c (.tryToWakeUp p .queueOnCpu))
  | loadOffCpu (p : Tid) (hpc : s.pc c = .tryToWakeUp p .loadOnCpu) :
      Transition M s c .tau (s.setPc c (.tryToWakeUp p .waitOnCpu))
  | pushOnCpu (p : Tid) (hpc : s.pc c = .tryToWakeUp p .queueOnCpu)
      (hd : (s.task p).cpu ≠ c) :
      Transition M s c .tau ((s.pushWakeList (s.task p).cpu p).setPc c (.unlockPi p))
  | skipPush (p : Tid) (hpc : s.pc c = .tryToWakeUp p .queueOnCpu) :
      Transition M s c .tau (s.setPc c (.tryToWakeUp p .waitOnCpu))
  | waitOnCpu (p : Tid) (hpc : s.pc c = .tryToWakeUp p .waitOnCpu)
      (hn : (s.task p).onCpu = false) :
      Transition M s c .tau (s.setPc c (.tryToWakeUp p .selectTaskRq))
  | selectTaskRq (p : Tid) (d : Cpu n) (hpc : s.pc c = .tryToWakeUp p .selectTaskRq) :
      Transition M s c .tau ((s.modTask p (·.setTaskCpu d)).setPc c
        (.tryToWakeUp p (.queue d)))
  | pushQueue (p : Tid) (d : Cpu n) (hpc : s.pc c = .tryToWakeUp p (.queue d)) (hd : d ≠ c) :
      Transition M s c .tau ((s.pushWakeList d p).setPc c (.unlockPi p))
  | lockQueue (p : Tid) (d : Cpu n) (hpc : s.pc c = .tryToWakeUp p (.queue d))
      (hl : s.lock (.rq d) = none) :
      Transition M s c .tau ((s.acquire c (.rq d)).setPc c (.tryToWakeUp p (.activate d)))
  | activate (p : Tid) (d : Cpu n) (hpc : s.pc c = .tryToWakeUp p (.activate d)) :
      Transition M s c .tau ((s.modTask p (·.ttwuDoActivate d)).setPc c (.taskRqUnlock p d))
  -- `sched_ttwu_pending`
  | takeWakeList (hpc : s.pc c = .running) :
      Transition M s c .tau ((s.modRq c fun r => { r with wakeList := [] }).setPc c
        (.schedTtwuPending (s.rq c).wakeList false))
  | lockPending (llist : List Tid) (hpc : s.pc c = .schedTtwuPending llist false)
      (hl : s.lock (.rq c) = none) :
      Transition M s c .tau ((s.acquire c (.rq c)).setPc c (.schedTtwuPending llist true))
  | activatePending (p : Tid) (rest : List Tid)
      (hpc : s.pc c = .schedTtwuPending (p :: rest) true) (hn : (s.task p).onCpu = false) :
      Transition M s c .tau
        ((s.modTask p fun t => (t.setTaskCpu c).ttwuDoActivate c).setPc c
          (.schedTtwuPending rest true))
  | unlockPending (hpc : s.pc c = .schedTtwuPending [] true) :
      Transition M s c .tau ((s.release (.rq c)).setPc c .running)
  -- `fork` and `wake_up_new_task`
  | fork (child : Tid) (thread : Bool) (hpc : s.pc c = .running)
      (ha : (s.task child).allocated = false) :
      Transition M s c (.fork (s.rq c).curr child) (s.modTask child fun _ =>
        ((s.task (s.rq c).curr).dupTaskStruct
          (if thread then (s.task (s.rq c).curr).tgid else child)).schedFork c)
  | wakeNew (p : Tid) (hpc : s.pc c = .running) (ha : (s.task p).allocated = true)
      (hs : (s.task p).state = taskNew) (hl : s.lock (.pi p) = none) :
      Transition M s c .tau
        (((s.acquire c (.pi p)).modTask p (·.setState taskRunning)).setPc c
          (.wakeUpNewTask p .setCpu))
  | newSetCpu (p : Tid) (d : Cpu n) (hpc : s.pc c = .wakeUpNewTask p .setCpu) :
      Transition M s c .tau ((s.modTask p fun t => { t with cpu := d }).setPc c
        (.taskRqLock p .wakeUpNewTask .load))
  | newActivate (p : Tid) (r : Cpu n) (hpc : s.pc c = .wakeUpNewTask p (.activate r)) :
      Transition M s c .tau ((s.modTask p (·.activateTask r)).setPc c (.taskRqUnlock p r))
  -- system calls and state changes of the current task
  | setState (v : TaskState) (hpc : s.pc c = .running) (hi : ∀ i, M.idle i ≠ (s.rq c).curr)
      (hv : v ≠ taskWaking) (hv' : v ≠ taskNew) :
      Transition M s c .tau (s.modTask (s.rq c).curr (·.setState v))
  | startToCount (hpc : s.pc c = .running) :
      Transition M s c (.start (s.rq c).curr)
        (s.modTask (s.rq c).curr fun t => { t with processSwitchesCount := 0 })
  | stopToCount (hpc : s.pc c = .running) :
      Transition M s c (.stop (s.rq c).curr
        ((s.task (s.rq c).curr).processSwitchesCount.setWidth 64)) s
  | myGetCpuNumber (hpc : s.pc c = .running) :
      Transition M s c (.cpuNumber (s.rq c).curr c (State.enterStep.cpuNumberResult
        (BitVec.ofNat 32 (s.task (s.rq c).curr).cpu))) s
  -- `task_rq_lock`
  | loadRq (p : Tid) (caller : RqLockCaller n) (hpc : s.pc c = .taskRqLock p caller .load) :
      Transition M s c .tau (s.setPc c (.taskRqLock p caller (.spin (s.task p).cpu)))
  | lockRq (p : Tid) (caller : RqLockCaller n) (r : Cpu n)
      (hpc : s.pc c = .taskRqLock p caller (.spin r)) (hl : s.lock (.rq r) = none) :
      Transition M s c .tau ((s.acquire c (.rq r)).setPc c (.taskRqLock p caller (.check r)))
  | remoteLocked (p : Tid) (r : Cpu n) (hpc : s.pc c = .taskRqLock p .ttwuRemote (.check r)) :
      Transition M s c .tau (s.setPc c (.tryToWakeUp p (.remote r)))
  | newLocked (p : Tid) (r : Cpu n) (hpc : s.pc c = .taskRqLock p .wakeUpNewTask (.check r))
      (hr : (s.task p).cpu = r) :
      Transition M s c .tau (s.setPc c (.wakeUpNewTask p (.activate r)))
  | lockedSkip (p : Tid) (dest r : Cpu n)
      (hpc : s.pc c = .taskRqLock p (.setCpusAllowedPtr dest) (.check r)) :
      Transition M s c .tau (s.setPc c (.taskRqUnlock p r))
  | lockedMove (p : Tid) (dest r : Cpu n)
      (hpc : s.pc c = .taskRqLock p (.setCpusAllowedPtr dest) (.check r))
      (hr : (s.task p).cpu = r) (hn : (s.task p).onCpu = false)
      (hq : (s.task p).onRq = .queued) :
      Transition M s c .tau ((s.modTask p (·.deactivateTask false)).setPc c
        (.moveQueuedTask p r dest .setCpu))
  | lockRetry (p : Tid) (caller : RqLockCaller n) (r : Cpu n)
      (hpc : s.pc c = .taskRqLock p caller (.check r))
      (hc : ∀ dest, caller ≠ .setCpusAllowedPtr dest) :
      Transition M s c .tau ((s.release (.rq r)).setPc c (.taskRqLock p caller .load))
  | lockGiveUp (p : Tid) (dest r : Cpu n)
      (hpc : s.pc c = .taskRqLock p (.setCpusAllowedPtr dest) (.check r)) :
      Transition M s c .tau (((s.release (.rq r)).release (.pi p)).setPc c .running)
  -- migration
  | enterAllowed (p : Tid) (dest : Cpu n) (hpc : s.pc c = .running)
      (hp : ∀ i, M.idle i ≠ p) (hl : s.lock (.pi p) = none) :
      Transition M s c .tau ((s.acquire c (.pi p)).setPc c
        (.taskRqLock p (.setCpusAllowedPtr dest) .load))
  | enterCpuStop (p : Tid) (dest : Cpu n) (hpc : s.pc c = .running)
      (hp : s.movable M p = true) (hs : M.stopper (s.rq c).curr = true)
      (hl : s.lock (.pi p) = none) :
      Transition M s c .tau ((s.acquire c (.pi p)).setPc c (.migrationCpuStop p dest false))
  | cpuStopLock (p : Tid) (dest : Cpu n) (hpc : s.pc c = .migrationCpuStop p dest false)
      (hl : s.lock (.rq c) = none) :
      Transition M s c .tau ((s.acquire c (.rq c)).setPc c (.migrationCpuStop p dest true))
  | cpuStopSkip (p : Tid) (dest : Cpu n) (hpc : s.pc c = .migrationCpuStop p dest true) :
      Transition M s c .tau (s.setPc c (.taskRqUnlock p c))
  | cpuStopMove (p : Tid) (dest : Cpu n) (hpc : s.pc c = .migrationCpuStop p dest true)
      (hr : (s.task p).cpu = c) (hq : (s.task p).onRq = .queued) :
      Transition M s c .tau ((s.modTask p (·.deactivateTask false)).setPc c
        (.moveQueuedTask p c dest .setCpu))
  | moveSetCpu (p : Tid) (src dest : Cpu n)
      (hpc : s.pc c = .moveQueuedTask p src dest .setCpu) :
      Transition M s c .tau ((s.modTask p (·.setTaskCpu dest)).setPc c
        (.moveQueuedTask p src dest .unlock))
  | moveUnlock (p : Tid) (src dest : Cpu n)
      (hpc : s.pc c = .moveQueuedTask p src dest .unlock) :
      Transition M s c .tau ((s.release (.rq src)).setPc c (.moveQueuedTask p src dest .lock))
  | moveLock (p : Tid) (src dest : Cpu n) (hpc : s.pc c = .moveQueuedTask p src dest .lock)
      (hl : s.lock (.rq dest) = none) :
      Transition M s c .tau ((s.acquire c (.rq dest)).setPc c
        (.moveQueuedTask p src dest .enqueue))
  | moveEnqueue (p : Tid) (src dest : Cpu n)
      (hpc : s.pc c = .moveQueuedTask p src dest .enqueue) :
      Transition M s c .tau ((s.modTask p (·.activateTask dest)).setPc c
        (.taskRqUnlock p dest))
  | rqUnlock (p : Tid) (r : Cpu n) (hpc : s.pc c = .taskRqUnlock p r) :
      Transition M s c .tau ((s.release (.rq r)).setPc c (.unlockPi p))
  | piUnlock (p : Tid) (hpc : s.pc c = .unlockPi p) :
      Transition M s c .tau ((s.release (.pi p)).setPc c .running)
  | enterMultiStop (partner : Cpu n) (hpc : s.pc c = .running)
      (hs : M.stopper (s.rq c).curr = true) :
      Transition M s c .tau (s.setPc c (.multiCpuStop partner))
  | leaveMultiStop (partner : Cpu n) (hpc : s.pc c = .multiCpuStop partner)
      (hp : ∀ arg k, s.pc partner ≠ .migrateSwapStop arg k) :
      Transition M s c .tau (s.setPc c .running)
  | enterSwap (arg : MigrationSwapArg Tid n) (hpc : s.pc c = .running)
      (hr : s.swapReady M c arg = true) (hsrc : s.lock (.pi arg.srcTask) = none)
      (hdst : s.lock (.pi arg.dstTask) = none) :
      Transition M s c .tau (((s.acquire c (.pi arg.srcTask)).acquire c (.pi arg.dstTask)).setPc
        c (.migrateSwapStop arg .lockRqs))
  | swapLock (arg : MigrationSwapArg Tid n) (hpc : s.pc c = .migrateSwapStop arg .lockRqs)
      (hsrc : s.lock (.rq arg.srcCpu) = none) (hdst : s.lock (.rq arg.dstCpu) = none) :
      Transition M s c .tau (((s.acquire c (.rq arg.srcCpu)).acquire c (.rq arg.dstCpu)).setPc
        c (.migrateSwapStop arg .swap))
  | swapSkip (arg : MigrationSwapArg Tid n) (hpc : s.pc c = .migrateSwapStop arg .swap) :
      Transition M s c .tau (s.setPc c (.migrateSwapStop arg .unlock))
  | swap (arg : MigrationSwapArg Tid n) (hpc : s.pc c = .migrateSwapStop arg .swap)
      (hsrc : (s.task arg.srcTask).cpu = arg.srcCpu)
      (hdst : (s.task arg.dstTask).cpu = arg.dstCpu) :
      Transition M s c .tau (((s.migrateSwapTask arg.srcTask arg.dstCpu).migrateSwapTask
        arg.dstTask arg.srcCpu).setPc c (.migrateSwapStop arg .unlock))
  | swapUnlock (arg : MigrationSwapArg Tid n)
      (hpc : s.pc c = .migrateSwapStop arg .unlock) :
      Transition M s c .tau (((((s.release (.rq arg.srcCpu)).release (.rq arg.dstCpu)).release
        (.pi arg.srcTask)).release (.pi arg.dstTask)).setPc c .running)
  | loadBalance (p : Tid) (src dest : Cpu n)
      (hpc : s.pc c = .running ∨ ∃ prev sc b, s.pc c = .schedule (.pick prev sc b))
      (hq : (s.task p).queuedOn = some src) (hn : (s.task p).onCpu = false)
      (hl : s.lock (.rq src) = none ∨ s.lock (.rq src) = some c) :
      Transition M s c .tau (s.modTask p fun t => (t.setTaskCpu dest).activateTask dest)
  /-- A test without consequences. -/
  | stay (hpc : s.pc c = .running) : Transition M s c .tau s

namespace State

variable {M : Machine Tid n} {s s' : State Tid n} {c : Cpu n} {e : Event Tid n}

omit [DecidableEq Tid] in
theorem when_eq_some {b : Bool} {o : Outcome Tid n} {x : Event Tid n × State Tid n} :
    when b o = some x ↔ b = true ∧ o = some x := by
  cases b <;> simp [when]

omit [DecidableEq Tid] in
theorem tau_eq_some : tau s = some (e, s') ↔ e = .tau ∧ s' = s := by
  simp [tau, eq_comm]

omit [DecidableEq Tid] in
theorem free_iff {l : Lock Tid n} : s.free l = true ↔ s.lock l = none := by
  simp [free]

attribute [local simp] when_eq_some tau_eq_some free_iff

theorem scheduleStep_transition {k : SchedulePc Tid} {a : Action Tid n}
    (hpc : s.pc c = .schedule k) (h : s.scheduleStep M c k a = some (e, s')) :
    Transition M s c e s' := by
  unfold scheduleStep at h
  split at h
  next preempt prev b =>
    split at h
    · obtain ⟨rfl, rfl⟩ := tau_eq_some.mp h
      exact .loadStateKeep _ _ hpc
    · split at h
      · obtain ⟨rfl, rfl⟩ := tau_eq_some.mp h
        exact .loadStateSignal _ _ hpc
      · obtain ⟨rfl, rfl⟩ := tau_eq_some.mp h
        exact .loadStateSleep _ _ hpc
  next prev =>
    obtain ⟨rfl, rfl⟩ := tau_eq_some.mp h
    exact .signal _ hpc
  next prev =>
    obtain ⟨rfl, rfl⟩ := tau_eq_some.mp h
    exact .deactivate _ hpc
  next prev sc =>
    obtain ⟨rfl, rfl⟩ := tau_eq_some.mp h
    exact .dropLock _ _ hpc
  next prev sc =>
    obtain ⟨hl, rfl, rfl⟩ : s.lock (.rq c) = none ∧ _ ∧ _ := by simpa using h
    exact .retakeLock _ _ hpc hl
  next prev sc next =>
    obtain ⟨hq, h⟩ := when_eq_some.mp h
    have hq' : (s.task next).queuedOn = some c ∨ next = M.idle c := by simpa using hq
    split at h
    next heq =>
      obtain ⟨rfl, rfl⟩ := tau_eq_some.mp h
      exact .pickPrev _ _ hpc (heq ▸ hq')
    next hne =>
      obtain ⟨rfl, rfl⟩ := tau_eq_some.mp h
      exact .pickNext _ _ _ hpc hq' hne
  next prev next sc =>
    obtain ⟨rfl, rfl⟩ := tau_eq_some.mp h
    exact .nrSwitches _ _ _ hpc
  next prev next sc =>
    obtain ⟨rfl, rfl⟩ := Prod.mk.inj (Option.some.inj h)
    exact .curr _ _ _ hpc
  next prev next sc =>
    obtain ⟨rfl, rfl⟩ := tau_eq_some.mp h
    exact .switchCount _ _ _ hpc
  next prev next =>
    obtain ⟨rfl, rfl⟩ := tau_eq_some.mp h
    exact .loadCount _ _ hpc
  next prev next v =>
    obtain ⟨rfl, rfl⟩ := tau_eq_some.mp h
    exact .storeCount _ _ _ hpc
  next prev next =>
    obtain ⟨rfl, rfl⟩ := tau_eq_some.mp h
    exact .prepareTask _ _ hpc
  next prev =>
    obtain ⟨rfl, rfl⟩ := tau_eq_some.mp h
    exact .finishTask _ hpc
  next =>
    obtain ⟨rfl, rfl⟩ := tau_eq_some.mp h
    exact .unlock hpc
  next => cases h

theorem tryToWakeUpStep_transition {p : Tid} {k : TtwuPc n} {a : Action Tid n}
    (hpc : s.pc c = .tryToWakeUp p k) (h : s.tryToWakeUpStep c p k a = some (e, s')) :
    Transition M s c e s' := by
  unfold tryToWakeUpStep at h
  split at h
  next mask =>
    split at h
    · obtain ⟨rfl, rfl⟩ := tau_eq_some.mp h
      exact .stateMiss _ _ hpc
    next hm =>
      obtain ⟨rfl, rfl⟩ := tau_eq_some.mp h
      exact .stateHit _ _ hpc hm
  next =>
    split at h
    next hq =>
      obtain ⟨rfl, rfl⟩ := tau_eq_some.mp h
      exact .offRq _ hpc hq
    next =>
      obtain ⟨rfl, rfl⟩ := tau_eq_some.mp h
      exact .onRq _ hpc
  next r =>
    split at h
    next =>
      obtain ⟨rfl, rfl⟩ := tau_eq_some.mp h
      exact .remoteWake _ _ hpc
    next hq =>
      obtain ⟨rfl, rfl⟩ := tau_eq_some.mp h
      exact .remoteMiss _ _ hpc hq
  next r =>
    obtain ⟨rfl, rfl⟩ := tau_eq_some.mp h
    exact .remoteUnlock _ _ hpc
  next =>
    obtain ⟨rfl, rfl⟩ := tau_eq_some.mp h
    exact .waking _ hpc
  next =>
    split at h
    · obtain ⟨rfl, rfl⟩ := tau_eq_some.mp h
      exact .loadOnCpu _ hpc
    · obtain ⟨rfl, rfl⟩ := tau_eq_some.mp h
      exact .loadOffCpu _ hpc
  next b =>
    split at h
    next hb =>
      obtain ⟨rfl, rfl⟩ := tau_eq_some.mp h
      simp only [Bool.and_eq_true, bne_iff_ne] at hb
      exact .pushOnCpu _ hpc hb.2
    next =>
      obtain ⟨rfl, rfl⟩ := tau_eq_some.mp h
      exact .skipPush _ hpc
  next =>
    obtain ⟨hn, rfl, rfl⟩ : (s.task p).onCpu = false ∧ _ ∧ _ := by simpa using h
    exact .waitOnCpu _ hpc hn
  next d =>
    obtain ⟨rfl, rfl⟩ := tau_eq_some.mp h
    exact .selectTaskRq _ _ hpc
  next d b =>
    split at h
    next hb =>
      obtain ⟨rfl, rfl⟩ := tau_eq_some.mp h
      simp only [Bool.and_eq_true, bne_iff_ne] at hb
      exact .pushQueue _ _ hpc hb.2
    next =>
      obtain ⟨hl, rfl, rfl⟩ : s.lock (.rq d) = none ∧ _ ∧ _ := by simpa using h
      exact .lockQueue _ _ hpc hl
  next d =>
    obtain ⟨rfl, rfl⟩ := tau_eq_some.mp h
    exact .activate _ _ hpc
  next => cases h

theorem schedTtwuPendingStep_transition {llist : List Tid} {locked : Bool} {a : Action Tid n}
    (hpc : s.pc c = .schedTtwuPending llist locked)
    (h : s.schedTtwuPendingStep c llist locked a = some (e, s')) : Transition M s c e s' := by
  unfold schedTtwuPendingStep at h
  split at h
  next =>
    obtain ⟨hl, rfl, rfl⟩ : s.lock (.rq c) = none ∧ _ ∧ _ := by simpa using h
    exact .lockPending _ hpc hl
  next p rest =>
    obtain ⟨hn, rfl, rfl⟩ : (s.task p).onCpu = false ∧ _ ∧ _ := by simpa using h
    exact .activatePending _ _ hpc hn
  next =>
    obtain ⟨rfl, rfl⟩ := tau_eq_some.mp h
    exact .unlockPending hpc
  next => cases h

theorem wakeUpNewTaskStep_transition {p : Tid} {k : NewTaskPc n} {a : Action Tid n}
    (hpc : s.pc c = .wakeUpNewTask p k) (h : s.wakeUpNewTaskStep c p k a = some (e, s')) :
    Transition M s c e s' := by
  unfold wakeUpNewTaskStep at h
  split at h
  next d =>
    obtain ⟨rfl, rfl⟩ := tau_eq_some.mp h
    exact .newSetCpu _ _ hpc
  next r =>
    obtain ⟨rfl, rfl⟩ := tau_eq_some.mp h
    exact .newActivate _ _ hpc
  next => cases h

theorem taskRqLockStep_transition {p : Tid} {caller : RqLockCaller n} {k : RqLockPc n}
    {a : Action Tid n} (hpc : s.pc c = .taskRqLock p caller k)
    (h : s.taskRqLockStep c p caller k a = some (e, s')) : Transition M s c e s' := by
  unfold taskRqLockStep at h
  split at h
  next =>
    obtain ⟨rfl, rfl⟩ := tau_eq_some.mp h
    exact .loadRq _ _ hpc
  next r =>
    obtain ⟨hl, rfl, rfl⟩ : s.lock (.rq r) = none ∧ _ ∧ _ := by simpa using h
    exact .lockRq _ _ _ hpc hl
  next r a =>
    split at h
    next =>
      obtain ⟨rfl, rfl⟩ := tau_eq_some.mp h
      exact .remoteLocked _ _ hpc
    next heq =>
      obtain ⟨rfl, rfl⟩ := tau_eq_some.mp h
      simp only [Bool.and_eq_true, beq_iff_eq] at heq
      exact .newLocked _ _ hpc heq.1
    next dest heq =>
      simp only [Bool.and_eq_true, beq_iff_eq] at heq
      unfold setCpusAllowedPtrStep at h
      split at h
      next b =>
        split at h
        next hb =>
          simp only [Bool.and_eq_true, Bool.not_eq_true', decide_eq_true_eq] at hb
          obtain ⟨rfl, rfl⟩ := tau_eq_some.mp h
          exact .lockedMove _ _ _ hpc heq.1 hb.1.1.2 hb.2
        next =>
          obtain ⟨rfl, rfl⟩ := tau_eq_some.mp h
          exact .lockedSkip _ _ _ hpc
      next => cases h
    next =>
      obtain ⟨rfl, rfl⟩ := tau_eq_some.mp h
      exact .lockGiveUp _ _ _ hpc
    next hc =>
      obtain ⟨rfl, rfl⟩ := tau_eq_some.mp h
      exact .lockRetry _ _ _ hpc hc
  next => cases h

theorem migrationCpuStopStep_transition {p : Tid} {dest : Cpu n} {locked : Bool}
    {a : Action Tid n} (hpc : s.pc c = .migrationCpuStop p dest locked)
    (h : s.migrationCpuStopStep c p dest locked a = some (e, s')) :
    Transition M s c e s' := by
  unfold migrationCpuStopStep at h
  split at h
  next =>
    obtain ⟨hl, rfl, rfl⟩ : s.lock (.rq c) = none ∧ _ ∧ _ := by simpa using h
    exact .cpuStopLock _ _ hpc hl
  next b =>
    split at h
    next hb =>
      simp only [Bool.and_eq_true, beq_iff_eq, decide_eq_true_eq] at hb
      obtain ⟨rfl, rfl⟩ := tau_eq_some.mp h
      exact .cpuStopMove _ _ hpc hb.1.2 hb.2
    next =>
      obtain ⟨rfl, rfl⟩ := tau_eq_some.mp h
      exact .cpuStopSkip _ _ hpc
  next => cases h

theorem moveQueuedTaskStep_transition {p : Tid} {src dest : Cpu n} {k : MovePc}
    {a : Action Tid n} (hpc : s.pc c = .moveQueuedTask p src dest k)
    (h : s.moveQueuedTaskStep c p src dest k a = some (e, s')) : Transition M s c e s' := by
  unfold moveQueuedTaskStep at h
  split at h
  next =>
    obtain ⟨rfl, rfl⟩ := tau_eq_some.mp h
    exact .moveSetCpu _ _ _ hpc
  next =>
    obtain ⟨rfl, rfl⟩ := tau_eq_some.mp h
    exact .moveUnlock _ _ _ hpc
  next =>
    obtain ⟨hl, rfl, rfl⟩ : s.lock (.rq dest) = none ∧ _ ∧ _ := by simpa using h
    exact .moveLock _ _ _ hpc hl
  next =>
    obtain ⟨rfl, rfl⟩ := tau_eq_some.mp h
    exact .moveEnqueue _ _ _ hpc
  next => cases h

theorem migrateSwapStopStep_transition {arg : MigrationSwapArg Tid n} {k : SwapPc}
    {a : Action Tid n} (hpc : s.pc c = .migrateSwapStop arg k)
    (h : s.migrateSwapStopStep c arg k a = some (e, s')) : Transition M s c e s' := by
  unfold migrateSwapStopStep at h
  split at h
  next =>
    obtain ⟨⟨hsrc, hdst⟩, rfl, rfl⟩ :
        (s.lock (.rq arg.srcCpu) = none ∧ s.lock (.rq arg.dstCpu) = none) ∧ _ ∧ _ := by
      simpa using h
    exact .swapLock _ hpc hsrc hdst
  next b =>
    split at h
    next hb =>
      simp only [Bool.and_eq_true, beq_iff_eq] at hb
      obtain ⟨rfl, rfl⟩ := tau_eq_some.mp h
      exact .swap _ hpc hb.2 hb.1.2
    next =>
      obtain ⟨rfl, rfl⟩ := tau_eq_some.mp h
      exact .swapSkip _ hpc
  next =>
    obtain ⟨rfl, rfl⟩ := tau_eq_some.mp h
    exact .swapUnlock _ hpc
  next => cases h

theorem loadBalance_transition {p : Tid} {dest : Cpu n}
    (hpc : s.pc c = .running ∨ ∃ prev sc b, s.pc c = .schedule (.pick prev sc b))
    (h : s.loadBalance c p dest = some (e, s')) : Transition M s c e s' := by
  unfold loadBalance at h
  split at h
  next => cases h
  next src hq =>
    obtain ⟨hb, h⟩ := when_eq_some.mp h
    simp only [available, Bool.and_eq_true, Bool.or_eq_true, free_iff, beq_iff_eq,
      Bool.not_eq_true'] at hb
    obtain ⟨rfl, rfl⟩ := tau_eq_some.mp h
    exact .loadBalance p src dest hpc hq hb.2 hb.1.1

omit [DecidableEq Tid] in
/-- No caller sets a state that belongs to the scheduler. -/
theorem ne_of_isSchedulerState {v : TaskState} (h : isSchedulerState v = false) :
    v ≠ taskWaking ∧ v ≠ taskNew := by
  constructor <;> rintro rfl <;> exact absurd h (by decide)

theorem setCurrentState_transition {v : TaskState} (hpc : s.pc c = .running)
    (hv : v ≠ taskWaking ∧ v ≠ taskNew) (h : s.setCurrentState M c v = some (e, s')) :
    Transition M s c e s' := by
  obtain ⟨hb, h⟩ := when_eq_some.mp h
  simp only [Bool.and_eq_true, decide_eq_true_eq] at hb
  obtain ⟨rfl, rfl⟩ := tau_eq_some.mp h
  exact .setState v hpc hb.1 hv.1 hv.2

theorem enterStep_transition {a : Action Tid n} (hpc : s.pc c = .running)
    (h : s.enterStep M c a = some (e, s')) : Transition M s c e s' := by
  unfold enterStep at h
  split at h
  next preempt =>
    obtain ⟨hl, rfl, rfl⟩ : s.lock (.rq c) = none ∧ _ ∧ _ := by simpa using h
    exact .enterSchedule _ hpc hl
  next p mask =>
    obtain ⟨hb, h⟩ := when_eq_some.mp h
    simp only [Bool.and_eq_true, Bool.not_eq_true'] at hb
    split at h
    next hp =>
      subst hp
      split at h
      · obtain ⟨rfl, rfl⟩ := tau_eq_some.mp h
        exact .stay hpc
      · obtain ⟨rfl, rfl⟩ := tau_eq_some.mp h
        exact .wakeSelf mask hpc
    next hp =>
      obtain ⟨hl, rfl, rfl⟩ : s.lock (.pi p) = none ∧ _ ∧ _ := by simpa using h
      exact .wakeLock p mask hpc hp hb.1 hb.2 hl
  next =>
    obtain ⟨rfl, rfl⟩ := tau_eq_some.mp h
    exact .takeWakeList hpc
  next child thread =>
    obtain ⟨hb, h⟩ := when_eq_some.mp h
    simp only [Bool.and_eq_true, Bool.not_eq_true'] at hb
    obtain ⟨rfl, rfl⟩ := Prod.mk.inj (Option.some.inj h)
    exact .fork child thread hpc hb.2
  next p =>
    obtain ⟨hb, h⟩ := when_eq_some.mp h
    simp only [Bool.and_eq_true, beq_iff_eq, free_iff] at hb
    obtain ⟨rfl, rfl⟩ := tau_eq_some.mp h
    exact .wakeNew p hpc hb.1.1 hb.1.2 hb.2
  next v =>
    obtain ⟨hb, h⟩ := when_eq_some.mp h
    simp only [Bool.and_eq_true, Bool.not_eq_true'] at hb
    exact setCurrentState_transition hpc (ne_of_isSchedulerState hb.2) h
  next =>
    obtain ⟨hb, h⟩ := when_eq_some.mp h
    exact setCurrentState_transition hpc (by decide) h
  next =>
    obtain ⟨hb, h⟩ := when_eq_some.mp h
    obtain ⟨rfl, rfl⟩ := Prod.mk.inj (Option.some.inj h)
    exact .startToCount hpc
  next =>
    obtain ⟨hb, h⟩ := when_eq_some.mp h
    obtain ⟨rfl, rfl⟩ := Prod.mk.inj (Option.some.inj h)
    exact .stopToCount hpc
  next =>
    obtain ⟨hb, h⟩ := when_eq_some.mp h
    obtain ⟨rfl, rfl⟩ := Prod.mk.inj (Option.some.inj h)
    exact .myGetCpuNumber hpc
  next p dest =>
    obtain ⟨hb, h⟩ := when_eq_some.mp h
    simp only [Bool.and_eq_true, decide_eq_true_eq, free_iff] at hb
    obtain ⟨rfl, rfl⟩ := tau_eq_some.mp h
    exact .enterAllowed p dest hpc hb.1.2 hb.2
  next p dest =>
    obtain ⟨hb, h⟩ := when_eq_some.mp h
    simp only [Bool.and_eq_true, free_iff] at hb
    obtain ⟨rfl, rfl⟩ := tau_eq_some.mp h
    exact .enterCpuStop p dest hpc hb.1.1 hb.1.2 hb.2
  next partner =>
    obtain ⟨hb, h⟩ := when_eq_some.mp h
    simp only [Bool.and_eq_true] at hb
    obtain ⟨rfl, rfl⟩ := tau_eq_some.mp h
    exact .enterMultiStop partner hpc hb.1
  next arg =>
    obtain ⟨hb, h⟩ := when_eq_some.mp h
    simp only [Bool.and_eq_true, free_iff] at hb
    obtain ⟨rfl, rfl⟩ := tau_eq_some.mp h
    exact .enterSwap arg hpc hb.1.1 hb.1.2 hb.2
  next p dest => exact loadBalance_transition (.inl hpc) h
  next => cases h

/-- Every step is a transition. -/
theorem step_transition {a : Action Tid n} (h : s.step M c a = some (e, s')) :
    Transition M s c e s' := by
  unfold step at h
  split at h
  next hpc => exact enterStep_transition hpc h
  next k hpc =>
    split at h
    next prev sc b p dest => exact loadBalance_transition (.inr ⟨_, _, _, hpc⟩) h
    next => exact scheduleStep_transition hpc h
  next p k hpc => exact tryToWakeUpStep_transition hpc h
  next llist locked hpc => exact schedTtwuPendingStep_transition hpc h
  next p k hpc => exact wakeUpNewTaskStep_transition hpc h
  next p caller k hpc => exact taskRqLockStep_transition hpc h
  next p dest locked hpc => exact migrationCpuStopStep_transition hpc h
  next p src dest k hpc => exact moveQueuedTaskStep_transition hpc h
  next p r hpc =>
    obtain ⟨rfl, rfl⟩ := tau_eq_some.mp h
    exact .rqUnlock _ _ hpc
  next p hpc =>
    obtain ⟨rfl, rfl⟩ := tau_eq_some.mp h
    exact .piUnlock _ hpc
  next arg k hpc => exact migrateSwapStopStep_transition hpc h
  next partner hpc =>
    split at h
    next => cases h
    next hp =>
      obtain ⟨rfl, rfl⟩ := tau_eq_some.mp h
      exact .leaveMultiStop _ hpc hp

end State

end LinuxOs2022.Scheduler
