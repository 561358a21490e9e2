import LinuxOs2022.Scheduler.Exclusion

/-!
# Coherence of records and program counters

What the local variables of a function still say about the state while the function runs,
and how `on_rq` follows the queues of the scheduling classes. Nothing here depends on how
CPUs interleave, apart from two CPUs stopped for one swap.
-/

namespace LinuxOs2022.Scheduler

variable {Tid : Type} [DecidableEq Tid] {n : ℕ}

/-! ## Task records -/

/-- `on_rq` says whether a task is queued; an idle task is never queued, and always
runnable. -/
structure TaskOk (M : Machine Tid n) (p : Tid) (t : TaskStruct Tid n) : Prop where
  onRq_of_queuedOn : t.queuedOn ≠ none → t.onRq = .queued
  queuedOn_of_onRq : t.onRq = .queued → (∀ i, M.idle i ≠ p) → t.queuedOn ≠ none
  idle_state : ∀ i, M.idle i = p → t.state = taskRunning

section TaskOk

variable {M : Machine Tid n} {p : Tid} {t : TaskStruct Tid n}

omit [DecidableEq Tid]

theorem TaskOk.setState (h : TaskOk M p t) {v : TaskState}
    (hv : ∀ i, M.idle i = p → v = taskRunning) : TaskOk M p (t.setState v) :=
  ⟨h.onRq_of_queuedOn, h.queuedOn_of_onRq, hv⟩

theorem TaskOk.congr (h : TaskOk M p t) {t' : TaskStruct Tid n}
    (hq : t'.queuedOn = t.queuedOn) (hr : t'.onRq = t.onRq) (hs : t'.state = t.state) :
    TaskOk M p t' := by
  constructor
  · rw [hq, hr]
    exact h.onRq_of_queuedOn
  · rw [hq, hr]
    exact h.queuedOn_of_onRq
  · rw [hs]
    exact h.idle_state

theorem TaskOk.setTaskCpu (h : TaskOk M p t) (d : Cpu n) : TaskOk M p (t.setTaskCpu d) :=
  ⟨h.onRq_of_queuedOn, h.queuedOn_of_onRq, h.idle_state⟩

theorem TaskOk.activateTask (h : TaskOk M p t) (d : Cpu n) : TaskOk M p (t.activateTask d) :=
  ⟨fun _ => rfl, fun _ _ => Option.some_ne_none d, h.idle_state⟩

theorem TaskOk.deactivateTask (h : TaskOk M p t) (sleep : Bool) :
    TaskOk M p (t.deactivateTask sleep) := by
  refine ⟨fun hq => absurd rfl hq, fun hq => ?_, h.idle_state⟩
  cases sleep <;> cases hq

theorem TaskOk.ttwuDoActivate (h : TaskOk M p t) (d : Cpu n) :
    TaskOk M p (t.ttwuDoActivate d) := (h.activateTask d).setState fun _ _ => rfl

theorem TaskOk.addSwitchCount (h : TaskOk M p t) (sc : SwitchCount) :
    TaskOk M p (t.addSwitchCount sc) := by
  cases sc <;> exact ⟨h.onRq_of_queuedOn, h.queuedOn_of_onRq, h.idle_state⟩

theorem taskOk_schedFork (hp : ∀ i, M.idle i ≠ p) (c : Cpu n) (t : TaskStruct Tid n) :
    TaskOk M p (t.schedFork c) :=
  ⟨fun hq => absurd rfl hq, fun hq => (nomatch hq), fun i hi => absurd hi (hp i)⟩

end TaskOk

/-! ## Program counters -/

/-- What the local variables of a function say. -/
def PcOk (M : Machine Tid n) (s : State Tid n) (c : Cpu n) : Pc Tid n → Prop
  | .schedule (.loadState _ prev) => prev = (s.rq c).curr
  | .schedule (.signal prev) => prev = (s.rq c).curr
  | .schedule (.deactivate prev) => prev = (s.rq c).curr
  | .schedule (.pick prev _ _) => prev = (s.rq c).curr
  | .schedule (.nrSwitches prev _ _) => prev = (s.rq c).curr
  | .schedule (.curr prev _ _) => prev = (s.rq c).curr
  | .schedule (.switchCount _ next _) => next = (s.rq c).curr
  | .schedule (.loadCount _ next) => next = (s.rq c).curr
  | .schedule (.storeCount _ next _) => next = (s.rq c).curr
  | .schedule (.prepareTask _ next) => next = (s.rq c).curr
  | .tryToWakeUp p (.checkState mask) =>
      (s.task p).allocated = true ∧ isSchedulerState mask = false
  | .taskRqLock p caller _ => ∀ dest, caller = .setCpusAllowedPtr dest → ∀ i, M.idle i ≠ p
  | .migrationCpuStop p _ _ => s.movable M p = true ∧ M.stopper (s.rq c).curr = true
  | .migrateSwapStop arg _ => s.swapReady M c arg = true
  | .multiCpuStop _ => M.stopper (s.rq c).curr = true
  | _ => True

/-- Records and program counters agree. -/
structure Coherent (M : Machine Tid n) (s : State Tid n) : Prop where
  task : ∀ p, TaskOk M p (s.task p)
  pc : ∀ c, PcOk M s c (s.pc c)

/-! ## What a step leaves alone -/

section Transition

variable {M : Machine Tid n} {s s' : State Tid n} {c : Cpu n} {e : Event Tid n}

omit [DecidableEq Tid] in
@[simp] theorem State.pushWakeList_task (d : Cpu n) (p : Tid) :
    (s.pushWakeList d p).task = s.task := rfl

omit [DecidableEq Tid] in
@[simp] theorem State.pushWakeList_pc (d : Cpu n) (p : Tid) :
    (s.pushWakeList d p).pc = s.pc := rfl

omit [DecidableEq Tid] in
@[simp] theorem State.pushWakeList_curr (d : Cpu n) (p : Tid) (c : Cpu n) :
    ((s.pushWakeList d p).rq c).curr = (s.rq c).curr := by
  by_cases h : c = d
  · subst h
    simp [pushWakeList]
  · simp [pushWakeList, h]

/-- A CPU executes only its own code. -/
theorem Transition.pc_of_ne (ht : Transition M s c e s') {c' : Cpu n} (hc : c' ≠ c) :
    s'.pc c' = s.pc c' := by
  cases ht with
  | _ => simp [hc]

/-- A CPU switches only its own tasks. -/
theorem Transition.curr_of_ne (ht : Transition M s c e s') {c' : Cpu n} (hc : c' ≠ c) :
    (s'.rq c').curr = (s.rq c').curr := by
  cases ht with
  | _ => simp [hc]

/-- A write that leaves a part of its record alone leaves that part of all records alone. -/
theorem State.proj_modTask {β : Type*} (g : TaskStruct Tid n → β) {p q : Tid}
    {f : TaskStruct Tid n → TaskStruct Tid n} (hf : g (f (s.task p)) = g (s.task p)) :
    g ((s.modTask p f).task q) = g (s.task q) := by
  by_cases h : q = p
  · subst h
    simpa using hf
  · simp [h]

theorem State.modTask_of_ne {p q : Tid} {f : TaskStruct Tid n → TaskStruct Tid n}
    (h : q ≠ p) : (s.modTask p f).task q = s.task q := by
  simp [h]

/-- The part of a record that only `fork` and the counting statements write. -/
def TaskStruct.account (t : TaskStruct Tid n) : Bool × Tid × BitVec 64 × BitVec 32 :=
  (t.allocated, t.tgid, t.nvcsw + t.nivcsw, t.processSwitchesCount)

theorem State.migrateSwapTask_account (p q : Tid) (d : Cpu n) :
    ((s.migrateSwapTask p d).task q).account = (s.task q).account := by
  unfold migrateSwapTask
  split
  · exact proj_modTask TaskStruct.account (by rfl)
  · rfl

/-- What a step of `c` makes of the record `t` of task `p`, as far as the account goes. -/
inductive AccountStep (s : State Tid n) (c : Cpu n) (e : Event Tid n) (p : Tid)
    (t t' : TaskStruct Tid n) : Prop
  | same (h : t'.account = t.account)
  | switchCount (next : Tid) (sc : SwitchCount)
      (hpc : s.pc c = .schedule (.switchCount p next sc)) (h : t' = t.addSwitchCount sc)
  | storeCount (prev : Tid) (v : BitVec 32) (hpc : s.pc c = .schedule (.storeCount prev p v))
      (h : t' = { t with processSwitchesCount := v + 1 })
  | start (hpc : s.pc c = .running) (hp : p = (s.rq c).curr) (he : e = .start p)
      (h : t' = { t with processSwitchesCount := 0 })
  | fork (tgid : Tid) (hpc : s.pc c = .running) (he : e = .fork (s.rq c).curr p)
      (ha : t.allocated = false)
      (h : t' = ((s.task (s.rq c).curr).dupTaskStruct tgid).schedFork c)

/-- The statements that write to the account of a task. -/
theorem Transition.accountStep (ht : Transition M s c e s') (p : Tid) :
    AccountStep s c e p (s.task p) (s'.task p) := by
  cases ht with
  | switchCount prev next sc hpc =>
      rw [State.setPc_task]
      by_cases h : p = prev
      · subst h
        exact .switchCount next sc hpc (by simp)
      · exact .same (by rw [State.modTask_of_ne h])
  | storeCount prev next v hpc =>
      rw [State.setPc_task]
      by_cases h : p = next
      · subst h
        exact .storeCount prev v hpc (by simp)
      · exact .same (by rw [State.modTask_of_ne h])
  | startToCount hpc =>
      by_cases h : p = (s.rq c).curr
      · exact .start hpc h (by rw [h]) (by simp [h])
      · exact .same (by rw [State.modTask_of_ne h])
  | fork child thread hpc ha =>
      by_cases h : p = child
      · subst h
        exact .fork _ hpc rfl ha (Function.update_self _ _ _)
      · exact .same (by rw [State.modTask_of_ne h])
  | swap arg hpc hsrc hdst =>
      exact .same
        ((State.migrateSwapTask_account _ _ _).trans (State.migrateSwapTask_account _ _ _))
  | wakeSelf mask hpc => exact .same (State.proj_modTask TaskStruct.account (by rfl))
  | setState v hpc hi hv hv' => exact .same (State.proj_modTask TaskStruct.account (by rfl))
  | loadBalance r src dest hpc hq hn hl =>
      exact .same (State.proj_modTask TaskStruct.account (by rfl))
  | _ =>
      first
      | exact .same rfl
      | rw [State.setPc_task]
        exact .same (State.proj_modTask TaskStruct.account (by rfl))

/-- A record stays allocated. -/
theorem Transition.allocated (ht : Transition M s c e s') {p : Tid}
    (ha : (s.task p).allocated = true) : (s'.task p).allocated = true := by
  cases ht.accountStep p with
  | same h => exact (congrArg Prod.fst h).trans ha
  | switchCount next sc hpc h =>
      rw [h]
      cases sc <;> exact ha
  | storeCount prev v hpc h =>
      rw [h]
      exact ha
  | start hpc hp he h =>
      rw [h]
      exact ha
  | fork tgid hpc he ha' h => exact absurd ha (by simp [ha'])

/-- A task stays movable. -/
theorem Transition.movable (ht : Transition M s c e s') {p : Tid}
    (hm : s.movable M p = true) : s'.movable M p = true := by
  simp only [State.movable, Bool.and_eq_true] at hm ⊢
  exact ⟨⟨ht.allocated hm.1.1, hm.1.2⟩, hm.2⟩

/-- A CPU that spins for a partner does not move while the partner swaps. -/
theorem Transition.partner_idle (ht : Transition M s c e s') {partner : Cpu n}
    (hpc : s.pc c = .multiCpuStop partner) (arg : MigrationSwapArg Tid n) (k : SwapPc) :
    s.pc partner ≠ .migrateSwapStop arg k := by
  cases ht with
  | leaveMultiStop partner' hpc' hp =>
      obtain rfl : partner' = partner := by simpa [hpc] using hpc'.symm
      exact hp arg k
  | loadBalance p src dest hpc' hq hn hl =>
      obtain h | ⟨_, _, _, h⟩ := hpc' <;> simp [hpc] at h
  | _ =>
      have h := ‹s.pc c = _›
      simp_all

/-- A swap stays in order while its CPU keeps its task and the other CPU spins. -/
theorem Transition.swapReady (ht : Transition M s c e s') {c' : Cpu n}
    {arg : MigrationSwapArg Tid n} (hcurr : (s'.rq c').curr = (s.rq c').curr)
    (hspin : ∀ d, s.pc d = .multiCpuStop c' → s'.pc d = s.pc d)
    (hr : s.swapReady M c' arg = true) : s'.swapReady M c' arg = true := by
  have hspins : ∀ d, State.swapReady.spins s c' d = true →
      State.swapReady.spins s' c' d = true := by
    intro d hd
    unfold State.swapReady.spins at hd ⊢
    split at hd
    next partner hpd =>
      have hp : partner = c' := by simpa using hd
      simp [hspin d (hp ▸ hpd), hpd, hp]
    next => cases hd
  simp only [State.swapReady, State.current, Bool.and_eq_true, Bool.or_eq_true] at hr ⊢
  rw [hcurr]
  obtain ⟨⟨⟨⟨hsrc, hdst⟩, hne⟩, hstop⟩, hcpus⟩ := hr
  exact ⟨⟨⟨⟨ht.movable hsrc, ht.movable hdst⟩, hne⟩, hstop⟩,
    hcpus.imp (And.imp_right (hspins _)) (And.imp_right (hspins _))⟩

/-- A step of one CPU leaves what the variables of the others say. -/
theorem Transition.pcOk_of_ne (ht : Transition M s c e s') (hi : Coherent M s) {c' : Cpu n}
    (hc : c' ≠ c) : PcOk M s' c' (s'.pc c') := by
  have h := hi.pc c'
  have hcurr := ht.curr_of_ne hc
  rw [ht.pc_of_ne hc]
  cases hpc : s.pc c' with
  | schedule k => cases k <;> simp_all [PcOk]
  | tryToWakeUp p k =>
      cases k with
      | checkState mask =>
          rw [hpc] at h
          exact ⟨ht.allocated h.1, h.2⟩
      | _ => trivial
  | taskRqLock p caller k => simp_all [PcOk]
  | migrationCpuStop p dest locked =>
      rw [hpc] at h
      exact ⟨ht.movable h.1, hcurr ▸ h.2⟩
  | migrateSwapStop arg k =>
      rw [hpc] at h
      refine ht.swapReady hcurr (fun d hd => ht.pc_of_ne ?_) h
      rintro rfl
      exact ht.partner_idle hd arg k hpc
  | multiCpuStop partner => simp_all [PcOk]
  | _ => trivial

/-- A step of a CPU leaves it at a statement whose variables are right. -/
theorem Transition.pcOk_self (ht : Transition M s c e s') (hi : Coherent M s) :
    PcOk M s' c (s'.pc c) := by
  have h := hi.pc c
  have hmov : ∀ p, s.movable M p = true → s'.movable M p = true := fun p => ht.movable
  have hswap : ∀ arg, (∀ d, s.pc c ≠ .multiCpuStop d) → (s'.rq c).curr = (s.rq c).curr →
      s.swapReady M c arg = true → s'.swapReady M c arg = true := by
    intro arg hpc hcurr
    refine ht.swapReady hcurr fun d hd => ht.pc_of_ne ?_
    rintro rfl
    exact hpc _ hd
  cases ht with
  | loadBalance p src dest hpc hq hn hl =>
      obtain hpc | ⟨prev, sc, b, hpc⟩ := hpc <;> simp_all [PcOk]
  | _ =>
      have hpc := ‹s.pc c = _›
      simp_all [PcOk]

theorem taskOk_update {p : Tid} {t : TaskStruct Tid n} (h : ∀ q, TaskOk M q (s.task q))
    (hs : s'.task = Function.update s.task p t) (ht : TaskOk M p t) (q : Tid) :
    TaskOk M q (s'.task q) := by
  rw [hs]
  by_cases hq : q = p
  · subst hq
    rwa [Function.update_self]
  · rw [Function.update_of_ne hq]
    exact h q

theorem taskOk_migrateSwapTask {p : Tid} {d : Cpu n} (h : ∀ q, TaskOk M q (s.task q))
    (q : Tid) : TaskOk M q ((s.migrateSwapTask p d).task q) := by
  unfold State.migrateSwapTask
  split
  · exact taskOk_update h rfl ((((h p).deactivateTask false).setTaskCpu d).activateTask d) q
  · exact h q

/-- Records stay in order when no idle task is made to sleep. -/
theorem Transition.taskOk (ht : Transition M s c e s') (h : ∀ p, TaskOk M p (s.task p))
    (hidle : ∀ i, (s.task (M.idle i)).allocated = true)
    (hwaking : ∀ p i, s.pc c = .tryToWakeUp p .waking → M.idle i ≠ p) :
    ∀ p, TaskOk M p (s'.task p) := by
  have hrun : ∀ p, TaskOk M p ((s.task p).setState taskRunning) := fun p =>
    (h p).setState fun _ _ => rfl
  cases ht with
  | signal prev hpc => exact taskOk_update h rfl (hrun prev)
  | deactivate prev hpc => exact taskOk_update h rfl ((h prev).deactivateTask true)
  | switchCount prev next sc hpc => exact taskOk_update h rfl ((h prev).addSwitchCount sc)
  | storeCount prev next v hpc =>
      exact taskOk_update h rfl ((h _).congr rfl rfl rfl)
  | prepareTask prev next hpc =>
      exact taskOk_update h rfl ((h _).congr rfl rfl rfl)
  | finishTask prev hpc => exact taskOk_update h rfl ((h _).congr rfl rfl rfl)
  | wakeSelf mask hpc => exact taskOk_update h rfl (hrun _)
  | remoteWake p r hpc => exact taskOk_update h rfl (hrun p)
  | waking p hpc =>
      exact taskOk_update h rfl ((h p).setState fun i hip => absurd hip (hwaking p i hpc))
  | selectTaskRq p d hpc => exact taskOk_update h rfl ((h p).setTaskCpu d)
  | activate p d hpc => exact taskOk_update h rfl ((h p).ttwuDoActivate d)
  | activatePending p rest hpc hn =>
      exact taskOk_update h rfl (((h p).setTaskCpu c).ttwuDoActivate c)
  | fork child thread hpc ha =>
      refine taskOk_update h rfl (taskOk_schedFork ?_ c _)
      rintro i rfl
      exact absurd (hidle i) (by simp [ha])
  | wakeNew p hpc ha hs hl => exact taskOk_update h rfl (hrun p)
  | newSetCpu p d hpc => exact taskOk_update h rfl ((h _).congr rfl rfl rfl)
  | newActivate p r hpc => exact taskOk_update h rfl ((h p).activateTask r)
  | setState v hpc hi hv hv' =>
      exact taskOk_update h rfl ((h _).setState fun i hip => absurd hip (hi i))
  | startToCount hpc => exact taskOk_update h rfl ((h _).congr rfl rfl rfl)
  | lockedMove p dest r hpc hr hn hq => exact taskOk_update h rfl ((h p).deactivateTask false)
  | cpuStopMove p dest hpc hr hq => exact taskOk_update h rfl ((h p).deactivateTask false)
  | moveSetCpu p src dest hpc => exact taskOk_update h rfl ((h p).setTaskCpu dest)
  | moveEnqueue p src dest hpc => exact taskOk_update h rfl ((h p).activateTask dest)
  | swap arg hpc hsrc hdst => exact taskOk_migrateSwapTask (taskOk_migrateSwapTask h)
  | loadBalance p src dest hpc hq hn hl =>
      exact taskOk_update h rfl (((h p).setTaskCpu dest).activateTask dest)
  | _ => exact h

/-- Every step keeps records and program counters in agreement. -/
theorem Transition.coherent (ht : Transition M s c e s') (hi : Coherent M s)
    (hidle : ∀ i, (s.task (M.idle i)).allocated = true)
    (hwaking : ∀ p i, s.pc c = .tryToWakeUp p .waking → M.idle i ≠ p) : Coherent M s' where
  task := ht.taskOk hi.task hidle hwaking
  pc := fun c' => by
    by_cases hc : c' = c
    · subst hc
      exact ht.pcOk_self hi
    · exact ht.pcOk_of_ne hi hc

end Transition

end LinuxOs2022.Scheduler
