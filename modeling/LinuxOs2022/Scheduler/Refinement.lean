import LinuxOs2022.Scheduler.Coherence
import LinuxOs2022.Scheduler.Custody

/-!
# The scheduler keeps custody

The records, run queues and program counters of the scheduler refine the machine of custody:
every statement has the effect of at most two moves of it. The locks give the guards. Only
the owner of `p->pi_lock` has `p` in its hands, and a CPU between two tasks owns its run
queue's lock.
-/

namespace LinuxOs2022.Scheduler

open Custody Relation

variable {Tid : Type} [DecidableEq Tid] {n : ℕ}

/-! ## The abstraction -/

/-- What custody sees of a record. A record without a task counts as fresh. -/
def TaskStruct.view (t : TaskStruct Tid n) : TaskView (Cpu n) where
  home := t.cpu
  queued := t.queuedOn
  onCpu := t.onCpu
  waking := t.state == taskWaking
  fresh := !t.allocated || t.state == taskNew

/-- What a CPU is in the middle of. -/
def phaseOf : Pc Tid n → Phase Tid (Cpu n)
  | .schedule (.pick _ _ _) => .choosing
  | .schedule (.nrSwitches _ next _) => .picked next
  | .schedule (.curr _ next _) => .picked next
  | .schedule (.switchCount prev _ _) => .entering prev
  | .schedule (.loadCount prev _) => .entering prev
  | .schedule (.storeCount prev _ _) => .entering prev
  | .schedule (.prepareTask prev _) => .entering prev
  | .schedule (.finishTask prev) => .finishing prev
  | .tryToWakeUp p .loadOnRq => .pin p
  | .tryToWakeUp p (.remote _) => .pin p
  | .tryToWakeUp p (.remoteUnlock _) => .claim p
  | .tryToWakeUp p .waking => .claim p
  | .tryToWakeUp p .loadOnCpu => .claimed p
  | .tryToWakeUp p .queueOnCpu => .claimed p
  | .tryToWakeUp p .waitOnCpu => .claimed p
  | .tryToWakeUp p .selectTaskRq => .own true p none
  | .tryToWakeUp p (.queue d) => .own true p (some d)
  | .tryToWakeUp p (.activate d) => .own true p (some d)
  | .wakeUpNewTask p .setCpu => .own false p none
  | .wakeUpNewTask p (.activate r) => .own false p (some r)
  | .taskRqLock p .ttwuRemote _ => .pin p
  | .taskRqLock p .wakeUpNewTask _ => .own false p none
  | .moveQueuedTask p _ _ .setCpu => .own false p none
  | .moveQueuedTask p _ dest _ => .own false p (some dest)
  | _ => .quiet

/-- The tasks taken off the call queue and not yet activated. -/
def llistOf : Pc Tid n → List Tid
  | .schedTtwuPending llist _ => llist
  | _ => []

/-- What custody sees of the scheduler. -/
def State.view (s : State Tid n) : View Tid (Cpu n) where
  task := fun p => (s.task p).view
  cpu := fun c =>
    { curr := (s.rq c).curr
      phase := phaseOf (s.pc c)
      inbox := llistOf (s.pc c) ++ (s.rq c).wakeList }

section View

variable {s : State Tid n} {c : Cpu n} {k : Pc Tid n} {p : Tid}
  {f : TaskStruct Tid n → TaskStruct Tid n}

omit [DecidableEq Tid] in
theorem view_phase (hpc : s.pc c = k) : (s.view.cpu c).phase = phaseOf k :=
  congrArg phaseOf hpc

theorem view_modTask : (s.modTask p f).view = s.view.setTask p (f (s.task p)).view := by
  unfold State.view View.setTask
  congr 1
  funext q
  by_cases h : q = p
  · subst h
    simp
  · simp [h]

theorem view_setTask_self : s.view.setTask p (s.view.task p) = s.view := by
  unfold View.setTask
  congr 1
  exact Function.update_eq_self p s.view.task

/-- A write that custody does not see. -/
theorem view_modTask_of_eq (h : (f (s.task p)).view = (s.task p).view) :
    (s.modTask p f).view = s.view := by
  rw [view_modTask, h]
  exact view_setTask_self

omit [DecidableEq Tid] in
theorem view_setPc : (s.setPc c k).view = s.view.setCpu c
    ⟨(s.rq c).curr, phaseOf k, llistOf k ++ (s.rq c).wakeList⟩ := by
  unfold State.view View.setCpu
  congr 1
  funext d
  by_cases h : d = c
  · subst h
    simp
  · simp [h]

omit [DecidableEq Tid] in
/-- A statement that takes no task off the call queue. -/
theorem view_setPc_phase {k' : Pc Tid n} (hpc : s.pc c = k') (h : llistOf k = llistOf k') :
    (s.setPc c k).view = s.view.setPhase c (phaseOf k) := by
  rw [view_setPc, h, ← hpc]
  rfl

omit [DecidableEq Tid] in
theorem view_setPhase_self (hpc : s.pc c = k) : s.view.setPhase c (phaseOf k) = s.view := by
  rw [← view_phase hpc]
  unfold View.setPhase View.setCpu
  congr 1
  exact Function.update_eq_self c s.view.cpu

omit [DecidableEq Tid] in
/-- A statement that custody does not see. -/
theorem view_setPc_of_eq {k' : Pc Tid n} (hpc : s.pc c = k') (h : llistOf k = llistOf k')
    (hk : phaseOf k = phaseOf k') : (s.setPc c k).view = s.view := by
  rw [view_setPc_phase hpc h, hk, view_setPhase_self hpc]

theorem view_modTask_setPc {k' : Pc Tid n} (hpc : s.pc c = k') (h : llistOf k = llistOf k') :
    ((s.modTask p f).setPc c k).view =
      (s.view.setPhase c (phaseOf k)).setTask p (f (s.task p)).view := by
  have hpc' : (s.modTask p f).pc c = k' := hpc
  rw [view_setPc_phase hpc' h, view_modTask]
  rfl

/-- A write that custody does not see, with a change of phase. -/
theorem view_modTask_setPc_of_eq {k' : Pc Tid n} (hpc : s.pc c = k')
    (h : llistOf k = llistOf k') (hf : (f (s.task p)).view = (s.task p).view) :
    ((s.modTask p f).setPc c k).view = s.view.setPhase c (phaseOf k) := by
  have hpc' : (s.modTask p f).pc c = k' := hpc
  rw [view_setPc_phase hpc' h, view_modTask_of_eq hf]

/-- A statement with a write that custody does not see. -/
theorem view_modTask_setPc_unseen {k' : Pc Tid n} (hpc : s.pc c = k')
    (h : llistOf k = llistOf k') (hk : phaseOf k = phaseOf k')
    (hf : (f (s.task p)).view = (s.task p).view) :
    ((s.modTask p f).setPc c k).view = s.view := by
  rw [view_modTask_setPc_of_eq hpc h hf, hk, view_setPhase_self hpc]

omit [DecidableEq Tid] in
theorem view_modRq {g : Rq Tid → Rq Tid} : ((s.modRq c g).setPc c k).view =
    s.view.setCpu c
      ⟨(g (s.rq c)).curr, phaseOf k, llistOf k ++ (g (s.rq c)).wakeList⟩ := by
  unfold State.view View.setCpu
  congr 1
  funext d
  by_cases h : d = c
  · subst h
    simp
  · simp [h]

omit [DecidableEq Tid] in
/-- A statement that writes to the run queue of its CPU. -/
theorem view_modRq_setPc {k' : Pc Tid n} {g : Rq Tid → Rq Tid} (hpc : s.pc c = k')
    (h : llistOf k = llistOf k') (hg : (g (s.rq c)).wakeList = (s.rq c).wakeList) :
    ((s.modRq c g).setPc c k).view =
      s.view.setCpu c
        { s.view.cpu c with curr := (g (s.rq c)).curr, phase := phaseOf k } := by
  rw [view_modRq, hg, h, ← hpc]
  rfl

omit [DecidableEq Tid] in
/-- A statement that writes to its run queue what custody does not see. -/
theorem view_modRq_setPc_unseen {g : Rq Tid → Rq Tid} (hk : phaseOf k = phaseOf (s.pc c))
    (hcurr : (g (s.rq c)).curr = (s.rq c).curr)
    (hg : llistOf k ++ (g (s.rq c)).wakeList = llistOf (s.pc c) ++ (s.rq c).wakeList) :
    ((s.modRq c g).setPc c k).view = s.view := by
  rw [view_modRq, hg, hcurr, hk]
  exact view_setPhase_self rfl

omit [DecidableEq Tid] in
/-- A statement that hands a task to another CPU. -/
theorem view_pushWakeList {k' : Pc Tid n} {d : Cpu n} (hcd : c ≠ d) (hpc : s.pc c = k')
    (h : llistOf k = llistOf k') : ((s.pushWakeList d p).setPc c k).view =
      (s.view.setPhase c (phaseOf k)).setCpu d
        { s.view.cpu d with inbox := (s.view.cpu d).inbox ++ [p] } := by
  unfold State.view View.setPhase View.setCpu State.pushWakeList
  congr 1
  funext b
  by_cases hd : b = d
  · subst hd
    simp [hcd.symm]
  · by_cases hc : b = c
    · subst hc
      simp [hd, h, hpc]
    · simp [hd, hc]

omit [DecidableEq Tid] in
/-- A store to the state of an ordinary task that makes it no less ordinary. -/
theorem TaskStruct.view_setState {t : TaskStruct Tid n} {v : TaskState}
    (hw : t.view.waking = false) (hf : t.view.fresh = false) (hv : v ≠ taskWaking)
    (hv' : v ≠ taskNew) : (t.setState v).view = t.view := by
  have hw' : t.state ≠ taskWaking := by simpa [view] using hw
  have hf' : t.allocated = true ∧ t.state ≠ taskNew := by simpa [view] using hf
  simp [view, setState, hw', hf', hv, hv']

omit [DecidableEq Tid] in
theorem TaskStruct.view_setState_taskWaking {t : TaskStruct Tid n}
    (hf : t.view.fresh = false) :
    (t.setState taskWaking).view = { t.view with waking := true } := by
  have hf' : t.allocated = true ∧ t.state ≠ taskNew := by simpa [view] using hf
  have hn : taskWaking ≠ taskNew := by decide
  simp [view, setState, hf', hn]

omit [DecidableEq Tid] in
theorem TaskStruct.view_activateTask {t : TaskStruct Tid n} (hw : t.view.waking = false)
    (d : Cpu n) : (t.activateTask d).view = { t.view with queued := some d, waking := false } := by
  rw [← hw]
  rfl

omit [DecidableEq Tid] in
theorem TaskStruct.view_ttwuDoActivate {t : TaskStruct Tid n} (hf : t.view.fresh = false)
    (d : Cpu n) : (t.ttwuDoActivate d).view =
      { t.view with queued := some d, waking := false } := by
  have hf' : t.allocated = true ∧ t.state ≠ taskNew := by simpa [view] using hf
  have hw : taskRunning ≠ taskWaking := by decide
  have hn : taskRunning ≠ taskNew := by decide
  simp [view, ttwuDoActivate, ttwuDoWakeup, setState, activateTask, hf', hw, hn]

omit [DecidableEq Tid] in
/-- The states of the scheduler are outside the masks that callers may ask for. -/
theorem and_eq_zero_of_isSchedulerState {mask v : TaskState}
    (hm : isSchedulerState mask = false) (hv : v = taskWaking ∨ v = taskNew) :
    v &&& mask = 0 := by
  have hm' : mask &&& (taskDead ||| taskWaking ||| taskNew) = 0 := by
    simpa [isSchedulerState] using hm
  have hsub : v = v &&& (taskDead ||| taskWaking ||| taskNew) := by
    obtain rfl | rfl := hv <;> decide
  calc v &&& mask = v &&& (taskDead ||| taskWaking ||| taskNew) &&& mask := by rw [← hsub]
    _ = v &&& (mask &&& (taskDead ||| taskWaking ||| taskNew)) := by ac_rfl
    _ = 0 := by rw [hm']; exact BitVec.and_zero

end View

/-! ## The invariant of the scheduler -/

/-- Locks, variables and custody are in order. -/
structure Ok (M : Machine Tid n) (s : State Tid n) : Prop where
  locks : LocksOk s
  coherent : Coherent M s
  custody : Inv M.idle s.view

omit [DecidableEq Tid] in
/-- A task in the hands of a CPU is locked by it. -/
theorem pi_of_held {c : Cpu n} {k : Pc Tid n} {p : Tid} (h : (phaseOf k).held = some p) :
    .pi p ∈ heldLocks c k := by
  cases k with
  | schedule k => cases k <;> cases h
  | tryToWakeUp q k => cases k <;> simp_all [phaseOf, Phase.held, heldLocks]
  | wakeUpNewTask q k => cases k <;> simp_all [phaseOf, Phase.held, heldLocks]
  | taskRqLock q caller k =>
      cases caller <;> cases k <;> simp_all [phaseOf, Phase.held, heldLocks]
  | moveQueuedTask q src dest k => cases k <;> simp_all [phaseOf, Phase.held, heldLocks]
  | _ => cases h

omit [DecidableEq Tid] in
/-- A CPU between two tasks has locked its run queue. -/
theorem rq_of_phase {c : Cpu n} {k : Pc Tid n} {p : Tid}
    (h : phaseOf k = .picked p ∨ phaseOf k = .entering p) : .rq c ∈ heldLocks c k := by
  unfold phaseOf at h
  split at h <;> simp_all [heldLocks]

section Ok

variable {M : Machine Tid n} {s s' : State Tid n} {c : Cpu n} {e : Event Tid n} {p : Tid}

theorem Ok.phaseOk (hi : Ok M s) {k : Pc Tid n} (hpc : s.pc c = k) :
    PhaseOk M.idle s.view c (phaseOf k) := by
  have h := hi.custody.phase c
  rwa [view_phase hpc] at h

theorem Ok.pcOk (hi : Ok M s) {k : Pc Tid n} (hpc : s.pc c = k) : PcOk M s c k :=
  hpc ▸ hi.coherent.pc c

/-- Nobody has a task in hand whose lock is free. -/
theorem Ok.unheld_of_free (hi : Ok M s) (hl : s.lock (.pi p) = none) : s.view.Unheld p :=
  fun c hc => hi.locks.not_held hl c (pi_of_held hc)

/-- Only the owner of the lock can have the task in hand. -/
theorem Ok.unheld_of_own (hi : Ok M s) {k : Pc Tid n} (hpc : s.pc c = k)
    (hl : .pi p ∈ heldLocks c k) (hk : (phaseOf k).held = none) : s.view.Unheld p := by
  intro c' hc'
  obtain rfl : c' = c := hi.locks.exclusive (pi_of_held hc') (hpc ▸ hl)
  rw [view_phase hpc, hk] at hc'
  cases hc'

/-- A task of run queue `r` can only be used there. -/
theorem Ok.vacant (hi : Ok M s) {r : Cpu n} (hq : (s.task p).queuedOn = some r)
    (hocc : ¬ s.view.Occupies r p) (hpick : phaseOf (s.pc r) ≠ .picked p) :
    s.view.Vacant p := by
  intro c
  have hhome : (s.task p).cpu = r := hi.custody.queued_home r p hq
  constructor
  · intro ho
    obtain rfl : r = c := hhome.symm.trans (hi.custody.occupied_home c p ho)
    exact hocc ho
  · intro hp
    have hpc := hi.custody.phase c
    rw [hp] at hpc
    obtain h | h := hpc.1
    · obtain rfl : r = c := Option.some.inj (hq.symm.trans h)
      exact hpick hp
    · have hidle := (hi.custody.queued_plain p (by simp [State.view, TaskStruct.view, hq])).2.2.1
      exact hidle c h.symm

/-- A queued task that is not marked is used by nobody when `c` can lock its run queue. -/
theorem Ok.vacant_of_lock (hi : Ok M s) {r : Cpu n} (hq : (s.task p).queuedOn = some r)
    (hn : (s.task p).onCpu = false)
    (hl : s.lock (.rq r) = none ∨ s.lock (.rq r) = some c)
    (hc : ∀ q, phaseOf (s.pc c) ≠ .picked q ∧ phaseOf (s.pc c) ≠ .entering q) :
    s.view.Vacant p := by
  have hrc : ∀ q, phaseOf (s.pc r) = .picked q ∨ phaseOf (s.pc r) = .entering q → False := by
    intro q hq'
    have hown := hi.locks r _ (rq_of_phase hq')
    obtain hl | hl := hl
    · rw [hl] at hown
      cases hown
    · obtain rfl : c = r := Option.some.inj (hl.symm.trans hown)
      exact hq'.elim (hc q).1 (hc q).2
  apply hi.vacant hq
  · intro ho
    obtain ⟨-, prev, hprev⟩ := hi.custody.occupied_onCpu r p ho hn
    exact hrc prev (.inr hprev)
  · intro hp
    exact hrc p (.inl hp)

/-- The run queue of a task with `on_rq` set. -/
theorem Ok.queuedOn (hi : Ok M s) (hq : (s.task p).onRq = .queued)
    (hp : ∀ i, M.idle i ≠ p) : (s.task p).queuedOn = some (s.task p).cpu := by
  obtain ⟨r, hr⟩ := Option.ne_none_iff_exists'.mp ((hi.coherent.task p).queuedOn_of_onRq hq hp)
  have hhome : (s.task p).cpu = r := hi.custody.queued_home r p hr
  rw [hr, hhome]

/-- The current task of a CPU is assigned to it. -/
theorem Ok.cpu_curr (hi : Ok M s) (c : Cpu n) : (s.task (s.rq c).curr).cpu = c :=
  hi.custody.occupied_home c _ (.inl rfl)

/-- No task is current on two CPUs. -/
theorem Ok.curr_injective (hi : Ok M s) : Function.Injective fun c => (s.rq c).curr := by
  intro c c' h
  have hcurr : (s.rq c').curr = (s.rq c).curr := h.symm
  exact hi.custody.occupies_unique (.inl rfl) (.inl hcurr)

/-! ## Every statement is a few moves -/

/-- A statement that custody does not see. -/
theorem unseen {idle : Cpu n → Tid} {v v' : View Tid (Cpu n)} (h : v' = v) :
    ReflTransGen (Effect idle) v v' := by
  rw [h]

/-- A statement with one effect. -/
theorem effect {idle : Cpu n → Tid} {v v' w : View Tid (Cpu n)} (h : v' = w)
    (he : Effect idle v w) : ReflTransGen (Effect idle) v v' := h ▸ .single he

/-- The current task of a settled CPU is an ordinary one. -/
theorem Ok.curr_plain (hi : Ok M s) (hs : Settled M.idle s.view c) :
    (s.task (s.rq c).curr).view.waking = false ∧ (s.task (s.rq c).curr).view.fresh = false := by
  obtain hq | hidle := hs
  · have hq' : (s.view.task (s.rq c).curr).queued = some c := hq
    have hp := hi.custody.queued_plain (s.rq c).curr (by simp [hq'])
    exact ⟨hp.1, hp.2.1⟩
  · have hidle' : (s.rq c).curr = M.idle c := hidle
    rw [hidle']
    exact (hi.custody.idle_plain c).2

/-- A store to the state of the current task. -/
theorem Ok.view_setState (hi : Ok M s) {k : Pc Tid n} (hpc : s.pc c = k)
    (hk : phaseOf k = .quiet) {v : TaskState} (hv : v ≠ taskWaking) (hv' : v ≠ taskNew) :
    (s.modTask (s.rq c).curr (·.setState v)).view = s.view := by
  have hs := hi.phaseOk hpc
  rw [hk] at hs
  obtain ⟨hw, hf⟩ := hi.curr_plain hs
  exact view_modTask_of_eq (TaskStruct.view_setState hw hf hv hv')

/-- `try_to_wake_up` past its test has found an ordinary sleeping task. -/
theorem Ok.pin (hi : Ok M s) {mask : TaskState}
    (hpc : s.pc c = .tryToWakeUp p (.checkState mask)) (hm : (s.task p).state &&& mask ≠ 0) :
    Effect M.idle s.view (s.view.setPhase c (.pin p)) := by
  obtain ⟨ha, hmask⟩ : (s.task p).allocated = true ∧ isSchedulerState mask = false := hi.pcOk hpc
  have hw : (s.task p).state ≠ taskWaking := fun h =>
    hm (and_eq_zero_of_isSchedulerState hmask (.inl h))
  have hn : (s.task p).state ≠ taskNew := fun h =>
    hm (and_eq_zero_of_isSchedulerState hmask (.inr h))
  refine .pin c p (view_phase hpc) (by simpa [State.view, TaskStruct.view] using hw)
    (by simpa [State.view, TaskStruct.view] using ⟨ha, hn⟩) ?_
    (hi.unheld_of_own hpc (by simp [heldLocks]) rfl)
  rintro i rfl
  have hrun := (hi.coherent.task (M.idle i)).idle_state i rfl
  exact hm (by simp [hrun, taskRunning])

/-- A stopped CPU uses no task that may be moved. -/
theorem Ok.vacant_of_stopped (hi : Ok M s) {d : Cpu n} (hp : s.movable M p = true)
    (hq : (s.task p).onRq = .queued) (hcpu : (s.task p).cpu = d)
    (hstop : M.stopper (s.rq d).curr = true) (hquiet : phaseOf (s.pc d) = .quiet) :
    (s.task p).queuedOn = some d ∧ s.view.Vacant p := by
  simp only [State.movable, Bool.and_eq_true, Bool.not_eq_true', decide_eq_true_eq] at hp
  have hqd : (s.task p).queuedOn = some d := hcpu ▸ hi.queuedOn hq hp.2
  refine ⟨hqd, hi.vacant hqd ?_ (by simp [hquiet])⟩
  rintro (hcurr | hent | hfin)
  · have hcurr' : (s.rq d).curr = p := hcurr
    rw [hcurr', hp.1.2] at hstop
    cases hstop
  · rw [view_phase rfl, hquiet] at hent
    cases hent
  · rw [view_phase rfl, hquiet] at hfin
    cases hfin

/-- The two CPUs of a swap are stopped. -/
theorem Ok.swap_stopped (hi : Ok M s) {arg : MigrationSwapArg Tid n} {k : SwapPc}
    (hpc : s.pc c = .migrateSwapStop arg k) {d : Cpu n}
    (hd : d = arg.srcCpu ∨ d = arg.dstCpu) :
    M.stopper (s.rq d).curr = true ∧ phaseOf (s.pc d) = .quiet := by
  have hr : s.swapReady M c arg = true := hi.pcOk hpc
  simp only [State.swapReady, Bool.and_eq_true, Bool.or_eq_true, beq_iff_eq] at hr
  obtain ⟨⟨-, hstop⟩, hcpus⟩ := hr
  have hself : M.stopper (s.rq c).curr = true ∧ phaseOf (s.pc c) = .quiet :=
    ⟨hstop, by rw [hpc]; rfl⟩
  have hspin : ∀ d, State.swapReady.spins s c d = true →
      M.stopper (s.rq d).curr = true ∧ phaseOf (s.pc d) = .quiet := by
    intro d hsd
    unfold State.swapReady.spins at hsd
    split at hsd
    next partner hpd => exact ⟨hi.pcOk hpd, by rw [hpd]; rfl⟩
    next => cases hsd
  obtain ⟨hc, hs⟩ | ⟨hc, hs⟩ := hcpus
  · obtain rfl | rfl := hd
    · exact hc ▸ hself
    · exact hspin _ hs
  · obtain rfl | rfl := hd
    · exact hspin _ hs
    · exact hc ▸ hself

omit [DecidableEq Tid] in
theorem migrateSwapTask_view_cpu [DecidableEq Tid] (d : Cpu n) :
    (s.migrateSwapTask p d).view.cpu = s.view.cpu := by
  unfold State.migrateSwapTask
  split <;> rfl

/-- One half of a swap. -/
theorem migrateSwapTask_effects {d : Cpu n}
    (h : (s.task p).onRq = .queued → (s.task p).queuedOn ≠ none ∧ s.view.Vacant p) :
    ReflTransGen (Effect M.idle) s.view (s.migrateSwapTask p d).view := by
  unfold State.migrateSwapTask
  split
  next hq => exact effect view_modTask (.transfer p d (h hq).1 (h hq).2)
  next => exact .refl

/-- The scheduler refines custody, step by step. -/
theorem Transition.effects (ht : Transition M s c e s') (hi : Ok M s) :
    ReflTransGen (Effect M.idle) s.view s'.view := by
  cases ht with
  | loadStateKeep preempt prev hpc =>
      exact effect (view_setPc_phase hpc rfl) (.choose c (view_phase hpc))
  | signal prev hpc =>
      obtain rfl : prev = (s.rq c).curr := hi.pcOk hpc
      obtain ⟨hw, hf⟩ := hi.curr_plain (hi.phaseOk hpc)
      have hv := TaskStruct.view_setState hw hf (by decide) (by decide : taskRunning ≠ taskNew)
      exact effect (view_modTask_setPc_of_eq hpc rfl hv) (.choose c (view_phase hpc))
  | deactivate prev hpc =>
      obtain rfl : prev = (s.rq c).curr := hi.pcOk hpc
      exact effect (view_modTask_setPc hpc rfl) (.deactivate c (view_phase hpc))
  | pickPrev prev sc hpc hq =>
      obtain rfl : prev = (s.rq c).curr := hi.pcOk hpc
      exact effect (view_setPc_phase hpc rfl) (.keep c (view_phase hpc) hq)
  | pickNext prev next sc hpc hq hne =>
      obtain rfl : prev = (s.rq c).curr := hi.pcOk hpc
      exact effect (view_setPc_phase hpc rfl) (.pick c next (view_phase hpc) hq hne)
  | nrSwitches prev next sc hpc =>
      exact unseen (view_modRq_setPc_unseen (by rw [hpc]; rfl) rfl (by rw [hpc]; rfl))
  | curr prev next sc hpc =>
      obtain rfl : prev = (s.rq c).curr := hi.pcOk hpc
      exact effect (view_modRq_setPc hpc rfl rfl) (.install c next (view_phase hpc))
  | switchCount prev next sc hpc =>
      have hv : ((s.task prev).addSwitchCount sc).view = (s.task prev).view := by
        cases sc <;> rfl
      exact unseen (view_modTask_setPc_unseen hpc rfl rfl hv)
  | storeCount prev next v hpc =>
      exact unseen (view_modTask_setPc_unseen hpc rfl rfl rfl)
  | prepareTask prev next hpc =>
      obtain rfl : next = (s.rq c).curr := hi.pcOk hpc
      exact effect (view_modTask_setPc hpc rfl) (.prepare c prev (view_phase hpc))
  | finishTask prev hpc =>
      exact effect (view_modTask_setPc hpc rfl) (.finish c prev (view_phase hpc))
  | wakeSelf mask hpc =>
      exact unseen (hi.view_setState hpc rfl (by decide) (by decide))
  | stateHit p mask hpc hm => exact effect (view_setPc_phase hpc rfl) (hi.pin hpc hm)
  | offRq p hpc hq =>
      have hoff : (s.view.task p).queued = none := by
        by_contra h
        exact absurd ((hi.coherent.task p).onRq_of_queuedOn h) (by simp [hq])
      exact effect (view_setPc_phase hpc rfl) (.claim c p (view_phase hpc) hoff)
  | remoteWake p r hpc =>
      have hf := hi.custody.held_plain c p (by rw [view_phase hpc]; rfl)
      have hv := TaskStruct.view_setState (hi.phaseOk hpc).2 hf.1 (by decide)
        (by decide : taskRunning ≠ taskNew)
      exact effect (view_modTask_setPc_of_eq hpc rfl hv) (.unpin c p (view_phase hpc))
  | remoteMiss p r hpc hq =>
      have hoff : (s.view.task p).queued = none := by
        by_contra h
        exact hq ((hi.coherent.task p).onRq_of_queuedOn h)
      exact effect (view_setPc_phase hpc rfl) (.claim c p (view_phase hpc) hoff)
  | waking p hpc =>
      have hf := hi.custody.held_plain c p (by rw [view_phase hpc]; rfl)
      refine effect (view_modTask_setPc hpc rfl) ?_
      rw [TaskStruct.view_setState_taskWaking hf.1]
      exact .setWaking c p (view_phase hpc)
  | pushOnCpu p hpc hd =>
      obtain ⟨-, hw, hq⟩ := hi.phaseOk hpc
      exact effect (view_pushWakeList hd.symm hpc rfl)
        (.push c p _ hd.symm (by rw [view_phase hpc]; rfl) hq hw)
  | waitOnCpu p hpc hn =>
      exact effect (view_setPc_phase hpc rfl) (.vacate c p (view_phase hpc) hn)
  | selectTaskRq p d hpc =>
      exact effect (view_modTask_setPc hpc rfl)
        (.setHome c true p none d (some d) (view_phase hpc) fun _ h => (Option.some.inj h).symm)
  | pushQueue p d hpc hd =>
      obtain ⟨-, hw, hq, -⟩ := hi.phaseOk hpc
      exact effect (view_pushWakeList hd.symm hpc rfl)
        (.push c p _ hd.symm (by rw [view_phase hpc]; rfl) hq hw)
  | activate p d hpc =>
      obtain ⟨-, -, -, -, hd⟩ := hi.phaseOk hpc
      have hf := hi.custody.held_plain c p (by rw [view_phase hpc]; rfl)
      refine effect (view_modTask_setPc hpc rfl) ?_
      rw [TaskStruct.view_ttwuDoActivate hf.1]
      exact .attach c true p (some d) (view_phase hpc) d (hd d rfl)
  | takeWakeList hpc =>
      refine unseen (view_modRq_setPc_unseen (by rw [hpc]; rfl) rfl ?_)
      rw [hpc]
      exact List.append_nil _
  | activatePending p rest hpc hn =>
      have hb : (s.view.cpu c).inbox = p :: (rest ++ (s.rq c).wakeList) := by
        simp [State.view, hpc, llistOf]
      have hf := (hi.custody.inbox_plain c p (hb ▸ List.mem_cons_self)).2.1
      have hf' : ((s.task p).setTaskCpu c).view.fresh = false := hf
      have hcpu : s.view.cpu c = ⟨(s.rq c).curr, .quiet, (s.view.cpu c).inbox⟩ := by
        have hphase : (s.view.cpu c).phase = .quiet := view_phase hpc
        rw [← hphase]
        rfl
      refine effect ?_ (.pop c p _ hb hn)
      rw [view_setPc, view_modTask, TaskStruct.view_ttwuDoActivate hf', hcpu]
      rfl
  | fork child thread hpc ha =>
      exact effect view_modTask (.create c child (by simp [State.view, TaskStruct.view, ha]))
  | wakeNew p hpc ha hs hl =>
      have hv : ((s.task p).setState taskRunning).view =
          { (s.task p).view with fresh := false } := by
        have hw : taskRunning ≠ taskWaking := by decide
        have hn : taskRunning ≠ taskNew := by decide
        have hnw : taskNew ≠ taskWaking := by decide
        simp [TaskStruct.view, TaskStruct.setState, ha, hs, hw, hn, hnw]
      have hf : (s.view.task p).fresh = true := by simp [State.view, TaskStruct.view, hs]
      refine effect (view_modTask_setPc hpc rfl) ?_
      rw [State.acquire_task, hv]
      exact .adopt c p (view_phase hpc) hf (hi.unheld_of_free hl)
  | newSetCpu p d hpc =>
      exact effect (view_modTask_setPc hpc rfl)
        (.setHome c false p none d none (view_phase hpc) fun _ h => nomatch h)
  | newActivate p r hpc =>
      obtain ⟨-, hw, -, -, hd⟩ := hi.phaseOk hpc
      refine effect (view_modTask_setPc hpc rfl) ?_
      rw [TaskStruct.view_activateTask hw]
      exact .attach c false p (some r) (view_phase hpc) r (hd r rfl)
  | setState v hpc hidle hv hv' => exact unseen (hi.view_setState hpc rfl hv hv')
  | startToCount hpc => exact unseen (view_modTask_of_eq rfl)
  | stopToCount hpc => exact .refl
  | myGetCpuNumber hpc => exact .refl
  | loadRq p caller hpc => cases caller <;> exact unseen (view_setPc_of_eq hpc rfl rfl)
  | lockRq p caller r hpc hl => cases caller <;> exact unseen (view_setPc_of_eq hpc rfl rfl)
  | newLocked p r hpc hr =>
      refine effect ?_ (.setHome c false p none r (some r) (view_phase hpc)
        fun _ h => (Option.some.inj h).symm)
      have hself : { s.view.task p with home := r } = s.view.task p := by rw [← hr]; rfl
      have hphase : (s.setPc c (.wakeUpNewTask p (.activate r))).view =
          s.view.setPhase c (.own false p (some r)) := view_setPc_phase hpc rfl
      rw [hphase, hself]
      exact congrArg (View.setPhase · c (.own false p (some r))) view_setTask_self.symm
  | lockedMove p dest r hpc hr hn hq =>
      have hidle : ∀ i, M.idle i ≠ p := hi.pcOk hpc dest rfl
      have hqr : (s.task p).queuedOn = some r := hr ▸ hi.queuedOn hq hidle
      have hown := hi.locks c (.rq r) (by simp [hpc, heldLocks])
      exact effect (view_modTask_setPc hpc rfl)
        (.detach c p (view_phase hpc) (by simp [State.view, TaskStruct.view, hqr])
          (hi.vacant_of_lock hqr hn (.inr hown) (by simp [hpc, phaseOf]))
          (hi.unheld_of_own hpc (by simp [heldLocks]) rfl))
  | lockRetry p caller r hpc hc =>
      cases caller with
      | setCpusAllowedPtr dest => exact absurd rfl (hc dest)
      | _ => exact unseen (view_setPc_of_eq hpc rfl rfl)
  | cpuStopMove p dest hpc hr hq =>
      obtain ⟨hp, hstop⟩ : s.movable M p = true ∧ M.stopper (s.rq c).curr = true := hi.pcOk hpc
      obtain ⟨hqc, hv⟩ := hi.vacant_of_stopped hp hq hr hstop (by rw [hpc]; rfl)
      exact effect (view_modTask_setPc hpc rfl)
        (.detach c p (view_phase hpc) (by simp [State.view, TaskStruct.view, hqc]) hv
          (hi.unheld_of_own hpc (by simp [heldLocks]) rfl))
  | moveSetCpu p src dest hpc =>
      exact effect (view_modTask_setPc hpc rfl)
        (.setHome c false p none dest (some dest) (view_phase hpc)
          fun _ h => (Option.some.inj h).symm)
  | moveEnqueue p src dest hpc =>
      obtain ⟨-, hw, -, -, hd⟩ := hi.phaseOk hpc
      refine effect (view_modTask_setPc hpc rfl) ?_
      rw [TaskStruct.view_activateTask hw]
      exact .attach c false p (some dest) (view_phase hpc) dest (hd dest rfl)
  | swap arg hpc hsrc hdst =>
      have hr : s.swapReady M c arg = true := hi.pcOk hpc
      simp only [State.swapReady, Bool.and_eq_true, bne_iff_ne] at hr
      obtain ⟨⟨⟨⟨hmsrc, hmdst⟩, hne⟩, -⟩, -⟩ := hr
      obtain ⟨hss, hqs⟩ := hi.swap_stopped hpc (.inl rfl)
      obtain ⟨hsd, hqd⟩ := hi.swap_stopped hpc (.inr rfl)
      have h₁ : ReflTransGen (Effect M.idle) s.view
          (s.migrateSwapTask arg.srcTask arg.dstCpu).view :=
        migrateSwapTask_effects fun hq => by
          obtain ⟨hon, hv⟩ := hi.vacant_of_stopped hmsrc hq hsrc hss hqs
          exact ⟨by simp [hon], hv⟩
      have h₂ : ReflTransGen (Effect M.idle) (s.migrateSwapTask arg.srcTask arg.dstCpu).view
          ((s.migrateSwapTask arg.srcTask arg.dstCpu).migrateSwapTask arg.dstTask
            arg.srcCpu).view := by
        -- the first half does not touch the second task
        have htask : (s.migrateSwapTask arg.srcTask arg.dstCpu).task arg.dstTask =
            s.task arg.dstTask := by
          unfold State.migrateSwapTask
          split
          · exact State.modTask_of_ne hne.symm
          · rfl
        apply migrateSwapTask_effects
        intro hq
        rw [htask] at hq ⊢
        obtain ⟨hon, hv⟩ := hi.vacant_of_stopped hmdst hq hdst hsd hqd
        refine ⟨by simp [hon], ?_⟩
        intro c'
        have hcpu : ∀ b, (s.migrateSwapTask arg.srcTask arg.dstCpu).view.cpu b = s.view.cpu b :=
          congrFun (migrateSwapTask_view_cpu _)
        simpa [View.Occupies, hcpu] using hv c'
      have hpc' : ((s.migrateSwapTask arg.srcTask arg.dstCpu).migrateSwapTask arg.dstTask
          arg.srcCpu).pc c = .migrateSwapStop arg .swap := by simp [hpc]
      exact (h₁.trans h₂).trans (unseen (view_setPc_of_eq hpc' rfl rfl))
  | loadBalance p src dest hpc hq hn hl =>
      refine effect view_modTask (.transfer p dest (by simp [State.view, TaskStruct.view, hq])
        (hi.vacant_of_lock hq hn hl ?_))
      obtain hpc | ⟨prev, sc, b, hpc⟩ := hpc <;> simp [hpc, phaseOf]
  | stay hpc => exact .refl
  | _ =>
      -- locks and tests are invisible to custody
      have hpc := ‹s.pc c = _›
      exact unseen (view_setPc_of_eq hpc rfl rfl)

end Ok

end LinuxOs2022.Scheduler
