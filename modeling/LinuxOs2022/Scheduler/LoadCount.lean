import LinuxOs2022.Library.Sums
import LinuxOs2022.Scheduler.LoadAccount

/-!
# The accounts of the load are exact

The sum of `nr_uninterruptible` over all CPUs is the number of sleeping tasks that contribute
to the load; a single one of them says nothing, since a task may wake up on another CPU.
`nr_iowait` of every CPU is the number of tasks that wait for I/O there, but for a sleep that
`__schedule` has not counted yet.
-/

namespace LinuxOs2022.Scheduler

open Custody Library

variable {Tid : Type} [DecidableEq Tid] {n : ℕ} {M : Machine Tid n} {s s' : State Tid n}
  {c c₀ : Cpu n} {a : Action Tid n} {e : Event Tid n} {es : List (Event Tid n)} {p : Tid}

/-! ## A task that sleeps on -/

/-- Only `try_to_wake_up` writes the state of a sleeping task. -/
theorem State.state_of_asleep (hs : Tended M s) (h : s.step M c a = some (e, s'))
    (hp : s.Asleep p) (hw : wokenOf (s.pc c) ≠ some p) (hk : s.pc c ≠ .tryToWakeUp p .waking) :
    (s'.task p).state = (s.task p).state := by
  have hon : ∀ v, (s.task p).onRq = v → v = .none := fun v hv => hv.symm.trans hp.onRq
  cases step_stateStep hs.awake.ok h p with
  | same hst hq => exact hst
  | sleep hpc hst hq => exact hst
  | keep hpc hst hq =>
      have hcurr : p = (s.rq c).curr := hs.awake.ok.pcOk hpc
      exact absurd (hcurr ▸ hp) (hs.not_asleep_curr (by rw [hpc]; rfl))
  | self hpc hp' hd hl hwk hn hq =>
      exact absurd (hp' ▸ hp) (hs.not_asleep_curr (by rw [hpc]; rfl))
  | remote r hpc hr hst hq => exact absurd (hon _ hr) (by decide)
  | waking hpc hst hq => exact absurd hpc hk
  | activate d hpc hst hq => exact absurd (by rw [hpc]; rfl) hw
  | pending rest hpc hn hst hq => exact absurd (by rw [hpc]; rfl) hw
  | create hpc ha hst hq =>
      have hal := hp.allocated
      rw [ha] at hal
      cases hal
  | wakeNew hpc ha hnew hl hst hq hk' => exact absurd hnew hp.not_new
  | start r hpc hst hq => exact hst
  | detach hl hr hst hq hk' => exact hst
  | attach src dest hpc hst hq => exact hst

theorem State.migrateSwapTask_cpu {q : Tid} {d : Cpu n} (hp : (s.task p).onRq ≠ .queued) :
    ((s.migrateSwapTask q d).task p).cpu = (s.task p).cpu := by
  unfold migrateSwapTask
  split
  next hq =>
    rw [modTask_of_ne]
    rintro rfl
    exact hp hq
  next => rfl

/-- A sleeping task that nobody wakes stays where it is. -/
theorem State.cpu_of_asleep (hs : Tended M s) (h : s.step M c a = some (e, s'))
    (hp : s.Asleep p) (hw : (s.task p).state ≠ taskWaking) :
    (s'.task p).cpu = (s.task p).cpu := by
  have hon : (s.task p).onRq ≠ .queued := by
    rw [hp.onRq]
    decide
  have hwaking : (s.view.task p).waking ≠ true := by simpa [State.view, TaskStruct.view] using hw
  cases step_transition h with
  | selectTaskRq q d hpc =>
      rw [setPc_task, modTask_of_ne]
      rintro rfl
      exact hwaking (hs.awake.ok.phaseOk hpc).2.1
  | activatePending q rest hpc hn =>
      rw [setPc_task, modTask_of_ne]
      rintro rfl
      exact hw (hs.asleep_of_woken (c := c) (by rw [hpc]; rfl)).2
  | fork child thread hpc ha =>
      rw [modTask_of_ne]
      rintro rfl
      have hal := hp.allocated
      rw [ha] at hal
      cases hal
  | newSetCpu q d hpc =>
      rw [setPc_task, modTask_of_ne]
      rintro rfl
      exact hp.not_running (hs.awake.sleep.starting c p (by rw [hpc]; rfl))
  | moveSetCpu q src dest hpc =>
      rw [setPc_task, modTask_of_ne]
      rintro rfl
      have hmig := hs.awake.sleep.moving c p src dest .setCpu hpc
      rw [hp.onRq] at hmig
      cases hmig
  | swap arg hpc hsrc hdst =>
      rw [setPc_task, migrateSwapTask_cpu, migrateSwapTask_cpu hon]
      have hsame := congrArg Prod.snd (migrateSwapTask_stateOnRq (s := s) (p := p)
        arg.srcTask arg.dstCpu)
      exact fun hq => hon (hsame.symm.trans hq)
  | loadBalance q src dest hpc hq hn hl =>
      rw [modTask_of_ne]
      rintro rfl
      exact hon ((hs.awake.ok.coherent.task p).onRq_of_queuedOn (by simp [hq]))
  | switchCount prev next sc hpc =>
      rw [setPc_task]
      exact proj_modTask TaskStruct.cpu (by cases sc <;> rfl)
  | storeCount prev next v hpc =>
      rw [setPc_task]
      exact proj_modTask TaskStruct.cpu rfl
  | prepareTask prev next hpc =>
      rw [setPc_task]
      exact proj_modTask TaskStruct.cpu rfl
  | finishTask prev hpc =>
      rw [setPc_task]
      exact proj_modTask TaskStruct.cpu rfl
  | stopToCount hpc => rfl
  | myGetCpuNumber hpc => rfl
  | stay hpc => rfl
  | _ =>
      first
      | rfl
      | exact proj_modTask TaskStruct.cpu (by rfl)

/-- `__schedule` decides to deactivate a task by the state that it loads. -/
theorem State.step_to_deactivate (h : s.step M c a = some (e, s'))
    (hpc : s'.pc c = .schedule (.deactivate p)) :
    (∃ preempt, s.pc c = .schedule (.loadState preempt p)) ∧ s'.task = s.task := by
  cases step_transition h with
  | loadStateSleep preempt prev hpc' =>
      obtain rfl : prev = p := by simpa using hpc
      exact ⟨⟨preempt, hpc'⟩, rfl⟩
  | loadBalance q src dest hpc' hq hn hl =>
      obtain hpc' | ⟨_, _, _, hpc'⟩ := hpc' <;> simp [hpc'] at hpc
  | _ =>
      have hpc' := ‹s.pc c = _›
      simp_all

/-- A task that is being put to sleep keeps its state. -/
theorem State.state_of_deactivate (hs : Tended M s) (h : s.step M c a = some (e, s')) {b : Cpu n}
    (hb : b ≠ c) (hpc : s.pc b = .schedule (.deactivate p)) :
    (s'.task p).state = (s.task p).state := by
  have hi := hs.awake.ok
  apply (step_stateStep hi h p).state_of_curr hi (hs.awake.sleep.remote c p) hb (hi.pcOk hpc)
  · simp [hpc, heldLocks]
  · rw [hpc]
    rfl

/-! ## The invariant -/

namespace LoadState

/-- A sleeping task that `__schedule` has counted in `nr_uninterruptible`. -/
def Contributing (r : LoadState Tid n) (p : Tid) : Prop :=
  r.sched.Asleep p ∧ r.contributes p = true

/-- A waker has counted the task down. -/
def Released (r : LoadState Tid n) (p : Tid) : Prop :=
  (r.sched.task p).state = taskWaking ∨
    ∃ b, r.sched.pc b = .tryToWakeUp p .waking ∧ r.waking b = true

/-- A task that sleeps on CPU `c` to wait for I/O, and that no waker has counted down. -/
structure WaitsForIo (r : LoadState Tid n) (c : Cpu n) (p : Tid) : Prop where
  asleep : r.sched.Asleep p
  inIowait : r.inIowait p = true
  cpu : (r.sched.task p).cpu = c
  waits : ¬ r.Released p

/-- What `__schedule` has yet to add to `nr_iowait` of its CPU. -/
def pendingIo (r : LoadState Tid n) (c : Cpu n) : BitVec 32 :=
  if r.sleeping c && r.inIowait (r.sched.rq c).curr then 1 else 0

end LoadState

/-- The accounts are in order. -/
structure LoadOk (M : Machine Tid n) (r : LoadState Tid n) : Prop where
  tended : Tended M r.sched
  sleeping : ∀ c, r.sleeping c = true → ∃ prev sc b, r.sched.pc c = .schedule (.pick prev sc b)
  waking : ∀ c, r.waking c = true → ∃ p, r.sched.pc c = .tryToWakeUp p .waking
  prev : ∀ c p, r.sched.pc c = .schedule (.deactivate p) →
    r.prevState c = (r.sched.task p).state
  flag : ∀ p, r.sched.Asleep p → (r.sched.task p).state ≠ taskWaking →
    r.contributes p = contributesToLoad (r.sched.task p).state (r.frozen p)
  load : Tally (∑ c, r.nrUninterruptible c) r.Contributing
  iowait : ∀ c, Tally (r.nrIowait c + r.pendingIo c) (r.WaitsForIo c)

variable {r r₁ : LoadState Tid n}

/-! ## Statements that keep the accounts -/

/-- The accounts of existing tasks are the same, but for the local variables. -/
structure SameAccounts (r r₁ : LoadState Tid n) : Prop where
  frozen : ∀ p, (r.sched.task p).allocated = true → r₁.frozen p = r.frozen p
  contributes : ∀ p, (r.sched.task p).allocated = true → r₁.contributes p = r.contributes p
  inIowait : ∀ p, (r.sched.task p).allocated = true → r₁.inIowait p = r.inIowait p
  nrIowait : r₁.nrIowait = r.nrIowait
  sleeping : r₁.sleeping = r.sleeping

theorem LoadOk.sleeping_eq_false (hr : LoadOk M r) (hready : r.ready c = true) :
    r.sleeping c = false := by
  by_contra hb
  have hb' : r.sleeping c = true := by simpa using hb
  obtain ⟨prev, sc, b, hpc⟩ := hr.sleeping c hb'
  simp [LoadState.ready, hpc, hb'] at hready

/-- A release of a sleeping task is one before and after a step that is not the end of one. -/
theorem LoadState.released_congr (hs : Tended M r.sched)
    (h : r.sched.step M c a = some (e, s')) (hp : r.sched.Asleep p)
    (hw : wokenOf (r.sched.pc c) ≠ some p) (hk : r.sched.pc c ≠ .tryToWakeUp p .waking)
    (hkept : ∀ b, b ≠ c → r₁.waking b = r.waking b)
    (hself : s'.pc c = .tryToWakeUp p .waking → r₁.waking c = false) :
    LoadState.Released (r₁.setSched s') p ↔ r.Released p := by
  have ht := State.step_transition h
  refine or_congr (by rw [setSched_sched, State.state_of_asleep hs h hp hw hk]) ⟨?_, ?_⟩
  · rintro ⟨b, hb, hwb⟩
    by_cases hbc : b = c
    · subst hbc
      have hno : r₁.waking b = false := hself hb
      rw [setSched_waking, hno] at hwb
      cases hwb
    · exact ⟨b, (ht.pc_of_ne hbc) ▸ hb, (hkept b hbc) ▸ hwb⟩
  · rintro ⟨b, hb, hwb⟩
    by_cases hbc : b = c
    · exact absurd (hbc ▸ hb) hk
    · exact ⟨b, (ht.pc_of_ne hbc).trans hb, (hkept b hbc).trans hwb⟩

theorem LoadState.waitsForIo_congr (hs : Tended M r.sched)
    (h : r.sched.step M c a = some (e, s')) (hp : s'.Asleep p ↔ r.sched.Asleep p)
    (hio : r.sched.Asleep p → r₁.inIowait p = r.inIowait p)
    (hrel : r.sched.Asleep p →
      (LoadState.Released (r₁.setSched s') p ↔ r.Released p)) (d : Cpu n) :
    LoadState.WaitsForIo (r₁.setSched s') d p ↔ r.WaitsForIo d p := by
  constructor
  · intro hd
    have hold := hp.mp hd.asleep
    have hwaits := fun hrel' => hd.waits ((hrel hold).mpr hrel')
    have hcpu := State.cpu_of_asleep hs h hold fun hw => hwaits (.inl hw)
    exact ⟨hold, (hio hold).symm.trans hd.inIowait, hcpu.symm.trans hd.cpu, hwaits⟩
  · intro hd
    have hcpu := State.cpu_of_asleep hs h hd.asleep fun hw => hd.waits (.inl hw)
    exact ⟨hp.mpr hd.asleep, (hio hd.asleep).trans hd.inIowait, hcpu.trans hd.cpu,
      fun hrel' => hd.waits ((hrel hd.asleep).mp hrel')⟩

/-- What other CPUs have yet to count stays. -/
theorem LoadOk.pendingIo_congr (hr : LoadOk M r) (h : r.sched.step M c a = some (e, s'))
    {d : Cpu n} (hd : d ≠ c) (hkept : r₁.sleeping d = r.sleeping d)
    (hio : ∀ p, (r.sched.task p).allocated = true → r₁.inIowait p = r.inIowait p) :
    LoadState.pendingIo (r₁.setSched s') d = r.pendingIo d := by
  have hcurr := (State.step_transition h).curr_of_ne hd
  unfold LoadState.pendingIo
  rw [LoadState.setSched_sleeping, LoadState.setSched_inIowait, LoadState.setSched_sched, hkept,
    hcurr, hio _ hr.tended.awake.ok.allocated_curr]

theorem LoadOk.pendingIo_eq (hr : LoadOk M r) (hready : r.ready c = true)
    (h : r.sched.step M c a = some (e, s')) (hkept : r₁.sleeping = r.sleeping)
    (hio : ∀ p, (r.sched.task p).allocated = true → r₁.inIowait p = r.inIowait p) (d : Cpu n) :
    LoadState.pendingIo (r₁.setSched s') d = r.pendingIo d := by
  by_cases hdc : d = c
  · subst hdc
    have hnot := hr.sleeping_eq_false hready
    simp [LoadState.pendingIo, hnot, hkept]
  · exact hr.pendingIo_congr h hdc (congrFun hkept d) hio

/-- The local variable of `__schedule` stays what it was loaded from. -/
theorem LoadOk.prev_sched (hr : LoadOk M r) (h : r.sched.step M c a = some (e, s'))
    (hother : ∀ b, b ≠ c → r₁.prevState b = r.prevState b)
    (hself : ∀ preempt q, r.sched.pc c = .schedule (.loadState preempt q) →
      r₁.prevState c = (r.sched.task q).state) (b : Cpu n) (q : Tid)
    (hq : s'.pc b = .schedule (.deactivate q)) : r₁.prevState b = (s'.task q).state := by
  by_cases hbc : b = c
  · subst hbc
    obtain ⟨⟨preempt, hpc⟩, htask⟩ := State.step_to_deactivate h hq
    rw [hself preempt q hpc, htask]
  · have hpc : r.sched.pc b = _ := ((State.step_transition h).pc_of_ne hbc).symm.trans hq
    rw [hother b hbc, hr.prev b q hpc, State.state_of_deactivate hr.tended h hbc hpc]

/-- The flag of a task that sleeps on stays right. -/
theorem LoadOk.flag_sched (hr : LoadOk M r) (h : r.sched.step M c a = some (e, s'))
    (hp : r.sched.Asleep p) (hw : wokenOf (r.sched.pc c) ≠ some p)
    (hmark : r.sched.pc c = .tryToWakeUp p .waking → (s'.task p).state = taskWaking)
    (hfrozen : r₁.frozen p = r.frozen p) (hcontr : r₁.contributes p = r.contributes p)
    (hst : (s'.task p).state ≠ taskWaking) :
    r₁.contributes p = contributesToLoad (s'.task p).state (r₁.frozen p) := by
  have hk : r.sched.pc c ≠ .tryToWakeUp p .waking := fun hk => hst (hmark hk)
  have hsame := State.state_of_asleep hr.tended h hp hw hk
  rw [hcontr, hfrozen, hsame]
  exact hr.flag p hp (hsame ▸ hst)

/-- A statement that puts no task to sleep and wakes none. -/
theorem LoadOk.kept (hr : LoadOk M r) (hready : r.ready c = true)
    (h : r.sched.step M c a = some (e, s')) (hd : ∀ p, r.sched.pc c ≠ .schedule (.deactivate p))
    (hw : wokenOf (r.sched.pc c) = none) (hsame : SameAccounts r r₁)
    (hnr : r₁.nrUninterruptible = r.nrUninterruptible)
    (hwk : ∀ b, r₁.waking b = true → ∃ p, s'.pc b = .tryToWakeUp p .waking)
    (hother : ∀ b, b ≠ c → r₁.prevState b = r.prevState b)
    (hself : ∀ preempt q, r.sched.pc c = .schedule (.loadState preempt q) →
      r₁.prevState c = (r.sched.task q).state)
    (hmark : ∀ p, r.sched.pc c = .tryToWakeUp p .waking → (s'.task p).state = taskWaking)
    (hrel : ∀ p, r.sched.Asleep p →
      (LoadState.Released (r₁.setSched s') p ↔ r.Released p)) :
    LoadOk M (r₁.setSched s') := by
  have hasleep : ∀ p, s'.Asleep p ↔ r.sched.Asleep p := fun p =>
    State.step_asleep_same hr.tended h (hd p) (by simp [hw])
  have hnot := hr.sleeping_eq_false hready
  constructor
  · exact State.step_tended hr.tended h
  · intro b hb
    have hb' : r.sleeping b = true := hsame.sleeping ▸ hb
    have hbc : b ≠ c := by
      rintro rfl
      rw [hnot] at hb'
      cases hb'
    obtain ⟨prev, sc, l, hpc⟩ := hr.sleeping b hb'
    exact ⟨prev, sc, l, ((State.step_transition h).pc_of_ne hbc).trans hpc⟩
  · exact hwk
  · exact hr.prev_sched h hother hself
  · intro p hp hst
    have hold := (hasleep p).mp hp
    apply hr.flag_sched h hold (by simp [hw]) (hmark p) _ _ hst
    · exact hsame.frozen p hold.allocated
    · exact hsame.contributes p hold.allocated
  · have hload := hr.load.congr (Q := LoadState.Contributing (r₁.setSched s')) fun p => by
      refine and_congr_left' (hasleep p) |>.trans (and_congr_right fun hp => ?_)
      rw [LoadState.setSched_contributes, hsame.contributes p hp.allocated]
    simpa [hnr] using hload
  · intro d
    have hpend := hr.pendingIo_eq hready h hsame.sleeping hsame.inIowait d
    have hio := (hr.iowait d).congr fun p => LoadState.waitsForIo_congr hr.tended h (hasleep p)
      (fun hp => hsame.inIowait p hp.allocated) (hrel p) d
    simpa [hpend, hsame.nrIowait] using hio

/-- The store of `TASK_WAKING` ends a release. -/
theorem LoadOk.marked (hr : LoadOk M r) (hready : r.ready c = true)
    (h : r.sched.step M c a = some (e, s')) (hpc : r.sched.pc c = .tryToWakeUp p .waking) :
    LoadOk M (LoadState.setSched { r with waking := Function.update r.waking c false } s') := by
  have ht := State.step_transition h
  have hdone : r.waking c = true := by simpa [LoadState.ready, hpc] using hready
  have hmark : (s'.task p).state = taskWaking := by
    cases ht with
    | waking q hpc' =>
        obtain rfl : q = p := by simpa [hpc] using hpc'.symm
        simp [TaskStruct.setState]
    | loadBalance q src dest hpc' hq hn hl =>
        obtain hpc' | ⟨_, _, _, hpc'⟩ := hpc' <;> simp [hpc] at hpc'
    | _ =>
        have hpc' := ‹r.sched.pc c = _›
        simp_all
  apply hr.kept hready h
  · simp [hpc]
  · simp [hpc, wokenOf]
  · exact ⟨fun _ _ => rfl, fun _ _ => rfl, fun _ _ => rfl, rfl, rfl⟩
  · rfl
  · intro b hb
    by_cases hbc : b = c
    · subst hbc
      simp at hb
    · have hb' : r.waking b = true := by simpa [hbc] using hb
      obtain ⟨q, hq⟩ := hr.waking b hb'
      exact ⟨q, (ht.pc_of_ne hbc).trans hq⟩
  · exact fun _ _ => rfl
  · simp [hpc]
  · intro q hq
    obtain rfl : p = q := by simpa [hpc] using hq
    exact hmark
  · intro q hq
    by_cases hqp : q = p
    · subst hqp
      exact iff_of_true (.inl hmark) (.inr ⟨c, hpc, hdone⟩)
    · apply LoadState.released_congr hr.tended h hq
      · simp [hpc, wokenOf]
      · simp [hpc, Ne.symm hqp]
      · exact fun b hb => Function.update_of_ne hb ..
      · simp

/-- A statement that does not touch the accounts. -/
theorem LoadOk.unseen (hr : LoadOk M r) (hready : r.ready c = true)
    (h : r.sched.step M c a = some (e, s')) (hd : ∀ p, r.sched.pc c ≠ .schedule (.deactivate p))
    (hw : wokenOf (r.sched.pc c) = none) (hk : ∀ p, r.sched.pc c ≠ .tryToWakeUp p .waking)
    (hsame : SameAccounts r r₁) (hnr : r₁.nrUninterruptible = r.nrUninterruptible)
    (hwk : r₁.waking = r.waking) (hother : ∀ b, b ≠ c → r₁.prevState b = r.prevState b)
    (hself : ∀ preempt q, r.sched.pc c = .schedule (.loadState preempt q) →
      r₁.prevState c = (r.sched.task q).state) : LoadOk M (r₁.setSched s') := by
  have hfalse : r.waking c = false := by
    by_contra hb
    obtain ⟨p, hp⟩ := hr.waking c (by simpa using hb)
    exact hk p hp
  apply hr.kept hready h hd hw hsame hnr
  · intro b hb
    rw [hwk] at hb
    obtain ⟨p, hp⟩ := hr.waking b hb
    have hbc : b ≠ c := by
      rintro rfl
      exact hk p hp
    exact ⟨p, ((State.step_transition h).pc_of_ne hbc).trans hp⟩
  · exact hother
  · exact hself
  · exact fun p hp => absurd hp (hk p)
  · intro p hp
    apply LoadState.released_congr hr.tended h hp
    · simp [hw]
    · exact hk p
    · exact fun b _ => congrFun hwk b
    · exact fun _ => (congrFun hwk c).trans hfalse

/-! ## Falling asleep -/

section Slept

variable (hr : LoadOk M r) (h : r.sched.step M c a = some (e, s'))
  (hpc : r.sched.pc c = .schedule (.deactivate p))

include hr h hpc

theorem LoadOk.asleep_slept (q : Tid) : s'.Asleep q ↔ q = p ∨ r.sched.Asleep q := by
  rw [State.step_asleep hr.tended h q, hpc]
  simp [wokenOf, eq_comm]

/-- A task that falls asleep has no waker yet. -/
theorem LoadOk.released_slept : ¬ LoadState.Released ((r.sleep c p).setSched s') p := by
  have hs' := State.step_of_deactivate h hpc
  have hcurr : p = (r.sched.rq c).curr := hr.tended.awake.ok.pcOk hpc
  rintro (hst | ⟨b, hb, hwb⟩)
  · have hplain := (hr.tended.awake.ok.curr_plain (hr.tended.awake.ok.phaseOk hpc)).1
    have hst' : (r.sched.task p).state = taskWaking := by
      simpa [hs', TaskStruct.deactivateTask] using hst
    rw [← hcurr] at hplain
    simp [TaskStruct.view, hst'] at hplain
  · have hbc : b ≠ c := by
      rintro rfl
      simp [hs'] at hb
    have hb' : r.sched.pc b = _ := ((State.step_transition h).pc_of_ne hbc).symm.trans hb
    have hq := (hr.tended.awake.ok.phaseOk hb').2.2
    apply hr.tended.not_asleep_of_deactivate hpc
    refine hr.tended.asleep_of_held (c := b) ?_ hq ?_
    · rw [hb']
      rfl
    · simp [hb', carriedOf]

theorem LoadOk.waitsForIo_slept (d : Cpu n) (q : Tid) :
    LoadState.WaitsForIo ((r.sleep c p).setSched s') d q ↔
      (q = p ∧ r.inIowait q = true ∧ d = c) ∨ r.WaitsForIo d q := by
  have hs' := State.step_of_deactivate h hpc
  have hasleep := hr.asleep_slept h hpc
  by_cases hq : q = p
  · subst hq
    have hcurr : q = (r.sched.rq c).curr := hr.tended.awake.ok.pcOk hpc
    have hno : ¬ r.WaitsForIo d q := fun hw =>
      hr.tended.not_asleep_of_deactivate hpc hw.asleep
    have hcpu : (s'.task q).cpu = c := by
      have hhome := hr.tended.awake.ok.cpu_curr c
      rw [← hcurr] at hhome
      simpa [hs', TaskStruct.deactivateTask] using hhome
    simp only [hno, or_false, true_and]
    constructor
    · intro hw
      exact ⟨hw.inIowait, hw.cpu.symm.trans hcpu⟩
    · rintro ⟨hio, rfl⟩
      exact ⟨(hasleep q).mpr (.inl rfl), hio, hcpu, hr.released_slept h hpc⟩
  · simp only [hq, false_and, false_or]
    apply LoadState.waitsForIo_congr hr.tended h
    · simp [hasleep, hq]
    · exact fun _ => rfl
    · intro hq'
      apply LoadState.released_congr hr.tended h hq'
      · simp [hpc, wokenOf]
      · simp [hpc]
      · exact fun _ _ => rfl
      · simp [hs']

theorem LoadOk.load_slept :
    Tally (∑ d, (r.sleep c p).nrUninterruptible d)
      (LoadState.Contributing ((r.sleep c p).setSched s')) := by
  have hasleep := hr.asleep_slept h hpc
  have hold : ¬ r.Contributing p := fun hp => hr.tended.not_asleep_of_deactivate hpc hp.1
  have hother : ∀ q, q ≠ p → (LoadState.Contributing ((r.sleep c p).setSched s') q ↔
      r.Contributing q) := by
    intro q hq
    simp [LoadState.Contributing, hasleep, hq, LoadState.sleep]
  cases hb : contributesToLoad (r.prevState c) (r.frozen p) with
  | true =>
      have hsum : ∑ d, (r.sleep c p).nrUninterruptible d = ∑ d, r.nrUninterruptible d + 1 := by
        apply sum_eq_add_of_entry (Finset.mem_univ c)
        · simp [LoadState.sleep, hb]
        · intro d hd
          simp [LoadState.sleep, hd]
      rw [hsum]
      apply hr.load.insert hold
      intro q
      by_cases hq : q = p
      · subst hq
        exact iff_of_true ⟨(hasleep q).mpr (.inl rfl), by simp [LoadState.sleep, hb]⟩ (.inl rfl)
      · rw [hother q hq, or_iff_right hq]
  | false =>
      have hsum : ∑ d, (r.sleep c p).nrUninterruptible d = ∑ d, r.nrUninterruptible d := by
        simp [LoadState.sleep, hb]
      rw [hsum]
      apply hr.load.congr
      intro q
      by_cases hq : q = p
      · subst hq
        refine iff_of_false (fun hp => ?_) hold
        simp [LoadState.sleep, hb, LoadState.Contributing] at hp
      · exact hother q hq

theorem LoadOk.iowait_slept (hnot : r.sleeping c = false) (d : Cpu n) :
    Tally (r.nrIowait d + LoadState.pendingIo ((r.sleep c p).setSched s') d)
      (LoadState.WaitsForIo ((r.sleep c p).setSched s') d) := by
  have hs' := State.step_of_deactivate h hpc
  have hcurr : p = (r.sched.rq c).curr := hr.tended.awake.ok.pcOk hpc
  have hwaits := hr.waitsForIo_slept h hpc d
  by_cases hdc : d = c
  · subst hdc
    have hpend : LoadState.pendingIo ((r.sleep d p).setSched s') d =
        if r.inIowait p then 1 else 0 := by
      simp [LoadState.pendingIo, LoadState.sleep, hs', hcurr]
    have hio := hr.iowait d
    have hzero : r.pendingIo d = 0 := by simp [LoadState.pendingIo, hnot]
    rw [hzero, add_zero] at hio
    rw [hpend]
    cases hb : r.inIowait p with
    | true =>
        apply hio.insert fun hw => hr.tended.not_asleep_of_deactivate hpc hw.asleep
        intro q
        rw [hwaits q]
        refine or_congr_left ⟨fun hq => hq.1, ?_⟩
        rintro rfl
        exact ⟨rfl, hb, rfl⟩
    | false =>
        rw [if_neg (by simp), add_zero]
        apply hio.congr
        intro q
        rw [hwaits q, or_iff_right]
        rintro ⟨rfl, hq, -⟩
        rw [hb] at hq
        cases hq
  · have hpend : LoadState.pendingIo ((r.sleep c p).setSched s') d = r.pendingIo d := by
      apply hr.pendingIo_congr h hdc
      · simp [LoadState.sleep, hdc]
      · exact fun _ _ => rfl
    rw [hpend]
    apply (hr.iowait d).congr
    intro q
    rw [hwaits q, or_iff_right]
    exact fun hq => hdc hq.2.2

/-- A task that falls asleep is counted in both accounts, in `nr_iowait` with what is still to
be done. -/
theorem LoadOk.slept (hready : r.ready c = true) : LoadOk M ((r.sleep c p).setSched s') := by
  have ht := State.step_transition h
  have hs' := State.step_of_deactivate h hpc
  have hasleep := hr.asleep_slept h hpc
  constructor
  · exact State.step_tended hr.tended h
  · intro b hb
    by_cases hbc : b = c
    · subst hbc
      exact ⟨p, .nvcsw, true, by simp [hs']⟩
    · have hb' : r.sleeping b = true := by simpa [LoadState.sleep, hbc] using hb
      obtain ⟨prev, sc, l, hpc'⟩ := hr.sleeping b hb'
      exact ⟨prev, sc, l, (ht.pc_of_ne hbc).trans hpc'⟩
  · intro b hb
    obtain ⟨q, hq⟩ := hr.waking b hb
    have hbc : b ≠ c := by
      rintro rfl
      simp [hpc] at hq
    exact ⟨q, (ht.pc_of_ne hbc).trans hq⟩
  · apply hr.prev_sched h
    · exact fun _ _ => rfl
    · simp [hpc]
  · intro q hq hst
    obtain rfl | hq' := (hasleep q).mp hq
    · have hstate : (s'.task q).state = r.prevState c := by
        simp [hs', TaskStruct.deactivateTask, hr.prev c q hpc]
      simp [LoadState.sleep, hstate]
    · have hqp : q ≠ p := by
        rintro rfl
        exact hr.tended.not_asleep_of_deactivate hpc hq'
      apply hr.flag_sched h hq' _ _ _ _ hst
      · simp [hpc, wokenOf]
      · simp [hpc]
      · rfl
      · simp [LoadState.sleep, hqp]
  · exact hr.load_slept h hpc
  · exact hr.iowait_slept h hpc (hr.sleeping_eq_false hready)

end Slept

/-! ## Waking up -/

/-- A task that wakes up is counted down in `nr_uninterruptible`, wherever it is activated. -/
theorem LoadOk.woken (hr : LoadOk M r) (hready : r.ready c = true)
    (h : r.sched.step M c a = some (e, s')) (hw : wokenOf (r.sched.pc c) = some p) (d : Cpu n) :
    LoadOk M ((r.activate d p).setSched s') := by
  have ht := State.step_transition h
  obtain ⟨hp, hmark⟩ := hr.tended.asleep_of_woken hw
  have hpc : ∀ k, wokenOf k = none → r.sched.pc c ≠ k := by
    rintro k hk rfl
    rw [hk] at hw
    cases hw
  have hasleep : ∀ q, s'.Asleep q ↔ q ≠ p ∧ r.sched.Asleep q := by
    intro q
    rw [State.step_asleep hr.tended h q, hw]
    simp [hpc _ (rfl : wokenOf (.schedule (.deactivate q)) = none), eq_comm]
  have hcontributing : ∀ q, LoadState.Contributing ((r.activate d p).setSched s') q ↔
      q ≠ p ∧ r.Contributing q := by
    intro q
    rw [LoadState.Contributing, LoadState.setSched_sched, hasleep, and_assoc]
    rfl
  constructor
  · exact State.step_tended hr.tended h
  · intro b hb
    obtain ⟨prev, sc, l, hpick⟩ := hr.sleeping b hb
    have hbc : b ≠ c := by
      rintro rfl
      exact hpc _ rfl hpick
    exact ⟨prev, sc, l, (ht.pc_of_ne hbc).trans hpick⟩
  · intro b hb
    obtain ⟨q, hq⟩ := hr.waking b hb
    have hbc : b ≠ c := by
      rintro rfl
      exact hpc _ rfl hq
    exact ⟨q, (ht.pc_of_ne hbc).trans hq⟩
  · apply hr.prev_sched h
    · exact fun _ _ => rfl
    · exact fun preempt q hload => absurd hload (hpc _ rfl)
  · intro q hq hst
    obtain ⟨hqp, hq'⟩ := (hasleep q).mp hq
    apply hr.flag_sched h hq' _ _ _ _ hst
    · simp [hw, Ne.symm hqp]
    · exact fun hk => absurd hk (hpc _ rfl)
    · rfl
    · rfl
  · rw [LoadState.setSched_nrUninterruptible]
    cases hb : r.contributes p with
    | true =>
        have hsum : ∑ b, (r.activate d p).nrUninterruptible b =
            ∑ b, r.nrUninterruptible b - 1 := by
          rw [sub_eq_add_neg]
          apply sum_eq_add_of_entry (Finset.mem_univ d)
          · simp [LoadState.activate, hb, sub_eq_add_neg]
          · intro b hbd
            simp [LoadState.activate, hbd]
        rw [hsum]
        exact hr.load.sub_one ⟨hp, hb⟩ hcontributing
    | false =>
        have hsum : ∑ b, (r.activate d p).nrUninterruptible b = ∑ b, r.nrUninterruptible b := by
          simp [LoadState.activate, hb]
        rw [hsum]
        apply hr.load.congr
        intro q
        rw [hcontributing, and_iff_right_iff_imp]
        rintro ⟨-, hq⟩ rfl
        rw [hb] at hq
        cases hq
  · intro b
    have hpend : LoadState.pendingIo ((r.activate d p).setSched s') b = r.pendingIo b := by
      apply hr.pendingIo_eq hready h
      · rfl
      · exact fun _ _ => rfl
    rw [hpend]
    apply (hr.iowait b).congr
    intro q
    by_cases hq : q = p
    · subst hq
      exact iff_of_false (fun hq => ((hasleep q).mp hq.asleep).1 rfl)
        fun hq => hq.waits (.inl hmark)
    · apply LoadState.waitsForIo_congr hr.tended h
      · simp [hasleep, hq]
      · exact fun _ => rfl
      · intro hq'
        apply LoadState.released_congr hr.tended h hq'
        · simp [hw, Ne.symm hq]
        · exact hpc _ rfl
        · exact fun _ _ => rfl
        · intro _
          by_contra hb
          have hb' : r.waking c = true := Bool.not_eq_false _ ▸ hb
          obtain ⟨q', hq'⟩ := hr.waking c hb'
          exact hpc _ rfl hq'

/-- The child of a `fork` takes no part in the accounts. -/
theorem LoadState.dupFlags_same {child : Tid} (ha : (r.sched.task child).allocated = false) :
    SameAccounts r (r.dupFlags c child) := by
  have hne : ∀ p, (r.sched.task p).allocated = true → p ≠ child := by
    rintro p hp rfl
    rw [ha] at hp
    cases hp
  refine ⟨fun p hp => ?_, fun p hp => ?_, fun p hp => ?_, rfl, rfl⟩
  · exact Function.update_of_ne (hne p hp) ..
  · exact Function.update_of_ne (hne p hp) ..
  · exact Function.update_of_ne (hne p hp) ..

/-- Every statement of the scheduler keeps the accounts in order. -/
theorem LoadOk.sched (hr : LoadOk M r) (hready : r.ready c = true)
    (h : r.sched.step M c a = some (e, s')) :
    LoadOk M ((r.account c (r.sched.pc c) a).setSched s') := by
  have hsame : SameAccounts r r := ⟨fun _ _ => rfl, fun _ _ => rfl, fun _ _ => rfl, rfl, rfl⟩
  unfold LoadState.account
  split
  next preempt prev hpc =>
    apply hr.unseen hready h
    · simp [hpc]
    · simp [hpc, wokenOf]
    · simp [hpc]
    · exact ⟨fun _ _ => rfl, fun _ _ => rfl, fun _ _ => rfl, rfl, rfl⟩
    · rfl
    · rfl
    · exact fun b hb => Function.update_of_ne hb ..
    · simp [hpc]
  next prev hpc => exact hr.slept h hpc hready
  next q hpc => exact hr.marked hready h hpc
  next q d hpc => exact hr.woken hready h (by rw [hpc]; rfl) d
  next q rest hpc => exact hr.woken hready h (by rw [hpc]; rfl) c
  next child thread hpc =>
    have ha : (r.sched.task child).allocated = false := by
      simp only [State.step, hpc, State.enterStep, State.fork] at h
      have hb := (State.when_eq_some.mp h).1
      simpa using (Bool.and_eq_true_iff.mp hb).2
    apply hr.unseen hready h
    · simp [hpc]
    · simp [hpc, wokenOf]
    · simp [hpc]
    · exact LoadState.dupFlags_same ha
    · rfl
    · rfl
    · exact fun _ _ => rfl
    · simp [hpc]
  next hload hsleep hmark hwoken hpend hfork =>
    apply hr.unseen hready h _ _ _ hsame rfl rfl
    · exact fun _ _ => rfl
    · exact fun preempt q hpc => absurd hpc (hload preempt q)
    · exact fun p hpc => hsleep p hpc
    · unfold wokenOf
      split
      next q d hpc => exact absurd hpc (hwoken q d)
      next q rest hpc => exact absurd hpc (hpend q rest)
      next => rfl
    · exact fun p hpc => hmark p hpc

/-! ## The tests of `in_iowait` -/

omit [DecidableEq Tid] in
theorem LoadState.waitsForIo_of_eq (hs : r₁.sched = r.sched) (hio : r₁.inIowait = r.inIowait)
    (hw : r₁.waking = r.waking) {d : Cpu n} : r₁.WaitsForIo d p ↔ r.WaitsForIo d p := by
  have hrel : r₁.Released p ↔ r.Released p := by rw [Released, hs, hw, Released]
  constructor
  · intro h
    exact ⟨hs ▸ h.asleep, hio ▸ h.inIowait, hs ▸ h.cpu, fun hr => h.waits (hrel.mpr hr)⟩
  · intro h
    exact ⟨hs ▸ h.asleep, hio ▸ h.inIowait, hs ▸ h.cpu, fun hr => h.waits (hrel.mp hr)⟩

/-- `__schedule` counts the sleep of its task in `nr_iowait`. -/
theorem LoadOk.incNrIowait (hr : LoadOk M r) {prev : Tid} {sc : SwitchCount} {l : Bool}
    (hpc : r.sched.pc c = .schedule (.pick prev sc l)) (hsl : r.sleeping c = true) :
    LoadOk M (r.incNrIowait c prev) := by
  obtain rfl : prev = (r.sched.rq c).curr := hr.tended.awake.ok.pcOk hpc
  refine { hr with sleeping := ?_, iowait := ?_ }
  · intro b hb
    by_cases hbc : b = c
    · subst hbc
      simp [LoadState.incNrIowait] at hb
    · exact hr.sleeping b (by simpa [LoadState.incNrIowait, hbc] using hb)
  · intro d
    -- what was still to be done is done
    have hsum : (r.incNrIowait c (r.sched.rq c).curr).nrIowait d +
        (r.incNrIowait c (r.sched.rq c).curr).pendingIo d = r.nrIowait d + r.pendingIo d := by
      by_cases hd : d = c
      · subst hd
        cases hb : r.inIowait (r.sched.rq d).curr <;>
          simp [LoadState.incNrIowait, LoadState.pendingIo, hsl, hb]
      · simp [LoadState.incNrIowait, LoadState.pendingIo, hd]
    rw [hsum]
    apply (hr.iowait d).congr
    intro q
    apply LoadState.waitsForIo_of_eq <;> rfl

/-- A task counted down is released, and no other one. -/
theorem LoadState.released_decNrIowait {q : Tid} (hpc : r.sched.pc c = .tryToWakeUp p .waking) :
    (r.decNrIowait c p).Released q ↔ q = p ∨ r.Released q := by
  by_cases hq : q = p
  · subst hq
    exact iff_of_true (.inr ⟨c, hpc, Function.update_self ..⟩) (.inl rfl)
  · rw [or_iff_right hq]
    refine or_congr_right (exists_congr fun b => and_congr_right fun hb => ?_)
    have hbc : b ≠ c := by
      rintro rfl
      have hb' : r.sched.pc b = .tryToWakeUp q .waking := hb
      rw [hpc] at hb'
      exact hq (by simpa using hb'.symm)
    simp [decNrIowait, hbc]

theorem LoadState.waitsForIo_decNrIowait {q : Tid} {d : Cpu n}
    (hpc : r.sched.pc c = .tryToWakeUp p .waking) :
    (r.decNrIowait c p).WaitsForIo d q ↔ q ≠ p ∧ r.WaitsForIo d q := by
  constructor
  · intro hw
    have hno := not_or.mp fun hrel => hw.waits ((released_decNrIowait hpc).mpr hrel)
    exact ⟨hno.1, hw.asleep, hw.inIowait, hw.cpu, hno.2⟩
  · rintro ⟨hq, hw⟩
    refine ⟨hw.asleep, hw.inIowait, hw.cpu, fun hrel => ?_⟩
    exact ((released_decNrIowait hpc).mp hrel).elim hq hw.waits

/-- Nobody has released a task that a waker is about to count down. -/
theorem LoadOk.not_released (hr : LoadOk M r) (hpc : r.sched.pc c = .tryToWakeUp p .waking)
    (hwk : r.waking c = false) : ¬ r.Released p := by
  have hheld : (phaseOf (r.sched.pc c)).held = some p := by rw [hpc]; rfl
  rintro (hst | ⟨b, hb, hwb⟩)
  · have hw : (r.sched.view.task p).waking = false := (hr.tended.awake.ok.phaseOk hpc).2.1
    simp [State.view, TaskStruct.view, hst] at hw
  · have hheld' : (phaseOf (r.sched.pc b)).held = some p := by rw [hb]; rfl
    obtain rfl : b = c := hr.tended.awake.ok.custody.held_unique b c p hheld' hheld
    rw [hwk] at hwb
    cases hwb

/-- A waker counts its task down on the CPU it sleeps on. -/
theorem LoadOk.decNrIowait (hr : LoadOk M r) (hpc : r.sched.pc c = .tryToWakeUp p .waking)
    (hwk : r.waking c = false) : LoadOk M (r.decNrIowait c p) := by
  have hheld : (phaseOf (r.sched.pc c)).held = some p := by rw [hpc]; rfl
  have hp : r.sched.Asleep p := hr.tended.asleep_of_held hheld
    (hr.tended.awake.ok.phaseOk hpc).2.2 (by simp [hpc, carriedOf])
  refine { hr with waking := ?_, iowait := ?_ }
  · intro b hb
    by_cases hbc : b = c
    · exact ⟨p, hbc ▸ hpc⟩
    · exact hr.waking b (by simpa [LoadState.decNrIowait, hbc] using hb)
  · intro d
    have hiff := fun q => LoadState.waitsForIo_decNrIowait (q := q) (d := d) hpc
    by_cases hio : r.WaitsForIo d p
    · have hval : (r.decNrIowait c p).nrIowait d + (r.decNrIowait c p).pendingIo d =
          r.nrIowait d + r.pendingIo d - 1 := by
        have hnr : (r.decNrIowait c p).nrIowait d = r.nrIowait d - 1 := by
          simp [LoadState.decNrIowait, hio.cpu, hio.inIowait]
        rw [hnr]
        exact sub_add_eq_add_sub ..
      rw [hval]
      exact (hr.iowait d).sub_one hio hiff
    · have hval : (r.decNrIowait c p).nrIowait d = r.nrIowait d := by
        by_cases hd : d = (r.sched.task p).cpu
        · have hb : r.inIowait p = false := by
            by_contra hb
            exact hio ⟨hp, by simpa using hb, hd.symm, hr.not_released hpc hwk⟩
          simp [LoadState.decNrIowait, hb]
        · simp [LoadState.decNrIowait, hd]
      rw [hval]
      apply (hr.iowait d).congr
      intro q
      rw [hiff q, and_iff_right_iff_imp]
      rintro hw rfl
      exact hio hw

/-- A task sets its own `in_iowait`. -/
theorem LoadOk.setInIowait (hr : LoadOk M r) (hpc : r.sched.pc c = .running) (v : Bool)
    (rest : List Bool) : LoadOk M (r.setInIowait (r.sched.current c) v rest) := by
  have hcurr : ¬ r.sched.Asleep (r.sched.rq c).curr :=
    hr.tended.not_asleep_curr (by rw [hpc]; rfl)
  have hio : ∀ p, p ≠ (r.sched.rq c).curr →
      (r.setInIowait (r.sched.current c) v rest).inIowait p = r.inIowait p :=
    fun p hp => Function.update_of_ne hp ..
  refine { hr with iowait := ?_ }
  intro d
  have hpend : (r.setInIowait (r.sched.current c) v rest).pendingIo d = r.pendingIo d := by
    by_cases hd : d = c
    · subst hd
      have hno : r.sleeping d = false := by
        by_contra hb
        obtain ⟨prev, sc, l, hpick⟩ := hr.sleeping d (by simpa using hb)
        simp [hpc] at hpick
      simp [LoadState.pendingIo, LoadState.setInIowait, hno]
    · have hne : (r.sched.rq d).curr ≠ (r.sched.rq c).curr := fun he =>
        hd (hr.tended.awake.ok.curr_injective he)
      have hsame : Function.update r.inIowait (r.sched.current c) v (r.sched.rq d).curr =
          r.inIowait (r.sched.rq d).curr := hio _ hne
      simp [LoadState.pendingIo, LoadState.setInIowait, hsame]
  rw [hpend]
  apply (hr.iowait d).congr
  intro p
  by_cases hp : p = (r.sched.rq c).curr
  · subst hp
    exact iff_of_false (fun hw => hcurr hw.asleep) fun hw => hcurr hw.asleep
  · constructor
    · exact fun hw => ⟨hw.asleep, (hio p hp).symm.trans hw.inIowait, hw.cpu, hw.waits⟩
    · exact fun hw => ⟨hw.asleep, (hio p hp).trans hw.inIowait, hw.cpu, hw.waits⟩

/-- A task freezes or thaws itself. -/
theorem LoadOk.setFrozen (hr : LoadOk M r) (hpc : r.sched.pc c = .running) (b : Bool) :
    LoadOk M { r with frozen := Function.update r.frozen (r.sched.current c) b } := by
  have hcurr : ¬ r.sched.Asleep (r.sched.rq c).curr :=
    hr.tended.not_asleep_curr (by rw [hpc]; rfl)
  refine { hr with flag := ?_, iowait := ?_ }
  · intro p hp hst
    have hne : p ≠ (r.sched.rq c).curr := by
      rintro rfl
      exact hcurr hp
    have hsame : Function.update r.frozen (r.sched.current c) b p = r.frozen p :=
      Function.update_of_ne hne ..
    dsimp only
    rw [hsame]
    exact hr.flag p hp hst
  · intro d
    apply (hr.iowait d).congr
    intro q
    apply LoadState.waitsForIo_of_eq <;> rfl

/-! ## Whole runs -/

section Runs

variable {r r' : LoadState Tid n}

theorem LoadSteps.ok (h : LoadSteps M r e r') (hr : LoadOk M r) : LoadOk M r' := by
  obtain ⟨c, a, hstep⟩ := h
  unfold LoadState.step at hstep
  split at hstep
  next a =>
    split at hstep
    next hready =>
      obtain ⟨⟨e', s'⟩, hs, hx⟩ := Option.map_eq_some_iff.mp hstep
      obtain ⟨rfl, rfl⟩ := Prod.mk.inj hx
      exact hr.sched hready hs
    next => cases hstep
  next =>
    split at hstep
    next prev sc l hpc hsl =>
      obtain ⟨rfl, rfl⟩ := Prod.mk.inj (Option.some.inj hstep)
      exact hr.incNrIowait hpc hsl
    next => cases hstep
  next =>
    split at hstep
    next p hpc hwk =>
      obtain ⟨rfl, rfl⟩ := Prod.mk.inj (Option.some.inj hstep)
      exact hr.decNrIowait hpc hwk
    next => cases hstep
  next =>
    split at hstep
    next hpc =>
      obtain ⟨rfl, rfl⟩ := Prod.mk.inj (Option.some.inj hstep)
      exact hr.setInIowait hpc true _
    next => cases hstep
  next =>
    dsimp only at hstep
    split at hstep
    next token rest hpc _ =>
      obtain ⟨rfl, rfl⟩ := Prod.mk.inj (Option.some.inj hstep)
      exact hr.setInIowait hpc token rest
    next => cases hstep
  next b =>
    split at hstep
    next hpc =>
      obtain ⟨rfl, rfl⟩ := Prod.mk.inj (Option.some.inj hstep)
      exact hr.setFrozen hpc b
    next => cases hstep

theorem boot_not_asleep : ¬ (boot M c₀).Asleep p := by
  intro hp
  exact hp.not_running rfl

theorem bootLoad_ok : LoadOk M (bootLoad M c₀) where
  tended := boot_tended
  sleeping := fun c hc => by cases hc
  waking := fun c hc => by cases hc
  prev := fun c p hpc => by cases hpc
  flag := fun p hp => absurd hp boot_not_asleep
  load := by
    have hsum : ∑ c, (bootLoad M c₀).nrUninterruptible c = 0 := Finset.sum_eq_zero fun c _ => rfl
    rw [hsum]
    exact .zero fun p hp => boot_not_asleep hp.1
  iowait := fun c => .zero fun p hp => boot_not_asleep hp.asleep

theorem run_loadOk (h : Run (LoadSteps M) (bootLoad M c₀) es r) : LoadOk M r :=
  h.invariant (fun _ _ _ hr hstep => hstep.ok hr) bootLoad_ok

/-- `nr_uninterruptible`, summed over all CPUs, is the number of sleeping tasks that contribute
to the load, wherever they went to sleep and wherever others woke up. Those that nobody wakes
are the ones in uninterruptible sleep, but for frozen ones and those marked with
`TASK_NOLOAD`. -/
theorem load_exact (h : Run (LoadSteps M) (bootLoad M c₀) es r) :
    (∃ T : Finset Tid, (∀ p, p ∈ T ↔ r.sched.Asleep p ∧ r.contributes p = true) ∧
        ∑ c, r.nrUninterruptible c = T.card) ∧
      ∀ p, r.sched.Asleep p → (r.sched.task p).state ≠ taskWaking →
        r.contributes p = contributesToLoad (r.sched.task p).state (r.frozen p) :=
  ⟨(run_loadOk h).load, (run_loadOk h).flag⟩

end Runs

/-- Task 10 goes to sleep on CPU 0 to wait for I/O. -/
def sleepOnIo : List (Cpu 2 × LoadAction ℕ 2) :=
  (forkAndRun.map fun (c, a) => (c, .sched a)) ++
    (0, .ioSchedulePrepare) :: (0, .sched (.setCurrentState taskUninterruptible)) ::
    (0, .sched (.schedule false)) :: (0, .sched (.signalPending false)) :: (0, .sched .next) ::
    (0, .incNrIowait) :: (0, .sched (.pick 0)) :: List.replicate 8 (0, .sched .next)

/-- Task 10 is the only one that contributes to the load. -/
theorem load_exact_sleepOnIo :
    let r := afterLoad sleepOnIo
    ∑ c, r.nrUninterruptible c = 1 ∧
      (∃ T : Finset ℕ, (∀ p, p ∈ T ↔ r.sched.Asleep p ∧ r.contributes p = true) ∧
        ∑ c, r.nrUninterruptible c = T.card) ∧
      ∀ p, r.sched.Asleep p → (r.sched.task p).state ≠ taskWaking →
        r.contributes p = contributesToLoad (r.sched.task p).state (r.frozen p) := by
  have h : Run (LoadSteps twoCpus) (bootLoad twoCpus 0) _ (afterLoad sleepOnIo) :=
    lastState_run (fun _ x _ _ h => ⟨x.1, x.2, h⟩) rfl
  have hsum : ∑ c, (afterLoad sleepOnIo).nrUninterruptible c = 1 := by
    decide +kernel
  exact ⟨hsum, load_exact h⟩

section Runs

variable {r : LoadState Tid n}

/-- `nr_iowait` of a CPU is the number of tasks that sleep there to wait for I/O and that no
waker has counted down, less the sleep that `__schedule` is about to count. -/
theorem iowait_exact (h : Run (LoadSteps M) (bootLoad M c₀) es r) (c : Cpu n) :
    ∃ T : Finset Tid, (∀ p, p ∈ T ↔ r.WaitsForIo c p) ∧
      r.nrIowait c + r.pendingIo c = T.card :=
  (run_loadOk h).iowait c

end Runs

/-- CPU 1 begins to wake task 10, and counts it down. -/
def beginIoWaking : List (Cpu 2 × LoadAction ℕ 2) :=
  (1, .sched (.tryToWakeUp 10 taskUninterruptible)) :: (1, .sched .next) :: (1, .sched .next) ::
    [(1, .decNrIowait)]

/-- Task 10 still sleeps on CPU 0, but it is released. -/
theorem iowait_exact_beginIoWaking :
    let r := afterLoad (sleepOnIo ++ beginIoWaking)
    r.nrIowait 0 = 0 ∧ ∃ T : Finset ℕ, (∀ p, p ∈ T ↔ r.WaitsForIo 0 p) ∧
      r.nrIowait 0 + r.pendingIo 0 = T.card := by
  have h : Run (LoadSteps twoCpus) (bootLoad twoCpus 0) _
      (afterLoad (sleepOnIo ++ beginIoWaking)) :=
    lastState_run (fun _ x _ _ h => ⟨x.1, x.2, h⟩) rfl
  exact ⟨by decide +kernel, iowait_exact h 0⟩

end LinuxOs2022.Scheduler
