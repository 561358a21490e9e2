import LinuxOs2022.Library.Sums
import LinuxOs2022.Scheduler.ContextSwitch

/-!
# References to address spaces

Every CPU always runs in an address space that is alive, and `mm_count` is the number of
references: those of the rest of the kernel, and for each CPU the one that its kernel thread
has borrowed, the one in `rq->prev_mm` and the one that `finish_task_switch` is about to
drop. So no address space is freed in use, and none that nobody uses is kept.
-/

namespace LinuxOs2022.Scheduler

open Custody Library

variable {Tid Mm : Type} [DecidableEq Tid] [DecidableEq Mm] {n : ℕ} {M : Machine Tid n}
  {r r' : MmState Tid Mm n} {c : Cpu n} {e : Event Tid n} {p : Tid} {m : Mm}

namespace MmState

/-! ## What a CPU runs, and the references it has -/

/-- The task whose address space is loaded: until `context_switch` that is the old one. -/
def runner (r : MmState Tid Mm n) (c : Cpu n) : Tid :=
  match phaseOf (r.sched.pc c), r.stage c with
  | .entering prev, _ => prev
  | .finishing prev, .outside => prev
  | _, _ => (r.sched.rq c).curr

/-- The address space that the kernel thread of a CPU has borrowed. -/
def borrowed (r : MmState Tid Mm n) (c : Cpu n) : Option Mm :=
  if (r.mm (r.runner c)).isNone then r.activeMm (r.runner c) else none

/-- The references of a CPU to an address space. -/
def claims (r : MmState Tid Mm n) (m : Mm) (c : Cpu n) : ℕ :=
  (if r.borrowed c = some m then 1 else 0) + (if r.prevMm c = some m then 1 else 0) +
    (if (r.stage c).mm = some m then 1 else 0)

/-- All references to an address space. -/
def refs (r : MmState Tid Mm n) (m : Mm) : ℕ := r.held m + ∑ c, r.claims m c

/-- Where the scheduler is at each stage of a switch. -/
def StageOk (r : MmState Tid Mm n) (c : Cpu n) : Stage Tid Mm → Prop
  | .outside => True
  | .switched => ∃ prev, r.sched.pc c = .schedule (.finishTask prev)
  | .finishing prev _ _ => r.sched.pc c = .schedule (.finishTask prev) ∨
      r.sched.pc c = .schedule .unlock ∨ ∀ k, r.sched.pc c ≠ .schedule k

end MmState

open MmState

/-- The scheduler is in order, and so are the address spaces of its tasks. -/
structure MmOk (M : Machine Tid n) (r : MmState Tid Mm n) : Prop where
  awake : Awake M r.sched
  stage : ∀ c, r.StageOk c (r.stage c)
  prevMm : ∀ c, r.stage c ≠ .switched → r.prevMm c = none
  /-- A CPU runs in an address space, its task's own one if it has one. -/
  active : ∀ c, ∃ m, r.activeMm (r.runner c) = some m ∧
    (r.mm (r.runner c) = none ∨ r.mm (r.runner c) = some m)
  /-- A task that no CPU runs has borrowed nothing. -/
  resting : ∀ p, (∀ c, r.runner c ≠ p) → r.activeMm p = r.mm p
  unused : ∀ p, (r.sched.task p).allocated = false → r.mm p = none
  users : ∀ p m, p ∈ r.users m ↔ r.mm p = some m
  held : ∀ m, (r.users m).Nonempty → 0 < r.held m
  counter : ∀ m, (r.counter m).Counts (r.refs m)

/-! ## Consequences -/

omit [DecidableEq Tid] [DecidableEq Mm] in
theorem MmState.runner_occupies (r : MmState Tid Mm n) (c : Cpu n) :
    r.sched.view.Occupies c (r.runner c) := by
  unfold runner
  split
  next prev hph => exact .inr (.inl hph)
  next prev hph _ => exact .inr (.inr hph)
  next => exact .inl rfl

namespace MmOk

omit [DecidableEq Mm] in
/-- No task runs on two CPUs. -/
theorem runner_unique [DecidableEq Mm] (hr : MmOk M r) {b : Cpu n}
    (h : r.runner b = r.runner c) : b = c :=
  hr.awake.ok.custody.occupies_unique (r.runner_occupies b) (h ▸ r.runner_occupies c)

/-- The address space of a task is referred to. -/
theorem refs_pos_of_mm (hr : MmOk M r) (h : r.mm p = some m) : 0 < r.held m :=
  hr.held m ⟨p, (hr.users p m).mpr h⟩

/-- The address space that a CPU runs in is referred to. -/
theorem refs_pos_of_active (hr : MmOk M r) (h : r.activeMm (r.runner c) = some m) :
    0 < r.refs m := by
  obtain ⟨a, ha, hmm⟩ := hr.active c
  obtain rfl : m = a := Option.some.inj (h.symm.trans ha)
  obtain hnone | hsome := hmm
  · have hclaim : 0 < r.claims m c := by simp [claims, borrowed, hnone, ha]
    have hsum := Finset.single_le_sum (f := r.claims m) (fun _ _ => Nat.zero_le _)
      (Finset.mem_univ c)
    unfold refs
    omega
  · have hheld := hr.refs_pos_of_mm hsome
    unfold refs
    omega

end MmOk

omit [DecidableEq Tid] in
/-- When one CPU takes or gives up references, so many more or fewer there are. -/
theorem MmState.refs_add_claims (hheld : r'.held m = r.held m)
    (hother : ∀ b, b ≠ c → r'.claims m b = r.claims m b) :
    r'.refs m + r.claims m c = r.refs m + r'.claims m c := by
  have hsum := sum_add_eq_sum_add (Finset.mem_univ c) hother
  unfold refs
  rw [hheld, add_assoc, hsum, add_assoc]

omit [DecidableEq Tid] [DecidableEq Mm] in
theorem MmState.borrowed_congr (hrun : r'.runner c = r.runner c)
    (hmm : r'.mm (r.runner c) = r.mm (r.runner c))
    (ha : r'.activeMm (r.runner c) = r.activeMm (r.runner c)) : r'.borrowed c = r.borrowed c := by
  unfold borrowed
  rw [hrun, hmm, ha]

omit [DecidableEq Tid] in
theorem MmState.claims_congr (hb : r'.borrowed c = r.borrowed c)
    (hp : r'.prevMm c = r.prevMm c) (hs : (r'.stage c).mm = (r.stage c).mm) :
    r'.claims m c = r.claims m c := by
  unfold claims
  rw [hb, hp, hs]

omit [DecidableEq Tid] in
theorem MmState.refs_congr (hheld : r'.held m = r.held m)
    (hc : ∀ b, r'.claims m b = r.claims m b) : r'.refs m = r.refs m := by
  unfold refs
  rw [hheld, Finset.sum_congr rfl fun b _ => hc b]

/-! ## Steps of the scheduler -/

omit [DecidableEq Mm] in
/-- `on_cpu` is cleared after the loads of `finish_task_switch`. -/
theorem MmState.ready_finishTask {a : Action Tid n} {prev : Tid} {x : Event Tid n × State Tid n}
    (h : r.ready c a = true) (hstep : r.sched.step M c a = some x)
    (hpc : r.sched.pc c = .schedule (.finishTask prev)) :
    ∃ q v y, r.stage c = .finishing q v y := by
  cases a with
  | next =>
      unfold ready at h
      simp only [hpc] at h
      split at h
      next q v y _ hk => exact ⟨q, v, y, hk⟩
      next => cases h
      next => simp_all
  | _ => simp [State.step, hpc, State.scheduleStep] at hstep

omit [DecidableEq Tid] [DecidableEq Mm] in
/-- Nothing calls `__schedule` inside `finish_task_switch`. -/
theorem MmState.ready_schedule {preempt : Bool} (h : r.ready c (.schedule preempt) = true) :
    r.stage c = .outside ∧
      (preempt = true → (r.sched.task (r.sched.rq c).curr).state ≠ taskDead) := by
  unfold ready at h
  simp only at h
  split at h
  next hk =>
    refine ⟨hk, ?_⟩
    rintro rfl
    simpa [State.current] using h
  next => cases h

/-- A statement of the scheduler is executed for the same task as before. -/
theorem MmOk.runner_sched (hr : MmOk M r) {s' : State Tid n}
    (ht : Transition M r.sched c e s')
    (hfin : ∀ prev, r.sched.pc c = .schedule (.finishTask prev) →
      ∃ q v x, r.stage c = .finishing q v x) (b : Cpu n) :
    { r with sched := s' }.runner b = r.runner b := by
  by_cases hb : b = c
  · subst hb
    have hst := hr.stage b
    cases ht with
    | curr prev next sc hpc =>
        have hprev : prev = (r.sched.rq b).curr := hr.awake.ok.pcOk hpc
        simp [runner, hpc, phaseOf, hprev]
    | prepareTask prev next hpc =>
        have hout : r.stage b = .outside := by
          cases hk : r.stage b with
          | outside => rfl
          | switched => simp [hk, StageOk, hpc] at hst
          | finishing q v x => simp [hk, StageOk, hpc] at hst
        simp [runner, hpc, phaseOf, hout]
    | finishTask prev hpc =>
        obtain ⟨q, v, x, hk⟩ := hfin prev hpc
        simp [runner, hpc, phaseOf, hk]
    | loadBalance q src dest hpc hq hn hl => rfl
    | pushOnCpu q hpc hd =>
        simp [runner, hpc, phaseOf, State.pushWakeList, hd.symm]
    | pushQueue q d hpc hd =>
        simp [runner, hpc, phaseOf, State.pushWakeList, hd.symm]
    | loadRq q caller hpc => cases caller <;> simp [runner, hpc, phaseOf]
    | lockRq q caller d hpc hl => cases caller <;> simp [runner, hpc, phaseOf]
    | lockRetry q caller d hpc hc => cases caller <;> simp [runner, hpc, phaseOf]
    | _ =>
        have hpc := ‹r.sched.pc b = _›
        simp [runner, hpc, phaseOf]
  · simp only [runner, ht.pc_of_ne hb, ht.curr_of_ne hb]

section Sched

variable {s' : State Tid n} {a : Action Tid n}

/-- A step of the scheduler keeps the stages of the switches in order. -/
theorem MmOk.stage_sched (hr : MmOk M r) (hstep : r.sched.step M c a = some (e, s'))
    (hfin : ∀ prev, r.sched.pc c = .schedule (.finishTask prev) →
      ∃ q v y, r.stage c = .finishing q v y)
    (hcall : ∀ preempt, a = .schedule preempt → r.stage c = .outside) (b : Cpu n) :
    { r with sched := s' }.StageOk b (r.stage b) := by
  have ht := State.step_transition hstep
  have hst := hr.stage b
  by_cases hb : b = c
  · subst hb
    cases hk : r.stage b with
    | outside => trivial
    | switched =>
        rw [hk] at hst
        obtain ⟨prev, hpc⟩ := hst
        obtain ⟨q, v, y, hfin⟩ := hfin prev hpc
        rw [hk] at hfin
        cases hfin
    | finishing prev v y =>
        rw [hk] at hst
        obtain hpc | hpc | hpc := hst
        · have heq := ht.scheduleStep_eq hpc rfl
          obtain ⟨-, rfl⟩ := Prod.mk.inj (Option.some.inj heq)
          exact .inr (.inl (by simp))
        · have heq := ht.scheduleStep_eq hpc rfl
          obtain ⟨-, rfl⟩ := Prod.mk.inj (Option.some.inj heq)
          exact .inr (.inr (by simp))
        · obtain ⟨preempt, ha, -⟩ | hpc' := State.step_pc hpc hstep
          · have hout := hcall preempt ha
            rw [hk] at hout
            cases hout
          · exact .inr (.inr hpc')
  · unfold StageOk at hst ⊢
    simpa only [ht.pc_of_ne hb] using hst

/-- A statement of the scheduler leaves the address spaces alone. -/
theorem MmOk.sched (hr : MmOk M r) (hstep : r.sched.step M c a = some (e, s'))
    (hfin : ∀ prev, r.sched.pc c = .schedule (.finishTask prev) →
      ∃ q v y, r.stage c = .finishing q v y)
    (hcall : ∀ preempt, a = .schedule preempt → r.stage c = .outside) :
    MmOk M { r with sched := s' } := by
  have ht := State.step_transition hstep
  have hrun : { r with sched := s' }.runner = r.runner := funext (hr.runner_sched ht hfin)
  constructor
  · exact Steps.awake ⟨c, a, hstep⟩ hr.awake
  · exact hr.stage_sched hstep hfin hcall
  · exact hr.prevMm
  · rw [hrun]
    exact hr.active
  · rw [hrun]
    exact hr.resting
  · intro p hp
    apply hr.unused p
    by_contra hal
    have hal' := ht.allocated (Bool.eq_true_of_not_eq_false hal)
    rw [hp] at hal'
    cases hal'
  · exact hr.users
  · exact hr.held
  · intro m
    refine (hr.counter m).congr (refs_congr rfl fun b => claims_congr ?_ rfl rfl)
    exact borrowed_congr (congrFun hrun b) rfl rfl

end Sched

/-! ## The switch -/

/-- Where the switch of an address space finds the old task and the new one. -/
structure Switching (M : Machine Tid n) (r : MmState Tid Mm n) (c : Cpu n) (prev next : Tid) :
    Prop where
  runner : r.runner c = prev
  next_eq : next = (r.sched.rq c).curr
  ne : prev ≠ next
  resting : ∀ b, r.runner b ≠ next
  activeMm : r.activeMm next = r.mm next

theorem MmOk.switching (hr : MmOk M r) {prev : Tid}
    (hpc : r.sched.pc c = .schedule (.finishTask prev)) (hst : r.stage c = .outside) :
    Switching M r c prev (r.sched.rq c).curr := by
  have hrun : r.runner c = prev := by simp [runner, hpc, phaseOf, hst]
  have hne : prev ≠ (r.sched.rq c).curr := (hr.awake.ok.phaseOk hpc).2
  have hrest : ∀ b, r.runner b ≠ (r.sched.rq c).curr := by
    intro b hb
    have hocc := r.runner_occupies b
    rw [hb] at hocc
    obtain rfl : b = c := hr.awake.ok.custody.occupies_unique hocc (.inl rfl)
    exact hne (hrun.symm.trans hb)
  exact ⟨hrun, rfl, hne, hrest, hr.resting _ hrest⟩

/-- What every switch comes to: the new task runs in `a`, and the old one has borrowed
nothing any more. -/
structure Lent (r r' : MmState Tid Mm n) (c : Cpu n) (prev next : Tid) (a : Mm) : Prop where
  sched : r'.sched = r.sched
  stage : r'.stage = Function.update r.stage c .switched
  mm : r'.mm = r.mm
  users : r'.users = r.users
  held : r'.held = r.held
  prevMm : ∀ b, b ≠ c → r'.prevMm b = r.prevMm b
  activeNext : r'.activeMm next = some a
  mmNext : r.mm next = none ∨ r.mm next = some a
  activePrev : r'.activeMm prev = r.mm prev
  activeOther : ∀ q, q ≠ prev → q ≠ next → r'.activeMm q = r.activeMm q

section Lent

variable {prev next : Tid} {a : Mm}

omit [DecidableEq Tid] [DecidableEq Mm] in
theorem Lent.runner_self (hl : Lent r r' c prev next a) (hsw : Switching M r c prev next)
    (hpc : r.sched.pc c = .schedule (.finishTask prev)) : r'.runner c = next := by
  rw [hsw.next_eq]
  simp [runner, hl.sched, hpc, phaseOf, hl.stage]

omit [DecidableEq Tid] [DecidableEq Mm] in
theorem Lent.runner_other (hl : Lent r r' c prev next a) {b : Cpu n} (hb : b ≠ c) :
    r'.runner b = r.runner b := by
  simp [runner, hl.sched, hl.stage, hb]

/-- The other CPUs run in the address spaces that they ran in. -/
theorem Lent.activeMm_other (hl : Lent r r' c prev next a) (hr : MmOk M r)
    (hsw : Switching M r c prev next) {b : Cpu n} (hb : b ≠ c) :
    r'.activeMm (r.runner b) = r.activeMm (r.runner b) := by
  apply hl.activeOther _ _ (hsw.resting b)
  intro he
  exact hb (hr.runner_unique (he.trans hsw.runner.symm))

theorem Lent.claims_other (hl : Lent r r' c prev next a) (hr : MmOk M r)
    (hsw : Switching M r c prev next) {b : Cpu n} (hb : b ≠ c) :
    r'.claims m b = r.claims m b := by
  apply claims_congr
  · exact borrowed_congr (hl.runner_other hb) (by rw [hl.mm]) (hl.activeMm_other hr hsw hb)
  · exact hl.prevMm b hb
  · rw [hl.stage, Function.update_of_ne hb]

omit [DecidableEq Tid] in
/-- The references of the CPU that switches. -/
theorem Lent.claims_self (hl : Lent r r' c prev next a) (hsw : Switching M r c prev next)
    (hpc : r.sched.pc c = .schedule (.finishTask prev)) : r'.claims m c =
      (if r.mm next = none ∧ a = m then 1 else 0) +
        (if r'.prevMm c = some m then 1 else 0) := by
  unfold claims borrowed
  rw [hl.runner_self hsw hpc, hl.mm, hl.activeNext, hl.stage, Function.update_self]
  cases hmm : r.mm next with
  | none => simp [Stage.mm]
  | some b => simp [Stage.mm]

theorem MmOk.lent (hr : MmOk M r) (hl : Lent r r' c prev next a)
    (hsw : Switching M r c prev next) (hpc : r.sched.pc c = .schedule (.finishTask prev))
    (hcounter : ∀ m, (r'.counter m).Counts (r'.refs m)) : MmOk M r' := by
  have hrunc := hl.runner_self hsw hpc
  constructor
  · rw [hl.sched]
    exact hr.awake
  · intro b
    by_cases hb : b = c
    · subst hb
      rw [hl.stage, Function.update_self]
      exact ⟨prev, by rw [hl.sched, hpc]⟩
    · have hst := hr.stage b
      rw [hl.stage, Function.update_of_ne hb]
      unfold StageOk at hst ⊢
      rwa [hl.sched]
  · intro b hk
    by_cases hb : b = c
    · subst hb
      rw [hl.stage, Function.update_self] at hk
      exact absurd rfl hk
    · rw [hl.stage, Function.update_of_ne hb] at hk
      rw [hl.prevMm b hb]
      exact hr.prevMm b hk
  · intro b
    by_cases hb : b = c
    · subst hb
      rw [hrunc, hl.mm]
      exact ⟨a, hl.activeNext, hl.mmNext⟩
    · rw [hl.runner_other hb, hl.mm, hl.activeMm_other hr hsw hb]
      exact hr.active b
  · intro q hq
    rw [hl.mm]
    by_cases hqp : q = prev
    · rw [hqp, hl.activePrev]
    · have hqn : q ≠ next := fun he => hq c (hrunc.trans he.symm)
      rw [hl.activeOther q hqp hqn]
      apply hr.resting q
      intro b he
      by_cases hb : b = c
      · rw [hb, hsw.runner] at he
        exact hqp he.symm
      · exact hq b ((hl.runner_other hb).trans he)
  · rw [hl.sched, hl.mm]
    exact hr.unused
  · rw [hl.users, hl.mm]
    exact hr.users
  · rw [hl.users, hl.held]
    exact hr.held
  · exact hcounter

end Lent

/-- `context_switch` finds an address space to lend, and lends it. -/
theorem MmOk.contextSwitch (hr : MmOk M r) {prev : Tid}
    (hpc : r.sched.pc c = .schedule (.finishTask prev)) (hst : r.stage c = .outside) :
    ∃ r₁, r.contextSwitch c prev (r.sched.rq c).curr = some r₁ ∧
      MmOk M (r₁.setStage c .switched) := by
  have hsw := hr.switching hpc hst
  generalize (r.sched.rq c).curr = next at hsw ⊢
  obtain ⟨a, ha, hmm⟩ := hr.active c
  rw [hsw.runner] at ha hmm
  have hnp : next ≠ prev := hsw.ne.symm
  have hprevMm : r.prevMm c = none := hr.prevMm c (by simp [hst])
  -- the references before the switch
  have hclaims : ∀ m, r.claims m c = if r.mm prev = none ∧ a = m then 1 else 0 := by
    intro m
    unfold claims borrowed
    rw [hsw.runner, hprevMm, hst, ha]
    cases r.mm prev <;> simp [Stage.mm]
  have hlent : ∀ {r' : MmState Tid Mm n} {b : Mm}, Lent r r' c prev next b → ∀ m,
      r'.refs m + r.claims m c = r.refs m + r'.claims m c := fun hl m =>
    refs_add_claims (by rw [hl.held]) fun i hi => hl.claims_other hr hsw hi
  cases hnext : r.mm next with
  | none =>
      cases hprev : r.mm prev with
      | none =>
          -- from kernel to kernel the reference is passed on
          have hl : Lent r (((r.setActiveMm next (some a)).setActiveMm prev none).setStage c
              .switched) c prev next a := by
            constructor <;> simp [setActiveMm, setStage, hnp, hnext, hprev]
            intro q hq hqn
            simp [hq, hqn]
          refine ⟨_, by simp [MmState.contextSwitch, hnext, hprev, ha], hr.lent hl hsw hpc ?_⟩
          intro m
          have h := hlent hl m
          rw [hclaims, hl.claims_self hsw hpc] at h
          refine (hr.counter m).congr ?_
          simp_all [setActiveMm, setStage]
      | some b =>
          -- from user to kernel a reference is taken
          obtain rfl : b = a := by simpa [hprev] using hmm
          have hl : Lent r (((r.setActiveMm next (some b)).mmgrab b).setStage c .switched) c prev
              next b := by
            constructor <;> simp [setActiveMm, setStage, mmgrab, hnext, hprev, ha, hsw.ne]
            intro q hq hqn
            simp [hqn]
          refine ⟨_, by simp [MmState.contextSwitch, hnext, hprev, ha], hr.lent hl hsw hpc ?_⟩
          intro m
          have h := hlent hl m
          rw [hclaims, hl.claims_self hsw hpc] at h
          have hrefs : (((r.setActiveMm next (some b)).mmgrab b).setStage c .switched).refs m =
              r.refs m + if b = m then 1 else 0 := by
            simpa [hnext, hprev, setActiveMm, setStage, mmgrab, hprevMm] using h
          rw [hrefs]
          by_cases hm : b = m
          · subst hm
            have hpos : 0 < r.refs b := hr.refs_pos_of_active (by rw [hsw.runner, ha])
            simpa [mmgrab, setStage, setActiveMm] using (hr.counter b).get hpos
          · simpa [mmgrab, setStage, setActiveMm, hm, Ne.symm hm] using hr.counter m
  | some b =>
      have hactive : r.activeMm next = some b := hsw.activeMm.trans hnext
      cases hprev : r.mm prev with
      | none =>
          -- from kernel to user the reference is left to `finish_task_switch`
          have hl : Lent r (((r.setPrevMm c (some a)).setActiveMm prev none).setStage c
              .switched) c prev next b := by
            constructor <;> simp [setActiveMm, setPrevMm, setStage, hnp, hnext, hprev, hactive]
            · intro i hi
              simp [hi]
            · intro q hq hqn
              simp [hq]
          refine ⟨_, by simp [MmState.contextSwitch, hnext, hprev, ha], hr.lent hl hsw hpc ?_⟩
          intro m
          have h := hlent hl m
          rw [hclaims, hl.claims_self hsw hpc] at h
          refine (hr.counter m).congr ?_
          simp_all [setActiveMm, setPrevMm, setStage]
      | some d =>
          have hl : Lent r (r.setStage c .switched) c prev next b := by
            obtain rfl : d = a := by simpa [hprev] using hmm
            constructor <;> simp [setStage, hnext, hprev, hactive, ha]
          refine ⟨_, by simp [MmState.contextSwitch, hnext, hprev], hr.lent hl hsw hpc ?_⟩
          intro m
          have h := hlent hl m
          rw [hclaims, hl.claims_self hsw hpc] at h
          refine (hr.counter m).congr ?_
          simp_all [setStage]

theorem MmOk.stage_update (hr : MmOk M r) {k : Stage Tid Mm} (hk : r.StageOk c k) (b : Cpu n) :
    r.StageOk b (Function.update r.stage c k b) := by
  by_cases hb : b = c
  · subst hb
    rwa [Function.update_self]
  · rw [Function.update_of_ne hb]
    exact hr.stage b

/-- `finish_task_switch` takes over the reference in `rq->prev_mm`. -/
theorem MmOk.finishTaskSwitch (hr : MmOk M r) {prev : Tid} (v : TaskState)
    (hpc : r.sched.pc c = .schedule (.finishTask prev)) (hst : r.stage c = .switched) :
    MmOk M ((r.setPrevMm c none).setStage c (.finishing prev v (r.prevMm c))) := by
  have hrun : ((r.setPrevMm c none).setStage c (.finishing prev v (r.prevMm c))).runner =
      r.runner := by
    funext b
    by_cases hb : b = c
    · subst hb
      simp [runner, setStage, setPrevMm, hpc, phaseOf, hst]
    · simp [runner, setStage, setPrevMm, hb]
  refine { hr with
    stage := hr.stage_update (.inl hpc), prevMm := ?_, active := ?_, resting := ?_,
    counter := ?_ }
  · intro b hk
    by_cases hb : b = c
    · subst hb
      exact Function.update_self _ _ _
    · simp only [setStage, setPrevMm, Function.update_of_ne hb] at hk ⊢
      exact hr.prevMm b hk
  · rw [hrun]
    exact hr.active
  · rw [hrun]
    exact hr.resting
  · intro m
    refine (hr.counter m).congr (refs_congr rfl fun b => ?_)
    have hbor : ((r.setPrevMm c none).setStage c (.finishing prev v (r.prevMm c))).borrowed b =
        r.borrowed b := borrowed_congr (congrFun hrun b) rfl rfl
    by_cases hb : b = c
    · subst hb
      unfold claims
      rw [hbor]
      simp [setStage, setPrevMm, hst, Stage.mm]
    · exact claims_congr hbor (by simp [setStage, setPrevMm, hb])
        (by simp [setStage, setPrevMm, hb])

/-- `finish_task_switch` drops it. -/
theorem MmOk.endTaskSwitch (hr : MmOk M r) {prev : Tid} {v : TaskState} {x : Option Mm}
    (hpc : r.sched.pc c = .running) (hst : r.stage c = .finishing prev v x) :
    MmOk M ((r.mmdropOpt x).setStage c .outside) := by
  have hrun : ∀ r' : MmState Tid Mm n, r'.sched = r.sched →
      r'.stage = Function.update r.stage c .outside → r'.runner = r.runner := by
    intro r' hsched hstage
    funext b
    by_cases hb : b = c
    · subst hb
      simp [runner, hsched, hpc, phaseOf, hstage]
    · simp [runner, hsched, hstage, hb]
  have hstage : ∀ b, r.StageOk b (Function.update r.stage c .outside b) :=
    hr.stage_update trivial
  have hprev : ∀ b, Function.update r.stage c .outside b ≠ .switched → r.prevMm b = none := by
    intro b hk
    apply hr.prevMm b
    by_cases hb : b = c
    · rw [hb, hst]
      simp
    · rwa [Function.update_of_ne hb] at hk
  cases x with
  | none =>
      have hrun' := hrun (r.setStage c .outside) rfl rfl
      refine { hr with
        stage := hstage, prevMm := hprev, active := ?_, resting := ?_, counter := ?_ }
      · exact hrun' ▸ hr.active
      · exact hrun' ▸ hr.resting
      · intro m
        refine (hr.counter m).congr (refs_congr rfl fun b => claims_congr ?_ rfl ?_)
        · exact borrowed_congr (congrFun hrun' b) rfl rfl
        · by_cases hb : b = c
          · subst hb
            simp [mmdropOpt, setStage, hst, Stage.mm]
          · simp [mmdropOpt, setStage, hb]
  | some a =>
      have hrun' := hrun ((r.mmdrop a).setStage c .outside) rfl rfl
      refine { hr with
        stage := hstage, prevMm := hprev, active := ?_, resting := ?_, counter := ?_ }
      · exact hrun' ▸ hr.active
      · exact hrun' ▸ hr.resting
      · intro m
        have hbor : ∀ b, ((r.mmdrop a).setStage c .outside).borrowed b = r.borrowed b := fun b =>
          borrowed_congr (congrFun hrun' b) rfl rfl
        have hrefs : ((r.mmdrop a).setStage c .outside).refs m + r.claims m c =
            r.refs m + ((r.mmdrop a).setStage c .outside).claims m c := by
          apply refs_add_claims
          · rfl
          intro b hb
          exact claims_congr (hbor b) rfl (by simp [mmdrop, setStage, hb])
        have hself : r.claims m c = ((r.mmdrop a).setStage c .outside).claims m c +
            if a = m then 1 else 0 := by
          have hnone : r.prevMm c = none := hr.prevMm c (by simp [hst])
          unfold claims
          rw [hbor c]
          simp [mmdrop, setStage, hst, Stage.mm, hnone]
        rw [hself] at hrefs
        by_cases hm : a = m
        · subst hm
          have hone : r.refs a = ((r.mmdrop a).setStage c .outside).refs a + 1 := by
            rw [if_pos rfl] at hrefs
            omega
          have hcount := (hone ▸ hr.counter a).put
          simpa [mmdropOpt, mmdrop, setStage] using hcount
        · have hzero : ((r.mmdrop a).setStage c .outside).refs m = r.refs m := by
            rw [if_neg hm] at hrefs
            omega
          have hcount := (hr.counter m).congr hzero
          simpa [mmdropOpt, mmdrop, setStage, Ne.symm hm] using hcount

end LinuxOs2022.Scheduler
