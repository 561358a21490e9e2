import LinuxOs2022.Scheduler.MmCount

/-!
# The last reference of a dead task

A task has one reference for its use as the current one. When it has died,
`finish_task_switch` drops that reference on the CPU that switches away from it, and decides
so by a state that it loads before it clears `on_cpu`. The reference of every dead task is
dropped exactly once, after no CPU uses the task any more, and no other task loses its own.
-/

namespace LinuxOs2022.Scheduler

open Custody Library

variable {Tid Mm : Type} [DecidableEq Tid] [DecidableEq Mm] {n : ℕ} {M : Machine Tid n}
  {r r' : MmState Tid Mm n} {s s' : State Tid n} {c : Cpu n} {e : Event Tid n}
  {a : Action Tid n} {p : Tid}

/-! ## From `TASK_DEAD` to the run queue -/

/-- Where a CPU is that will take its dead task off the run queue. -/
def Dying (p : Tid) (k : Pc Tid n) : Prop :=
  (∀ k', k ≠ .schedule k') ∨ k = .schedule (.loadState false p) ∨ k = .schedule (.deactivate p)

/-- A dead task has left its run queue, or its CPU is about to take it off. -/
def State.DeadOk (s : State Tid n) : Prop :=
  ∀ p, s.Dead p → (s.task p).onRq = .none ∨ ∃ c, (s.rq c).curr = p ∧ Dying p (s.pc c)

/-- A task dies by its own hand. -/
theorem Awake.dies (hs : Awake M s) (h : s.step M c a = some (e, s')) (hd : ¬ s.Dead p)
    (hd' : s'.Dead p) : p = (s.rq c).curr ∧ s.pc c = .running ∧
      (s'.task p).state ≠ (s.task p).state := by
  have ht := State.step_transition h
  have hal : (s.task p).allocated = true :=
    ht.allocated_of_not_new hd'.allocated (hd'.state ▸ by decide)
  have hne : (s'.task p).state ≠ (s.task p).state := fun he => hd ⟨hal, he.symm.trans hd'.state⟩
  have hother : ∀ v, (s'.task p).state = v → v = taskDead := fun v hv => hv.symm.trans hd'.state
  cases State.step_stateStep hs.ok h p with
  | self hpc hp hne' hl hw hn hq => exact ⟨hp, hpc, hne⟩
  | same hst hq => exact absurd hst hne
  | sleep hpc hst hq => exact absurd hst hne
  | start b hpc hst hq => exact absurd hst hne
  | detach hl hr hst hq hk => exact absurd hst hne
  | attach src dest hpc hst hq => exact absurd hst hne
  | keep hpc hst hq => exact absurd (hother _ hst) (by decide)
  | remote b hpc hr hst hq => exact absurd (hother _ hst) (by decide)
  | waking hpc hst hq => exact absurd (hother _ hst) (by decide)
  | activate d hpc hst hq => exact absurd (hother _ hst) (by decide)
  | pending rest hpc hn hst hq => exact absurd (hother _ hst) (by decide)
  | create hpc ha hst hq => exact absurd (hother _ hst) (by decide)
  | wakeNew hpc ha hnew hl hst hq hk => exact absurd (hother _ hst) (by decide)

/-- From `TASK_DEAD` the way leads to the deactivation, unless the task is preempted. -/
theorem State.step_dying (h : s.step M c a = some (e, s')) (hd : s.Dead p)
    (hp : (s.rq c).curr = p) (hk : Dying p (s.pc c))
    (hpreempt : a ≠ .schedule true) :
    (s'.task p).onRq = .none ∨ (s'.rq c).curr = p ∧ Dying p (s'.pc c) := by
  have ht := State.step_transition h
  obtain hk | hk | hk := hk
  · right
    have hcurr : (s'.rq c).curr = (s.rq c).curr := by
      apply ht.curr_eq
      rintro prev next rfl
      obtain ⟨-, sc, hpc, -⟩ := ht.switch_inv
      exact hk _ hpc
    refine ⟨hcurr.trans hp, ?_⟩
    obtain ⟨preempt, ha, -, hpc⟩ | hpc := State.step_pc hk h
    · cases preempt with
      | true => exact absurd ha hpreempt
      | false => exact .inr (.inl (hp ▸ hpc))
    · exact .inl hpc
  · right
    obtain ⟨hb, -⟩ | ⟨-, rfl | ⟨hne, -⟩⟩ := State.step_loadState h hk
    · obtain hb | hb := hb
      · cases hb
      · rw [hd.state] at hb
        exact absurd hb (by decide)
    · exact ⟨hp, .inr (.inr (by simp))⟩
    · exact absurd hd.state hne
  · left
    obtain ⟨-, rfl⟩ := Prod.mk.inj (Option.some.inj (ht.scheduleStep_eq hk rfl))
    simp [TaskStruct.deactivateTask]

theorem Awake.deadOk (hs : Awake M s) (hdead : s.DeadOk) (h : s.step M c a = some (e, s'))
    (hpreempt : a = .schedule true → (s.task (s.rq c).curr).state ≠ taskDead) : s'.DeadOk := by
  intro p hd'
  have ht := State.step_transition h
  by_cases hd : s.Dead p
  · obtain hq | ⟨b, hb, hk⟩ := hdead p hd
    · exact .inl ((hs.dead_step hd h).2 hq)
    · by_cases hbc : b = c
      · subst hbc
        have hpre : a ≠ .schedule true := fun ha => hpreempt ha (hb ▸ hd.state)
        exact (State.step_dying h hd hb hk hpre).imp_right fun h => ⟨b, h⟩
      · exact .inr ⟨b, (ht.curr_of_ne hbc).trans hb, (ht.pc_of_ne hbc).symm ▸ hk⟩
  · obtain ⟨hp, hpc, hne⟩ := hs.dies h hd hd'
    have hcurr : (s'.rq c).curr = (s.rq c).curr := by
      apply ht.curr_eq
      rintro prev next rfl
      obtain ⟨-, sc, hpc', -⟩ := ht.switch_inv
      rw [hpc] at hpc'
      cases hpc'
    have hns : ∀ k, s.pc c ≠ .schedule k := fun k hk => by rw [hpc] at hk; cases hk
    obtain ⟨preempt, -, htask, -⟩ | hk := State.step_pc hns h
    · exact absurd (by rw [htask]) hne
    · exact .inr ⟨c, hcurr.trans hp.symm, .inl hk⟩

/-! ## References -/

namespace MmState

/-- The CPU has the task current, or has not yet read the state by which it decides about the
reference. -/
def Uses (r : MmState Tid Mm n) (c : Cpu n) (p : Tid) : Prop :=
  (r.sched.rq c).curr = p ∨ phaseOf (r.sched.pc c) = .entering p ∨
    (phaseOf (r.sched.pc c) = .finishing p ∧ ∀ q v x, r.stage c ≠ .finishing q v x)

/-- The task is dead and no CPU uses it. -/
def Left (r : MmState Tid Mm n) (p : Tid) : Prop := r.sched.Dead p ∧ ∀ c, ¬ r.Uses c p

/-- The reference that a CPU has decided to drop. -/
def dropping (r : MmState Tid Mm n) (p : Tid) (c : Cpu n) : ℕ :=
  match r.stage c with
  | .finishing prev v _ => if prev = p ∧ v = taskDead then 1 else 0
  | _ => 0

/-- How often the reference of the task has been dropped or is about to be. -/
def drops (r : MmState Tid Mm n) (p : Tid) : ℕ := r.dropped p + ∑ c, r.dropping p c

omit [DecidableEq Tid] [DecidableEq Mm] in
theorem Uses.occupies (h : r.Uses c p) : r.sched.view.Occupies c p := by
  obtain h | h | ⟨h, -⟩ := h
  · exact .inl h
  · exact .inr (.inl h)
  · exact .inr (.inr h)

end MmState

open MmState

/-- The scheduler and the address spaces are in order, dead tasks leave their run queues, and
the reference of a task has been dropped once if it is dead and unused, and otherwise not. -/
structure DropOk (M : Machine Tid n) (r : MmState Tid Mm n) : Prop where
  mm : MmOk M r
  dead : r.sched.DeadOk
  drops : ∀ p, (r.Left p → r.drops p = 1) ∧ (¬ r.Left p → r.drops p = 0)

/-- A step of the scheduler begins and ends no use of a dead task. -/
theorem DropOk.left_sched (hr : DropOk M r) (h : r.sched.step M c a = some (e, s'))
    (hfin : ∀ prev, r.sched.pc c = .schedule (.finishTask prev) →
      ∃ q v y, r.stage c = .finishing q v y) (p : Tid) :
    { r with sched := s' }.Left p ↔ r.Left p := by
  have hs := hr.mm.awake
  have ht := State.step_transition h
  by_cases hd : r.sched.Dead p
  · have hd' : s'.Dead p := (hs.dead_step hd h).1
    have huses : ∀ b, { r with sched := s' }.Uses b p ↔ r.Uses b p := by
      intro b
      by_cases hb : b = c
      · subst hb
        have hst := hr.mm.stage b
        unfold Uses
        cases ht with
        | curr prev next sc hpc =>
            -- the next task is not dead: it is on a run queue, and current nowhere
            obtain ⟨hprev, -, hcurr⟩ := hs.ok.switch hpc
            have hne : next ≠ p := by
              rintro rfl
              obtain hq | ⟨d, hd, -⟩ := hr.dead next hd
              · exact hs.ok.not_settled_of_dead hd hq b (hs.ok.phaseOk hpc).1
              · exact hcurr ⟨d, hd⟩
            simp [hpc, phaseOf, hne, hprev]
        | prepareTask prev next hpc =>
            have hout : r.stage b = .outside := by
              cases hk : r.stage b with
              | outside => rfl
              | switched => simp [hk, StageOk, hpc] at hst
              | finishing q v x => simp [hk, StageOk, hpc] at hst
            simp [hpc, phaseOf, hout]
        | finishTask prev hpc =>
            obtain ⟨q, v, x, hk⟩ := hfin prev hpc
            simp [hpc, phaseOf, hk]
        | loadBalance q src dest hpc hq hn hl => rfl
        | pushOnCpu q hpc hd => simp [hpc, phaseOf, State.pushWakeList, hd.symm]
        | pushQueue q d hpc hd => simp [hpc, phaseOf, State.pushWakeList, hd.symm]
        | loadRq q caller hpc => cases caller <;> simp [hpc, phaseOf]
        | lockRq q caller d hpc hl => cases caller <;> simp [hpc, phaseOf]
        | lockRetry q caller d hpc hc => cases caller <;> simp [hpc, phaseOf]
        | _ =>
            have hpc := ‹r.sched.pc b = _›
            simp [hpc, phaseOf]
      · unfold Uses
        rw [ht.pc_of_ne hb, ht.curr_of_ne hb]
    exact and_congr (iff_of_true hd' hd) (forall_congr' fun b => not_congr (huses b))
  · refine iff_of_false ?_ fun hl => hd hl.1
    rintro ⟨hd', hno⟩
    obtain ⟨hp, hpc, -⟩ := hs.dies h hd hd'
    apply hno c
    left
    rw [hp]
    apply ht.curr_eq
    rintro prev next rfl
    obtain ⟨-, sc, hpc', -⟩ := ht.switch_inv
    rw [hpc] at hpc'
    cases hpc'

/-- Nothing happens to the references of dead tasks. -/
theorem DropOk.congr (hr : DropOk M r) (hmm : MmOk M r') (hdead : r'.sched.DeadOk)
    (hleft : ∀ p, r'.Left p ↔ r.Left p) (hdrops : ∀ p, r'.drops p = r.drops p) : DropOk M r' where
  mm := hmm
  dead := hdead
  drops := by
    intro p
    rw [hleft, hdrops]
    exact hr.drops p

omit [DecidableEq Tid] [DecidableEq Mm] in
theorem MmState.left_congr (hsched : r'.sched = r.sched)
    (hstage : ∀ b, (∀ q v x, r'.stage b ≠ .finishing q v x) ↔
      ∀ q v x, r.stage b ≠ .finishing q v x) (p : Tid) : r'.Left p ↔ r.Left p := by
  unfold Left Uses
  simp only [hsched, hstage]

omit [DecidableEq Mm] in
theorem MmState.drops_congr (hstage : r'.stage = r.stage) (hdropped : r'.dropped = r.dropped)
    (p : Tid) : r'.drops p = r.drops p := by
  unfold drops dropping
  rw [hstage, hdropped]

/-- The new state has the scheduler, the stages and the dropped references of the old one. -/
def MmState.Frame (r r' : MmState Tid Mm n) : Prop :=
  r'.sched = r.sched ∧ r'.stage = r.stage ∧ r'.dropped = r.dropped

theorem MmState.contextSwitch_frame {prev next : Tid}
    (h : r.contextSwitch c prev next = some r') : Frame r r' := by
  unfold MmState.contextSwitch at h
  split at h
  · split at h
    · obtain ⟨m, -, rfl⟩ := Option.map_eq_some_iff.mp h
      exact ⟨rfl, rfl, rfl⟩
    · cases h
      exact ⟨rfl, rfl, rfl⟩
  · split at h
    · cases h
      exact ⟨rfl, rfl, rfl⟩
    · cases h
      exact ⟨rfl, rfl, rfl⟩

theorem MmState.takeMm_frame {m : Mm} (h : r.takeMm c m = some r') : Frame r r' := by
  simp only [MmState.takeMm] at h
  split at h
  · cases h
    exact ⟨rfl, rfl, rfl⟩
  · obtain ⟨a, -, rfl⟩ := Option.map_eq_some_iff.mp h
    exact ⟨rfl, rfl, rfl⟩

theorem MmState.leaveMm_frame (h : r.leaveMm c = some r') : Frame r r' := by
  unfold MmState.leaveMm at h
  obtain ⟨m, -, rfl⟩ := Option.map_eq_some_iff.mp h
  exact ⟨rfl, rfl, rfl⟩

theorem DropOk.frame (hr : DropOk M r) (hmm : MmOk M r') (h : Frame r r') : DropOk M r' := by
  obtain ⟨hsched, hstage, hdropped⟩ := h
  apply hr.congr hmm (hsched ▸ hr.dead)
  · exact left_congr hsched fun b => by rw [hstage]
  · exact drops_congr hstage hdropped

/-- `finish_task_switch` decides by the state that it reads: a dead task is not used any more,
and what is not dead keeps its reference. -/
theorem DropOk.finishTaskSwitch (hr : DropOk M r) {prev : Tid}
    (hpc : r.sched.pc c = .schedule (.finishTask prev)) (hst : r.stage c = .switched) :
    DropOk M ((r.setPrevMm c none).setStage c
      (.finishing prev (r.sched.task prev).state (r.prevMm c))) := by
  have hok := hr.mm.finishTaskSwitch (r.sched.task prev).state hpc hst
  have hstage : ((r.setPrevMm c none).setStage c (.finishing prev (r.sched.task prev).state
      (r.prevMm c))).stage = Function.update r.stage c
        (.finishing prev (r.sched.task prev).state (r.prevMm c)) := rfl
  have hsched : ((r.setPrevMm c none).setStage c (.finishing prev (r.sched.task prev).state
      (r.prevMm c))).sched = r.sched := rfl
  have hdropped : ((r.setPrevMm c none).setStage c (.finishing prev (r.sched.task prev).state
      (r.prevMm c))).dropped = r.dropped := rfl
  generalize (r.setPrevMm c none).setStage c _ = r' at *
  have hne : prev ≠ (r.sched.rq c).curr := (hr.mm.awake.ok.phaseOk hpc).2
  have hprev : r.Uses c prev := .inr (.inr ⟨by rw [hpc]; rfl, by simp [hst]⟩)
  -- no other CPU uses the old task
  have hunused : ∀ b, ¬ r'.Uses b prev := by
    intro b hb
    by_cases hbc : b = c
    · subst hbc
      obtain hb | hb | ⟨-, hb⟩ := hb
      · rw [hsched] at hb
        exact hne hb.symm
      · rw [hsched, hpc] at hb
        cases hb
      · exact hb _ _ _ (by rw [hstage, Function.update_self])
    · have hocc : r.sched.view.Occupies b prev := hsched ▸ hb.occupies
      exact hbc (hr.mm.awake.ok.custody.occupies_unique hocc hprev.occupies)
  have huses : ∀ p, p ≠ prev → ∀ b, r'.Uses b p ↔ r.Uses b p := by
    intro p hp b
    unfold Uses
    rw [hsched, hstage]
    by_cases hbc : b = c
    · subst hbc
      have hph : phaseOf (r.sched.pc b) ≠ .finishing p := by
        rw [hpc]
        simpa [phaseOf] using hp.symm
      simp [hph]
    · rw [Function.update_of_ne hbc]
  have hsum : ∀ p, r'.drops p = r.drops p +
      if prev = p ∧ (r.sched.task prev).state = taskDead then 1 else 0 := by
    intro p
    have hzero : r.dropping p c = 0 := by simp [dropping, hst]
    have hself : r'.dropping p c = r.dropping p c +
        if prev = p ∧ (r.sched.task prev).state = taskDead then 1 else 0 := by
      rw [hzero, zero_add]
      simp [dropping, hstage]
    have hother : ∀ b, b ≠ c → r'.dropping p b = r.dropping p b := fun b hb => by
      simp [dropping, hstage, hb]
    unfold MmState.drops
    rw [hdropped, sum_eq_add_of_entry (Finset.mem_univ c) hself hother, add_assoc]
  refine ⟨hok, hsched ▸ hr.dead, fun p => ?_⟩
  rw [hsum]
  by_cases hp : p = prev
  · subst hp
    have hold : r.drops p = 0 := (hr.drops p).2 fun hl => hl.2 c hprev
    have hal : (r.sched.task p).allocated = true :=
      hr.mm.awake.ok.allocated_of_occupies hprev.occupies
    rw [hold]
    constructor
    · rintro ⟨hd, -⟩
      rw [if_pos ⟨rfl, by rw [← hsched]; exact hd.state⟩]
    · intro hn
      rw [if_neg]
      rintro ⟨-, hd⟩
      exact hn ⟨⟨by rwa [hsched], by rwa [hsched]⟩, hunused⟩
  · rw [if_neg fun h => hp h.1.symm, add_zero]
    have hleft : r'.Left p ↔ r.Left p := by
      unfold Left
      rw [hsched]
      exact and_congr Iff.rfl (forall_congr' fun b => not_congr (huses p hp b))
    rw [hleft]
    exact hr.drops p

/-- `finish_task_switch` drops what it has decided to drop. -/
theorem DropOk.endTaskSwitch (hr : DropOk M r) {prev : Tid} {v : TaskState} {x : Option Mm}
    (hpc : r.sched.pc c = .running) (hst : r.stage c = .finishing prev v x)
    (hmm : MmOk M r') (hsched : r'.sched = r.sched)
    (hstage : r'.stage = Function.update r.stage c .outside)
    (hdropped : ∀ p, r'.dropped p = r.dropped p +
      if prev = p ∧ v = taskDead then 1 else 0) : DropOk M r' := by
  refine hr.congr hmm (hsched ▸ hr.dead) (fun p => ?_) fun p => ?_
  · unfold Left Uses
    rw [hsched]
    refine and_congr Iff.rfl (forall_congr' fun b => not_congr ?_)
    by_cases hb : b = c
    · subst hb
      simp [hpc, phaseOf]
    · rw [hstage, Function.update_of_ne hb]
  · have hother : ∀ b, b ≠ c → r'.dropping p b = r.dropping p b := fun b hb => by
      simp [dropping, hstage, hb]
    have hsum := sum_add_eq_sum_add (Finset.mem_univ c) hother
    have hself : r'.dropping p c = 0 := by simp [dropping, hstage]
    have hold : r.dropping p c = if prev = p ∧ v = taskDead then 1 else 0 := by
      simp [dropping, hst]
    unfold MmState.drops
    rw [hdropped, ← hold]
    omega

/-! ## Whole runs -/

/-- Every step keeps the references of dead tasks in order. -/
theorem MmSteps.dropOk (h : MmSteps M r e r') (hr : DropOk M r) : DropOk M r' := by
  have hmm := h.ok hr.mm
  obtain ⟨c, a, h⟩ := h
  unfold MmState.step at h
  split at h
  next a =>
    split at h
    next hready =>
      obtain ⟨⟨e', s'⟩, hstep, heq⟩ := Option.map_eq_some_iff.mp h
      obtain ⟨rfl, rfl⟩ := Prod.mk.inj heq
      refine hr.congr hmm ?_ (hr.left_sched hstep fun _ => ready_finishTask hready hstep)
        fun _ => rfl
      refine hr.mm.awake.deadOk hr.dead hstep ?_
      rintro rfl
      exact (ready_schedule hready).2 rfl
    next => cases h
  next child thread x =>
    split at h
    next hb =>
      obtain ⟨⟨e', s'⟩, hstep, heq⟩ := Option.map_eq_some_iff.mp h
      obtain ⟨rfl, rfl⟩ := Prod.mk.inj heq
      have hpc := (stage_of_executes (Bool.and_eq_true_iff.mp hb).1).1
      have hleft := hr.left_sched hstep fun prev hk => by rw [hpc] at hk; cases hk
      have hfields : ({ r with sched := s' }.copyMm child x).sched = s' ∧
          ({ r with sched := s' }.copyMm child x).stage = r.stage ∧
          ({ r with sched := s' }.copyMm child x).dropped = r.dropped := by
        cases x <;> exact ⟨rfl, rfl, rfl⟩
      generalize { r with sched := s' }.copyMm child x = r'' at *
      obtain ⟨hsched, hstage, hdropped⟩ := hfields
      refine hr.congr hmm ?_ (fun p => ?_) (drops_congr hstage hdropped)
      · rw [hsched]
        exact hr.mm.awake.deadOk hr.dead hstep fun ha => nomatch ha
      · rw [← hleft p]
        exact left_congr hsched (fun b => by rw [hstage]) p
    next => cases h
  next =>
    split at h
    next prev hpc hst =>
      obtain ⟨r₁, hsw, heq⟩ := Option.map_eq_some_iff.mp h
      obtain ⟨rfl, rfl⟩ := Prod.mk.inj heq
      obtain ⟨hsched, hstage, hdropped⟩ := contextSwitch_frame hsw
      have hstage' : (r₁.setStage c .switched).stage = Function.update r.stage c .switched := by
        rw [← hstage]
        rfl
      refine hr.congr hmm (hsched ▸ hr.dead) (left_congr hsched fun b => ?_) fun p => ?_
      · rw [hstage']
        by_cases hb : b = c
        · subst hb
          simp [hst]
        · rw [Function.update_of_ne hb]
      · unfold MmState.drops dropping
        rw [hstage']
        refine congrArg₂ (· + ·) (congrFun hdropped p) (Finset.sum_congr rfl fun b _ => ?_)
        by_cases hb : b = c
        · subst hb
          simp [hst]
        · rw [Function.update_of_ne hb]
    next => cases h
  next =>
    split at h
    next prev hpc hst =>
      obtain ⟨rfl, rfl⟩ := Prod.mk.inj (Option.some.inj h)
      exact hr.finishTaskSwitch hpc hst
    next => cases h
  next =>
    split at h
    next prev v x hpc hst =>
      obtain ⟨-, heq⟩ := Prod.mk.inj (Option.some.inj h)
      have hfields : ((r.mmdropOpt x).setStage c .outside).sched = r.sched ∧
          ((r.mmdropOpt x).setStage c .outside).stage = Function.update r.stage c .outside ∧
          ((r.mmdropOpt x).setStage c .outside).dropped = r.dropped := by
        cases x <;> exact ⟨rfl, rfl, rfl⟩
      generalize (r.mmdropOpt x).setStage c .outside = r₁ at *
      obtain ⟨hsched, hstage, hdropped⟩ := hfields
      split at heq
      next hv =>
        subst heq
        refine hr.endTaskSwitch hpc hst hmm hsched hstage fun p => ?_
        by_cases hp : p = prev
        · subst hp
          simp [putTask, hdropped, hv]
        · simp [putTask, hdropped, hp, Ne.symm hp]
      next hv =>
        subst heq
        exact hr.endTaskSwitch hpc hst hmm hsched hstage fun p => by simp [hdropped, hv]
    next => cases h
  next m =>
    split at h
    next hm =>
      obtain ⟨rfl, rfl⟩ := Prod.mk.inj (Option.some.inj h)
      exact hr.frame hmm ⟨rfl, rfl, rfl⟩
    next => cases h
  next m =>
    split at h
    next hm =>
      obtain ⟨rfl, rfl⟩ := Prod.mk.inj (Option.some.inj h)
      exact hr.frame hmm ⟨rfl, rfl, rfl⟩
    next => cases h
  next m =>
    split at h
    next hm =>
      obtain ⟨rfl, rfl⟩ := Prod.mk.inj (Option.some.inj h)
      exact hr.frame hmm ⟨rfl, rfl, rfl⟩
    next => cases h
  next m =>
    split at h
    next hb =>
      obtain ⟨r₁, htake, heq⟩ := Option.map_eq_some_iff.mp h
      obtain ⟨rfl, rfl⟩ := Prod.mk.inj heq
      exact hr.frame hmm (takeMm_frame htake)
    next => cases h
  next =>
    split at h
    next hex =>
      obtain ⟨r₁, hleave, heq⟩ := Option.map_eq_some_iff.mp h
      obtain ⟨rfl, rfl⟩ := Prod.mk.inj heq
      exact hr.frame hmm (leaveMm_frame hleave)
    next => cases h

theorem bootMm_dropOk {c₀ : Cpu n} {m₀ : Mm} : DropOk M (bootMm M c₀ m₀) := by
  have hdead : ∀ p, ¬ (bootMm M c₀ m₀).sched.Dead p := fun p hd =>
    absurd hd.state (by decide : (taskRunning : TaskState) ≠ taskDead)
  refine ⟨bootMm_ok, fun p hd => absurd hd (hdead p), fun p => ⟨fun hl => absurd hl.1 (hdead p),
    fun _ => ?_⟩⟩
  simp [MmState.drops, dropping, bootMm]

section Runs

variable {c₀ : Cpu n} {m₀ : Mm} {es : List (Event Tid n)}

/-- In every run `finish_task_switch` drops the reference of each dead task once, when no CPU
uses the task any more, and that of no other task. -/
theorem dead_dropped_once (h : Run (MmSteps M) (bootMm M c₀ m₀) es r) (p : Tid) :
    (r.Left p → r.drops p = 1) ∧ (¬ r.Left p → r.drops p = 0) := by
  have hr := h.invariant (I := fun r => DropOk M r) (fun _ _ _ hr hstep => hstep.dropOk hr)
    bootMm_dropOk
  exact hr.drops p

end Runs

/-- Task 10 runs in address space 7, dies, and CPU 0 switches to its idle task, up to the loads
of `finish_task_switch`. -/
def switchFromDead : List (Cpu 2 × MmAction ℕ ℕ 2) :=
  switchToUser ++ [(0, .sched .next), (0, .sched .next), (0, .endTaskSwitch)] ++
    ((exit ++ leave.take 7).map fun (c, a) => (c, .sched a)) ++
    [(0, .contextSwitch), (0, .finishTaskSwitch)]

/-- CPU 0 is about to drop the reference of task 10. -/
theorem dead_dropped_once_switchFromDead :
    let r := afterMm switchFromDead
    r.drops 10 = 1 ∧ (r.Left 10 → r.drops 10 = 1) ∧ (¬ r.Left 10 → r.drops 10 = 0) := by
  have h : Run (MmSteps twoCpus) (bootMm twoCpus 0 0) _ (afterMm switchFromDead) :=
    lastState_run (fun _ x _ _ h => ⟨x.1, x.2, h⟩) rfl
  exact ⟨rfl, dead_dropped_once h 10⟩

end LinuxOs2022.Scheduler
