import LinuxOs2022.Library.Announced
import LinuxOs2022.Scheduler.Reachable

/-!
# Counting switches

The store to `rq->curr` is the moment of a switch. Both counters of it are written later in
the same `__schedule`: the switch count of the old task, and the new counter of the new task
by a load and a store of their own. The invariant is that each counter lags behind the
switches by the one that is still under way, and that no other CPU can be counting a switch
of the same task.
-/

namespace LinuxOs2022.Scheduler

open Custody Library

variable {Tid : Type} [DecidableEq Tid] {n : ℕ}

/-! ## Switches in a run -/

/-- A switch to another task, which satisfies `p`. -/
def Event.isSwitchIn (p : Tid → Bool) : Event Tid n → Bool
  | .switch _ prev next => p next && prev != next
  | _ => false

/-- A switch to another task, from `t`. -/
def Event.isSwitchOut (t : Tid) : Event Tid n → Bool
  | .switch _ prev next => prev == t && prev != next
  | _ => false

/-- How often tasks that satisfy `p` are switched in. -/
def switchInsOf (p : Tid → Bool) (es : List (Event Tid n)) : ℕ := es.countP (·.isSwitchIn p)

/-- How often a task is switched in. -/
def switchIns (t : Tid) (es : List (Event Tid n)) : ℕ := switchInsOf (· == t) es

/-- How often a task is switched out. -/
def switchOuts (t : Tid) (es : List (Event Tid n)) : ℕ := es.countP (·.isSwitchOut t)

theorem switchIns_concat (t : Tid) (es : List (Event Tid n)) (e : Event Tid n) :
    switchIns t (es ++ [e]) = switchIns t es + if e.isSwitchIn (· == t) then 1 else 0 := by
  simp [switchIns, switchInsOf, List.countP_append, List.countP_singleton]

theorem switchOuts_concat (t : Tid) (es : List (Event Tid n)) (e : Event Tid n) :
    switchOuts t (es ++ [e]) = switchOuts t es + if e.isSwitchOut t then 1 else 0 := by
  simp [switchOuts, List.countP_append, List.countP_singleton]

/-! ## Increments under way -/

/-- The statements between the store to `rq->curr` and the store to the counter. -/
def counting : Pc Tid n → Bool
  | .schedule (.switchCount _ _ _) => true
  | .schedule (.loadCount _ _) => true
  | .schedule (.storeCount _ _ _) => true
  | _ => false

namespace State

variable (s : State Tid n) (t : Tid)

/-- The task is current on some CPU. -/
def Current : Prop := ∃ c, (s.rq c).curr = t

/-- A CPU is about to increment the counter of the task. -/
def InPending : Prop := ∃ c, (s.rq c).curr = t ∧ counting (s.pc c) = true

/-- A CPU is about to increment a switch count of the task. -/
def OutPending : Prop := ∃ c next sc, s.pc c = .schedule (.switchCount t next sc)

/-- `t->nvcsw + t->nivcsw`. -/
def switchCounts : BitVec 64 := (s.task t).nvcsw + (s.task t).nivcsw

/-- A loaded counter has not changed since. -/
def StoreOk : Prop := ∀ c prev next v, s.pc c = .schedule (.storeCount prev next v) →
  v = (s.task next).processSwitchesCount

end State

section Transition

variable {M : Machine Tid n} {s s' : State Tid n} {c : Cpu n} {e : Event Tid n} {t : Tid}

/-- A switch is to a task that is current nowhere. -/
theorem Ok.switch (hi : Ok M s) {prev next : Tid} {sc : SwitchCount}
    (hpc : s.pc c = .schedule (.curr prev next sc)) :
    prev = (s.rq c).curr ∧ next ≠ prev ∧ ¬ s.Current next := by
  have hprev : prev = (s.rq c).curr := hi.pcOk hpc
  obtain ⟨hq, hne⟩ := hi.phaseOk hpc
  refine ⟨hprev, hprev ▸ hne, ?_⟩
  rintro ⟨b, rfl⟩
  have hb : (s.view.task (s.rq b).curr).home = b := hi.custody.occupied_home b _ (.inl rfl)
  have hc : (s.view.task (s.rq b).curr).home = c := by
    obtain hq | hidle := hq
    · exact hi.custody.queued_home c _ hq
    · rw [hidle]
      exact (hi.custody.idle_plain c).1
  obtain rfl : b = c := hb.symm.trans hc
  exact hne rfl

/-- A task that a CPU uses is allocated. -/
theorem Ok.allocated_of_occupies (hi : Ok M s) (ho : s.view.Occupies c t) :
    (s.task t).allocated = true := by
  by_contra h
  have hf : (s.view.task t).fresh = true := by
    simpa [State.view, TaskStruct.view] using .inl (Bool.eq_false_of_not_eq_true h)
  exact (hi.custody.fresh_plain t hf).2 c ho

/-- The current task of a CPU is allocated. -/
theorem Ok.allocated_curr (hi : Ok M s) : (s.task (s.rq c).curr).allocated = true :=
  hi.allocated_of_occupies (.inl rfl)

/-- Only a switch changes who is current. -/
theorem Transition.curr_eq (ht : Transition M s c e s') (he : ∀ prev next, e ≠ .switch c prev next)
    (b : Cpu n) : (s'.rq b).curr = (s.rq b).curr := by
  by_cases hb : b = c
  · subst hb
    cases ht with
    | curr prev next sc hpc => exact absurd rfl (he prev next)
    | _ => simp
  · exact ht.curr_of_ne hb

/-- Only a switch and the store to a counter begin and end the counting of a switch. -/
theorem Transition.counting_eq (ht : Transition M s c e s')
    (he : ∀ prev next, e ≠ .switch c prev next)
    (hpc : ∀ prev next v, s.pc c ≠ .schedule (.storeCount prev next v)) (b : Cpu n) :
    counting (s'.pc b) = counting (s.pc b) := by
  by_cases hb : b = c
  · subst hb
    cases ht with
    | curr prev next sc hpc' => exact absurd rfl (he prev next)
    | storeCount prev next v hpc' => exact absurd hpc' (hpc prev next v)
    | loadBalance p src dest hpc' hq hn hl => rfl
    | fork child thread hpc' ha => rfl
    | wakeSelf mask hpc' => rfl
    | setState v hpc' hi hv hv' => rfl
    | startToCount hpc' => rfl
    | stopToCount hpc' => rfl
    | myGetCpuNumber hpc' => rfl
    | stay hpc' => rfl
    | _ =>
        have hpc' := ‹s.pc b = _›
        simp [counting, hpc']
  · rw [ht.pc_of_ne hb]

theorem Transition.switch_inv {b : Cpu n} {prev next : Tid}
    (ht : Transition M s c (.switch b prev next) s') :
    b = c ∧ ∃ sc, s.pc c = .schedule (.curr prev next sc) ∧
      s' = (s.modRq c fun r => { r with curr := next }).setPc c
        (.schedule (.switchCount prev next sc)) := by
  cases ht with
  | curr prev next sc hpc => exact ⟨rfl, sc, hpc, rfl⟩

/-- A statement of `__schedule` that leaves no choice has one outcome. -/
theorem Transition.scheduleStep_eq {k : SchedulePc Tid} (ht : Transition M s c e s')
    (hpc : s.pc c = .schedule k) (h : (s.scheduleStep M c k .next).isSome) :
    s.scheduleStep M c k .next = some (e, s') := by
  cases ht with
  | loadBalance p src dest hpc' hq hn hl =>
      -- the classes balance outside `__schedule` or while they pick
      obtain hrun | ⟨prev, sc, held, hpick⟩ := hpc'
      · rw [hpc] at hrun
        cases hrun
      · rw [hpc] at hpick
        cases hpick
        simp [State.scheduleStep] at h
  | _ =>
      have hpc' := ‹s.pc c = _›
      rw [hpc] at hpc'
      cases hpc' <;> first | rfl | cases h

theorem Transition.storeCount_inv {prev next : Tid} {v : BitVec 32}
    (ht : Transition M s c e s') (hpc : s.pc c = .schedule (.storeCount prev next v)) :
    e = .tau ∧ s' = (s.modTask next fun t => { t with processSwitchesCount := v + 1 }).setPc c
      (.schedule (.prepareTask prev next)) := by
  obtain ⟨rfl, rfl⟩ := Prod.mk.inj (Option.some.inj (ht.scheduleStep_eq hpc rfl))
  exact ⟨rfl, rfl⟩

theorem Transition.start_inv (ht : Transition M s c (.start t) s') :
    s.pc c = .running ∧ t = (s.rq c).curr ∧
      s' = s.modTask t fun t => { t with processSwitchesCount := 0 } := by
  cases ht with
  | startToCount hpc => exact ⟨hpc, rfl, rfl⟩

theorem Transition.stop_inv {v : BitVec 64} (ht : Transition M s c (.stop t v) s') :
    s.pc c = .running ∧ t = (s.rq c).curr ∧
      v = (s.task t).processSwitchesCount.setWidth 64 := by
  cases ht with
  | stopToCount hpc => exact ⟨hpc, rfl, rfl⟩

theorem Transition.fork_inv {q : Tid} (ht : Transition M s c (.fork q t) s') :
    s.pc c = .running ∧ q = (s.rq c).curr ∧ (s.task t).allocated = false ∧
      ∃ tgid, s' = s.modTask t fun _ => ((s.task q).dupTaskStruct tgid).schedFork c := by
  cases ht with
  | fork child thread hpc ha => exact ⟨hpc, rfl, ha, _, rfl⟩

/-- The counter of a task changes by a switch to it, by `start` and by `fork`. -/
theorem Transition.processSwitchesCount_eq (ht : Transition M s c e s')
    (hpc : ∀ prev v, s.pc c ≠ .schedule (.storeCount prev t v)) (hstart : e ≠ .start t)
    (hfork : ∀ q, e ≠ .fork q t) :
    (s'.task t).processSwitchesCount = (s.task t).processSwitchesCount := by
  cases ht.accountStep t with
  | same h => exact congrArg (·.2.2.2) h
  | switchCount next sc hpc' h =>
      rw [h]
      cases sc <;> rfl
  | storeCount prev v hpc' h => exact absurd hpc' (hpc prev v)
  | start hpc' hp he h => exact absurd he hstart
  | fork tgid hpc' he ha h => exact absurd he (hfork _)

/-- A switch announces an increment of the counter of the new task, and of no other. -/
theorem Transition.announced_in_switch {b : Cpu n} {prev next : Tid}
    (ht : Transition M s c (.switch b prev next) s') (hi : Ok M s) {m : BitVec 32}
    (hm : Announced (s.InPending t) (s.task t).processSwitchesCount m) :
    Announced (s'.InPending t) (s'.task t).processSwitchesCount
      (m + if (Event.switch b prev next).isSwitchIn (· == t) then 1 else 0) := by
  obtain ⟨rfl, sc, hpc, rfl⟩ := ht.switch_inv
  obtain ⟨-, hne, hcurr⟩ := hi.switch hpc
  by_cases h : next = t
  · subst h
    rw [if_pos (by simp [Event.isSwitchIn, hne.symm])]
    exact hm.announce (fun ⟨b, hb, _⟩ => hcurr ⟨b, hb⟩) ⟨b, by simp, by simp [counting]⟩ rfl
  · rw [if_neg (by simp [Event.isSwitchIn, h]), add_zero]
    refine hm.congr (exists_congr ?_) rfl
    intro d
    by_cases hd : d = b
    · subst hd
      simp [h, hpc, counting]
    · simp [hd]

/-- Without a switch, only the store to a counter touches it, and it stores what is owed. -/
theorem Transition.announced_in_other (ht : Transition M s c e s') (hi : Ok M s)
    (hs : s.StoreOk) {m : BitVec 32}
    (hm : Announced (s.InPending t) (s.task t).processSwitchesCount m)
    (he : ∀ prev next, e ≠ .switch c prev next) (hstart : e ≠ .start t)
    (hfork : ∀ q, e ≠ .fork q t) :
    Announced (s'.InPending t) (s'.task t).processSwitchesCount m := by
  by_cases hst : ∃ prev v, s.pc c = .schedule (.storeCount prev t v)
  · obtain ⟨prev, v, hpc⟩ := hst
    obtain ⟨rfl, rfl⟩ := ht.storeCount_inv hpc
    have hcurr : t = (s.rq c).curr := hi.pcOk hpc
    have hv := hs c prev t v hpc
    refine hm.store ⟨c, hcurr.symm, by simp [hpc, counting]⟩ ?_ (by simp [hv])
    rintro ⟨b, hb, hcount⟩
    obtain rfl : b = c := hi.curr_injective (hb.trans hcurr)
    simp [counting] at hcount
  · have hpc : ∀ prev v, s.pc c ≠ .schedule (.storeCount prev t v) := fun prev v h =>
      hst ⟨prev, v, h⟩
    refine hm.congr (exists_congr ?_) (ht.processSwitchesCount_eq hpc hstart hfork)
    intro b
    rw [ht.curr_eq he]
    apply and_congr_right
    intro hb
    by_cases hother : ∃ prev next v, s.pc c = .schedule (.storeCount prev next v)
    · -- the store is to the counter of another task, the current one of that CPU
      obtain ⟨prev, next, v, hpcn⟩ := hother
      have hnext : next = (s.rq c).curr := hi.pcOk hpcn
      have hbc : b ≠ c := by
        rintro rfl
        exact hpc prev v (by rw [hpcn, hnext, hb])
      rw [ht.pc_of_ne hbc]
    · rw [ht.counting_eq he fun prev next v h => hother ⟨prev, next, v, h⟩]

/-- The step lemma of the counter: it follows the switches to its task. -/
theorem Transition.announced_in (ht : Transition M s c e s') (hi : Ok M s) (hs : s.StoreOk)
    {m : BitVec 32} (hm : Announced (s.InPending t) (s.task t).processSwitchesCount m)
    (hstart : e ≠ .start t) (hfork : ∀ q, e ≠ .fork q t) :
    Announced (s'.InPending t) (s'.task t).processSwitchesCount
      (m + if e.isSwitchIn (· == t) then 1 else 0) := by
  cases e with
  | switch b prev next => exact ht.announced_in_switch hi hm
  | _ =>
      rw [if_neg (by simp [Event.isSwitchIn]), add_zero]
      exact ht.announced_in_other hi hs hm (fun _ _ h => nomatch h) hstart hfork

/-- No other CPU writes to a counter between its load and its store. -/
theorem Transition.storeOk (ht : Transition M s c e s') (hi : Ok M s) (hs : s.StoreOk) :
    s'.StoreOk := by
  intro b prev next v hpc
  by_cases hb : b = c
  · subst hb
    cases ht with
    | loadCount prev' next' hpc' =>
        obtain ⟨rfl, rfl, rfl⟩ : prev' = prev ∧ next' = next ∧
            (s.task next').processSwitchesCount = v := by simpa using hpc
        rfl
    | loadBalance p src dest hpc' hq hn hl =>
        obtain h | ⟨_, _, _, h⟩ := hpc' <;> simp [h] at hpc
    | _ =>
        have hpc' := ‹s.pc b = _›
        simp_all
  · rw [ht.pc_of_ne hb] at hpc
    have hnext : next = (s.rq b).curr := hi.pcOk hpc
    have hother : next ≠ (s.rq c).curr := fun h => hb (hi.curr_injective (hnext.symm.trans h))
    rw [hs b prev next v hpc]
    symm
    apply ht.processSwitchesCount_eq
    · intro prev' v' hpc'
      exact hother (hi.pcOk hpc')
    · rintro rfl
      exact hother ht.start_inv.2.1
    · rintro q rfl
      have ha : (s.task (s.rq b).curr).allocated = true := hi.allocated_curr
      rw [← hnext, ht.fork_inv.2.2.1] at ha
      cases ha

/-! ## The switch counts of the old task -/

theorem Transition.switchCount_inv {prev next : Tid} {sc : SwitchCount}
    (ht : Transition M s c e s') (hpc : s.pc c = .schedule (.switchCount prev next sc)) :
    e = .tau ∧ s' = (s.modTask prev (·.addSwitchCount sc)).setPc c
      (.schedule (.loadCount prev next)) := by
  obtain ⟨rfl, rfl⟩ := Prod.mk.inj (Option.some.inj (ht.scheduleStep_eq hpc rfl))
  exact ⟨rfl, rfl⟩

/-- Only a switch leads to the increment of a switch count. -/
theorem Transition.ne_switchCount (ht : Transition M s c e s')
    (he : ∀ prev next, e ≠ .switch c prev next) {prev next : Tid} {sc : SwitchCount} :
    s'.pc c ≠ .schedule (.switchCount prev next sc) := by
  intro h
  cases ht with
  | curr prev' next' sc' hpc => exact he prev' next' rfl
  | loadBalance p src dest hpc hq hn hl =>
      obtain hpc | ⟨_, _, _, hpc⟩ := hpc <;> simp [hpc] at h
  | _ =>
      have hpc := ‹s.pc c = _›
      simp_all

/-- The switch counts change by a switch from the task and by `fork`. -/
theorem Transition.switchCounts_eq (ht : Transition M s c e s')
    (hpc : ∀ next sc, s.pc c ≠ .schedule (.switchCount t next sc))
    (hfork : ∀ q, e ≠ .fork q t) : s'.switchCounts t = s.switchCounts t := by
  unfold State.switchCounts
  cases ht.accountStep t with
  | same h => exact congrArg (·.2.2.1) h
  | switchCount next sc hpc' h => exact absurd hpc' (hpc next sc)
  | storeCount prev v hpc' h => rw [h]
  | start hpc' hp he h => rw [h]
  | fork tgid hpc' he ha h => exact absurd he (hfork _)

/-- `++*switch_count`, whichever of the two counters it points to. -/
theorem State.switchCounts_modTask (t : Tid) (sc : SwitchCount) :
    (s.modTask t (·.addSwitchCount sc)).switchCounts t = s.switchCounts t + 1 := by
  cases sc with
  | nvcsw =>
      simp only [switchCounts, modTask_task, Function.update_self, TaskStruct.addSwitchCount]
      ac_rfl
  | nivcsw =>
      simp only [switchCounts, modTask_task, Function.update_self, TaskStruct.addSwitchCount]
      ac_rfl

/-- Only one CPU switches away from a task. -/
theorem Ok.outPending_unique (hi : Ok M s) {b : Cpu n} {next : Tid} {sc : SwitchCount}
    (hpc : s.pc b = .schedule (.switchCount t next sc)) (hc : s.view.Occupies c t) : b = c :=
  hi.custody.occupies_unique (.inr (.inl (view_phase hpc))) hc

/-- A switch announces an increment for the old task, and for no other. -/
theorem Transition.announced_out_switch {b : Cpu n} {prev next : Tid}
    (ht : Transition M s c (.switch b prev next) s') (hi : Ok M s) {m : BitVec 64}
    (hm : Announced (s.OutPending t) (s.switchCounts t) m) :
    Announced (s'.OutPending t) (s'.switchCounts t)
      (m + if (Event.switch b prev next).isSwitchOut t then 1 else 0) := by
  obtain ⟨rfl, sc, hpc, rfl⟩ := ht.switch_inv
  obtain ⟨hprev, hne, -⟩ := hi.switch hpc
  by_cases h : prev = t
  · subst h
    rw [if_pos (by simp [Event.isSwitchOut, hne.symm])]
    refine hm.announce ?_ ⟨b, next, sc, by simp⟩ rfl
    rintro ⟨d, next', sc', hd⟩
    obtain rfl : d = b := hi.outPending_unique hd (.inl hprev.symm)
    rw [hpc] at hd
    cases hd
  · rw [if_neg (by simp [Event.isSwitchOut, h]), add_zero]
    refine hm.congr (exists_congr ?_) rfl
    intro d
    by_cases hd : d = b
    · subst hd
      simp [h, hpc]
    · simp [hd]

/-- Without a switch, only the increment that is owed touches the switch counts. -/
theorem Transition.announced_out_other (ht : Transition M s c e s') (hi : Ok M s)
    {m : BitVec 64} (hm : Announced (s.OutPending t) (s.switchCounts t) m)
    (he : ∀ prev next, e ≠ .switch c prev next) (hfork : ∀ q, e ≠ .fork q t) :
    Announced (s'.OutPending t) (s'.switchCounts t) m := by
  by_cases hst : ∃ next sc, s.pc c = .schedule (.switchCount t next sc)
  · obtain ⟨next, sc, hpc⟩ := hst
    obtain ⟨rfl, rfl⟩ := ht.switchCount_inv hpc
    refine hm.store ⟨c, next, sc, hpc⟩ ?_ ?_
    · rintro ⟨b, next', sc', hb⟩
      have hbc : b ≠ c := by
        rintro rfl
        simp at hb
      rw [ht.pc_of_ne hbc] at hb
      exact hbc (hi.outPending_unique hb (.inr (.inl (view_phase hpc))))
    · exact State.switchCounts_modTask t sc
  · have hpc : ∀ next sc, s.pc c ≠ .schedule (.switchCount t next sc) := fun next sc h =>
      hst ⟨next, sc, h⟩
    refine hm.congr (exists_congr ?_) (ht.switchCounts_eq hpc hfork)
    intro b
    by_cases hb : b = c
    · subst hb
      simp [hpc, ht.ne_switchCount he]
    · rw [ht.pc_of_ne hb]

/-- The step lemma of the switch counts: they follow the switches from the task. -/
theorem Transition.announced_out (ht : Transition M s c e s') (hi : Ok M s) {m : BitVec 64}
    (hm : Announced (s.OutPending t) (s.switchCounts t) m) (hfork : ∀ q, e ≠ .fork q t) :
    Announced (s'.OutPending t) (s'.switchCounts t)
      (m + if e.isSwitchOut t then 1 else 0) := by
  cases e with
  | switch b prev next => exact ht.announced_out_switch hi hm
  | _ =>
      rw [if_neg (by simp [Event.isSwitchOut]), add_zero]
      exact ht.announced_out_other hi hm (fun _ _ h => nomatch h) hfork

/-! ## Switches in and out alternate -/

/-- A task that is current nowhere has been switched out once more than in. -/
theorem Transition.announced_return (ht : Transition M s c e s') (hi : Ok M s) {i o : ℕ}
    (hm : Announced (¬ s.Current t) i o) :
    Announced (¬ s'.Current t) (i + if e.isSwitchIn (· == t) then 1 else 0)
      (o + if e.isSwitchOut t then 1 else 0) := by
  cases e with
  | switch b prev next =>
      obtain ⟨rfl, sc, hpc, rfl⟩ := ht.switch_inv
      obtain ⟨hprev, hne, hcurr⟩ := hi.switch hpc
      by_cases hin : next = t
      · subst hin
        rw [if_pos (by simp [Event.isSwitchIn, hne.symm]),
          if_neg (by simp [Event.isSwitchOut, hne.symm]), add_zero]
        exact hm.store hcurr (not_not.mpr ⟨b, by simp⟩) rfl
      · rw [if_neg (by simp [Event.isSwitchIn, hin]), add_zero]
        by_cases hout : prev = t
        · subst hout
          rw [if_pos (by simp [Event.isSwitchOut, hne.symm])]
          refine hm.announce (not_not.mpr ⟨b, hprev.symm⟩) ?_ rfl
          rintro ⟨d, hd⟩
          have hdb : d ≠ b := by
            rintro rfl
            exact hne (by simpa using hd)
          have hd' : (s.rq d).curr = prev := by simpa [hdb] using hd
          exact hdb (hi.curr_injective (hd'.trans hprev))
        · rw [if_neg (by simp [Event.isSwitchOut, hout]), add_zero]
          refine hm.congr (not_congr (exists_congr ?_)) rfl
          intro d
          by_cases hd : d = b
          · subst hd
            simp [hin, ← hprev, hout]
          · simp [hd]
  | _ =>
      rw [if_neg (by simp [Event.isSwitchIn]), if_neg (by simp [Event.isSwitchOut]), add_zero,
        add_zero]
      refine hm.congr (not_congr (exists_congr ?_)) rfl
      intro d
      rw [ht.curr_eq fun _ _ h => nomatch h]

end Transition

/-! ## Whole runs -/

/-- The state is in order, counters under way included. -/
structure Sound (M : Machine Tid n) (s : State Tid n) : Prop where
  ok : Ok M s
  store : s.StoreOk

section Runs

variable {M : Machine Tid n} {c₀ c : Cpu n} {s s' : State Tid n} {e : Event Tid n}
  {es : List (Event Tid n)} {t : Tid}

theorem Steps.sound (h : Steps M s e s') (hs : Sound M s) : Sound M s' := by
  obtain ⟨c, a, hstep⟩ := h
  have ht := State.step_transition hstep
  exact ⟨ht.ok hs.ok, ht.storeOk hs.ok hs.store⟩

theorem Sound.run (hs : Sound M s) (h : Run (Steps M) s es s') : Sound M s' :=
  h.invariant (fun _ _ _ hs hstep => hstep.sound hs) hs

/-- Every reachable state is sound. -/
theorem run_sound (h : Run (Steps M) (boot M c₀) es s) : Sound M s :=
  Sound.run ⟨boot_ok, fun _ _ _ _ h => nomatch h⟩ h

/-- Nothing is owed to a task while it executes. -/
theorem Sound.not_inPending (hs : Sound M s) (hpc : s.pc c = .running)
    (ht : t = (s.rq c).curr) : ¬ s.InPending t := by
  rintro ⟨b, hb, hcount⟩
  obtain rfl : b = c := hs.ok.curr_injective (hb.trans ht)
  rw [hpc] at hcount
  cases hcount

theorem Sound.not_outPending (hs : Sound M s) (hpc : s.pc c = .running)
    (ht : t = (s.rq c).curr) : ¬ s.OutPending t := by
  rintro ⟨b, next, sc, hb⟩
  obtain rfl : b = c := hs.ok.outPending_unique hb (.inl ht.symm)
  rw [hpc] at hb
  cases hb

/-- A state from which a task is followed: it exists. -/
structure Tracked (M : Machine Tid n) (t : Tid) (s : State Tid n) : Prop where
  sound : Sound M s
  allocated : (s.task t).allocated = true

theorem Steps.tracked (h : Steps M s e s') (hs : Tracked M t s) : Tracked M t s' := by
  obtain ⟨c, a, hstep⟩ := h
  exact ⟨Steps.sound ⟨c, a, hstep⟩ hs.sound,
    (State.step_transition hstep).allocated hs.allocated⟩

/-- Nobody forks a task that exists. -/
theorem Tracked.ne_fork (hs : Tracked M t s) (ht : Transition M s c e s') (q : Tid) :
    e ≠ .fork q t := by
  rintro rfl
  have ha := hs.allocated
  rw [ht.fork_inv.2.2.1] at ha
  cases ha

omit [DecidableEq Tid] in
/-- One more event adds at most one. -/
theorem add_ofNat_add {w : ℕ} (m : BitVec w) (k : ℕ) (b : Bool) :
    m + BitVec.ofNat w (k + if b then 1 else 0) =
      m + BitVec.ofNat w k + if b then 1 else 0 := by
  cases b
  · simp
  · rw [if_pos rfl, if_pos rfl, BitVec.ofNat_add, add_assoc]
    rfl

omit [DecidableEq Tid] in
/-- Adding to a 32-bit count leaves it alone only by going all the way round. -/
theorem add_ofNat_eq_self_iff (x : BitVec 32) (k : ℕ) :
    (x + BitVec.ofNat 32 k).setWidth 64 = x.setWidth 64 ↔ 2 ^ 32 ∣ k := by
  rw [← BitVec.toNat_inj]
  simp only [BitVec.toNat_setWidth, BitVec.toNat_add, BitVec.toNat_ofNat]
  have hx := x.isLt
  omega

/-- A step of the counter of a task that exists. -/
theorem Steps.announced_in (h : Steps M s e s') (hs : Tracked M t s) (hstart : e ≠ .start t)
    {m : BitVec 32} (hm : Announced (s.InPending t) (s.task t).processSwitchesCount m) :
    Announced (s'.InPending t) (s'.task t).processSwitchesCount
      (m + if e.isSwitchIn (· == t) then 1 else 0) := by
  obtain ⟨c, a, hstep⟩ := h
  have ht := State.step_transition hstep
  exact ht.announced_in hs.sound.ok hs.sound.store hm hstart (hs.ne_fork ht)

/-- Over a window without a `start` the counter grows by the switches to its task. -/
theorem run_announced_in (h : Run (Steps M) s es s') (hs : Tracked M t s)
    (hes : .start t ∉ es) {m : BitVec 32}
    (hm : Announced (s.InPending t) (s.task t).processSwitchesCount m) :
    Announced (s'.InPending t) (s'.task t).processSwitchesCount
      (m + BitVec.ofNat 32 (switchIns t es)) := by
  refine h.track (fun es s => Announced (s.InPending t) (s.task t).processSwitchesCount
    (m + BitVec.ofNat 32 (switchIns t es))) (fun _ _ _ hs hstep => hstep.tracked hs) ?_ hs
    (by simpa [switchIns, switchInsOf] using hm)
  intro es' s e s' hs he hm hstep
  rw [switchIns_concat, add_ofNat_add]
  exact hstep.announced_in hs (fun h => hes (h ▸ he)) hm

/-- Over a window the switch counts grow by the switches from their task. -/
theorem run_announced_out (h : Run (Steps M) s es s') (hs : Tracked M t s) {m : BitVec 64}
    (hm : Announced (s.OutPending t) (s.switchCounts t) m) :
    Announced (s'.OutPending t) (s'.switchCounts t)
      (m + BitVec.ofNat 64 (switchOuts t es)) := by
  refine h.track (fun es s => Announced (s.OutPending t) (s.switchCounts t)
    (m + BitVec.ofNat 64 (switchOuts t es))) (fun _ _ _ hs hstep => hstep.tracked hs) ?_ hs
    (by simpa [switchOuts] using hm)
  rintro es' s e s' hs - hm ⟨c, a, hstep⟩
  have ht := State.step_transition hstep
  rw [switchOuts_concat, add_ofNat_add]
  exact ht.announced_out hs.sound.ok hm (hs.ne_fork ht)

/-- Over a window switches in and out alternate. -/
theorem run_announced_return (h : Run (Steps M) s es s') (hs : Sound M s)
    (hm : s.Current t) :
    Announced (¬ s'.Current t) (switchIns t es) (switchOuts t es) := by
  refine h.track (fun es s => Announced (¬ s.Current t) (switchIns t es) (switchOuts t es))
    (fun _ _ _ hs hstep => hstep.sound hs) ?_ hs (.reset (not_not.mpr hm))
  rintro es' s e s' hs - hm ⟨c, a, hstep⟩
  rw [switchIns_concat, switchOuts_concat]
  exact (State.step_transition hstep).announced_return hs.ok hm

end Runs

end LinuxOs2022.Scheduler
