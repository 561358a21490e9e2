import LinuxOs2022.Library.Sums
import LinuxOs2022.Scheduler.Counting

/-!
# The counters of tasks and run queues

A switch is counted three times: by `nr_switches` of the run queue before `rq->curr`
changes, and afterwards by a switch count of the old task and by the counter of the new one.
The three sums follow the switches of a run and differ only by the entries that the CPUs are
in the middle of making.
-/

namespace LinuxOs2022.Scheduler

open Library

variable {Tid : Type} [DecidableEq Tid] {n : ℕ}

/-! ## The sums -/

/-- `nr_context_switches()`. -/
def State.nrContextSwitches (s : State Tid n) : BitVec 64 :=
  (List.finRange n).foldl (fun sum i => sum + (s.rq i).nrSwitches) 0

omit [DecidableEq Tid] in
theorem State.nrContextSwitches_eq_sum (s : State Tid n) :
    s.nrContextSwitches = ∑ c, (s.rq c).nrSwitches := by
  rw [Fin.sum_univ_def, List.sum_eq_foldl, List.foldl_map]
  rfl

/-- How many CPUs are at statements that satisfy `k`. -/
def State.during (s : State Tid n) (k : Pc Tid n → Bool) : ℕ :=
  ∑ c, if k (s.pc c) then 1 else 0

/-- A switch that the run queue has counted, before the store to `rq->curr`. -/
def countedEarly : Pc Tid n → Bool
  | .schedule (.curr _ _ _) => true
  | _ => false

/-- A switch that no switch count of the old task has counted yet. -/
def countingOut : Pc Tid n → Bool
  | .schedule (.switchCount _ _ _) => true
  | _ => false

/-- The tasks of the switch that a CPU is about to count. -/
def countedTasks : Pc Tid n → Option (Tid × Tid)
  | .schedule (.nrSwitches prev next _) => some (prev, next)
  | .schedule (.switchCount prev next _) => some (prev, next)
  | .schedule (.storeCount prev next _) => some (prev, next)
  | _ => none

/-- How many switches from one task to another there are. -/
def switches (es : List (Event Tid n)) : ℕ := switchInsOf (fun _ => true) es

theorem switches_concat (es : List (Event Tid n)) (e : Event Tid n) :
    switches (es ++ [e]) = switches es + if e.isSwitchIn fun _ => true then 1 else 0 := by
  simp [switches, switchInsOf, List.countP_append, List.countP_singleton]

/-- A finite set with all tasks in it. -/
def State.Covers (s : State Tid n) (T : Finset Tid) : Prop :=
  ∀ t, (s.task t).allocated = true → t ∈ T

/-- The counters of the tasks in `T` with the entries under way. -/
def State.countedIn (s : State Tid n) (T : Finset Tid) : BitVec 32 :=
  ∑ t ∈ T, (s.task t).processSwitchesCount + (s.during counting : ℕ)

/-- The switch counts of the tasks in `T` with the entries under way. -/
def State.countedOut (s : State Tid n) (T : Finset Tid) : BitVec 64 :=
  ∑ t ∈ T, s.switchCounts t + (s.during countingOut : ℕ)

/-- The switches of the run queues without those that are counted early. -/
def State.countedRq (s : State Tid n) : BitVec 64 :=
  s.nrContextSwitches - (s.during countedEarly : ℕ)

section Transition

variable {M : Machine Tid n} {s s' : State Tid n} {c : Cpu n} {e : Event Tid n} {t : Tid}
  {T : Finset Tid}

/-- A step moves one CPU. -/
theorem Transition.during_eq (ht : Transition M s c e s') (k : Pc Tid n → Bool) :
    s'.during k + (if k (s.pc c) then 1 else 0) =
      s.during k + if k (s'.pc c) then 1 else 0 := by
  have hrest : ∑ d ∈ Finset.univ.erase c, (if k (s'.pc d) then 1 else 0) =
      ∑ d ∈ Finset.univ.erase c, if k (s.pc d) then 1 else 0 :=
    Finset.sum_congr rfl fun d hd => by rw [ht.pc_of_ne (Finset.ne_of_mem_erase hd)]
  unfold State.during
  rw [← Finset.add_sum_erase _ _ (Finset.mem_univ c), hrest,
    ← Finset.add_sum_erase Finset.univ (fun d => if k (s.pc d) then 1 else 0)
      (Finset.mem_univ c)]
  omega

/-- A step between statements of the same kind. -/
theorem Transition.during_same (ht : Transition M s c e s') {k : Pc Tid n → Bool}
    (h : k (s'.pc c) = k (s.pc c)) : s'.during k = s.during k := by
  have hd := ht.during_eq k
  rw [h] at hd
  omega

/-- A step to a statement of the kind. -/
theorem Transition.during_enter (ht : Transition M s c e s') {k : Pc Tid n → Bool}
    (h : k (s.pc c) = false) (h' : k (s'.pc c) = true) : s'.during k = s.during k + 1 := by
  have hd := ht.during_eq k
  simp only [h, h', Bool.false_eq_true, if_false, if_true] at hd
  omega

/-- A step from a statement of the kind. -/
theorem Transition.during_leave (ht : Transition M s c e s') {k : Pc Tid n → Bool}
    (h : k (s.pc c) = true) (h' : k (s'.pc c) = false) : s'.during k + 1 = s.during k := by
  have hd := ht.during_eq k
  simp only [h, h', Bool.false_eq_true, if_false, if_true] at hd
  omega

/-! ## The counters of the tasks -/

/-- The account of a task that does not exist yet changes only when it is created. -/
theorem Transition.account_of_unallocated (ht : Transition M s c e s') (hi : Ok M s)
    (ha : (s.task t).allocated = false) (hfork : ∀ q, e ≠ .fork q t) :
    (s'.task t).account = (s.task t).account := by
  have hocc : ¬ s.view.Occupies c t := fun ho => by
    rw [hi.allocated_of_occupies ho] at ha
    cases ha
  cases ht.accountStep t with
  | same h => exact h
  | switchCount next sc hpc h => exact absurd (.inr (.inl (view_phase hpc))) hocc
  | storeCount prev v hpc h => exact absurd (.inl (hi.pcOk hpc).symm) hocc
  | start hpc hp he h => exact absurd (.inl hp.symm) hocc
  | fork tgid hpc he ha h => exact absurd he (hfork _)

/-- Without a `fork` the tasks that exist are those that existed. -/
theorem Transition.covers (ht : Transition M s c e s') (hi : Ok M s) (hT : s.Covers T)
    (hfork : ∀ q t, e ≠ .fork q t) : s'.Covers T := by
  intro t ha
  by_contra hmem
  have hn : (s.task t).allocated = false := by
    by_contra h
    exact hmem (hT t (Bool.eq_true_of_not_eq_false h))
  have hacc : (s'.task t).allocated = (s.task t).allocated :=
    congrArg Prod.fst (ht.account_of_unallocated hi hn fun q => hfork q t)
  rw [ha, hn] at hacc
  cases hacc

/-- The step lemma of the counters: with the entries under way they follow the switches. -/
theorem Transition.countedIn_eq (ht : Transition M s c e s') (hi : Ok M s) (hs : s.StoreOk)
    (hT : s.Covers T) (hstart : ∀ t, e ≠ .start t) (hfork : ∀ q t, e ≠ .fork q t) :
    s'.countedIn T = s.countedIn T + if e.isSwitchIn fun _ => true then 1 else 0 := by
  unfold State.countedIn
  by_cases hst : ∃ prev next v, s.pc c = .schedule (.storeCount prev next v)
  · obtain ⟨prev, next, v, hpc⟩ := hst
    obtain ⟨rfl, rfl⟩ := ht.storeCount_inv hpc
    have hnext : next = (s.rq c).curr := hi.pcOk hpc
    have hv := hs c prev next v hpc
    have hmem : next ∈ T := hT next (hi.allocated_of_occupies (.inl hnext.symm))
    have hd := ht.during_leave (k := counting) (by simp [hpc, counting]) (by simp [counting])
    have hsum := sum_eq_add_of_entry (f := fun t => (s.task t).processSwitchesCount)
      (g := fun t => (Function.update s.task next
        { s.task next with processSwitchesCount := v + 1 } t).processSwitchesCount)
      (a := 1) hmem (by simp [hv]) fun t h => by simp [h]
    simp only [State.setPc_task, State.modTask_task]
    rw [hsum, ← hd, Nat.cast_add, Nat.cast_one]
    simp only [Event.isSwitchIn, Bool.false_eq_true, if_false]
    abel
  · have hpc : ∀ prev next v, s.pc c ≠ .schedule (.storeCount prev next v) :=
      fun prev next v h => hst ⟨prev, next, v, h⟩
    have hsum : ∑ t ∈ T, (s'.task t).processSwitchesCount =
        ∑ t ∈ T, (s.task t).processSwitchesCount :=
      Finset.sum_congr rfl fun t _ =>
        ht.processSwitchesCount_eq (fun prev v => hpc prev t v) (hstart t) (hfork · t)
    rw [hsum]
    cases e with
    | switch b prev next =>
        obtain ⟨rfl, sc, hcurr, rfl⟩ := ht.switch_inv
        obtain ⟨-, hne, -⟩ := hi.switch hcurr
        rw [ht.during_enter (k := counting) (by simp [hcurr, counting]) (by simp [counting]),
          if_pos (by simp [Event.isSwitchIn, hne.symm]), Nat.cast_add, Nat.cast_one, add_assoc]
    | _ =>
        rw [ht.during_same (ht.counting_eq (fun _ _ h => by cases h) hpc c),
          if_neg (by simp [Event.isSwitchIn]), add_zero]

omit [DecidableEq Tid] in
theorem countingOut_eq_false {k : Pc Tid n}
    (h : ∀ prev next sc, k ≠ .schedule (.switchCount prev next sc)) :
    countingOut k = false := by
  unfold countingOut
  split
  next prev next sc => exact absurd rfl (h prev next sc)
  next => rfl

/-- The step lemma of the switch counts. -/
theorem Transition.countedOut_eq (ht : Transition M s c e s') (hi : Ok M s)
    (hT : s.Covers T) (hfork : ∀ q t, e ≠ .fork q t) :
    s'.countedOut T = s.countedOut T + if e.isSwitchIn fun _ => true then 1 else 0 := by
  unfold State.countedOut
  by_cases hst : ∃ prev next sc, s.pc c = .schedule (.switchCount prev next sc)
  · obtain ⟨prev, next, sc, hpc⟩ := hst
    obtain ⟨rfl, rfl⟩ := ht.switchCount_inv hpc
    have hmem : prev ∈ T :=
      hT prev (hi.allocated_of_occupies (.inr (.inl (view_phase hpc))))
    have hd := ht.during_leave (k := countingOut) (by simp [hpc, countingOut])
      (by simp [countingOut])
    have hsum := sum_eq_add_of_entry (f := fun t => s.switchCounts t)
      (g := fun t => (s.modTask prev (·.addSwitchCount sc)).switchCounts t) (a := 1) hmem
      (State.switchCounts_modTask prev sc) fun t h => by simp [State.switchCounts, h]
    simp only [State.switchCounts, State.setPc_task] at hsum ⊢
    rw [hsum, ← hd, Nat.cast_add, Nat.cast_one]
    simp only [Event.isSwitchIn, Bool.false_eq_true, if_false]
    abel
  · have hpc : ∀ prev next sc, s.pc c ≠ .schedule (.switchCount prev next sc) :=
      fun prev next sc h => hst ⟨prev, next, sc, h⟩
    have hsum : ∑ t ∈ T, s'.switchCounts t = ∑ t ∈ T, s.switchCounts t :=
      Finset.sum_congr rfl fun t _ => ht.switchCounts_eq (hpc t) (hfork · t)
    rw [hsum]
    cases e with
    | switch b prev next =>
        obtain ⟨rfl, sc, hcurr, rfl⟩ := ht.switch_inv
        obtain ⟨-, hne, -⟩ := hi.switch hcurr
        rw [ht.during_enter (k := countingOut) (by simp [hcurr, countingOut])
            (by simp [countingOut]),
          if_pos (by simp [Event.isSwitchIn, hne.symm]), Nat.cast_add, Nat.cast_one, add_assoc]
    | _ =>
        have hpc' : ∀ prev next sc, s'.pc c ≠ .schedule (.switchCount prev next sc) :=
          fun _ _ _ => ht.ne_switchCount fun _ _ h => by cases h
        rw [ht.during_same (by rw [countingOut_eq_false hpc, countingOut_eq_false hpc']),
          if_neg (by simp [Event.isSwitchIn]), add_zero]

/-! ## The run queues -/

theorem Transition.nrSwitches_inv {prev next : Tid} {sc : SwitchCount}
    (ht : Transition M s c e s') (hpc : s.pc c = .schedule (.nrSwitches prev next sc)) :
    e = .tau ∧ s' = (s.modRq c fun r => { r with nrSwitches := r.nrSwitches + 1 }).setPc c
      (.schedule (.curr prev next sc)) := by
  obtain ⟨rfl, rfl⟩ := Prod.mk.inj (Option.some.inj (ht.scheduleStep_eq hpc rfl))
  exact ⟨rfl, rfl⟩

omit [DecidableEq Tid] in
/-- A write to a run queue that leaves its count alone. -/
theorem State.nrSwitches_modRq {g : Rq Tid → Rq Tid}
    (hg : (g (s.rq c)).nrSwitches = (s.rq c).nrSwitches) (d : Cpu n) :
    ((s.modRq c g).rq d).nrSwitches = (s.rq d).nrSwitches := by
  by_cases h : d = c
  · subst h
    simpa using hg
  · simp [h]

/-- Only the statement before a switch counts at a run queue. -/
theorem Transition.nrSwitches_eq (ht : Transition M s c e s')
    (hpc : ∀ prev next sc, s.pc c ≠ .schedule (.nrSwitches prev next sc)) (d : Cpu n) :
    (s'.rq d).nrSwitches = (s.rq d).nrSwitches := by
  cases ht with
  | nrSwitches prev next sc hpc' => exact absurd hpc' (hpc prev next sc)
  | curr prev next sc hpc' =>
      rw [State.setPc_rq]
      exact State.nrSwitches_modRq (by rfl) d
  | pushOnCpu p hpc' hd =>
      rw [State.setPc_rq, State.pushWakeList]
      exact State.nrSwitches_modRq (by rfl) d
  | pushQueue p b hpc' hd =>
      rw [State.setPc_rq, State.pushWakeList]
      exact State.nrSwitches_modRq (by rfl) d
  | takeWakeList hpc' =>
      rw [State.setPc_rq]
      exact State.nrSwitches_modRq (by rfl) d
  | _ => simp

/-- Only a switch leaves the statement after it. -/
theorem Transition.countedEarly_eq (ht : Transition M s c e s')
    (he : ∀ prev next, e ≠ .switch c prev next)
    (hpc : ∀ prev next sc, s.pc c ≠ .schedule (.nrSwitches prev next sc)) :
    countedEarly (s'.pc c) = countedEarly (s.pc c) := by
  cases ht with
  | nrSwitches prev next sc hpc' => exact absurd hpc' (hpc prev next sc)
  | curr prev next sc hpc' => exact absurd rfl (he prev next)
  | loadBalance p src dest hpc' hq hn hl => rfl
  | _ =>
      have hpc' := ‹s.pc c = _›
      simp [countedEarly, hpc']

/-- The step lemma of the run queues. -/
theorem Transition.countedRq_eq (ht : Transition M s c e s') (hi : Ok M s) :
    s'.countedRq = s.countedRq + if e.isSwitchIn fun _ => true then 1 else 0 := by
  unfold State.countedRq
  by_cases hst : ∃ prev next sc, s.pc c = .schedule (.nrSwitches prev next sc)
  · obtain ⟨prev, next, sc, hpc⟩ := hst
    obtain ⟨rfl, rfl⟩ := ht.nrSwitches_inv hpc
    have hd := ht.during_enter (k := countedEarly) (by simp [hpc, countedEarly])
      (by simp [countedEarly])
    have hsum := sum_eq_add_of_entry (f := fun d => (s.rq d).nrSwitches)
      (g := fun d => (Function.update s.rq c
        { s.rq c with nrSwitches := (s.rq c).nrSwitches + 1 } d).nrSwitches) (a := 1)
      (Finset.mem_univ c) (by simp) fun d h => by simp [h]
    rw [hd, State.nrContextSwitches_eq_sum, State.nrContextSwitches_eq_sum, State.setPc_rq,
      State.modRq_rq, hsum, Nat.cast_add, Nat.cast_one]
    simp only [Event.isSwitchIn, Bool.false_eq_true, if_false]
    abel
  · have hpc : ∀ prev next sc, s.pc c ≠ .schedule (.nrSwitches prev next sc) :=
      fun prev next sc h => hst ⟨prev, next, sc, h⟩
    cases e with
    | switch b prev next =>
        obtain ⟨rfl, sc, hcurr, rfl⟩ := ht.switch_inv
        obtain ⟨-, hne, -⟩ := hi.switch hcurr
        have hd := ht.during_leave (k := countedEarly) (by simp [hcurr, countedEarly])
          (by simp [countedEarly])
        have hsum : ∑ d, ((Function.update s.rq b { s.rq b with curr := next }) d).nrSwitches =
            ∑ d, (s.rq d).nrSwitches := Finset.sum_congr rfl fun d _ => by
          by_cases h : d = b
          · subst h
            simp
          · simp [h]
        rw [← hd, State.nrContextSwitches_eq_sum, State.nrContextSwitches_eq_sum,
          State.setPc_rq, State.modRq_rq, hsum, if_pos (by simp [Event.isSwitchIn, hne.symm]),
          Nat.cast_add, Nat.cast_one]
        abel
    | _ =>
        rw [ht.during_same (ht.countedEarly_eq (fun _ _ h => by cases h) hpc),
          State.nrContextSwitches_eq_sum, State.nrContextSwitches_eq_sum,
          Finset.sum_congr rfl fun d _ => ht.nrSwitches_eq hpc d,
          if_neg (by simp [Event.isSwitchIn]), add_zero]

/-- A switch that is counted is one between two tasks. -/
theorem Ok.ne_of_countedTasks (hi : Ok M s) {prev next : Tid}
    (h : countedTasks (s.pc c) = some (prev, next)) : prev ≠ next := by
  cases hpc : s.pc c with
  | schedule k =>
      cases k with
      | nrSwitches p q sc =>
          obtain ⟨rfl, rfl⟩ : p = prev ∧ q = next := by simpa [countedTasks, hpc] using h
          rw [hi.pcOk hpc]
          exact (hi.phaseOk hpc).2.symm
      | switchCount p q sc =>
          obtain ⟨rfl, rfl⟩ : p = prev ∧ q = next := by simpa [countedTasks, hpc] using h
          rw [hi.pcOk hpc]
          exact (hi.phaseOk hpc).2
      | storeCount p q v =>
          obtain ⟨rfl, rfl⟩ : p = prev ∧ q = next := by simpa [countedTasks, hpc] using h
          rw [hi.pcOk hpc]
          exact (hi.phaseOk hpc).2
      | _ => simp [countedTasks, hpc] at h
  | _ => simp [countedTasks, hpc] at h

/-- Whatever a CPU does apart from counting a switch between two tasks, and apart from `start`
and `fork`, leaves every counter alone. -/
theorem Transition.counters_eq (ht : Transition M s c e s') (hi : Ok M s)
    (hstart : ∀ t, e ≠ .start t) (hfork : ∀ q t, e ≠ .fork q t)
    (hpc : ∀ prev next, countedTasks (s.pc c) = some (prev, next) → prev = next) :
    s'.nrContextSwitches = s.nrContextSwitches ∧ ∀ t,
      (s'.task t).processSwitchesCount = (s.task t).processSwitchesCount ∧
        s'.switchCounts t = s.switchCounts t := by
  have hnone : ∀ prev next, countedTasks (s.pc c) ≠ some (prev, next) := fun prev next h =>
    hi.ne_of_countedTasks h (hpc prev next h)
  refine ⟨?_, fun t => ⟨?_, ?_⟩⟩
  · rw [State.nrContextSwitches_eq_sum, State.nrContextSwitches_eq_sum]
    apply Finset.sum_congr rfl
    intro d _
    apply ht.nrSwitches_eq
    intro prev next sc h
    exact hnone prev next (by rw [h, countedTasks])
  · apply ht.processSwitchesCount_eq _ (hstart t) (hfork · t)
    intro prev v h
    exact hnone prev t (by rw [h, countedTasks])
  · apply ht.switchCounts_eq _ (hfork · t)
    intro next sc h
    exact hnone t next (by rw [h, countedTasks])

end Transition

/-! ## Whole runs -/

/-- The switches that a run queue has counted and the counter of the new task has not. -/
def State.owedIn (s : State Tid n) : ℕ := s.during countedEarly + s.during counting

/-- The switches that a run queue has counted and the switch counts of the old task have
not. -/
def State.owedOut (s : State Tid n) : ℕ := s.during countedEarly + s.during countingOut

/-- What a window with events `es` makes of the three sums. -/
structure Accounted (T : Finset Tid) (s : State Tid n) (es : List (Event Tid n))
    (s' : State Tid n) : Prop where
  covers : s'.Covers T
  others : ∀ t, t ∉ T → (s'.task t).account = (s.task t).account
  countedIn : s'.countedIn T = s.countedIn T + BitVec.ofNat 32 (switches es)
  countedOut : s'.countedOut T = s.countedOut T + BitVec.ofNat 64 (switches es)
  countedRq : s'.countedRq = s.countedRq + BitVec.ofNat 64 (switches es)

section Runs

variable {M : Machine Tid n} {c₀ : Cpu n} {s s' s₀ s₁ : State Tid n}
  {pre es : List (Event Tid n)} {T : Finset Tid}

/-- At any time there are finitely many tasks. -/
theorem run_covers (h : Run (Steps M) (boot M c₀) es s) : ∃ T, s.Covers T := by
  have hboot : (boot M c₀).Covers (Finset.univ.image M.idle) := by
    intro t ht
    obtain ⟨c, hc⟩ := Option.isSome_iff_exists.mp ht
    exact Finset.mem_image.mpr ⟨c, Finset.mem_univ c, idleCpu_eq_some hc⟩
  have hkeep : ∀ s e s', (Ok M s ∧ ∃ T, s.Covers T) → Steps M s e s' →
      Ok M s' ∧ ∃ T, s'.Covers T := by
    rintro s e s' ⟨hi, T, hT⟩ hstep
    refine ⟨hstep.ok hi, ?_⟩
    obtain ⟨c, a, hstep⟩ := hstep
    have ht := State.step_transition hstep
    cases e with
    | fork q t =>
        obtain ⟨-, -, -, tgid, rfl⟩ := ht.fork_inv
        refine ⟨insert t T, ?_⟩
        intro p hp
        by_cases hpt : p = t
        · exact hpt ▸ Finset.mem_insert_self t T
        · rw [State.modTask_of_ne hpt] at hp
          exact Finset.mem_insert_of_mem (hT p hp)
    | _ => exact ⟨T, ht.covers hi hT fun _ _ h => nomatch h⟩
  exact (h.invariant hkeep ⟨boot_ok, _, hboot⟩).2

/-- In a window without `start` and `fork` all three sums follow the switches. -/
theorem run_accounted (h : Run (Steps M) s es s') (hs : Sound M s) (hT : s.Covers T)
    (hstart : ∀ t, .start t ∉ es) (hfork : ∀ q t, .fork q t ∉ es) : Accounted T s es s' := by
  refine h.track (fun es s' => Accounted T s es s') (fun _ _ _ hs hstep => hstep.sound hs)
    ?_ hs ⟨hT, fun _ _ => rfl, ?_, ?_, ?_⟩
  · rintro es' r e r' hr he ha ⟨c, a, hstep⟩
    have ht := State.step_transition hstep
    have hstart' : ∀ t, e ≠ .start t := fun t h => hstart t (h ▸ he)
    have hfork' : ∀ q t, e ≠ .fork q t := fun q t h => hfork q t (h ▸ he)
    constructor
    · exact ht.covers hr.ok ha.covers hfork'
    · intro t hmem
      have hn : (r.task t).allocated = false := by
        by_contra hal
        exact hmem (ha.covers t (Bool.eq_true_of_not_eq_false hal))
      exact (ht.account_of_unallocated hr.ok hn fun q => hfork' q t).trans (ha.others t hmem)
    · rw [switches_concat, add_ofNat_add, ← ha.countedIn]
      exact ht.countedIn_eq hr.ok hr.store ha.covers hstart' hfork'
    · rw [switches_concat, add_ofNat_add, ← ha.countedOut]
      exact ht.countedOut_eq hr.ok ha.covers hfork'
    · rw [switches_concat, add_ofNat_add, ← ha.countedRq]
      exact ht.countedRq_eq hr.ok
  all_goals simp [switches, switchInsOf]

/-- The growth of the run queues' counts in terms of the switches. -/
theorem Accounted.nr_growth (h : Accounted T s es s') :
    s'.nrContextSwitches - s.nrContextSwitches + (s.during countedEarly : ℕ) =
      BitVec.ofNat 64 (switches es) + (s'.during countedEarly : ℕ) := by
  have hrq := h.countedRq
  unfold State.countedRq at hrq
  rw [sub_eq_iff_eq_add] at hrq
  rw [hrq]
  abel

/-- The growth of the counters of all tasks. -/
theorem Accounted.in_growth (h : Accounted T s es s') :
    ∑ᶠ t, ((s'.task t).processSwitchesCount - (s.task t).processSwitchesCount) +
      (s'.during counting : ℕ) =
        BitVec.ofNat 32 (switches es) + (s.during counting : ℕ) := by
  have hothers : ∀ t, t ∉ T →
      (s'.task t).processSwitchesCount = (s.task t).processSwitchesCount := fun t ht =>
    congrArg (·.2.2.2) (h.others t ht)
  rw [finsum_growth hothers]
  have hin := h.countedIn
  unfold State.countedIn at hin
  rw [← eq_sub_iff_add_eq] at hin
  rw [hin]
  abel

/-- The growth of the switch counts of all tasks. -/
theorem Accounted.out_growth (h : Accounted T s es s') :
    ∑ᶠ t, (s'.switchCounts t - s.switchCounts t) + (s'.during countingOut : ℕ) =
      BitVec.ofNat 64 (switches es) + (s.during countingOut : ℕ) := by
  have hothers : ∀ t, t ∉ T → s'.switchCounts t = s.switchCounts t := fun t ht =>
    congrArg (·.2.2.1) (h.others t ht)
  rw [finsum_growth hothers]
  have hout := h.countedOut
  unfold State.countedOut at hout
  rw [← eq_sub_iff_add_eq] at hout
  rw [hout]
  abel

/-- In a window without `start` and `fork` the growth of `nr_context_switches` is the sum of
the growths of the tasks' counters and of their switch counts, up to the entries that CPUs
were making when the window began and when it ended; and it counts the switches. A step that
is no part of a switch between two tasks leaves all three alone. -/
theorem run_accounting (h₁ : Run (Steps M) (boot M c₀) pre s₀) (h₂ : Run (Steps M) s₀ es s₁)
    (hstart : ∀ t, .start t ∉ es) (hfork : ∀ q t, .fork q t ∉ es) :
    (s₁.nrContextSwitches - s₀.nrContextSwitches).setWidth 32 + (s₀.owedIn : ℕ) =
        ∑ᶠ t, ((s₁.task t).processSwitchesCount - (s₀.task t).processSwitchesCount) +
          (s₁.owedIn : ℕ) ∧
      s₁.nrContextSwitches - s₀.nrContextSwitches + (s₀.owedOut : ℕ) =
        ∑ᶠ t, (s₁.switchCounts t - s₀.switchCounts t) + (s₁.owedOut : ℕ) ∧
      s₁.nrContextSwitches - s₀.nrContextSwitches + (s₀.during countedEarly : ℕ) =
        BitVec.ofNat 64 (switches es) + (s₁.during countedEarly : ℕ) ∧
      ∀ c a e s', s₁.step M c a = some (e, s') → (∀ t, e ≠ .start t) →
        (∀ q t, e ≠ .fork q t) →
        (∀ prev next, countedTasks (s₁.pc c) = some (prev, next) → prev = next) →
        s'.nrContextSwitches = s₁.nrContextSwitches ∧ ∀ t,
          (s'.task t).processSwitchesCount = (s₁.task t).processSwitchesCount ∧
            s'.switchCounts t = s₁.switchCounts t := by
  obtain ⟨T, hT⟩ := run_covers h₁
  have ha := run_accounted h₂ (run_sound h₁) hT hstart hfork
  have hnr := ha.nr_growth
  have hi : Ok M s₁ := ((run_sound h₁).run h₂).ok
  refine ⟨?_, ?_, hnr, fun c a e s' hstep hs hf hk =>
    (State.step_transition hstep).counters_eq hi hs hf hk⟩
  · have hin := ha.in_growth
    have hnr' := congrArg (BitVec.setWidth 32) hnr
    rw [BitVec.setWidth_add _ _ (by decide), BitVec.setWidth_add _ _ (by decide),
      BitVec.natCast_eq_ofNat, BitVec.natCast_eq_ofNat] at hnr'
    simp only [BitVec.setWidth_ofNat_of_le (show 32 ≤ 64 by decide)] at hnr'
    simp only [State.owedIn, Nat.cast_add, BitVec.natCast_eq_ofNat] at hin ⊢
    linear_combination hnr' - hin
  · have hout := ha.out_growth
    simp only [State.owedOut, Nat.cast_add]
    linear_combination hnr - hout

end Runs

/-- CPU 0 forks task 10 and wakes it on its own run queue. -/
def forkAndWake : List (Cpu 2 × Action ℕ 2) := (0, .fork 10 false) :: wakeNew 0 10 0

theorem run_forkAndWake : Run (Steps twoCpus) (boot twoCpus 0)
    (.fork 0 10 :: List.replicate 8 .tau) (execState twoCpus (boot twoCpus 0) forkAndWake) :=
  execState_run forkAndWake rfl

/-- Task 10 is switched in. -/
theorem run_accounting_preempt :
    let s₀ := execState twoCpus (boot twoCpus 0) forkAndWake
    let s₁ := execState twoCpus s₀ (preempt 0 10)
    (s₁.nrContextSwitches - s₀.nrContextSwitches).setWidth 32 + (s₀.owedIn : ℕ) =
        ∑ᶠ t, ((s₁.task t).processSwitchesCount - (s₀.task t).processSwitchesCount) +
          (s₁.owedIn : ℕ) ∧
      s₁.nrContextSwitches - s₀.nrContextSwitches + (s₀.owedOut : ℕ) =
        ∑ᶠ t, (s₁.switchCounts t - s₀.switchCounts t) + (s₁.owedOut : ℕ) ∧
      s₁.nrContextSwitches - s₀.nrContextSwitches + (s₀.during countedEarly : ℕ) =
        BitVec.ofNat 64 (switches (preemptEvents (0 : Cpu 2) 0 10)) +
          (s₁.during countedEarly : ℕ) ∧
      ∀ c a e s', s₁.step twoCpus c a = some (e, s') → (∀ t, e ≠ .start t) →
        (∀ q t, e ≠ .fork q t) →
        (∀ prev next, countedTasks (s₁.pc c) = some (prev, next) → prev = next) →
        s'.nrContextSwitches = s₁.nrContextSwitches ∧ ∀ t,
          (s'.task t).processSwitchesCount = (s₁.task t).processSwitchesCount ∧
            s'.switchCounts t = s₁.switchCounts t := by
  have h : Run (Steps twoCpus) (execState twoCpus (boot twoCpus 0) forkAndWake)
      (preemptEvents 0 0 10) _ := execState_run (preempt 0 10) rfl
  exact run_accounting run_forkAndWake h (by simp [preemptEvents]) (by simp [preemptEvents])

/-- A window that ends right after `rq->nr_switches++`: the counters of the tasks follow
later. -/
theorem not_run_accounting :
    ¬ ∀ (pre es : List (Event ℕ 2)) (s₀ s₁ : State ℕ 2),
      Run (Steps twoCpus) (boot twoCpus 0) pre s₀ → Run (Steps twoCpus) s₀ es s₁ →
      (∀ t, .start t ∉ es) → (∀ q t, .fork q t ∉ es) →
      (s₁.nrContextSwitches - s₀.nrContextSwitches).setWidth 32 =
        ∑ᶠ t, ((s₁.task t).processSwitchesCount - (s₀.task t).processSwitchesCount) := by
  intro hall
  have hrun : Run (Steps twoCpus) (execState twoCpus (boot twoCpus 0) forkAndWake)
      (List.replicate 4 .tau) _ := execState_run ((preempt 0 10).take 4) rfl
  have h := hall _ _ _ _ run_forkAndWake hrun (by simp) (by simp)
  have hsame : ∀ t, ((execState twoCpus (execState twoCpus (boot twoCpus 0) forkAndWake)
      ((preempt 0 10).take 4)).task t).processSwitchesCount =
      ((execState twoCpus (boot twoCpus 0) forkAndWake).task t).processSwitchesCount :=
    fun _ => rfl
  simp only [hsame, sub_self, finsum_zero] at h
  exact absurd h (by decide)

end LinuxOs2022.Scheduler
