import LinuxOs2022.Scheduler.RepeatedStop

/-!
# The count as an `int`

The counter is an `unsigned int`; `stop` returns it as a `long`, the wrapper of the C library
replaces error numbers by -1, and the program assigns the result to an `int`. A count is
never taken for an error number. As an `int` it is right below `2 ^ 31`, negative from there
on, and at `2 ^ 32` the counter begins anew.

## Implementation notes

The longest schedule repeats one preemption, which can be carried out from every state in
which the CPU executes a task of its own run queue.
-/

namespace LinuxOs2022.Scheduler

open Library

variable {Tid : Type} [DecidableEq Tid] {n : ℕ} {M : Machine Tid n} {c₀ c : Cpu n}
  {s s' s₀ s₁ : State Tid n} {pre es : List (Event Tid n)} {t : Tid} {v : BitVec 64}

/-! ## From the kernel to the program -/

/-- The wrapper of a system call takes the result for an error number: it is one of the top
4095 values. -/
def isErrorNumber (r : BitVec 64) : Bool := decide (2 ^ 64 - 4096 < r.toNat)

/-- `syscall` of the C library, without `errno`. -/
def libcSyscall (r : BitVec 64) : BitVec 64 := if isErrorNumber r then -1 else r

/-- The result of `syscall` assigned to an `int`. -/
def received (r : BitVec 64) : ℤ := ((libcSyscall r).setWidth 32).toInt

/-- What the program expects of the results of successive calls. -/
structure ReceivedInOrder (rs : List (BitVec 64)) : Prop where
  noError : ∀ r ∈ rs, isErrorNumber r = false
  nonneg : ∀ r ∈ rs, 0 ≤ received r
  mono : rs.Pairwise fun r r' => received r ≤ received r'

/-- What a task gets from a call of `stop`. -/
def Event.stopValue (t : Tid) : Event Tid n → Option (BitVec 64)
  | .stop u v => if u = t then some v else none
  | _ => none

/-- The results of the calls of `stop` by a task. -/
def stopValues (t : Tid) (es : List (Event Tid n)) : List (BitVec 64) :=
  es.filterMap (·.stopValue t)

/-- The switches to a task that have been counted at each of its calls of `stop`, beginning
with `m`. -/
def stopCounts (t : Tid) : ℕ → List (Event Tid n) → List ℕ
  | _, [] => []
  | m, e :: es =>
      if (e.stopValue t).isSome then m :: stopCounts t m es
      else stopCounts t (m + if e.isSwitchIn (· == t) then 1 else 0) es

/-- The counts fit into an `int` and do not begin anew. -/
structure CountsInOrder (ms : List ℕ) : Prop where
  fits : ∀ m ∈ ms, m % 2 ^ 32 < 2 ^ 31
  mono : ms.Pairwise fun m m' => m % 2 ^ 32 ≤ m' % 2 ^ 32

/-- The result of `stop` for a count. -/
def resultOf (m : ℕ) : BitVec 64 := (BitVec.ofNat 32 m).setWidth 64

theorem toNat_resultOf (m : ℕ) : (resultOf m).toNat = m % 2 ^ 32 := by
  simp only [resultOf, BitVec.toNat_setWidth, BitVec.toNat_ofNat]
  omega

/-- No count is taken for an error number. -/
theorem isErrorNumber_resultOf (m : ℕ) : isErrorNumber (resultOf m) = false := by
  rw [isErrorNumber, toNat_resultOf]
  exact decide_eq_false (by omega)

/-- The program receives the count wrapped to the range of an `int`. -/
theorem received_resultOf (m : ℕ) : received (resultOf m) = (m : ℤ).bmod (2 ^ 32) := by
  rw [received, libcSyscall, isErrorNumber_resultOf, if_neg Bool.false_ne_true, resultOf,
    BitVec.setWidth_setWidth_of_le _ (by decide), BitVec.setWidth_eq, BitVec.toInt_ofNat']

theorem received_nonneg_iff (m : ℕ) : 0 ≤ received (resultOf m) ↔ m % 2 ^ 32 < 2 ^ 31 := by
  rw [received_resultOf, Int.bmod_def]
  split <;> omega

theorem received_of_lt {m : ℕ} (h : m % 2 ^ 32 < 2 ^ 31) :
    received (resultOf m) = (m % 2 ^ 32 : ℕ) := by
  rw [received_resultOf, Int.bmod_def]
  split <;> omega

/-- The results are in order exactly when the counts are. -/
theorem receivedInOrder_iff (ms : List ℕ) :
    ReceivedInOrder (ms.map resultOf) ↔ CountsInOrder ms := by
  constructor
  · intro h
    have hfits : ∀ m ∈ ms, m % 2 ^ 32 < 2 ^ 31 := fun m hm =>
      (received_nonneg_iff m).mp (h.nonneg _ (List.mem_map_of_mem hm))
    refine ⟨hfits, ?_⟩
    apply (List.pairwise_map.mp h.mono).imp_of_mem
    intro a b ha hb hab
    rw [received_of_lt (hfits a ha), received_of_lt (hfits b hb)] at hab
    exact Int.ofNat_le.mp hab
  · intro h
    constructor
    · intro r hr
      obtain ⟨m, -, rfl⟩ := List.mem_map.mp hr
      exact isErrorNumber_resultOf m
    · intro r hr
      obtain ⟨m, hm, rfl⟩ := List.mem_map.mp hr
      exact (received_nonneg_iff m).mpr (h.fits m hm)
    · apply List.pairwise_map.mpr
      apply h.mono.imp_of_mem
      intro a b ha hb hab
      rw [received_of_lt (h.fits a ha), received_of_lt (h.fits b hb)]
      exact Int.ofNat_le.mpr hab

/-! ## The results of a run -/

theorem Event.stopValue_eq_some {e : Event Tid n} (h : e.stopValue t = some v) :
    e = .stop t v := by
  cases e with
  | stop u w =>
      simp only [stopValue] at h
      split at h
      next hu => rw [hu, Option.some.inj h]
      next => cases h
  | _ => cases h

/-- Every `stop` of a window returns what has been counted by then. -/
theorem stopValues_eq (h : Run (Steps M) s es s') (hs : Tracked M t s) (hes : .start t ∉ es)
    {m : ℕ} (hm : Announced (s.InPending t) (s.task t).processSwitchesCount
      (BitVec.ofNat 32 m)) : stopValues t es = (stopCounts t m es).map resultOf := by
  induction h generalizing m with
  | nil s => rfl
  | @cons s s₁ s' e es hstep _ ih =>
      obtain ⟨hne, hrest⟩ := not_or.mp (List.mem_cons.not.mp hes)
      have hs₁ := hstep.tracked hs
      have hm₁ := hstep.announced_in hs (Ne.symm hne) hm
      cases hv : e.stopValue t with
      | none =>
          rw [stopValues, List.filterMap_cons_none hv, stopCounts, hv]
          refine ih hs₁ hrest ?_
          have hadd := add_ofNat_add (w := 32) 0 m (e.isSwitchIn (· == t))
          rw [zero_add, zero_add] at hadd
          rwa [hadd]
      | some v =>
          obtain rfl := Event.stopValue_eq_some hv
          obtain ⟨-, hpend, -, hw⟩ := hstep.stop hs.sound
          rw [hm.exact hpend] at hw
          rw [if_neg (by simp [Event.isSwitchIn]), add_zero] at hm₁
          rw [stopValues, List.filterMap_cons_some hv, stopCounts, hv, hw]
          exact congrArg _ (ih hs₁ hrest hm₁)

/-- The counts at the calls of `stop` begin with `m` and go up to all switches. -/
theorem mem_stopCounts {m k : ℕ} (h : k ∈ stopCounts t m es) :
    m ≤ k ∧ k ≤ m + switchIns t es := by
  induction es generalizing m with
  | nil => cases h
  | cons e es ih =>
      have hcount : switchIns t (e :: es) =
          switchIns t es + if e.isSwitchIn (· == t) then 1 else 0 := by
        simp [switchIns, switchInsOf, List.countP_cons]
      rw [stopCounts] at h
      split at h
      · obtain rfl | h := List.mem_cons.mp h
        · omega
        · have hk := ih h
          omega
      · have hk := ih h
        omega

theorem pairwise_stopCounts (t : Tid) (m : ℕ) (es : List (Event Tid n)) :
    (stopCounts t m es).Pairwise (· ≤ ·) := by
  induction es generalizing m with
  | nil => exact .nil
  | cons e es ih =>
      rw [stopCounts]
      split
      · exact .cons (fun k hk => (mem_stopCounts hk).1) (ih m)
      · exact ih _

/-- Below `2 ^ 31` the counts are in order. -/
theorem countsInOrder_of_lt {m : ℕ} (h : m + switchIns t es < 2 ^ 31) :
    CountsInOrder (stopCounts t m es) := by
  have hlt : ∀ k ∈ stopCounts t m es, k < 2 ^ 31 := fun k hk =>
    (mem_stopCounts hk).2.trans_lt h
  constructor
  · intro k hk
    have hk := hlt k hk
    omega
  · apply (pairwise_stopCounts t m es).imp_of_mem
    intro a b ha hb hab
    have ha := hlt a ha
    have hb := hlt b hb
    omega

/-- From a call of `stop` on, as long as the task does not call `start`, the program receives
its counts in order exactly when they fit into an `int` and do not begin anew; that is so
while fewer than `2 ^ 31` switches are counted. -/
theorem receivedInOrder_stopValues_iff (h₁ : Run (Steps M) (boot M c₀) pre s₀)
    (h₂ : Run (Steps M) s₀ (.stop t v :: es) s₁) (hes : .start t ∉ es) :
    let m := (s₀.task t).processSwitchesCount.toNat
    (ReceivedInOrder (stopValues t (.stop t v :: es)) ↔
        CountsInOrder (stopCounts t m (.stop t v :: es))) ∧
      (m + switchIns t es < 2 ^ 31 → ReceivedInOrder (stopValues t (.stop t v :: es))) := by
  obtain ⟨s', hstop, -⟩ := Run.cons_iff.mp h₂
  obtain ⟨⟨c, hc⟩, hin, -, -⟩ := hstop.stop (run_sound h₁)
  have htr : Tracked M t s₀ :=
    ⟨run_sound h₁, hc ▸ (run_sound h₁).ok.allocated_curr⟩
  have hm : Announced (s₀.InPending t) (s₀.task t).processSwitchesCount
      (BitVec.ofNat 32 (s₀.task t).processSwitchesCount.toNat) := by
    rw [BitVec.ofNat_toNat, BitVec.setWidth_eq]
    exact .reset hin
  have hstart : .start t ∉ Event.stop t v :: es := by
    simpa using hes
  have hcount : switchIns t (.stop t v :: es) = switchIns t es := by
    simp [switchIns, switchInsOf, Event.isSwitchIn]
  dsimp only
  rw [stopValues_eq h₂ htr hstart hm, receivedInOrder_iff, ← hcount]
  exact ⟨Iff.rfl, countsInOrder_of_lt⟩

/-- Task 10 runs and calls `start`. -/
theorem run_forkAndStart : Run (Steps twoCpus) (boot twoCpus 0) (forkAndRunEvents ++ [.start 10])
    (execState twoCpus (boot twoCpus 0) (forkAndRun ++ [(0, .startToCount)])) :=
  execState_run (forkAndRun ++ [(0, .startToCount)]) rfl

/-- Task 10 calls `stop`, is preempted and calls `stop` again. -/
theorem receivedInOrder_stopValues_iff_preempted :
    let s₀ := execState twoCpus (boot twoCpus 0) (forkAndRun ++ [(0, .startToCount)])
    let m := (s₀.task 10).processSwitchesCount.toNat
    let es : List (Event ℕ 2) := preemptedEvents ++ [.stop 10 1]
    (ReceivedInOrder (stopValues 10 (.stop 10 0 :: es)) ↔
        CountsInOrder (stopCounts 10 m (.stop 10 0 :: es))) ∧
      (m + switchIns 10 es < 2 ^ 31 → ReceivedInOrder (stopValues 10 (.stop 10 0 :: es))) := by
  exact receivedInOrder_stopValues_iff run_forkAndStart
    (execState_run ((0, .stopToCount) :: (preempted ++ [(0, .stopToCount)])) rfl) (by decide)

/-! ## A long run -/

/-- What a preemption on CPU `c` leaves behind. -/
structure Preempted (c : Cpu n) (next : Tid) (s s' : State Tid n) : Prop where
  pc : s'.pc c = .running
  lock : s'.lock (.rq c) = none
  curr : (s'.rq c).curr = next
  task : ∀ t, ((s'.task t).state, (s'.task t).queuedOn) =
    ((s.task t).state, (s.task t).queuedOn)

/-- A statement of `__schedule`. -/
theorem Steps.schedule {e : Event Tid n} {k : SchedulePc Tid} {a : Action Tid n}
    (hpc : s.pc c = .schedule k) (ha : ∀ p d, a ≠ .loadBalance p d)
    (h : s.scheduleStep M c k a = some (e, s')) :
    Steps M s e s' := by
  refine ⟨c, a, ?_⟩
  unfold State.step
  rw [hpc]
  dsimp only
  split
  next prev sc b p d => exact absurd rfl (ha p d)
  next => exact h

/-- A statement of `__schedule` in which nothing is chosen. -/
theorem Steps.scheduleNext {e : Event Tid n} {k : SchedulePc Tid} (hpc : s.pc c = .schedule k)
    (h : s.scheduleStep M c k .next = some (e, s')) : Steps M s e s' :=
  .schedule hpc (by simp) h

/-- A CPU can switch by preemption to any other task of its run queue and to its idle
task. -/
theorem preempt_run (M : Machine Tid n) {next : Tid} (hpc : s.pc c = .running)
    (hl : s.lock (.rq c) = none) (hq : (s.task next).queuedOn = some c ∨ next = M.idle c)
    (hne : next ≠ (s.rq c).curr) :
    ∃ s', Run (Steps M) s (preemptEvents c (s.rq c).curr next) s' ∧ Preempted c next s s' := by
  let prev := (s.rq c).curr
  let s₁ := (s.acquire c (.rq c)).setPc c (.schedule (.loadState true prev))
  let s₂ := s₁.setPc c (.schedule (.pick prev .nivcsw true))
  let s₃ := s₂.setPc c (.schedule (.nrSwitches prev next .nivcsw))
  let s₄ := (s₃.modRq c fun r => { r with nrSwitches := r.nrSwitches + 1 }).setPc c
    (.schedule (.curr prev next .nivcsw))
  let s₅ := (s₄.modRq c fun r => { r with curr := next }).setPc c
    (.schedule (.switchCount prev next .nivcsw))
  let s₆ := (s₅.modTask prev (·.addSwitchCount .nivcsw)).setPc c (.schedule (.loadCount prev next))
  let v := (s₆.task next).processSwitchesCount
  let s₇ := s₆.setPc c (.schedule (.storeCount prev next v))
  let s₈ := (s₇.modTask next fun t => { t with processSwitchesCount := v + 1 }).setPc c
    (.schedule (.prepareTask prev next))
  let s₉ := (s₈.modTask next fun t => { t with onCpu := true }).setPc c
    (.schedule (.finishTask prev))
  let s₁₀ := (s₉.modTask prev fun t => { t with onCpu := false }).setPc c (.schedule .unlock)
  let s₁₁ := (s₁₀.release (.rq c)).setPc c .running
  have h₁ : Steps M s .tau s₁ := ⟨c, .schedule true, by
    simp only [State.step, hpc, State.enterStep, State.free, hl, State.when, decide_true, if_true]
    rfl⟩
  have h₂ : Steps M s₁ .tau s₂ :=
    .schedule (a := .signalPending false) (Function.update_self ..) (by simp) rfl
  have h₃ : Steps M s₂ .tau s₃ := by
    refine .schedule (a := .pick next) (Function.update_self ..) (by simp) ?_
    have hq' : ((s.task next).queuedOn == some c || next == M.idle c) = true := by
      simpa using hq
    exact (if_pos hq').trans (if_neg hne)
  have h₄ : Steps M s₃ .tau s₄ := .scheduleNext (Function.update_self ..) rfl
  have h₅ : Steps M s₄ (.switch c prev next) s₅ := .scheduleNext (Function.update_self ..) rfl
  have h₆ : Steps M s₅ .tau s₆ := .scheduleNext (Function.update_self ..) rfl
  have h₇ : Steps M s₆ .tau s₇ := .scheduleNext (Function.update_self ..) rfl
  have h₈ : Steps M s₇ .tau s₈ := .scheduleNext (Function.update_self ..) rfl
  have h₉ : Steps M s₈ .tau s₉ := .scheduleNext (Function.update_self ..) rfl
  have h₁₀ : Steps M s₉ .tau s₁₀ := .scheduleNext (Function.update_self ..) rfl
  have h₁₁ : Steps M s₁₀ .tau s₁₁ := .scheduleNext (Function.update_self ..) rfl
  refine ⟨s₁₁, .cons h₁ <| .cons h₂ <| .cons h₃ <| .cons h₄ <| .cons h₅ <| .cons h₆ <| .cons h₇ <|
    .cons h₈ <| .cons h₉ <| .cons h₁₀ <| .single h₁₁, ?_⟩
  constructor
  · simp [s₁₁]
  · simp [s₁₁]
  · simp [s₁₁, s₁₀, s₉, s₈, s₇, s₆, s₅]
  · intro t
    let g : TaskStruct Tid n → TaskState × Option (Cpu n) := fun t => (t.state, t.queuedOn)
    have hoff : g (s₁₁.task t) = g (s₉.task t) :=
      State.proj_modTask (p := prev) (f := fun t => { t with onCpu := false }) g rfl
    have hon : g (s₉.task t) = g (s₈.task t) :=
      State.proj_modTask (p := next) (f := fun t => { t with onCpu := true }) g rfl
    have hin : g (s₈.task t) = g (s₇.task t) :=
      State.proj_modTask (p := next) (f := fun t => { t with processSwitchesCount := v + 1 }) g rfl
    have hout : g (s₇.task t) = g (s.task t) :=
      State.proj_modTask (p := prev) (f := (·.addSwitchCount .nivcsw)) g rfl
    exact hoff.trans (hon.trans (hin.trans hout))

/-- Task 10 executes on CPU 0 and is on the run queue of it. -/
structure TenRuns (s : State ℕ 2) : Prop where
  pc : s.pc 0 = .running
  lock : s.lock (.rq 0) = none
  curr : (s.rq 0).curr = 10
  state : (s.task 10).state ≠ taskDead
  queuedOn : (s.task 10).queuedOn = some 0

/-- Task 10 can call `stop`. -/
theorem TenRuns.stop {s : State ℕ 2} (h : TenRuns s) :
    Steps twoCpus s (.stop 10 ((s.task 10).processSwitchesCount.setWidth 64)) s := by
  refine ⟨0, .stopToCount, ?_⟩
  simp [State.step, State.enterStep, State.when, State.callable, State.current, h.pc, h.curr,
    h.state]

/-- The events of `k` preemptions of task 10. -/
def cycles (k : ℕ) : List (Event ℕ 2) := (List.replicate k preemptedEvents).flatten

theorem cycles_run (k : ℕ) {s : State ℕ 2} (h : TenRuns s) :
    ∃ s', Run (Steps twoCpus) s (cycles k) s' ∧ TenRuns s' := by
  induction k generalizing s with
  | zero => exact ⟨s, .nil s, h⟩
  | succ k ih =>
      obtain ⟨s₁, hout, h₁⟩ := preempt_run twoCpus h.pc h.lock (.inr rfl)
        (show 0 ≠ (s.rq 0).curr by rw [h.curr]; decide)
      have ht₁ : (s₁.task 10).queuedOn = some 0 :=
        (congrArg Prod.snd (h₁.task 10)).trans h.queuedOn
      obtain ⟨s₂, hin, h₂⟩ := preempt_run twoCpus h₁.pc h₁.lock (.inl ht₁)
        (show 10 ≠ (s₁.rq 0).curr by rw [h₁.curr]; decide)
      rw [h.curr] at hout
      rw [h₁.curr] at hin
      have h' : TenRuns s₂ :=
        ⟨h₂.pc, h₂.lock, h₂.curr,
          fun hd => h.state (((congrArg Prod.fst (h₁.task 10)).symm.trans
            (congrArg Prod.fst (h₂.task 10)).symm).trans hd),
          (congrArg Prod.snd (h₂.task 10)).trans ht₁⟩
      obtain ⟨s₃, hrest, h₃⟩ := ih h'
      refine ⟨s₃, ?_, h₃⟩
      rw [cycles, List.replicate_succ, List.flatten_cons]
      exact (hout.append hin).append hrest

theorem switchIns_cycles (k : ℕ) : switchIns 10 (cycles k) = k := by
  induction k with
  | zero => rfl
  | succ k ih =>
      have hone : switchIns 10 preemptedEvents = 1 := by decide
      rw [switchIns, switchInsOf] at ih hone ⊢
      rw [cycles, List.replicate_succ, List.flatten_cons, List.countP_append, hone, Nat.add_comm]
      exact congrArg (· + 1) ih

theorem start_notMem_cycles (k t : ℕ) : .start t ∉ cycles k := by
  intro h
  obtain ⟨es, hes, he⟩ := List.mem_flatten.mp h
  rw [List.eq_of_mem_replicate hes] at he
  simp [preemptedEvents, preemptEvents] at he

/-- Task 10 calls `start` and `stop`, is preempted `k` times and calls `stop` again. -/
theorem cycles_between_stops (k : ℕ) :
    ∃ s₀ s₁, Run (Steps twoCpus) (boot twoCpus 0) (forkAndRunEvents ++ [.start 10]) s₀ ∧
      Run (Steps twoCpus) s₀ (.stop 10 0 :: (cycles k ++ [.stop 10 (resultOf k)])) s₁ := by
  let s₀ := execState twoCpus (boot twoCpus 0) (forkAndRun ++ [(0, .startToCount)])
  have h₁ : Run (Steps twoCpus) (boot twoCpus 0) (forkAndRunEvents ++ [.start 10]) s₀ :=
    run_forkAndStart
  have hten : TenRuns s₀ := ⟨rfl, rfl, rfl, by decide, rfl⟩
  have hzero : (s₀.task 10).processSwitchesCount = 0 := rfl
  have hfirst := hten.stop
  obtain ⟨s₁, hrun, hs₁⟩ := cycles_run k hten
  have hlast := hs₁.stop
  obtain ⟨htr, -, hm⟩ := hfirst.after_stop (run_sound h₁)
  obtain ⟨-, hpend, -, -⟩ := hlast.stop (htr.sound.run hrun)
  have hcount := (run_announced_in hrun htr (start_notMem_cycles k 10) hm).exact hpend
  rw [switchIns_cycles, hzero, zero_add] at hcount
  rw [hcount] at hlast
  rw [hzero] at hfirst
  exact ⟨s₀, s₁, h₁, .cons hfirst (hrun.append (.single hlast))⟩

/-- From the `2 ^ 31`st switch on the program can receive a negative count. -/
theorem not_nonneg_of_le {k : ℕ} (hk : 2 ^ 31 ≤ k % 2 ^ 32) :
    ∃ (pre es : List (Event ℕ 2)) (s₀ s₁ : State ℕ 2),
      Run (Steps twoCpus) (boot twoCpus 0) pre s₀ ∧
      Run (Steps twoCpus) s₀ (.stop 10 0 :: es) s₁ ∧ .start 10 ∉ es ∧
      ¬ ReceivedInOrder (stopValues 10 (.stop 10 0 :: es)) := by
  obtain ⟨s₀, s₁, h₁, h₂⟩ := cycles_between_stops k
  have hstart : .start 10 ∉ cycles k ++ [.stop 10 (resultOf k)] := by
    simpa using start_notMem_cycles k 10
  refine ⟨_, _, s₀, s₁, h₁, h₂, hstart, ?_⟩
  intro h
  have hmem : resultOf k ∈ stopValues 10 (.stop 10 0 :: (cycles k ++ [.stop 10 (resultOf k)])) :=
    List.mem_filterMap.mpr ⟨.stop 10 (resultOf k), by simp, by simp [Event.stopValue]⟩
  have hlt := (received_nonneg_iff k).mp (h.nonneg _ hmem)
  omega

/-- After `2 ^ 31` preemptions the program receives a negative count. -/
theorem not_receivedInOrder :
    ¬ ∀ (pre es : List (Event ℕ 2)) (s₀ s₁ : State ℕ 2) (t : ℕ) (v : BitVec 64),
      Run (Steps twoCpus) (boot twoCpus 0) pre s₀ →
      Run (Steps twoCpus) s₀ (.stop t v :: es) s₁ → .start t ∉ es →
      ReceivedInOrder (stopValues t (.stop t v :: es)) := by
  intro hall
  obtain ⟨pre, es, s₀, s₁, h₁, h₂, hstart, h⟩ := not_nonneg_of_le (k := 2 ^ 31) (by decide)
  exact h (hall pre es s₀ s₁ 10 0 h₁ h₂ hstart)

end LinuxOs2022.Scheduler
