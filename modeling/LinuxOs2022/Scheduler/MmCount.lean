import LinuxOs2022.Scheduler.LazyTlb

/-!
# `mm_count` is exact

What the rest of the kernel does to address spaces keeps the references in order too: new
address spaces, further references, `exec`, `exit` and `fork`. So in every run `mm_count` is
the number of references, and every CPU runs in an address space that is alive.
-/

namespace LinuxOs2022.Scheduler

open Custody Library MmState

variable {Tid Mm : Type} [DecidableEq Tid] [DecidableEq Mm] {n : ℕ} {M : Machine Tid n}
  {r r' : MmState Tid Mm n} {c : Cpu n} {e : Event Tid n} {p : Tid} {m : Mm}

/-! ## The rest of the kernel -/

/-- References elsewhere in the kernel change, with the counter. -/
theorem MmOk.account (hr : MmOk M r) {k : Counter} {h : ℕ}
    (hh : (r.users m).Nonempty → 0 < h) (hk : k.Counts (h + ∑ c, r.claims m c)) :
    MmOk M { r with
      counter := Function.update r.counter m k, held := Function.update r.held m h } := by
  refine { hr with held := fun x hx => ?_, counter := fun x => ?_ }
  · by_cases hxm : x = m
    · subst hxm
      simpa using hh hx
    · simpa [hxm] using hr.held x hx
  · change (Function.update r.counter m k x).Counts
      (Function.update r.held m h x + ∑ c, r.claims x c)
    by_cases hxm : x = m
    · subst hxm
      simpa using hk
    · simpa [hxm, refs] using hr.counter x

/-- A new address space has one reference. -/
theorem MmOk.allocMm (hr : MmOk M r) (hm : (r.counter m).life = .unborn) :
    MmOk M ({ r with counter := Function.update r.counter m .init }.setHeld m 1) := by
  have hzero : r.refs m = 0 := by
    by_contra hpos
    have hlive := (hr.counter m).live_iff.mpr (Nat.pos_of_ne_zero hpos)
    rw [hm] at hlive
    cases hlive
  unfold refs at hzero
  apply hr.account
  · exact fun _ => Nat.one_pos
  · exact Counter.counts_init.congr (by omega)

/-- A holder takes a reference. -/
theorem MmOk.grabMm (hr : MmOk M r) (hm : 0 < r.held m) :
    MmOk M ((r.mmgrab m).setHeld m (r.held m + 1)) := by
  have hget := (hr.counter m).get (by unfold refs; omega)
  apply hr.account
  · exact fun _ => Nat.succ_pos _
  · exact hget.congr (by unfold refs; omega)

/-- A holder gives up its reference; the last one is that of the users. -/
theorem MmOk.dropMm (hr : MmOk M r) (hm : 1 < r.held m ∨ 0 < r.held m ∧ r.users m = ∅) :
    MmOk M ((r.mmdrop m).setHeld m (r.held m - 1)) := by
  apply hr.account
  · intro hu
    obtain hm | ⟨-, hm⟩ := hm
    · omega
    · rw [hm] at hu
      exact absurd hu Finset.not_nonempty_empty
  · apply Counter.Counts.put
    refine (hr.counter m).congr ?_
    unfold refs
    omega

omit [DecidableEq Tid] [DecidableEq Mm] in
/-- The current task of a CPU that executes it. -/
theorem MmState.runner_of_executes (h : r.executes c = true) :
    r.runner c = (r.sched.rq c).curr := by
  unfold executes at h
  split at h
  next hpc hst => simp [runner, hpc, phaseOf]
  next => cases h

omit [DecidableEq Tid] [DecidableEq Mm] in
theorem MmState.stage_of_executes (h : r.executes c = true) :
    r.sched.pc c = .running ∧ r.stage c = .outside := by
  unfold executes at h
  split at h
  next hpc hst => exact ⟨hpc, hst⟩
  next => cases h

/-- The current task gets another address space, or lends its own. -/
structure Assigned (r r' : MmState Tid Mm n) (c : Cpu n) (p : Tid) (x : Option Mm) (a : Mm) :
    Prop where
  sched : r'.sched = r.sched
  stage : r'.stage = r.stage
  prevMm : r'.prevMm = r.prevMm
  held : r'.held = r.held
  mm : r'.mm = Function.update r.mm p x
  activeMm : r'.activeMm = Function.update r.activeMm p (some a)
  own : x = none ∨ x = some a
  executes : r.executes c = true
  runner : r.runner c = p

section Assigned

variable {x : Option Mm} {a : Mm}

omit [DecidableEq Mm] in
theorem Assigned.runner_eq (ha : Assigned r r' c p x a) (b : Cpu n) :
    r'.runner b = r.runner b := by
  unfold MmState.runner
  rw [ha.sched, ha.stage]

theorem Assigned.claims_other (ha : Assigned r r' c p x a) (hr : MmOk M r) {b : Cpu n}
    (hb : b ≠ c) : r'.claims m b = r.claims m b := by
  have hne : r.runner b ≠ p := fun he => hb (hr.runner_unique (he.trans ha.runner.symm))
  apply claims_congr
  · apply borrowed_congr (ha.runner_eq b)
    · rw [ha.mm, Function.update_of_ne hne]
    · rw [ha.activeMm, Function.update_of_ne hne]
  · rw [ha.prevMm]
  · rw [ha.stage]

theorem Assigned.claims_self (ha : Assigned r r' c p x a) (hr : MmOk M r) :
    r'.claims m c = if x = none ∧ a = m then 1 else 0 := by
  have hst := (stage_of_executes ha.executes).2
  have hnone : r.prevMm c = none := hr.prevMm c (by simp [hst])
  unfold claims borrowed
  rw [ha.runner_eq, ha.runner, ha.mm, ha.activeMm, ha.prevMm, ha.stage, Function.update_self,
    Function.update_self, hst, hnone]
  cases x <;> simp [Stage.mm]

theorem MmOk.assigned (hr : MmOk M r) (ha : Assigned r r' c p x a)
    (husers : ∀ q m, q ∈ r'.users m ↔ r'.mm q = some m)
    (hheld : ∀ m, (r'.users m).Nonempty → 0 < r.held m)
    (hcounter : ∀ m, (r'.counter m).Counts (r'.refs m)) : MmOk M r' := by
  constructor
  · rw [ha.sched]
    exact hr.awake
  · intro b
    have hst := hr.stage b
    rw [ha.stage]
    unfold StageOk at hst ⊢
    rwa [ha.sched]
  · rw [ha.stage, ha.prevMm]
    exact hr.prevMm
  · intro b
    rw [ha.runner_eq, ha.mm, ha.activeMm]
    by_cases hb : b = c
    · subst hb
      rw [ha.runner, Function.update_self, Function.update_self]
      exact ⟨a, rfl, ha.own⟩
    · have hne : r.runner b ≠ p := fun he => hb (hr.runner_unique (he.trans ha.runner.symm))
      rw [Function.update_of_ne hne, Function.update_of_ne hne]
      exact hr.active b
  · intro q hq
    have hqp : q ≠ p := by
      rintro rfl
      exact hq c ((ha.runner_eq c).trans ha.runner)
    rw [ha.mm, ha.activeMm, Function.update_of_ne hqp, Function.update_of_ne hqp]
    exact hr.resting q fun b => ha.runner_eq b ▸ hq b
  · intro q hq
    rw [ha.sched] at hq
    have hqp : q ≠ p := by
      rintro rfl
      have hal := hr.awake.ok.allocated_of_occupies (r.runner_occupies c)
      rw [ha.runner, hq] at hal
      cases hal
    rw [ha.mm, Function.update_of_ne hqp]
    exact hr.unused q hq
  · exact husers
  · rw [ha.held]
    exact hheld
  · exact hcounter

end Assigned

/-- `exec` gives the current task a new address space, and the one that it had borrowed, if
any, back. -/
theorem MmOk.takeMm (hr : MmOk M r) (hex : r.executes c = true) (hm : 0 < r.held m) :
    ∃ r₁, r.takeMm c m = some r₁ ∧ MmOk M r₁ := by
  have hrun := runner_of_executes hex
  have hst := (stage_of_executes hex).2
  have hnone : r.prevMm c = none := hr.prevMm c (by simp [hst])
  obtain ⟨a, ha, hmm⟩ := hr.active c
  rw [hrun] at ha hmm
  unfold MmState.takeMm
  have hcur : r.sched.current c = (r.sched.rq c).curr := rfl
  rw [hcur]
  generalize (r.sched.rq c).curr = p at *
  have hclaims : ∀ x, r.claims x c = if r.mm p = none ∧ a = x then 1 else 0 := by
    intro x
    unfold claims borrowed
    rw [hrun, hnone, hst, ha]
    cases r.mm p <;> simp [Stage.mm]
  cases hp : r.mm p with
  | none =>
      have has : Assigned r ((((r.setMm p (some m)).setActiveMm p (some m)).mmdrop a).setUsers m
          (insert p (r.users m))) c p (some m) m :=
        ⟨rfl, rfl, rfl, rfl, rfl, rfl, .inr rfl, hex, hrun⟩
      refine ⟨_, by simp [ha, hp], hr.assigned has ?_ ?_ ?_⟩
      · intro q x
        change q ∈ Function.update r.users m (insert p (r.users m)) x ↔
          Function.update r.mm p (some m) q = some x
        have hu := hr.users q x
        grind
      · intro x hx
        by_cases hxm : x = m
        · rwa [hxm]
        · exact hr.held x (by simpa [setUsers, mmdrop, setActiveMm, setMm, hxm] using hx)
      · intro x
        change (Function.update r.counter a (r.counter a).put x).Counts _
        have hrefs := refs_add_claims (m := x) (r := r) (by rfl) fun b hb =>
          has.claims_other hr hb
        rw [hclaims, has.claims_self hr] at hrefs
        by_cases hxa : x = a
        · subst hxa
          rw [Function.update_self]
          apply Counter.Counts.put
          apply (hr.counter x).congr
          simpa [hp] using hrefs
        · rw [Function.update_of_ne hxa]
          apply (hr.counter x).congr
          simpa [Ne.symm hxa] using hrefs
  | some old =>
      have has : Assigned r (((((r.setMm p (some m)).setActiveMm p (some m)).setUsers old
          (r.users old \ {p}))).setUsers m (insert p (Function.update r.users old
          (r.users old \ {p}) m))) c p (some m) m :=
        ⟨rfl, rfl, rfl, rfl, rfl, rfl, .inr rfl, hex, hrun⟩
      refine ⟨_, by simp [hp]; rfl, hr.assigned has ?_ ?_ ?_⟩
      · intro q x
        change q ∈ Function.update (Function.update r.users old (r.users old \ {p})) m
            (insert p (Function.update r.users old (r.users old \ {p}) m)) x ↔
          Function.update r.mm p (some m) q = some x
        have hu := hr.users q x
        grind
      · intro x hx
        by_cases hxm : x = m
        · rwa [hxm]
        · apply hr.held x
          by_cases hxo : x = old
          · subst hxo
            have hx' : (r.users x \ {p}).Nonempty := by
              simpa [setUsers, setActiveMm, setMm, hxm] using hx
            exact hx'.mono Finset.sdiff_subset
          · simpa [setUsers, setActiveMm, setMm, hxm, hxo] using hx
      · intro x
        have hrefs := refs_add_claims (m := x) (r := r) (by rfl) fun b hb =>
          has.claims_other hr hb
        rw [hclaims, has.claims_self hr] at hrefs
        apply (hr.counter x).congr
        simpa [hp] using hrefs

/-- `exit` makes the current task a borrower of its address space. -/
theorem MmOk.leaveMm (hr : MmOk M r) (hex : r.executes c = true) {r₁ : MmState Tid Mm n}
    (h : r.leaveMm c = some r₁) : MmOk M r₁ := by
  have hrun := runner_of_executes hex
  obtain ⟨a, ha, hmm⟩ := hr.active c
  rw [hrun] at ha hmm
  unfold MmState.leaveMm at h
  have hcur : r.sched.current c = (r.sched.rq c).curr := rfl
  rw [hcur] at h
  have hst := (stage_of_executes hex).2
  have hnone : r.prevMm c = none := hr.prevMm c (by simp [hst])
  generalize (r.sched.rq c).curr = p at *
  obtain ⟨m, hp, rfl⟩ := Option.map_eq_some_iff.mp h
  obtain rfl : m = a := by simpa [hp] using hmm
  have has : Assigned r (((r.setMm p none).mmgrab m).setUsers m (r.users m \ {p})) c p none m := by
    refine ⟨rfl, rfl, rfl, rfl, rfl, ?_, .inl rfl, hex, hrun⟩
    rw [← ha]
    exact (Function.update_eq_self p r.activeMm).symm
  apply hr.assigned has
  · intro q x
    change q ∈ Function.update r.users m (r.users m \ {p}) x ↔
      Function.update r.mm p none q = some x
    have hu := hr.users q x
    grind
  · intro x hx
    apply hr.held x
    by_cases hxm : x = m
    · subst hxm
      have hx' : (r.users x \ {p}).Nonempty := by
        simpa [setUsers, mmgrab, setMm] using hx
      exact hx'.mono Finset.sdiff_subset
    · simpa [setUsers, mmgrab, setMm, hxm] using hx
  · intro x
    change (Function.update r.counter m (r.counter m).get x).Counts _
    have hrefs := refs_add_claims (m := x) (r := r) (by rfl) fun b hb =>
      has.claims_other hr hb
    have hself : r.claims x c = 0 := by
      unfold claims borrowed
      rw [hrun, hp, hnone, hst]
      simp [Stage.mm]
    rw [hself, has.claims_self hr] at hrefs
    by_cases hxm : x = m
    · subst hxm
      rw [Function.update_self]
      have hpos : 0 < r.refs x := hr.refs_pos_of_active (by rw [hrun, ha])
      apply ((hr.counter x).get hpos).congr
      simpa using hrefs
    · rw [Function.update_of_ne hxm]
      apply (hr.counter x).congr
      simpa [Ne.symm hxm] using hrefs

/-- The child of a `fork` is a record that was not in use. -/
theorem State.step_fork {s s' : State Tid n} {child : Tid} {thread : Bool}
    (hpc : s.pc c = .running) (h : s.step M c (.fork child thread) = some (e, s')) :
    (s.task child).allocated = false ∧ (s'.task child).allocated = true := by
  have hf : s.fork c child thread = some (e, s') := by
    simpa [State.step, hpc, State.enterStep] using h
  obtain ⟨hb, hf⟩ := State.when_eq_some.mp hf
  obtain ⟨-, rfl⟩ := Prod.mk.inj (Option.some.inj hf)
  simp only [Bool.and_eq_true, Bool.not_eq_true'] at hb
  exact ⟨hb.2, by simp [TaskStruct.schedFork, TaskStruct.basicSchedFork, TaskStruct.dupTaskStruct]⟩

/-- A task that no CPU runs gets its first address space, or none. -/
theorem MmOk.copyMm (hr : MmOk M r) {child : Tid} {x : Option Mm}
    (hrun : ∀ b, r.runner b ≠ child) (hal : (r.sched.task child).allocated = true)
    (hmm : r.mm child = none) (hx : ∀ m, x = some m → 0 < r.held m) :
    MmOk M (r.copyMm child x) := by
  have hfields : (r.copyMm child x).sched = r.sched ∧ (r.copyMm child x).stage = r.stage ∧
      (r.copyMm child x).prevMm = r.prevMm ∧ (r.copyMm child x).held = r.held ∧
      (r.copyMm child x).counter = r.counter ∧
      (r.copyMm child x).mm = Function.update r.mm child x ∧
      (r.copyMm child x).activeMm = Function.update r.activeMm child x := by
    cases x <;> exact ⟨rfl, rfl, rfl, rfl, rfl, rfl, rfl⟩
  have husers : ∀ q m, q ∈ (r.copyMm child x).users m ↔
      q ∈ r.users m ∨ q = child ∧ x = some m := by
    intro q m
    cases x with
    | none => simp [MmState.copyMm, setMm, setActiveMm]
    | some a =>
        change q ∈ Function.update r.users a (insert child (r.users a)) m ↔ _
        by_cases ha : m = a
        · subst ha
          simp [or_comm]
        · simp [ha, Ne.symm ha]
  generalize r.copyMm child x = r' at hfields husers ⊢
  obtain ⟨hsched, hstage, hprev, hheld, hcounter, hmm', hact'⟩ := hfields
  have hrunner : r'.runner = r.runner := by
    funext b
    unfold MmState.runner
    rw [hsched, hstage]
  constructor
  · rw [hsched]
    exact hr.awake
  · intro b
    have hst := hr.stage b
    rw [hstage]
    unfold StageOk at hst ⊢
    rwa [hsched]
  · rw [hstage, hprev]
    exact hr.prevMm
  · intro b
    rw [hrunner, hmm', hact', Function.update_of_ne (hrun b), Function.update_of_ne (hrun b)]
    exact hr.active b
  · intro q hq
    rw [hmm', hact']
    by_cases hqc : q = child
    · rw [hqc, Function.update_self, Function.update_self]
    · rw [Function.update_of_ne hqc, Function.update_of_ne hqc]
      exact hr.resting q (hrunner ▸ hq)
  · intro q hq
    rw [hsched] at hq
    have hqc : q ≠ child := by
      rintro rfl
      rw [hal] at hq
      cases hq
    rw [hmm', Function.update_of_ne hqc]
    exact hr.unused q hq
  · intro q m
    rw [husers, hr.users, hmm']
    by_cases hqc : q = child
    · subst hqc
      simp [hmm]
    · simp [hqc]
  · rintro m ⟨q, hq⟩
    rw [hheld]
    obtain hq | ⟨-, hxm⟩ := (husers q m).mp hq
    · exact hr.held m ⟨q, hq⟩
    · exact hx m hxm
  · intro m
    rw [hcounter]
    refine (hr.counter m).congr (refs_congr (by rw [hheld]) fun b => ?_)
    apply claims_congr
    · apply borrowed_congr (congrFun hrunner b)
      · rw [hmm', Function.update_of_ne (hrun b)]
      · rw [hact', Function.update_of_ne (hrun b)]
    · rw [hprev]
    · rw [hstage]

/-- The child of a `fork` gets its address space. -/
theorem MmOk.fork (hr : MmOk M r) {s' : State Tid n} {child : Tid} {thread : Bool} {x : Option Mm}
    (hex : r.executes c = true) (hx : ∀ m, x = some m → 0 < r.held m)
    (hstep : r.sched.step M c (.fork child thread) = some (e, s')) :
    MmOk M ({ r with sched := s' }.copyMm child x) := by
  have hpc := (stage_of_executes hex).1
  obtain ⟨hfree, hal⟩ := State.step_fork hpc hstep
  have hfin : ∀ prev, r.sched.pc c = .schedule (.finishTask prev) →
      ∃ q v y, r.stage c = .finishing q v y := by
    intro prev h
    rw [hpc] at h
    cases h
  have hs : MmOk M { r with sched := s' } := hr.sched hstep hfin fun _ h => nomatch h
  refine hs.copyMm (fun b hb => ?_) hal (hr.unused child hfree) hx
  have hb' := (hr.runner_sched (State.step_transition hstep) hfin b).symm.trans hb
  have hal' := hr.awake.ok.allocated_of_occupies (r.runner_occupies b)
  rw [hb', hfree] at hal'
  cases hal'

/-! ## Whole runs -/

/-- A step of some CPU. -/
def MmSteps (M : Machine Tid n) (r : MmState Tid Mm n) (e : Event Tid n)
    (r' : MmState Tid Mm n) : Prop := ∃ c a, r.step M c a = some (e, r')

/-- After boot the idle tasks run in the address space `m₀`. -/
def bootMm (M : Machine Tid n) (c₀ : Cpu n) (m₀ : Mm) : MmState Tid Mm n where
  sched := boot M c₀
  stage := fun _ => .outside
  mm := fun _ => none
  activeMm := fun p => if (M.idleCpu p).isSome then some m₀ else none
  prevMm := fun _ => none
  counter := fun m => if m = m₀ then ⟨n + 1, .live⟩ else .unborn
  users := fun _ => ∅
  held := fun m => if m = m₀ then 1 else 0
  dropped := fun _ => 0

/-- Every step keeps the references in order. -/
theorem MmSteps.ok (h : MmSteps M r e r') (hr : MmOk M r) : MmOk M r' := by
  obtain ⟨c, a, h⟩ := h
  unfold MmState.step at h
  split at h
  next a =>
    split at h
    next hready =>
      obtain ⟨⟨e', s'⟩, hstep, heq⟩ := Option.map_eq_some_iff.mp h
      obtain ⟨rfl, rfl⟩ := Prod.mk.inj heq
      refine hr.sched hstep (fun _ => ready_finishTask hready hstep) ?_
      rintro preempt rfl
      exact (ready_schedule hready).1
    next => cases h
  next child thread x =>
    split at h
    next hb =>
      obtain ⟨⟨e', s'⟩, hstep, heq⟩ := Option.map_eq_some_iff.mp h
      obtain ⟨rfl, rfl⟩ := Prod.mk.inj heq
      obtain ⟨hex, hx⟩ := Bool.and_eq_true_iff.mp hb
      refine hr.fork hex ?_ hstep
      rintro m rfl
      simpa using hx
    next => cases h
  next =>
    split at h
    next prev hpc hst =>
      obtain ⟨r₁, hsw, heq⟩ := Option.map_eq_some_iff.mp h
      obtain ⟨rfl, rfl⟩ := Prod.mk.inj heq
      obtain ⟨r₂, hsw', hok⟩ := hr.contextSwitch hpc hst
      obtain rfl : r₂ = r₁ := Option.some.inj (hsw'.symm.trans hsw)
      exact hok
    next => cases h
  next =>
    split at h
    next prev hpc hst =>
      obtain ⟨rfl, rfl⟩ := Prod.mk.inj (Option.some.inj h)
      exact hr.finishTaskSwitch _ hpc hst
    next => cases h
  next =>
    split at h
    next prev v x hpc hst =>
      obtain ⟨rfl, rfl⟩ := Prod.mk.inj (Option.some.inj h)
      have hok := hr.endTaskSwitch hpc hst
      split
      · exact { hok with }
      · exact hok
    next => cases h
  next m =>
    split at h
    next hm =>
      obtain ⟨rfl, rfl⟩ := Prod.mk.inj (Option.some.inj h)
      exact hr.allocMm hm
    next => cases h
  next m =>
    split at h
    next hm =>
      obtain ⟨rfl, rfl⟩ := Prod.mk.inj (Option.some.inj h)
      exact hr.grabMm hm
    next => cases h
  next m =>
    split at h
    next hm =>
      obtain ⟨rfl, rfl⟩ := Prod.mk.inj (Option.some.inj h)
      exact hr.dropMm hm
    next => cases h
  next m =>
    split at h
    next hb =>
      obtain ⟨r₁, htake, heq⟩ := Option.map_eq_some_iff.mp h
      obtain ⟨rfl, rfl⟩ := Prod.mk.inj heq
      obtain ⟨hex, hm⟩ := Bool.and_eq_true_iff.mp hb
      obtain ⟨r₂, htake', hok⟩ := hr.takeMm hex (of_decide_eq_true hm)
      obtain rfl : r₂ = r₁ := Option.some.inj (htake'.symm.trans htake)
      exact hok
    next => cases h
  next =>
    split at h
    next hex =>
      obtain ⟨r₁, hleave, heq⟩ := Option.map_eq_some_iff.mp h
      obtain ⟨rfl, rfl⟩ := Prod.mk.inj heq
      exact hr.leaveMm hex hleave
    next => cases h

theorem bootMm_ok {c₀ : Cpu n} {m₀ : Mm} : MmOk M (bootMm M c₀ m₀) where
  awake := boot_awake
  stage := fun _ => trivial
  prevMm := fun _ _ => rfl
  active := by
    intro c
    refine ⟨m₀, ?_, .inl rfl⟩
    change (if (M.idleCpu (M.idle c)).isSome then some m₀ else none) = some m₀
    rw [idleCpu_idle]
    rfl
  resting := by
    intro p hp
    change (if (M.idleCpu p).isSome then some m₀ else none) = none
    cases hc : M.idleCpu p with
    | none => rfl
    | some c => exact absurd (idleCpu_eq_some hc) (hp c)
  unused := fun _ _ => rfl
  users := by simp [bootMm]
  held := fun m hm => absurd hm Finset.not_nonempty_empty
  counter := by
    intro m
    have hclaims : ∀ c, (bootMm M c₀ m₀).claims m c = if m = m₀ then 1 else 0 := by
      intro c
      have hidle : (bootMm M c₀ m₀).activeMm ((bootMm M c₀ m₀).runner c) = some m₀ := by
        change (if (M.idleCpu (M.idle c)).isSome then some m₀ else none) = some m₀
        rw [idleCpu_idle]
        rfl
      unfold claims borrowed
      rw [hidle]
      by_cases hm : m = m₀
      · simp [bootMm, Stage.mm, hm]
      · simp [bootMm, Stage.mm, hm, Ne.symm hm]
    unfold refs
    rw [Finset.sum_congr rfl fun c _ => hclaims c]
    by_cases hm : m = m₀
    · subst hm
      constructor
      · simp [bootMm, add_comm]
      · simp [bootMm]
    · simpa [bootMm, hm] using Counter.counts_unborn

section Runs

variable {c₀ : Cpu n} {m₀ : Mm} {es : List (Event Tid n)}

/-- Every reachable state is in order. -/
theorem run_mmOk (h : Run (MmSteps M) (bootMm M c₀ m₀) es r) : MmOk M r :=
  h.invariant (fun _ _ _ hr hstep => hstep.ok hr) bootMm_ok

/-- In every reachable state `mm_count` is the number of references: those held elsewhere in
the kernel, and those of each CPU. An address space lives exactly while there are any. -/
theorem mm_count_exact (h : Run (MmSteps M) (bootMm M c₀ m₀) es r) (m : Mm) :
    (r.counter m).count = r.held m + ∑ c, (r.claims m c : ℤ) ∧
      ((r.counter m).life = .live ↔ 0 < r.held m + ∑ c, r.claims m c) := by
  have hc := (run_mmOk h).counter m
  refine ⟨?_, hc.live_iff⟩
  rw [hc.count, refs]
  push_cast
  rfl

/-- Every CPU runs in an address space that is alive, the own one of its task if that has one,
and `context_switch` finds what it is to switch from. -/
theorem runs_in_live_mm (h : Run (MmSteps M) (bootMm M c₀ m₀) es r) (c : Cpu n) :
    (∃ m, r.activeMm (r.runner c) = some m ∧ (r.counter m).life = .live ∧
        (r.mm (r.runner c) = none ∨ r.mm (r.runner c) = some m)) ∧
      ∀ prev, r.sched.pc c = .schedule (.finishTask prev) → r.stage c = .outside →
        (r.contextSwitch c prev (r.sched.rq c).curr).isSome := by
  have hr := run_mmOk h
  constructor
  · obtain ⟨m, hm, hown⟩ := hr.active c
    exact ⟨m, hm, (hr.counter m).live_iff.mpr (hr.refs_pos_of_active hm), hown⟩
  · intro prev hpc hst
    obtain ⟨r₁, hsw, -⟩ := hr.contextSwitch hpc hst
    rw [hsw]
    rfl

end Runs

/-- The last state of a schedule from boot, where address space 0 is that of the idle tasks. -/
def afterMm (acts : List (Cpu 2 × MmAction ℕ ℕ 2)) : MmState ℕ ℕ 2 :=
  lastState (fun r (x : Cpu 2 × MmAction ℕ ℕ 2) => r.step twoCpus x.1 x.2)
    (bootMm twoCpus 0 0) acts

/-- Task 10 gets address space 7 and runs on CPU 0, up to the end of `context_switch`. -/
def switchToUser : List (Cpu 2 × MmAction ℕ ℕ 2) :=
  (0, .allocMm 7) :: (0, .fork 10 false (some 7)) ::
    ((wakeNew 0 10 0 ++ (preempt 0 10).take 9).map fun (c, a) => (c, .sched a)) ++
    [(0, .contextSwitch), (0, .finishTaskSwitch)]

/-- CPU 0 is about to drop the address space of its idle task, which CPU 1 still has. -/
theorem mm_count_exact_switchToUser :
    let r := afterMm switchToUser
    (r.counter 0).count = r.held 0 + ∑ c, (r.claims 0 c : ℤ) ∧
      ((r.counter 0).life = .live ↔ 0 < r.held 0 + ∑ c, r.claims 0 c) :=
  mm_count_exact (lastState_run (fun _ x _ _ h => ⟨x.1, x.2, h⟩) rfl) 0

/-- Task 10 runs in address space 7. -/
theorem runs_in_live_mm_switchToUser :
    let r := afterMm switchToUser
    (∃ m, r.activeMm (r.runner 0) = some m ∧ (r.counter m).life = .live ∧
        (r.mm (r.runner 0) = none ∨ r.mm (r.runner 0) = some m)) ∧
      ∀ prev, r.sched.pc 0 = .schedule (.finishTask prev) → r.stage 0 = .outside →
        (r.contextSwitch 0 prev (r.sched.rq 0).curr).isSome :=
  runs_in_live_mm (lastState_run (fun _ x _ _ h => ⟨x.1, x.2, h⟩) rfl) 0

end LinuxOs2022.Scheduler
