import LinuxOs2022.Scheduler.PriorityOk

/-!
# What callers without privilege can reach

A caller without `CAP_SYS_NICE` may lower priorities, and raise them as far as the limits of
the task go. The checks are made before the locks are taken, against parameters that may
change meanwhile; over whole runs, with any number of such callers at once, the parameters
still stay within what the task had at first and its limits.
-/

namespace LinuxOs2022.Scheduler

open Library

variable {Tid : Type} {t t' : PrioTask Tid} {attr : SchedAttr} {k : PrioTask.Checked}
  {facts : Facts} {floor : ℤ} {ceil N R : ℕ} {dl : Prop}

theorem PrioTask.checkUnprivileged_ok {u : Unit} (h : t.checkUnprivileged attr facts k = .ok u) :
    (k.policy.fair = true → t.taskNice ≤ attr.schedNice ∨
      canNice facts attr.schedNice = true) ∧
    (k.policy.rt = true → attr.schedPriority ≤ t.rtPriority ∨
      attr.schedPriority ≤ facts.rlimRtprio) ∧
    k.policy.dl = false := by
  unfold checkUnprivileged at h
  split at h
  next => cases h
  next hnice =>
  split at h
  next => cases h
  split at h
  next => cases h
  next hprio =>
  split at h
  next => cases h
  next hdl =>
  refine ⟨fun hfair => ?_, fun hrt => ?_, Bool.eq_false_iff.mpr hdl⟩
  · simp only [hfair, Bool.true_and, Bool.and_eq_true, decide_eq_true_eq, not_and,
      Bool.not_eq_true', Bool.not_eq_false] at hnice
    by_cases hlt : attr.schedNice < t.taskNice
    · exact .inr (hnice hlt)
    · exact .inl (not_lt.mp hlt)
  · simp only [hrt, Bool.true_and, Bool.and_eq_true, decide_eq_true_eq, not_and, not_lt] at hprio
    by_cases hlt : t.rtPriority < attr.schedPriority
    · exact .inr (hprio hlt)
    · exact .inl (not_lt.mp hlt)

/-- A nice value that the limit allows. -/
theorem le_niceToPrio_of_canNice {nice : ℤ} (h : PrioTask.canNice facts nice = true)
    (hcap : facts.capSysNice = false) (hlim : facts.rlimNice ≤ N) :
    140 - (N : ℤ) ≤ niceToPrio nice := by
  rw [PrioTask.canNice, hcap, Bool.or_false, decide_eq_true_eq] at h
  unfold niceToRlimit maxNice at h
  rw [niceToPrio_eq]
  omega

/-- The parameters of a task are no better than these. -/
structure PrioTask.Within (floor : ℤ) (ceil : ℕ) (dl : Prop) (t : PrioTask Tid) : Prop where
  staticPrio : floor ≤ t.staticPrio
  rtPriority : t.rtPriority ≤ ceil
  dl : t.policy.dl = true → dl

/-- The task that a call changes. -/
def Pending.target (c : Tid) : Pending Tid → Tid
  | .recheck p _ _ _ _ => p
  | .locking p _ _ _ _ => p
  | .nice _ => c

/-- A call for `p` asks for nothing better. -/
def PendingWithin (floor : ℤ) (ceil : ℕ) (p c : Tid) : Pending Tid → Prop
  | .recheck q _ user _ _ => q = p → user = true
  | .locking q attr user _ k => q = p → user = true ∧
      (k.policy.fair = true → floor ≤ niceToPrio attr.schedNice) ∧
        attr.schedPriority ≤ ceil ∧ k.policy.dl = false
  | .nice nice => c = p → floor ≤ niceToPrio nice

namespace PrioTask.Within

theorem setUserNice (h : t.Within floor ceil dl) {nice : ℤ} (hnice : floor ≤ niceToPrio nice) :
    (t.setUserNice nice).Within floor ceil dl := by
  by_cases hpolicy : t.policy.dl = true ∨ t.policy.rt = true
  · rw [setUserNice_of_special hpolicy]
    exact ⟨hnice, h.rtPriority, h.dl⟩
  · rw [setUserNice_of_fair hpolicy]
    exact ⟨hnice, h.rtPriority, h.dl⟩

theorem rtMutexSetprio [DecidableEq Tid] (h : t.Within floor ceil dl) (piTask : Option Tid)
    (piPrio : Option ℤ) : (t.rtMutexSetprio piTask piPrio).Within floor ceil dl := by
  unfold PrioTask.rtMutexSetprio
  dsimp only
  split
  next => exact h
  split
  next => exact ⟨h.staticPrio, h.rtPriority, h.dl⟩
  split
  next => exact ⟨h.staticPrio, h.rtPriority, h.dl⟩
  next => exact ⟨h.staticPrio, h.rtPriority, h.dl⟩

theorem commit {user pi : Bool} {facts : LockedFacts} {topPrio : Option ℤ}
    (h : t.Within floor ceil dl) (hk : Passed attr k)
    (hnice : k.policy.fair = true → floor ≤ niceToPrio attr.schedNice)
    (hprio : attr.schedPriority ≤ ceil) (hdl : k.policy.dl = false)
    (hdone : t.commit attr user pi facts k topPrio = .done t') : t'.Within floor ceil dl := by
  obtain rfl | ⟨hsame, rfl⟩ := commit_done hdone
  · exact ⟨h.staticPrio, h.rtPriority, h.dl⟩
  · have hpolicy := hk.policy_eq hsame
    unfold PrioTask.setscheduler setschedulerParams
    dsimp only
    rw [hpolicy]
    split
    next => exact ⟨h.staticPrio, h.rtPriority, h.dl⟩
    next =>
        refine ⟨?_, hprio, fun hdl' => ?_⟩
        · dsimp only
          split
          next hfair => exact hnice hfair
          next => exact h.staticPrio
        · rw [hdl] at hdl'
          cases hdl'

end PrioTask.Within

/-! ## Runs -/

variable [DecidableEq Tid] {s s' s₀ : PrioState Tid} {c p q : Tid} {op : PrioOp Tid}
  {result : PrioResult}

/-- The invariant of the parameters of `p`. -/
structure Bounded (floor : ℤ) (ceil : ℕ) (dl : Prop) (p : Tid) (s : PrioState Tid) : Prop where
  live : (s.task p).stage = .live
  within : (s.task p).Within floor ceil dl
  pending : ∀ c call, s.call c = some call → PendingWithin floor ceil p c call

namespace Bounded

theorem setTask_of_ne (h : Bounded floor ceil dl p s) (hq : q ≠ p) (t : PrioTask Tid) :
    Bounded floor ceil dl p (s.setTask q t) := by
  have hother : (s.setTask q t).task p = s.task p := Function.update_of_ne hq.symm ..
  exact ⟨hother ▸ h.live, hother ▸ h.within, h.pending⟩

theorem setTask (h : Bounded floor ceil dl p s) (hstage : t.stage = (s.task p).stage)
    (hwithin : t.Within floor ceil dl) : Bounded floor ceil dl p (s.setTask p t) := by
  have hself : (s.setTask p t).task p = t := Function.update_self ..
  refine ⟨?_, ?_, h.pending⟩
  · rw [hself, hstage, h.live]
  · rw [hself]
    exact hwithin

theorem setCall (h : Bounded floor ceil dl p s) {call : Option (Pending Tid)}
    (hcall : ∀ x, call = some x → PendingWithin floor ceil p c x) :
    Bounded floor ceil dl p (s.setCall c call) where
  live := h.live
  within := h.within
  pending := by
    intro d x hx
    by_cases hd : d = c
    · subst hd
      exact hcall x (by simpa [PrioState.setCall] using hx)
    · exact h.pending d x (by simpa [PrioState.setCall, hd] using hx)

theorem endCall (h : Bounded floor ceil dl p s) :
    Bounded floor ceil dl p (s.setCall c none) := h.setCall fun _ hx => by cases hx

theorem beginCall (h : Bounded floor ceil dl p s) {call : Pending Tid}
    (hcall : PendingWithin floor ceil p c call) :
    Bounded floor ceil dl p (s.setCall c (some call)) := by
  apply h.setCall
  rintro x hx
  obtain rfl := Option.some.inj hx
  exact hcall

theorem setUserNice (h : Bounded floor ceil dl p s) {nice : ℤ}
    (hnice : q = p → floor ≤ niceToPrio nice) :
    Bounded floor ceil dl p (s.setTask q ((s.task q).setUserNice nice)) := by
  by_cases hq : q = p
  · subst hq
    exact h.setTask (PrioTask.setUserNice_stage nice) (h.within.setUserNice (hnice rfl))
  · exact h.setTask_of_ne hq _

end Bounded

/-- The operation is not one of the kernel on `p`, and its caller has no `CAP_SYS_NICE` and at
most these limits when it is on `p`. -/
def Unprivileged (p : Tid) (N R : ℕ) (s : PrioState Tid) : PrioOp Tid → Prop
  | .schedSetscheduler _ q _ _ _ check => q = p → check = true
  | .normalizeRtTask _ q => q ≠ p
  | .setUserNice q _ => q ≠ p
  | .check c facts => (s.call c).map (Pending.target c) = some p →
      facts.capSysNice = false ∧ facts.rlimNice ≤ N ∧ facts.rlimRtprio ≤ R
  | .sysNice c _ facts => c = p → facts.capSysNice = false ∧ facts.rlimNice ≤ N
  | _ => True

instance (p : Tid) (N R : ℕ) (s : PrioState Tid) (op : PrioOp Tid) :
    Decidable (Unprivileged p N R s op) :=
  match op with
  | .schedSetscheduler _ q _ _ _ check => inferInstanceAs (Decidable (q = p → check = true))
  | .normalizeRtTask _ q => inferInstanceAs (Decidable (q ≠ p))
  | .setUserNice q _ => inferInstanceAs (Decidable (q ≠ p))
  | .check c facts => inferInstanceAs (Decidable ((s.call c).map (Pending.target c) = some p →
      facts.capSysNice = false ∧ facts.rlimNice ≤ N ∧ facts.rlimRtprio ≤ R))
  | .sysNice c _ facts =>
      inferInstanceAs (Decidable (c = p → facts.capSysNice = false ∧ facts.rlimNice ≤ N))
  | .sysSchedSetattr _ _ _ => .isTrue trivial
  | .commit _ _ => .isTrue trivial
  | .niceCommit _ _ => .isTrue trivial
  | .rtMutexSetprio _ _ => .isTrue trivial
  | .dupTaskStruct _ _ => .isTrue trivial
  | .schedFork _ _ => .isTrue trivial

/-- The steps without privilege on `p`. -/
def UnprivilegedSteps (p : Tid) (N R : ℕ) (s : PrioState Tid) (e : PrioOp Tid × PrioResult)
    (s' : PrioState Tid) : Prop :=
  Unprivileged p N R s e.1 ∧ s.Steps e s'

omit [DecidableEq Tid] in
/-- What the checks let pass stays within the bounds. -/
theorem PrioTask.Within.check {policy : ℤ} (h : t.Within floor ceil dl)
    (hcheck : t.check attr true facts policy = .ok k) (hcap : facts.capSysNice = false)
    (hnice : facts.rlimNice ≤ N) (hrtprio : facts.rlimRtprio ≤ R) (hN : floor ≤ 140 - (N : ℤ))
    (hR : R ≤ ceil) :
    (k.policy.fair = true → floor ≤ niceToPrio attr.schedNice) ∧
      attr.schedPriority ≤ ceil ∧ k.policy.dl = false := by
  obtain ⟨-, hparams, hunprivileged⟩ := check_ok hcheck
  obtain ⟨hfair, hrt, hdl⟩ := checkUnprivileged_ok (hunprivileged rfl hcap)
  refine ⟨fun hpolicy => ?_, ?_, hdl⟩
  · obtain hle | hcan := hfair hpolicy
    · have hstatic := h.staticPrio
      unfold taskNice at hle
      rw [prioToNice_eq] at hle
      rw [niceToPrio_eq]
      omega
    · exact hN.trans (le_niceToPrio_of_canNice hcan hcap hnice)
  · cases hpolicy : k.policy.rt with
    | false =>
        have hzero : attr.schedPriority = 0 := by
          by_contra hne
          have hrt' := (checkParams_ok hparams).2.mpr hne
          rw [hpolicy] at hrt'
          cases hrt'
        rw [hzero]
        exact Nat.zero_le _
    | true =>
        obtain hle | hle := hrt hpolicy
        · exact hle.trans h.rtPriority
        · exact (hle.trans hrtprio).trans hR

/-- A step without privilege stays within the bounds. -/
theorem Bounded.step (h : Bounded floor ceil dl p s) (hs : PrioOk False s)
    (hN : floor ≤ 140 - (N : ℤ)) (hR : R ≤ ceil) (hop : Unprivileged p N R s op)
    (hstep : s.step op = some (result, s')) : Bounded floor ceil dl p s' := by
  cases op with
  | sysSchedSetattr c q attr =>
      simp only [PrioState.step] at hstep
      split at hstep
      next => cases hstep
      split at hstep
      next => cases hstep; exact h
      next =>
          obtain ⟨-, rfl⟩ := Prod.mk.inj (Option.some.inj hstep)
          exact h.beginCall fun _ => rfl
  | schedSetscheduler c q policy b priority check =>
      simp only [PrioState.step] at hstep
      split at hstep
      next => cases hstep
      next =>
          obtain ⟨-, rfl⟩ := Prod.mk.inj (Option.some.inj hstep)
          exact h.beginCall hop
  | normalizeRtTask c q =>
      have hq : q ≠ p := hop
      simp only [PrioState.step] at hstep
      split at hstep
      next => cases hstep
      split at hstep
      next =>
          obtain ⟨-, rfl⟩ := Prod.mk.inj (Option.some.inj hstep)
          exact h.beginCall fun heq => absurd heq hq
      split at hstep
      next =>
          obtain ⟨-, rfl⟩ := Prod.mk.inj (Option.some.inj hstep)
          exact h.setTask_of_ne hq _
      next => cases hstep; exact h
  | check c facts =>
      simp only [PrioState.step] at hstep
      split at hstep
      next q attr user pi policy hcall =>
          split at hstep
          next k hcheck =>
              obtain ⟨-, rfl⟩ := Prod.mk.inj (Option.some.inj hstep)
              apply h.beginCall
              rintro rfl
              obtain rfl : user = true := h.pending c _ hcall rfl
              obtain ⟨hcap, hnice, hrtprio⟩ := hop (by rw [hcall]; rfl)
              exact ⟨rfl, h.within.check hcheck hcap hnice hrtprio hN hR⟩
          next =>
              obtain ⟨-, rfl⟩ := Prod.mk.inj (Option.some.inj hstep)
              exact h.endCall
      next => cases hstep
  | commit c facts =>
      simp only [PrioState.step] at hstep
      split at hstep
      next q attr user pi k hcall =>
          split at hstep
          next t hdone =>
              obtain ⟨-, rfl⟩ := Prod.mk.inj (Option.some.inj hstep)
              apply Bounded.endCall
              by_cases hq : q = p
              · subst hq
                obtain ⟨-, hnice, hprio, hdl⟩ := h.pending c _ hcall rfl
                have hpassed := (hs.pending c _ hcall).2
                apply h.setTask (PrioTask.commit_stage hdone)
                exact h.within.commit hpassed hnice hprio hdl hdone
              · exact h.setTask_of_ne hq t
          next =>
              obtain ⟨-, rfl⟩ := Prod.mk.inj (Option.some.inj hstep)
              exact h.endCall
          next =>
              obtain ⟨-, rfl⟩ := Prod.mk.inj (Option.some.inj hstep)
              exact h.beginCall fun heq => (h.pending c _ hcall heq).1
      next => cases hstep
  | sysNice c increment facts =>
      simp only [PrioState.step] at hstep
      split at hstep
      next => cases hstep
      split at hstep
      next => cases hstep; exact h
      next hallowed =>
      split at hstep
      next => cases hstep; exact h
      next =>
          obtain ⟨-, rfl⟩ := Prod.mk.inj (Option.some.inj hstep)
          apply h.beginCall
          rintro rfl
          obtain ⟨hcap, hlim⟩ := hop rfl
          by_cases hlt : max (-niceWidth) (min increment niceWidth) < 0
          · have hcan := eq_true_of_ne_false (not_and.mp hallowed hlt)
            exact hN.trans (le_niceToPrio_of_canNice hcan hcap hlim)
          · -- the new nice value is no lower
            have hle : (s.task c).taskNice ≤ max minNice (min ((s.task c).taskNice +
                max (-niceWidth) (min increment niceWidth)) maxNice) := by
              apply le_max_of_le_right
              apply le_min
              · exact le_add_of_nonneg_right (not_lt.mp hlt)
              · have hmax := (hs.sound c).staticPrio.2
                unfold PrioTask.taskNice maxNice
                rw [prioToNice_eq]
                omega
            calc floor ≤ (s.task c).staticPrio := h.within.staticPrio
              _ = (s.task c).taskNice + 120 := by
                  unfold PrioTask.taskNice
                  rw [prioToNice_eq, sub_add_cancel]
              _ ≤ _ + 120 := add_le_add_left hle 120
              _ = _ := (niceToPrio_eq _).symm
  | niceCommit c nothing =>
      simp only [PrioState.step] at hstep
      split at hstep
      next nice hcall =>
          split at hstep
          next =>
              obtain ⟨-, rfl⟩ := Prod.mk.inj (Option.some.inj hstep)
              exact (h.setUserNice (h.pending c _ hcall)).endCall
          split at hstep
          next =>
              obtain ⟨-, rfl⟩ := Prod.mk.inj (Option.some.inj hstep)
              exact h.endCall
          next => cases hstep
      next => cases hstep
  | setUserNice q nice =>
      simp only [PrioState.step] at hstep
      split at hstep
      next =>
          obtain ⟨-, rfl⟩ := Prod.mk.inj (Option.some.inj hstep)
          exact h.setUserNice fun heq => absurd heq hop
      next => cases hstep
  | rtMutexSetprio q piTask =>
      simp only [PrioState.step] at hstep
      split at hstep
      next =>
          obtain ⟨-, rfl⟩ := Prod.mk.inj (Option.some.inj hstep)
          by_cases hq : q = p
          · subst hq
            exact h.setTask (PrioTask.rtMutexSetprio_stage piTask _)
              (h.within.rtMutexSetprio piTask _)
          · exact h.setTask_of_ne hq _
      next => cases hstep
  | dupTaskStruct q child =>
      simp only [PrioState.step] at hstep
      split at hstep
      next hguard =>
          obtain ⟨-, rfl⟩ := Prod.mk.inj (Option.some.inj hstep)
          apply h.setTask_of_ne
          rintro rfl
          rw [h.live] at hguard
          cases hguard.2
      next => cases hstep
  | schedFork q child =>
      simp only [PrioState.step] at hstep
      split at hstep
      next hcopied =>
          have hchild : child ≠ p := by
            rintro rfl
            rw [h.live] at hcopied
            cases hcopied
          split at hstep
          next =>
              obtain ⟨-, rfl⟩ := Prod.mk.inj (Option.some.inj hstep)
              exact h.setTask_of_ne hchild _
          next =>
              obtain ⟨-, rfl⟩ := Prod.mk.inj (Option.some.inj hstep)
              exact h.setTask_of_ne hchild _
      next => cases hstep

/-- Without privilege, no number of concurrent requests takes the parameters of a task beyond
what it had at first and its limits allow. -/
theorem unprivileged_bounded {idle stop : Tid → Bool} {es₀ es : List (PrioOp Tid × PrioResult)}
    (h₀ : Run PrioState.Steps (bootPrio idle stop) es₀ s₀) (hlive : (s₀.task p).stage = .live)
    (hquiet : ∀ c call, s₀.call c = some call → call.target c ≠ p)
    (h : Run (UnprivilegedSteps p N R) s₀ es s) :
    min (s₀.task p).staticPrio (140 - N) ≤ (s.task p).staticPrio ∧
      (s.task p).rtPriority ≤ max (s₀.task p).rtPriority R ∧
      ((s.task p).policy.dl = true → (s₀.task p).policy.dl = true) ∧
      ((s.task p).policy.rt = true → (s₀.task p).policy.rt = true ∨ 0 < R) := by
  have hs₀ := run_prioOk h₀
  have hstart : Bounded (min (s₀.task p).staticPrio (140 - N)) (max (s₀.task p).rtPriority R)
      ((s₀.task p).policy.dl = true) p s₀ := by
    refine ⟨hlive, ⟨min_le_left _ _, le_max_left _ _, fun hdl => hdl⟩, fun c call hcall => ?_⟩
    have hother := hquiet c call hcall
    cases call with
    | recheck q _ _ _ _ => exact fun heq => absurd heq hother
    | locking q _ _ _ _ => exact fun heq => absurd heq hother
    | nice _ => exact fun heq => absurd heq hother
  obtain ⟨hs, hbounded⟩ : PrioOk False s ∧ Bounded (min (s₀.task p).staticPrio (140 - N))
      (max (s₀.task p).rtPriority R) ((s₀.task p).policy.dl = true) p s := by
    apply h.invariant _ ⟨hs₀, hstart⟩
    rintro r e r' ⟨hr, hb⟩ ⟨hop, hstep⟩
    refine ⟨PrioState.step_ok hr (fun hclean => hclean.elim) hstep, ?_⟩
    exact hb.step hr (min_le_right _ _) (le_max_right _ _) hop hstep
  refine ⟨hbounded.within.staticPrio, hbounded.within.rtPriority, hbounded.within.dl, fun hrt => ?_⟩
  have hpos := Nat.pos_of_ne_zero ((hs.sound p).rt_iff.mp hrt)
  obtain hpos | hpos := lt_max_iff.mp (hpos.trans_le hbounded.within.rtPriority)
  · exact .inl ((hs₀.sound p).rt_iff.mpr hpos.ne')
  · exact .inr hpos

/-- A step without privilege that can be computed. -/
def unprivilegedStep (p : Tid) (N R : ℕ) (s : PrioState Tid) (op : PrioOp Tid) :
    Option ((PrioOp Tid × PrioResult) × PrioState Tid) :=
  if Unprivileged p N R s op then s.execStep op else none

theorem unprivilegedSteps_of_step (s : PrioState Tid) (op : PrioOp Tid)
    (e : PrioOp Tid × PrioResult) (s' : PrioState Tid)
    (h : unprivilegedStep p N R s op = some (e, s')) : UnprivilegedSteps p N R s e s' := by
  unfold unprivilegedStep at h
  split at h
  next hop =>
      have hstep := PrioState.steps_of_execStep s op e s' h
      obtain ⟨⟨result, t⟩, -, heq⟩ := Option.map_eq_some_iff.mp h
      obtain ⟨rfl, rfl⟩ := Prod.mk.inj heq
      exact ⟨hop, hstep⟩
  next => cases h

attribute [local instance] fourTasks_neZero

/-- Task 1 is created. -/
def createOne : List (PrioOp (Fin 4)) := [.dupTaskStruct 0 1, .schedFork 0 1]

/-- A caller without `CAP_SYS_NICE`, and with a limit of 10 for real-time priorities. -/
def limited : Facts := ⟨true, false, true, 0, 10, true, none, none⟩

/-- Task 1 lowers its nice value, and then asks for `SCHED_RR`. -/
def askForRr : List (PrioOp (Fin 4)) :=
  [.sysNice 1 5 limited, .niceCommit 1 false, .schedSetscheduler 1 1 2 false 5 true,
    .check 1 limited, .commit 1 unlimited]

theorem unprivileged_bounded_askForRr :
    let s₀ := lastState PrioState.execStep bootFour createOne
    let s := lastState (unprivilegedStep 1 0 10) s₀ askForRr
    (min (s₀.task 1).staticPrio (140 - 0) ≤ (s.task 1).staticPrio ∧
      (s.task 1).rtPriority ≤ max (s₀.task 1).rtPriority 10 ∧
      ((s.task 1).policy.dl = true → (s₀.task 1).policy.dl = true) ∧
      ((s.task 1).policy.rt = true → (s₀.task 1).policy.rt = true ∨ 0 < 10)) ∧
    (s.task 1).staticPrio = 125 ∧ (s.task 1).rtPriority = 5 ∧ (s.task 1).policy = .rr := by
  have hcreate : Run PrioState.Steps bootFour (createOne.zip [.ok, .ok])
      (lastState PrioState.execStep bootFour createOne) :=
    lastState_run PrioState.steps_of_execStep (by decide +kernel)
  have hask : Run (UnprivilegedSteps 1 0 10) (lastState PrioState.execStep bootFour createOne)
      (askForRr.zip [.going, .ok, .going, .going, .ok])
      (lastState (unprivilegedStep 1 0 10) (lastState PrioState.execStep bootFour createOne)
        askForRr) :=
    lastState_run unprivilegedSteps_of_step (by decide +kernel)
  have hnone : ∀ c, (lastState PrioState.execStep bootFour createOne).call c = none := fun _ => rfl
  refine ⟨unprivileged_bounded hcreate (by decide +kernel) (fun c call hcall => ?_) hask,
    by decide +kernel⟩
  rw [hnone c] at hcall
  cases hcall

end LinuxOs2022.Scheduler
