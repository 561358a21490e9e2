import LinuxOs2022.Scheduler.Priority

/-!
# Priorities in every reachable state

The normal priority of a task follows from its policy and parameters, the real-time priority
is set exactly for the real-time policies, and the class is that of the priority in effect,
which is better than the normal one only with a donor. Requests that were checked before the
locks were taken keep this up, whatever has happened since. A fork keeps it up unless the
normal priority of the parent changes between `dup_task_struct` and `sched_fork`.
-/

namespace LinuxOs2022.Scheduler

open Library

variable {Tid : Type} {t t' : PrioTask Tid} {attr : SchedAttr} {k : PrioTask.Checked}
  {facts : Facts} {nice : ℤ}

/-! ## Numbers -/

theorem Policy.ofInt?_neg {policy : ℤ} (h : policy < 0) : Policy.ofInt? policy = none := by
  unfold ofInt?
  split <;> first | rfl | omega

@[simp] theorem niceToPrio_eq (nice : ℤ) : niceToPrio nice = nice + 120 := by
  simp [niceToPrio, maxRtPrio, niceWidth, maxNice, minNice]
  omega

@[simp] theorem prioToNice_eq (prio : ℤ) : prioToNice prio = prio - 120 := by
  simp [prioToNice, maxRtPrio, niceWidth, maxNice, minNice]
  omega

theorem rtPrio_iff {prio : ℤ} : rtPrio prio = true ↔ prio < 100 := decide_eq_true_iff

theorem dlPrio_iff {prio : ℤ} : dlPrio prio = true ↔ prio < 0 := decide_eq_true_iff

theorem classOf_of_le {prio : ℤ} (h : 100 ≤ prio) : classOf prio = .fair := by
  have hdl : ¬ dlPrio prio = true := fun hlt => absurd (dlPrio_iff.mp hlt) (by omega)
  have hrt : ¬ rtPrio prio = true := fun hlt => absurd (rtPrio_iff.mp hlt) (by omega)
  unfold classOf
  rw [if_neg hdl, if_neg hrt]

/-- A priority that any nice value stands for. -/
def FairPrio (prio : ℤ) : Prop := 100 ≤ prio ∧ prio < 140

theorem fairPrio_niceToPrio (hmin : minNice ≤ nice) (hmax : nice ≤ maxNice) :
    FairPrio (niceToPrio nice) := by
  unfold minNice at hmin
  unfold maxNice at hmax
  rw [niceToPrio_eq]
  exact ⟨by omega, by omega⟩

/-! ## One task -/

namespace PrioTask

/-- The parameters of a task fit its policy. -/
structure Sound (t : PrioTask Tid) : Prop where
  normalPrio : t.normalPrio = t.computeNormalPrio
  staticPrio : FairPrio t.staticPrio
  rt_iff : t.policy.rt = true ↔ t.rtPriority ≠ 0
  rt_le : t.rtPriority ≤ 99

/-- The priority in effect. -/
structure InEffect (t : PrioTask Tid) : Prop where
  prio_le : t.prio ≤ t.normalPrio
  boosted : t.isIdle = false → t.prio ≠ t.normalPrio → t.piTopTask ≠ none
  schedClass : t.isIdle = false → t.isStop = false → t.schedClass = classOf t.prio

theorem computeNormalPrio_lt_iff (h : t.Sound) :
    t.computeNormalPrio < 100 ↔ t.policy.dl = true ∨ t.policy.rt = true := by
  unfold computeNormalPrio
  split
  next hdl => exact iff_of_true (by decide) (.inl hdl)
  next hdl =>
      split
      next hrt => exact iff_of_true (by simp [maxRtPrio]; omega) (.inr hrt)
      next hrt =>
          refine iff_of_false ?_ (not_or.mpr ⟨hdl, hrt⟩)
          exact not_lt.mpr h.staticPrio.1

theorem rtEffectivePrio_le (piPrio : Option ℤ) (prio : ℤ) : rtEffectivePrio piPrio prio ≤ prio := by
  cases piPrio with
  | none => exact le_rfl
  | some q => exact min_le_left prio q

/-! ### `set_user_nice` -/

theorem setUserNice_of_special (h : t.policy.dl = true ∨ t.policy.rt = true) (nice : ℤ) :
    t.setUserNice nice = { t with staticPrio := niceToPrio nice } := by
  unfold setUserNice
  rw [if_pos (by simpa using h)]

theorem setUserNice_of_fair (h : ¬ (t.policy.dl = true ∨ t.policy.rt = true)) (nice : ℤ) :
    t.setUserNice nice = { t with
      staticPrio := niceToPrio nice
      normalPrio := niceToPrio nice
      prio := if rtPrio t.prio then t.prio else niceToPrio nice } := by
  obtain ⟨hdl, hrt⟩ := not_or.mp h
  unfold setUserNice
  rw [if_neg (by simpa using h)]
  unfold effectivePrio computeNormalPrio
  dsimp only
  rw [if_neg hdl, if_neg hrt]
  split
  next => rfl
  next => rfl

theorem setUserNice_stage (nice : ℤ) : (t.setUserNice nice).stage = t.stage := by
  by_cases hpolicy : t.policy.dl = true ∨ t.policy.rt = true
  · rw [setUserNice_of_special hpolicy]
  · rw [setUserNice_of_fair hpolicy]

theorem Sound.setUserNice (h : t.Sound) (hmin : minNice ≤ nice) (hmax : nice ≤ maxNice) :
    (t.setUserNice nice).Sound := by
  have hfair := fairPrio_niceToPrio hmin hmax
  by_cases hpolicy : t.policy.dl = true ∨ t.policy.rt = true
  · rw [setUserNice_of_special hpolicy]
    refine ⟨?_, hfair, h.rt_iff, h.rt_le⟩
    rw [h.normalPrio]
    unfold computeNormalPrio
    obtain hdl | hrt := hpolicy
    · rw [if_pos hdl, if_pos hdl]
    · rw [if_pos hrt, if_pos hrt]
  · rw [setUserNice_of_fair hpolicy]
    obtain ⟨hdl, hrt⟩ := not_or.mp hpolicy
    refine ⟨?_, hfair, h.rt_iff, h.rt_le⟩
    unfold computeNormalPrio
    rw [if_neg hdl, if_neg hrt]

theorem InEffect.setUserNice (h : t.InEffect) (ht : t.Sound) (hmin : minNice ≤ nice)
    (hmax : nice ≤ maxNice) : (t.setUserNice nice).InEffect := by
  by_cases hpolicy : t.policy.dl = true ∨ t.policy.rt = true
  · rw [setUserNice_of_special hpolicy]
    exact ⟨h.prio_le, h.boosted, h.schedClass⟩
  · rw [setUserNice_of_fair hpolicy]
    have hfair := fairPrio_niceToPrio hmin hmax
    have hnormal : ¬ t.normalPrio < 100 := by
      rw [ht.normalPrio, computeNormalPrio_lt_iff ht]
      exact hpolicy
    by_cases hrt : rtPrio t.prio = true
    · -- a fair task with a real-time priority is boosted
      have hlt : t.prio < 100 := rtPrio_iff.mp hrt
      rw [if_pos hrt]
      refine ⟨by simpa using hlt.le.trans hfair.1, fun hidle _ => ?_, h.schedClass⟩
      apply h.boosted hidle
      exact fun heq => hnormal (heq ▸ hlt)
    · have hge : 100 ≤ t.prio := not_lt.mp fun hlt => hrt (rtPrio_iff.mpr hlt)
      rw [if_neg hrt]
      refine ⟨le_rfl, fun _ hne => absurd rfl hne, fun hidle hstop => ?_⟩
      rw [h.schedClass hidle hstop, classOf_of_le hge]
      exact (classOf_of_le hfair.1).symm

/-! ### `__sched_setscheduler` -/

/-- A request that has passed the checks. -/
structure Passed (attr : SchedAttr) (k : Checked) : Prop where
  rt_iff : k.policy.rt = true ↔ attr.schedPriority ≠ 0
  rt_le : attr.schedPriority ≤ 99
  asked : k.oldpolicy = none → Policy.ofInt? attr.schedPolicy = some k.policy
  kept : ∀ policy, k.oldpolicy = some policy →
    policy = k.policy ∧ Policy.ofInt? attr.schedPolicy = none

theorem readPolicy_ok {policy : ℤ} (h : t.readPolicy attr policy = .ok k) :
    (policy < 0 ∧ k = ⟨t.policy, some t.policy, t.schedResetOnFork⟩) ∨
      ∃ asked, Policy.ofInt? policy = some asked ∧ k = ⟨asked, none, attr.flagResetOnFork⟩ := by
  unfold readPolicy at h
  split at h
  next hneg => exact .inl ⟨hneg, (Except.ok.inj h).symm⟩
  next =>
      split at h
      next asked hasked => exact .inr ⟨asked, hasked, (Except.ok.inj h).symm⟩
      next => cases h

theorem checkParams_ok {policy : Policy} {u : Unit} (h : checkParams attr facts policy = .ok u) :
    attr.schedPriority ≤ 99 ∧ (policy.rt = true ↔ attr.schedPriority ≠ 0) := by
  have hmax : (if facts.hasMm then maxUserRtPrio else maxRtPrio) = 100 := by
    split
    next => rfl
    next => rfl
  unfold checkParams at h
  rw [hmax] at h
  split at h
  next => cases h
  next =>
      split at h
      next => cases h
      next hle =>
          split at h
          next => cases h
          next hrt =>
              rw [Bool.or_eq_true, not_or] at hrt
              refine ⟨by omega, ?_⟩
              rw [bne_eq_false_iff_eq.mp (Bool.eq_false_iff.mpr hrt.2), decide_eq_true_iff]

theorem bind_eq_ok {α β : Type} {x : Except PrioErrno α} {f : α → Except PrioErrno β} {b : β} :
    (x >>= f) = .ok b ↔ ∃ a, x = .ok a ∧ f a = .ok b := by
  cases x with
  | error e => exact iff_of_false (fun h => by cases h) (fun ⟨_, h, _⟩ => by cases h)
  | ok a => exact ⟨fun h => ⟨a, rfl, h⟩, fun ⟨_, heq, h⟩ => by cases heq; exact h⟩

/-- What is known of a request whose checks have succeeded. -/
theorem check_ok {user : Bool} {policy : ℤ} (h : t.check attr user facts policy = .ok k) :
    t.readPolicy attr policy = .ok k ∧ checkParams attr facts k.policy = .ok () ∧
      (user = true → facts.capSysNice = false → t.checkUnprivileged attr facts k = .ok ()) := by
  unfold check at h
  simp only [bind_eq_ok] at h
  obtain ⟨k', hread, ⟨⟩, hparams, ⟨⟩, hunprivileged, -, -, -, -, -, -, hk⟩ := h
  obtain rfl := Except.ok.inj hk
  refine ⟨hread, hparams, fun huser hcap => ?_⟩
  rwa [checkIf, if_pos (by simp [huser, hcap])] at hunprivileged

theorem passed_of_check {user : Bool} {policy : ℤ} (h : t.check attr user facts policy = .ok k)
    (hneg : policy < 0 → Policy.ofInt? attr.schedPolicy = none)
    (hpos : 0 ≤ policy → policy = attr.schedPolicy) : Passed attr k := by
  obtain ⟨hread, hparams, -⟩ := check_ok h
  obtain ⟨hle, hrt⟩ := checkParams_ok hparams
  obtain ⟨hlt, rfl⟩ | ⟨asked, hasked, rfl⟩ := readPolicy_ok hread
  · refine ⟨hrt, hle, fun hnone => absurd hnone (by simp), fun q hq => ?_⟩
    exact ⟨(Option.some.inj hq).symm, hneg hlt⟩
  · refine ⟨hrt, hle, fun _ => ?_, fun _ hq => absurd hq (by simp)⟩
    rw [← hpos]
    · exact hasked
    · by_contra hlt
      rw [Policy.ofInt?_neg (not_le.mp hlt)] at hasked
      cases hasked

/-- The policy that `__setscheduler` ends up with is the one that was checked. -/
theorem Passed.policy_eq (h : Passed attr k)
    (hsame : (k.oldpolicy.isSome && k.oldpolicy != some t.policy) = false) :
    (Policy.ofInt? attr.schedPolicy).getD t.policy = k.policy := by
  cases hold : k.oldpolicy with
  | none => rw [h.asked hold, Option.getD_some]
  | some policy =>
      obtain ⟨rfl, hnone⟩ := h.kept policy hold
      rw [hnone, Option.getD_none]
      simp only [hold, Option.isSome_some, Bool.true_and, bne_eq_false_iff_eq,
        Option.some.injEq] at hsame
      exact hsame.symm

theorem Sound.setschedulerParams (h : t.Sound) (hk : Passed attr k)
    (hpolicy : (Policy.ofInt? attr.schedPolicy).getD t.policy = k.policy)
    (hmin : minNice ≤ attr.schedNice) (hmax : attr.schedNice ≤ maxNice) :
    (t.setschedulerParams attr).Sound := by
  unfold PrioTask.setschedulerParams
  rw [hpolicy]
  refine ⟨rfl, ?_, hk.rt_iff, hk.rt_le⟩
  dsimp only
  split
  next => exact fairPrio_niceToPrio hmin hmax
  next => exact h.staticPrio

theorem Sound.setscheduler (h : t.Sound) (hk : Passed attr k)
    (hpolicy : (Policy.ofInt? attr.schedPolicy).getD t.policy = k.policy)
    (hmin : minNice ≤ attr.schedNice) (hmax : attr.schedNice ≤ maxNice) (pi : Bool)
    (topPrio : Option ℤ) : (t.setscheduler attr pi topPrio).Sound := by
  unfold PrioTask.setscheduler
  split
  next => exact h
  next =>
      have hparams := h.setschedulerParams hk hpolicy hmin hmax
      exact ⟨hparams.normalPrio, hparams.staticPrio, hparams.rt_iff, hparams.rt_le⟩

theorem InEffect.setscheduler (h : t.InEffect) (pi : Bool) {topPrio : Option ℤ}
    (htop : t.piTopTask = none → topPrio = none) :
    (t.setscheduler attr pi topPrio).InEffect := by
  unfold PrioTask.setscheduler
  split
  next => exact h
  next =>
      constructor
      · dsimp only
        split
        next => exact rtEffectivePrio_le topPrio _
        next => exact le_rfl
      · intro _ hne hnone
        apply hne
        dsimp only
        rw [htop hnone]
        split
        next => rfl
        next => rfl
      · exact fun _ _ => rfl

/-- What a request does to a task. -/
theorem commit_done {user pi : Bool} {facts : LockedFacts} {topPrio : Option ℤ}
    (h : t.commit attr user pi facts k topPrio = .done t') :
    t' = { t with schedResetOnFork := k.resetOnFork } ∨
      (k.oldpolicy.isSome && k.oldpolicy != some t.policy) = false ∧
      t' = { t with schedResetOnFork := k.resetOnFork }.setscheduler attr pi topPrio := by
  unfold commit at h
  split at h
  next => cases h
  split at h
  next => exact .inl (Locked.done.inj h).symm
  split at h
  next => cases h
  split at h
  next => cases h
  split at h
  next => cases h
  next hsame =>
      split at h
      next => cases h
      next => exact .inr ⟨Bool.eq_false_iff.mpr hsame, (Locked.done.inj h).symm⟩

theorem commit_stage {user pi : Bool} {facts : LockedFacts} {topPrio : Option ℤ}
    (h : t.commit attr user pi facts k topPrio = .done t') : t'.stage = t.stage := by
  obtain rfl | ⟨-, rfl⟩ := commit_done h
  · rfl
  · unfold PrioTask.setscheduler
    split
    next => rfl
    next => rfl

/-- Only a request that keeps the policy is checked again. -/
theorem commit_recheck {user pi : Bool} {facts : LockedFacts} {topPrio : Option ℤ}
    (h : t.commit attr user pi facts k topPrio = .recheck) :
    ∃ policy, k.oldpolicy = some policy := by
  rw [← Option.isSome_iff_exists]
  unfold PrioTask.commit at h
  split at h
  next => cases h
  split at h
  next => cases h
  split at h
  next => cases h
  split at h
  next => cases h
  split at h
  next hchanged =>
      rw [Bool.and_eq_true] at hchanged
      exact hchanged.1
  split at h
  next => cases h
  next => cases h

theorem Sound.commit {user pi : Bool} {facts : LockedFacts} {topPrio : Option ℤ} (h : t.Sound)
    (hk : Passed attr k) (hmin : minNice ≤ attr.schedNice) (hmax : attr.schedNice ≤ maxNice)
    (hdone : t.commit attr user pi facts k topPrio = .done t') : t'.Sound := by
  have hreset : { t with schedResetOnFork := k.resetOnFork }.Sound :=
    ⟨h.normalPrio, h.staticPrio, h.rt_iff, h.rt_le⟩
  obtain rfl | ⟨hsame, rfl⟩ := commit_done hdone
  · exact hreset
  · exact hreset.setscheduler hk (hk.policy_eq hsame) hmin hmax pi topPrio

theorem InEffect.commit {user pi : Bool} {facts : LockedFacts} {topPrio : Option ℤ}
    (h : t.InEffect) (htop : t.piTopTask = none → topPrio = none)
    (hdone : t.commit attr user pi facts k topPrio = .done t') : t'.InEffect := by
  have hreset : { t with schedResetOnFork := k.resetOnFork }.InEffect :=
    ⟨h.prio_le, h.boosted, h.schedClass⟩
  obtain rfl | ⟨-, rfl⟩ := commit_done hdone
  · exact hreset
  · exact hreset.setscheduler pi htop

/-! ### `rt_mutex_setprio` and `sched_fork` -/

theorem rtMutexSetprio_stage [DecidableEq Tid] (piTask : Option Tid) (piPrio : Option ℤ) :
    (t.rtMutexSetprio piTask piPrio).stage = t.stage := by
  unfold PrioTask.rtMutexSetprio
  dsimp only
  split
  next => rfl
  split
  next => rfl
  split
  next => rfl
  next => rfl

theorem Sound.rtMutexSetprio [DecidableEq Tid] (h : t.Sound) (piTask : Option Tid)
    (piPrio : Option ℤ) : (t.rtMutexSetprio piTask piPrio).Sound := by
  have hsame : ∀ prio schedClass, { t with
      piTopTask := piTask, prio := prio, schedClass := schedClass }.Sound := fun _ _ =>
    ⟨h.normalPrio, h.staticPrio, h.rt_iff, h.rt_le⟩
  unfold PrioTask.rtMutexSetprio
  dsimp only
  split
  next => exact h
  split
  next => exact hsame t.prio t.schedClass
  split
  next => exact hsame t.prio t.schedClass
  next => exact hsame _ _

theorem InEffect.rtMutexSetprio [DecidableEq Tid] (h : t.InEffect) {piTask : Option Tid}
    {piPrio : Option ℤ} (hdonor : piTask = none → piPrio = none) :
    (t.rtMutexSetprio piTask piPrio).InEffect := by
  have hboosted : ∀ {prio : ℤ}, rtEffectivePrio piPrio t.normalPrio = prio →
      prio ≠ t.normalPrio → piTask ≠ none := by
    rintro prio rfl hne hnone
    apply hne
    rw [hdonor hnone]
    rfl
  unfold PrioTask.rtMutexSetprio
  dsimp only
  split
  next => exact h
  split
  next hprio => exact ⟨h.prio_le, fun _ => hboosted hprio.1, h.schedClass⟩
  split
  next hidle =>
      refine ⟨h.prio_le, fun hnot => ?_, h.schedClass⟩
      exact absurd hidle (by simp [show t.isIdle = false from hnot])
  next => exact ⟨rtEffectivePrio_le piPrio _, fun _ => hboosted rfl, fun _ _ => rfl⟩

theorem Sound.revert (h : t.Sound) : t.revert.Sound := by
  have hzero : FairPrio (niceToPrio 0) := fairPrio_niceToPrio (by decide) (by decide)
  unfold PrioTask.revert defaultPolicy
  by_cases hpolicy : (t.policy.dl || t.policy.rt) = true
  · rw [if_pos hpolicy]
    exact ⟨rfl, hzero, by simp [Policy.rt], Nat.zero_le _⟩
  · rw [if_neg hpolicy]
    rw [Bool.or_eq_true, not_or] at hpolicy
    split
    next =>
        refine ⟨?_, hzero, h.rt_iff, h.rt_le⟩
        unfold computeNormalPrio
        rw [if_neg hpolicy.1, if_neg hpolicy.2]
    next =>
        refine ⟨?_, h.staticPrio, h.rt_iff, h.rt_le⟩
        unfold computeNormalPrio
        rw [if_neg hpolicy.1, if_neg hpolicy.2]

theorem Sound.inheritPrio (h : t.Sound) (parentPrio : ℤ) : (t.inheritPrio parentPrio).Sound := by
  have hcopy : { t with prio := parentPrio }.Sound :=
    ⟨h.normalPrio, h.staticPrio, h.rt_iff, h.rt_le⟩
  unfold PrioTask.inheritPrio
  split
  next => exact hcopy.revert
  next => exact hcopy

theorem schedFork_some {parentPrio : ℤ} (h : t.schedFork parentPrio = some t') :
    t' = { t.inheritPrio parentPrio with
      schedClass := classOf (t.inheritPrio parentPrio).prio } := by
  unfold schedFork at h
  dsimp only at h
  split at h
  next => cases h
  next hdl =>
      obtain rfl := Option.some.inj h
      unfold classOf
      rw [if_neg hdl]

theorem Sound.schedFork (h : t.Sound) {parentPrio : ℤ}
    (hfork : t.schedFork parentPrio = some t') : t'.Sound := by
  have hsound := h.inheritPrio parentPrio
  rw [schedFork_some hfork]
  exact ⟨hsound.normalPrio, hsound.staticPrio, hsound.rt_iff, hsound.rt_le⟩

theorem InEffect.schedFork {parentPrio : ℤ}
    (hparent : t.schedResetOnFork = false → parentPrio = t.normalPrio)
    (hfork : t.schedFork parentPrio = some t') : t'.InEffect := by
  have hprio : (t.inheritPrio parentPrio).prio = (t.inheritPrio parentPrio).normalPrio := by
    unfold inheritPrio
    split
    next => rfl
    next hreset => exact hparent (Bool.eq_false_iff.mpr hreset)
  rw [schedFork_some hfork]
  exact ⟨hprio.le, fun _ hne => absurd hprio hne, fun _ _ => rfl⟩

end PrioTask

/-! ## All tasks and calls -/

/-- What is known of a call that is under way. -/
def PendingOk : Pending Tid → Prop
  | .recheck _ attr _ _ policy =>
      (minNice ≤ attr.schedNice ∧ attr.schedNice ≤ maxNice) ∧
        (policy < 0 → Policy.ofInt? attr.schedPolicy = none) ∧
        (0 ≤ policy → policy = attr.schedPolicy)
  | .locking _ attr _ _ k =>
      (minNice ≤ attr.schedNice ∧ attr.schedNice ≤ maxNice) ∧ PrioTask.Passed attr k
  | .nice nice => minNice ≤ nice ∧ nice ≤ maxNice

/-- The invariant. What it says of the priorities in effect is for `clean` runs only. -/
structure PrioOk (clean : Prop) (s : PrioState Tid) : Prop where
  sound : ∀ p, (s.task p).Sound
  inEffect : clean → ∀ p, (s.task p).stage = .live → (s.task p).InEffect
  pending : ∀ c call, s.call c = some call → PendingOk call

namespace PrioOk

variable [DecidableEq Tid] {clean : Prop} {s s' : PrioState Tid} {c p : Tid}
  {call : Pending Tid}

theorem setTask (h : PrioOk clean s) (hsound : t.Sound)
    (heffect : clean → t.stage = .live → t.InEffect) :
    PrioOk clean (s.setTask p t) where
  sound := by
    intro q
    by_cases hq : q = p
    · subst hq
      simpa [PrioState.setTask] using hsound
    · simpa [PrioState.setTask, hq] using h.sound q
  inEffect := by
    intro hclean q
    by_cases hq : q = p
    · subst hq
      simpa [PrioState.setTask] using heffect hclean
    · simpa [PrioState.setTask, hq] using h.inEffect hclean q
  pending := h.pending

theorem setCall (h : PrioOk clean s) {call : Option (Pending Tid)}
    (hcall : ∀ x, call = some x → PendingOk x) : PrioOk clean (s.setCall c call) where
  sound := h.sound
  inEffect := h.inEffect
  pending := by
    intro d x hx
    by_cases hd : d = c
    · subst hd
      exact hcall x (by simpa [PrioState.setCall] using hx)
    · exact h.pending d x (by simpa [PrioState.setCall, hd] using hx)

theorem endCall (h : PrioOk clean s) : PrioOk clean (s.setCall c none) :=
  h.setCall fun _ hx => by cases hx

theorem beginCall (h : PrioOk clean s) (hcall : PendingOk call) :
    PrioOk clean (s.setCall c (some call)) := by
  apply h.setCall
  rintro x hx
  obtain rfl := Option.some.inj hx
  exact hcall

theorem setUserNice (h : PrioOk clean s) (hmin : minNice ≤ nice) (hmax : nice ≤ maxNice) :
    PrioOk clean (s.setTask p ((s.task p).setUserNice nice)) := by
  apply h.setTask ((h.sound p).setUserNice hmin hmax)
  rw [PrioTask.setUserNice_stage]
  exact fun hclean hlive => (h.inEffect hclean p hlive).setUserNice (h.sound p) hmin hmax

omit [DecidableEq Tid] in
theorem legacyAttr_nice (h : PrioOk clean s) (p : Tid) (policy : ℤ) (b : Bool) (priority : ℕ) :
    minNice ≤ (s.legacyAttr p policy b priority).schedNice ∧
      (s.legacyAttr p policy b priority).schedNice ≤ maxNice := by
  obtain ⟨hmin, hmax⟩ := (h.sound p).staticPrio
  have heq : (s.legacyAttr p policy b priority).schedNice = (s.task p).staticPrio - 120 :=
    prioToNice_eq _
  rw [heq]
  exact ⟨by unfold minNice; omega, by unfold maxNice; omega⟩

end PrioOk

namespace PrioState

variable [DecidableEq Tid] {clean : Prop} {s s' : PrioState Tid} {op : PrioOp Tid}
  {result : PrioResult}

/-- A new task gets the priority that its copy of the parameters stands for. -/
def Safe (s : PrioState Tid) : PrioOp Tid → Prop
  | .schedFork p child =>
      (s.task child).schedResetOnFork = false → (s.task p).normalPrio = (s.task child).normalPrio
  | _ => True

/-- The steps with their results. -/
def Steps (s : PrioState Tid) (e : PrioOp Tid × PrioResult) (s' : PrioState Tid) : Prop :=
  s.step e.1 = some (e.2, s')

/-- The steps that are safe. -/
def SafeSteps (s : PrioState Tid) (e : PrioOp Tid × PrioResult) (s' : PrioState Tid) : Prop :=
  s.Safe e.1 ∧ s.Steps e s'

instance (s : PrioState Tid) (op : PrioOp Tid) : Decidable (s.Safe op) :=
  match op with
  | .schedFork p child => inferInstanceAs (Decidable ((s.task child).schedResetOnFork = false →
      (s.task p).normalPrio = (s.task child).normalPrio))
  | .sysSchedSetattr _ _ _ => .isTrue trivial
  | .schedSetscheduler _ _ _ _ _ _ => .isTrue trivial
  | .normalizeRtTask _ _ => .isTrue trivial
  | .check _ _ => .isTrue trivial
  | .commit _ _ => .isTrue trivial
  | .sysNice _ _ _ => .isTrue trivial
  | .niceCommit _ _ => .isTrue trivial
  | .setUserNice _ _ => .isTrue trivial
  | .rtMutexSetprio _ _ => .isTrue trivial
  | .dupTaskStruct _ _ => .isTrue trivial

/-- A step that can be computed. -/
def execStep (s : PrioState Tid) (op : PrioOp Tid) :
    Option ((PrioOp Tid × PrioResult) × PrioState Tid) :=
  (s.step op).map fun e => ((op, e.1), e.2)

/-- A safe step that can be computed. -/
def safeStep (s : PrioState Tid) (op : PrioOp Tid) :
    Option ((PrioOp Tid × PrioResult) × PrioState Tid) :=
  if s.Safe op then s.execStep op else none

theorem steps_of_execStep (s : PrioState Tid) (op : PrioOp Tid) (e : PrioOp Tid × PrioResult)
    (s' : PrioState Tid) (h : s.execStep op = some (e, s')) : s.Steps e s' := by
  obtain ⟨⟨result, t⟩, hstep, heq⟩ := Option.map_eq_some_iff.mp h
  obtain ⟨rfl, rfl⟩ := Prod.mk.inj heq
  exact hstep

theorem safeSteps_of_safeStep (s : PrioState Tid) (op : PrioOp Tid) (e : PrioOp Tid × PrioResult)
    (s' : PrioState Tid) (h : s.safeStep op = some (e, s')) : s.SafeSteps e s' := by
  unfold safeStep at h
  split at h
  next hsafe =>
      have hstep := steps_of_execStep s op e s' h
      obtain ⟨⟨result, t⟩, -, heq⟩ := Option.map_eq_some_iff.mp h
      obtain ⟨rfl, rfl⟩ := Prod.mk.inj heq
      exact ⟨hsafe, hstep⟩
  next => cases h

theorem clamp_nice (nice : ℤ) :
    minNice ≤ max minNice (min nice maxNice) ∧ max minNice (min nice maxNice) ≤ maxNice :=
  ⟨le_max_left _ _, max_le (by decide) (min_le_right _ _)⟩

/-- Every step keeps the invariant, for clean runs if it is safe. -/
theorem step_ok (h : PrioOk clean s) (hsafe : clean → s.Safe op)
    (hstep : s.step op = some (result, s')) : PrioOk clean s' := by
  cases op with
  | sysSchedSetattr c p attr =>
      simp only [step] at hstep
      split at hstep
      next => cases hstep
      split at hstep
      next => cases hstep; exact h
      next hpolicy =>
          obtain ⟨-, rfl⟩ := Prod.mk.inj (Option.some.inj hstep)
          apply h.beginCall
          refine ⟨clamp_nice attr.schedNice, fun hneg => Policy.ofInt?_neg hneg, fun _ => rfl⟩
  | schedSetscheduler c p policy b priority check =>
      simp only [step] at hstep
      split at hstep
      next => cases hstep
      next =>
          obtain ⟨-, rfl⟩ := Prod.mk.inj (Option.some.inj hstep)
          apply h.beginCall
          exact ⟨h.legacyAttr_nice p policy b priority, fun hneg => Policy.ofInt?_neg hneg,
            fun _ => rfl⟩
  | normalizeRtTask c p =>
      simp only [step] at hstep
      split at hstep
      next => cases hstep
      split at hstep
      next =>
          obtain ⟨-, rfl⟩ := Prod.mk.inj (Option.some.inj hstep)
          apply h.beginCall
          have hzero : minNice ≤ 0 ∧ 0 ≤ maxNice := by decide
          exact ⟨hzero, fun hneg => absurd hneg (by decide), fun _ => rfl⟩
      split at hstep
      next =>
          obtain ⟨-, rfl⟩ := Prod.mk.inj (Option.some.inj hstep)
          exact h.setUserNice (by decide) (by decide)
      next => cases hstep; exact h
  | check c facts =>
      simp only [step] at hstep
      split at hstep
      next p attr user pi policy hcall =>
          obtain ⟨hnice, hneg, hpos⟩ := h.pending c _ hcall
          split at hstep
          next k hcheck =>
              obtain ⟨-, rfl⟩ := Prod.mk.inj (Option.some.inj hstep)
              exact h.beginCall ⟨hnice, PrioTask.passed_of_check hcheck hneg hpos⟩
          next =>
              obtain ⟨-, rfl⟩ := Prod.mk.inj (Option.some.inj hstep)
              exact h.endCall
      next => cases hstep
  | commit c facts =>
      simp only [step] at hstep
      split at hstep
      next p attr user pi k hcall =>
          obtain ⟨hnice, hpassed⟩ := h.pending c _ hcall
          split at hstep
          next t hdone =>
              obtain ⟨-, rfl⟩ := Prod.mk.inj (Option.some.inj hstep)
              apply PrioOk.endCall
              apply h.setTask ((h.sound p).commit hpassed hnice.1 hnice.2 hdone)
              rw [PrioTask.commit_stage hdone]
              intro hclean hlive
              apply (h.inEffect hclean p hlive).commit _ hdone
              intro hnone
              rw [hnone]
              rfl
          next =>
              obtain ⟨-, rfl⟩ := Prod.mk.inj (Option.some.inj hstep)
              exact h.endCall
          next hrecheck =>
              obtain ⟨-, rfl⟩ := Prod.mk.inj (Option.some.inj hstep)
              obtain ⟨policy, hold⟩ := PrioTask.commit_recheck hrecheck
              apply h.beginCall
              exact ⟨hnice, fun _ => (hpassed.kept policy hold).2,
                fun hpos => absurd hpos (by decide)⟩
      next => cases hstep
  | sysNice c increment facts =>
      simp only [step] at hstep
      split at hstep
      next => cases hstep
      split at hstep
      next => cases hstep; exact h
      split at hstep
      next => cases hstep; exact h
      next =>
          obtain ⟨-, rfl⟩ := Prod.mk.inj (Option.some.inj hstep)
          exact h.beginCall (clamp_nice _)
  | niceCommit c nothing =>
      simp only [step] at hstep
      split at hstep
      next nice hcall =>
          obtain ⟨hmin, hmax⟩ := h.pending c _ hcall
          split at hstep
          next =>
              obtain ⟨-, rfl⟩ := Prod.mk.inj (Option.some.inj hstep)
              exact (h.setUserNice hmin hmax).endCall
          split at hstep
          next =>
              obtain ⟨-, rfl⟩ := Prod.mk.inj (Option.some.inj hstep)
              exact h.endCall
          next => cases hstep
      next => cases hstep
  | setUserNice p nice =>
      simp only [step] at hstep
      split at hstep
      next hguard =>
          obtain ⟨-, rfl⟩ := Prod.mk.inj (Option.some.inj hstep)
          exact h.setUserNice hguard.2.1 hguard.2.2
      next => cases hstep
  | rtMutexSetprio p piTask =>
      simp only [step] at hstep
      split at hstep
      next hlive =>
          obtain ⟨-, rfl⟩ := Prod.mk.inj (Option.some.inj hstep)
          apply h.setTask ((h.sound p).rtMutexSetprio piTask _)
          intro hclean _
          apply (h.inEffect hclean p hlive).rtMutexSetprio
          rintro rfl
          rfl
      next => cases hstep
  | dupTaskStruct p child =>
      simp only [step] at hstep
      split at hstep
      next =>
          obtain ⟨-, rfl⟩ := Prod.mk.inj (Option.some.inj hstep)
          obtain ⟨hnormal, hstatic, hrt, hle⟩ := h.sound p
          exact h.setTask ⟨hnormal, hstatic, hrt, hle⟩ fun _ hlive => by cases hlive
      next => cases hstep
  | schedFork p child =>
      simp only [step] at hstep
      split at hstep
      next =>
          split at hstep
          next t hfork =>
              obtain ⟨-, rfl⟩ := Prod.mk.inj (Option.some.inj hstep)
              obtain ⟨hnormal, hstatic, hrt, hle⟩ := (h.sound child).schedFork hfork
              refine h.setTask ⟨hnormal, hstatic, hrt, hle⟩ fun hclean _ => ?_
              obtain ⟨hprio, hboost, hclass⟩ := PrioTask.InEffect.schedFork (hsafe hclean) hfork
              exact ⟨hprio, hboost, hclass⟩
          next =>
              obtain ⟨-, rfl⟩ := Prod.mk.inj (Option.some.inj hstep)
              obtain ⟨hnormal, hstatic, hrt, hle⟩ := h.sound child
              exact h.setTask ⟨hnormal, hstatic, hrt, hle⟩ fun _ hlive => by cases hlive
      next => cases hstep

end PrioState

section Boot

variable {idle stop : Tid → Bool} {p : Tid} {s : PrioState Tid}
  {es : List (PrioOp Tid × PrioResult)}

theorem bootPrio_ok {clean : Prop} : PrioOk clean (bootPrio idle stop) where
  sound := by
    intro p
    have hzero : FairPrio (niceToPrio 0) := fairPrio_niceToPrio (by decide) (by decide)
    unfold bootPrio
    cases hstop : stop p with
    | true => exact ⟨by simp [hstop]; rfl, hzero, by simp [hstop, Policy.rt], by simp [hstop]⟩
    | false => exact ⟨by simp [hstop]; rfl, hzero, by simp [hstop, Policy.rt], by simp [hstop]⟩
  inEffect := by
    intro _ p _
    refine ⟨le_rfl, fun _ hne => absurd rfl hne, fun hidle hstop => ?_⟩
    have hidle' : idle p = false := hidle
    have hstop' : stop p = false := hstop
    simp only [bootPrio, hidle', hstop']
    rfl
  pending := fun _ _ hcall => by cases hcall

variable [DecidableEq Tid]

theorem run_prioOk (h : Run PrioState.Steps (bootPrio idle stop) es s) : PrioOk False s :=
  h.invariant (fun _ _ _ hs hstep => PrioState.step_ok hs (fun hclean => hclean.elim) hstep)
    bootPrio_ok

theorem safeRun_prioOk (h : Run PrioState.SafeSteps (bootPrio idle stop) es s) :
    PrioOk True s := by
  apply h.invariant _ bootPrio_ok
  rintro s e t hs ⟨hsafe, hstep⟩
  exact PrioState.step_ok hs (fun _ => hsafe) hstep

/-- In every state of every run, the normal priority of a task is that of its policy and
parameters, the real-time priority is set for the real-time policies only, and the priority
in effect is at most the normal one, differs from it only with a donor, and decides on the
class. -/
theorem prio_consistent (h : Run PrioState.SafeSteps (bootPrio idle stop) es s)
    (hlive : (s.task p).stage = .live) (hidle : (s.task p).isIdle = false)
    (hstop : (s.task p).isStop = false) :
    (s.task p).normalPrio = (s.task p).computeNormalPrio ∧
      (100 ≤ (s.task p).staticPrio ∧ (s.task p).staticPrio < 140) ∧
      ((s.task p).policy.rt = true ↔ (s.task p).rtPriority ≠ 0) ∧ (s.task p).rtPriority ≤ 99 ∧
      (s.task p).prio ≤ (s.task p).normalPrio ∧
      ((s.task p).prio ≠ (s.task p).normalPrio → (s.task p).piTopTask ≠ none) ∧
      (s.task p).schedClass = classOf (s.task p).prio := by
  have hs := safeRun_prioOk h
  obtain ⟨hnormal, hstatic, hrt, hle⟩ := hs.sound p
  obtain ⟨hprio, hboosted, hclass⟩ := hs.inEffect trivial p hlive
  exact ⟨hnormal, hstatic, hrt, hle, hprio, hboosted hidle, hclass hidle hstop⟩

/-- Four tasks are 0 to 3. -/
theorem fourTasks_neZero : NeZero 4 := ⟨four_ne_zero⟩

attribute [local instance] fourTasks_neZero

/-- Four tasks, of which task 0 is idle and task 3 a stop task. -/
abbrev bootFour : PrioState (Fin 4) := bootPrio (· = 0) (· = 3)

/-- A caller with `CAP_SYS_NICE`. -/
def privileged : Facts := ⟨true, true, true, 0, 0, true, none, none⟩

/-- No bandwidth is at stake. -/
def unlimited : LockedFacts := ⟨false, false, false, false⟩

/-- Task 1 becomes a real-time task and waits for task 2. -/
def boost : List (PrioOp (Fin 4)) :=
  [.dupTaskStruct 0 1, .schedFork 0 1, .dupTaskStruct 1 2, .schedFork 1 2,
    .schedSetscheduler 1 1 1 false 50 true, .check 1 privileged, .commit 1 unlimited,
    .rtMutexSetprio 2 (some 1)]

def boostEvents : List (PrioOp (Fin 4) × PrioResult) :=
  boost.zip [.ok, .ok, .ok, .ok, .going, .going, .ok, .ok]

theorem prio_consistent_boost :
    let t := (lastState PrioState.safeStep bootFour boost).task 2
    (t.normalPrio = t.computeNormalPrio ∧ (100 ≤ t.staticPrio ∧ t.staticPrio < 140) ∧
      (t.policy.rt = true ↔ t.rtPriority ≠ 0) ∧ t.rtPriority ≤ 99 ∧ t.prio ≤ t.normalPrio ∧
      (t.prio ≠ t.normalPrio → t.piTopTask ≠ none) ∧ t.schedClass = classOf t.prio) ∧
    t.prio = 49 ∧ t.normalPrio = 120 ∧ t.schedClass = .rt := by
  have hrun : Run PrioState.SafeSteps bootFour boostEvents
      (lastState PrioState.safeStep bootFour boost) :=
    lastState_run PrioState.safeSteps_of_safeStep (by decide +kernel)
  exact ⟨prio_consistent hrun (by decide +kernel) (by decide +kernel) (by decide +kernel),
    by decide +kernel⟩

/-- Task 1 becomes a real-time task while it forks task 2. -/
def boostWhileForking : List (PrioOp (Fin 4)) :=
  [.dupTaskStruct 0 1, .schedFork 0 1, .dupTaskStruct 1 2,
    .schedSetscheduler 0 1 1 false 50 true, .check 0 privileged, .commit 0 unlimited]

def boostWhileForkingEvents : List (PrioOp (Fin 4) × PrioResult) :=
  boostWhileForking.zip [.ok, .ok, .ok, .going, .going, .ok]

end Boot

end LinuxOs2022.Scheduler
