import LinuxOs2022.Library.Runs
import LinuxOs2022.Scheduler.UclampTasks

/-!
# Clamps over whole runs

Over any sequence of enqueues, dequeues and changes of the clamps, the clamps of a run queue
bound those of its tasks, by less than one bucket too much. There is one exception:
`uclamp_update_active` on the only task of a run queue marks the run queue as idle and leaves
the mark, so that the next task to come erases the clamp of the first.
-/

namespace LinuxOs2022.Scheduler

open Library

variable {Tid : Type} [DecidableEq Tid] {n m : ℕ} {r r' : ClampState Tid n m} {c c₀ : Fin m}
  {p q : Tid} {id : UclampId} {op : ClampOp Tid m}

/-! ## What is asked for -/

theorem valid_resetClamp {se : UclampSe} (hse : se.Valid n) (rtTask : Bool) (id : UclampId) :
    (ClampState.resetClamp (n := n) rtTask id se).Valid n := by
  unfold ClampState.resetClamp
  split
  next => exact hse
  next =>
      apply UclampSe.valid_set
      split
      next => exact uclampNone_le .max
      next => exact uclampNone_le id

theorem valid_group {group : Option (UclampId → UclampSe)} :
    (group.all fun g => ClampState.validSe n (g .min) && ClampState.validSe n (g .max)) = true ↔
      ∀ g, group = some g → ∀ id, (g id).Valid n := by
  have hvalid : ∀ se : UclampSe, ClampState.validSe n se = true ↔ se.Valid n := by
    intro se
    simp only [ClampState.validSe, Bool.and_eq_true, beq_iff_eq, decide_eq_true_eq]
    exact ⟨fun h => ⟨h.1, h.2⟩, fun h => ⟨h.bucketId, h.value_le⟩⟩
  cases group with
  | none => simp
  | some g =>
      simp only [Option.all_some, Bool.and_eq_true, hvalid, Option.some.injEq, forall_eq']
      constructor
      · intro h id
        cases id with
        | min => exact h.1
        | max => exact h.2
      · exact fun h => ⟨h .min, h .max⟩

/-- The values of a request that `uclamp_validate` lets pass. -/
structure Allowed (attr : ClampAttr) : Prop where
  utilMin : ∀ v ∈ attr.utilMin, v ≤ schedCapacityScale
  utilMax : ∀ v ∈ attr.utilMax, v ≤ schedCapacityScale

omit [DecidableEq Tid] in
theorem allowed_of_validate {attr : ClampAttr} (h : r.uclampValidate p attr = true) :
    Allowed attr := by
  simp only [ClampState.uclampValidate, Bool.and_eq_true, decide_eq_true_eq] at h
  obtain ⟨hle, hscale⟩ := h
  constructor
  · intro v hv
    rw [Option.mem_def.mp hv, Option.getD_some] at hle
    exact hle.trans hscale
  · intro v hv
    rwa [Option.mem_def.mp hv, Option.getD_some] at hscale

omit [DecidableEq Tid] in
/-- A request that passes names no clamp, or only allowed ones. -/
theorem allowed_of_passed {attr : ClampAttr}
    (h : ¬ ((attr.utilMin.isSome || attr.utilMax.isSome) && !r.uclampValidate p attr) = true) :
    Allowed attr := by
  cases hvalid : r.uclampValidate p attr with
  | true => exact allowed_of_validate hvalid
  | false =>
      simp only [hvalid, Bool.not_false, Bool.and_true, Bool.or_eq_true, not_or,
        Option.not_isSome_iff_eq_none] at h
      constructor
      · simp [h.1]
      · simp [h.2]

namespace Asked

theorem setschedulerUclamp (h : Asked r) {attr : ClampAttr} (hattr : Allowed attr)
    (rtTask : Bool) : Asked (r.setschedulerUclamp p attr rtTask) := by
  refine h.modTask ?_ (h.group p)
  intro id
  have hreset := valid_resetClamp (h.req p id) rtTask id
  cases id with
  | min =>
      dsimp only
      split
      next v hv => exact UclampSe.valid_set _ (hattr.utilMin v hv) true
      next => exact hreset
  | max =>
      dsimp only
      split
      next v hv => exact UclampSe.valid_set _ (hattr.utilMax v hv) true
      next => exact hreset

omit [DecidableEq Tid] in
theorem sysctlHandler (h : Asked r) (utilMin utilMax : ℕ) :
    Asked (r.sysctlHandler utilMin utilMax) := by
  unfold ClampState.sysctlHandler
  split
  next => exact h
  next hvalid =>
      rw [not_or, not_lt, not_lt] at hvalid
      have hset : ∀ (b : Prop) [Decidable b] id v, v ≤ schedCapacityScale →
          (if b then r.uclampDefault id else (r.uclampDefault id).set n v false).Valid n := by
        intro b _ id v hv
        split
        next => exact h.default id
        next => exact UclampSe.valid_set _ hv false
      refine ⟨h.req, h.group, fun id => ?_⟩
      cases id with
      | min => exact hset _ .min utilMin (hvalid.1.trans hvalid.2)
      | max => exact hset _ .max utilMax hvalid.2

theorem uclampFork (h : Asked r) (p child : Tid) (enabled : Bool) :
    Asked (r.uclampFork p child enabled) := by
  unfold ClampState.uclampFork
  apply h.modTask
  · intro id
    dsimp only
    split
    next => exact UclampSe.valid_set _ (uclampNone_le id) false
    next => exact h.req p id
  · exact h.group p

end Asked

namespace ClampOk

omit [DecidableEq Tid] in
theorem sysctlHandler (h : ClampOk r) (utilMin utilMax : ℕ) :
    ClampOk (r.sysctlHandler utilMin utilMax) := by
  have hasked := h.asked.sysctlHandler utilMin utilMax
  unfold ClampState.sysctlHandler at hasked ⊢
  split
  next => exact h
  next hvalid =>
      rw [if_neg hvalid] at hasked
      refine ⟨hasked, ?_, h.active, h.busy, h.warnings⟩
      exact h.clamps.congr (fun _ _ _ _ => rfl) (fun _ => rfl) (fun _ _ _ hidle => hidle)
        fun _ _ _ => Iff.rfl

/-- A new task has no clamp that is counted. -/
theorem uclampFork (h : ClampOk r) {child : Tid} (hchild : (r.task child).queued = false)
    (p : Tid) (enabled : Bool) : ClampOk (r.uclampFork p child enabled) := by
  have hasked := h.asked.uclampFork p child enabled
  unfold ClampState.uclampFork at hasked ⊢
  apply h.modTask hasked
  · exact fun c => iff_of_false (ClampTask.not_countedOn rfl c) (ClampTask.not_countedOn hchild c)
  · exact .inr ⟨ClampTask.not_countedOn hchild, fun _ => rfl⟩

/-- A change of the class of a task that is not queued. -/
theorem setEnabled (h : ClampOk r) (hp : (r.task p).queued = false) (b : Bool) :
    ClampOk (r.modTask p fun t => { t with uclampEnabled := b }) := by
  refine h.modTask (h.asked.modTask (h.asked.req p) (h.asked.group p)) (fun c => ?_) (.inl rfl)
  apply iff_of_false
  · apply ClampTask.not_countedOn
    exact hp
  · exact ClampTask.not_countedOn hp c

/-- A change that is made off the run queue. -/
theorem requeue (h : ClampOk r) (hfit : BucketsFit n)
    {f : ClampState Tid n m → ClampState Tid n m}
    (hf : ∀ {r₁}, ClampOk r₁ → (r₁.task p).queued = false →
      ClampOk (f r₁) ∧ ((f r₁).task p).queued = false) :
    ∃ r', r.requeue p f = some r' ∧ ClampOk r' := by
  cases hp : (r.task p).queued with
  | false => exact ⟨f r, by rw [ClampState.requeue, if_neg (by simp [hp])], (hf h hp).1⟩
  | true =>
      obtain ⟨r₁, hdeq, hr₁, hp₁⟩ := h.dequeueTask hp
      obtain ⟨hf₁, hq₁⟩ := hf hr₁ hp₁
      obtain ⟨r₂, henq, hr₂⟩ := hf₁.enqueueTask hfit hq₁ (r.task p).cpu
      refine ⟨r₂, ?_, hr₂⟩
      rw [ClampState.requeue, if_pos hp, hdeq, Option.bind_eq_bind, Option.bind_some, henq]

end ClampOk

/-! ## Steps and runs -/

namespace ClampState

/-- The operation can happen. -/
def Possible (r : ClampState Tid n m) : ClampOp Tid m → Prop
  | .enqueueTask p _ => (r.task p).queued = false
  | .dequeueTask p => (r.task p).queued = true
  | .fork _ child _ => (r.task child).queued = false
  | .setGroup _ group => ∀ g, group = some g → ∀ id, (g id).Valid n
  | _ => True

/-- The operation does not update the maximum of a task that is alone on its run queue. -/
def Safe (r : ClampState Tid n m) : ClampOp Tid m → Prop
  | .updateActive p .max => ((r.task p).uclamp .max).active = true → r.Accompanied p
  | _ => True

/-- The steps, labelled with their operations. -/
def Steps (r : ClampState Tid n m) (op : ClampOp Tid m) (r' : ClampState Tid n m) : Prop :=
  r.step op = some r'

/-- The steps that are safe. -/
def SafeSteps (r : ClampState Tid n m) (op : ClampOp Tid m) (r' : ClampState Tid n m) : Prop :=
  r.Safe op ∧ r.step op = some r'

instance (t : ClampTask m) (c : Fin m) : Decidable (t.CountedOn c) :=
  inferInstanceAs (Decidable (_ ∧ _ ∧ _))

instance [Fintype Tid] (r : ClampState Tid n m) (p : Tid) : Decidable (r.Accompanied p) :=
  inferInstanceAs (Decidable (∃ q, q ≠ p ∧ (r.task q).CountedOn (r.task p).cpu))

instance [Fintype Tid] (r : ClampState Tid n m) (op : ClampOp Tid m) : Decidable (r.Safe op) :=
  match op with
  | .updateActive p .max =>
      inferInstanceAs (Decidable (((r.task p).uclamp .max).active = true → r.Accompanied p))
  | .updateActive _ .min => .isTrue trivial
  | .enqueueTask _ _ => .isTrue trivial
  | .dequeueTask _ => .isTrue trivial
  | .setscheduler _ _ _ _ => .isTrue trivial
  | .setprio _ _ => .isTrue trivial
  | .sysctl _ _ => .isTrue trivial
  | .fork _ _ _ => .isTrue trivial
  | .setResetOnFork _ _ => .isTrue trivial
  | .setGroup _ _ => .isTrue trivial

/-- A safe step that can be computed. -/
def safeStep [Fintype Tid] (r : ClampState Tid n m) (op : ClampOp Tid m) :
    Option (ClampOp Tid m × ClampState Tid n m) :=
  if r.Safe op then (r.step op).map (op, ·) else none

theorem safeSteps_of_safeStep [Fintype Tid] (r : ClampState Tid n m) (op e : ClampOp Tid m)
    (r' : ClampState Tid n m) (h : safeStep r op = some (e, r')) : SafeSteps r e r' := by
  unfold safeStep at h
  split at h
  next hsafe =>
      obtain ⟨t, hstep, heq⟩ := Option.map_eq_some_iff.mp h
      obtain ⟨rfl, rfl⟩ := Prod.mk.inj heq
      exact ⟨hsafe, hstep⟩
  next => cases h

theorem possible_of_step (h : r.step op = some r') : r.Possible op := by
  cases op with
  | enqueueTask p c =>
      cases hp : (r.task p).queued with
      | false => exact hp
      | true => simp [step, hp] at h
  | dequeueTask p =>
      cases hp : (r.task p).queued with
      | false => simp [step, hp] at h
      | true => exact hp
  | fork p child enabled =>
      cases hp : (r.task child).queued with
      | false => exact hp
      | true => simp [step, hp] at h
  | setGroup p group =>
      simp only [step] at h
      split at h
      next hall => exact valid_group.mp hall
      next => cases h
  | _ => trivial

end ClampState

/-- A safe step keeps the invariant, and does not fail. -/
theorem ClampOk.step (h : ClampOk r) (hfit : BucketsFit n) (hpossible : r.Possible op)
    (hsafe : r.Safe op) : ∃ r', r.step op = some r' ∧ ClampOk r' := by
  cases op with
  | enqueueTask p c =>
      have hp : (r.task p).queued = false := hpossible
      rw [ClampState.step, if_neg (by simp [hp])]
      exact h.enqueueTask hfit hp c
  | dequeueTask p =>
      have hp : (r.task p).queued = true := hpossible
      obtain ⟨r₁, hdeq, hr₁, -⟩ := h.dequeueTask hp
      rw [ClampState.step, if_pos hp]
      exact ⟨r₁, hdeq, hr₁⟩
  | updateActive p id =>
      apply h.uclampUpdateActive hfit
      rintro rfl
      exact hsafe
  | setscheduler p attr rtTask enabled =>
      simp only [ClampState.step]
      split
      next => exact ⟨r, rfl, h⟩
      next hpass =>
          have hattr := allowed_of_passed hpass
          apply h.requeue hfit
          intro r₁ hr₁ hp₁
          have hen := hr₁.setEnabled hp₁ enabled
          have hasked := hen.asked.setschedulerUclamp (p := p) hattr rtTask
          refine ⟨hen.modTask hasked (fun _ => Iff.rfl) (.inl rfl), ?_⟩
          simpa [ClampState.setschedulerUclamp] using hp₁
  | setprio p enabled =>
      apply h.requeue hfit
      exact fun hr₁ hp₁ => ⟨hr₁.setEnabled hp₁ enabled, by simpa using hp₁⟩
  | sysctl utilMin utilMax => exact ⟨_, rfl, h.sysctlHandler utilMin utilMax⟩
  | fork p child enabled =>
      have hchild : (r.task child).queued = false := hpossible
      rw [ClampState.step, if_neg (by simp [hchild])]
      exact ⟨_, rfl, h.uclampFork hchild p enabled⟩
  | setResetOnFork p b =>
      refine ⟨_, rfl, h.modTask ?_ (fun _ => Iff.rfl) (.inl rfl)⟩
      exact h.asked.modTask (h.asked.req p) (h.asked.group p)
  | setGroup p group =>
      rw [ClampState.step, if_pos (valid_group.mpr hpossible)]
      refine ⟨_, rfl, h.modTask ?_ (fun _ => Iff.rfl) (.inl rfl)⟩
      exact h.asked.modTask (h.asked.req p) hpossible

omit [DecidableEq Tid] in
theorem initUclamp_asked : Asked (initUclamp Tid n m c₀) where
  req := fun _ id => UclampSe.valid_set _ (uclampNone_le id) false
  group := fun _ _ h => by cases h
  default := fun _ => UclampSe.valid_set _ (uclampNone_le .max) false

omit [DecidableEq Tid] in
theorem initUclamp_ok : ClampOk (initUclamp Tid n m c₀) := by
  have hnone : ∀ p c, ¬ ((initUclamp Tid n m c₀).task p).CountedOn c := fun _ =>
    ClampTask.not_countedOn rfl
  constructor
  · exact initUclamp_asked
  · constructor
    · exact fun _ c p hp => absurd hp (hnone p c)
    · intro id c
      constructor
      · exact .empty (fun _ => rfl) fun p => hnone p c
      · exact fun ⟨p, hp⟩ => absurd hp (hnone p c)
      · exact fun _ => .inr rfl
  · exact fun p id => iff_of_false Bool.false_ne_true (not_exists.mpr (hnone p))
  · exact fun c ⟨p, hp⟩ => absurd hp (hnone p c)
  · exact fun _ => rfl

theorem run_clampOk (hfit : BucketsFit n) {ops : List (ClampOp Tid m)}
    (h : Run ClampState.SafeSteps (initUclamp Tid n m c₀) ops r) : ClampOk r := by
  apply h.invariant _ initUclamp_ok
  rintro s op t hs ⟨hsafe, hstep⟩
  obtain ⟨t', hstep', ht'⟩ := hs.step hfit (ClampState.possible_of_step hstep) hsafe
  rw [hstep] at hstep'
  exact Option.some.inj hstep' ▸ ht'

/-! ## The clamps of a run queue -/

/-- The tasks of a machine with two tasks are 0 and 1. -/
theorem twoTasks_neZero : NeZero 2 := ⟨two_ne_zero⟩

/-- The only CPU of a machine is 0. -/
theorem oneCpu_neZero : NeZero 1 := ⟨one_ne_zero⟩

attribute [local instance] twoTasks_neZero oneCpu_neZero

/-- Two tasks with maxima of 300 and 250, of which the first is lowered to 220. -/
def lowerMaximum : List (ClampOp (Fin 2) 1) :=
  [.setscheduler 0 ⟨some 100, some 300⟩ false true, .enqueueTask 0 0,
    .setscheduler 1 ⟨none, some 250⟩ false true, .enqueueTask 1 0,
    .setscheduler 0 ⟨none, some 220⟩ false true, .updateActive 0 .max]

theorem lowerMaximum_run : Run ClampState.SafeSteps (initUclamp (Fin 2) 5 1 0) lowerMaximum
    (lastState ClampState.safeStep (initUclamp (Fin 2) 5 1 0) lowerMaximum) :=
  lastState_run ClampState.safeSteps_of_safeStep (by decide +kernel)

end LinuxOs2022.Scheduler
