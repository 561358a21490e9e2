import LinuxOs2022.Scheduler.UclampRuns

/-!
# Stores outside the array of buckets

`uclamp_bucket_id` divides by a rounded width, so that the largest clamp may fall behind the
last bucket. Whether it does depends on the number of buckets only; when it does not, no
operation in any run leaves the array.
-/

namespace LinuxOs2022.Scheduler

open Library

variable {Tid : Type} [DecidableEq Tid] {n m : ℕ} {r r' : ClampState Tid n m} {c c₀ : Fin m}
  {p q : Tid} {id : UclampId} {op : ClampOp Tid m}

namespace RqClamps

variable {rq rq' : RqClamps n} {se : UclampSe}

theorem lt_of_incId (h : rq.incId id se = some rq') : se.bucketId < n := by
  by_contra hse
  rw [incId, dif_neg hse] at h
  cases h

@[simp] theorem setValue_warnings (v : ℕ) : (rq.setValue id v).warnings = rq.warnings := rfl
@[simp] theorem setBucket_warnings (i : Fin n) (b : UclampBucket) :
    (rq.setBucket id i b).warnings = rq.warnings := rfl
@[simp] theorem warnOn_uclamp (b : Bool) : (rq.warnOn b).uclamp = rq.uclamp := rfl

theorem le_warnings_warnOn (rq : RqClamps n) (b : Bool) :
    rq.warnings ≤ (rq.warnOn b).warnings := by
  unfold warnOn
  dsimp only
  split
  next => exact Nat.le_succ _
  next => exact le_rfl

theorem setValue_uclamp_of_ne (rq : RqClamps n) (v : ℕ) {j : UclampId} (hj : j ≠ id) :
    (rq.setValue id v).uclamp j = rq.uclamp j := Function.update_of_ne hj ..

theorem setBucket_uclamp_of_ne (rq : RqClamps n) (i : Fin n) (b : UclampBucket) {j : UclampId}
    (hj : j ≠ id) : (rq.setBucket id i b).uclamp j = rq.uclamp j := Function.update_of_ne hj ..

/-- `uclamp_rq_max_value` writes at most the mark. -/
theorem maxValue_frame (rq : RqClamps n) (id : UclampId) (v : ℕ) :
    (rq.maxValue id v).1.uclamp = rq.uclamp ∧ (rq.maxValue id v).1.warnings = rq.warnings := by
  unfold maxValue
  split
  next => exact ⟨rfl, rfl⟩
  next =>
      cases id with
      | min => exact ⟨rfl, rfl⟩
      | max => exact ⟨rfl, rfl⟩

/-- `uclamp_rq_dec_id` leaves the other clamp, and takes back no warning. -/
theorem decId_frame (rq : RqClamps n) (id : UclampId) (hse : se.bucketId < n) :
    ∃ rq', rq.decId id se = some rq' ∧ (∀ j, j ≠ id → rq'.uclamp j = rq.uclamp j) ∧
      rq.warnings ≤ rq'.warnings := by
  rw [decId, dif_pos hse]
  dsimp only
  split
  next =>
      refine ⟨_, rfl, fun j hj => ?_, le_warnings_warnOn rq _⟩
      rw [setBucket_uclamp_of_ne _ _ _ hj, warnOn_uclamp]
  next =>
      split
      next =>
          refine ⟨_, rfl, fun j hj => ?_, ?_⟩
          · rw [setValue_uclamp_of_ne _ _ hj, (maxValue_frame _ _ _).1, warnOn_uclamp,
              setBucket_uclamp_of_ne _ _ _ hj, warnOn_uclamp]
          · rw [setValue_warnings, (maxValue_frame _ _ _).2]
            exact (le_warnings_warnOn rq _).trans (le_warnings_warnOn _ _)
      next =>
          refine ⟨_, rfl, fun j hj => ?_, ?_⟩
          · rw [warnOn_uclamp, setBucket_uclamp_of_ne _ _ _ hj, warnOn_uclamp]
          · exact (le_warnings_warnOn rq _).trans (le_warnings_warnOn _ _)

end RqClamps

/-- Every clamp that is stored has a bucket. -/
structure InRange (r : ClampState Tid n m) : Prop where
  asked : Asked r
  bucketId_lt : ∀ p id, ((r.task p).uclamp id).bucketId < n

namespace InRange

theorem modTask (h : InRange r) {f : ClampTask m → ClampTask m} (hasked : Asked (r.modTask p f))
    (hlt : ∀ id, ((f (r.task p)).uclamp id).bucketId < n) : InRange (r.modTask p f) where
  asked := hasked
  bucketId_lt := by
    intro q id
    rw [ClampState.modTask_task]
    by_cases hq : q = p
    · subst hq
      rw [Function.update_self]
      exact hlt id
    · rw [Function.update_of_ne hq]
      exact h.bucketId_lt q id

theorem setClamp (h : InRange r) {rq : RqClamps n} {se : UclampSe} (hse : se.bucketId < n) :
    InRange ((r.setRq c rq).setClamp p id se) where
  asked := h.asked.congr (by simp) (by simp) rfl
  bucketId_lt := by
    intro q j
    rw [ClampState.setClamp_uclamp]
    split
    next => exact hse
    next => exact h.bucketId_lt q j

theorem uclampRqIncId (h : InRange r) (hfit : BucketsFit n) (p : Tid) (c : Fin m)
    (id : UclampId) : ∃ r', r.uclampRqIncId p c id = some r' ∧ InRange r' := by
  have hse := (h.asked.uclampEffGet p id).lt hfit
  rw [ClampState.uclampRqIncId, RqClamps.incId_eq hse]
  exact ⟨_, rfl, h.setClamp hse⟩

theorem uclampRqDecId (h : InRange r) (p : Tid) (c : Fin m) (id : UclampId) :
    ∃ r', r.uclampRqDecId p c id = some r' ∧ InRange r' := by
  have hse := h.bucketId_lt p id
  obtain ⟨rq, hdec, -⟩ := (r.rq c).decId_frame id hse
  rw [ClampState.uclampRqDecId, hdec]
  exact ⟨_, rfl, h.setClamp hse⟩

theorem enqueueTask (h : InRange r) (hfit : BucketsFit n) (p : Tid) (c : Fin m) :
    ∃ r', r.enqueueTask p c = some r' ∧ InRange r' := by
  obtain ⟨r₁, hinc, hr₁⟩ : ∃ r₁, r.uclampRqInc p c = some r₁ ∧ InRange r₁ := by
    unfold ClampState.uclampRqInc
    split
    next =>
        obtain ⟨r₁, hinc₁, hr₁⟩ := h.uclampRqIncId hfit p c .min
        obtain ⟨r₂, hinc₂, hr₂⟩ := hr₁.uclampRqIncId hfit p c .max
        rw [hinc₁, Option.bind_eq_bind, Option.bind_some, hinc₂]
        exact ⟨_, rfl, hr₂.asked.congr (fun _ => rfl) (fun _ => rfl) rfl, hr₂.bucketId_lt⟩
    next => exact ⟨r, rfl, h⟩
  rw [ClampState.enqueueTask, hinc]
  refine ⟨_, rfl, hr₁.modTask ?_ (hr₁.bucketId_lt p)⟩
  exact hr₁.asked.modTask (hr₁.asked.req p) (hr₁.asked.group p)

theorem dequeueTask (h : InRange r) (p : Tid) :
    ∃ r', r.dequeueTask p = some r' ∧ InRange r' := by
  obtain ⟨r₁, hdec, hr₁⟩ : ∃ r₁, r.uclampRqDec p (r.task p).cpu = some r₁ ∧ InRange r₁ := by
    unfold ClampState.uclampRqDec
    split
    next =>
        obtain ⟨r₁, hdec₁, hr₁⟩ := h.uclampRqDecId p (r.task p).cpu .min
        rw [hdec₁, Option.bind_eq_bind, Option.bind_some]
        exact hr₁.uclampRqDecId p (r.task p).cpu .max
    next => exact ⟨r, rfl, h⟩
  rw [ClampState.dequeueTask, hdec]
  refine ⟨_, rfl, hr₁.modTask ?_ (hr₁.bucketId_lt p)⟩
  exact hr₁.asked.modTask (hr₁.asked.req p) (hr₁.asked.group p)

theorem uclampUpdateActive (h : InRange r) (hfit : BucketsFit n) (p : Tid) (id : UclampId) :
    ∃ r', r.uclampUpdateActive p id = some r' ∧ InRange r' := by
  unfold ClampState.uclampUpdateActive
  dsimp only
  split
  next =>
      obtain ⟨r₁, hdec, hr₁⟩ := h.uclampRqDecId p (r.task p).cpu id
      rw [hdec, Option.bind_eq_bind, Option.bind_some]
      exact hr₁.uclampRqIncId hfit p (r.task p).cpu id
  next => exact ⟨r, rfl, h⟩

theorem requeue (h : InRange r) (hfit : BucketsFit n)
    {f : ClampState Tid n m → ClampState Tid n m}
    (hf : ∀ {r₁}, InRange r₁ → InRange (f r₁)) :
    ∃ r', r.requeue p f = some r' ∧ InRange r' := by
  unfold ClampState.requeue
  split
  next =>
      obtain ⟨r₁, hdeq, hr₁⟩ := h.dequeueTask p
      rw [hdeq, Option.bind_eq_bind, Option.bind_some]
      exact (hf hr₁).enqueueTask hfit p (r.task p).cpu
  next => exact ⟨_, rfl, hf h⟩

theorem setEnabled (h : InRange r) (p : Tid) (b : Bool) :
    InRange (r.modTask p fun t => { t with uclampEnabled := b }) :=
  h.modTask (h.asked.modTask (h.asked.req p) (h.asked.group p)) (h.bucketId_lt p)

/-- An operation that can happen has a result. -/
theorem step (h : InRange r) (hfit : BucketsFit n) (hpossible : r.Possible op) :
    ∃ r', r.step op = some r' ∧ InRange r' := by
  cases op with
  | enqueueTask p c =>
      have hp : (r.task p).queued = false := hpossible
      rw [ClampState.step, if_neg (by simp [hp])]
      exact h.enqueueTask hfit p c
  | dequeueTask p =>
      have hp : (r.task p).queued = true := hpossible
      rw [ClampState.step, if_pos hp]
      exact h.dequeueTask p
  | updateActive p id => exact h.uclampUpdateActive hfit p id
  | setscheduler p attr rtTask enabled =>
      simp only [ClampState.step]
      split
      next => exact ⟨r, rfl, h⟩
      next hpass =>
          apply h.requeue hfit
          intro r₁ hr₁
          have hen := hr₁.setEnabled p enabled
          apply hen.modTask (hen.asked.setschedulerUclamp (allowed_of_passed hpass) rtTask)
          exact hen.bucketId_lt p
  | setprio p enabled => exact h.requeue hfit fun hr₁ => hr₁.setEnabled p enabled
  | sysctl utilMin utilMax =>
      refine ⟨_, rfl, h.asked.sysctlHandler utilMin utilMax, ?_⟩
      unfold ClampState.sysctlHandler
      split
      next => exact h.bucketId_lt
      next => exact h.bucketId_lt
  | fork p child enabled =>
      have hchild : (r.task child).queued = false := hpossible
      rw [ClampState.step, if_neg (by simp [hchild])]
      have hasked := h.asked.uclampFork p child enabled
      unfold ClampState.uclampFork at hasked ⊢
      exact ⟨_, rfl, h.modTask hasked (h.bucketId_lt p)⟩
  | setResetOnFork p b =>
      refine ⟨_, rfl, h.modTask ?_ (h.bucketId_lt p)⟩
      exact h.asked.modTask (h.asked.req p) (h.asked.group p)
  | setGroup p group =>
      rw [ClampState.step, if_pos (valid_group.mpr hpossible)]
      refine ⟨_, rfl, h.modTask ?_ (h.bucketId_lt p)⟩
      exact h.asked.modTask (h.asked.req p) hpossible

end InRange

omit [DecidableEq Tid] in
theorem initUclamp_inRange (hfit : BucketsFit n) : InRange (initUclamp Tid n m c₀) where
  asked := initUclamp_asked
  bucketId_lt := fun _ _ => Nat.pos_of_ne_zero <| by
    rintro rfl
    rw [BucketsFit, zero_mul] at hfit
    exact Nat.not_lt_zero _ hfit

theorem run_inRange (hfit : BucketsFit n) {ops : List (ClampOp Tid m)}
    (h : Run ClampState.Steps (initUclamp Tid n m c₀) ops r) : InRange r := by
  apply h.invariant _ (initUclamp_inRange hfit)
  intro s op t hs hstep
  obtain ⟨t', hstep', ht'⟩ := hs.step hfit (ClampState.possible_of_step hstep)
  rw [ClampState.Steps, hstep'] at hstep
  exact Option.some.inj hstep ▸ ht'

/-- A task is counted only if its maximum has a bucket. -/
theorem ClampState.lt_of_enqueueTask (h : r.enqueueTask p c = some r')
    (hen : (r.task p).uclampEnabled = true) : (r.uclampEffGet p .max).bucketId < n := by
  obtain ⟨r₂, hinc, -⟩ := Option.map_eq_some_iff.mp h
  rw [uclampRqInc, if_pos hen] at hinc
  simp only [Option.bind_eq_bind, Option.bind_eq_some_iff] at hinc
  obtain ⟨r₁, hmin, r₂, hmax, -⟩ := hinc
  obtain ⟨rq₁, -, rfl⟩ := Option.map_eq_some_iff.mp hmin
  obtain ⟨rq₂, hmax, -⟩ := Option.map_eq_some_iff.mp hmax
  have hlt := RqClamps.lt_of_incId hmax
  rwa [uclampEffGet_setClamp] at hlt

/-- Any allowed maximum can be asked for, and must then have a bucket. -/
theorem ClampState.bucketField_lt [Nonempty Tid] {v : ℕ} (hv : v ≤ schedCapacityScale)
    (h : ∀ ops r, Run Steps (initUclamp Tid n m c₀) ops r →
      ∀ op, r.Possible op → ∃ r', r.step op = some r') : bucketField n v < n := by
  obtain ⟨p⟩ := ‹Nonempty Tid›
  let attr : ClampAttr := ⟨some 0, some v⟩
  let r : ClampState Tid n m := ((initUclamp Tid n m c₀).modTask p fun t =>
    { t with uclampEnabled := true }).setschedulerUclamp p attr false
  have hvalid : (initUclamp Tid n m c₀).uclampValidate p attr = true := by
    simp [uclampValidate, attr, hv]
  have hstep : (initUclamp Tid n m c₀).step (.setscheduler p attr false true) = some r := by
    simp only [step]
    rw [if_neg (by simp [hvalid])]
    rfl
  have hself : (r.task p).queued = false ∧ (r.task p).uclampEnabled = true := by
    simp [r, setschedulerUclamp, initUclamp]
  obtain ⟨r', henqueue⟩ := h _ _ (Run.single hstep) (.enqueueTask p c₀) hself.1
  rw [step, if_neg (by simp [hself.1])] at henqueue
  have hlt := lt_of_enqueueTask henqueue hself.2
  have hreq : r.uclampTgRestrict p .max =
      (resetClamp (n := n) false .max
        (((initUclamp Tid n m c₀).task p).uclampReq .max)).set n v true := by
    simp [uclampTgRestrict, r, setschedulerUclamp, attr, initUclamp]
  have heff : (r.uclampEffGet p .max).bucketId = bucketField n v := by
    rw [uclampEffGet, hreq, if_neg]
    · rfl
    · exact not_lt.mpr hv
  exact heff ▸ hlt

/-- No operation in any run stores outside the array of buckets, if and only if the largest
clamp has a bucket. -/
theorem buckets_in_range_iff [Nonempty Tid] (hdelta : 0 < uclampBucketDelta n) :
    (∀ ops r, Run ClampState.Steps (initUclamp Tid n m c₀) ops r →
      ∀ op, r.Possible op → ∃ r', r.step op = some r') ↔
      uclampBucketId n schedCapacityScale < n := by
  rw [← bucketsFit_iff hdelta]
  constructor
  · intro h
    by_contra hfit
    -- the clamp that is the end of the last bucket
    have hend : uclampBucketId n (n * uclampBucketDelta n) = n := Nat.mul_div_cancel n hdelta
    have hlt := ClampState.bucketField_lt (not_lt.mp hfit) h
    rw [bucketField_eq hend.le, hend] at hlt
    exact lt_irrefl n hlt
  · intro hfit ops r hrun op hpossible
    obtain ⟨r', hstep, -⟩ := (run_inRange hfit hrun).step hfit hpossible
    exact ⟨r', hstep⟩

/-- Five buckets are enough, twenty are not. -/
theorem buckets_in_range_five_twenty :
    (∀ ops r, Run ClampState.Steps (initUclamp Unit 5 1 0) ops r →
      ∀ op, r.Possible op → ∃ r', r.step op = some r') ∧
    ¬ ∀ ops r, Run ClampState.Steps (initUclamp Unit 20 1 0) ops r →
      ∀ op, r.Possible op → ∃ r', r.step op = some r' :=
  ⟨(buckets_in_range_iff (by decide)).mpr (by decide),
    fun h => absurd ((buckets_in_range_iff (by decide)).mp h) (by decide)⟩

end LinuxOs2022.Scheduler
