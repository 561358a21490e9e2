import LinuxOs2022.Scheduler.UclampRange

/-!
# Updating the only clamp of a run queue

`uclamp_update_active` takes a task out of its bucket and puts it back. When the task is the
only one, the removal sets `UCLAMP_FLAG_IDLE`, which `uclamp_rq_inc` clears and
`uclamp_update_active` does not. The next task to come is then taken for the first.
-/

namespace LinuxOs2022.Scheduler

open Library

variable {Tid : Type} [DecidableEq Tid] {n m : ℕ} {r r' : ClampState Tid n m} {c c₀ : Fin m}
  {p q : Tid} {id : UclampId} {op : ClampOp Tid m}

namespace RqClamps

variable {rq rq' : RqClamps n} {se : UclampSe} {i : Fin n}

/-- An idle run queue forgets its clamp. -/
theorem value_incremented_of_idle (hidle : rq.flagIdle = true) (i : Fin n) (v : ℕ) :
    (rq.incremented id i v).value = v := by
  unfold incremented
  rw [if_pos hidle, max_self]

theorem incremented_congr (hidle : rq'.flagIdle = rq.flagIdle)
    (huclamp : rq'.uclamp id = rq.uclamp id) (i : Fin n) (v : ℕ) :
    rq'.incremented id i v = rq.incremented id i v := by
  unfold incremented tasks best
  rw [hidle, huclamp]

/-- The last task of a bucket leaves a run queue whose clamp is too small. -/
theorem decId_warns (hse : se.bucketId < n) (hone : rq.tasks id ⟨se.bucketId, hse⟩ = 1)
    (hlt : (rq.uclamp id).value < rq.best id ⟨se.bucketId, hse⟩) :
    ∃ rq', rq.decId id se = some rq' ∧ rq.warnings < rq'.warnings := by
  unfold tasks best at *
  rw [decId, dif_pos hse]
  simp only [hone]
  rw [if_neg (by simp), if_pos]
  · refine ⟨_, rfl, ?_⟩
    rw [setValue_warnings, (maxValue_frame _ _ _).2]
    simp [warnOn, setBucket, hlt]
  · simpa [setBucket] using hlt.le

end RqClamps

/-- What `enqueue_task` stores, whether or not the run queue is marked idle. -/
theorem ClampState.enqueueTask_eq (hasked : Asked r) (hfit : BucketsFit n)
    (hen : (r.task q).uclampEnabled = true) :
    ∃ r', r.enqueueTask q c = some r' ∧ (∀ s, s ≠ q → r'.task s = r.task s) ∧
      ∀ id, ∃ i : Fin n, (r.uclampEffGet q id).bucketId = i ∧
        (r'.rq c).uclamp id = (r.rq c).incremented id i (r.uclampEffGet q id).value := by
  have hmin := (hasked.uclampEffGet q .min).lt hfit
  have hmax := (hasked.uclampEffGet q .max).lt hfit
  let rq₁ := (r.rq c).setUclamp .min
    ((r.rq c).incremented .min ⟨_, hmin⟩ (r.uclampEffGet q .min).value)
  let r₁ := (r.setRq c rq₁).setClamp q .min { r.uclampEffGet q .min with active := true }
  have hinc₁ : r.uclampRqIncId q c .min = some r₁ := by
    rw [uclampRqIncId, RqClamps.incId_eq hmin]
    rfl
  have heff : r₁.uclampEffGet q .max = r.uclampEffGet q .max := uclampEffGet_setClamp ..
  have hrq : r₁.rq c = rq₁ := Function.update_self ..
  let rq₂ := rq₁.setUclamp .max (rq₁.incremented .max ⟨_, hmax⟩ (r.uclampEffGet q .max).value)
  let r₂ := (r₁.setRq c rq₂).setClamp q .max { r.uclampEffGet q .max with active := true }
  have hinc₂ : r₁.uclampRqIncId q c .max = some r₂ := by
    rw [uclampRqIncId, heff, hrq, RqClamps.incId_eq hmax]
    rfl
  have hother : ∀ s, s ≠ q → r₂.task s = r.task s := by
    intro s hs
    simp [r₂, r₁, setClamp, hs]
  let r₃ := r₂.setRq c { r₂.rq c with flagIdle := false }
  refine ⟨r₃.modTask q fun t => { t with cpu := c, queued := true }, ?_, fun s hs => ?_,
    fun id => ?_⟩
  · rw [enqueueTask, uclampRqInc, if_pos hen, hinc₁, Option.bind_eq_bind, Option.bind_some, hinc₂]
    rfl
  · rw [modTask_task, Function.update_of_ne hs]
    exact hother s hs
  · cases id with
    | min =>
        refine ⟨⟨_, hmin⟩, rfl, ?_⟩
        simp [r₃, r₂, rq₂, rq₁, RqClamps.setUclamp]
    | max =>
        refine ⟨⟨_, hmax⟩, rfl, ?_⟩
        have hcongr : rq₁.incremented .max ⟨_, hmax⟩ (r.uclampEffGet q .max).value =
            (r.rq c).incremented .max ⟨_, hmax⟩ (r.uclampEffGet q .max).value := by
          apply RqClamps.incremented_congr
          · rfl
          · simp [rq₁, RqClamps.setUclamp]
        rw [← hcongr]
        simp [r₃, r₂, rq₂, RqClamps.setUclamp]

/-- A task leaves that is the last of its bucket, while the clamp of the run queue is lower. -/
theorem ClampState.dequeueTask_warns {i : Fin n} (hp : (r.task p).CountedOn c)
    (hmin : ((r.task p).uclamp .min).bucketId < n) (hmax : ((r.task p).uclamp .max).bucketId = i)
    (hone : (r.rq c).tasks .max i = 1)
    (hlt : ((r.rq c).uclamp .max).value < (r.rq c).best .max i) :
    ∃ r', r.dequeueTask p = some r' ∧ 0 < (r'.rq c).warnings := by
  obtain ⟨rq₁, hdec₁, hother, -⟩ := (r.rq c).decId_frame .min hmin
  let r₁ := (r.setRq c rq₁).setClamp p .min { (r.task p).uclamp .min with active := false }
  have hstep₁ : r.uclampRqDecId p c .min = some r₁ := by
    rw [uclampRqDecId, hdec₁]
    rfl
  have huclamp : rq₁.uclamp .max = (r.rq c).uclamp .max := hother .max (by simp)
  have hse : ((r.task p).uclamp .max).bucketId < n := hmax ▸ i.isLt
  have hi : (⟨_, hse⟩ : Fin n) = i := Fin.ext hmax
  obtain ⟨rq₂, hdec₂, hwarn⟩ : ∃ rq₂, rq₁.decId .max ((r.task p).uclamp .max) = some rq₂ ∧
      rq₁.warnings < rq₂.warnings := by
    apply RqClamps.decId_warns hse
    · unfold RqClamps.tasks at hone ⊢
      rw [hi, huclamp, hone]
    · unfold RqClamps.best at hlt ⊢
      rw [hi, huclamp]
      exact hlt
  let r₂ := (r₁.setRq c rq₂).setClamp p .max { (r.task p).uclamp .max with active := false }
  have hstep₂ : r₁.uclampRqDecId p c .max = some r₂ := by
    have hclamp : (r₁.task p).uclamp .max = (r.task p).uclamp .max := by
      simp [r₁, setClamp_uclamp]
    have hrq : r₁.rq c = rq₁ := Function.update_self ..
    rw [uclampRqDecId, hclamp, hrq, hdec₂]
    rfl
  refine ⟨r₂.modTask p fun t => { t with queued := false }, ?_, ?_⟩
  · rw [dequeueTask, uclampRqDec, if_pos hp.2.1, hp.2.2, hstep₁, Option.bind_eq_bind,
      Option.bind_some, hstep₂]
    rfl
  · have hrq : r₂.rq c = rq₂ := Function.update_self ..
    rw [modTask_rq, hrq]
    exact Nat.zero_lt_of_lt hwarn

omit [DecidableEq Tid] in
/-- The bucket of a task that is alone on its run queue. -/
theorem ClampsFor.tasks_eq_one {P : UclampId → Fin m → Tid → Prop} (h : ClampsFor r P)
    (hp : P id c p) (halone : ∀ q, P id c q → q = p) {i : Fin n}
    (hi : uclampBucketId n (r.clampOf id p) = i) : (r.rq c).tasks id i = 1 := by
  obtain ⟨T, hT, hcount⟩ := (h.aggregated id c).buckets.tally i
  have hsingle : T = {p} := by
    ext q
    rw [hT, Finset.mem_singleton]
    constructor
    · exact fun hq => halone q hq.1
    · rintro rfl
      exact ⟨hp, hi⟩
  rw [hcount, hsingle, Finset.card_singleton]
  rfl

attribute [local instance] twoTasks_neZero oneCpu_neZero

/-- A queued task that asks for a maximum of 900, and another one that asks for 250. -/
def aloneWithMaximum : List (ClampOp (Fin 2) 1) :=
  [.setscheduler 0 ⟨none, some 900⟩ false true, .enqueueTask 0 0,
    .setscheduler 1 ⟨none, some 250⟩ false true]

theorem aloneWithMaximum_run : Run ClampState.SafeSteps (initUclamp (Fin 2) 5 1 0)
    aloneWithMaximum (lastState ClampState.safeStep (initUclamp (Fin 2) 5 1 0) aloneWithMaximum) :=
  lastState_run ClampState.safeSteps_of_safeStep (by decide +kernel)

end LinuxOs2022.Scheduler
