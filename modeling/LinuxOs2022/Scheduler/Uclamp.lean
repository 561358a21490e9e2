import LinuxOs2022.Library.Runs
import Mathlib

/-!
# Utilization clamps

Each task asks for a minimum and a maximum of the utilization that frequency selection
assumes. A run queue counts its tasks in buckets of clamp values, and its own two clamps
follow the topmost bucket in use. `uclamp_rq_inc` and `uclamp_rq_dec` run in `enqueue_task`
and `dequeue_task`; `uclamp_update_active` changes the clamp of a task that stays queued.

## Implementation notes

All updates hold the lock of the run queue, so each is one step. The number of buckets is a
configuration option. A store outside the array of buckets has no result. The class of a task
matters only by its `uclamp_enabled`; the clamps of its group, which `uclamp_tg_restrict`
reads for tasks outside the root group, are set by others.
-/

namespace LinuxOs2022.Scheduler

/-- `SCHED_CAPACITY_SCALE`. -/
def schedCapacityScale : ℕ := 1024

/-- `DIV_ROUND_CLOSEST(x, divisor)` for numbers that are not negative. -/
def divRoundClosest (x divisor : ℕ) : ℕ := (x + divisor / 2) / divisor

/-- `UCLAMP_BUCKET_DELTA`, for `n` buckets. -/
def uclampBucketDelta (n : ℕ) : ℕ := divRoundClosest schedCapacityScale n

/-- `uclamp_bucket_id(clamp_value)`. -/
def uclampBucketId (n clampValue : ℕ) : ℕ := clampValue / uclampBucketDelta n

/-- `bits_per(n)`. -/
def bitsPer (n : ℕ) : ℕ := Nat.log2 n + 1

/-- `uclamp_bucket_id(clamp_value)` in the field `bucket_id`, of `bits_per(UCLAMP_BUCKETS)`
bits. -/
def bucketField (n clampValue : ℕ) : ℕ := uclampBucketId n clampValue % 2 ^ bitsPer n

/-- `enum uclamp_id`. -/
inductive UclampId
  | min
  | max
  deriving DecidableEq

instance : Fintype UclampId := ⟨{.min, .max}, fun id => by cases id <;> simp⟩

/-- `uclamp_none(clamp_id)`. -/
def uclampNone : UclampId → ℕ
  | .min => 0
  | .max => schedCapacityScale

/-- `struct uclamp_se`. -/
structure UclampSe where
  value : ℕ
  bucketId : ℕ
  active : Bool
  userDefined : Bool
  deriving DecidableEq

/-- `uclamp_se_set(uc_se, value, user_defined)`. -/
def UclampSe.set (n : ℕ) (s : UclampSe) (value : ℕ) (userDefined : Bool) : UclampSe :=
  { s with value := value, bucketId := bucketField n value, userDefined := userDefined }

/-- `struct uclamp_bucket`. -/
structure UclampBucket where
  tasks : ℕ
  value : ℕ
  deriving DecidableEq

/-- `struct uclamp_rq`. -/
structure UclampRq (n : ℕ) where
  value : ℕ
  bucket : Fin n → UclampBucket

/-- The clamps of a run queue, with the number of its warnings. -/
structure RqClamps (n : ℕ) where
  uclamp : UclampId → UclampRq n
  /-- `rq->uclamp_flags & UCLAMP_FLAG_IDLE`. -/
  flagIdle : Bool
  warnings : ℕ

namespace RqClamps

variable {n : ℕ} (rq : RqClamps n) (id : UclampId)

/-- A store to `rq->uclamp[clamp_id].value`. -/
def setValue (value : ℕ) : RqClamps n :=
  { rq with uclamp := Function.update rq.uclamp id { rq.uclamp id with value := value } }

/-- A store to `rq->uclamp[clamp_id].bucket[i]`. -/
def setBucket (i : Fin n) (b : UclampBucket) : RqClamps n :=
  { rq with
    uclamp := Function.update rq.uclamp id
      { rq.uclamp id with bucket := Function.update (rq.uclamp id).bucket i b } }

/-- `SCHED_WARN_ON(cond)`. -/
def warnOn (cond : Bool) : RqClamps n :=
  { rq with warnings := if cond then rq.warnings + 1 else rq.warnings }

/-- `uclamp_idle_value(rq, clamp_id, clamp_value)`. -/
def idleValue (clampValue : ℕ) : RqClamps n × ℕ :=
  match id with
  | .max => ({ rq with flagIdle := true }, clampValue)
  | .min => (rq, uclampNone .min)

/-- `uclamp_idle_reset(rq, clamp_id, clamp_value)`. -/
def idleReset (clampValue : ℕ) : RqClamps n :=
  if rq.flagIdle then rq.setValue id clampValue else rq

/-- The loop of `uclamp_rq_max_value` over the buckets below `k`, from the top. -/
def topmost (bucket : Fin n → UclampBucket) : (k : ℕ) → k ≤ n → Option ℕ
  | 0, _ => none
  | k + 1, h =>
      if (bucket ⟨k, h⟩).tasks = 0 then topmost bucket k (Nat.le_of_succ_le h)
      else some (bucket ⟨k, h⟩).value

/-- `uclamp_rq_max_value(rq, clamp_id, clamp_value)`. -/
def maxValue (clampValue : ℕ) : RqClamps n × ℕ :=
  match topmost (rq.uclamp id).bucket n le_rfl with
  | some v => (rq, v)
  | none => rq.idleValue id clampValue

/-- `uclamp_rq_inc_id(rq, p, clamp_id)` for the effective clamp of `p`. -/
def incId (se : UclampSe) : Option (RqClamps n) :=
  if h : se.bucketId < n then
    let i : Fin n := ⟨se.bucketId, h⟩
    let tasks := ((rq.uclamp id).bucket i).tasks + 1
    let value := ((rq.uclamp id).bucket i).value
    let rq₁ := (rq.setBucket id i ⟨tasks, value⟩).idleReset id se.value
    let rq₂ := rq₁.setBucket id i
      ⟨tasks, if tasks = 1 ∨ value < se.value then se.value else value⟩
    some (if (rq₂.uclamp id).value < se.value then rq₂.setValue id se.value else rq₂)
  else none

/-- `uclamp_rq_dec_id(rq, p, clamp_id)` for the clamp of `p`. -/
def decId (se : UclampSe) : Option (RqClamps n) :=
  if h : se.bucketId < n then
    let i : Fin n := ⟨se.bucketId, h⟩
    let tasks := ((rq.uclamp id).bucket i).tasks
    let value := ((rq.uclamp id).bucket i).value
    let rq₁ := (rq.warnOn (tasks == 0)).setBucket id i ⟨tasks - 1, value⟩
    if tasks - 1 ≠ 0 then some rq₁
    else
      let rqClamp := (rq₁.uclamp id).value
      let rq₂ := rq₁.warnOn (decide (rqClamp < value))
      if rqClamp ≤ value then
        let (rq₃, bktClamp) := rq₂.maxValue id se.value
        some (rq₃.setValue id bktClamp)
      else some rq₂
  else none

end RqClamps

/-- What a task has to do with clamps. -/
structure ClampTask (m : ℕ) where
  /-- The clamps that are asked for. -/
  uclampReq : UclampId → UclampSe
  /-- The clamps in effect when the task was last counted. -/
  uclamp : UclampId → UclampSe
  /-- `p->sched_class->uclamp_enabled`. -/
  uclampEnabled : Bool
  schedResetOnFork : Bool
  /-- The clamps of the group, for a task outside the root group and autogroups. -/
  group : Option (UclampId → UclampSe)
  cpu : Fin m
  queued : Bool

/-- The clamps of a machine with `m` CPUs. -/
structure ClampState (Tid : Type) (n m : ℕ) where
  task : Tid → ClampTask m
  rq : Fin m → RqClamps n
  uclampDefault : UclampId → UclampSe
  sysctlUtilMin : ℕ
  sysctlUtilMax : ℕ

/-- The clamps of `struct sched_attr`, where its flags name them. -/
structure ClampAttr where
  utilMin : Option ℕ
  utilMax : Option ℕ
  deriving DecidableEq

/-- What happens to the clamps. -/
inductive ClampOp (Tid : Type) (m : ℕ)
  | enqueueTask (p : Tid) (c : Fin m)
  | dequeueTask (p : Tid)
  | updateActive (p : Tid) (id : UclampId)
  /-- `__sched_setscheduler`, for a task that is or is not a real-time one then. -/
  | setscheduler (p : Tid) (attr : ClampAttr) (rtTask enabled : Bool)
  /-- `rt_mutex_setprio`. -/
  | setprio (p : Tid) (enabled : Bool)
  | sysctl (utilMin utilMax : ℕ)
  | fork (p child : Tid) (enabled : Bool)
  | setResetOnFork (p : Tid) (b : Bool)
  | setGroup (p : Tid) (group : Option (UclampId → UclampSe))
  deriving DecidableEq

namespace ClampState

variable {Tid : Type} [DecidableEq Tid] {n m : ℕ} (r : ClampState Tid n m)

/-- Apply `f` to the record of task `p`. -/
def modTask (p : Tid) (f : ClampTask m → ClampTask m) : ClampState Tid n m :=
  { r with task := Function.update r.task p (f (r.task p)) }

/-- Replace the clamps of a run queue. -/
def setRq (c : Fin m) (rq : RqClamps n) : ClampState Tid n m :=
  { r with rq := Function.update r.rq c rq }

/-- `uclamp_tg_restrict(p, clamp_id)`. -/
def uclampTgRestrict (p : Tid) (id : UclampId) : UclampSe :=
  let ucReq := (r.task p).uclampReq id
  match (r.task p).group with
  | none => ucReq
  | some group =>
      if (group id).value < ucReq.value ∨ ucReq.userDefined = false then group id else ucReq

/-- `uclamp_eff_get(p, clamp_id)`. -/
def uclampEffGet (p : Tid) (id : UclampId) : UclampSe :=
  let ucReq := r.uclampTgRestrict p id
  if (r.uclampDefault id).value < ucReq.value then r.uclampDefault id else ucReq

/-- Store the clamp of a task that is counted now. -/
def setClamp (p : Tid) (id : UclampId) (se : UclampSe) : ClampState Tid n m :=
  r.modTask p fun t => { t with uclamp := Function.update t.uclamp id se }

/-- `uclamp_rq_inc_id(rq, p, clamp_id)`. -/
def uclampRqIncId (p : Tid) (c : Fin m) (id : UclampId) : Option (ClampState Tid n m) :=
  let se := r.uclampEffGet p id
  ((r.rq c).incId id se).map fun rq => (r.setRq c rq).setClamp p id { se with active := true }

/-- `uclamp_rq_dec_id(rq, p, clamp_id)`. -/
def uclampRqDecId (p : Tid) (c : Fin m) (id : UclampId) : Option (ClampState Tid n m) :=
  let se := (r.task p).uclamp id
  ((r.rq c).decId id se).map fun rq => (r.setRq c rq).setClamp p id { se with active := false }

/-- `uclamp_rq_inc(rq, p)`. -/
def uclampRqInc (p : Tid) (c : Fin m) : Option (ClampState Tid n m) :=
  if (r.task p).uclampEnabled then do
    let r₁ ← r.uclampRqIncId p c .min
    let r₂ ← r₁.uclampRqIncId p c .max
    return r₂.setRq c { r₂.rq c with flagIdle := false }
  else some r

/-- `uclamp_rq_dec(rq, p)`. -/
def uclampRqDec (p : Tid) (c : Fin m) : Option (ClampState Tid n m) :=
  if (r.task p).uclampEnabled then do
    let r₁ ← r.uclampRqDecId p c .min
    r₁.uclampRqDecId p c .max
  else some r

/-- `enqueue_task(rq, p, flags)` on the run queue of `c`. -/
def enqueueTask (p : Tid) (c : Fin m) : Option (ClampState Tid n m) :=
  (r.uclampRqInc p c).map fun r' => r'.modTask p fun t => { t with cpu := c, queued := true }

/-- `dequeue_task(rq, p, flags)`. -/
def dequeueTask (p : Tid) : Option (ClampState Tid n m) :=
  (r.uclampRqDec p (r.task p).cpu).map fun r' => r'.modTask p fun t => { t with queued := false }

/-- `uclamp_update_active(p, clamp_id)`. -/
def uclampUpdateActive (p : Tid) (id : UclampId) : Option (ClampState Tid n m) :=
  let c := (r.task p).cpu
  if ((r.task p).uclamp id).active then do
    let r₁ ← r.uclampRqDecId p c id
    r₁.uclampRqIncId p c id
  else some r

/-- `uclamp_validate(p, attr)` succeeds. -/
def uclampValidate (p : Tid) (attr : ClampAttr) : Bool :=
  let lowerBound := attr.utilMin.getD ((r.task p).uclampReq .min).value
  let upperBound := attr.utilMax.getD ((r.task p).uclampReq .max).value
  decide (lowerBound ≤ upperBound) && decide (upperBound ≤ schedCapacityScale)

/-- The clamp that `__setscheduler_uclamp` gives a task first. -/
def resetClamp (rtTask : Bool) (id : UclampId) (se : UclampSe) : UclampSe :=
  if se.userDefined then se
  else se.set n (if rtTask && id == .min then uclampNone .max else uclampNone id) false

/-- `__setscheduler_uclamp(p, attr)`. -/
def setschedulerUclamp (p : Tid) (attr : ClampAttr) (rtTask : Bool) : ClampState Tid n m :=
  r.modTask p fun t =>
    let asked (id : UclampId) : Option ℕ :=
      match id with
      | .min => attr.utilMin
      | .max => attr.utilMax
    { t with
      uclampReq := fun id =>
        let se := resetClamp (n := n) rtTask id (t.uclampReq id)
        match asked id with
        | some v => se.set n v true
        | none => se }

/-- A change of a task that takes it off its run queue for the time. -/
def requeue (p : Tid) (f : ClampState Tid n m → ClampState Tid n m) :
    Option (ClampState Tid n m) :=
  if (r.task p).queued then do
    let r₁ ← r.dequeueTask p
    (f r₁).enqueueTask p (r.task p).cpu
  else some (f r)

/-- `sysctl_sched_uclamp_handler` for a write of the two values. -/
def sysctlHandler (utilMin utilMax : ℕ) : ClampState Tid n m :=
  if utilMax < utilMin ∨ schedCapacityScale < utilMax then r
  else
    let setMin := if r.sysctlUtilMin = utilMin then r.uclampDefault .min
      else (r.uclampDefault .min).set n utilMin false
    let setMax := if r.sysctlUtilMax = utilMax then r.uclampDefault .max
      else (r.uclampDefault .max).set n utilMax false
    { r with
      uclampDefault := fun
        | .min => setMin
        | .max => setMax
      sysctlUtilMin := utilMin
      sysctlUtilMax := utilMax }

/-- The copy of the parent's record and `uclamp_fork(p)`. -/
def uclampFork (p child : Tid) (enabled : Bool) : ClampState Tid n m :=
  let parent := r.task p
  r.modTask child fun _ =>
    { parent with
      uclamp := fun id => { parent.uclamp id with active := false }
      uclampReq := fun id =>
        if parent.schedResetOnFork then (parent.uclampReq id).set n (uclampNone id) false
        else parent.uclampReq id
      uclampEnabled := enabled
      schedResetOnFork := false
      queued := false }

/-- A clamp that `uclamp_se_set` has made from an allowed value. -/
def validSe (n : ℕ) (se : UclampSe) : Bool :=
  se.bucketId == bucketField n se.value && decide (se.value ≤ schedCapacityScale)

/-- One step; `none` when it cannot happen, or would leave the array of buckets. -/
def step : ClampOp Tid m → Option (ClampState Tid n m)
  | .enqueueTask p c => if (r.task p).queued then none else r.enqueueTask p c
  | .dequeueTask p => if (r.task p).queued then r.dequeueTask p else none
  | .updateActive p id => r.uclampUpdateActive p id
  | .setscheduler p attr rtTask enabled =>
      if (attr.utilMin.isSome || attr.utilMax.isSome) && !r.uclampValidate p attr then some r
      else r.requeue p fun r' =>
        (r'.modTask p fun t => { t with uclampEnabled := enabled }).setschedulerUclamp p attr
          rtTask
  | .setprio p enabled =>
      r.requeue p fun r' => r'.modTask p fun t => { t with uclampEnabled := enabled }
  | .sysctl utilMin utilMax => some (r.sysctlHandler utilMin utilMax)
  | .fork p child enabled =>
      if (r.task child).queued then none else some (r.uclampFork p child enabled)
  | .setResetOnFork p b => some (r.modTask p fun t => { t with schedResetOnFork := b })
  | .setGroup p group =>
      if group.all fun g => validSe n (g .min) && validSe n (g .max) then
        some (r.modTask p fun t => { t with group := group })
      else none

end ClampState

/-- The clamps after `init_uclamp`. -/
def initUclamp (Tid : Type) (n m : ℕ) (c₀ : Fin m) : ClampState Tid n m where
  task := fun _ =>
    { uclampReq := fun id => UclampSe.set n ⟨0, 0, false, false⟩ (uclampNone id) false
      uclamp := fun _ => ⟨0, 0, false, false⟩
      uclampEnabled := true
      schedResetOnFork := false
      group := none
      cpu := c₀
      queued := false }
  rq := fun _ => ⟨fun _ => ⟨0, fun _ => ⟨0, 0⟩⟩, false, 0⟩
  uclampDefault := fun _ => UclampSe.set n ⟨0, 0, false, false⟩ (uclampNone .max) false
  sysctlUtilMin := schedCapacityScale
  sysctlUtilMax := schedCapacityScale

end LinuxOs2022.Scheduler
