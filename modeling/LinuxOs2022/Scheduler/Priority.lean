import LinuxOs2022.Library.Runs
import Mathlib

/-!
# Priorities and policies

A task has a policy with its parameters, the priority that follows from them, and the
priority in effect, which priority inheritance may raise. `__sched_setscheduler` checks a
request before it takes the locks, and carries it out under them; between the two anything may
happen to the task.

## Implementation notes

The part under the locks is one step, and so is everything before them; `recheck` goes back
to the first. What deadline bandwidth, security modules, group scheduling and the credentials
and limits of the caller say is part of a step. The position in a run queue is left out. A new
task is a copy of its parent until `sched_fork` has run.
-/

namespace LinuxOs2022.Scheduler

/-- The scheduling policies. -/
inductive Policy
  | normal
  | fifo
  | rr
  | batch
  | idle
  | deadline
  deriving DecidableEq

namespace Policy

/-- `fair_policy(policy)`. -/
def fair : Policy → Bool
  | normal => true
  | batch => true
  | _ => false

/-- `rt_policy(policy)`. -/
def rt : Policy → Bool
  | fifo => true
  | rr => true
  | _ => false

/-- `dl_policy(policy)`. -/
def dl (policy : Policy) : Bool := policy == deadline

/-- The policy of a number for which `valid_policy` holds. -/
def ofInt? : ℤ → Option Policy
  | 0 => some normal
  | 1 => some fifo
  | 2 => some rr
  | 3 => some batch
  | 5 => some idle
  | 6 => some deadline
  | _ => none

end Policy

/-- `SETPARAM_POLICY`. -/
def setparamPolicy : ℤ := -1

/-- `MAX_DL_PRIO`. -/
def maxDlPrio : ℤ := 0

/-- `MAX_RT_PRIO`. -/
def maxRtPrio : ℤ := 100

/-- `MAX_USER_RT_PRIO`. -/
def maxUserRtPrio : ℤ := 100

/-- `MAX_PRIO`. -/
def maxPrio : ℤ := 140

/-- `MIN_NICE`. -/
def minNice : ℤ := -20

/-- `MAX_NICE`. -/
def maxNice : ℤ := 19

/-- `NICE_WIDTH`. -/
def niceWidth : ℤ := maxNice - minNice + 1

/-- `NICE_TO_PRIO(nice)`. -/
def niceToPrio (nice : ℤ) : ℤ := nice + maxRtPrio + niceWidth / 2

/-- `PRIO_TO_NICE(prio)`. -/
def prioToNice (prio : ℤ) : ℤ := prio - maxRtPrio - niceWidth / 2

/-- `nice_to_rlimit(nice)`. -/
def niceToRlimit (nice : ℤ) : ℤ := maxNice - nice + 1

/-- `dl_prio(prio)`. -/
def dlPrio (prio : ℤ) : Bool := decide (prio < maxDlPrio)

/-- `rt_prio(prio)`. -/
def rtPrio (prio : ℤ) : Bool := decide (prio < maxRtPrio)

/-- The scheduling classes. -/
inductive SchedClass
  | stop
  | dl
  | rt
  | fair
  | idle
  deriving DecidableEq

/-- The class that a priority asks for. -/
def classOf (prio : ℤ) : SchedClass :=
  if dlPrio prio then .dl else if rtPrio prio then .rt else .fair

/-- `__rt_effective_prio(pi_task, prio)`, for the priority of the donor. -/
def rtEffectivePrio (piPrio : Option ℤ) (prio : ℤ) : ℤ :=
  match piPrio with
  | some q => min prio q
  | none => prio

/-- Whether a record is in use. -/
inductive LifeStage
  | unborn
  /-- Between `dup_task_struct` and `sched_fork`. -/
  | copied
  | live
  deriving DecidableEq

/-- What a task has to do with priorities. -/
structure PrioTask (Tid : Type) where
  stage : LifeStage
  policy : Policy
  staticPrio : ℤ
  rtPriority : ℕ
  normalPrio : ℤ
  prio : ℤ
  schedClass : SchedClass
  schedResetOnFork : Bool
  piTopTask : Option Tid
  /-- `p == rq->idle`. -/
  isIdle : Bool
  /-- `p == rq->stop`. -/
  isStop : Bool

/-- `struct sched_attr`. -/
structure SchedAttr where
  schedPolicy : ℤ
  schedNice : ℤ
  schedPriority : ℕ
  flagResetOnFork : Bool
  flagKeepPolicy : Bool
  flagKeepParams : Bool
  /-- `SCHED_FLAG_UTIL_CLAMP`. -/
  flagUtilClamp : Bool
  flagSugov : Bool
  /-- A flag outside `SCHED_FLAG_ALL | SCHED_FLAG_SUGOV`. -/
  flagUnknown : Bool
  deriving DecidableEq

/-- The errors of `__sched_setscheduler` and `sys_nice`, by their names. -/
inductive PrioErrno
  | EINVAL
  | EPERM
  | EBUSY
  | EAGAIN
  /-- An error of a security module, or of `uclamp_validate`. -/
  | other (e : ℕ)
  deriving DecidableEq

/-- What the checks read elsewhere. -/
structure Facts where
  /-- `p->mm` is not null. -/
  hasMm : Bool
  /-- `capable(CAP_SYS_NICE)`. -/
  capSysNice : Bool
  /-- `check_same_owner(p)`. -/
  sameOwner : Bool
  /-- `task_rlimit(p, RLIMIT_NICE)`. -/
  rlimNice : ℕ
  /-- `task_rlimit(p, RLIMIT_RTPRIO)`. -/
  rlimRtprio : ℕ
  /-- `__checkparam_dl(attr)`. -/
  checkparamDl : Bool
  /-- The error of `security_task_setscheduler` or `security_task_setnice`. -/
  security : Option ℕ
  /-- The error of `uclamp_validate`. -/
  uclamp : Option ℕ
  deriving DecidableEq

/-- What the part under the locks reads elsewhere. -/
structure LockedFacts where
  /-- `dl_param_changed(p, attr)`. -/
  dlParamChanged : Bool
  /-- The group of `p` has no real-time runtime. -/
  rtGroupDenied : Bool
  /-- The root domain does not allow `SCHED_DEADLINE`. -/
  dlDenied : Bool
  /-- `sched_dl_overflow(p, policy, attr)`. -/
  dlOverflow : Bool
  deriving DecidableEq

namespace PrioTask

variable {Tid : Type} (t : PrioTask Tid)

/-- `task_nice(p)`. -/
def taskNice : ℤ := prioToNice t.staticPrio

/-- `normal_prio(p)`, with `__normal_prio`. -/
def computeNormalPrio : ℤ :=
  if t.policy.dl then maxDlPrio - 1
  else if t.policy.rt then maxRtPrio - 1 - t.rtPriority
  else t.staticPrio

/-- `effective_prio(p)`, with the record it leaves. -/
def effectivePrio : PrioTask Tid × ℤ :=
  let t' := { t with normalPrio := t.computeNormalPrio }
  if rtPrio t.prio then (t', t.prio) else (t', t'.normalPrio)

/-- `set_user_nice(p, nice)` under the locks. -/
def setUserNice (nice : ℤ) : PrioTask Tid :=
  let t₁ := { t with staticPrio := niceToPrio nice }
  if t.policy.dl || t.policy.rt then t₁
  else
    let (t₂, prio) := t₁.effectivePrio
    { t₂ with prio := prio }

/-- `__setscheduler_params(p, attr)`; only `SETPARAM_POLICY` is not a policy here. -/
def setschedulerParams (attr : SchedAttr) : PrioTask Tid :=
  let policy := (Policy.ofInt? attr.schedPolicy).getD t.policy
  let t₁ := { t with
    policy := policy
    staticPrio := if policy.fair then niceToPrio attr.schedNice else t.staticPrio
    rtPriority := attr.schedPriority }
  { t₁ with normalPrio := t₁.computeNormalPrio }

/-- `__setscheduler(rq, p, attr, keep_boost)`, for the priority of the top waiter. -/
def setscheduler (attr : SchedAttr) (keepBoost : Bool) (topPrio : Option ℤ) : PrioTask Tid :=
  if attr.flagKeepParams then t
  else
    let t₁ := t.setschedulerParams attr
    let prio := t₁.computeNormalPrio
    let prio := if keepBoost then rtEffectivePrio topPrio prio else prio
    { t₁ with
      prio := prio
      schedClass := classOf prio }

/-- `rt_mutex_setprio(p, pi_task)`, for the priority of the donor. -/
def rtMutexSetprio [DecidableEq Tid] (piTask : Option Tid) (piPrio : Option ℤ) : PrioTask Tid :=
  let prio := rtEffectivePrio piPrio t.normalPrio
  if t.piTopTask = piTask ∧ prio = t.prio ∧ dlPrio prio = false then t
  else
    let t₁ := { t with piTopTask := piTask }
    if prio = t.prio ∧ dlPrio prio = false then t₁
    else if t.isIdle then t₁
    else
      { t₁ with
        prio := prio
        schedClass := classOf prio }

/-- The default policy of `sched_fork`, for a task that must not inherit a better one. -/
def defaultPolicy : PrioTask Tid :=
  if t.policy.dl || t.policy.rt then
    { t with
      policy := .normal
      staticPrio := niceToPrio 0
      rtPriority := 0 }
  else if prioToNice t.staticPrio < 0 then { t with staticPrio := niceToPrio 0 }
  else t

/-- The part of `sched_fork` for `sched_reset_on_fork`. -/
def revert : PrioTask Tid :=
  { t.defaultPolicy with
    normalPrio := t.defaultPolicy.staticPrio
    prio := t.defaultPolicy.staticPrio
    schedResetOnFork := false }

/-- The priority of a new task, whose parent has `parentPrio` as its normal priority now. -/
def inheritPrio (parentPrio : ℤ) : PrioTask Tid :=
  if t.schedResetOnFork then { t with prio := parentPrio }.revert else { t with prio := parentPrio }

/-- `sched_fork(clone_flags, p)`; `none` for `-EAGAIN`. -/
def schedFork (parentPrio : ℤ) : Option (PrioTask Tid) :=
  let t₁ := t.inheritPrio parentPrio
  if dlPrio t₁.prio then none
  else some { t₁ with schedClass := if rtPrio t₁.prio then .rt else .fair }

/-- `can_nice(p, nice)`. -/
def canNice (facts : Facts) (nice : ℤ) : Bool :=
  decide (niceToRlimit nice ≤ facts.rlimNice) || facts.capSysNice

/-- What `__sched_setscheduler` has found out before it takes the locks. -/
structure Checked where
  policy : Policy
  oldpolicy : Option Policy
  resetOnFork : Bool
  deriving DecidableEq

/-- The first lines after `recheck:`. -/
def readPolicy (attr : SchedAttr) (policy : ℤ) : Except PrioErrno Checked :=
  if policy < 0 then .ok ⟨t.policy, some t.policy, t.schedResetOnFork⟩
  else
    match Policy.ofInt? policy with
    | some policy => .ok ⟨policy, none, attr.flagResetOnFork⟩
    | none => .error .EINVAL

/-- The parameters fit the policy. -/
def checkParams (attr : SchedAttr) (facts : Facts) (policy : Policy) : Except PrioErrno Unit :=
  if attr.flagUnknown then .error .EINVAL
  else if (if facts.hasMm then maxUserRtPrio else maxRtPrio) - 1 < attr.schedPriority then
    .error .EINVAL
  else if policy.dl && !facts.checkparamDl || policy.rt != decide (attr.schedPriority ≠ 0) then
    .error .EINVAL
  else .ok ()

/-- What a caller without `CAP_SYS_NICE` may ask for. -/
def checkUnprivileged (attr : SchedAttr) (facts : Facts) (k : Checked) : Except PrioErrno Unit :=
  if k.policy.fair && decide (attr.schedNice < t.taskNice) && !canNice facts attr.schedNice then
    .error .EPERM
  else if k.policy.rt && k.policy != t.policy && facts.rlimRtprio == 0 then .error .EPERM
  else if k.policy.rt && decide (t.rtPriority < attr.schedPriority) &&
      decide (facts.rlimRtprio < attr.schedPriority) then .error .EPERM
  else if k.policy.dl then .error .EPERM
  else if t.policy == .idle && k.policy != .idle && !canNice facts t.taskNice then .error .EPERM
  else if !facts.sameOwner then .error .EPERM
  else if t.schedResetOnFork && !k.resetOnFork then .error .EPERM
  else .ok ()

/-- An error that is reported elsewhere. -/
def reported : Option ℕ → Except PrioErrno Unit
  | some e => .error (.other e)
  | none => .ok ()

/-- A check that is made under a condition. -/
def checkIf (cond : Bool) (x : Except PrioErrno Unit) : Except PrioErrno Unit :=
  if cond then x else .ok ()

/-- `__sched_setscheduler` from `recheck:` to the locks. -/
def check (attr : SchedAttr) (user : Bool) (facts : Facts) (policy : ℤ) :
    Except PrioErrno Checked := do
  let k ← t.readPolicy attr policy
  checkParams attr facts k.policy
  checkIf (user && !facts.capSysNice) (t.checkUnprivileged attr facts k)
  checkIf (user && attr.flagSugov) (.error .EINVAL)
  checkIf user (reported facts.security)
  checkIf attr.flagUtilClamp (reported facts.uclamp)
  return k

/-- How the part under the locks ends. -/
inductive Locked (Tid : Type)
  | done (t : PrioTask Tid)
  | failed (e : PrioErrno)
  | recheck

/-- Something is asked for that the task does not have. -/
def changes (attr : SchedAttr) (facts : LockedFacts) (policy : Policy) : Bool :=
  policy != t.policy || policy.fair && attr.schedNice != t.taskNice ||
    policy.rt && attr.schedPriority != t.rtPriority || policy.dl && facts.dlParamChanged ||
    attr.flagUtilClamp

/-- `__sched_setscheduler` under the locks. -/
def commit (attr : SchedAttr) (user pi : Bool) (facts : LockedFacts) (k : Checked)
    (topPrio : Option ℤ) : Locked Tid :=
  if t.isStop then .failed .EINVAL
  else if !t.changes attr facts k.policy then
    .done { t with schedResetOnFork := k.resetOnFork }
  else if user && k.policy.rt && facts.rtGroupDenied then .failed .EPERM
  else if user && k.policy.dl && !attr.flagSugov && facts.dlDenied then .failed .EPERM
  else if k.oldpolicy.isSome && k.oldpolicy != some t.policy then .recheck
  else if (k.policy.dl || dlPrio t.prio) && facts.dlOverflow then .failed .EBUSY
  else .done ({ t with schedResetOnFork := k.resetOnFork }.setscheduler attr pi topPrio)

end PrioTask

/-- A system call that is under way. -/
inductive Pending (Tid : Type)
  /-- `__sched_setscheduler`, about to check. -/
  | recheck (p : Tid) (attr : SchedAttr) (user pi : Bool) (policy : ℤ)
  /-- `__sched_setscheduler`, about to take the locks. -/
  | locking (p : Tid) (attr : SchedAttr) (user pi : Bool) (k : PrioTask.Checked)
  /-- `sys_nice`, about to call `set_user_nice`. -/
  | nice (nice : ℤ)

/-- The priorities of all tasks, and the calls that tasks have under way. -/
structure PrioState (Tid : Type) where
  task : Tid → PrioTask Tid
  call : Tid → Option (Pending Tid)

/-- What happens to the priorities. The first task of a call makes it. -/
inductive PrioOp (Tid : Type)
  | sysSchedSetattr (c p : Tid) (attr : SchedAttr)
  /-- `_sched_setscheduler`; `SETPARAM_POLICY` is the policy of `sched_setparam`. -/
  | schedSetscheduler (c p : Tid) (policy : ℤ) (resetOnFork : Bool) (priority : ℕ) (check : Bool)
  /-- `normalize_rt_tasks`, for one task. -/
  | normalizeRtTask (c p : Tid)
  | check (c : Tid) (facts : Facts)
  | commit (c : Tid) (facts : LockedFacts)
  | sysNice (c : Tid) (increment : ℤ) (facts : Facts)
  /-- `set_user_nice` finds that there is nothing to do, or has not found that. -/
  | niceCommit (c : Tid) (nothing : Bool)
  /-- A caller of `set_user_nice` outside of this file. -/
  | setUserNice (p : Tid) (nice : ℤ)
  | rtMutexSetprio (p : Tid) (piTask : Option Tid)
  | dupTaskStruct (p child : Tid)
  | schedFork (p child : Tid)
  deriving DecidableEq

/-- What a step returns to its caller. -/
inductive PrioResult
  | going
  | ok
  | error (e : PrioErrno)
  deriving DecidableEq

namespace PrioState

variable {Tid : Type} [DecidableEq Tid] (s : PrioState Tid)

/-- The record of a task after a change. -/
def setTask (p : Tid) (t : PrioTask Tid) : PrioState Tid :=
  { s with task := Function.update s.task p t }

/-- The call of a task after a step of it. -/
def setCall (c : Tid) (call : Option (Pending Tid)) : PrioState Tid :=
  { s with call := Function.update s.call c call }

/-- The priority of a donor. -/
def piPrio (piTask : Option Tid) : Option ℤ := piTask.map fun q => (s.task q).prio

/-- Task `c` can begin a call for task `p`. -/
def Ready (c p : Tid) : Prop :=
  (s.task c).stage = .live ∧ s.call c = none ∧ (s.task p).stage = .live

instance (c p : Tid) : Decidable (s.Ready c p) :=
  decidable_of_iff ((s.task c).stage = .live ∧ (s.call c).isNone ∧ (s.task p).stage = .live) <| by
    rw [Option.isNone_iff_eq_none]
    exact Iff.rfl

/-- Task `c` begins a call. -/
def begin (c : Tid) (call : Pending Tid) : Option (PrioResult × PrioState Tid) :=
  some (.going, s.setCall c (some call))

/-- A return to the caller `c`. -/
def finish (c : Tid) (result : PrioResult) : Option (PrioResult × PrioState Tid) :=
  some (result, s.setCall c none)

/-- `sched_copy_attr`, as far as it changes the request, and the test of `KEEP_POLICY`. -/
def copyAttr (attr : SchedAttr) : SchedAttr :=
  { attr with
    schedPolicy := if attr.flagKeepPolicy then setparamPolicy else attr.schedPolicy
    schedNice := max minNice (min attr.schedNice maxNice) }

/-- The request of `_sched_setscheduler`. -/
def legacyAttr (p : Tid) (policy : ℤ) (resetOnFork : Bool) (priority : ℕ) : SchedAttr where
  schedPolicy := policy
  schedNice := prioToNice (s.task p).staticPrio
  schedPriority := priority
  flagResetOnFork := policy != setparamPolicy && resetOnFork
  flagKeepPolicy := false
  flagKeepParams := false
  flagUtilClamp := false
  flagSugov := false
  flagUnknown := false

/-- One step; `none` when it cannot happen. -/
def step : PrioOp Tid → Option (PrioResult × PrioState Tid)
  | .sysSchedSetattr c p attr =>
      if ¬ s.Ready c p then none
      else if attr.schedPolicy < 0 then some (.error .EINVAL, s)
      else s.begin c (.recheck p (copyAttr attr) true true (copyAttr attr).schedPolicy)
  | .schedSetscheduler c p policy resetOnFork priority check =>
      if ¬ s.Ready c p ∨ policy < setparamPolicy then none
      else s.begin c (.recheck p (s.legacyAttr p policy resetOnFork priority) check true policy)
  | .normalizeRtTask c p =>
      if ¬ s.Ready c p then none
      else if dlPrio (s.task p).prio || rtPrio (s.task p).prio then
        s.begin c (.recheck p { s.legacyAttr p 0 false 0 with schedNice := 0 } false false 0)
      else if (s.task p).taskNice < 0 then
        some (.ok, s.setTask p ((s.task p).setUserNice 0))
      else some (.ok, s)
  | .check c facts =>
      match s.call c with
      | some (.recheck p attr user pi policy) =>
          match (s.task p).check attr user facts policy with
          | .ok k => some (.going, s.setCall c (some (.locking p attr user pi k)))
          | .error e => s.finish c (.error e)
      | _ => none
  | .commit c facts =>
      match s.call c with
      | some (.locking p attr user pi k) =>
          match (s.task p).commit attr user pi facts k (s.piPrio (s.task p).piTopTask) with
          | .done t => (s.setTask p t).finish c .ok
          | .failed e => s.finish c (.error e)
          | .recheck => some (.going, s.setCall c (some (.recheck p attr user pi (-1))))
      | _ => none
  | .sysNice c increment facts =>
      let increment := max (-niceWidth) (min increment niceWidth)
      let nice := max minNice (min ((s.task c).taskNice + increment) maxNice)
      if ¬ s.Ready c c then none
      else if increment < 0 ∧ PrioTask.canNice facts nice = false then some (.error .EPERM, s)
      else
        match facts.security with
        | some e => some (.error (.other e), s)
        | none => s.begin c (.nice nice)
  | .niceCommit c nothing =>
      match s.call c with
      | some (.nice nice) =>
          if !nothing then (s.setTask c ((s.task c).setUserNice nice)).finish c .ok
          else if (s.task c).taskNice = nice then s.finish c .ok
          else none
      | _ => none
  | .setUserNice p nice =>
      if (s.task p).stage = .live ∧ minNice ≤ nice ∧ nice ≤ maxNice then
        some (.ok, s.setTask p ((s.task p).setUserNice nice))
      else none
  | .rtMutexSetprio p piTask =>
      if (s.task p).stage = .live then
        some (.ok, s.setTask p ((s.task p).rtMutexSetprio piTask (s.piPrio piTask)))
      else none
  | .dupTaskStruct p child =>
      if (s.task p).stage = .live ∧ (s.task child).stage = .unborn then
        -- `copy_process` clears `pi_top_task`
        some (.ok, s.setTask child { s.task p with
          stage := .copied
          piTopTask := none
          isIdle := false
          isStop := false })
      else none
  | .schedFork p child =>
      if (s.task child).stage = .copied then
        match (s.task child).schedFork (s.task p).normalPrio with
        | some t => some (.ok, s.setTask child { t with stage := .live })
        | none => some (.error .EAGAIN, s.setTask child { s.task child with stage := .unborn })
      else none

end PrioState

/-- Idle tasks and stop tasks exist, and nothing else. -/
def bootPrio {Tid : Type} (idle stop : Tid → Bool) : PrioState Tid where
  task := fun p =>
    { stage := if idle p || stop p then .live else .unborn
      policy := if stop p then .fifo else .normal
      staticPrio := niceToPrio 0
      rtPriority := if stop p then 99 else 0
      normalPrio := if stop p then 0 else niceToPrio 0
      prio := if stop p then 0 else niceToPrio 0
      schedClass := if stop p then .stop else if idle p then .idle else .fair
      schedResetOnFork := false
      piTopTask := none
      isIdle := idle p
      isStop := stop p }
  call := fun _ => none

end LinuxOs2022.Scheduler
