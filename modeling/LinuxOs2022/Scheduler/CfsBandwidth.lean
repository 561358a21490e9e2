import LinuxOs2022.Library.Runs
import LinuxOs2022.Scheduler.TaskGroups

/-!
# CPU bandwidth of task groups

A group may use the CPU for its quota in every period. `tg_set_cfs_bandwidth` accepts new
values when they fit into the tree of groups, for which it visits all groups and hands the
limits down. The files of a group supply one value and read the other one before they call it.

## Implementation notes

The unsigned numbers of 64 bits are natural numbers, and the signed ones integers.
`cfs_constraints_mutex` makes the check and the stores one step, while the values that a
writer has read before can be old by then. Whether the controller is on the default hierarchy
does not change.
-/

namespace LinuxOs2022.Scheduler

open Library

universe u

/-- `RUNTIME_INF`. -/
def runtimeInf : ℕ := 2 ^ 64 - 1

/-- `NSEC_PER_USEC`. -/
def nsecPerUsec : ℕ := 1000

/-- `BW_SHIFT`. -/
def bwShift : ℕ := 20

/-- `BW_UNIT`. -/
def bwUnit : ℕ := 2 ^ bwShift

/-- `MAX_BW`. -/
def maxBw : ℕ := 2 ^ (64 - bwShift) - 1

/-- `max_cfs_quota_period`. -/
def maxCfsQuotaPeriod : ℕ := 1000000000

/-- `min_cfs_quota_period`. -/
def minCfsQuotaPeriod : ℕ := 1000000

/-- `max_cfs_runtime`. -/
def maxCfsRuntime : ℕ := maxBw * nsecPerUsec

/-- `EINVAL`. -/
def einval : ℤ := 22

/-- An unsigned number as an `s64`. -/
def s64 (x : ℕ) : ℤ := Int.bmod x (2 ^ 64)

/-- A signed number as a `u64`. -/
def u64 (x : ℤ) : ℕ := (x % 2 ^ 64).toNat

/-- `struct cfs_bandwidth`. -/
structure CfsBandwidth where
  period : ℕ
  quota : ℕ
  hierarchicalQuota : ℤ
  deriving DecidableEq

/-- `to_ratio(period, runtime)`. -/
def toRatio (period runtime : ℕ) : ℕ :=
  if runtime = runtimeInf then bwUnit
  else if period = 0 then 0
  else runtime * 2 ^ bwShift % 2 ^ 64 / period

namespace CfsBandwidth

variable (b : CfsBandwidth)

/-- `tg_get_cfs_quota(tg)`. -/
def getCfsQuota : ℤ :=
  if b.quota = runtimeInf then -1 else s64 (b.quota / nsecPerUsec)

/-- `tg_get_cfs_period(tg)`. -/
def getCfsPeriod : ℤ := s64 (b.period / nsecPerUsec)

end CfsBandwidth

/-- `struct cfs_schedulable_data`. -/
structure CfsSchedulableData (Tg : Type u) where
  tg : Tg
  period : ℕ
  quota : ℕ

section Model

variable {Tg : Type u} [DecidableEq Tg]

/-- `normalize_cfs_quota(tg, d)`. -/
def normalizeCfsQuota (tg : Tg) (d : CfsSchedulableData Tg) (bw : Tg → CfsBandwidth) : ℕ :=
  let period := if tg = d.tg then d.period else u64 (bw tg).getCfsPeriod
  let quota := if tg = d.tg then d.quota else u64 (bw tg).getCfsQuota
  if quota = runtimeInf ∨ quota = u64 (-1) then runtimeInf else toRatio period quota

/-- `cfs_b->hierarchical_quota = quota`. -/
def setHierarchicalQuota (tg : Tg) (quota : ℤ) (bw : Tg → CfsBandwidth) : Tg → CfsBandwidth :=
  Function.update bw tg { bw tg with hierarchicalQuota := quota }

/-- `tg_cfs_schedulable_down(tg, data)`; `onDfl` for `cgroup_subsys_on_dfl(cpu_cgrp_subsys)`. -/
def tgCfsSchedulableDown (onDfl : Bool) (links : Forest.Links Tg) (d : CfsSchedulableData Tg)
    (tg : Tg) (bw : Tg → CfsBandwidth) : ℤ × (Tg → CfsBandwidth) :=
  match links.parent tg with
  | none => (0, setHierarchicalQuota tg (s64 runtimeInf) bw)
  | some parent =>
      let quota := s64 (normalizeCfsQuota tg d bw)
      let parentQuota := (bw parent).hierarchicalQuota
      if onDfl then (0, setHierarchicalQuota tg (min quota parentQuota) bw)
      else if u64 quota = runtimeInf then (0, setHierarchicalQuota tg parentQuota bw)
      else if u64 parentQuota ≠ runtimeInf ∧ parentQuota < quota then (-einval, bw)
      else (0, setHierarchicalQuota tg quota bw)

variable (g : TaskGroups Tg) (onDfl : Bool)

/-- The values to be checked by `__cfs_schedulable`. -/
def cfsSchedulableData (tg : Tg) (period quota : ℕ) : CfsSchedulableData Tg :=
  if quota ≠ runtimeInf then ⟨tg, period / nsecPerUsec, quota / nsecPerUsec⟩
  else ⟨tg, period, quota⟩

/-- `__cfs_schedulable(tg, period, quota)`. -/
def cfsSchedulable (tg : Tg) (period quota : ℕ) (bw : Tg → CfsBandwidth) :
    Option (ℤ × (Tg → CfsBandwidth)) :=
  g.walkTgTree (tgCfsSchedulableDown onDfl g.links (cfsSchedulableData tg period quota)) tgNop bw

/-- `tg_set_cfs_bandwidth(tg, period, quota)`. -/
def tgSetCfsBandwidth (tg : Tg) (period quota : ℕ) (bw : Tg → CfsBandwidth) :
    Option (ℤ × (Tg → CfsBandwidth)) :=
  if tg = g.root then some (-einval, bw)
  else if quota < minCfsQuotaPeriod ∨ period < minCfsQuotaPeriod then some (-einval, bw)
  else if maxCfsQuotaPeriod < period then some (-einval, bw)
  else if quota ≠ runtimeInf ∧ maxCfsRuntime < quota then some (-einval, bw)
  else
    (cfsSchedulable g onDfl tg period quota bw).map fun r =>
      if r.1 ≠ 0 then r
      else (0, Function.update r.2 tg { r.2 tg with period := period, quota := quota })

/-! ## The files -/

/-- The arguments of a call of `tg_set_cfs_bandwidth` that has not taken the mutex yet. -/
structure CfsCall (Tg : Type u) where
  tg : Tg
  period : ℕ
  quota : ℕ
  deriving DecidableEq

/-- The bandwidths of all groups, and the call that each writer has under way. -/
structure CfsState (Tg : Type u) (Caller : Type) where
  bw : Tg → CfsBandwidth
  call : Caller → Option (CfsCall Tg)

/-- What a writer does. -/
inductive CfsOp (Tg : Type u) (Caller : Type)
  /-- `tg_set_cfs_quota(tg, cfs_quota_us)`, up to the call. -/
  | setQuota (c : Caller) (tg : Tg) (cfsQuotaUs : ℤ)
  /-- `tg_set_cfs_period(tg, cfs_period_us)`, up to the call. -/
  | setPeriod (c : Caller) (tg : Tg) (cfsPeriodUs : ℤ)
  /-- `cpu_max_write` up to the call, for a buffer with a quota, or `max`, and maybe a period. -/
  | maxWrite (c : Caller) (tg : Tg) (quotaUs periodUs : Option ℕ)
  /-- `tg_set_cfs_bandwidth` of the call. -/
  | commit (c : Caller)
  deriving DecidableEq

/-- Who takes the step. -/
def CfsOp.caller {Caller : Type} : CfsOp Tg Caller → Caller
  | .setQuota c _ _ | .setPeriod c _ _ | .maxWrite c _ _ _ | .commit c => c

namespace CfsState

variable {Caller : Type} [DecidableEq Caller] (s : CfsState Tg Caller)

/-- A writer has read what it needs. -/
def begin (c : Caller) (call : CfsCall Tg) : CfsState Tg Caller :=
  { s with call := Function.update s.call c (some call) }

/-- `cpu_period_quota_parse(buf, &period, &quota)`, for the period of the group. -/
def periodQuotaParse (period : ℕ) (quotaUs periodUs : Option ℕ) : ℕ × ℕ :=
  (periodUs.getD period * nsecPerUsec % 2 ^ 64,
    match quotaUs with
    | some quota => quota * nsecPerUsec % 2 ^ 64
    | none => runtimeInf)

/-- One step with what it returns, which is `none` for a call that goes on. -/
def step : CfsOp Tg Caller → Option (Option ℤ × CfsState Tg Caller)
  | .setQuota c tg us =>
      if (s.call c).isSome then none
      else if us < 0 then some (none, s.begin c ⟨tg, (s.bw tg).period, runtimeInf⟩)
      else if us.toNat ≤ (2 ^ 64 - 1) / nsecPerUsec then
        some (none, s.begin c ⟨tg, (s.bw tg).period, us.toNat * nsecPerUsec⟩)
      else some (some (-einval), s)
  | .setPeriod c tg us =>
      if (s.call c).isSome then none
      else if (2 ^ 64 - 1) / nsecPerUsec < u64 us then some (some (-einval), s)
      else some (none, s.begin c ⟨tg, u64 us * nsecPerUsec, (s.bw tg).quota⟩)
  | .maxWrite c tg quotaUs periodUs =>
      if (s.call c).isSome then none
      else
        let parsed := periodQuotaParse (u64 (s.bw tg).getCfsPeriod) quotaUs periodUs
        some (none, s.begin c ⟨tg, parsed.1, parsed.2⟩)
  | .commit c =>
      match s.call c with
      | none => none
      | some call =>
          (tgSetCfsBandwidth g onDfl call.tg call.period call.quota s.bw).map fun r =>
            (some r.1, { bw := r.2, call := Function.update s.call c none })

/-- The steps, labelled with operation and result. -/
def Steps (s : CfsState Tg Caller) (e : CfsOp Tg Caller × Option ℤ) (s' : CfsState Tg Caller) :
    Prop :=
  s.step g onDfl e.1 = some (e.2, s')

end CfsState

/-- No group has a limit yet, and nobody writes. -/
structure CfsState.Unlimited {Caller : Type} (s : CfsState Tg Caller) : Prop where
  quota : ∀ tg, (s.bw tg).quota = runtimeInf
  period : ∀ tg, minCfsQuotaPeriod ≤ (s.bw tg).period ∧ (s.bw tg).period ≤ maxCfsQuotaPeriod
  call : ∀ c, s.call c = none

end Model

end LinuxOs2022.Scheduler
