import LinuxOs2022.Library.Refresh
import LinuxOs2022.Library.Runs
import LinuxOs2022.Scheduler.TaskGroups
import LinuxOs2022.Scheduler.Uclamp

/-!
# Utilization clamps of task groups

A group asks for clamps as a percentage. Its effective clamps are bounded by those of its
parent. `cpu_util_update_eff` brings the effective clamps of a group and of those below it up
to date, and goes no further below a group that has not changed.

## Implementation notes

`uclamp_mutex` makes each write one step. The tree of groups is given. The updates of the
tasks of a group are recorded, not carried out.
-/

namespace LinuxOs2022.Scheduler

open Library

universe u

/-- `UCLAMP_PERCENT_SCALE`. -/
def uclampPercentScale : ℕ := 10000

/-- `SCHED_CAPACITY_SHIFT`. -/
def schedCapacityShift : ℕ := 10

/-- `ERANGE`. -/
def erange : ℤ := 34

/-- `struct uclamp_request`. -/
structure UclampRequest where
  percent : ℤ
  util : ℕ
  ret : ℤ

/-- `capacity_from_percent(buf)` for `max` or for a number with two decimals. -/
def capacityFromPercent : Option ℤ → UclampRequest
  | none => ⟨uclampPercentScale, schedCapacityScale, 0⟩
  | some percent =>
      -- the comparison is unsigned
      if percent < 0 ∨ uclampPercentScale < percent then ⟨percent, schedCapacityScale, -erange⟩
      else
        ⟨percent, divRoundClosest (percent.toNat * 2 ^ schedCapacityShift) uclampPercentScale, 0⟩

/-- The clamps of `struct task_group`. -/
structure GroupClamps where
  uclampReq : UclampId → UclampSe
  uclamp : UclampId → UclampSe
  uclampPct : UclampId → ℕ

/-- The clamps of all groups. -/
structure GroupState (Tg : Type u) where
  group : Tg → GroupClamps
  /-- The groups and clamps for which the last step has called `uclamp_update_active_tasks`. -/
  updated : List (Tg × UclampId)

/-- `eff[clamp_id]` of `cpu_util_update_eff`, for the clamps of a group and of its parent. -/
def effClamp (own : GroupClamps) (parent : Option GroupClamps) : UclampId → ℕ :=
  let eff (id : UclampId) : ℕ :=
    match parent with
    | none => (own.uclampReq id).value
    | some p =>
        if (p.uclamp id).value < (own.uclampReq id).value then (p.uclamp id).value
        else (own.uclampReq id).value
  fun
    | .min => min (eff .min) (eff .max)
    | .max => eff .max

section Model

variable {Tg : Type u} [DecidableEq Tg] (g : TaskGroups Tg) (n : ℕ)

/-- The body of the loop of `cpu_util_update_eff`, which returns whether anything changes. -/
def updateGroup (links : Forest.Links Tg) (tg : Tg) (s : GroupState Tg) : Bool × GroupState Tg :=
  let own := s.group tg
  let eff := effClamp own ((links.parent tg).map s.group)
  let clamps := [UclampId.min, UclampId.max].filter fun id => eff id ≠ (own.uclamp id).value
  let uclamp (id : UclampId) : UclampSe :=
    if eff id = (own.uclamp id).value then own.uclamp id
    else { own.uclamp id with value := eff id, bucketId := bucketField n (eff id) }
  (!clamps.isEmpty,
    { group := Function.update s.group tg { own with uclamp := uclamp }
      updated := s.updated ++ clamps.map (tg, ·) })

/-- `cpu_util_update_eff(css)`. -/
def cpuUtilUpdateEff (tg : Tg) (s : GroupState Tg) : GroupState Tg :=
  (Forest.subtree tg g.tree).refresh (updateGroup n g.links) s

/-- A store to what a group asks for. -/
def setGroup (tg : Tg) (own : GroupClamps) (s : GroupState Tg) : GroupState Tg :=
  { group := Function.update s.group tg own, updated := [] }

/-- `cpu_uclamp_write(of, buf, nbytes, off, clamp_id)`, without the number of bytes. -/
def cpuUclampWrite (tg : Tg) (id : UclampId) (buf : Option ℤ) (s : GroupState Tg) :
    ℤ × GroupState Tg :=
  let req := capacityFromPercent buf
  if req.ret ≠ 0 then (req.ret, { s with updated := [] })
  else
    let own := s.group tg
    let asked := if (own.uclampReq id).value ≠ req.util then
        Function.update own.uclampReq id ((own.uclampReq id).set n req.util false)
      else own.uclampReq
    let pct := Function.update own.uclampPct id req.percent.toNat
    (0, cpuUtilUpdateEff g n tg
      (setGroup tg { own with uclampReq := asked, uclampPct := pct } s))

/-- `uclamp_update_root_tg()`. -/
def uclampUpdateRootTg (utilMin utilMax : ℕ) (s : GroupState Tg) : GroupState Tg :=
  let own := s.group g.root
  let asked : UclampId → UclampSe
    | .min => (own.uclampReq .min).set n utilMin false
    | .max => (own.uclampReq .max).set n utilMax false
  cpuUtilUpdateEff g n g.root (setGroup g.root { own with uclampReq := asked } s)

/-- `cpu_uclamp_print(sf, clamp_id)`: nothing stands for `max`, and a number has two decimals. -/
def cpuUclampPrint (s : GroupState Tg) (tg : Tg) (id : UclampId) : Option ℕ :=
  if ((s.group tg).uclampReq id).value = schedCapacityScale then none
  else some ((s.group tg).uclampPct id)

/-- What happens to the clamps of groups. -/
inductive GroupOp (Tg : Type u)
  /-- A write to `uclamp.min` or `uclamp.max`, which the root does not have. -/
  | write (tg : Tg) (id : UclampId) (buf : Option ℤ)
  /-- `sysctl_sched_uclamp_handler` with a new value. -/
  | sysctl (utilMin utilMax : ℕ)
  deriving DecidableEq

/-- One step with its result; `none` when it cannot happen. -/
def GroupState.step (s : GroupState Tg) : GroupOp Tg → Option (ℤ × GroupState Tg)
  | .write tg id buf =>
      if tg = g.root then none else some (cpuUclampWrite g n tg id buf s)
  | .sysctl utilMin utilMax =>
      if utilMax < utilMin ∨ schedCapacityScale < utilMax then none
      else some (0, uclampUpdateRootTg g n utilMin utilMax s)

/-- The steps, labelled with operation and result. -/
def GroupState.Steps (s : GroupState Tg) (e : GroupOp Tg × ℤ) (s' : GroupState Tg) : Prop :=
  s.step g n e.1 = some (e.2, s')

/-- A clamp of a group that `init_uclamp` or `alloc_uclamp_sched_group` has made. -/
def bootClamp (value : ℕ) : UclampSe := ⟨value, bucketField n value, false, false⟩

/-- The groups after `init_uclamp` and the creation of those below the root. -/
def bootGroups : GroupState Tg where
  group := fun tg =>
    if tg = g.root then
      ⟨fun _ => bootClamp n (uclampNone .max), fun _ => bootClamp n (uclampNone .max), fun _ => 0⟩
    else ⟨fun id => bootClamp n (uclampNone id), fun id => bootClamp n (uclampNone id), fun _ => 0⟩
  updated := []

end Model

end LinuxOs2022.Scheduler
