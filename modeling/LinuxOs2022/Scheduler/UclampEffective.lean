import LinuxOs2022.Scheduler.UclampGroups

/-!
# Effective clamps of task groups

After every write, the effective maximum of a group is the least maximum that is asked for on
the way from the root, and its effective minimum the least minimum or maximum there, although
the update stops at groups that do not change. No change of an effective clamp leaves out the
tasks of its group.
-/

namespace LinuxOs2022.Scheduler

open Library

universe u

variable {Tg : Type u} [DecidableEq Tg] {g : TaskGroups Tg} {n : ℕ} {links : Forest.Links Tg}
  {s s' s₂ : GroupState Tg} {tg x y : Tg} {id : UclampId} {buf : Option ℤ} {result : ℤ}
  {op : GroupOp Tg} {es : List (GroupOp Tg × ℤ)}

/-! ## One group -/

/-- The effective clamps of a group are right for those of its parent. -/
def Effective (links : Forest.Links Tg) (x : Tg) (s : GroupState Tg) : Prop :=
  ∀ id, ((s.group x).uclamp id).value =
    effClamp (s.group x) ((links.parent x).map s.group) id

/-- The asked and the effective clamps of a group stay as they are. -/
def SameGroup (s s' : GroupState Tg) (x : Tg) : Prop := s'.group x = s.group x

theorem updateGroup_of_ne (h : x ≠ tg) : SameGroup s (updateGroup n links tg s).2 x :=
  Function.update_of_ne h _ _

/-- The update of a group changes no request. -/
theorem updateGroup_asked (x : Tg) :
    ((updateGroup n links tg s).2.group x).uclampReq = (s.group x).uclampReq ∧
      ((updateGroup n links tg s).2.group x).uclampPct = (s.group x).uclampPct := by
  obtain rfl | hx := eq_or_ne x tg
  · unfold updateGroup
    dsimp only
    rw [Function.update_self]
    exact ⟨rfl, rfl⟩
  · rw [updateGroup_of_ne hx]
    exact ⟨rfl, rfl⟩

theorem updateGroup_uclamp (tg : Tg) (id : UclampId) :
    ((updateGroup n links tg s).2.group tg).uclamp id =
      if effClamp (s.group tg) ((links.parent tg).map s.group) id =
          ((s.group tg).uclamp id).value then (s.group tg).uclamp id
      else { (s.group tg).uclamp id with
        value := effClamp (s.group tg) ((links.parent tg).map s.group) id
        bucketId := bucketField n (effClamp (s.group tg) ((links.parent tg).map s.group) id) } := by
  unfold updateGroup
  dsimp only
  rw [Function.update_self]

theorem updateGroup_value (tg : Tg) (id : UclampId) :
    (((updateGroup n links tg s).2.group tg).uclamp id).value =
      effClamp (s.group tg) ((links.parent tg).map s.group) id := by
  rw [updateGroup_uclamp]
  split
  next h => exact h.symm
  next => rfl

omit [DecidableEq Tg] in
theorem effClamp_congr {own own' : GroupClamps} (h : own'.uclampReq = own.uclampReq)
    (parent : Option GroupClamps) : effClamp own' parent = effClamp own parent := by
  funext id
  cases id with
  | min => rw [effClamp, effClamp, h]
  | max => rw [effClamp, effClamp, h]

omit [DecidableEq Tg] in
theorem effective_of_same (hx : SameGroup s s' x)
    (hparent : ∀ y, links.parent x = some y → SameGroup s s' y) (h : Effective links x s) :
    Effective links x s' := by
  intro id
  have hmap : (links.parent x).map s'.group = (links.parent x).map s.group := by
    cases hp : links.parent x with
    | none => rfl
    | some y => exact congrArg some (hparent y hp)
  rw [hmap, hx]
  exact h id

/-- The update is of the kind that a pruned visit may use. -/
theorem updateGroup_refreshes :
    Forest.Refreshes links.parent (Effective links) (updateGroup n links) where
  self := by
    intro a s ha id
    have hmap : (links.parent a).map (updateGroup n links a s).2.group =
        (links.parent a).map s.group := by
      cases hp : links.parent a with
      | none => rfl
      | some y => exact congrArg some (updateGroup_of_ne fun hya => ha (hya ▸ hp))
    rw [updateGroup_value, hmap, effClamp_congr (updateGroup_asked a).1]
  other := by
    intro a b s hb hparent h
    apply effective_of_same (updateGroup_of_ne hb) _ h
    exact fun y hy => updateGroup_of_ne fun hya => hparent (hya ▸ hy)
  unchanged := by
    intro a b s hb hsame h
    have huclamp (id : UclampId) : effClamp (s.group a) ((links.parent a).map s.group) id =
        ((s.group a).uclamp id).value := by
      have hempty : ([UclampId.min, UclampId.max].filter fun id =>
          decide (effClamp (s.group a) ((links.parent a).map s.group) id ≠
            ((s.group a).uclamp id).value)) = [] := by
        apply List.isEmpty_iff.mp
        simpa [updateGroup] using hsame
      have hnot := List.filter_eq_nil_iff.mp hempty id (by cases id <;> simp)
      simpa using hnot
    have hall (y : Tg) : SameGroup s (updateGroup n links a s).2 y := by
      obtain rfl | hy := eq_or_ne y a
      · unfold SameGroup updateGroup
        simp [huclamp]
      · exact updateGroup_of_ne hy
    exact effective_of_same (hall b) (fun y _ => hall y) h

/-! ## One write -/

theorem setGroup_self (own : GroupClamps) : (setGroup tg own s).group tg = own :=
  Function.update_self _ _ _

theorem setGroup_of_ne (h : x ≠ tg) (own : GroupClamps) : SameGroup s (setGroup tg own s) x :=
  Function.update_of_ne h _ _

/-- After a change of one group, its update makes all groups right. -/
theorem cpuUtilUpdateEff_effective (hs : ∀ x, Forest.Mem x g.tree → Effective g.links x s)
    {own : GroupClamps} (huclamp : own.uclamp = (s.group tg).uclamp) :
    ∀ x, Forest.Mem x g.tree →
      Effective g.links x (cpuUtilUpdateEff g n tg (setGroup tg own s)) := by
  apply updateGroup_refreshes.refresh_subtree (p := none) g.linked.parented g.apart
  · exact fun _ h => by cases h
  · intro x hx hne id
    have heff : effClamp ((setGroup tg own s).group x)
          ((g.links.parent x).map (setGroup tg own s).group) id =
        effClamp (s.group x) ((g.links.parent x).map s.group) id := by
      rw [setGroup_of_ne hne]
      cases hp : g.links.parent x with
      | none => rfl
      | some y =>
          obtain rfl | hy := eq_or_ne y tg
          · cases id with
            | min => simp only [effClamp, Option.map_some, setGroup_self, huclamp]
            | max => simp only [effClamp, Option.map_some, setGroup_self, huclamp]
          · have hsame : (setGroup tg own s).group y = s.group y := setGroup_of_ne hy own
            rw [Option.map_some, Option.map_some, hsame]
    rw [heff, setGroup_of_ne hne]
    exact hs x hx id

/-- What every update of a group keeps is kept. -/
theorem cpuUtilUpdateEff_keeps {I : GroupState Tg → Prop}
    (hupdate : ∀ a s, I s → I (updateGroup n g.links a s).2) (hs : I s) :
    I (cpuUtilUpdateEff g n tg s) :=
  Forest.refresh_keeps (fun a _ s hs => hupdate a s hs) hs

theorem cpuUtilUpdateEff_asked (s : GroupState Tg) (x : Tg) :
    ((cpuUtilUpdateEff g n tg s).group x).uclampReq = (s.group x).uclampReq ∧
      ((cpuUtilUpdateEff g n tg s).group x).uclampPct = (s.group x).uclampPct := by
  apply cpuUtilUpdateEff_keeps (I := fun s₁ => (s₁.group x).uclampReq = (s.group x).uclampReq ∧
    (s₁.group x).uclampPct = (s.group x).uclampPct)
  · intro a s₁ hs₁
    exact ⟨(updateGroup_asked x).1.trans hs₁.1, (updateGroup_asked x).2.trans hs₁.2⟩
  · exact ⟨rfl, rfl⟩

/-- The buckets of the effective clamps are those of their values. -/
def BucketsOk (n : ℕ) (s : GroupState Tg) : Prop :=
  ∀ x id, ((s.group x).uclamp id).bucketId = bucketField n ((s.group x).uclamp id).value

theorem BucketsOk.updateGroup (h : BucketsOk n s) (a : Tg) :
    BucketsOk n (updateGroup n links a s).2 := by
  intro x id
  obtain rfl | hx := eq_or_ne x a
  · rw [updateGroup_uclamp]
    split
    · exact h x id
    · rfl
  · rw [updateGroup_of_ne hx]
    exact h x id

/-- The groups are in order. -/
structure GroupOk (g : TaskGroups Tg) (n : ℕ) (s : GroupState Tg) : Prop where
  effective : ∀ x, Forest.Mem x g.tree → Effective g.links x s
  buckets : BucketsOk n s

theorem GroupOk.update (h : GroupOk g n s) {own : GroupClamps}
    (huclamp : own.uclamp = (s.group tg).uclamp) :
    GroupOk g n (cpuUtilUpdateEff g n tg (setGroup tg own s)) := by
  refine ⟨cpuUtilUpdateEff_effective h.effective huclamp, ?_⟩
  apply cpuUtilUpdateEff_keeps (I := BucketsOk n) fun a _ hs => BucketsOk.updateGroup hs a
  intro x id
  obtain rfl | hx := eq_or_ne x tg
  · rw [setGroup_self, huclamp]
    exact h.buckets x id
  · rw [setGroup_of_ne hx]
    exact h.buckets x id

/-- Every step keeps the groups in order. -/
theorem GroupOk.step (h : GroupOk g n s) (hstep : s.step g n op = some (result, s')) :
    GroupOk g n s' := by
  cases op with
  | write tg id buf =>
      dsimp only [GroupState.step] at hstep
      split at hstep
      · cases hstep
      · rw [cpuUclampWrite] at hstep
        dsimp only at hstep
        split at hstep
        · cases hstep
          exact ⟨h.effective, h.buckets⟩
        · cases hstep
          exact h.update rfl
  | sysctl utilMin utilMax =>
      dsimp only [GroupState.step] at hstep
      split at hstep
      · cases hstep
      · cases hstep
        exact h.update rfl

theorem bootGroups_ok : GroupOk g n (bootGroups g n) := by
  have hclamp (y : Tg) (id : UclampId) :
      uclampNone id ≤ (((bootGroups g n).group y).uclamp id).value := by
    unfold bootGroups
    dsimp only
    split
    · cases id with
      | min => exact Nat.zero_le _
      | max => exact le_rfl
    · exact le_rfl
  constructor
  · intro x _ id
    by_cases hx : x = g.root
    · have hparent : g.links.parent x = none := hx ▸ g.linked.2.2.1
      rw [hparent, bootGroups]
      dsimp only
      rw [if_pos hx]
      cases id <;> rfl
    · have hreq (id : UclampId) : ((bootGroups g n).group x).uclampReq id =
          ((bootGroups g n).group x).uclamp id := by
        rw [bootGroups]
        dsimp only
        rw [if_neg hx]
      have hvalue (id : UclampId) :
          (((bootGroups g n).group x).uclamp id).value = uclampNone id := by
        rw [bootGroups]
        dsimp only
        rw [if_neg hx]
        rfl
      cases hp : g.links.parent x with
      | none => cases id <;> simp [effClamp, hreq, hvalue, uclampNone]
      | some y =>
          have hmin := (hclamp y .min).not_gt
          have hmax := (hclamp y .max).not_gt
          cases id with
          | min =>
              simp only [effClamp, Option.map_some, hreq, hvalue, if_neg hmin, if_neg hmax]
              rfl
          | max => simp only [effClamp, Option.map_some, hreq, hvalue, if_neg hmax]
  · intro x id
    unfold bootGroups
    dsimp only
    split <;> rfl

theorem run_groupOk (h : Run (GroupState.Steps g n) (bootGroups g n) es s) : GroupOk g n s :=
  h.invariant (fun _ _ _ hs hstep => hs.step hstep) bootGroups_ok

namespace GroupState

/-- A step that can be computed. -/
def execStep (g : TaskGroups Tg) (n : ℕ) (s : GroupState Tg) (op : GroupOp Tg) :
    Option ((GroupOp Tg × ℤ) × GroupState Tg) :=
  (s.step g n op).map fun e => ((op, e.1), e.2)

theorem steps_of_execStep (s : GroupState Tg) (op : GroupOp Tg) (e : GroupOp Tg × ℤ)
    (s' : GroupState Tg) (h : s.execStep g n op = some (e, s')) : s.Steps g n e s' := by
  obtain ⟨⟨result, t⟩, hstep, heq⟩ := Option.map_eq_some_iff.mp h
  obtain ⟨rfl, rfl⟩ := Prod.mk.inj heq
  exact hstep

end GroupState

/-! ## On the way from the root -/

/-- The maximum that a group asks for. -/
def askedMax (s : GroupState Tg) (x : Tg) : ℕ := ((s.group x).uclampReq .max).value

/-- The minimum that a group asks for, but not more than its maximum. -/
def askedMin (s : GroupState Tg) (x : Tg) : ℕ :=
  min ((s.group x).uclampReq .min).value (askedMax s x)

/-- An effective clamp of a group. -/
def effectiveClamp (s : GroupState Tg) (id : UclampId) (x : Tg) : ℕ := ((s.group x).uclamp id).value

omit [DecidableEq Tg] in
theorem Effective.of_root (h : Effective links x s) (hx : links.parent x = none) :
    effectiveClamp s .max x = askedMax s x ∧ effectiveClamp s .min x = askedMin s x := by
  rw [Effective, hx] at h
  exact ⟨h .max, h .min⟩

omit [DecidableEq Tg] in
theorem Effective.of_parent (h : Effective links x s) (hx : links.parent x = some y) :
    effectiveClamp s .max x = min (askedMax s x) (effectiveClamp s .max y) ∧
      effectiveClamp s .min x =
        min (min ((s.group x).uclampReq .min).value (effectiveClamp s .min y))
        (effectiveClamp s .max x) := by
  have hlimit (a b : ℕ) : (if b < a then b else a) = min a b := by
    split <;> omega
  have hmax := h .max
  have hmin := h .min
  rw [hx, Option.map_some] at hmax hmin
  simp only [effClamp, hlimit] at hmax hmin
  refine ⟨hmax, hmin.trans ?_⟩
  rw [← hmax]
  rfl

omit [DecidableEq Tg] in
theorem Effective.min_le_max (h : Effective links x s) :
    effectiveClamp s .min x ≤ effectiveClamp s .max x := by
  cases hp : links.parent x with
  | none =>
      obtain ⟨hmax, hmin⟩ := h.of_root hp
      rw [hmax, hmin]
      exact min_le_right _ _
  | some y =>
      rw [(h.of_parent hp).2]
      exact min_le_right _ _

omit [DecidableEq Tg] in
/-- Effective clamps are handed down. -/
theorem inherits_effective {f : Forest Tg} (hf : Forest.Parented links.parent (some y) f)
    (hy : effectiveClamp s .min y ≤ effectiveClamp s .max y)
    (hs : ∀ x, Forest.Mem x f → Effective links x s) :
    Forest.Inherits (askedMax s) (effectiveClamp s .max) (effectiveClamp s .max y) f ∧
      Forest.Inherits (askedMin s) (effectiveClamp s .min) (effectiveClamp s .min y) f := by
  induction f generalizing y with
  | nil => exact ⟨trivial, trivial⟩
  | cons a kids sibs ihk ihs =>
      obtain ⟨hparent, hkids, hsibs⟩ := hf
      have ha := hs a (.inl rfl)
      obtain ⟨hmax, hmin⟩ := ha.of_parent hparent
      have hmin' : effectiveClamp s .min a = min (askedMin s a) (effectiveClamp s .min y) := by
        rw [hmin, hmax, askedMin]
        omega
      obtain ⟨hkmax, hkmin⟩ := ihk hkids ha.min_le_max fun x hx => hs x (.inr (.inl hx))
      obtain ⟨hsmax, hsmin⟩ := ihs hsibs hy fun x hx => hs x (.inr (.inr hx))
      rw [hmax] at hkmax
      rw [hmin'] at hkmin
      exact ⟨⟨hmax, hkmax, hsmax⟩, ⟨hmin', hkmin, hsmin⟩⟩

omit [DecidableEq Tg] in
theorem GroupOk.inherits (h : GroupOk g n s) :
    Forest.Inherits (askedMax s) (effectiveClamp s .max) (askedMax s g.root) g.tree ∧
      Forest.Inherits (askedMin s) (effectiveClamp s .min) (askedMin s g.root) g.tree := by
  have hroot := h.effective g.root (.inl rfl)
  obtain ⟨hmax, hmin⟩ := hroot.of_root g.linked.2.2.1
  obtain ⟨hkmax, hkmin⟩ := inherits_effective g.linked.parented.2.1 hroot.min_le_max
    fun x hx => h.effective x (.inr (.inl hx))
  rw [hmax] at hkmax
  rw [hmin] at hkmin
  constructor
  · exact ⟨by rw [min_self, hmax], by rwa [min_self], trivial⟩
  · exact ⟨by rw [min_self, hmin], by rwa [min_self], trivial⟩

/-- In every state of every run, the effective clamps of a group are the least that are asked
for on its way from the root, in their buckets. -/
theorem effective_clamps (h : Run (GroupState.Steps g n) (bootGroups g n) es s)
    (hx : Forest.Mem x g.tree) :
    IsLeast {v | v = askedMax s x ∨ ∃ a, Forest.Above a x g.tree ∧ v = askedMax s a}
        (effectiveClamp s .max x) ∧
      IsLeast {v | v = askedMin s x ∨ ∃ a, Forest.Above a x g.tree ∧ v = askedMin s a}
        (effectiveClamp s .min x) ∧
      ∀ id, ((s.group x).uclamp id).bucketId = bucketField n (effectiveClamp s id x) := by
  have hok := run_groupOk h
  obtain ⟨hmax, hmin⟩ := hok.inherits
  exact ⟨hmax.isLeast hx, hmin.isLeast hx, hok.buckets x⟩

/-- Group 1 has one half of the capacity at most, and one fifth at least; group 2 asks for more
of both. -/
def halfParent : List (GroupOp ℕ) :=
  [.write 2 .max (some 8000), .write 2 .min (some 3000), .write 1 .max (some 5000),
    .write 1 .min (some 2000)]

theorem halfParent_run :
    Run (GroupState.Steps chain 5) (bootGroups chain 5) (halfParent.zip [0, 0, 0, 0])
      (lastState (GroupState.execStep chain 5) (bootGroups chain 5) halfParent) :=
  lastState_run GroupState.steps_of_execStep (by decide +kernel)

theorem effective_clamps_halfParent :
    let s := lastState (GroupState.execStep chain 5) (bootGroups chain 5) halfParent
    (IsLeast {v | v = askedMax s 2 ∨ ∃ a, Forest.Above a 2 chain.tree ∧ v = askedMax s a}
        (effectiveClamp s .max 2) ∧
      IsLeast {v | v = askedMin s 2 ∨ ∃ a, Forest.Above a 2 chain.tree ∧ v = askedMin s a}
        (effectiveClamp s .min 2) ∧
      ∀ id, ((s.group 2).uclamp id).bucketId = bucketField 5 (effectiveClamp s id 2)) ∧
    askedMax s 2 = 819 ∧ effectiveClamp s .max 2 = 512 ∧ askedMin s 2 = 307 ∧
      effectiveClamp s .min 2 = 205 :=
  ⟨effective_clamps halfParent_run (.inr (.inl (.inr (.inl (.inl rfl))))), by decide +kernel⟩

/-! ## The tasks of the groups -/

/-- What is not listed has not changed since. -/
def Listed (s s' : GroupState Tg) : Prop :=
  ∀ x id, (x, id) ∉ s'.updated → (s'.group x).uclamp id = (s.group x).uclamp id

theorem Listed.updateGroup (h : Listed s s') (a : Tg) :
    Listed s (updateGroup n links a s').2 := by
  intro x id hx
  rw [Scheduler.updateGroup] at hx
  dsimp only at hx
  obtain ⟨hold, hnew⟩ := not_or.mp (List.mem_append.not.mp hx)
  obtain rfl | hne := eq_or_ne x a
  · rw [updateGroup_uclamp, if_pos]
    · exact h x id hold
    · by_contra hchange
      apply hnew
      apply List.mem_map.mpr
      refine ⟨id, List.mem_filter.mpr ⟨?_, by simpa using hchange⟩, rfl⟩
      cases id <;> simp
  · rw [updateGroup_of_ne hne]
    exact h x id hold

/-- Whenever a step changes an effective clamp of a group, it updates the tasks of the group. -/
theorem changes_listed (h : s.Steps g n (op, result) s')
    (hchange : (s'.group x).uclamp id ≠ (s.group x).uclamp id) : (x, id) ∈ s'.updated := by
  have hupdate {tg : Tg} {own : GroupClamps} (huclamp : own.uclamp = (s.group tg).uclamp) :
      Listed s (cpuUtilUpdateEff g n tg (setGroup tg own s)) := by
    apply cpuUtilUpdateEff_keeps (I := Listed s) fun a _ hs => hs.updateGroup a
    intro y id' _
    obtain rfl | hy := eq_or_ne y tg
    · rw [setGroup_self, huclamp]
    · rw [setGroup_of_ne hy]
  have hlisted : Listed s s' := by
    cases op with
    | write tg id buf =>
        dsimp only [GroupState.Steps, GroupState.step] at h
        split at h
        · cases h
        · rw [cpuUclampWrite] at h
          dsimp only at h
          split at h
          · cases h
            exact fun _ _ _ => rfl
          · cases h
            exact hupdate rfl
    | sysctl utilMin utilMax =>
        dsimp only [GroupState.Steps, GroupState.step] at h
        split at h
        · cases h
        · cases h
          exact hupdate rfl
  exact not_not.mp fun hx => hchange (hlisted x id hx)

theorem changes_listed_halfParent :
    let s := lastState (GroupState.execStep chain 5) (bootGroups chain 5)
      [GroupOp.write 1 .max (some 5000)]
    (2, .max) ∈ s.updated ∧ (2, .min) ∉ s.updated := by
  refine ⟨?_, by decide +kernel⟩
  have hrun : Run (GroupState.Steps chain 5) (bootGroups chain 5)
      [(.write 1 .max (some 5000), 0)]
      (lastState (GroupState.execStep chain 5) (bootGroups chain 5)
        [GroupOp.write 1 .max (some 5000)]) :=
    lastState_run GroupState.steps_of_execStep (by decide +kernel)
  obtain ⟨t, hstep, hnil⟩ := Run.cons_iff.mp hrun
  cases hnil with
  | nil => exact changes_listed hstep (by decide +kernel)

/-! ## The files -/

/-- Only a write of the same clamp changes what a group below the root asks for. -/
theorem asked_kept (h : s.Steps g n (op, result) s') (htg : tg ≠ g.root)
    (hop : ∀ buf, op ≠ .write tg id buf) :
    (s'.group tg).uclampReq id = (s.group tg).uclampReq id ∧
      (s'.group tg).uclampPct id = (s.group tg).uclampPct id := by
  cases op with
  | write tg' id' buf =>
      dsimp only [GroupState.Steps, GroupState.step] at h
      split at h
      · cases h
      · rw [cpuUclampWrite] at h
        dsimp only at h
        split at h
        · cases h
          exact ⟨rfl, rfl⟩
        · cases h
          rw [(cpuUtilUpdateEff_asked _ _).1, (cpuUtilUpdateEff_asked _ _).2]
          obtain rfl | hne := eq_or_ne tg tg'
          · have hid : id ≠ id' := fun hid => hop buf (hid ▸ rfl)
            rw [setGroup_self]
            dsimp only
            rw [Function.update_of_ne hid]
            refine ⟨?_, rfl⟩
            split
            · exact Function.update_of_ne hid _ _
            · rfl
          · rw [setGroup_of_ne hne]
            exact ⟨rfl, rfl⟩
  | sysctl utilMin utilMax =>
      dsimp only [GroupState.Steps, GroupState.step] at h
      split at h
      · cases h
      · cases h
        rw [uclampUpdateRootTg, (cpuUtilUpdateEff_asked _ _).1, (cpuUtilUpdateEff_asked _ _).2,
          setGroup_of_ne htg]
        exact ⟨rfl, rfl⟩

/-- A write that succeeds stores the percentage and the value that it stands for. -/
theorem write_asks (h : s.Steps g n (.write tg id buf, 0) s') :
    tg ≠ g.root ∧ (capacityFromPercent buf).ret = 0 ∧
      ((s'.group tg).uclampReq id).value = (capacityFromPercent buf).util ∧
      (s'.group tg).uclampPct id = (capacityFromPercent buf).percent.toNat := by
  dsimp only [GroupState.Steps, GroupState.step] at h
  split at h
  · cases h
  next hroot =>
    refine ⟨hroot, ?_⟩
    rw [cpuUclampWrite] at h
    dsimp only at h
    split at h
    next hret =>
      obtain ⟨hzero, -⟩ := Prod.mk.inj (Option.some.inj h)
      exact (hret hzero).elim
    next hret =>
      cases h
      refine ⟨not_not.mp hret, ?_⟩
      rw [(cpuUtilUpdateEff_asked _ _).1, (cpuUtilUpdateEff_asked _ _).2, setGroup_self]
      dsimp only
      rw [Function.update_self]
      refine ⟨?_, rfl⟩
      split
      · rw [Function.update_self]
        rfl
      next hsame => exact not_not.mp hsame

/-- What is written to `uclamp.min` or `uclamp.max` reads back as it was written, whatever else
is written afterwards, except that everything from 99.96 reads `max`. -/
theorem percent_reads_back (hstart : s.Steps g n (.write tg id buf, 0) s')
    (h : Run (GroupState.Steps g n) s' es s₂)
    (hother : ∀ e ∈ es, ∀ buf', e.1 ≠ .write tg id buf') :
    cpuUclampPrint s₂ tg id =
      buf.elim none fun percent => if percent < 9996 then some percent.toNat else none := by
  obtain ⟨htg, hret, hvalue, hpct⟩ := write_asks hstart
  have hkept : (s₂.group tg).uclampReq id = (s'.group tg).uclampReq id ∧
      (s₂.group tg).uclampPct id = (s'.group tg).uclampPct id := by
    clear hstart hvalue hpct
    induction h with
    | nil s => exact ⟨rfl, rfl⟩
    | @cons s t r e es hstep _ ih =>
        obtain ⟨op, result⟩ := e
        obtain ⟨hreq, hpct⟩ := asked_kept hstep htg (hother _ List.mem_cons_self)
        obtain ⟨hreq', hpct'⟩ := ih fun e he => hother e (List.mem_cons_of_mem _ he)
        exact ⟨hreq'.trans hreq, hpct'.trans hpct⟩
  rw [cpuUclampPrint, hkept.1, hkept.2, hvalue, hpct]
  cases buf with
  | none => rfl
  | some percent =>
      rw [capacityFromPercent] at hret ⊢
      split at hret
      next => cases hret
      next hrange =>
        rw [if_neg hrange]
        obtain ⟨hpos, hle⟩ := not_or.mp hrange
        unfold uclampPercentScale at hle
        dsimp only [Option.elim]
        unfold divRoundClosest uclampPercentScale schedCapacityShift schedCapacityScale
        split
        next hmax => rw [if_neg (by omega)]
        next hmax => rw [if_pos (by omega)]

/-- A maximum of 45.67 for group 1, and later writes of others. -/
def writeMax : List (GroupOp ℕ) :=
  [.write 1 .max (some 4567), .write 1 .min (some 9999), .write 2 .max (some 100), .sysctl 0 512]

theorem percent_reads_back_writeMax :
    let s := lastState (GroupState.execStep chain 5) (bootGroups chain 5) writeMax
    cpuUclampPrint s 1 .max = some 4567 ∧ cpuUclampPrint s 1 .min = none := by
  refine ⟨?_, by decide +kernel⟩
  have hrun : Run (GroupState.Steps chain 5) (bootGroups chain 5)
      ((.write 1 .max (some 4567), 0) :: [(.write 1 .min (some 9999), 0),
        (.write 2 .max (some 100), 0), (.sysctl 0 512, 0)])
      (lastState (GroupState.execStep chain 5) (bootGroups chain 5) writeMax) :=
    lastState_run GroupState.steps_of_execStep (by decide +kernel)
  obtain ⟨t, hstep, hrest⟩ := Run.cons_iff.mp hrun
  exact percent_reads_back hstep hrest (by simp)

end LinuxOs2022.Scheduler
