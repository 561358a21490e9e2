import LinuxOs2022.Scheduler.CfsNested

/-!
# Writers of CPU bandwidths

The limits stay nested on the old hierarchy, whatever writers do at the same time. What a
writer has read before it takes the mutex is stored with its own value, and undoes what others
have stored meanwhile.
-/

namespace LinuxOs2022.Scheduler

open Library CfsBandwidth

universe u

variable {Tg : Type u} [DecidableEq Tg] {Caller : Type} [DecidableEq Caller]
  {g : TaskGroups Tg} {onDfl : Bool} {bw : Tg → CfsBandwidth} {tg x : Tg} {period quota : ℕ}
  {s s₁ s₂ s₃ : CfsState Tg Caller} {c : Caller} {call : CfsCall Tg} {ret : ℤ}
  {op : CfsOp Tg Caller} {result : Option ℤ} {es : List (CfsOp Tg Caller × Option ℤ)}

/-! ## One call -/

/-- The visit reaches the groups below the root with these facts. -/
structure Visited (g : TaskGroups Tg) (onDfl : Bool) (tg : Tg) (period quota : ℕ)
    (bw : Tg → CfsBandwidth) (r : ℤ × (Tg → CfsBandwidth)) : Prop where
  same : SameValues bw r.2
  error : r.1 = 0 ∨ r.1 = -einval
  accepts : r.1 = 0 ↔ (onDfl = false → Nested g (withBandwidth tg period quota bw))
  inherits : onDfl = false → r.1 = 0 →
    Forest.Inherits (fun x => (withBandwidth tg period quota bw x).ratio) (inherited r.2) ⊤ g.kids
  unlimited : onDfl = true → ∀ x, Forest.Mem x g.tree → (r.2 x).hierarchicalQuota = -1

theorem AllInRange.withBandwidth (hbw : AllInRange bw) (h : InRange period quota) (tg : Tg) :
    AllInRange (withBandwidth tg period quota bw) := by
  intro x
  obtain rfl | hx := eq_or_ne x tg
  · rw [withBandwidth_self]
    exact h
  · rw [withBandwidth_of_ne hx]
    exact hbw x

theorem cfsSchedulable_visited (g : TaskGroups Tg) (onDfl : Bool) (tg : Tg)
    (hbw : AllInRange bw) (h : InRange period quota) :
    ∃ r, cfsSchedulable g onDfl tg period quota bw = some r ∧
      Visited g onDfl tg period quota bw r := by
  refine ⟨_, cfsSchedulable_eq onDfl tg period quota bw, ?_⟩
  generalize hbw₁ : setHierarchicalQuota g.root (-1) bw = bw₁
  have hroot : (bw₁ g.root).hierarchicalQuota = -1 := by
    rw [← hbw₁, setHierarchicalQuota, Function.update_self]
  have hsame : SameValues bw bw₁ :=
    hbw₁ ▸ SameValues.setHierarchicalQuota (fun _ => ⟨rfl, rfl⟩) _ _
  have hfinds := (finds_asked tg hbw h).congr hsame
  obtain ⟨hkept, hframe⟩ :=
    walk_frame onDfl g.links (cfsSchedulableData tg period quota) g.kids bw₁
  obtain ⟨-, -, -, hlinked, -⟩ := g.linked
  obtain ⟨hnot, -, -, hapart, -⟩ := g.apart
  have hvalues : SameValues bw (g.kids.walk (tgCfsSchedulableDown onDfl g.links
      (cfsSchedulableData tg period quota)) tgNop bw₁).2 := fun x =>
    ⟨(hkept x).1.trans (hsame x).1, (hkept x).2.trans (hsame x).2⟩
  cases onDfl with
  | true =>
      obtain ⟨hret, hall⟩ := walk_onDfl hlinked hapart hnot hroot hfinds
      have hnew : ¬ true = false := by decide
      refine ⟨hvalues, .inl hret, iff_of_true hret fun h => (hnew h).elim,
        fun h => (hnew h).elim, fun _ x hx => ?_⟩
      obtain rfl | hx | hx := hx
      · rw [hframe _ hnot, hroot]
      · exact hall x hx
      · exact hx.elim
  | false =>
      obtain ⟨hbad, hgood⟩ := walk_schedulable hlinked hapart hnot hroot small_top
        (fun x => small_ratio (hbw.withBandwidth h tg x)) hfinds
      have hold : ¬ false = true := by decide
      by_cases hfit : Forest.Fits (fun x => (withBandwidth tg period quota bw x).ratio) ⊤ g.kids
      · obtain ⟨hret, hinherits⟩ := hgood hfit
        exact ⟨hvalues, .inl hret, iff_of_true hret fun _ => fits_iff_nested.mp hfit,
          fun _ _ => hinherits, fun h => (hold h).elim⟩
      · have hret := hbad hfit
        have hne : ¬ -einval = (0 : ℤ) := by decide
        exact ⟨hvalues, .inr hret,
          iff_of_false (hret ▸ hne) fun hnested => hfit (fits_iff_nested.mpr (hnested rfl)),
          fun _ h => (hne (hret ▸ h)).elim, fun h => (hold h).elim⟩

/-- Everything that a call of `tg_set_cfs_bandwidth` does. -/
structure Committed (g : TaskGroups Tg) (onDfl : Bool) (tg : Tg) (period quota : ℕ)
    (bw : Tg → CfsBandwidth) (ret : ℤ) (bw' : Tg → CfsBandwidth) : Prop where
  error : ret = 0 ∨ ret = -einval
  accepts : ret = 0 ↔ tg ≠ g.root ∧ InRange period quota ∧
    (onDfl = false → Nested g (withBandwidth tg period quota bw))
  stores : ret = 0 → SameValues (withBandwidth tg period quota bw) bw'
  keeps : ret ≠ 0 → SameValues bw bw'
  inherits : onDfl = false → ret = 0 →
    Forest.Inherits (fun x => (bw' x).ratio) (inherited bw') ⊤ g.kids
  unlimited : onDfl = true → ret = 0 →
    ∀ x, Forest.Mem x g.tree → (bw' x).hierarchicalQuota = -1

theorem tgSetCfsBandwidth_committed (g : TaskGroups Tg) (onDfl : Bool) (hbw : AllInRange bw)
    (tg : Tg) (period quota : ℕ) :
    ∃ ret bw', tgSetCfsBandwidth g onDfl tg period quota bw = some (ret, bw') ∧
      Committed g onDfl tg period quota bw ret bw' := by
  have hne : ¬ -einval = (0 : ℤ) := by decide
  by_cases h : tg ≠ g.root ∧ InRange period quota
  · obtain ⟨r, hr, hv⟩ := cfsSchedulable_visited g onDfl tg hbw h.2
    rw [tgSetCfsBandwidth_of_inRange onDfl h.1 h.2, hr]
    obtain hret | hret := hv.error
    · refine ⟨0, _, congrArg some (if_neg (not_not.mpr hret)), ?_⟩
      have hstored : SameValues (withBandwidth tg period quota bw)
          (withBandwidth tg period quota r.2) := by
        intro x
        obtain rfl | hx := eq_or_ne x tg
        · rw [withBandwidth_self, withBandwidth_self]
          exact ⟨rfl, rfl⟩
        · rw [withBandwidth_of_ne hx, withBandwidth_of_ne hx]
          exact hv.same x
      have hhierarchical (x : Tg) : (withBandwidth tg period quota r.2 x).hierarchicalQuota =
          (r.2 x).hierarchicalQuota := by
        obtain rfl | hx := eq_or_ne x tg
        · rw [withBandwidth_self]
        · rw [withBandwidth_of_ne hx]
      refine ⟨.inl rfl, iff_of_true rfl ⟨h.1, h.2, hv.accepts.mp hret⟩, fun _ => hstored,
        fun h => (h rfl).elim, fun hold _ => ?_, fun hdfl _ x hx => ?_⟩
      · have hratio : (fun x => (withBandwidth tg period quota r.2 x).ratio) =
            fun x => (withBandwidth tg period quota bw x).ratio := funext hstored.ratio_eq
        rw [hratio]
        exact (hv.inherits hold hret).congr fun x _ => congrArg boundOf (hhierarchical x)
      · rw [hhierarchical]
        exact hv.unlimited hdfl x hx
    · have hbad : r.1 ≠ 0 := hret ▸ hne
      refine ⟨r.1, r.2, congrArg some (if_pos hbad), .inr hret, ?_, fun h => (hbad h).elim,
        fun _ => hv.same, fun _ h => (hbad h).elim, fun _ h => (hbad h).elim⟩
      exact iff_of_false hbad fun hgood => hbad (hv.accepts.mpr hgood.2.2)
  · exact ⟨-einval, bw, tgSetCfsBandwidth_of_bad onDfl h, .inr rfl,
      iff_of_false hne fun hgood => h ⟨hgood.1, hgood.2.1⟩, fun h => (hne h).elim,
      fun _ _ => ⟨rfl, rfl⟩, fun _ h => (hne h).elim, fun _ h => (hne h).elim⟩

/-! ## Runs -/

/-- All values are in range, and nested on the old hierarchy. -/
structure CfsOk (g : TaskGroups Tg) (onDfl : Bool) (s : CfsState Tg Caller) : Prop where
  inRange : AllInRange s.bw
  nested : onDfl = false → Nested g s.bw

namespace CfsState

/-- A step that is no commit changes no bandwidth and no call but its own. -/
theorem step_begin (h : s.Steps g onDfl (op, result) s₁) (hop : ∀ c, op ≠ .commit c) :
    s₁.bw = s.bw ∧ ∀ c, c ≠ op.caller → s₁.call c = s.call c := by
  have hbegin (c : Caller) (call : CfsCall Tg) :
      (s.begin c call).bw = s.bw ∧ ∀ c', c' ≠ c → (s.begin c call).call c' = s.call c' :=
    ⟨rfl, fun _ hc => Function.update_of_ne hc _ _⟩
  cases op with
  | setQuota c tg us =>
      dsimp only [Steps, step] at h
      split at h
      · cases h
      split at h
      · cases h
        exact hbegin _ _
      split at h
      · cases h
        exact hbegin _ _
      · cases h
        exact ⟨rfl, fun _ _ => rfl⟩
  | setPeriod c tg us =>
      dsimp only [Steps, step] at h
      split at h
      · cases h
      split at h
      · cases h
        exact ⟨rfl, fun _ _ => rfl⟩
      · cases h
        exact hbegin _ _
  | maxWrite c tg quotaUs periodUs =>
      dsimp only [Steps, step] at h
      split at h
      · cases h
      · cases h
        exact hbegin _ _
  | commit c => exact (hop c rfl).elim

/-- A commit makes its call. -/
theorem step_commit (h : s.Steps g onDfl (.commit c, result) s₁) :
    ∃ call ret, s.call c = some call ∧ result = some ret ∧
      tgSetCfsBandwidth g onDfl call.tg call.period call.quota s.bw = some (ret, s₁.bw) ∧
      s₁.call = Function.update s.call c none := by
  dsimp only [Steps, step] at h
  split at h
  · cases h
  next call hcall =>
    obtain ⟨⟨ret, bw'⟩, hset, heq⟩ := Option.map_eq_some_iff.mp h
    obtain ⟨hresult, rfl⟩ := Prod.mk.inj heq
    exact ⟨call, ret, hcall, hresult.symm, hset, rfl⟩

/-- With values in range it does what a call does. -/
theorem step_committed (hs : AllInRange s.bw) (h : s.Steps g onDfl (.commit c, some ret) s₁) :
    ∃ call, s.call c = some call ∧
      Committed g onDfl call.tg call.period call.quota s.bw ret s₁.bw := by
  obtain ⟨call, ret', hcall, hret, hset, -⟩ := step_commit h
  obtain rfl := Option.some.inj hret
  obtain ⟨ret', bw', hset', hcommit⟩ :=
    tgSetCfsBandwidth_committed g onDfl hs call.tg call.period call.quota
  obtain ⟨rfl, rfl⟩ := Prod.mk.inj (Option.some.inj (hset'.symm.trans hset))
  exact ⟨call, hcall, hcommit⟩

/-- Every call can be committed. -/
theorem committed_step (hs : AllInRange s.bw) (hcall : s.call c = some call) :
    ∃ ret s₁, s.Steps g onDfl (.commit c, some ret) s₁ ∧
      Committed g onDfl call.tg call.period call.quota s.bw ret s₁.bw := by
  obtain ⟨ret, bw', hset, hcommit⟩ :=
    tgSetCfsBandwidth_committed g onDfl hs call.tg call.period call.quota
  refine ⟨ret, ⟨bw', Function.update s.call c none⟩, ?_, hcommit⟩
  dsimp only [Steps, step]
  rw [hcall]
  dsimp only
  rw [hset]
  rfl

end CfsState

omit [DecidableEq Tg] in
theorem SameValues.inRange {bw' : Tg → CfsBandwidth} (h : SameValues bw bw')
    (hbw : AllInRange bw) : AllInRange bw' := fun x => by
  rw [(h x).1, (h x).2]
  exact hbw x

omit [DecidableEq Tg] in
theorem SameValues.nested {bw' : Tg → CfsBandwidth} (h : SameValues bw bw')
    (hbw : Nested g bw) : Nested g bw' := fun a x hax => by
  rw [h.ratio_eq, h.ratio_eq]
  exact hbw a x hax

/-- Every step keeps the limits in range and nested. -/
theorem CfsOk.step (hs : CfsOk g onDfl s) (h : s.Steps g onDfl (op, result) s₁) :
    CfsOk g onDfl s₁ := by
  by_cases hop : ∃ c, op = .commit c
  · obtain ⟨c, rfl⟩ := hop
    obtain ⟨-, ret, -, rfl, -⟩ := CfsState.step_commit h
    obtain ⟨call, -, hcommit⟩ := CfsState.step_committed hs.inRange h
    by_cases hret : ret = 0
    · obtain ⟨-, hin, hnested⟩ := hcommit.accepts.mp hret
      have hstored := hcommit.stores hret
      exact ⟨hstored.inRange (hs.inRange.withBandwidth hin call.tg),
        fun hold => hstored.nested (hnested hold)⟩
    · have hkept := hcommit.keeps hret
      exact ⟨hkept.inRange hs.inRange, fun hold => hkept.nested (hs.nested hold)⟩
  · obtain ⟨hbw, -⟩ := CfsState.step_begin h fun c hc => hop ⟨c, hc⟩
    exact ⟨hbw ▸ hs.inRange, fun hold => hbw ▸ hs.nested hold⟩

omit [DecidableEq Tg] [DecidableEq Caller] in
theorem CfsState.Unlimited.ok (hs : s.Unlimited) : CfsOk g onDfl s := by
  constructor
  · intro x
    refine ⟨(hs.period x).1, (hs.period x).2, ?_, .inl (hs.quota x)⟩
    rw [hs.quota x]
    decide
  · exact fun _ _ x _ => .inl (if_pos (hs.quota x))

/-- The limits are in range and nested in every state of every run. -/
theorem run_cfsOk (hs : s.Unlimited) (h : Run (CfsState.Steps g onDfl) s es s₁) :
    CfsOk g onDfl s₁ :=
  h.invariant (fun _ _ _ hs h => hs.step h) hs.ok

namespace CfsState

/-- A step that can be computed. -/
def execStep (g : TaskGroups Tg) (onDfl : Bool) (s : CfsState Tg Caller) (op : CfsOp Tg Caller) :
    Option ((CfsOp Tg Caller × Option ℤ) × CfsState Tg Caller) :=
  (s.step g onDfl op).map fun e => ((op, e.1), e.2)

theorem steps_of_execStep (s : CfsState Tg Caller) (op : CfsOp Tg Caller)
    (e : CfsOp Tg Caller × Option ℤ) (s' : CfsState Tg Caller)
    (h : s.execStep g onDfl op = some (e, s')) : s.Steps g onDfl e s' := by
  obtain ⟨⟨result, t⟩, hstep, heq⟩ := Option.map_eq_some_iff.mp h
  obtain ⟨rfl, rfl⟩ := Prod.mk.inj heq
  exact hstep

end CfsState

/-- No limits, and periods of 100 ms. -/
def unlimitedCfs : CfsState ℕ Bool where
  bw := fun _ => ⟨100000000, runtimeInf, 0⟩
  call := fun _ => none

theorem unlimitedCfs_unlimited : unlimitedCfs.Unlimited :=
  ⟨fun _ => rfl, fun _ =>
    (by decide : minCfsQuotaPeriod ≤ 100000000 ∧ 100000000 ≤ maxCfsQuotaPeriod), fun _ => rfl⟩

/-- Group 1 gets one half of a CPU, and a writer asks for more for group 2. -/
def limitParent : List (CfsOp ℕ Bool) :=
  [.setQuota false 1 50000, .commit false, .setQuota true 2 60000]

theorem limitParent_run (onDfl : Bool) :
    Run (CfsState.Steps chain onDfl) unlimitedCfs (limitParent.zip [none, some 0, none])
      (lastState (CfsState.execStep chain onDfl) unlimitedCfs limitParent) := by
  apply lastState_run CfsState.steps_of_execStep
  revert onDfl
  decide +kernel

/-- On the default hierarchy, every call with values in range is carried out, and no limit is
handed down: after it all groups count as groups without limit. -/
theorem limits_not_handed_down (hs : s.Unlimited) (h : Run (CfsState.Steps g true) s es s₁)
    (hcall : s₁.call c = some call) :
    ∃ ret s₂, s₁.Steps g true (.commit c, some ret) s₂ ∧
      (ret = 0 ↔ call.tg ≠ g.root ∧ InRange call.period call.quota) ∧
      (ret = 0 → SameValues (withBandwidth call.tg call.period call.quota s₁.bw) s₂.bw ∧
        ∀ x, Forest.Mem x g.tree → inherited s₂.bw x = ⊤) := by
  have hok := run_cfsOk hs h
  obtain ⟨ret, s₂, hstep, hcommit⟩ := CfsState.committed_step (g := g) hok.inRange hcall
  refine ⟨ret, s₂, hstep, ?_, ?_⟩
  · exact hcommit.accepts.trans (by simp)
  · exact fun hret =>
      ⟨hcommit.stores hret, fun x hx => if_pos (hcommit.unlimited rfl hret x hx)⟩

theorem limits_not_handed_down_limitParent :
    let s := lastState (CfsState.execStep chain true) unlimitedCfs limitParent
    (∃ ret s₂, s.Steps chain true (.commit true, some ret) s₂ ∧
      (ret = 0 ↔ 2 ≠ chain.root ∧ InRange 100000000 60000000) ∧
      (ret = 0 → SameValues (withBandwidth 2 100000000 60000000 s.bw) s₂.bw ∧
        ∀ x, Forest.Mem x chain.tree → inherited s₂.bw x = ⊤)) ∧
    (s.bw 1).quota = 50000000 ∧
      (tgSetCfsBandwidth chain true 2 100000000 60000000 s.bw).map Prod.fst = some 0 :=
  ⟨limits_not_handed_down unlimitedCfs_unlimited (limitParent_run true)
      (show (lastState (CfsState.execStep chain true) unlimitedCfs limitParent).call true =
        some ⟨2, 100000000, 60000000⟩ by decide +kernel),
    by decide +kernel⟩

/-! ## Two writers -/

/-- A call stays as it is until its writer goes on. -/
theorem call_kept (h : Run (CfsState.Steps g onDfl) s es s₁) (hc : ∀ e ∈ es, e.1.caller ≠ c) :
    s₁.call c = s.call c := by
  induction h with
  | nil s => rfl
  | @cons s t r e es h _ ih =>
      obtain ⟨op, result⟩ := e
      have hne : c ≠ op.caller := (hc _ List.mem_cons_self).symm
      rw [ih fun e he => hc e (List.mem_cons_of_mem _ he)]
      by_cases hop : ∃ c', op = .commit c'
      · obtain ⟨c', rfl⟩ := hop
        obtain ⟨-, -, -, -, -, hcall⟩ := CfsState.step_commit h
        have hne : c ≠ c' := hne
        rw [hcall, Function.update_of_ne hne]
      · exact (CfsState.step_begin h fun c' hc' => hop ⟨c', hc'⟩).2 c hne

/-- An accepted commit stores what its call has asked for. -/
theorem commit_stores (h : s.Steps g onDfl (.commit c, some 0) s₁)
    (hcall : s.call c = some call) (hbw : AllInRange s.bw) :
    (s₁.bw call.tg).period = call.period ∧ (s₁.bw call.tg).quota = call.quota := by
  obtain ⟨call', hcall', hcommit⟩ := CfsState.step_committed hbw h
  obtain rfl := Option.some.inj (hcall.symm.trans hcall')
  have hstored := hcommit.stores rfl call.tg
  rw [withBandwidth_self] at hstored
  exact hstored

/-- A call that is carried out stores what it has asked for when it began. -/
theorem write_stores (hs : CfsOk g onDfl s) (hmid : Run (CfsState.Steps g onDfl) s es s₁)
    (hother : ∀ e ∈ es, e.1.caller ≠ c) (hcommit : s₁.Steps g onDfl (.commit c, some 0) s₂)
    (hcall : s.call c = some call) :
    (s₂.bw call.tg).period = call.period ∧ (s₂.bw call.tg).quota = call.quota ∧
      InRange call.period call.quota := by
  have hok : CfsOk g onDfl s₁ := hmid.invariant (fun _ _ _ hs h => hs.step h) hs
  obtain ⟨hperiod, hquota⟩ :=
    commit_stores hcommit ((call_kept hmid hother).trans hcall) hok.inRange
  have hin := (hok.step hcommit).inRange call.tg
  rw [hperiod, hquota] at hin
  exact ⟨hperiod, hquota, hin⟩

namespace CfsState

theorem setQuota_call {us : ℤ} (h : s.Steps g onDfl (.setQuota c tg us, none) s₁) :
    s₁.call c = some ⟨tg, (s.bw tg).period,
        if us < 0 then runtimeInf else us.toNat * nsecPerUsec⟩ ∧
      (0 ≤ us → us.toNat ≤ (2 ^ 64 - 1) / nsecPerUsec) := by
  dsimp only [Steps, step] at h
  split at h
  · cases h
  split at h
  next hneg =>
    cases h
    rw [if_pos hneg]
    exact ⟨Function.update_self _ _ _, fun hpos => (hpos.not_gt hneg).elim⟩
  next hneg =>
    split at h
    next hle =>
      cases h
      rw [if_neg hneg]
      exact ⟨Function.update_self _ _ _, fun _ => hle⟩
    next => cases h

theorem setPeriod_call {us : ℤ} (h : s.Steps g onDfl (.setPeriod c tg us, none) s₁) :
    s₁.call c = some ⟨tg, u64 us * nsecPerUsec, (s.bw tg).quota⟩ := by
  dsimp only [Steps, step] at h
  split at h
  · cases h
  split at h
  · cases h
  · cases h
    exact Function.update_self _ _ _

theorem maxWrite_call {quotaUs periodUs : Option ℕ}
    (h : s.Steps g onDfl (.maxWrite c tg quotaUs periodUs, none) s₁) :
    s₁.call c = some ⟨tg,
      (periodQuotaParse (u64 (s.bw tg).getCfsPeriod) quotaUs periodUs).1,
      (periodQuotaParse (u64 (s.bw tg).getCfsPeriod) quotaUs periodUs).2⟩ := by
  dsimp only [Steps, step] at h
  split at h
  · cases h
  · cases h
    exact Function.update_self _ _ _

end CfsState

/-- A write of the quota that is carried out restores the period that was there when it began,
whatever others have stored meanwhile, and a write of the period restores the quota. -/
theorem stale_value_restored (hs : s.Unlimited) (h : Run (CfsState.Steps g onDfl) s es s₁)
    {es' : List (CfsOp Tg Caller × Option ℤ)} {s₄ : CfsState Tg Caller}
    (hstart : s₁.Steps g onDfl (op, none) s₂) (hmid : Run (CfsState.Steps g onDfl) s₂ es' s₃)
    (hother : ∀ e ∈ es', e.1.caller ≠ c)
    (hcommit : s₃.Steps g onDfl (.commit c, some 0) s₄) :
    (∀ us, op = .setQuota c tg us → (s₄.bw tg).period = (s₁.bw tg).period) ∧
      ∀ us, op = .setPeriod c tg us → (s₄.bw tg).quota = (s₁.bw tg).quota := by
  have hok : CfsOk g onDfl s₂ := (run_cfsOk hs h).step hstart
  constructor
  · rintro us rfl
    exact (write_stores hok hmid hother hcommit (CfsState.setQuota_call hstart).1).1
  · rintro us rfl
    exact (write_stores hok hmid hother hcommit (CfsState.setPeriod_call hstart)).2.1

/-- One writer sets the quota of group 1, and another one meanwhile its period. -/
def twoWriters : List (CfsOp ℕ Bool) :=
  [.setQuota false 1 50000, .setPeriod true 1 200000, .commit true]

theorem stale_value_restored_twoWriters :
    let s := lastState (CfsState.execStep chain false) unlimitedCfs twoWriters
    let s' := lastState (CfsState.execStep chain false) unlimitedCfs
      (twoWriters ++ [CfsOp.commit false])
    (s.bw 1).period = 200000000 ∧ (s'.bw 1).period = 100000000 := by
  refine ⟨by decide +kernel, ?_⟩
  have hrun : Run (CfsState.Steps chain false) unlimitedCfs
      ([] ++ (.setQuota false 1 50000, none) ::
        ([(.setPeriod true 1 200000, none), (.commit true, some 0)] ++ [(.commit false, some 0)]))
      (lastState (CfsState.execStep chain false) unlimitedCfs
        (twoWriters ++ [CfsOp.commit false])) :=
    lastState_run CfsState.steps_of_execStep (by decide +kernel)
  obtain ⟨s₁, s₂, s₃, hpre, hstart, hmid, hcommit⟩ := hrun.window
  cases hpre with
  | nil =>
      exact (stale_value_restored unlimitedCfs_unlimited (.nil _) hstart hmid
        (by simp [CfsOp.caller]) hcommit).1 _ rfl

theorem getCfsPeriod_of_inRange {b : CfsBandwidth} (h : InRange b.period b.quota) :
    b.getCfsPeriod = (b.period / nsecPerUsec : ℕ) := by
  have hmax := h.maxPeriod
  unfold maxCfsQuotaPeriod at hmax
  exact s64_of_lt ((Nat.div_le_self _ _).trans_lt (by omega))

theorem getCfsQuota_of_lt {b : CfsBandwidth} (h : InRange b.period b.quota)
    (hlimited : b.quota ≠ runtimeInf) : b.getCfsQuota = (b.quota / nsecPerUsec : ℕ) := by
  have hmax := h.maxQuota.resolve_left hlimited
  unfold maxCfsRuntime maxBw bwShift nsecPerUsec at hmax
  rw [getCfsQuota, if_neg hlimited]
  apply s64_of_lt
  unfold nsecPerUsec
  omega

/-- A value that is accepted from `cpu.cfs_quota_us` or `cpu.cfs_period_us` reads back as it was
written. Values from `cpu.max` do so exactly when the conversion to nanoseconds does not
overflow. -/
theorem accepted_reads_back (hs : s.Unlimited) (h : Run (CfsState.Steps g onDfl) s es s₁)
    {es' : List (CfsOp Tg Caller × Option ℤ)} {s₄ : CfsState Tg Caller}
    (hstart : s₁.Steps g onDfl (op, none) s₂) (hmid : Run (CfsState.Steps g onDfl) s₂ es' s₃)
    (hother : ∀ e ∈ es', e.1.caller ≠ c)
    (hcommit : s₃.Steps g onDfl (.commit c, some 0) s₄) :
    (∀ us, op = .setQuota c tg us → (s₄.bw tg).getCfsQuota = if us < 0 then -1 else us) ∧
      (∀ us, op = .setPeriod c tg us → (s₄.bw tg).getCfsPeriod = u64 us) ∧
      ∀ q p : ℕ, op = .maxWrite c tg (some q) (some p) →
        ((s₄.bw tg).getCfsPeriod = p ∧ (s₄.bw tg).getCfsQuota = q ↔
          p * nsecPerUsec < 2 ^ 64 ∧ q * nsecPerUsec < 2 ^ 64) := by
  have hok : CfsOk g onDfl s₂ := (run_cfsOk hs h).step hstart
  refine ⟨?_, ?_, ?_⟩
  · rintro us rfl
    obtain ⟨hcall, hle⟩ := CfsState.setQuota_call hstart
    obtain ⟨hperiod, hquota, hin⟩ := write_stores hok hmid hother hcommit hcall
    dsimp only at hperiod hquota hin
    rw [← hperiod, ← hquota] at hin
    split at hquota
    next hneg => rw [getCfsQuota, if_pos hquota, if_pos hneg]
    next hneg =>
      have hle := hle (not_lt.mp hneg)
      have hlimited : (s₄.bw tg).quota ≠ runtimeInf := by
        unfold runtimeInf nsecPerUsec at *
        omega
      rw [getCfsQuota_of_lt hin hlimited, hquota, if_neg hneg, Nat.mul_div_cancel _ (by decide)]
      exact Int.toNat_of_nonneg (not_lt.mp hneg)
  · rintro us rfl
    obtain ⟨hperiod, hquota, hin⟩ :=
      write_stores hok hmid hother hcommit (CfsState.setPeriod_call hstart)
    dsimp only at hperiod hquota hin
    rw [← hperiod, ← hquota] at hin
    rw [getCfsPeriod_of_inRange hin, hperiod, Nat.mul_div_cancel _ (by decide)]
  · rintro q p rfl
    obtain ⟨hperiod, hquota, hin⟩ :=
      write_stores hok hmid hother hcommit (CfsState.maxWrite_call hstart)
    dsimp only at hperiod hquota hin
    rw [← hperiod, ← hquota] at hin
    dsimp only [CfsState.periodQuotaParse, Option.getD] at hperiod hquota
    have hlimited : (s₄.bw tg).quota ≠ runtimeInf := by
      unfold runtimeInf nsecPerUsec at *
      omega
    rw [getCfsPeriod_of_inRange hin, getCfsQuota_of_lt hin hlimited, hperiod, hquota,
      Nat.cast_inj, Nat.cast_inj]
    unfold nsecPerUsec
    omega

/-- A period of more than 500 years is taken for one of about 100 ms. -/
def longPeriod : List (CfsOp ℕ Bool) :=
  [.maxWrite false 1 (some 50000) (some 18446744073809552), .commit false]

theorem accepted_reads_back_longPeriod :
    let s := lastState (CfsState.execStep chain true) unlimitedCfs longPeriod
    ((s.bw 1).getCfsPeriod = 18446744073809552 ∧ (s.bw 1).getCfsQuota = 50000 ↔
      18446744073809552 * nsecPerUsec < 2 ^ 64 ∧ 50000 * nsecPerUsec < 2 ^ 64) ∧
    (s.bw 1).getCfsPeriod = 100000 := by
  refine ⟨?_, by decide +kernel⟩
  have hrun : Run (CfsState.Steps chain true) unlimitedCfs
      ([] ++ (.maxWrite false 1 (some 50000) (some 18446744073809552), none) ::
        ([] ++ [(.commit false, some 0)]))
      (lastState (CfsState.execStep chain true) unlimitedCfs longPeriod) :=
    lastState_run CfsState.steps_of_execStep (by decide +kernel)
  obtain ⟨s₁, s₂, s₃, hpre, hstart, hmid, hcommit⟩ := hrun.window
  cases hpre with
  | nil =>
      exact (accepted_reads_back unlimitedCfs_unlimited (.nil _) hstart hmid
        (fun _ he => (List.not_mem_nil he).elim) hcommit).2.2 _ _ rfl

end LinuxOs2022.Scheduler
