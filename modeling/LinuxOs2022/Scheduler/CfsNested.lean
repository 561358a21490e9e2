import LinuxOs2022.Scheduler.CfsBandwidth

/-!
# Limits that are handed down

On the old hierarchy a new limit is accepted when no group then has more than one of its
ancestors, and the visit leaves the least limit on the way from the root with every group. On
the default hierarchy the signed minimum takes the sign of no limit for the least value:
every limit is accepted, and none is handed down.
-/

namespace LinuxOs2022.Scheduler

open Library

universe u

/-! ## Numbers -/

theorem s64_of_lt {x : ℕ} (h : x < 2 ^ 63) : s64 x = x := by
  unfold s64
  rw [Int.bmod_def]
  omega

theorem s64_runtimeInf : s64 runtimeInf = -1 := by decide

theorem u64_natCast {x : ℕ} (h : x < 2 ^ 64) : u64 x = x := by
  unfold u64
  omega

theorem u64_neg_one : u64 (-1) = runtimeInf := by decide

/-- The `s64` that stands for a limit. -/
def limitOf : WithTop ℕ → ℤ
  | ⊤ => -1
  | (n : ℕ) => n

/-- The limit that an `s64` stands for. -/
def boundOf (z : ℤ) : WithTop ℕ := if z = -1 then ⊤ else (z.toNat : ℕ)

@[simp] theorem limitOf_top : limitOf ⊤ = -1 := rfl

@[simp] theorem limitOf_natCast (n : ℕ) : limitOf (n : WithTop ℕ) = n := rfl

@[simp] theorem boundOf_limitOf (b : WithTop ℕ) : boundOf (limitOf b) = b := by
  induction b with
  | top => rfl
  | coe n => exact if_neg (by simp)

theorem neg_one_le_limitOf (b : WithTop ℕ) : -1 ≤ limitOf b := by
  induction b with
  | top => exact le_rfl
  | coe n => exact (by decide : (-1 : ℤ) ≤ 0).trans (Int.natCast_nonneg n)

/-- The limit fits into an `s64`. -/
def Small (b : WithTop ℕ) : Prop := ∀ n : ℕ, b = n → n < 2 ^ 63

theorem small_top : Small ⊤ := fun _ h => (WithTop.top_ne_natCast _ h).elim

theorem Small.min {a b : WithTop ℕ} (ha : Small a) (hb : Small b) : Small (min a b) := by
  intro n hn
  obtain h | h := min_choice a b
  · exact ha n (h ▸ hn)
  · exact hb n (h ▸ hn)

theorem u64_limitOf_iff {b : WithTop ℕ} (hb : Small b) : u64 (limitOf b) = runtimeInf ↔ b = ⊤ := by
  induction b with
  | top => exact iff_of_true u64_neg_one rfl
  | coe n =>
      have hn := hb n rfl
      apply iff_of_false
      · intro h
        have heq : u64 (n : ℤ) = n := u64_natCast (by omega)
        have hinf : n = runtimeInf := heq.symm.trans h
        rw [hinf] at hn
        exact absurd hn (by decide)
      · exact WithTop.natCast_ne_top n

/-! ## The limit of a group -/

namespace CfsBandwidth

/-- The values that `tg_set_cfs_bandwidth` lets pass. -/
structure InRange (period quota : ℕ) : Prop where
  minPeriod : minCfsQuotaPeriod ≤ period
  maxPeriod : period ≤ maxCfsQuotaPeriod
  minQuota : minCfsQuotaPeriod ≤ quota
  maxQuota : quota = runtimeInf ∨ quota ≤ maxCfsRuntime

/-- What a group may use, where its limit is less than one CPU below `2 ^ 20`. -/
def ratio (b : CfsBandwidth) : WithTop ℕ :=
  if b.quota = runtimeInf then ⊤
  else (b.quota / nsecPerUsec * 2 ^ bwShift / (b.period / nsecPerUsec) : ℕ)

end CfsBandwidth

open CfsBandwidth

/-- With values in range the shift does not overflow, and the quotient is no negative `s64`. -/
theorem toRatio_eq {period quota : ℕ} (hp : minCfsQuotaPeriod ≤ period)
    (hq : quota ≤ maxCfsRuntime) :
    toRatio (period / nsecPerUsec) (quota / nsecPerUsec) =
        quota / nsecPerUsec * 2 ^ bwShift / (period / nsecPerUsec) ∧
      quota / nsecPerUsec * 2 ^ bwShift / (period / nsecPerUsec) < 2 ^ 63 := by
  have hquota : quota / nsecPerUsec ≤ 2 ^ 44 - 1 :=
    Nat.div_le_of_le_mul (by simpa [maxCfsRuntime, maxBw, bwShift, mul_comm] using hq)
  have hperiod : 1000 ≤ period / nsecPerUsec :=
    (Nat.le_div_iff_mul_le (by decide)).mpr (by simpa [minCfsQuotaPeriod, nsecPerUsec] using hp)
  have hshift : quota / nsecPerUsec * 2 ^ bwShift < 2 ^ 64 := by
    unfold bwShift
    omega
  constructor
  · rw [toRatio, if_neg (by unfold runtimeInf; omega), if_neg (by omega),
      Nat.mod_eq_of_lt hshift]
  · exact Nat.div_lt_of_lt_mul (by omega)

theorem small_ratio {b : CfsBandwidth} (h : InRange b.period b.quota) : Small b.ratio := by
  intro n hn
  unfold ratio at hn
  split at hn
  next => exact (WithTop.top_ne_natCast _ hn).elim
  next hlimited =>
    obtain rfl := WithTop.coe_injective hn
    exact (toRatio_eq h.minPeriod (h.maxQuota.resolve_left hlimited)).2

section Tree

variable {Tg : Type u} [DecidableEq Tg]

/-- The groups with new values for one of them. -/
def withBandwidth (tg : Tg) (period quota : ℕ) (bw : Tg → CfsBandwidth) : Tg → CfsBandwidth :=
  Function.update bw tg { bw tg with period := period, quota := quota }

@[simp] theorem withBandwidth_self (tg : Tg) (period quota : ℕ)
    (bw : Tg → CfsBandwidth) :
    withBandwidth tg period quota bw tg = { bw tg with period := period, quota := quota } :=
  Function.update_self _ _ _

theorem withBandwidth_of_ne {tg x : Tg} (hx : x ≠ tg) (period quota : ℕ)
    (bw : Tg → CfsBandwidth) : withBandwidth tg period quota bw x = bw x :=
  Function.update_of_ne hx _ _

/-- Periods and quotas are the same. -/
def SameValues (bw bw' : Tg → CfsBandwidth) : Prop :=
  ∀ x, (bw' x).period = (bw x).period ∧ (bw' x).quota = (bw x).quota

/-- All values are in range. -/
def AllInRange (bw : Tg → CfsBandwidth) : Prop := ∀ x, InRange (bw x).period (bw x).quota

variable {bw bw' : Tg → CfsBandwidth} {tg x p : Tg} {period quota : ℕ}
  {d : CfsSchedulableData Tg} {q : Tg → WithTop ℕ} {b : WithTop ℕ} {links : Forest.Links Tg}
  {f : Forest Tg}

omit [DecidableEq Tg] in
theorem SameValues.ratio_eq (h : SameValues bw bw') (x : Tg) : (bw' x).ratio = (bw x).ratio := by
  rw [ratio, ratio, (h x).1, (h x).2]

theorem SameValues.setHierarchicalQuota (h : SameValues bw bw') (tg : Tg) (z : ℤ) :
    SameValues bw (setHierarchicalQuota tg z bw') := by
  intro x
  unfold Scheduler.setHierarchicalQuota
  obtain rfl | hx := eq_or_ne x tg
  · rw [Function.update_self]
    exact h x
  · rw [Function.update_of_ne hx]
    exact h x

theorem SameValues.down {onDfl : Bool} (h : SameValues bw bw') (tg : Tg) :
    SameValues bw (tgCfsSchedulableDown onDfl links d tg bw').2 := by
  unfold tgCfsSchedulableDown
  dsimp only
  split
  · exact h.setHierarchicalQuota _ _
  split
  · exact h.setHierarchicalQuota _ _
  split
  · exact h.setHierarchicalQuota _ _
  split
  · exact h
  · exact h.setHierarchicalQuota _ _

theorem down_of_ne {onDfl : Bool} (hx : x ≠ tg) :
    (tgCfsSchedulableDown onDfl links d tg bw).2 x = bw x := by
  have hset (z : ℤ) : setHierarchicalQuota tg z bw x = bw x := Function.update_of_ne hx _ _
  unfold tgCfsSchedulableDown
  dsimp only
  split
  · exact hset _
  split
  · exact hset _
  split
  · exact hset _
  split
  · rfl
  · exact hset _

/-- The walk leaves all periods and quotas, and what is not in the forest. -/
theorem walk_frame (onDfl : Bool) (links : Forest.Links Tg) (d : CfsSchedulableData Tg)
    (f : Forest Tg) (bw : Tg → CfsBandwidth) :
    SameValues bw (f.walk (tgCfsSchedulableDown onDfl links d) tgNop bw).2 ∧
      ∀ x, ¬ Forest.Mem x f →
        (f.walk (tgCfsSchedulableDown onDfl links d) tgNop bw).2 x = bw x := by
  constructor
  · apply Forest.walk_keeps (I := SameValues bw)
    · exact fun a _ s hs => hs.down a
    · exact fun _ _ _ hs => hs
    · exact fun _ => ⟨rfl, rfl⟩
  · intro x hx
    apply Forest.walk_keeps (I := fun s : Tg → CfsBandwidth => s x = bw x)
    · intro a ha s hs
      have hne : x ≠ a := fun h => hx (h ▸ ha)
      exact (down_of_ne hne).trans hs
    · exact fun _ _ _ hs => hs
    · rfl

/-! ## What the visit compares -/

/-- The visit finds these limits. -/
def Finds (d : CfsSchedulableData Tg) (q : Tg → WithTop ℕ) (bw : Tg → CfsBandwidth) : Prop :=
  ∀ x, s64 (normalizeCfsQuota x d bw) = limitOf (q x)

theorem Finds.congr (h : Finds d q bw) (hsame : SameValues bw bw') : Finds d q bw' := by
  intro x
  rw [← h x, normalizeCfsQuota, normalizeCfsQuota, getCfsPeriod, getCfsPeriod, getCfsQuota,
    getCfsQuota, (hsame x).1, (hsame x).2]

/-- The visit for a new limit finds that one, and the old ones elsewhere. -/
theorem finds_asked (tg : Tg) (hbw : AllInRange bw) (hasked : InRange period quota) :
    Finds (cfsSchedulableData tg period quota)
      (fun x => (withBandwidth tg period quota bw x).ratio) bw := by
  intro x
  have hlimited {period quota : ℕ} (h : InRange period quota) (hq : quota ≠ runtimeInf) :
      quota / nsecPerUsec < 2 ^ 63 ∧ quota / nsecPerUsec ≠ runtimeInf ∧
        period / nsecPerUsec < 2 ^ 63 := by
    have hle := h.maxQuota.resolve_left hq
    have hmax := h.maxPeriod
    unfold maxCfsRuntime maxBw bwShift nsecPerUsec at hle
    unfold maxCfsQuotaPeriod at hmax
    unfold nsecPerUsec runtimeInf
    omega
  obtain rfl | hx := eq_or_ne x tg
  · dsimp only
    rw [withBandwidth_self, ratio, normalizeCfsQuota, cfsSchedulableData]
    by_cases hq : quota = runtimeInf
    · simp [hq, s64_runtimeInf]
    · obtain ⟨-, hne, -⟩ := hlimited hasked hq
      obtain ⟨hratio, hsmall⟩ :=
        toRatio_eq hasked.minPeriod (hasked.maxQuota.resolve_left hq)
      simp [hq, hne, u64_neg_one, hratio, s64_of_lt hsmall]
  · dsimp only
    rw [withBandwidth_of_ne hx, ratio, normalizeCfsQuota, cfsSchedulableData]
    have htg : x ≠ (if quota ≠ runtimeInf then
        (⟨tg, period / nsecPerUsec, quota / nsecPerUsec⟩ : CfsSchedulableData Tg)
        else ⟨tg, period, quota⟩).tg := by
      split <;> exact hx
    rw [if_neg htg, if_neg htg, getCfsQuota, getCfsPeriod]
    by_cases hq : (bw x).quota = runtimeInf
    · simp [hq, u64_neg_one, s64_runtimeInf]
    · obtain ⟨hquota, hne, hperiod⟩ := hlimited (hbw x) hq
      obtain ⟨hratio, hsmall⟩ :=
        toRatio_eq (hbw x).minPeriod ((hbw x).maxQuota.resolve_left hq)
      rw [if_neg hq, if_neg hq, s64_of_lt hquota, s64_of_lt hperiod, u64_natCast (by omega),
        u64_natCast (by omega), u64_neg_one, if_neg (not_or.mpr ⟨hne, hne⟩), hratio,
        s64_of_lt hsmall, limitOf_natCast]

/-- The visit of a group with a parent. -/
theorem down_eq (onDfl : Bool) (hparent : links.parent x = some p)
    (hp : (bw p).hierarchicalQuota = limitOf b) (hfinds : Finds d q bw) :
    tgCfsSchedulableDown onDfl links d x bw =
      if onDfl then (0, setHierarchicalQuota x (min (limitOf (q x)) (limitOf b)) bw)
      else if u64 (limitOf (q x)) = runtimeInf then (0, setHierarchicalQuota x (limitOf b) bw)
      else if u64 (limitOf b) ≠ runtimeInf ∧ limitOf b < limitOf (q x) then (-einval, bw)
      else (0, setHierarchicalQuota x (limitOf (q x)) bw) := by
  rw [← hfinds x, ← hp, tgCfsSchedulableDown, hparent]

/-! ## The old hierarchy -/

theorem down_accepts (hparent : links.parent x = some p)
    (hp : (bw p).hierarchicalQuota = limitOf b) (hb : Small b) (hq : Small (q x))
    (hfinds : Finds d q bw) (hle : q x = ⊤ ∨ q x ≤ b) :
    tgCfsSchedulableDown false links d x bw =
      (0, setHierarchicalQuota x (limitOf (min (q x) b)) bw) := by
  rw [down_eq false hparent hp hfinds, if_neg Bool.false_ne_true]
  by_cases htop : q x = ⊤
  · rw [if_pos ((u64_limitOf_iff hq).mpr htop), htop, min_eq_right le_top]
  · have hle := hle.resolve_left htop
    rw [if_neg (htop ∘ (u64_limitOf_iff hq).mp), min_eq_left hle]
    apply if_neg
    rintro ⟨hlimited, hlt⟩
    obtain ⟨m, hm⟩ := WithTop.ne_top_iff_exists.mp htop
    obtain ⟨k, hk⟩ := WithTop.ne_top_iff_exists.mp (hlimited ∘ (u64_limitOf_iff hb).mpr)
    rw [← hm, ← hk] at hle hlt
    have hle : m ≤ k := WithTop.coe_le_coe.mp hle
    have hlt : (k : ℤ) < m := hlt
    omega

theorem down_rejects (hparent : links.parent x = some p)
    (hp : (bw p).hierarchicalQuota = limitOf b) (hb : Small b) (hq : Small (q x))
    (hfinds : Finds d q bw) (hle : ¬ (q x = ⊤ ∨ q x ≤ b)) :
    tgCfsSchedulableDown false links d x bw = (-einval, bw) := by
  obtain ⟨htop, hlt⟩ := not_or.mp hle
  have hlt := not_le.mp hlt
  rw [down_eq false hparent hp hfinds, if_neg Bool.false_ne_true,
    if_neg (htop ∘ (u64_limitOf_iff hq).mp)]
  apply if_pos
  refine ⟨hlt.ne_top ∘ (u64_limitOf_iff hb).mp, ?_⟩
  obtain ⟨m, hm⟩ := WithTop.ne_top_iff_exists.mp htop
  obtain ⟨k, hk⟩ := WithTop.ne_top_iff_exists.mp hlt.ne_top
  rw [← hm, ← hk] at hlt ⊢
  exact Int.ofNat_lt.mpr (WithTop.coe_lt_coe.mp hlt)

/-- The limits that are left with the groups. -/
def inherited (bw : Tg → CfsBandwidth) (x : Tg) : WithTop ℕ := boundOf (bw x).hierarchicalQuota

/-- The visit of a forest accepts the limits that fit below its parent, and hands them down. -/
theorem walk_schedulable (hf : Forest.Linked links (some p) f) (hapart : Forest.Apart f)
    (hpf : ¬ Forest.Mem p f) (hp : (bw p).hierarchicalQuota = limitOf b) (hb : Small b)
    (hq : ∀ x, Small (q x)) (hfinds : Finds d q bw) :
    let r := f.walk (tgCfsSchedulableDown false links d) tgNop bw
    (¬ Forest.Fits q b f → r.1 = -einval) ∧
      (Forest.Fits q b f → r.1 = 0 ∧ Forest.Inherits q (inherited r.2) b f) := by
  induction f generalizing p b bw with
  | nil => exact ⟨fun h => (h trivial).elim, fun _ => ⟨rfl, trivial⟩⟩
  | cons a kids sibs ihk ihs =>
      obtain ⟨-, -, hparent, hkids, hsibs⟩ := hf
      obtain ⟨hak, has, hks, hapartk, haparts⟩ := hapart
      obtain ⟨hpa, hpk, hps⟩ := not_or.mp hpf |>.imp id not_or.mp
      dsimp only
      rw [Forest.walk, Forest.Fits]
      by_cases hle : q a = ⊤ ∨ q a ≤ b
      · rw [down_accepts hparent hp hb (hq a) hfinds hle, Forest.andThen_of_eq rfl]
        dsimp only
        generalize hbw₁ : setHierarchicalQuota a (limitOf (min (q a) b)) bw = bw₁
        have ha : (bw₁ a).hierarchicalQuota = limitOf (min (q a) b) := by
          rw [← hbw₁, setHierarchicalQuota, Function.update_self]
        have hsame : SameValues bw bw₁ :=
          hbw₁ ▸ SameValues.setHierarchicalQuota (fun _ => ⟨rfl, rfl⟩) _ _
        have hkp : bw₁ p = bw p := hbw₁ ▸ Function.update_of_ne hpa _ _
        obtain ⟨hbadk, hgoodk⟩ :=
          ihk hkids hapartk hak ha ((hq a).min hb) (hfinds.congr hsame)
        obtain ⟨hsamek, hframek⟩ := walk_frame false links d kids bw₁
        generalize kids.walk (tgCfsSchedulableDown false links d) tgNop bw₁ = r₁ at *
        by_cases hfitk : Forest.Fits q (min (q a) b) kids
        · obtain ⟨hr₁, hinhk⟩ := hgoodk hfitk
          rw [Forest.andThen_of_eq hr₁, tgNop, Forest.andThen_of_eq rfl]
          have hp₁ : (r₁.2 p).hierarchicalQuota = limitOf b := by
            rw [hframek p hpk, hkp, hp]
          obtain ⟨hbads, hgoods⟩ := ihs hsibs haparts hps hp₁ hb
            ((hfinds.congr hsame).congr hsamek)
          obtain ⟨-, hframes⟩ := walk_frame false links d sibs r₁.2
          generalize sibs.walk (tgCfsSchedulableDown false links d) tgNop r₁.2 = r₂ at *
          constructor
          · exact fun hfit => hbads fun h => hfit ⟨hle, hfitk, h⟩
          · rintro ⟨-, -, hfits⟩
            obtain ⟨hr₂, hinhs⟩ := hgoods hfits
            refine ⟨hr₂, ?_, hinhk.congr fun x hx => ?_, hinhs⟩
            · rw [inherited, hframes a has, hframek a hak, ha, boundOf_limitOf]
            · rw [inherited, hframes x (hks x hx), inherited]
        · have hr₁ := hbadk hfitk
          rw [Forest.andThen_of_ne (by rw [hr₁]; decide)]
          exact ⟨fun _ => hr₁, fun h => (hfitk h.2.1).elim⟩
      · rw [down_rejects hparent hp hb (hq a) hfinds hle,
          Forest.andThen_of_ne (show -einval ≠ (0 : ℤ) by decide)]
        exact ⟨fun _ => rfl, fun h => (hle h.1).elim⟩

/-! ## The default hierarchy -/

/-- The visit of a forest below a group without limit accepts everything, and leaves all groups
without limit. -/
theorem walk_onDfl (hf : Forest.Linked links (some p) f) (hapart : Forest.Apart f)
    (hpf : ¬ Forest.Mem p f) (hp : (bw p).hierarchicalQuota = -1) (hfinds : Finds d q bw) :
    let r := f.walk (tgCfsSchedulableDown true links d) tgNop bw
    r.1 = 0 ∧ ∀ x, Forest.Mem x f → (r.2 x).hierarchicalQuota = -1 := by
  induction f generalizing p bw with
  | nil => exact ⟨rfl, fun _ h => h.elim⟩
  | cons a kids sibs ihk ihs =>
      obtain ⟨-, -, hparent, hkids, hsibs⟩ := hf
      obtain ⟨hak, has, hks, hapartk, haparts⟩ := hapart
      obtain ⟨hpa, hpk, hps⟩ := not_or.mp hpf |>.imp id not_or.mp
      have hdown : tgCfsSchedulableDown true links d a bw =
          (0, setHierarchicalQuota a (-1) bw) := by
        rw [down_eq (b := ⊤) true hparent hp hfinds, if_pos rfl, limitOf_top,
          min_eq_right (neg_one_le_limitOf _)]
      dsimp only
      rw [Forest.walk, hdown, Forest.andThen_of_eq rfl]
      dsimp only
      generalize hbw₁ : setHierarchicalQuota a (-1) bw = bw₁
      have ha : (bw₁ a).hierarchicalQuota = -1 := by
        rw [← hbw₁, setHierarchicalQuota, Function.update_self]
      have hsame : SameValues bw bw₁ :=
        hbw₁ ▸ SameValues.setHierarchicalQuota (fun _ => ⟨rfl, rfl⟩) _ _
      have hkp : bw₁ p = bw p := hbw₁ ▸ Function.update_of_ne hpa _ _
      obtain ⟨hr₁, hall₁⟩ := ihk hkids hapartk hak ha (hfinds.congr hsame)
      obtain ⟨hsamek, hframek⟩ := walk_frame true links d kids bw₁
      generalize kids.walk (tgCfsSchedulableDown true links d) tgNop bw₁ = r₁ at *
      rw [Forest.andThen_of_eq hr₁, tgNop, Forest.andThen_of_eq rfl]
      have hp₁ : (r₁.2 p).hierarchicalQuota = -1 := by rw [hframek p hpk, hkp, hp]
      obtain ⟨hr₂, hall₂⟩ :=
        ihs hsibs haparts hps hp₁ ((hfinds.congr hsame).congr hsamek)
      obtain ⟨-, hframes⟩ := walk_frame true links d sibs r₁.2
      refine ⟨hr₂, ?_⟩
      rintro x (rfl | hx | hx)
      · rw [hframes x has, hframek x hak, ha]
      · rw [hframes x (hks x hx), hall₁ x hx]
      · exact hall₂ x hx

/-! ## `tg_set_cfs_bandwidth` -/

variable (g : TaskGroups Tg)

/-- No group below the root has more than one of its ancestors. -/
def Nested (bw : Tg → CfsBandwidth) : Prop :=
  ∀ a x, Forest.Above a x g.kids → (bw x).ratio = ⊤ ∨ (bw x).ratio ≤ (bw a).ratio

variable {g}

omit [DecidableEq Tg] in
theorem fits_iff_nested :
    Forest.Fits (fun x => (bw x).ratio) ⊤ g.kids ↔ Nested g bw := by
  rw [Forest.fits_iff]
  exact and_iff_right fun _ _ => .inr le_top

theorem inRange_iff : InRange period quota ↔
    ¬ (quota < minCfsQuotaPeriod ∨ period < minCfsQuotaPeriod) ∧
      ¬ maxCfsQuotaPeriod < period ∧ ¬ (quota ≠ runtimeInf ∧ maxCfsRuntime < quota) := by
  constructor
  · rintro ⟨hminp, hmaxp, hminq, hmaxq⟩
    exact ⟨not_or.mpr ⟨hminq.not_gt, hminp.not_gt⟩, hmaxp.not_gt,
      fun h => hmaxq.elim h.1 h.2.not_ge⟩
  · rintro ⟨hmin, hmaxp, hmaxq⟩
    obtain ⟨hminq, hminp⟩ := not_or.mp hmin
    refine ⟨not_lt.mp hminp, not_lt.mp hmaxp, not_lt.mp hminq, ?_⟩
    exact or_iff_not_imp_left.mpr fun hne => not_lt.mp fun hlt => hmaxq ⟨hne, hlt⟩

theorem tgSetCfsBandwidth_of_bad (onDfl : Bool) (h : ¬ (tg ≠ g.root ∧ InRange period quota)) :
    tgSetCfsBandwidth g onDfl tg period quota bw = some (-einval, bw) := by
  unfold tgSetCfsBandwidth
  split
  · rfl
  next hroot =>
    have hbad := (inRange_iff.not.mp fun hin => h ⟨hroot, hin⟩)
    split
    · rfl
    next hmin =>
      split
      · rfl
      next hmax => exact if_pos (not_not.mp fun hq => hbad ⟨hmin, hmax, hq⟩)

theorem tgSetCfsBandwidth_of_inRange (onDfl : Bool) (hroot : tg ≠ g.root)
    (h : InRange period quota) :
    tgSetCfsBandwidth g onDfl tg period quota bw =
      (cfsSchedulable g onDfl tg period quota bw).map fun r =>
        if r.1 ≠ 0 then r else (0, withBandwidth tg period quota r.2) := by
  obtain ⟨hmin, hmax, hq⟩ := inRange_iff.mp h
  rw [tgSetCfsBandwidth, if_neg hroot, if_neg hmin, if_neg hmax, if_neg hq]
  rfl

/-- The visit of all groups begins with the root, which has no limit, and goes on below it. -/
theorem cfsSchedulable_eq (onDfl : Bool) (tg : Tg) (period quota : ℕ) (bw : Tg → CfsBandwidth) :
    cfsSchedulable g onDfl tg period quota bw =
      some (g.kids.walk (tgCfsSchedulableDown onDfl g.links (cfsSchedulableData tg period quota))
        tgNop (setHierarchicalQuota g.root (-1) bw)) := by
  rw [cfsSchedulable, TaskGroups.walkTgTree_eq, TaskGroups.tree, Forest.walk]
  have hroot : g.links.parent g.root = none := g.linked.2.2.1
  have hdown : tgCfsSchedulableDown onDfl g.links (cfsSchedulableData tg period quota) g.root bw =
      (0, setHierarchicalQuota g.root (-1) bw) := by
    rw [tgCfsSchedulableDown, hroot, s64_runtimeInf]
  rw [hdown, Forest.andThen_of_eq rfl]
  unfold Forest.andThen
  split
  next h => exact congrArg some (Prod.ext h.symm rfl)
  next => rfl

end Tree

end LinuxOs2022.Scheduler
