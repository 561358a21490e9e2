import LinuxOs2022.Library.MaxBuckets
import LinuxOs2022.Scheduler.Uclamp

/-!
# The buckets of a run queue

A run queue's clamp is the bound of its topmost bucket in use. `uclamp_rq_inc_id` and
`uclamp_rq_dec_id` keep it so, and no warning of theirs is given, as long as the run queue
does not count as idle while it has tasks.
-/

namespace LinuxOs2022.Scheduler

open Library

/-! ## Bucket numbers -/

theorem uclampBucketId_mono (n : ℕ) : Monotone (uclampBucketId n) := fun _ _ h =>
  Nat.div_le_div_right h

/-- The buckets reach past the largest allowed clamp. -/
def BucketsFit (n : ℕ) : Prop := schedCapacityScale < n * uclampBucketDelta n

instance (n : ℕ) : Decidable (BucketsFit n) :=
  inferInstanceAs (Decidable (schedCapacityScale < n * uclampBucketDelta n))

theorem bucketsFit_iff {n : ℕ} (hdelta : 0 < uclampBucketDelta n) :
    BucketsFit n ↔ uclampBucketId n schedCapacityScale < n :=
  (Nat.div_lt_iff_lt_mul hdelta).symm

/-- Every allowed clamp has a bucket. -/
theorem BucketsFit.lt {n v : ℕ} (h : BucketsFit n) (hv : v ≤ schedCapacityScale) :
    uclampBucketId n v < n := by
  apply Nat.div_lt_of_lt_mul
  rw [mul_comm]
  exact hv.trans_lt h

/-- A number of a bucket fits the field. -/
theorem bucketField_eq {n v : ℕ} (h : uclampBucketId n v ≤ n) :
    bucketField n v = uclampBucketId n v :=
  Nat.mod_eq_of_lt (h.trans_lt Nat.lt_log2_self)

/-- Clamps of one bucket are close to each other. -/
theorem lt_add_of_uclampBucketId_eq {n v w : ℕ} (hdelta : 0 < uclampBucketDelta n)
    (h : uclampBucketId n v = uclampBucketId n w) : w < v + uclampBucketDelta n := by
  calc w < uclampBucketDelta n * (w / uclampBucketDelta n + 1) := Nat.lt_mul_div_succ w hdelta
    _ = uclampBucketDelta n * (v / uclampBucketDelta n) + uclampBucketDelta n := by
        have hvw : v / uclampBucketDelta n = w / uclampBucketDelta n := h
        rw [hvw, mul_add, mul_one]
    _ ≤ v + uclampBucketDelta n := Nat.add_le_add_right (Nat.mul_div_le v _) _

namespace RqClamps

variable {n : ℕ} {rq rq' : RqClamps n} {id : UclampId} {se : UclampSe}

/-! ## Searching the topmost bucket -/

theorem topmost_cases (bucket : Fin n → UclampBucket) {k : ℕ} (h : k ≤ n) :
    (topmost bucket k h = none ∧ ∀ j : Fin n, (j : ℕ) < k → (bucket j).tasks = 0) ∨
      ∃ i : Fin n, (i : ℕ) < k ∧ (bucket i).tasks ≠ 0 ∧
        (∀ j : Fin n, (j : ℕ) < k → i < j → (bucket j).tasks = 0) ∧
        topmost bucket k h = some (bucket i).value := by
  induction k with
  | zero => exact .inl ⟨rfl, fun j hj => absurd hj (Nat.not_lt_zero _)⟩
  | succ k ih =>
      by_cases hzero : (bucket ⟨k, h⟩).tasks = 0
      · have hstep : topmost bucket (k + 1) h = topmost bucket k (Nat.le_of_succ_le h) := by
          rw [topmost, if_pos hzero]
        have hlast : ∀ j : Fin n, (j : ℕ) < k + 1 → (j : ℕ) < k ∨ (bucket j).tasks = 0 := by
          intro j hj
          obtain hj | hj := Nat.lt_succ_iff_lt_or_eq.mp hj
          · exact .inl hj
          · obtain rfl : j = ⟨k, h⟩ := Fin.ext hj
            exact .inr hzero
        rw [hstep]
        obtain ⟨hnone, hall⟩ | ⟨i, hi, htasks, habove, hsome⟩ := ih (Nat.le_of_succ_le h)
        · exact .inl ⟨hnone, fun j hj => (hlast j hj).elim (hall j) fun hz => hz⟩
        · refine .inr ⟨i, Nat.lt_succ_of_lt hi, htasks, fun j hj hij => ?_, hsome⟩
          exact (hlast j hj).elim (fun hj => habove j hj hij) fun hz => hz
      · refine .inr ⟨⟨k, h⟩, Nat.lt_succ_self k, hzero, fun j hj hij => ?_, ?_⟩
        · exact absurd (Fin.lt_def.mp hij) (by simpa using Nat.le_of_lt_succ hj)
        · rw [topmost, if_neg hzero]

/-- The counters of the buckets. -/
def tasks (rq : RqClamps n) (id : UclampId) (i : Fin n) : ℕ := ((rq.uclamp id).bucket i).tasks

/-- The bounds of the buckets. -/
def best (rq : RqClamps n) (id : UclampId) (i : Fin n) : ℕ := ((rq.uclamp id).bucket i).value

/-- `uclamp_rq_max_value` finds the topmost bucket in use, or none is in use. -/
theorem maxValue_cases (rq : RqClamps n) (id : UclampId) (v : ℕ) :
    ((∀ i, rq.tasks id i = 0) ∧ rq.maxValue id v = rq.idleValue id v) ∨
      ∃ x, IsTop (rq.tasks id) (rq.best id) x ∧ rq.maxValue id v = (rq, x) := by
  unfold maxValue
  obtain ⟨hnone, hall⟩ | ⟨i, hi, htasks, habove, hsome⟩ :=
    topmost_cases (rq.uclamp id).bucket le_rfl
  · exact .inl ⟨fun j => hall j j.isLt, by rw [hnone]⟩
  · exact .inr ⟨((rq.uclamp id).bucket i).value,
      ⟨i, htasks, fun j hij => habove j j.isLt hij, rfl⟩, by rw [hsome]⟩

/-! ## What the two functions store -/

/-- The run queue with other clamps for `id`. -/
def setUclamp (rq : RqClamps n) (id : UclampId) (uc : UclampRq n) : RqClamps n :=
  { rq with uclamp := Function.update rq.uclamp id uc }

/-- The clamps after `uclamp_rq_inc_id`. -/
def incremented (rq : RqClamps n) (id : UclampId) (i : Fin n) (v : ℕ) : UclampRq n where
  value := max (if rq.flagIdle then v else (rq.uclamp id).value) v
  bucket := Function.update (rq.uclamp id).bucket i
    ⟨rq.tasks id i + 1, if rq.tasks id i = 0 ∨ rq.best id i < v then v else rq.best id i⟩

theorem incId_eq (hse : se.bucketId < n) :
    rq.incId id se =
      some (rq.setUclamp id (rq.incremented id ⟨se.bucketId, hse⟩ se.value)) := by
  rw [incId, dif_pos hse]
  unfold setUclamp incremented tasks best
  cases hidle : rq.flagIdle with
  | true => simp [idleReset, setBucket, setValue, hidle]
  | false =>
      by_cases hlt : (rq.uclamp id).value < se.value
      · simp [idleReset, setBucket, setValue, hidle, hlt, max_eq_right hlt.le]
      · simp [idleReset, setBucket, hidle, hlt, max_eq_left (not_lt.mp hlt)]

/-- `uclamp_rq_dec_id` for a bucket that stays in use. -/
theorem decId_eq_of_pos (hse : se.bucketId < n) (hpos : rq.tasks id ⟨se.bucketId, hse⟩ - 1 ≠ 0) :
    rq.decId id se = some (rq.setBucket id ⟨se.bucketId, hse⟩
      ⟨rq.tasks id ⟨se.bucketId, hse⟩ - 1, rq.best id ⟨se.bucketId, hse⟩⟩) := by
  have hne : rq.tasks id ⟨se.bucketId, hse⟩ ≠ 0 := fun hzero => hpos (by rw [hzero])
  unfold tasks at hpos hne
  rw [decId, dif_pos hse]
  simp [warnOn, hpos, hne, tasks, best]

/-- `uclamp_rq_dec_id` for a bucket that is left empty, below the bound of the run queue. -/
theorem decId_eq_of_lt (hse : se.bucketId < n) (hone : rq.tasks id ⟨se.bucketId, hse⟩ = 1)
    (hlt : rq.best id ⟨se.bucketId, hse⟩ < (rq.uclamp id).value) :
    rq.decId id se = some (rq.setBucket id ⟨se.bucketId, hse⟩
      ⟨0, rq.best id ⟨se.bucketId, hse⟩⟩) := by
  unfold tasks best at *
  rw [decId, dif_pos hse]
  simp [warnOn, setBucket, hone, hlt.not_ge, hlt.le]

/-- `uclamp_rq_dec_id` for the bucket of the bound of the run queue that is left empty. -/
theorem decId_eq_of_eq (hse : se.bucketId < n) (hone : rq.tasks id ⟨se.bucketId, hse⟩ = 1)
    (heq : rq.best id ⟨se.bucketId, hse⟩ = (rq.uclamp id).value) :
    rq.decId id se =
      let rq₁ := rq.setBucket id ⟨se.bucketId, hse⟩ ⟨0, rq.best id ⟨se.bucketId, hse⟩⟩
      some ((rq₁.maxValue id se.value).1.setValue id (rq₁.maxValue id se.value).2) := by
  unfold tasks best at *
  rw [decId, dif_pos hse]
  simp [warnOn, setBucket, hone, heq]

/-! ## The invariant of one clamp -/

section Aggregated

variable {Tid : Type} {P : Tid → Prop} {val : Tid → ℕ} {p : Tid}

/-- The clamp `id` of a run queue is the bound of the topmost bucket of the tasks that `P`
holds of, whose clamps are `val`. Without tasks it is not used: the run queue counts as idle,
or the clamp was never raised. -/
structure Aggregated (rq : RqClamps n) (id : UclampId) (val : Tid → ℕ) (P : Tid → Prop) :
    Prop where
  buckets : Aggregates (uclampBucketId n) (rq.tasks id) (rq.best id) val P
  top : (∃ p, P p) → IsTop (rq.tasks id) (rq.best id) (rq.uclamp id).value
  vacant : (∀ p, ¬ P p) → rq.flagIdle = true ∨ (rq.uclamp id).value = 0

theorem Aggregated.congr {val' : Tid → ℕ} {Q : Tid → Prop} (h : rq.Aggregated id val P)
    (hu : rq'.uclamp id = rq.uclamp id)
    (hidle : (∀ p, ¬ P p) → rq.flagIdle = true → rq'.flagIdle = true)
    (hQ : ∀ q, Q q ↔ P q) (hval : ∀ q, P q → val' q = val q) : rq'.Aggregated id val' Q := by
  have htasks : rq'.tasks id = rq.tasks id := by unfold tasks; rw [hu]
  have hbest : rq'.best id = rq.best id := by unfold best; rw [hu]
  constructor
  · rw [htasks, hbest]
    exact h.buckets.congr hQ hval
  · rintro ⟨q, hq⟩
    rw [htasks, hbest, hu]
    exact h.top ⟨q, (hQ q).mp hq⟩
  · intro hnone
    have hnone' : ∀ q, ¬ P q := fun q hq => hnone q ((hQ q).mpr hq)
    rw [hu]
    exact (h.vacant hnone').imp_left (hidle hnone')

theorem tasks_setUclamp (uc : UclampRq n) (i : Fin n) :
    (rq.setUclamp id uc).tasks id i = (uc.bucket i).tasks := by
  simp [tasks, setUclamp]

theorem best_setUclamp (uc : UclampRq n) (i : Fin n) :
    (rq.setUclamp id uc).best id i = (uc.bucket i).value := by
  simp [best, setUclamp]

/-- A task more. -/
theorem Aggregated.incId [DecidableEq Tid] (h : rq.Aggregated id val P)
    (hbusy : (∃ p, P p) → rq.flagIdle = false) (hp : ¬ P p) {i : Fin n} {v : ℕ}
    (hi : uclampBucketId n v = i) :
    (rq.setUclamp id (rq.incremented id i v)).Aggregated id (Function.update val p v)
      fun q => q = p ∨ P q := by
  have htasks : (rq.setUclamp id (rq.incremented id i v)).tasks id =
      Function.update (rq.tasks id) i (rq.tasks id i + 1) := by
    ext j
    rw [tasks_setUclamp]
    by_cases hj : j = i
    · subst hj
      simp [incremented]
    · simp [incremented, hj, tasks]
  have hbest : (rq.setUclamp id (rq.incremented id i v)).best id =
      Function.update (rq.best id) i
        (if rq.tasks id i = 0 ∨ rq.best id i < v then v else rq.best id i) := by
    ext j
    rw [best_setUclamp]
    by_cases hj : j = i
    · subst hj
      simp [incremented]
    · simp [incremented, hj, best]
  have hvalue : ((rq.setUclamp id (rq.incremented id i v)).uclamp id).value =
      max (if rq.flagIdle then v else (rq.uclamp id).value) v := by
    simp [setUclamp, incremented]
  constructor
  · rw [htasks, hbest]
    exact h.buckets.insert hp hi
  · intro _
    rw [htasks, hbest, hvalue]
    by_cases hex : ∃ q, P q
    · have hvalue' : (if rq.flagIdle then v else (rq.uclamp id).value) = (rq.uclamp id).value :=
        if_neg (by simp [hbusy hex])
      rw [hvalue']
      exact h.buckets.top_insert (uclampBucketId_mono n) (h.top hex) hi
    · have hnone : ∀ q, ¬ P q := not_exists.mp hex
      have hzero : ∀ j, rq.tasks id j = 0 := by
        intro j
        by_contra hj
        obtain ⟨q, hq, -⟩ := (h.buckets.count_ne_zero_iff j).mp hj
        exact hnone q hq
      have hmax : max (if rq.flagIdle then v else (rq.uclamp id).value) v = v := by
        obtain hidle | hv := h.vacant hnone
        · rw [if_pos hidle, max_self]
        · rw [hv]
          split
          next => exact max_self v
          next => exact Nat.zero_max v
      rw [hmax]
      exact Aggregates.top_single hzero v i
  · exact fun hnone => absurd (.inl rfl) (hnone p)

/-- The clamp is computed anew from the buckets. -/
theorem aggregated_maxValue (v : ℕ)
    (hb : Aggregates (uclampBucketId n) (rq.tasks id) (rq.best id) val P) :
    ((rq.maxValue id v).1.setValue id (rq.maxValue id v).2).Aggregated id val P ∧
      (∀ j, j ≠ id →
        ((rq.maxValue id v).1.setValue id (rq.maxValue id v).2).uclamp j = rq.uclamp j) ∧
      ((rq.maxValue id v).1.setValue id (rq.maxValue id v).2).warnings = rq.warnings ∧
      (((rq.maxValue id v).1.setValue id (rq.maxValue id v).2).flagIdle = true ↔
        rq.flagIdle = true ∨ id = .max ∧ ∀ q, ¬ P q) := by
  have htasks : ∀ w, (rq.setValue id w).tasks id = rq.tasks id := by
    intro w
    ext j
    simp [tasks, setValue]
  have hbest : ∀ w, (rq.setValue id w).best id = rq.best id := by
    intro w
    ext j
    simp [best, setValue]
  have hother : ∀ w j, j ≠ id → (rq.setValue id w).uclamp j = rq.uclamp j := fun w j hj =>
    Function.update_of_ne hj ..
  obtain ⟨hzero, hmax⟩ | ⟨x, hx, hmax⟩ := maxValue_cases rq id v
  · have hnone : ∀ q, ¬ P q := by
      intro q hq
      exact hb.count_ne_zero (i := ⟨_, hb.key_lt q hq⟩) hq rfl (hzero _)
    rw [hmax]
    cases id with
    | min =>
        refine ⟨⟨?_, fun ⟨q, hq⟩ => absurd hq (hnone q), fun _ => .inr ?_⟩, hother _, rfl, ?_⟩
        · dsimp only [idleValue]
          rwa [htasks, hbest]
        · simp [idleValue, setValue, uclampNone]
        · simp [idleValue, setValue]
    | max =>
        refine ⟨⟨?_, fun ⟨q, hq⟩ => absurd hq (hnone q), fun _ => .inl rfl⟩, hother _, rfl, ?_⟩
        · have hb' := hb
          rw [← htasks v, ← hbest v] at hb'
          exact hb'
        · exact iff_of_true rfl (.inr ⟨rfl, hnone⟩)
  · obtain ⟨q, hq, -⟩ := hb.exists_top hx
    rw [hmax]
    refine ⟨⟨?_, fun _ => ?_, fun hnone => absurd hq (hnone q)⟩, hother _, rfl, ?_⟩
    · rwa [htasks, hbest]
    · rw [htasks, hbest]
      simpa [setValue] using hx
    · rw [or_iff_left fun hlast => hlast.2 q hq]
      rfl

/-- The buckets after a task has left. -/
theorem Aggregated.left [DecidableEq Tid] (h : rq.Aggregated id val P) (hp : P p) {i : Fin n}
    (hi : uclampBucketId n (val p) = i) :
    Aggregates (uclampBucketId n) ((rq.setBucket id i ⟨rq.tasks id i - 1, rq.best id i⟩).tasks id)
        ((rq.setBucket id i ⟨rq.tasks id i - 1, rq.best id i⟩).best id) val
        (fun q => q ≠ p ∧ P q) ∧
      (rq.setBucket id i ⟨rq.tasks id i - 1, rq.best id i⟩).tasks id =
        Function.update (rq.tasks id) i (rq.tasks id i - 1) ∧
      (rq.setBucket id i ⟨rq.tasks id i - 1, rq.best id i⟩).best id = rq.best id := by
  have htasks : (rq.setBucket id i ⟨rq.tasks id i - 1, rq.best id i⟩).tasks id =
      Function.update (rq.tasks id) i (rq.tasks id i - 1) := by
    ext j
    by_cases hj : j = i
    · subst hj
      simp [tasks, setBucket]
    · simp [tasks, setBucket, hj]
  have hbest : (rq.setBucket id i ⟨rq.tasks id i - 1, rq.best id i⟩).best id = rq.best id := by
    ext j
    by_cases hj : j = i
    · subst hj
      simp [best, setBucket]
    · simp [best, setBucket, hj]
  refine ⟨?_, htasks, hbest⟩
  rw [htasks, hbest]
  exact h.buckets.erase hp hi

/-- A task less: no warning is given, and the run queue counts as idle when it was the last
task and the clamp is `UCLAMP_MAX`. -/
theorem Aggregated.decId [DecidableEq Tid] (h : rq.Aggregated id val P) (hp : P p)
    (hid : se.bucketId = uclampBucketId n se.value) (hval : val p = se.value) :
    ∃ rq', rq.decId id se = some rq' ∧ rq'.Aggregated id val (fun q => q ≠ p ∧ P q) ∧
      (∀ j, j ≠ id → rq'.uclamp j = rq.uclamp j) ∧ rq'.warnings = rq.warnings ∧
      (rq'.flagIdle = true ↔ rq.flagIdle = true ∨ id = .max ∧ ∀ q, P q → q = p) := by
  have hse : se.bucketId < n := by
    rw [hid, ← hval]
    exact h.buckets.key_lt p hp
  have hi : uclampBucketId n (val p) = (⟨se.bucketId, hse⟩ : Fin n) := by
    rw [hval]
    exact hid.symm
  generalize hgen : (⟨se.bucketId, hse⟩ : Fin n) = i at hi
  have htop := h.top ⟨p, hp⟩
  have hne : rq.tasks id i ≠ 0 := h.buckets.count_ne_zero hp hi
  have hle : rq.best id i ≤ (rq.uclamp id).value :=
    h.buckets.best_le_top (uclampBucketId_mono n) htop hne
  obtain ⟨hbuckets, htasks, hbest⟩ := h.left hp hi
  have hother : ∀ b j, j ≠ id → (rq.setBucket id i b).uclamp j = rq.uclamp j := fun b j hj =>
    Function.update_of_ne hj ..
  -- while another bucket is on top, somebody else is there
  have hstay : IsTop (Function.update (rq.tasks id) i (rq.tasks id i - 1)) (rq.best id)
      (rq.uclamp id).value →
      (rq.setBucket id i ⟨rq.tasks id i - 1, rq.best id i⟩).Aggregated id val
          (fun q => q ≠ p ∧ P q) ∧
        ((rq.setBucket id i ⟨rq.tasks id i - 1, rq.best id i⟩).flagIdle = true ↔
          rq.flagIdle = true ∨ id = .max ∧ ∀ q, P q → q = p) := by
    intro ht
    have ht' : IsTop ((rq.setBucket id i ⟨rq.tasks id i - 1, rq.best id i⟩).tasks id)
        ((rq.setBucket id i ⟨rq.tasks id i - 1, rq.best id i⟩).best id)
        ((rq.setBucket id i ⟨rq.tasks id i - 1, rq.best id i⟩).uclamp id).value := by
      rw [htasks, hbest]
      simpa [setBucket] using ht
    obtain ⟨q, hq, -⟩ := hbuckets.exists_top ht'
    refine ⟨⟨hbuckets, fun _ => ht', fun hnone => absurd hq (hnone q)⟩, ?_⟩
    rw [or_iff_left]
    · rfl
    · exact fun hlast => hq.1 (hlast.2 q hq.2)
  by_cases hpos : rq.tasks id i - 1 ≠ 0
  · refine ⟨_, decId_eq_of_pos hse (hgen ▸ hpos), ?_⟩
    rw [hgen]
    obtain ⟨hagg, hflag⟩ := hstay (htop.update hne (.inl hpos))
    exact ⟨hagg, hother _, rfl, hflag⟩
  · have hone : rq.tasks id i = 1 := by omega
    obtain hlt | heq := hle.lt_or_eq
    · refine ⟨_, decId_eq_of_lt hse (hgen ▸ hone) (hgen ▸ hlt), ?_⟩
      rw [hgen]
      obtain ⟨hagg, hflag⟩ := hstay (htop.update hne (.inr hlt.ne))
      rw [hone] at hagg hflag
      exact ⟨hagg, hother _, rfl, hflag⟩
    · refine ⟨_, decId_eq_of_eq hse (hgen ▸ hone) (hgen ▸ heq), ?_⟩
      rw [hgen]
      rw [hone] at hbuckets
      obtain ⟨hagg, hother', hwarn, hflag⟩ := aggregated_maxValue se.value hbuckets
      refine ⟨hagg, fun j hj => (hother' j hj).trans (hother _ j hj), hwarn, hflag.trans ?_⟩
      apply or_congr_right
      apply and_congr_right
      intro _
      exact forall_congr' fun q => by tauto

end Aggregated

end RqClamps

end LinuxOs2022.Scheduler
