import LinuxOs2022.Scheduler.UclampBuckets

/-!
# Counting the tasks of a run queue

`enqueue_task` and `dequeue_task` count a task in one bucket for each of its two clamps. The
invariant is that the buckets of a run queue count exactly the queued tasks whose class takes
part, with clamps that are allowed, and that a run queue with such tasks is not marked idle.
-/

namespace LinuxOs2022.Scheduler

open Library

variable {Tid : Type} [DecidableEq Tid] {n m : ℕ} {r r' r₁ : ClampState Tid n m} {c c₀ : Fin m}
  {p q : Tid} {id : UclampId}

/-! ## Clamps that are asked for -/

/-- The clamp lies in its bucket and is allowed. -/
structure UclampSe.Valid (n : ℕ) (se : UclampSe) : Prop where
  bucketId : se.bucketId = bucketField n se.value
  value_le : se.value ≤ schedCapacityScale

theorem UclampSe.valid_set (se : UclampSe) {v : ℕ} (hv : v ≤ schedCapacityScale) (b : Bool) :
    (se.set n v b).Valid n := ⟨rfl, hv⟩

theorem UclampSe.Valid.eq {se : UclampSe} (h : se.Valid n)
    (hlt : uclampBucketId n se.value < n) : se.bucketId = uclampBucketId n se.value :=
  h.bucketId.trans (bucketField_eq hlt.le)

theorem UclampSe.Valid.eq_of_fit {se : UclampSe} (h : se.Valid n) (hfit : BucketsFit n) :
    se.bucketId = uclampBucketId n se.value := h.eq (hfit.lt h.value_le)

theorem UclampSe.Valid.lt {se : UclampSe} (h : se.Valid n) (hfit : BucketsFit n) :
    se.bucketId < n := h.eq_of_fit hfit ▸ hfit.lt h.value_le

theorem uclampNone_le (id : UclampId) : uclampNone id ≤ schedCapacityScale := by
  cases id with
  | min => exact Nat.zero_le _
  | max => exact le_rfl

/-- Everything that a clamp can come from is allowed. -/
structure Asked (r : ClampState Tid n m) : Prop where
  req : ∀ p id, ((r.task p).uclampReq id).Valid n
  group : ∀ p g, (r.task p).group = some g → ∀ id, (g id).Valid n
  default : ∀ id, (r.uclampDefault id).Valid n

omit [DecidableEq Tid] in
theorem Asked.uclampEffGet (hr : Asked r) (p : Tid) (id : UclampId) :
    (r.uclampEffGet p id).Valid n := by
  have hrestrict : (r.uclampTgRestrict p id).Valid n := by
    unfold ClampState.uclampTgRestrict
    dsimp only
    split
    next => exact hr.req p id
    next g hg =>
      split
      next => exact hr.group p g hg id
      next => exact hr.req p id
  unfold ClampState.uclampEffGet
  dsimp only
  split
  next => exact hr.default id
  next => exact hrestrict

namespace ClampState

section Fields

variable (rq : RqClamps n) (se : UclampSe) (f : ClampTask m → ClampTask m)

omit [DecidableEq Tid] in
@[simp] theorem setRq_task : (r.setRq c rq).task = r.task := rfl
omit [DecidableEq Tid] in
@[simp] theorem setRq_rq : (r.setRq c rq).rq = Function.update r.rq c rq := rfl
omit [DecidableEq Tid] in
@[simp] theorem setRq_uclampDefault : (r.setRq c rq).uclampDefault = r.uclampDefault := rfl
@[simp] theorem setClamp_rq : (r.setClamp p id se).rq = r.rq := rfl
@[simp] theorem setClamp_uclampDefault :
    (r.setClamp p id se).uclampDefault = r.uclampDefault := rfl
@[simp] theorem modTask_rq : (r.modTask p f).rq = r.rq := rfl
@[simp] theorem modTask_uclampDefault : (r.modTask p f).uclampDefault = r.uclampDefault := rfl
@[simp] theorem modTask_task : (r.modTask p f).task = Function.update r.task p (f (r.task p)) := rfl

/-- A field that has nothing to do with the clamps in effect. -/
theorem setClamp_field {α : Type*} (g : ClampTask m → α)
    (hg : ∀ t u, g { t with uclamp := u } = g t) (q : Tid) :
    g ((r.setClamp p id se).task q) = g (r.task q) := by
  by_cases hq : q = p
  · subst hq
    rw [setClamp, modTask_task, Function.update_self, hg]
  · rw [setClamp, modTask_task, Function.update_of_ne hq]

@[simp] theorem setClamp_queued (q : Tid) :
    ((r.setClamp p id se).task q).queued = (r.task q).queued :=
  setClamp_field se ClampTask.queued (fun _ _ => rfl) q

@[simp] theorem setClamp_uclampEnabled (q : Tid) :
    ((r.setClamp p id se).task q).uclampEnabled = (r.task q).uclampEnabled :=
  setClamp_field se ClampTask.uclampEnabled (fun _ _ => rfl) q

@[simp] theorem setClamp_cpu (q : Tid) :
    ((r.setClamp p id se).task q).cpu = (r.task q).cpu :=
  setClamp_field se ClampTask.cpu (fun _ _ => rfl) q

@[simp] theorem setClamp_uclampReq (q : Tid) :
    ((r.setClamp p id se).task q).uclampReq = (r.task q).uclampReq :=
  setClamp_field se ClampTask.uclampReq (fun _ _ => rfl) q

@[simp] theorem setClamp_group (q : Tid) :
    ((r.setClamp p id se).task q).group = (r.task q).group :=
  setClamp_field se ClampTask.group (fun _ _ => rfl) q

theorem setClamp_uclamp (q : Tid) (j : UclampId) :
    ((r.setClamp p id se).task q).uclamp j =
      if q = p ∧ j = id then se else (r.task q).uclamp j := by
  by_cases hq : q = p
  · subst hq
    by_cases hj : j = id
    · subst hj
      simp [setClamp]
    · simp [setClamp, hj]
  · simp [setClamp, hq]

end Fields

/-- The value of the clamp that the task was last counted with. -/
def clampOf (r : ClampState Tid n m) (id : UclampId) (p : Tid) : ℕ :=
  ((r.task p).uclamp id).value

end ClampState

omit [DecidableEq Tid] in
theorem Asked.congr (hr : Asked r) (hreq : ∀ q, (r₁.task q).uclampReq = (r.task q).uclampReq)
    (hgroup : ∀ q, (r₁.task q).group = (r.task q).group)
    (hdefault : r₁.uclampDefault = r.uclampDefault) : Asked r₁ where
  req := fun p id => hreq p ▸ hr.req p id
  group := fun p g hg => hr.group p g (hgroup p ▸ hg)
  default := fun id => hdefault ▸ hr.default id

/-- A change of a task that asks for allowed clamps. -/
theorem Asked.modTask (hr : Asked r) {f : ClampTask m → ClampTask m}
    (hreq : ∀ id, ((f (r.task p)).uclampReq id).Valid n)
    (hgroup : ∀ g, (f (r.task p)).group = some g → ∀ id, (g id).Valid n) :
    Asked (r.modTask p f) where
  req := by
    intro q id
    rw [ClampState.modTask_task]
    by_cases hq : q = p
    · subst hq
      rw [Function.update_self]
      exact hreq id
    · rw [Function.update_of_ne hq]
      exact hr.req q id
  group := by
    intro q g
    rw [ClampState.modTask_task]
    by_cases hq : q = p
    · subst hq
      rw [Function.update_self]
      exact hgroup g
    · rw [Function.update_of_ne hq]
      exact hr.group q g
  default := hr.default

omit [DecidableEq Tid] in
/-- The effective clamp depends on what is asked for only. -/
theorem ClampState.uclampEffGet_congr (hreq : (r₁.task p).uclampReq = (r.task p).uclampReq)
    (hgroup : (r₁.task p).group = (r.task p).group)
    (hdefault : r₁.uclampDefault = r.uclampDefault) (id : UclampId) :
    r₁.uclampEffGet p id = r.uclampEffGet p id := by
  unfold uclampEffGet uclampTgRestrict
  rw [hreq, hgroup, hdefault]

@[simp] theorem ClampState.uclampEffGet_setClamp (rq : RqClamps n) (se : UclampSe) (q : Tid)
    (j : UclampId) :
    ((r.setRq c rq).setClamp p id se).uclampEffGet q j = r.uclampEffGet q j := by
  apply uclampEffGet_congr
  · exact setClamp_uclampReq se q
  · exact setClamp_group se q
  · rfl

/-! ## Counting a task in one bucket -/

/-- `r'` differs from `r` in the clamps of `c`, and in the clamp `id` of `p`. -/
structure Recounted (r r' : ClampState Tid n m) (p : Tid) (c : Fin m) (id : UclampId) (b : Bool) :
    Prop where
  task : ∀ q, r'.task q = { r.task q with uclamp := (r'.task q).uclamp }
  uclamp : ∀ q j, ¬ (q = p ∧ j = id) → (r'.task q).uclamp j = (r.task q).uclamp j
  active : ((r'.task p).uclamp id).active = b
  default : r'.uclampDefault = r.uclampDefault
  flagIdle : ∀ d, d ≠ c → (r'.rq d).flagIdle = (r.rq d).flagIdle
  warnings : ∀ d, (r'.rq d).warnings = (r.rq d).warnings

theorem Recounted.of_setClamp {rq : RqClamps n} (hrq : rq.warnings = (r.rq c).warnings)
    (se : UclampSe) : Recounted r ((r.setRq c rq).setClamp p id se) p c id se.active := by
  constructor
  · intro q
    by_cases hq : q = p
    · subst hq
      simp [ClampState.setClamp]
    · simp [ClampState.setClamp, hq]
  · intro q j hqj
    rw [ClampState.setClamp_uclamp, if_neg hqj]
    rfl
  · rw [ClampState.setClamp_uclamp, if_pos ⟨rfl, rfl⟩]
  · rfl
  · intro d hd
    simp [hd]
  · intro d
    by_cases hd : d = c
    · subst hd
      simpa using hrq
    · simp [hd]

omit [DecidableEq Tid] in
theorem Recounted.asked {b : Bool} (h : Recounted r r' p c id b) (hr : Asked r) : Asked r' :=
  hr.congr (fun q => by rw [h.task q]) (fun q => by rw [h.task q]) h.default

/-- The buckets of `c` for the clamp `id` count the tasks that `P id c` holds of. -/
structure ClampsFor (r : ClampState Tid n m) (P : UclampId → Fin m → Tid → Prop) : Prop where
  valid : ∀ id c p, P id c p → ((r.task p).uclamp id).Valid n
  aggregated : ∀ id c, (r.rq c).Aggregated id (r.clampOf id) (P id c)

omit [DecidableEq Tid] in
theorem ClampsFor.congr {P Q : UclampId → Fin m → Tid → Prop} (h : ClampsFor r P)
    (huclamp : ∀ id c p, P id c p → (r₁.task p).uclamp = (r.task p).uclamp)
    (hrq : ∀ c, (r₁.rq c).uclamp = (r.rq c).uclamp)
    (hidle : ∀ id c, (∀ p, ¬ P id c p) → (r.rq c).flagIdle = true → (r₁.rq c).flagIdle = true)
    (hQ : ∀ id c p, Q id c p ↔ P id c p) : ClampsFor r₁ Q := by
  constructor
  · intro id c p hp
    have hp' := (hQ id c p).mp hp
    rw [huclamp id c p hp']
    exact h.valid id c p hp'
  · intro id c
    apply (h.aggregated id c).congr (congrFun (hrq c) id) (hidle id c) (hQ id c)
    intro q hq
    unfold ClampState.clampOf
    rw [huclamp id c q hq]

/-- `r'` differs from `r` in the clamps of `c`, and in the clamps and the place of `p`. -/
structure Reclamped (r r' : ClampState Tid n m) (p : Tid) (c : Fin m) (b : Bool) : Prop where
  other : ∀ q, q ≠ p → r'.task q = r.task q
  req : (r'.task p).uclampReq = (r.task p).uclampReq
  group : (r'.task p).group = (r.task p).group
  active : ∀ id, ((r'.task p).uclamp id).active = b
  default : r'.uclampDefault = r.uclampDefault
  flagIdle : ∀ d, d ≠ c → (r'.rq d).flagIdle = (r.rq d).flagIdle
  warnings : ∀ d, (r'.rq d).warnings = (r.rq d).warnings

omit [DecidableEq Tid] in
theorem Recounted.trans {r₂ : ClampState Tid n m} {j : UclampId} {b b₁ b₂ : Bool}
    (h₁ : Recounted r r₁ p c id b₁) (h₂ : Recounted r₁ r₂ p c j b₂)
    (hactive : ∀ id, ((r₂.task p).uclamp id).active = b) : Reclamped r r₂ p c b where
  other := by
    intro q hq
    have huclamp : (r₂.task q).uclamp = (r.task q).uclamp := by
      funext k
      rw [h₂.uclamp q k fun hk => hq hk.1, h₁.uclamp q k fun hk => hq hk.1]
    rw [h₂.task q, h₁.task q, huclamp]
  req := by rw [h₂.task p, h₁.task p]
  group := by rw [h₂.task p, h₁.task p]
  active := hactive
  default := h₂.default.trans h₁.default
  flagIdle := fun d hd => (h₂.flagIdle d hd).trans (h₁.flagIdle d hd)
  warnings := fun d => (h₂.warnings d).trans (h₁.warnings d)

omit [DecidableEq Tid] in
theorem Reclamped.setRq {b : Bool} (h : Reclamped r r' p c b) {rq : RqClamps n}
    (hrq : rq.warnings = (r'.rq c).warnings) : Reclamped r (r'.setRq c rq) p c b where
  other := h.other
  req := h.req
  group := h.group
  active := h.active
  default := h.default
  flagIdle := fun d hd => by
    rw [ClampState.setRq_rq, Function.update_of_ne hd]
    exact h.flagIdle d hd
  warnings := fun d => by
    rw [← h.warnings d, ClampState.setRq_rq]
    by_cases hd : d = c
    · subst hd
      rw [Function.update_self, hrq]
    · rw [Function.update_of_ne hd]

theorem Reclamped.modTask {b : Bool} (h : Reclamped r r' p c b) {f : ClampTask m → ClampTask m}
    (hf : (f (r'.task p)).uclampReq = (r'.task p).uclampReq ∧
      (f (r'.task p)).group = (r'.task p).group ∧
      (f (r'.task p)).uclamp = (r'.task p).uclamp) : Reclamped r (r'.modTask p f) p c b where
  other := fun q hq => (Function.update_of_ne hq ..).trans (h.other q hq)
  req := by rw [ClampState.modTask_task, Function.update_self, hf.1, h.req]
  group := by rw [ClampState.modTask_task, Function.update_self, hf.2.1, h.group]
  active := fun id => by
    rw [ClampState.modTask_task, Function.update_self, hf.2.2, h.active]
  default := h.default
  flagIdle := h.flagIdle
  warnings := h.warnings

omit [DecidableEq Tid] in
theorem Reclamped.req_eq {b : Bool} (h : Reclamped r r' p c b) (q : Tid) :
    (r'.task q).uclampReq = (r.task q).uclampReq := by
  by_cases hq : q = p
  · subst hq
    exact h.req
  · rw [h.other q hq]

omit [DecidableEq Tid] in
theorem Reclamped.group_eq {b : Bool} (h : Reclamped r r' p c b) (q : Tid) :
    (r'.task q).group = (r.task q).group := by
  by_cases hq : q = p
  · subst hq
    exact h.group
  · rw [h.other q hq]

omit [DecidableEq Tid] in
theorem Reclamped.asked {b : Bool} (h : Reclamped r r' p c b) (hr : Asked r) : Asked r' :=
  hr.congr h.req_eq h.group_eq h.default

/-- `uclamp_rq_inc_id` counts a task that no bucket of the clamp counts. -/
theorem ClampsFor.uclampRqIncId {P : UclampId → Fin m → Tid → Prop} (h : ClampsFor r P)
    (id : UclampId) (hasked : Asked r) (hfit : BucketsFit n) (hp : ∀ c', ¬ P id c' p)
    (hbusy : (∃ q, P id c q) → (r.rq c).flagIdle = false) :
    ∃ r', r.uclampRqIncId p c id = some r' ∧ Recounted r r' p c id true ∧
      (r'.task p).uclamp id = { r.uclampEffGet p id with active := true } ∧
      (r'.rq c).flagIdle = (r.rq c).flagIdle ∧
      ClampsFor r' (fun j d q => (j = id ∧ d = c ∧ q = p) ∨ P j d q) := by
  have hvalid := hasked.uclampEffGet p id
  have hse := hvalid.lt hfit
  let rq := (r.rq c).setUclamp id
    ((r.rq c).incremented id ⟨_, hse⟩ (r.uclampEffGet p id).value)
  let se : UclampSe := { r.uclampEffGet p id with active := true }
  have hre : Recounted r ((r.setRq c rq).setClamp p id se) p c id true := by
    apply Recounted.of_setClamp
    rfl
  refine ⟨(r.setRq c rq).setClamp p id se, ?_, hre, ?_, ?_, ?_, ?_⟩
  · rw [ClampState.uclampRqIncId, RqClamps.incId_eq hse]
    rfl
  · rw [ClampState.setClamp_uclamp, if_pos ⟨rfl, rfl⟩]
  · simp [rq, RqClamps.setUclamp]
  · intro j d q hq
    rw [ClampState.setClamp_uclamp]
    split
    next => exact ⟨hvalid.bucketId, hvalid.value_le⟩
    next hne => exact h.valid j d q (hq.resolve_left fun hnew => hne ⟨hnew.2.2, hnew.1⟩)
  · intro j d
    by_cases hd : d = c
    · subst hd
      by_cases hj : j = id
      · subst hj
        have hagg := (h.aggregated j d).incId hbusy (hp d) (i := ⟨_, hse⟩)
          (hvalid.eq_of_fit hfit).symm
        apply hagg.congr
        · simp [rq]
        · simp [rq]
        · simp
        · intro q _
          unfold ClampState.clampOf
          rw [ClampState.setClamp_uclamp]
          by_cases hq : q = p
          · subst hq
            simp [se]
          · simp [hq]
      · apply (h.aggregated j d).congr
        · simp [rq, RqClamps.setUclamp, hj]
        · simp [rq, RqClamps.setUclamp]
        · simp [hj]
        · intro q _
          unfold ClampState.clampOf
          rw [ClampState.setClamp_uclamp, if_neg fun hq => hj hq.2]
          rfl
    · apply (h.aggregated j d).congr
      · simp [hd]
      · simp [hd]
      · simp [hd]
      · intro q hq
        unfold ClampState.clampOf
        rw [ClampState.setClamp_uclamp, if_neg]
        · rfl
        · rintro ⟨rfl, rfl⟩
          exact hp d hq

/-- `uclamp_rq_dec_id` takes a counted task out of its bucket. -/
theorem ClampsFor.uclampRqDecId {P : UclampId → Fin m → Tid → Prop} (h : ClampsFor r P)
    (id : UclampId) (hp : P id c p) :
    ∃ r', r.uclampRqDecId p c id = some r' ∧ Recounted r r' p c id false ∧
      ((r'.rq c).flagIdle = true ↔
        (r.rq c).flagIdle = true ∨ id = .max ∧ ∀ q, P id c q → q = p) ∧
      ClampsFor r' (fun j d q => ¬ (j = id ∧ d = c ∧ q = p) ∧ P j d q) := by
  have hvalid := h.valid id c p hp
  obtain ⟨rq, hdec, hagg, hother, hwarn, hflag⟩ :=
    (h.aggregated id c).decId hp (hvalid.eq ((h.aggregated id c).buckets.key_lt p hp)) rfl
  let se : UclampSe := { (r.task p).uclamp id with active := false }
  have hclamp : ∀ j q, ((r.setRq c rq).setClamp p id se).clampOf j q = r.clampOf j q := by
    intro j q
    unfold ClampState.clampOf
    rw [ClampState.setClamp_uclamp]
    split
    next hq => rw [hq.1, hq.2]
    next => rfl
  refine ⟨(r.setRq c rq).setClamp p id se, ?_, .of_setClamp hwarn se, ?_, ?_, ?_⟩
  · rw [ClampState.uclampRqDecId, hdec]
    rfl
  · simpa using hflag
  · intro j d q hq
    rw [ClampState.setClamp_uclamp]
    split
    next heq => exact ⟨hvalid.bucketId, hvalid.value_le⟩
    next => exact h.valid j d q hq.2
  · intro j d
    by_cases hd : d = c
    · subst hd
      by_cases hj : j = id
      · subst hj
        apply hagg.congr _ _ _ fun q _ => hclamp j q
        · simp
        · simp
        · simp
      · apply (h.aggregated j d).congr _ _ _ fun q _ => hclamp j q
        · simp [hother j hj]
        · intro _ hidle
          simpa using hflag.mpr (.inl hidle)
        · simp [hj]
    · apply (h.aggregated j d).congr _ _ _ fun q _ => hclamp j q
      · simp [hd]
      · simp [hd]
      · simp [hd]

/-! ## The invariant -/

/-- The buckets of the run queue of `c` count the task. -/
def ClampTask.CountedOn (t : ClampTask m) (c : Fin m) : Prop :=
  t.queued = true ∧ t.uclampEnabled = true ∧ t.cpu = c

theorem ClampTask.not_countedOn {t : ClampTask m} (ht : t.queued = false) (c : Fin m) :
    ¬ t.CountedOn c := by
  rintro ⟨hqueued, -⟩
  rw [ht] at hqueued
  cases hqueued

theorem ClampTask.CountedOn.cpu_eq {t : ClampTask m} {d : Fin m} (hc : t.CountedOn c)
    (hd : t.CountedOn d) : d = c := hd.2.2.symm.trans hc.2.2

omit [DecidableEq Tid] in
theorem Recounted.countedOn {b : Bool} (h : Recounted r r' p c id b) (d : Fin m) (q : Tid) :
    (r'.task q).CountedOn d ↔ (r.task q).CountedOn d := by
  rw [h.task q]
  rfl

/-- Somebody else is on the run queue of `p`. -/
def ClampState.Accompanied (r : ClampState Tid n m) (p : Tid) : Prop :=
  ∃ q, q ≠ p ∧ (r.task q).CountedOn (r.task p).cpu

/-- Between two steps, all clamps are counted, and a run queue with tasks is not idle. -/
structure ClampOk (r : ClampState Tid n m) : Prop where
  asked : Asked r
  clamps : ClampsFor r fun _ c p => (r.task p).CountedOn c
  active : ∀ p id, ((r.task p).uclamp id).active = true ↔ ∃ c, (r.task p).CountedOn c
  busy : ∀ c, (∃ p, (r.task p).CountedOn c) → (r.rq c).flagIdle = false
  warnings : ∀ c, (r.rq c).warnings = 0

namespace ClampOk

/-- A change of a task that the buckets do not see. -/
theorem modTask (h : ClampOk r) {f : ClampTask m → ClampTask m} (hasked : Asked (r.modTask p f))
    (hcounted : ∀ c, (f (r.task p)).CountedOn c ↔ (r.task p).CountedOn c)
    (huclamp : (f (r.task p)).uclamp = (r.task p).uclamp ∨
      (∀ c, ¬ (r.task p).CountedOn c) ∧ ∀ id, ((f (r.task p)).uclamp id).active = false) :
    ClampOk (r.modTask p f) := by
  have hother : ∀ {q}, q ≠ p → (r.modTask p f).task q = r.task q := fun hq =>
    Function.update_of_ne hq ..
  have hself : (r.modTask p f).task p = f (r.task p) := Function.update_self ..
  have hcounted' : ∀ c q, ((r.modTask p f).task q).CountedOn c ↔ (r.task q).CountedOn c := by
    intro c q
    by_cases hq : q = p
    · subst hq
      rw [hself, hcounted]
    · rw [hother hq]
  constructor
  · exact hasked
  · apply h.clamps.congr
    · intro id c q hc
      by_cases hq : q = p
      · subst hq
        rw [hself]
        exact huclamp.resolve_right fun hnone => hnone.1 c hc
      · rw [hother hq]
    · exact fun _ => rfl
    · exact fun _ _ _ hidle => hidle
    · exact fun _ => hcounted'
  · intro q id
    rw [exists_congr fun c => hcounted' c q]
    by_cases hq : q = p
    · subst hq
      rw [hself]
      obtain heq | ⟨hnone, hactive⟩ := huclamp
      · rw [heq, h.active]
      · rw [hactive]
        exact iff_of_false Bool.false_ne_true (not_exists.mpr hnone)
    · rw [hother hq, h.active]
  · rintro c ⟨q, hq⟩
    exact h.busy c ⟨q, (hcounted' c q).mp hq⟩
  · exact h.warnings

/-- The clamps of `p` are computed anew. -/
theorem of_reclamped {b : Bool} (h : ClampOk r) (hre : Reclamped r r' p c b)
    (hb : b = true ↔ ∃ d, (r'.task p).CountedOn d) (hp : ∀ d, (r'.task p).CountedOn d → d = c)
    (hfor : ClampsFor r' fun _ d q => (r'.task q).CountedOn d)
    (hbusy : (∃ q, (r'.task q).CountedOn c) → (r'.rq c).flagIdle = false) : ClampOk r' := by
  constructor
  · exact hre.asked h.asked
  · exact hfor
  · intro q id
    by_cases hq : q = p
    · subst hq
      rw [hre.active, hb]
    · rw [hre.other q hq, h.active]
  · rintro d ⟨q, hq⟩
    by_cases hd : d = c
    · subst hd
      exact hbusy ⟨q, hq⟩
    · have hqp : q ≠ p := by
        rintro rfl
        exact hd (hp d hq)
      rw [hre.other q hqp] at hq
      rw [hre.flagIdle d hd]
      exact h.busy d ⟨q, hq⟩
  · exact fun d => (hre.warnings d).trans (h.warnings d)

/-- `enqueue_task` keeps the invariant. -/
theorem enqueueTask (h : ClampOk r) (hfit : BucketsFit n) (hp : (r.task p).queued = false)
    (c : Fin m) : ∃ r', r.enqueueTask p c = some r' ∧ ClampOk r' := by
  have hnone : ∀ d, ¬ (r.task p).CountedOn d := ClampTask.not_countedOn hp
  cases hen : (r.task p).uclampEnabled with
  | false =>
      refine ⟨r.modTask p fun t => { t with cpu := c, queued := true }, ?_, ?_⟩
      · rw [ClampState.enqueueTask, ClampState.uclampRqInc, if_neg (by simp [hen])]
        rfl
      · refine h.modTask (h.asked.modTask (h.asked.req p) (h.asked.group p)) (fun d => ?_)
          (.inl rfl)
        refine iff_of_false (fun hd => ?_) (hnone d)
        exact Bool.false_ne_true (hen.symm.trans hd.2.1)
  | true =>
      obtain ⟨r₁, hinc₁, hre₁, -, hidle₁, hfor₁⟩ :=
        h.clamps.uclampRqIncId .min h.asked hfit hnone (h.busy c)
      have hmax : ∀ d q, UclampId.max = .min ∧ d = c ∧ q = p ∨ (r.task q).CountedOn d ↔
          (r.task q).CountedOn d := fun d q => by simp
      obtain ⟨r₂, hinc₂, hre₂, -, -, hfor₂⟩ := hfor₁.uclampRqIncId .max
        (hre₁.asked h.asked) hfit (fun d hd => hnone d ((hmax d p).mp hd))
        (fun ⟨q, hq⟩ => hidle₁.trans (h.busy c ⟨q, (hmax c q).mp hq⟩))
      let r₃ := r₂.setRq c { r₂.rq c with flagIdle := false }
      let f : ClampTask m → ClampTask m := fun t => { t with cpu := c, queued := true }
      have hre : Reclamped r (r₃.modTask p f) p c true := by
        have hre₃ : Reclamped r r₃ p c true := by
          apply (hre₁.trans hre₂ fun id => ?_).setRq
          · rfl
          · cases id with
            | min => rw [hre₂.uclamp p .min (by simp), hre₁.active]
            | max => exact hre₂.active
        exact hre₃.modTask ⟨rfl, rfl, rfl⟩
      have hself : (r₃.modTask p f).task p = f (r₂.task p) := Function.update_self ..
      have hcounted : ∀ d q, ((r₃.modTask p f).task q).CountedOn d ↔
          d = c ∧ q = p ∨ (r.task q).CountedOn d := by
        intro d q
        by_cases hq : q = p
        · subst hq
          rw [hself, or_iff_left (hnone d), hre₂.task q, hre₁.task q]
          simp [f, ClampTask.CountedOn, hen, eq_comm]
        · rw [hre.other q hq]
          simp [hq]
      refine ⟨r₃.modTask p f, ?_, h.of_reclamped hre ?_ ?_ ?_ ?_⟩
      · rw [ClampState.enqueueTask, ClampState.uclampRqInc, if_pos hen, hinc₁,
          Option.bind_eq_bind, Option.bind_some, hinc₂]
        rfl
      · exact iff_of_true rfl ⟨c, (hcounted c p).mpr (.inl ⟨rfl, rfl⟩)⟩
      · exact fun d hd => (((hcounted d p).mp hd).resolve_right (hnone d)).1
      · apply hfor₂.congr
        · intro id d q _
          by_cases hq : q = p
          · subst hq
            rw [hself]
          · simp [r₃, hq]
        · intro d
          by_cases hd : d = c
          · subst hd
            simp [r₃]
          · simp [r₃, hd]
        · intro id d hvacant hidle
          have hd : d ≠ c := by
            rintro rfl
            apply hvacant p
            cases id with
            | min => simp
            | max => simp
          simpa [r₃, hd] using hidle
        · intro id d q
          rw [hcounted]
          cases id with
          | min => simp
          | max => simp
      · simp [r₃]

/-- `dequeue_task` keeps the invariant. -/
theorem dequeueTask (h : ClampOk r) (hp : (r.task p).queued = true) :
    ∃ r', r.dequeueTask p = some r' ∧ ClampOk r' ∧ (r'.task p).queued = false := by
  cases hen : (r.task p).uclampEnabled with
  | false =>
      refine ⟨r.modTask p fun t => { t with queued := false }, ?_, ?_, ?_⟩
      · rw [ClampState.dequeueTask, ClampState.uclampRqDec, if_neg (by simp [hen])]
        rfl
      · refine h.modTask (h.asked.modTask (h.asked.req p) (h.asked.group p)) (fun d => ?_)
          (.inl rfl)
        refine iff_of_false (ClampTask.not_countedOn rfl d) fun hd => ?_
        exact Bool.false_ne_true (hen.symm.trans hd.2.1)
      · simp
  | true =>
      obtain ⟨c, hc⟩ : ∃ c, c = (r.task p).cpu := ⟨_, rfl⟩
      have hpc : (r.task p).CountedOn c := ⟨hp, hen, hc.symm⟩
      obtain ⟨r₁, hdec₁, hre₁, hidle₁, hfor₁⟩ := h.clamps.uclampRqDecId .min hpc
      have hmax : ∀ d q, ¬ (UclampId.max = .min ∧ d = c ∧ q = p) ∧ (r.task q).CountedOn d ↔
          (r.task q).CountedOn d := fun d q => by simp
      obtain ⟨r₂, hdec₂, hre₂, hidle₂, hfor₂⟩ :=
        hfor₁.uclampRqDecId .max ((hmax c p).mpr hpc)
      let f : ClampTask m → ClampTask m := fun t => { t with queued := false }
      have hre : Reclamped r (r₂.modTask p f) p c false := by
        apply (hre₁.trans hre₂ fun id => ?_).modTask
        · exact ⟨rfl, rfl, rfl⟩
        · cases id with
          | min => rw [hre₂.uclamp p .min (by simp), hre₁.active]
          | max => exact hre₂.active
      have hself : (r₂.modTask p f).task p = f (r₂.task p) := Function.update_self ..
      have hnone : ∀ d, ¬ ((r₂.modTask p f).task p).CountedOn d := by
        rw [hself]
        exact ClampTask.not_countedOn rfl
      refine ⟨r₂.modTask p f, ?_, h.of_reclamped hre ?_ ?_ ?_ ?_, ?_⟩
      · rw [ClampState.dequeueTask, ClampState.uclampRqDec, if_pos hen, ← hc, hdec₁,
          Option.bind_eq_bind, Option.bind_some, hdec₂]
        rfl
      · exact iff_of_false Bool.false_ne_true (not_exists.mpr hnone)
      · exact fun d hd => absurd hd (hnone d)
      · apply hfor₂.congr
        · intro id d q _
          by_cases hq : q = p
          · subst hq
            rw [hself]
          · simp [hq]
        · exact fun _ => rfl
        · exact fun _ _ _ hidle => hidle
        · intro id d q
          by_cases hq : q = p
          · subst hq
            refine iff_of_false (hnone d) ?_
            rintro ⟨hne₂, hne₁, hd⟩
            obtain rfl := hpc.cpu_eq hd
            cases id with
            | min => exact hne₁ ⟨rfl, rfl, rfl⟩
            | max => exact hne₂ ⟨rfl, rfl, rfl⟩
          · rw [hre.other q hq]
            simp [hq]
      · rintro ⟨q, hq⟩
        have hqp : q ≠ p := by
          rintro rfl
          exact hnone c hq
        rw [hre.other q hqp] at hq
        have hbusy := h.busy c ⟨p, hpc⟩
        rw [Bool.eq_false_iff]
        intro hidle
        obtain hidle | ⟨-, hlast⟩ := hidle₂.mp hidle
        · obtain hidle | ⟨hne, -⟩ := hidle₁.mp hidle
          · exact Bool.false_ne_true (hbusy.symm.trans hidle)
          · exact UclampId.noConfusion hne
        · exact hqp (hlast q ((hmax c q).mpr hq))
      · rw [hself]

/-- What `uclamp_update_active` does to a task that is counted. When it is the only one, the
run queue is marked idle, and nothing clears the mark. -/
theorem uclampUpdateActive_cases (h : ClampOk r) (hfit : BucketsFit n)
    (hpc : (r.task p).CountedOn c) (id : UclampId) :
    ∃ r', r.uclampUpdateActive p id = some r' ∧ Reclamped r r' p c true ∧
      (r'.task p).uclamp id = { r.uclampEffGet p id with active := true } ∧
      (∀ j, j ≠ id → (r'.task p).uclamp j = (r.task p).uclamp j) ∧
      (∀ d q, (r'.task q).CountedOn d ↔ (r.task q).CountedOn d) ∧
      (ClampsFor r' fun _ d q => (r'.task q).CountedOn d) ∧
      ((r'.rq c).flagIdle = true ↔ id = .max ∧ ∀ q, (r.task q).CountedOn c → q = p) := by
  have hactive : ((r.task p).uclamp id).active = true := (h.active p id).mpr ⟨c, hpc⟩
  have hbusy := h.busy c ⟨p, hpc⟩
  obtain ⟨r₁, hdec₁, hre₁, hidle₁, hfor₁⟩ := h.clamps.uclampRqDecId id hpc
  rw [hbusy, or_iff_right Bool.false_ne_true] at hidle₁
  have hbusy₁ : (∃ q, ¬ (id = id ∧ c = c ∧ q = p) ∧ (r.task q).CountedOn c) →
      (r₁.rq c).flagIdle = false := by
    rintro ⟨q, hqp, hq⟩
    rw [Bool.eq_false_iff]
    intro hidle
    exact hqp ⟨rfl, rfl, (hidle₁.mp hidle).2 q hq⟩
  obtain ⟨r₂, hinc₂, hre₂, hclamp₂, hidle₂, hfor₂⟩ :=
    hfor₁.uclampRqIncId id (hre₁.asked h.asked) hfit
    (fun d hd => hd.1 ⟨rfl, hpc.cpu_eq hd.2, rfl⟩) hbusy₁
  have hother : ∀ j, j ≠ id → (r₂.task p).uclamp j = (r.task p).uclamp j := fun j hj =>
    (hre₂.uclamp p j fun hk => hj hk.2).trans (hre₁.uclamp p j fun hk => hj hk.2)
  have hre : Reclamped r r₂ p c true := by
    apply hre₁.trans hre₂
    intro j
    by_cases hj : j = id
    · subst hj
      exact hre₂.active
    · rw [hother j hj, h.active]
      exact ⟨c, hpc⟩
  have hcounted : ∀ d q, (r₂.task q).CountedOn d ↔ (r.task q).CountedOn d := fun d q =>
    (hre₂.countedOn d q).trans (hre₁.countedOn d q)
  refine ⟨r₂, ?_, hre, ?_, hother, hcounted, ?_, ?_⟩
  · rw [ClampState.uclampUpdateActive, if_pos hactive, hpc.2.2, hdec₁, Option.bind_eq_bind,
      Option.bind_some, hinc₂]
  · rw [hclamp₂, ClampState.uclampEffGet_congr]
    · rw [hre₁.task p]
    · rw [hre₁.task p]
    · exact hre₁.default
  · apply hfor₂.congr
    · exact fun _ _ _ _ => rfl
    · exact fun _ => rfl
    · exact fun _ _ _ hidle => hidle
    · intro j d q
      rw [hcounted]
      constructor
      · intro hq
        by_cases hnew : j = id ∧ d = c ∧ q = p
        · exact .inl hnew
        · exact .inr ⟨hnew, hq⟩
      · rintro (⟨-, rfl, rfl⟩ | ⟨-, hq⟩)
        · exact hpc
        · exact hq
  · rw [hidle₂]
    exact hidle₁

/-- `uclamp_update_active` keeps the invariant, for `UCLAMP_MAX` when the task is not alone. -/
theorem uclampUpdateActive (h : ClampOk r) (hfit : BucketsFit n)
    (hsafe : id = .max → ((r.task p).uclamp id).active = true → r.Accompanied p) :
    ∃ r', r.uclampUpdateActive p id = some r' ∧ ClampOk r' := by
  cases hactive : ((r.task p).uclamp id).active with
  | false => exact ⟨r, by rw [ClampState.uclampUpdateActive, if_neg (by simp [hactive])], h⟩
  | true =>
      obtain ⟨c, hpc⟩ := (h.active p id).mp hactive
      obtain ⟨r₁, hstep, hre, -, -, hcounted, hfor, hidle⟩ :=
        h.uclampUpdateActive_cases hfit hpc id
      refine ⟨r₁, hstep, h.of_reclamped hre ?_ ?_ hfor fun _ => ?_⟩
      · exact iff_of_true rfl ⟨c, (hcounted c p).mpr hpc⟩
      · exact fun d hd => hpc.cpu_eq ((hcounted d p).mp hd)
      · rw [Bool.eq_false_iff]
        intro hmark
        obtain ⟨hid, hlast⟩ := hidle.mp hmark
        obtain ⟨q, hqp, hq⟩ := hsafe hid hactive
        rw [hpc.2.2] at hq
        exact hqp (hlast q hq)

end ClampOk

end LinuxOs2022.Scheduler
