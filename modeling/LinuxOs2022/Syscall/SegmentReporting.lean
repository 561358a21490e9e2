import LinuxOs2022.Syscall.PhyAddr
import LinuxOs2022.Syscall.SegmentRun

/-!
# Error reporting of `my_get_segment`

The call returns the count of bytes that a copy left out, so both failed copies can be told
from a success. A pid without a task is answered with 0 like a success, and a failed
allocation and a task without `mm` are not tested at all.
-/

namespace LinuxOs2022.Syscall

open Library PageTable

/-- The address space of the task that the struct of the user names. -/
def taskMm (k : KState) (p : Word) : Option MmStruct := (k.task (k.user.pid p)).bind (·.mm)

/-- The struct reaches the copy to the user: it was allocated and copied in, and the task
exists and has an address space. -/
def ReachesCopy (env : SegmentEnv) (k : KState) (p : Word) (mm : MmStruct) : Prop :=
  env.found.isSome ∧ sizeofProcessSegments ≤ env.copiedIn ∧ taskMm k p = some mm

/-- The whole struct of the task is written back. -/
def WritesBack (env : SegmentEnv) (k : KState) (p : Word) (mm : MmStruct) : Prop :=
  ReachesCopy env k p mm ∧ sizeofProcessSegments ≤ env.copiedOut

/-- The call reports its outcome: it returns, 0 exactly when the whole struct of the task is
written back, which is then in user memory; where it does not reach the copy to the user, the
memory of the user is as before. -/
def ReportsSegments (env : SegmentEnv) (k : KState) (p : Word) : Prop :=
  match (myGetSegment env p).run k with
  | .error _ _ => False
  | .ok r k' =>
      (r = 0 ↔ ∃ mm, WritesBack env k p mm) ∧
        (∀ mm, WritesBack env k p mm → k'.user = k.user.write p (blockOf (filled mm k.user p))) ∧
        ((∀ mm, ¬ ReachesCopy env k p mm) → k'.user = k.user)

theorem ReportsSegments.returns {env : SegmentEnv} {k : KState} {p : Word}
    (h : ReportsSegments env k p) : ∃ r k', (myGetSegment env p).run k = .ok r k' := by
  rw [ReportsSegments] at h
  split at h
  next => exact h.elim
  next r k' hr => exact ⟨r, k', hr⟩

theorem reportsSegments_iff_of_run {env : SegmentEnv} {k k' : KState} {p r : Word}
    (hr : (myGetSegment env p).run k = .ok r k') :
    ReportsSegments env k p ↔
      (r = 0 ↔ ∃ mm, WritesBack env k p mm) ∧
        (∀ mm, WritesBack env k p mm → k'.user = k.user.write p (blockOf (filled mm k.user p))) ∧
        ((∀ mm, ¬ ReachesCopy env k p mm) → k'.user = k.user) := by
  rw [ReportsSegments, hr]

section Cases

variable {env : SegmentEnv} {found : ℕ → Byte} {k : KState} {p : Word}

/-- An incomplete copy in is reported. -/
theorem reportsSegments_of_lt (hf : env.found = some found)
    (hin : env.copiedIn < sizeofProcessSegments) : ReportsSegments env k p := by
  have hno : ∀ mm, ¬ ReachesCopy env k p mm := fun mm h => absurd h.2.1 (by omega)
  have hne := mt (notCopied_eq_zero_iff env.copiedIn).mp (by omega)
  rw [reportsSegments_iff_of_run (run_myGetSegment_of_lt hf hin p)]
  refine ⟨iff_of_false hne ?_, fun mm h => absurd h.1 (hno mm), fun _ => rfl⟩
  rintro ⟨mm, h⟩
  exact hno mm h.1

/-- For a task with an address space the return value tells whether the copy to the user was
complete. -/
theorem reportsSegments_of_mm (hf : env.found = some found)
    (hin : sizeofProcessSegments ≤ env.copiedIn) {mm : MmStruct} (hm : taskMm k p = some mm) :
    ReportsSegments env k p := by
  obtain ⟨⟨mm'⟩, ht, rfl⟩ := Option.bind_eq_some_iff.mp hm
  obtain ⟨h, hr⟩ := run_myGetSegment_mm hf hin ht
  have hreach : ReachesCopy env k p mm := ⟨by rw [hf]; rfl, hin, hm⟩
  rw [reportsSegments_iff_of_run hr, notCopied_eq_zero_iff]
  refine ⟨⟨fun hout => ⟨mm, hreach, hout⟩, fun ⟨_, h⟩ => h.2⟩, ?_,
    fun hno => absurd hreach (hno mm)⟩
  rintro mm' ⟨⟨-, -, hm'⟩, hout⟩
  obtain rfl : mm = mm' := Option.some.inj (hm.symm.trans hm')
  rw [take_blockOf _ hout]

/-- Without an address space the outcome of a complete copy in is not reported. -/
theorem not_reportsSegments_of_none (hf : env.found = some found)
    (hin : sizeofProcessSegments ≤ env.copiedIn) (hm : taskMm k p = none) :
    ¬ ReportsSegments env k p := by
  intro h
  cases ht : k.task (k.user.pid p) with
  | none =>
      rw [reportsSegments_iff_of_run (run_myGetSegment_noTask hf hin ht)] at h
      obtain ⟨mm, ⟨-, -, hm'⟩, -⟩ := h.1.mp rfl
      rw [hm] at hm'
      cases hm'
  | some task =>
      obtain ⟨mm?⟩ := task
      obtain rfl : mm? = none := by
        rw [taskMm, ht] at hm
        exact hm
      obtain ⟨r, k', hr⟩ := h.returns
      rw [run_myGetSegment_noMm hf hin ht] at hr
      cases hr

end Cases

/-- The call reports its outcome exactly when the allocation succeeds and, unless the copy in
is incomplete, the pid names a task with an address space. -/
theorem reportsSegments_iff (env : SegmentEnv) (k : KState) (p : Word) :
    ReportsSegments env k p ↔
      env.found.isSome ∧ (env.copiedIn < sizeofProcessSegments ∨ (taskMm k p).isSome) := by
  cases hf : env.found with
  | none =>
      apply iff_of_false _ (by simp)
      intro h
      obtain ⟨r, k', hr⟩ := h.returns
      rw [run_myGetSegment_null hf] at hr
      cases hr
  | some found =>
      rw [Option.isSome_some, eq_self_iff_true, true_and]
      by_cases hin : env.copiedIn < sizeofProcessSegments
      · exact iff_of_true (reportsSegments_of_lt hf hin) (.inl hin)
      · cases hm : taskMm k p with
        | none =>
            have h := not_reportsSegments_of_none hf (not_lt.mp hin) hm
            exact iff_of_false h (by simp [hin])
        | some mm =>
            exact iff_of_true (reportsSegments_of_mm hf (not_lt.mp hin) hm) (.inr rfl)

/-- A call in which nothing fails. -/
def quietSegmentEnv : SegmentEnv := ⟨some fun _ => 0, sizeofProcessSegments, sizeofProcessSegments⟩

/-- Without tasks every pid is answered with 0 and the struct of the user is left as it was. -/
theorem not_reportsSegments_noTask :
    (imageState 0).task ((imageState 0).user.pid 0x7000) = none ∧
      (myGetSegment quietSegmentEnv 0x7000).run (imageState 0) =
        .ok 0 (afterCopyIn quietSegmentEnv (imageState 0) 0x7000) ∧
      ¬ ReportsSegments quietSegmentEnv (imageState 0) 0x7000 :=
  ⟨rfl, run_myGetSegment_noTask rfl le_rfl rfl, not_reportsSegments_of_none rfl le_rfl rfl⟩

end LinuxOs2022.Syscall
