import LinuxOs2022.Library.Reload
import LinuxOs2022.Syscall.SegmentLayout

/-!
# The accesses of `my_get_segment` to `task->mm`

The task is found without a reference, and each of its nine fields is read through a fresh load
of `task->mm`. A kernel thread has no `mm`, a task that exits clears its `mm`, and `execve`
replaces it. An undisturbed call reads one address space; any other call that comes to its end
read through NULL, through a released address space or in two of them.

## Implementation notes

The model of the whole call takes `mm` once from the task table. Here the loads are taken apart,
and the fields that an undisturbed reader collects are those that the whole call stores.
-/

namespace LinuxOs2022.Syscall

open Library PageTable Reload

/-- The fields that are read through `task->mm`, in the order of the code. -/
def mmFields : List (MmStruct → Word) :=
  [(·.startCode), (·.endCode), (·.startData), (·.endData), (·.startBrk), (·.brk),
    (·.startStack), (·.startStack), (·.stackVm)]

/-- The stores to the struct, from the words that were read. -/
def storesOf : List Word → List (Patch Byte)
  | [startCode, endCode, startData, endData, startBrk, brk, startStack, startStack', stackVm] =>
      segmentStores 8 startCode endCode "code_seg" ++
        segmentStores 152 startData endData "data_seg" ++
        segmentStores 296 startBrk brk "heap_seg" ++
        segmentStores 440 startStack (startStack' + stackVm) "stack_seg"
  | _ => []

/-- A call that reads one address space stores what the model of the whole call stores. -/
theorem storesOf_mmFields (mm : MmStruct) : storesOf (mmFields.map fun f => f mm) = stores mm :=
  rfl

/-- `task->mm` with the address spaces, and a call that reads it. -/
abbrev MmState := Reload.State MmStruct Word

/-- The steps of a call and of the task it reads. -/
abbrev MmStep : MmState → Event MmStruct → MmState → Prop := Reload.Step mmFields

/-- All fields are read from one address space. -/
theorem storesOf_fetched {s : MmState} {i : ℕ} {mm : MmStruct} (h : Fetched mmFields s i mm)
    (hlen : s.values.length = mmFields.length) :
    storesOf (s.values.map Prod.snd) = stores mm := by
  rw [h, hlen, List.take_length, List.map_map]
  exact storesOf_mmFields mm

/-- An undisturbed call reads through no NULL and no released `mm`, and reports one address
space. A call that comes to its end does so exactly when it was undisturbed. -/
theorem mmAccess_consistent_iff {s₀ s : MmState} {es : List (Event MmStruct)}
    (h : Run MmStep s₀ es s) (h₀ : Ready s₀) :
    (Run (QuietStep mmFields) s₀ es s → Consistent mmFields s ∧
        (s.values.length = mmFields.length →
          ∃ mm, storesOf (s.values.map Prod.snd) = stores mm)) ∧
      (Ended mmFields s → (Consistent mmFields s ↔ Run (QuietStep mmFields) s₀ es s)) := by
  refine ⟨?_, consistent_iff_quiet h h₀⟩
  intro hq
  have hc := (good_of_quiet hq h₀.live h₀.good).consistent
  refine ⟨hc, ?_⟩
  intro hlen
  have hne : s.values ≠ [] := by
    rintro hnil
    rw [hnil] at hlen
    cases hlen
  obtain ⟨i, mm, hf⟩ := hc.oneObject hne
  exact ⟨mm, storesOf_fetched hf hlen⟩

/-- A user task with the recorded address space, before the call. -/
def userTask : MmState := ⟨Heap.empty.alloc recordedMm, some 0, .load, []⟩

theorem userTask_ready : Ready userTask :=
  ⟨rfl, rfl, fun i hi => by obtain rfl := Option.some.inj hi; rfl⟩

/-- A kernel thread, before the call. -/
def kernelThread : MmState := ⟨.empty, none, .load, []⟩

theorem kernelThread_ready : Ready kernelThread := ⟨rfl, rfl, fun _ hi => nomatch hi⟩

/-- Left alone, the call reads all fields of the recorded address space. -/
theorem mmAccess_consistent_recorded :
    ∃ s, Run MmStep userTask (readEvents 9) s ∧ Consistent mmFields s ∧
      ∃ mm, storesOf (s.values.map Prod.snd) = stores mm := by
  have hnine : userTask.values.length + 9 = mmFields.length := rfl
  obtain ⟨s, hr, hp, hv⟩ := run_readEvents (s := userTask) rfl rfl rfl hnine
  have hlen : s.values.length = mmFields.length := by
    rw [hv]
    rfl
  have hc : Consistent mmFields s :=
    ⟨fun p h => (nomatch hp.symm.trans h), fun _ => ⟨0, recordedMm, by rw [Fetched, hv]; rfl⟩⟩
  obtain ⟨hquiet, hended⟩ := mmAccess_consistent_iff hr userTask_ready
  exact ⟨s, hr, hquiet ((hended (.inl ⟨hp, hlen⟩)).mp hc) |>.imp_right fun h => h hlen⟩

/-- The address space of the program that the task executes next. -/
def nextMm : MmStruct := ⟨1, 2, 3, 4, 5, 6, 7, 8⟩

/-- `execve` after the first field: the other fields come from the new program. -/
theorem exec_mixes : ∃ s, Run MmStep userTask
    (.load :: .read :: .replace nextMm :: readEvents 8) s ∧ Ended mmFields s ∧
      s.values.map Prod.snd = [0x565402a42000, 2, 3, 4, 5, 6, 7, 7, 8] ∧
      ¬ Consistent mmFields s := by
  let s₁ : MmState := { userTask with phase := .field (some 0) }
  let s₂ : MmState := { userTask with values := [(0, 0x565402a42000)] }
  let s₃ : MmState := { s₂ with ptr := some 1, heap := s₂.heap.alloc nextMm }
  have h₁ : MmStep userTask .load s₁ := .load userTask rfl (by decide)
  have h₂ : MmStep s₁ .read s₂ := .read s₁ 0 recordedMm (·.startCode) rfl rfl rfl
  have h₃ : MmStep s₂ (.replace nextMm) s₃ := .replace s₂ nextMm
  have height : s₃.values.length + 8 = mmFields.length := rfl
  obtain ⟨s, hr, hp, hv⟩ := run_readEvents (s := s₃) rfl rfl rfl height
  refine ⟨s, .cons h₁ (.cons h₂ (.cons h₃ hr)), .inl ⟨hp, by rw [hv]; rfl⟩, by rw [hv]; rfl, ?_⟩
  intro hc
  obtain ⟨i, mm, hf⟩ := hc.oneObject (by rw [hv]; simp [s₃, s₂])
  have hfirst : (0, 0x565402a42000) ∈ s.values := by
    rw [hv]
    exact List.mem_append_left _ List.mem_cons_self
  have hlast : (1, nextMm.stackVm) ∈ s.values := by
    rw [hv]
    exact List.mem_append_right _ (by simp [mmFields, s₃, s₂])
  exact absurd ((hf.fst_eq hfirst).trans (hf.fst_eq hlast).symm) (by decide)

/-- The call reads through NULL for a kernel thread, through a released `mm` when the task
exits after a load of the pointer, and in two programs when the task calls `execve`. -/
theorem not_mmAccess_consistent :
    (Ready kernelThread ∧
        ∃ s, Run MmStep kernelThread [.load, .read] s ∧ s.phase = .stopped none) ∧
      (Ready userTask ∧
        ∃ s, Run MmStep userTask [.load, .clear, .release 0, .read] s ∧
          s.phase = .stopped (some 0)) ∧
      ¬ ∀ s₀ s es, Ready s₀ → Run MmStep s₀ es s → Ended mmFields s →
        Consistent mmFields s := by
  refine ⟨⟨kernelThread_ready, ?_⟩, ⟨userTask_ready, ?_⟩, ?_⟩
  · have h₁ : MmStep kernelThread .load _ := .load kernelThread rfl (by decide)
    exact ⟨_, .cons h₁ (.single (.fault _ none rfl rfl)), rfl⟩
  · have h₁ : MmStep userTask .load _ := .load userTask rfl (by decide)
    exact ⟨_, .cons h₁ (.cons (.clear _) (.cons (.release _ 0 (by simp))
      (.single (.fault _ (some 0) rfl rfl)))), rfl⟩
  · intro hall
    obtain ⟨s, hr, he, -, hno⟩ := exec_mixes
    exact hno (hall userTask s _ userTask_ready hr he)

end LinuxOs2022.Syscall
