import LinuxOs2022.Syscall.SegmentLayout

/-!
# The bounds of the segments

Code, data and heap are stored as `mm` has them. The stack of a process grows down towards
lower addresses and `stack_vm` counts its pages; the call stores the interval from
`start_stack` up that has as many bytes as the stack has pages.
-/

namespace LinuxOs2022.Syscall

open Library PageTable

/-- `PAGE_SIZE`. -/
def pageSize : ℕ := 4096

/-- A layout of a task with the user stack pointer `sp`: the `stack_vm` pages below `top` are
its stack area, which contains `sp` and ends above `start_stack`. -/
structure SegmentsLaidOut (mm : MmStruct) (sp : Word) (top : ℕ) : Prop where
  code : mm.startCode ≤ mm.endCode
  data : mm.startData ≤ mm.endData
  heap : mm.startBrk ≤ mm.brk
  aligned : pageSize ∣ top
  top_le : top ≤ 2 ^ 64
  pages_le : mm.stackVm.toNat * pageSize ≤ top
  le_sp : top - mm.stackVm.toNat * pageSize ≤ sp.toNat
  sp_lt : sp.toNat < top
  start_lt : mm.startStack.toNat < top

/-- An interval of addresses of `len` bytes that does not wrap. -/
def HasLength (startAddr endAddr : Word) (len : ℕ) : Prop :=
  startAddr.toNat + len = endAddr.toNat

instance (startAddr endAddr : Word) (len : ℕ) : Decidable (HasLength startAddr endAddr len) :=
  inferInstanceAs (Decidable (_ = _))

/-- A segment of `len` bytes in the struct of a user. -/
def StoresInterval (u : UserMem) (p : Word) (seg : String) (len : ℕ) : Prop :=
  HasLength (fieldWord MyGetSegment.processSegments (u.byte p) [seg, "start_addr"])
    (fieldWord MyGetSegment.processSegments (u.byte p) [seg, "end_addr"]) len

/-- The stack pointer lies in the stack segment. -/
def StoresSp (u : UserMem) (p sp : Word) : Prop :=
  fieldWord MyGetSegment.processSegments (u.byte p) ["stack_seg", "start_addr"] ≤ sp ∧
    sp < fieldWord MyGetSegment.processSegments (u.byte p) ["stack_seg", "end_addr"]

/-- The struct of the user holds the segments of the task in bytes. -/
structure StoresSegments (u : UserMem) (p : Word) (mm : MmStruct) (sp : Word) : Prop where
  code : StoresInterval u p "code_seg" (mm.endCode.toNat - mm.startCode.toNat)
  data : StoresInterval u p "data_seg" (mm.endData.toNat - mm.startData.toNat)
  heap : StoresInterval u p "heap_seg" (mm.brk.toNat - mm.startBrk.toNat)
  stack : StoresInterval u p "stack_seg" (mm.stackVm.toNat * pageSize)
  sp : StoresSp u p sp

/-- The interval of as many bytes as there are pages is not the stack. -/
theorem not_hasLength_stack {mm : MmStruct} {sp : Word} {top : ℕ}
    (h : SegmentsLaidOut mm sp top) :
    ¬ HasLength mm.startStack (mm.startStack + mm.stackVm) (mm.stackVm.toNat * pageSize) := by
  have hpos : 0 < mm.stackVm.toNat := by
    have hlt := h.sp_lt
    have hle := h.le_sp
    by_contra h0
    rw [Nat.eq_zero_of_not_pos h0] at hle
    omega
  have hle := h.pages_le
  have htop := h.top_le
  rw [HasLength, BitVec.toNat_add]
  rw [pageSize] at hle ⊢
  omega

/-- After a complete call the struct of the user has the bounds of the task. -/
theorem run_readsSegments {env : SegmentEnv} {found : ℕ → Byte} {k : KState} {p : Word}
    {mm : MmStruct} (hf : env.found = some found) (hin : sizeofProcessSegments ≤ env.copiedIn)
    (hout : sizeofProcessSegments ≤ env.copiedOut)
    (ht : k.task (k.user.pid p) = some ⟨some mm⟩) :
    ∃ k', (myGetSegment env p).run k = .ok 0 k' ∧
      ReadsSegments MyGetSegment.processSegments (k'.user.byte p) mm := by
  obtain ⟨h, hr⟩ := run_myGetSegment_complete hf hin hout ht
  refine ⟨_, hr, ?_⟩
  dsimp only
  exact (readsSegments_filled mm k.user p).congr (fieldBytes_write _ _ _ size_processSegments)

theorem not_storesInterval_stack {u : UserMem} {p : Word} {mm : MmStruct} {sp : Word} {top : ℕ}
    (hread : ReadsSegments MyGetSegment.processSegments (u.byte p) mm)
    (h : SegmentsLaidOut mm sp top) :
    ¬ StoresInterval u p "stack_seg" (mm.stackVm.toNat * pageSize) := by
  rw [StoresInterval, hread.stack.startAddr, hread.stack.endAddr]
  exact not_hasLength_stack h

/-- A complete call stores code, data and heap as they are, and never the stack. -/
theorem not_storesSegments {env : SegmentEnv} {found : ℕ → Byte} {k : KState} {p : Word}
    {mm : MmStruct} (hf : env.found = some found) (hin : sizeofProcessSegments ≤ env.copiedIn)
    (hout : sizeofProcessSegments ≤ env.copiedOut)
    (ht : k.task (k.user.pid p) = some ⟨some mm⟩) {sp : Word} {top : ℕ}
    (hl : SegmentsLaidOut mm sp top) :
    ∃ k', (myGetSegment env p).run k = .ok 0 k' ∧
      StoresInterval k'.user p "code_seg" (mm.endCode.toNat - mm.startCode.toNat) ∧
      StoresInterval k'.user p "data_seg" (mm.endData.toNat - mm.startData.toNat) ∧
      StoresInterval k'.user p "heap_seg" (mm.brk.toNat - mm.startBrk.toNat) ∧
      ¬ StoresInterval k'.user p "stack_seg" (mm.stackVm.toNat * pageSize) ∧
      ¬ StoresSegments k'.user p mm sp := by
  obtain ⟨k', hr, hread⟩ := run_readsSegments hf hin hout ht
  have hstack := not_storesInterval_stack hread hl
  refine ⟨k', hr, ?_, ?_, ?_, hstack, fun h => hstack h.stack⟩
  · rw [StoresInterval, hread.code.startAddr, hread.code.endAddr]
    exact Nat.add_sub_of_le hl.code
  · rw [StoresInterval, hread.data.startAddr, hread.data.endAddr]
    exact Nat.add_sub_of_le hl.data
  · rw [StoresInterval, hread.heap.startAddr, hread.heap.endAddr]
    exact Nat.add_sub_of_le hl.heap

/-- The layout of the recorded run, with a stack pointer of its main thread. -/
theorem recordedMm_laidOut : SegmentsLaidOut recordedMm 0x7ffc8c1cb154 0x7ffc8c1cc000 := by
  constructor <;> decide

theorem not_storesSegments_recorded :
    ∃ k', (myGetSegment quietSegmentEnv 0x7000).run recordedState = .ok 0 k' ∧
      StoresInterval k'.user 0x7000 "code_seg" (0x565402a433a5 - 0x565402a42000) ∧
      StoresInterval k'.user 0x7000 "data_seg" (0x565402a46014 - 0x565402a45d5c) ∧
      StoresInterval k'.user 0x7000 "heap_seg" (0x565402f34000 - 0x565402f13000) ∧
      ¬ StoresInterval k'.user 0x7000 "stack_seg" (0x21 * pageSize) ∧
      ¬ StoresSegments k'.user 0x7000 recordedMm 0x7ffc8c1cb154 :=
  not_storesSegments (k := recordedState) rfl le_rfl le_rfl rfl recordedMm_laidOut

/-- The recorded run has 33 pages of stack and reports 33 bytes, from 0x7ffc8c1cb550 up. -/
theorem recorded_stack_segment :
    ∃ k', (myGetSegment quietSegmentEnv 0x7000).run recordedState = .ok 0 k' ∧
      HasLength (fieldWord MyGetSegment.processSegments (k'.user.byte 0x7000)
          ["stack_seg", "start_addr"])
        (fieldWord MyGetSegment.processSegments (k'.user.byte 0x7000)
          ["stack_seg", "end_addr"]) 33 ∧
      ¬ StoresSp k'.user 0x7000 0x7ffc8c1cb154 ∧
      ¬ StoresSegments k'.user 0x7000 recordedMm 0x7ffc8c1cb154 := by
  have hfound : quietSegmentEnv.found = some fun _ => 0 := rfl
  obtain ⟨k', hr, hread⟩ := run_readsSegments (k := recordedState) (p := 0x7000) hfound le_rfl
    le_rfl rfl
  refine ⟨k', hr, ?_, ?_, ?_⟩
  · rw [hread.stack.startAddr, hread.stack.endAddr]
    decide
  · rw [StoresSp, hread.stack.startAddr, hread.stack.endAddr]
    decide
  · exact fun h => not_storesInterval_stack hread recordedMm_laidOut h.stack

end LinuxOs2022.Syscall
