import LinuxOs2022.Library.Layout
import LinuxOs2022.Syscall.Segment

/-!
# How a call of `my_get_segment` ends

The copy in overwrites the whole new block, so nothing of what `kmalloc` found there is left.
Then the call ends in one of four ways: after an incomplete copy, without a task, at the NULL
pointer of a task without `mm`, or with the fields of the struct stored and copied back.

## Implementation notes

The bytes of the struct are a function of the offset, and every assignment to a field is a
store of bytes at an offset.
-/

namespace LinuxOs2022.Syscall

open Library PageTable

variable {k : KState} {env : SegmentEnv} {found : ℕ → Byte}

/-- The byte at an offset of a struct in user memory. -/
def UserMem.byte (u : UserMem) (p : Word) (i : ℕ) : Byte := u (p + BitVec.ofNat 64 i)

/-- The pid in a `struct ProcessSegments` of a user. -/
def UserMem.pid (u : UserMem) (p : Word) : BitVec 32 :=
  u.byte p 3 ++ u.byte p 2 ++ u.byte p 1 ++ u.byte p 0

/-- A block of the size of the struct. -/
def blockOf (f : ℕ → Byte) : List Byte := (List.range sizeofProcessSegments).map f

@[simp] theorem length_blockOf (f : ℕ → Byte) : (blockOf f).length = sizeofProcessSegments := by
  simp [blockOf]

theorem getElem?_blockOf (f : ℕ → Byte) {i : ℕ} (hi : i < sizeofProcessSegments) :
    (blockOf f)[i]? = some (f i) := by
  simp [blockOf, hi]

theorem take_blockOf (f : ℕ → Byte) {len : ℕ} (h : sizeofProcessSegments ≤ len) :
    (blockOf f).take len = blockOf f :=
  List.take_of_length_le (by rwa [length_blockOf])

/-- The three stores to one segment of the struct. -/
def segmentStores (off : ℕ) (startAddr endAddr : Word) (segName : String) :
    List (Patch Byte) :=
  [(off, bytesOf startAddr), (off + 8, bytesOf endAddr), (off + 16, cString segName)]

/-- All stores to the struct. -/
def stores (mm : MmStruct) : List (Patch Byte) :=
  segmentStores 8 mm.startCode mm.endCode "code_seg" ++
    segmentStores 152 mm.startData mm.endData "data_seg" ++
    segmentStores 296 mm.startBrk mm.brk "heap_seg" ++
    segmentStores 440 mm.startStack (mm.startStack + mm.stackVm) "stack_seg"

/-- The struct that is copied back. -/
def filled (mm : MmStruct) (u : UserMem) (p : Word) : ℕ → Byte :=
  Patch.applyAll (u.byte p) (stores mm)

/-- A store into a block. -/
theorem setBytes_blockOf (f : ℕ → Byte) {off : ℕ} {bytes : List Byte}
    (h : off + bytes.length ≤ sizeofProcessSegments) :
    setBytes (blockOf f) off bytes = blockOf (Patch.apply f (off, bytes)) := by
  have hlen : (setBytes (blockOf f) off bytes).length = sizeofProcessSegments := by
    simp only [setBytes, List.length_append, List.length_take, List.length_drop, length_blockOf]
    omega
  apply List.ext_getElem?
  intro j
  by_cases hj : j < sizeofProcessSegments
  · rw [getElem?_blockOf _ hj, setBytes, List.append_assoc]
    have htake : ((blockOf f).take off).length = off := by
      rw [List.length_take, length_blockOf]
      omega
    by_cases hoff : off ≤ j
    · rw [List.getElem?_append_right (by omega), htake, Patch.apply, if_pos hoff]
      dsimp only
      by_cases hb : j - off < bytes.length
      · rw [List.getElem?_append_left hb, List.getElem?_eq_getElem hb, Option.getD_some]
      · rw [List.getElem?_append_right (by omega), List.getElem?_drop,
          List.getElem?_eq_none (i := j - off) (by omega), Option.getD_none,
          show off + bytes.length + (j - off - bytes.length) = j by omega, getElem?_blockOf f hj]
    · rw [List.getElem?_append_left (by omega), List.getElem?_take_of_lt (by omega),
        getElem?_blockOf f hj, Patch.apply, if_neg hoff]
  · rw [List.getElem?_eq_none (by omega), List.getElem?_eq_none (by rw [length_blockOf]; omega)]

theorem run_storeBytes {i : ℕ} {f : ℕ → Byte} (hb : k.heap.block i = some (blockOf f))
    {off : ℕ} {bytes : List Byte} (h : off + bytes.length ≤ sizeofProcessSegments) :
    (storeBytes (some i) off bytes).run k = .ok () { k with
      heap := k.heap.write i (blockOf (Patch.apply f (off, bytes))) } := by
  rw [storeBytes, run_bind_ok (run_readBlock hb), setBytes_blockOf f h]
  exact run_writeBlock hb _

theorem run_loadMm {mm : MmStruct} (field : MmStruct → Word) :
    (loadMm ⟨some mm⟩ field).run k = .ok (field mm) k := rfl

/-- The three assignments to one segment. -/
theorem run_storeSegment {i : ℕ} {f : ℕ → Byte} (hb : k.heap.block i = some (blockOf f))
    (off : ℕ) (mm : MmStruct) (startAddr endAddr : MmStruct → Word) (segName : String)
    (h : off + 16 + (cString segName).length ≤ sizeofProcessSegments) :
    ∃ h, h.block i = some
        (blockOf (Patch.applyAll f (segmentStores off (startAddr mm) (endAddr mm) segName))) ∧
      (storeSegment (some i) off ⟨some mm⟩ startAddr endAddr segName).run k =
        .ok () { k with heap := h } := by
  rw [storeSegment, run_bind_ok (run_loadMm startAddr),
    run_bind_ok (run_storeBytes hb (by rw [length_bytesOf]; omega)),
    run_bind_ok (run_loadMm endAddr),
    run_bind_ok (run_storeBytes (Heap.block_write_self hb _) (by rw [length_bytesOf]; omega)),
    run_storeBytes (Heap.block_write_self (Heap.block_write_self hb _) _) h]
  exact ⟨_, Heap.block_write_self (Heap.block_write_self (Heap.block_write_self hb _) _) _, rfl⟩

/-- After a complete copy in the block holds the struct of the user. -/
theorem copiedBuffer_of_le (u : UserMem) (p : Word) {copied : ℕ}
    (h : sizeofProcessSegments ≤ copied) :
    copiedBuffer u p sizeofProcessSegments copied = blockOf (u.byte p) := by
  refine List.map_congr_left ?_
  intro i hi
  rw [if_pos ((List.mem_range.mp hi).trans_le h), UserMem.byte]

theorem run_loadPid {i : ℕ} {u : UserMem} {p : Word}
    (hb : k.heap.block i = some (blockOf (u.byte p))) :
    (loadPid (some i)).run k = .ok (u.pid p) k := by
  have hget : ∀ j < 4, (blockOf (u.byte p)).getD j 0 = u.byte p j := by
    intro j hj
    rw [List.getD_eq_getElem?_getD, getElem?_blockOf _ (by rw [sizeofProcessSegments]; omega),
      Option.getD_some]
  rw [loadPid, run_bind_ok (run_readBlock hb), hget 0 (by omega), hget 1 (by omega),
    hget 2 (by omega), hget 3 (by omega)]
  rfl

theorem run_findTaskByVpid (pid : BitVec 32) :
    (findTaskByVpid pid).run k = .ok (k.task pid) k := rfl

/-- The number of bytes not copied is zero exactly for a complete copy. -/
theorem notCopied_eq_zero_iff (copied : ℕ) :
    BitVec.ofNat 64 (sizeofProcessSegments - copied) = 0 ↔ sizeofProcessSegments ≤ copied := by
  have hlt : sizeofProcessSegments - copied < 2 ^ 64 := by
    rw [sizeofProcessSegments]
    omega
  rw [← BitVec.toNat_inj, BitVec.toNat_ofNat, Nat.mod_eq_of_lt hlt]
  exact Nat.sub_eq_zero_iff_le

/-- The state in which the call goes on after the copy in. -/
def afterCopyIn (env : SegmentEnv) (k : KState) (p : Word) : KState :=
  { k with heap := k.heap.alloc (copiedBuffer k.user p sizeofProcessSegments env.copiedIn) }

/-- The call goes on with the struct of the user in its block. -/
theorem block_afterCopyIn (hin : sizeofProcessSegments ≤ env.copiedIn) (p : Word) :
    (afterCopyIn env k p).heap.block k.heap.fresh = some (blockOf (k.user.byte p)) := by
  rw [afterCopyIn, copiedBuffer_of_le _ _ hin]
  exact Heap.block_alloc_self _ _

/-- An incomplete copy in is reported by the number of bytes that are missing. -/
theorem run_myGetSegment_of_lt (hf : env.found = some found)
    (hin : env.copiedIn < sizeofProcessSegments) (p : Word) :
    (myGetSegment env p).run k = .ok (BitVec.ofNat 64 (sizeofProcessSegments - env.copiedIn))
      { afterCopyIn env k p with
        dmesg := k.dmesg ++ [(kernAlert ++ "copy_from_user failed\n", [])] } := by
  have hne := mt (notCopied_eq_zero_iff env.copiedIn).mp (by omega)
  rw [myGetSegment, hf, run_bind_ok (run_kmalloc_some _ _),
    run_bind_ok (run_copyFromUser (Heap.block_alloc_self _ _) _ _ _), if_pos hne,
    run_bind_ok (run_printk _ _), Heap.write_alloc]
  rfl

/-- After a complete copy in the pid is looked up. -/
theorem run_myGetSegment_of_le (hf : env.found = some found)
    (hin : sizeofProcessSegments ≤ env.copiedIn) (p : Word) :
    (myGetSegment env p).run k =
      (match k.task (k.user.pid p) with
        | none => pure 0
        | some task => do
            storeSegment (some k.heap.fresh) 8 task (·.startCode) (·.endCode) "code_seg"
            storeSegment (some k.heap.fresh) 152 task (·.startData) (·.endData) "data_seg"
            storeSegment (some k.heap.fresh) 296 task (·.startBrk) (·.brk) "heap_seg"
            storeSegment (some k.heap.fresh) 440 task (·.startStack)
              (fun mm => mm.startStack + mm.stackVm) "stack_seg"
            copyToUser p (some k.heap.fresh) sizeofProcessSegments env.copiedOut : Kernel Word).run
        (afterCopyIn env k p) := by
  have hz := (notCopied_eq_zero_iff env.copiedIn).mpr hin
  rw [myGetSegment, hf, run_bind_ok (run_kmalloc_some _ _),
    run_bind_ok (run_copyFromUser (Heap.block_alloc_self _ _) _ _ _), hz,
    if_neg (not_not.mpr rfl), Heap.write_alloc]
  exact (run_bind_ok (run_loadPid (block_afterCopyIn hin p))).trans
    (run_bind_ok (run_findTaskByVpid _))

/-- What was found in the new block has no part in the result. -/
theorem run_myGetSegment_congr {env' : SegmentEnv} {found' : ℕ → Byte}
    (hf : env.found = some found) (hf' : env'.found = some found')
    (hin : env.copiedIn = env'.copiedIn) (hout : env.copiedOut = env'.copiedOut) (p : Word) :
    (myGetSegment env p).run k = (myGetSegment env' p).run k := by
  by_cases hlt : env.copiedIn < sizeofProcessSegments
  · rw [run_myGetSegment_of_lt hf hlt, run_myGetSegment_of_lt hf' (hin ▸ hlt), afterCopyIn,
      afterCopyIn, hin]
  · have hle := not_lt.mp hlt
    rw [run_myGetSegment_of_le hf hle, run_myGetSegment_of_le hf' (hin ▸ hle), afterCopyIn,
      afterCopyIn, hin, hout]

/-- A pid without a task ends the call with 0. -/
theorem run_myGetSegment_noTask (hf : env.found = some found)
    (hin : sizeofProcessSegments ≤ env.copiedIn) {p : Word}
    (ht : k.task (k.user.pid p) = none) :
    (myGetSegment env p).run k = .ok 0 (afterCopyIn env k p) := by
  rw [run_myGetSegment_of_le hf hin, ht]
  rfl

/-- A task without `mm` stops the call at its first field. -/
theorem run_myGetSegment_noMm (hf : env.found = some found)
    (hin : sizeofProcessSegments ≤ env.copiedIn) {p : Word}
    (ht : k.task (k.user.pid p) = some ⟨none⟩) :
    (myGetSegment env p).run k = .error .nullDereference (afterCopyIn env k p) := by
  rw [run_myGetSegment_of_le hf hin, ht]
  rfl

/-- The stores of a call for a task with `mm` leave the filled struct in the block for what
comes after them. -/
theorem run_storeSegments {i : ℕ} {u : UserMem} {p : Word} (mm : MmStruct)
    (hb : k.heap.block i = some (blockOf (u.byte p))) (x : Kernel Word) :
    ∃ h, h.block i = some (blockOf (filled mm u p)) ∧
      (do
        storeSegment (some i) 8 ⟨some mm⟩ (·.startCode) (·.endCode) "code_seg"
        storeSegment (some i) 152 ⟨some mm⟩ (·.startData) (·.endData) "data_seg"
        storeSegment (some i) 296 ⟨some mm⟩ (·.startBrk) (·.brk) "heap_seg"
        storeSegment (some i) 440 ⟨some mm⟩ (·.startStack)
          (fun mm => mm.startStack + mm.stackVm) "stack_seg"
        x : Kernel Word).run k = x.run { k with heap := h } := by
  obtain ⟨h₁, hb₁, hr₁⟩ := run_storeSegment hb 8 mm (·.startCode) (·.endCode) "code_seg"
    (by decide)
  obtain ⟨h₂, hb₂, hr₂⟩ := run_storeSegment (k := { k with heap := h₁ }) hb₁ 152 mm
    (·.startData) (·.endData) "data_seg" (by decide)
  obtain ⟨h₃, hb₃, hr₃⟩ := run_storeSegment (k := { k with heap := h₂ }) hb₂ 296 mm
    (·.startBrk) (·.brk) "heap_seg" (by decide)
  obtain ⟨h₄, hb₄, hr₄⟩ := run_storeSegment (k := { k with heap := h₃ }) hb₃ 440 mm
    (·.startStack) (fun mm => mm.startStack + mm.stackVm) "stack_seg" (by decide)
  refine ⟨h₄, ?_, ?_⟩
  · rw [hb₄, filled, stores]
    simp only [Patch.applyAll, List.foldl_append]
  · rw [run_bind_ok hr₁, run_bind_ok hr₂, run_bind_ok hr₃, run_bind_ok hr₄]

/-- For a task with `mm` the filled struct is copied back as far as the copy goes. -/
theorem run_myGetSegment_mm (hf : env.found = some found)
    (hin : sizeofProcessSegments ≤ env.copiedIn) {p : Word} {mm : MmStruct}
    (ht : k.task (k.user.pid p) = some ⟨some mm⟩) :
    ∃ h, (myGetSegment env p).run k =
      .ok (BitVec.ofNat 64 (sizeofProcessSegments - env.copiedOut)) { k with
        heap := h
        user := k.user.write p ((blockOf (filled mm k.user p)).take env.copiedOut) } := by
  obtain ⟨h, hb, hr⟩ := run_storeSegments mm (block_afterCopyIn hin p)
    (copyToUser p (some k.heap.fresh) sizeofProcessSegments env.copiedOut)
  refine ⟨h, ?_⟩
  rw [run_myGetSegment_of_le hf hin, ht]
  have hcopy := run_copyToUser (k := { afterCopyIn env k p with heap := h }) hb p
    sizeofProcessSegments env.copiedOut
  rw [take_blockOf _ le_rfl] at hcopy
  exact hr.trans hcopy

end LinuxOs2022.Syscall
