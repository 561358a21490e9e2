import LinuxOs2022.Syscall.Kernel

/-!
# `my_get_segment`

The system call copies a `struct ProcessSegments` in, looks its pid up, writes the bounds
and the names of four segments into it and copies it back. Its block is never freed.

## Implementation notes

A `struct Segment` has 144 bytes: two words and a name of 128 bytes. The pid takes 4 bytes
and 4 bytes of padding, so the four segments start at 8, 152, 296 and 440.
-/

namespace LinuxOs2022.Syscall

open Library PageTable

/-- What the environment of one call decides: the allocation and where the two copies
stop. -/
structure SegmentEnv where
  found : Option (ℕ → Byte)
  copiedIn : ℕ
  copiedOut : ℕ

/-- `KERN_ALERT`. -/
def kernAlert : String := "\x011"

/-- `sizeof(struct ProcessSegments)`. -/
def sizeofProcessSegments : ℕ := 584

/-- Bytes with some of them replaced from offset `off` on. -/
def setBytes (block : List Byte) (off : ℕ) (bytes : List Byte) : List Byte :=
  block.take off ++ bytes ++ block.drop (off + bytes.length)

/-- The bytes that `strcpy` writes: the characters and a NUL. -/
def cString (s : String) : List Byte := s.toList.map (fun c => BitVec.ofNat 8 c.toNat) ++ [0]

/-- Store bytes at an offset of a block. -/
def storeBytes (p : Ptr) (off : ℕ) (bytes : List Byte) : Kernel Unit := do
  writeBlock p (setBytes (← readBlock p) off bytes)

/-- `process_segments->pid`. -/
def loadPid (p : Ptr) : Kernel (BitVec 32) := do
  let b ← readBlock p
  pure (b.getD 3 0 ++ b.getD 2 0 ++ b.getD 1 0 ++ b.getD 0 0)

/-- `find_task_by_vpid(pid)`. -/
def findTaskByVpid (pid : BitVec 32) : Kernel (Option TaskRef) := do
  pure ((← get).task pid)

/-- `task->mm->field`, an oops for a task without `mm`. -/
def loadMm (task : TaskRef) (field : MmStruct → Word) : Kernel Word :=
  match task.mm with
  | none => throw .nullDereference
  | some mm => pure (field mm)

/-- The three assignments to one segment of the struct at `off`. -/
def storeSegment (p : Ptr) (off : ℕ) (task : TaskRef) (startAddr endAddr : MmStruct → Word)
    (segName : String) : Kernel Unit := do
  storeBytes p off (bytesOf (← loadMm task startAddr))
  storeBytes p (off + 8) (bytesOf (← loadMm task endAddr))
  storeBytes p (off + 16) (cString segName)

/-- `my_get_segment(user_thread_seg)`. -/
def myGetSegment (env : SegmentEnv) (userThreadSeg : Word) : Kernel Word := do
  let processSegments ← kmalloc sizeofProcessSegments env.found
  let ret ← copyFromUser processSegments userThreadSeg sizeofProcessSegments env.copiedIn
  if ret ≠ 0 then do
    printk (kernAlert ++ "copy_from_user failed\n") []
    pure ret
  else do
    match ← findTaskByVpid (← loadPid processSegments) with
    | none => pure 0
    | some task => do
        storeSegment processSegments 8 task (·.startCode) (·.endCode) "code_seg"
        storeSegment processSegments 152 task (·.startData) (·.endData) "data_seg"
        storeSegment processSegments 296 task (·.startBrk) (·.brk) "heap_seg"
        -- `stack_vm` counts pages, but it is added to an address as it is
        storeSegment processSegments 440 task (·.startStack)
          (fun mm => mm.startStack + mm.stackVm) "stack_seg"
        copyToUser userThreadSeg processSegments sizeofProcessSegments env.copiedOut

/-- The state at the end of a computation, also after an oops. -/
def finalState {α : Type} : EStateM.Result Oops KState α → KState
  | .ok _ k => k
  | .error _ k => k

/-- A computation that neither allocates nor frees, however it ends. -/
def KeepsLive {α : Type} (x : Kernel α) : Prop :=
  ∀ k, (finalState (x.run k)).heap.live = k.heap.live

section KeepsLive

variable {α β : Type}

theorem KeepsLive.pure (a : α) : KeepsLive (pure a : Kernel α) := fun _ => rfl

theorem KeepsLive.throw (e : Oops) : KeepsLive (throw e : Kernel α) := fun _ => rfl

theorem KeepsLive.get : KeepsLive (get : Kernel KState) := fun _ => rfl

theorem KeepsLive.bind {x : Kernel α} {f : α → Kernel β} (hx : KeepsLive x)
    (hf : ∀ a, KeepsLive (f a)) : KeepsLive (x >>= f) := by
  intro k
  cases hr : x.run k with
  | ok a k' =>
      have hk := hx k
      rw [hr] at hk
      rw [run_bind_ok hr, hf a k']
      exact hk
  | error e k' =>
      have hk := hx k
      rw [hr] at hk
      rw [run_bind_error hr]
      exact hk

theorem KeepsLive.printk (fmt : String) (args : List Word) :
    KeepsLive (printk fmt args) := fun _ => rfl

theorem KeepsLive.readBlock (p : Ptr) : KeepsLive (readBlock p) := by
  cases p with
  | none => exact .throw _
  | some i =>
      refine .bind .get fun k => ?_
      split
      · exact .throw _
      · exact .pure _

theorem KeepsLive.writeBlock (p : Ptr) (bytes : List Byte) : KeepsLive (writeBlock p bytes) := by
  cases p with
  | none => exact .throw _
  | some i =>
      refine .bind .get fun k => ?_
      split
      · exact .throw _
      · exact fun k => k.heap.live_write i bytes

theorem KeepsLive.copyFromUser (dst : Ptr) (src : Word) (n copied : ℕ) :
    KeepsLive (copyFromUser dst src n copied) :=
  .bind .get fun _ => .bind (.writeBlock _ _) fun _ => .pure _

theorem KeepsLive.copyToUser (dst : Word) (src : Ptr) (n copied : ℕ) :
    KeepsLive (copyToUser dst src n copied) :=
  .bind (.readBlock _) fun _ => .bind (fun _ => rfl) fun _ => .pure _

theorem KeepsLive.storeBytes (p : Ptr) (off : ℕ) (bytes : List Byte) :
    KeepsLive (storeBytes p off bytes) :=
  .bind (.readBlock _) fun _ => .writeBlock _ _

theorem KeepsLive.loadMm (task : TaskRef) (field : MmStruct → Word) :
    KeepsLive (loadMm task field) := by
  rw [Syscall.loadMm]
  split
  · exact .throw _
  · exact .pure _

theorem KeepsLive.storeSegment (p : Ptr) (off : ℕ) (task : TaskRef)
    (startAddr endAddr : MmStruct → Word) (segName : String) :
    KeepsLive (storeSegment p off task startAddr endAddr segName) :=
  .bind (.loadMm _ _) fun _ => .bind (.storeBytes _ _ _) fun _ =>
    .bind (.loadMm _ _) fun _ => .bind (.storeBytes _ _ _) fun _ => .storeBytes _ _ _

end KeepsLive

/-- However the call ends, the block it allocated is still there. -/
theorem live_myGetSegment (env : SegmentEnv) {found : ℕ → Byte}
    (hf : env.found = some found) (k : KState) (userThreadSeg : Word) :
    (finalState ((myGetSegment env userThreadSeg).run k)).heap.live =
      insert k.heap.fresh k.heap.live := by
  rw [myGetSegment, hf, run_bind_ok (run_kmalloc_some _ _),
    ← k.heap.live_alloc ((List.range sizeofProcessSegments).map found)]
  refine KeepsLive.bind (.copyFromUser _ _ _ _) (fun ret => ?_) _
  split
  · exact .bind (.printk _ _) fun _ => .pure _
  · refine .bind (.bind (.readBlock _) fun _ => .pure _) fun pid => ?_
    refine .bind (.bind .get fun _ => .pure _) fun task => ?_
    split
    · exact .pure _
    · exact .bind (.storeSegment _ _ _ _ _ _) fun _ =>
        .bind (.storeSegment _ _ _ _ _ _) fun _ =>
        .bind (.storeSegment _ _ _ _ _ _) fun _ =>
        .bind (.storeSegment _ _ _ _ _ _) fun _ => .copyToUser _ _ _ _

/-- A failed allocation is not tested: the copy in stops the call. -/
theorem run_myGetSegment_null {env : SegmentEnv} (hf : env.found = none) (k : KState)
    (userThreadSeg : Word) :
    (myGetSegment env userThreadSeg).run k = .error .nullDereference k := by
  rw [myGetSegment, hf, run_bind_ok (run_kmalloc_none _)]
  exact run_bind_error (run_copyFromUser_null _ _ _)

end LinuxOs2022.Syscall
