import LinuxOs2022.Library.Heap
import LinuxOs2022.PageTable.KernelWalk

/-!
# The kernel services that the memory system calls use

A system call runs on a state with the kernel heap, the user memory of its caller, the
physical memory that holds the page tables, the task table and the kernel log. It may stop
with an oops: a NULL pointer is used, or a block is used or freed after it was freed.

## Implementation notes

`kmalloc`, `copy_from_user` and `copy_to_user` take the outcome as an argument: the bytes
found in a new block or `none` for a failed allocation, and the number of bytes after which
a copy stops. A state survives an oops, since the heap of the machine does.
-/

namespace LinuxOs2022.Syscall

open Library PageTable

/-- `char`. -/
abbrev Byte := BitVec 8

/-- The memory of a user process, byte by byte. -/
abbrev UserMem := Word → Byte

/-- A pointer to a heap block; `none` is NULL. -/
abbrev Ptr := Option ℕ

/-- Why the kernel stops a system call. -/
inductive Oops
  | nullDereference
  | useAfterFree
  | badFree
  deriving DecidableEq

/-- The fields of `struct mm_struct` that delimit the segments of a program image. -/
structure MmStruct where
  startCode : Word
  endCode : Word
  startData : Word
  endData : Word
  startBrk : Word
  brk : Word
  startStack : Word
  stackVm : Word

/-- What the task table gives for a pid: a task with its `mm`, NULL for kernel threads. -/
structure TaskRef where
  mm : Option MmStruct

/-- The state on which a system call runs. -/
structure KState where
  heap : Heap (List Byte)
  user : UserMem
  mem : PhysMem
  /-- `current->mm->pgd`. -/
  pgd : Frame
  /-- `pgtable_l5_enabled()`. -/
  l5 : Bool
  /-- `find_task_by_vpid`. -/
  task : BitVec 32 → Option TaskRef
  dmesg : List (String × List Word)

/-- A system call in progress. -/
abbrev Kernel := EStateM Oops KState

/-! ## Bytes and words -/

/-- The little-endian word of eight bytes. -/
def wordOf (b : ℕ → Byte) : Word :=
  b 7 ++ b 6 ++ b 5 ++ b 4 ++ b 3 ++ b 2 ++ b 1 ++ b 0

/-- The bytes of a word, low byte first. -/
def bytesOf (w : Word) : List Byte := (List.range 8).map fun i => w.extractLsb' (8 * i) 8

@[simp] theorem length_bytesOf (w : Word) : (bytesOf w).length = 8 := rfl

/-- The word of its own bytes. -/
theorem wordOf_bytesOf (w : Word) : wordOf (fun i => (bytesOf w).getD i 0) = w := by
  have hbytes : wordOf (fun i => (bytesOf w).getD i 0) =
      w.extractLsb' 56 8 ++ w.extractLsb' 48 8 ++ w.extractLsb' 40 8 ++ w.extractLsb' 32 8 ++
        w.extractLsb' 24 8 ++ w.extractLsb' 16 8 ++ w.extractLsb' 8 8 ++ w.extractLsb' 0 8 := rfl
  rw [hbytes]
  simp only [BitVec.extractLsb'_append_extractLsb'_eq_extractLsb']
  exact BitVec.extractLsb'_eq_self

/-- The word at a user address. -/
def UserMem.word (u : UserMem) (p : Word) : Word := wordOf fun i => u (p + BitVec.ofNat 64 i)

/-- User memory after a store of bytes from address `p` on. -/
def UserMem.write (u : UserMem) (p : Word) (bytes : List Byte) : UserMem := fun q =>
  (bytes[(q - p).toNat]?).getD (u q)

theorem wordOf_congr {b c : ℕ → Byte} (h : ∀ i < 8, b i = c i) : wordOf b = wordOf c := by
  simp only [wordOf, h 0 (by omega), h 1 (by omega), h 2 (by omega), h 3 (by omega),
    h 4 (by omega), h 5 (by omega), h 6 (by omega), h 7 (by omega)]

/-- A word stored whole is read back. -/
theorem UserMem.word_write (u : UserMem) (p w : Word) :
    (u.write p (bytesOf w)).word p = w := by
  calc
    (u.write p (bytesOf w)).word p = wordOf (fun i => (bytesOf w).getD i 0) := by
      apply wordOf_congr
      intro i hi
      have hq : (p + BitVec.ofNat 64 i - p).toNat = i := by
        rw [BitVec.add_comm, BitVec.add_sub_cancel, BitVec.toNat_ofNat]
        omega
      have hl : i < (bytesOf w).length := hi
      rw [UserMem.write, hq, List.getElem?_eq_getElem hl, Option.getD_some,
        List.getD_eq_getElem?_getD, List.getElem?_eq_getElem hl, Option.getD_some]
    _ = w := wordOf_bytesOf w

/-! ## Services -/

/-- `kmalloc`: a block with the bytes found there, or NULL. -/
def kmalloc (size : ℕ) : Option (ℕ → Byte) → Kernel Ptr
  | none => pure none
  | some found => modifyGet fun k =>
      (some k.heap.fresh, { k with heap := k.heap.alloc ((List.range size).map found) })

/-- The contents of the block a pointer refers to. -/
def readBlock : Ptr → Kernel (List Byte)
  | none => throw .nullDereference
  | some i => do
      match (← get).heap.block i with
      | none => throw .useAfterFree
      | some bytes => pure bytes

/-- Store the contents of the block a pointer refers to. -/
def writeBlock (p : Ptr) (bytes : List Byte) : Kernel Unit := do
  match p with
  | none => throw .nullDereference
  | some i =>
      match (← get).heap.block i with
      | none => throw .useAfterFree
      | some _ => modify fun k => { k with heap := k.heap.write i bytes }

/-- `kfree`: nothing for NULL, an oops for a block that is not live. -/
def kfree : Ptr → Kernel Unit
  | none => pure ()
  | some i => do
      match (← get).heap.block i with
      | none => throw .badFree
      | some _ => modify fun k => { k with heap := k.heap.free i }

/-- The kernel buffer after a copy from user memory that stops after `copied` bytes: the
rest of the buffer is zero-filled. -/
def copiedBuffer (u : UserMem) (src : Word) (n copied : ℕ) : List Byte :=
  (List.range n).map fun i => if i < copied then u (src + BitVec.ofNat 64 i) else 0

/-- `copy_from_user`: the number of bytes that were not copied. -/
def copyFromUser (dst : Ptr) (src : Word) (n copied : ℕ) : Kernel Word := do
  let k ← get
  writeBlock dst (copiedBuffer k.user src n copied)
  pure (BitVec.ofNat 64 (n - copied))

/-- `copy_to_user`: the bytes before the stop are stored, the number of the others is
returned. -/
def copyToUser (dst : Word) (src : Ptr) (n copied : ℕ) : Kernel Word := do
  let bytes ← readBlock src
  modify fun k => { k with user := k.user.write dst ((bytes.take n).take copied) }
  pure (BitVec.ofNat 64 (n - copied))

/-- `printk`. -/
def printk (fmt : String) (args : List Word) : Kernel Unit :=
  modify fun k => { k with dmesg := k.dmesg ++ [(fmt, args)] }

/-! ## What the services do -/

section Run

variable {α β : Type} {k k' : KState}

theorem run_bind_ok {x : Kernel α} {f : α → Kernel β} {a : α}
    (h : x.run k = .ok a k') : (x >>= f).run k = (f a).run k' := by
  simp only [bind, EStateM.bind, EStateM.run] at h ⊢
  rw [h]

theorem run_bind_error {x : Kernel α} {f : α → Kernel β} {e : Oops}
    (h : x.run k = .error e k') : (x >>= f).run k = .error e k' := by
  simp only [bind, EStateM.bind, EStateM.run] at h ⊢
  rw [h]

theorem run_get : (get : Kernel KState).run k = .ok k k := rfl

theorem run_kmalloc_some (size : ℕ) (found : ℕ → Byte) :
    (kmalloc size (some found)).run k = .ok (some k.heap.fresh)
      { k with heap := k.heap.alloc ((List.range size).map found) } := rfl

theorem run_kmalloc_none (size : ℕ) : (kmalloc size none).run k = .ok none k := rfl

theorem run_readBlock {i : ℕ} {bytes : List Byte} (h : k.heap.block i = some bytes) :
    (readBlock (some i)).run k = .ok bytes k := by
  rw [readBlock, run_bind_ok run_get, h]
  rfl

theorem run_writeBlock {i : ℕ} {old : List Byte} (h : k.heap.block i = some old)
    (bytes : List Byte) :
    (writeBlock (some i) bytes).run k = .ok () { k with heap := k.heap.write i bytes } := by
  rw [writeBlock, run_bind_ok run_get, h]
  rfl

theorem run_writeBlock_null (bytes : List Byte) :
    (writeBlock none bytes).run k = .error .nullDereference k := rfl

theorem run_kfree {i : ℕ} {old : List Byte} (h : k.heap.block i = some old) :
    (kfree (some i)).run k = .ok () { k with heap := k.heap.free i } := by
  rw [kfree, run_bind_ok run_get, h]
  rfl

theorem run_copyFromUser {i : ℕ} {old : List Byte} (h : k.heap.block i = some old)
    (src : Word) (n copied : ℕ) :
    (copyFromUser (some i) src n copied).run k = .ok (BitVec.ofNat 64 (n - copied))
      { k with heap := k.heap.write i (copiedBuffer k.user src n copied) } := by
  rw [copyFromUser, run_bind_ok run_get, run_bind_ok (run_writeBlock h _)]
  rfl

theorem run_copyFromUser_null (src : Word) (n copied : ℕ) :
    (copyFromUser none src n copied).run k = .error .nullDereference k := rfl

theorem run_copyToUser {i : ℕ} {bytes : List Byte} (h : k.heap.block i = some bytes)
    (dst : Word) (n copied : ℕ) :
    (copyToUser dst (some i) n copied).run k = .ok (BitVec.ofNat 64 (n - copied))
      { k with user := k.user.write dst ((bytes.take n).take copied) } := by
  rw [copyToUser, run_bind_ok (run_readBlock h)]
  rfl

theorem run_printk (fmt : String) (args : List Word) :
    (printk fmt args).run k = .ok () { k with dmesg := k.dmesg ++ [(fmt, args)] } := rfl

end Run

end LinuxOs2022.Syscall
