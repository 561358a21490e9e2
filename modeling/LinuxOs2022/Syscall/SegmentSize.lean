import LinuxOs2022.Syscall.SegmentLayout
import LinuxOs2022.Syscall.TableWalk

/-!
# The segment sizes that the test programs print

A program asks for its segments, translates the two bounds of each and prints the physical
start less the physical end with `%u`. Contiguous virtual pages need not have contiguous
frames, and where they have, the difference comes out negated.

## Implementation notes

The locals of the program are given by their addresses, and no two of them overlap. The three
test functions print the segments with the same statements.
-/

namespace LinuxOs2022.Syscall

open Library PageTable

variable {k k' : KState} {a b : Word}

/-! ## The program -/

/-- The addresses of the locals: `thread_segs`, and the two variables of `get_phys_addr`. -/
structure Locals where
  threadSegs : Word
  virtualAddress : Word
  physicalAddress : Word

/-- The variables of `get_phys_addr` lie outside `thread_segs`. -/
def Locals.Apart (L : Locals) : Prop := ∀ i < sizeofProcessSegments,
  8 ≤ (L.threadSegs + BitVec.ofNat 64 i - L.virtualAddress).toNat ∧
    8 ≤ (L.threadSegs + BitVec.ofNat 64 i - L.physicalAddress).toNat

/-- `get_phys_addr(virtual_address)`. -/
def getPhysAddr (env : PhyAddrEnv) (L : Locals) (virtualAddress : Word) : Kernel Word := do
  modify fun k => { k with user := k.user.write L.virtualAddress (bytesOf virtualAddress) }
  -- the return value of the system call is dropped
  let _ ← myOtherGetPhyAddr env L.virtualAddress L.physicalAddress
  pure ((← get).user.word L.physicalAddress)

/-- A word in `thread_segs`. -/
def threadSegsField (L : Locals) (path : List String) : Kernel Word := do
  pure (fieldWord TestMultiThread.processSegments ((← get).user.byte L.threadSegs) path)

/-- `printf` with `%u`: the low 32 bits. -/
def printedU (w : Word) : ℕ := (w.setWidth 32).toNat

/-- The statements about one segment: its printed size. -/
def printSegment (envs : PhyAddrEnv × PhyAddrEnv) (L : Locals) (seg : String) :
    Kernel (String × ℕ) := do
  let segmentStartAddr ← getPhysAddr envs.1 L (← threadSegsField L [seg, "start_addr"])
  let segmentEndAddr ← getPhysAddr envs.2 L (← threadSegsField L [seg, "end_addr"])
  let segmentSizeInBytes := segmentStartAddr - segmentEndAddr
  pure (seg, printedU segmentSizeInBytes)

/-- The part of `main` that finds the segments and prints them. -/
def printSegments (segmentEnv : SegmentEnv) (envs : String → PhyAddrEnv × PhyAddrEnv)
    (L : Locals) : Kernel (List (String × ℕ)) := do
  let _ ← myGetSegment segmentEnv L.threadSegs
  segNames.mapM fun seg => printSegment (envs seg) L seg

/-! ## What is printed -/

/-- The page tables and `thread_segs` are as before. -/
structure KeepsSegs (L : Locals) (k k' : KState) : Prop where
  tables : SameTables k k'
  segs : ∀ i < sizeofProcessSegments, k'.user.byte L.threadSegs i = k.user.byte L.threadSegs i

/-- What the call computes for an address. -/
def physAddr (k : KState) (a : Word) : Word := joinPage (followed k.l5 k.mem k.pgd a) a

theorem KeepsSegs.trans {L : Locals} {k₁ k₂ k₃ : KState} (h₁ : KeepsSegs L k₁ k₂)
    (h₂ : KeepsSegs L k₂ k₃) : KeepsSegs L k₁ k₃ :=
  ⟨⟨h₂.tables.mem.trans h₁.tables.mem, h₂.tables.pgd.trans h₁.tables.pgd,
    h₂.tables.l5.trans h₁.tables.l5⟩, fun i hi => (h₂.segs i hi).trans (h₁.segs i hi)⟩

theorem KeepsSegs.physAddr {L : Locals} (h : KeepsSegs L k k') (a : Word) :
    physAddr k' a = physAddr k a := by
  rw [Syscall.physAddr, Syscall.physAddr, h.tables.mem, h.tables.pgd, h.tables.l5]

theorem KeepsSegs.fieldBytes {L : Locals} (h : KeepsSegs L k k') (path : List String) :
    fieldBytes TestMultiThread.processSegments (k'.user.byte L.threadSegs) path =
      fieldBytes TestMultiThread.processSegments (k.user.byte L.threadSegs) path :=
  fieldBytes_eq (testDeclarations_agree TestMultiThread.processSegments List.mem_cons_self).1
    h.segs path

/-- A byte that a store does not reach. -/
theorem UserMem.write_of_le (u : UserMem) {p q : Word} {bytes : List Byte}
    (h : bytes.length ≤ (q - p).toNat) : u.write p bytes q = u q := by
  rw [UserMem.write, List.getElem?_eq_none h, Option.getD_none]

/-- A call that returns changes no tables and only the eight bytes at `result`. -/
theorem frame_myOtherGetPhyAddr {env : PhyAddrEnv} {initial result r : Word}
    (h : (myOtherGetPhyAddr env initial result).run k = .ok r k') :
    SameTables k k' ∧ ∀ q, 8 ≤ (q - result).toNat → k'.user q = k.user q := by
  by_cases ha : env.Allocates
  · obtain ⟨_, _, -, hr⟩ := run_myOtherGetPhyAddr ha k initial result
    rw [hr] at h
    cases h
    refine ⟨⟨rfl, rfl, rfl⟩, fun q hq => UserMem.write_of_le _ (le_trans ?_ hq)⟩
    exact (List.length_take_le' _ _).trans (length_bytesOf _).le
  · obtain ⟨_, hr⟩ := run_myOtherGetPhyAddr_null ha k initial result
    rw [hr] at h
    cases h

/-- With complete copies `get_phys_addr` returns what the call computes. -/
theorem run_getPhysAddr {env : PhyAddrEnv} (he : env.Complete) {L : Locals} (ha : L.Apart)
    (k : KState) (a : Word) :
    ∃ k', (getPhysAddr env L a).run k = .ok (physAddr k a) k' ∧ KeepsSegs L k k' := by
  let k₁ : KState := { k with user := k.user.write L.virtualAddress (bytesOf a) }
  have hw : k₁.user.word L.virtualAddress = a := UserMem.word_write _ _ _
  obtain ⟨k', hr, hword⟩ := stored_word he k₁ L.virtualAddress L.physicalAddress
  obtain ⟨htables, hframe⟩ := frame_myOtherGetPhyAddr hr
  rw [hw, pteWord_eq_followed] at hword
  refine ⟨k', ?_, ⟨htables.mem, htables.pgd, htables.l5⟩, ?_⟩
  · have hstore : (modify fun k => { k with
        user := k.user.write L.virtualAddress (bytesOf a) } : Kernel PUnit).run k =
        .ok ⟨⟩ k₁ := rfl
    rw [getPhysAddr, run_bind_ok hstore, run_bind_ok hr, run_bind_ok run_get, hword]
    rfl
  · intro i hi
    obtain ⟨hvir, hphy⟩ := ha i hi
    calc
      k'.user.byte L.threadSegs i = k₁.user.byte L.threadSegs i := hframe _ hphy
      _ = k.user.byte L.threadSegs i := UserMem.write_of_le _ ((length_bytesOf a).le.trans hvir)

theorem run_threadSegsField (L : Locals) (k : KState) (path : List String) :
    (threadSegsField L path).run k =
      .ok (fieldWord TestMultiThread.processSegments (k.user.byte L.threadSegs) path) k := by
  rw [threadSegsField, run_bind_ok run_get]
  rfl

/-- The size that is printed for a segment from `a` to `b`. -/
def printedSize (k : KState) (a b : Word) : ℕ := printedU (physAddr k a - physAddr k b)

/-- The statements about one segment print the difference of the two translations. -/
theorem run_printSegment {envs : PhyAddrEnv × PhyAddrEnv} (h₁ : envs.1.Complete)
    (h₂ : envs.2.Complete) {L : Locals} (ha : L.Apart) (k : KState) {seg : String}
    (hr : ReadsSegment TestMultiThread.processSegments (k.user.byte L.threadSegs) seg a b) :
    ∃ k', (printSegment envs L seg).run k = .ok (seg, printedSize k a b) k' ∧
      KeepsSegs L k k' := by
  obtain ⟨k₁, hr₁, hk₁⟩ := run_getPhysAddr h₁ ha k a
  obtain ⟨k₂, hr₂, hk₂⟩ := run_getPhysAddr h₂ ha k₁ b
  refine ⟨k₂, ?_, hk₁.trans hk₂⟩
  rw [printSegment, run_bind_ok (run_threadSegsField _ _ _), hr.startAddr, run_bind_ok hr₁,
    run_bind_ok (run_threadSegsField _ _ _), (hr.congr hk₁.fieldBytes).endAddr,
    run_bind_ok hr₂, hk₁.physAddr]
  rfl

/-- The segments with the bounds that the call stores. -/
def segmentBounds (mm : MmStruct) : List (String × Word × Word) :=
  [("code_seg", mm.startCode, mm.endCode), ("data_seg", mm.startData, mm.endData),
    ("heap_seg", mm.startBrk, mm.brk), ("stack_seg", mm.startStack, mm.startStack + mm.stackVm)]

/-- All segments are printed alike, since printing one changes nothing that the others need. -/
theorem run_mapM_printSegment {envs : String → PhyAddrEnv × PhyAddrEnv}
    (he : ∀ seg, (envs seg).1.Complete ∧ (envs seg).2.Complete) {L : Locals} (ha : L.Apart)
    (bounds : List (String × Word × Word)) (k : KState)
    (hr : ∀ b ∈ bounds, ReadsSegment TestMultiThread.processSegments (k.user.byte L.threadSegs)
      b.1 b.2.1 b.2.2) :
    ∃ k', ((bounds.map (·.1)).mapM fun seg => printSegment (envs seg) L seg).run k =
      .ok (bounds.map fun b => (b.1, printedSize k b.2.1 b.2.2)) k' := by
  induction bounds generalizing k with
  | nil => exact ⟨k, rfl⟩
  | cons b bounds ih =>
      obtain ⟨hb, hbs⟩ := List.forall_mem_cons.mp hr
      obtain ⟨k₁, hr₁, hk₁⟩ := run_printSegment (he b.1).1 (he b.1).2 ha k hb
      obtain ⟨k', hr'⟩ := ih k₁ fun b hb => (hbs b hb).congr hk₁.fieldBytes
      refine ⟨k', ?_⟩
      have hsize : ∀ a b, printedSize k₁ a b = printedSize k a b := by
        intro a b
        rw [printedSize, printedSize, hk₁.physAddr, hk₁.physAddr]
      simp only [hsize] at hr'
      rw [List.map_cons, List.mapM_cons, run_bind_ok hr₁, run_bind_ok hr', List.map_cons]
      rfl

/-- The program prints the difference of the translated bounds for every segment. -/
theorem run_printSegments {segmentEnv : SegmentEnv} {found : ℕ → Byte}
    (hf : segmentEnv.found = some found) (hin : sizeofProcessSegments ≤ segmentEnv.copiedIn)
    (hout : sizeofProcessSegments ≤ segmentEnv.copiedOut)
    {envs : String → PhyAddrEnv × PhyAddrEnv}
    (he : ∀ seg, (envs seg).1.Complete ∧ (envs seg).2.Complete) {L : Locals} (ha : L.Apart)
    {mm : MmStruct} (ht : k.task (k.user.pid L.threadSegs) = some ⟨some mm⟩) :
    ∃ k', (printSegments segmentEnv envs L).run k =
      .ok ((segmentBounds mm).map fun b => (b.1, printedSize k b.2.1 b.2.2)) k' := by
  obtain ⟨h, hr⟩ := run_myGetSegment_complete hf hin hout ht
  have hread := (readsSegments_filled mm k.user L.threadSegs).congr
    (fieldBytes_test List.mem_cons_self k.user L.threadSegs mm)
  obtain ⟨k', hr'⟩ := run_mapM_printSegment he ha (segmentBounds mm) { k with
      heap := h
      user := k.user.write L.threadSegs (blockOf (filled mm k.user L.threadSegs)) } (by
    simp only [segmentBounds, List.forall_mem_cons]
    exact ⟨hread.code, hread.data, hread.heap, hread.stack, by simp⟩)
  refine ⟨k', ?_⟩
  rw [printSegments, run_bind_ok hr]
  exact hr'

/-! ## When the size is right -/

/-- The segment from `a` to `b` has fewer than `2 ^ 32` bytes, and its frames run backwards:
modulo `2 ^ 20`, the frame numbers go down from `a` to `b` by as much as the page numbers go
up. The offsets of `a` and `b` in their pages agree, or they are 2048 apart and the frame
numbers make up for a page. -/
def SizeRight (l5 : Bool) (m : PhysMem) (root : Frame) (a b : Word) : Prop :=
  let frames : ℤ :=
    (pageBits (followed l5 m root a)).toNat - (pageBits (followed l5 m root b)).toNat
  let pages : ℤ := (pageBits b).toNat - (pageBits a).toNat
  let offset : ℤ := (pageOffset a).toNat - (pageOffset b).toNat
  b.toNat - a.toNat < 2 ^ 32 ∧
    ((offset = 0 ∧ 2 ^ 20 ∣ frames - pages) ∨
      (offset = 2048 ∧ 2 ^ 20 ∣ frames - pages + 1) ∨
      (offset = -2048 ∧ 2 ^ 20 ∣ frames - pages - 1))

theorem toNat_physAddr (k : KState) (a : Word) : (physAddr k a).toNat =
    (pageBits (followed k.l5 k.mem k.pgd a)).toNat * 4096 + (pageOffset a).toNat := by
  rw [toNat_eq_pageBits_pageOffset, physAddr, pageBits_joinPage, pageOffset_joinPage]

/-- The printed number is the difference of the translations modulo `2 ^ 32`. -/
theorem printedSize_eq_emod (k : KState) (a b : Word) :
    (printedSize k a b : ℤ) = ((physAddr k a).toNat - (physAddr k b).toNat : ℤ) % 2 ^ 32 := by
  have hfa := (physAddr k a).isLt
  have hfb := (physAddr k b).isLt
  rw [printedSize, printedU, BitVec.toNat_setWidth, BitVec.toNat_sub]
  omega

/-- A multiple of `2 ^ 32` in pages and offsets. -/
theorem dvd_pages_offset_iff {x o : ℤ} (hlo : -4096 < o) (hhi : o < 4096) :
    2 ^ 32 ∣ x * 4096 + 2 * o ↔
      (o = 0 ∧ 2 ^ 20 ∣ x) ∨ (o = 2048 ∧ 2 ^ 20 ∣ x + 1) ∨ (o = -2048 ∧ 2 ^ 20 ∣ x - 1) := by
  omega

/-- The printed number is the size exactly for such segments. -/
theorem printedSize_eq_iff (k : KState) (hle : a ≤ b) :
    printedSize k a b = b.toNat - a.toNat ↔ SizeRight k.l5 k.mem k.pgd a b := by
  have hoa := (pageOffset a).isLt
  have hob := (pageOffset b).isLt
  have hle' : a.toNat ≤ b.toNat := hle
  have hsize : ((b.toNat - a.toNat : ℕ) : ℤ) = ((pageBits b).toNat - (pageBits a).toNat) * 4096 -
      ((pageOffset a).toNat - (pageOffset b).toNat) := by
    have ha := toNat_eq_pageBits_pageOffset a
    have hb := toNat_eq_pageBits_pageOffset b
    omega
  rw [SizeRight, ← dvd_pages_offset_iff (by omega) (by omega), ← Int.ofNat_inj,
    printedSize_eq_emod, toNat_physAddr, toNat_physAddr]
  generalize b.toNat - a.toNat = size at hsize ⊢
  constructor
  · intro h
    exact ⟨by omega, by omega⟩
  · rintro ⟨hlt, hdvd⟩
    omega

/-- For code, data and heap, whose sizes are those of the bounds, the program prints the size
exactly when the frames of the segment run backwards. -/
theorem printSegments_size_iff {segmentEnv : SegmentEnv} {found : ℕ → Byte}
    (hf : segmentEnv.found = some found) (hin : sizeofProcessSegments ≤ segmentEnv.copiedIn)
    (hout : sizeofProcessSegments ≤ segmentEnv.copiedOut)
    {envs : String → PhyAddrEnv × PhyAddrEnv}
    (he : ∀ seg, (envs seg).1.Complete ∧ (envs seg).2.Complete) {L : Locals} (ha : L.Apart)
    {mm : MmStruct} (ht : k.task (k.user.pid L.threadSegs) = some ⟨some mm⟩) {seg : String}
    (hseg : (seg, a, b) ∈ (segmentBounds mm).take 3) (hle : a ≤ b) :
    ∃ sizes k' size, (printSegments segmentEnv envs L).run k = .ok sizes k' ∧
      (seg, size) ∈ sizes ∧
      (size = b.toNat - a.toNat ↔ SizeRight k.l5 k.mem k.pgd a b) := by
  obtain ⟨k', hr⟩ := run_printSegments hf hin hout he ha ht
  have hmem : (seg, a, b) ∈ segmentBounds mm := List.mem_of_mem_take hseg
  exact ⟨_, k', printedSize k a b, hr, List.mem_map_of_mem hmem, printedSize_eq_iff k hle⟩

/-! ## A program on the image -/

/-- A program with 16 bytes of code in the first page of the image, and with a heap of five
pages from the second one on. -/
def imageMm : MmStruct :=
  ⟨0x400000, 0x400010, 0x400010, 0x400020, 0x401000, 0x406000, 0x7ffff000, 1⟩

def imageProgram : KState := { imageState 0 with task := fun _ => some ⟨some imageMm⟩ }

def imageLocals : Locals := ⟨0x7000, 0x6ff0, 0x6fe8⟩

theorem imageLocals_apart : imageLocals.Apart := by
  intro i hi
  rw [sizeofProcessSegments] at hi
  simp only [imageLocals]
  bv_omega

theorem quietEnvs_complete (seg : String) :
    ((fun _ => (quietEnv, quietEnv) : String → PhyAddrEnv × PhyAddrEnv) seg).1.Complete ∧
      ((fun _ => (quietEnv, quietEnv) : String → PhyAddrEnv × PhyAddrEnv) seg).2.Complete :=
  ⟨quietEnv_complete, quietEnv_complete⟩

/-- The end of the heap is not mapped, and the frame of its start has the number 5. -/
theorem printSegments_size_iff_image :
    ∃ sizes k' size, (printSegments quietSegmentEnv (fun _ => (quietEnv, quietEnv))
        imageLocals).run imageProgram = .ok sizes k' ∧ ("heap_seg", size) ∈ sizes ∧
      (size = (0x406000#64).toNat - (0x401000#64).toNat ↔
        SizeRight false imageTables 1 0x401000 0x406000) :=
  printSegments_size_iff (k := imageProgram) rfl le_rfl le_rfl quietEnvs_complete
    imageLocals_apart rfl (by simp [segmentBounds, imageMm]) (by decide)

/-- The 16 bytes of code are printed as 4294967280. -/
theorem not_printSegments_size :
    ∃ sizes k', (printSegments quietSegmentEnv (fun _ => (quietEnv, quietEnv))
        imageLocals).run imageProgram = .ok sizes k' ∧
      ("code_seg", 4294967280) ∈ sizes ∧
      imageMm.endCode.toNat - imageMm.startCode.toNat = 16 := by
  have hfound : quietSegmentEnv.found = some fun _ => 0 := rfl
  have ht : imageProgram.task (imageProgram.user.pid imageLocals.threadSegs) =
      some ⟨some imageMm⟩ := rfl
  obtain ⟨k', hr⟩ := run_printSegments hfound le_rfl le_rfl quietEnvs_complete
    imageLocals_apart ht
  have hsize : printedSize imageProgram 0x400000 0x400010 = 4294967280 := by decide
  refine ⟨_, k', hr, ?_, by decide⟩
  rw [← hsize]
  exact List.mem_cons_self

end LinuxOs2022.Syscall
