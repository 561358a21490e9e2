import LinuxOs2022.Syscall.SegmentReporting

/-!
# The bytes of `struct ProcessSegments`

The struct is declared in the kernel and again in each of the two test programs. Whole structs
are copied both ways, padding included. The call stores into the address fields and into the
first bytes of the names; every other byte that it copies back is one that it copied in.

## Implementation notes

The offsets are those of the natural alignment of x86-64. The offsets in the code of the call
are computed here from the declaration in the kernel.
-/

namespace LinuxOs2022.Syscall

open Library PageTable

/-! ## The three declarations -/

/-- `unsigned long`. -/
def unsignedLong : CType := .scalar 8 (by decide)

/-- `pid_t`. -/
def pidT : CType := .scalar 4 (by decide)

/-- `char[n]`. -/
def charArray (n : ℕ) : CType := .array 1 n Nat.one_pos

namespace MyGetSegment

/-- `MAX_BUF_SIZE`. -/
def maxBufSize : ℕ := 128

/-- `struct Segment` of `my_get_segment.c`. -/
def segment : CType := .struct
  [("start_addr", unsignedLong), ("end_addr", unsignedLong), ("seg_name", charArray maxBufSize)]

/-- `struct ProcessSegments` of `my_get_segment.c`. -/
def processSegments : CType := .struct
  [("pid", pidT), ("code_seg", segment), ("data_seg", segment), ("heap_seg", segment),
    ("stack_seg", segment)]

end MyGetSegment

namespace TestMultiThread

/-- `MAX_BUF_SIZE`. -/
def maxBufSize : ℕ := 128

/-- `struct Segment` of `test_multi_thread.c`. -/
def segment : CType := .struct
  [("start_addr", unsignedLong), ("end_addr", unsignedLong), ("seg_name", charArray maxBufSize)]

/-- `struct ProcessSegments` of `test_multi_thread.c`. -/
def processSegments : CType := .struct
  [("pid", pidT), ("code_seg", segment), ("data_seg", segment), ("heap_seg", segment),
    ("stack_seg", segment)]

end TestMultiThread

namespace TestSingleThread

/-- `MAX_BUF_SIZE`. -/
def maxBufSize : ℕ := 128

/-- `struct Segment` of `test_single_thread.c`. -/
def segment : CType := .struct
  [("start_addr", unsignedLong), ("end_addr", unsignedLong), ("seg_name", charArray maxBufSize)]

/-- `struct ProcessSegments` of `test_single_thread.c`. -/
def processSegments : CType := .struct
  [("pid", pidT), ("code_seg", segment), ("data_seg", segment), ("heap_seg", segment),
    ("stack_seg", segment)]

end TestSingleThread

/-- The declarations of the test programs. -/
def testDeclarations : List CType :=
  [TestMultiThread.processSegments, TestSingleThread.processSegments]

theorem size_processSegments :
    MyGetSegment.processSegments.size = sizeofProcessSegments := by decide

/-- The test programs lay the struct out as the kernel does. -/
theorem testDeclarations_agree :
    ∀ D ∈ testDeclarations, D.size = sizeofProcessSegments ∧
      D.members = MyGetSegment.processSegments.members := by
  decide

/-! ## Fields -/

/-- The bytes of a member. -/
def memberBytes (f : ℕ → Byte) (m : Member) : List Byte :=
  (List.range m.size).map fun i => f (m.offset + i)

/-- The bytes of the member with a path, under a declaration of the struct. -/
def fieldBytes (D : CType) (f : ℕ → Byte) (path : List String) : Option (List Byte) :=
  (D.member? path).map (memberBytes f)

/-- A string that ends with its first NUL. -/
def cStringOf (bytes : List Byte) : List Byte := bytes.takeWhile (· != 0)

/-- The names of the four segments. -/
def segNames : List String := ["code_seg", "data_seg", "heap_seg", "stack_seg"]

/-- The offset of a member of the struct in the kernel. -/
def offsetOf (path : List String) : ℕ :=
  ((MyGetSegment.processSegments.member? path).map (·.offset)).getD 0

/-- The bytes that may change: the address fields, and in each name the first bytes up to the
NUL. -/
def writtenRanges : List (ℕ × ℕ) := segNames.flatMap fun seg =>
  [(offsetOf [seg, "start_addr"], 8), (offsetOf [seg, "end_addr"], 8),
    (offsetOf [seg, "seg_name"], seg.length + 1)]

/-- The stores of the call write these bytes. -/
theorem stores_ranges (mm : MmStruct) :
    (stores mm).map (fun s => (s.1, s.2.length)) = writtenRanges := by
  rw [show writtenRanges = [(8, 8), (16, 8), (24, 9), (152, 8), (160, 8), (168, 9), (296, 8),
    (304, 8), (312, 9), (440, 8), (448, 8), (456, 10)] by decide]
  rfl

/-- Each store goes into a member of its own. -/
theorem stores_into (mm : MmStruct) :
    List.Forall₂ Patch.Into (stores mm) MyGetSegment.processSegments.members.tail := by
  have h : List.Forall₂ (fun r m => r.1 = m.offset ∧ r.2 ≤ m.size)
      ((stores mm).map fun s => (s.1, s.2.length)) MyGetSegment.processSegments.members.tail := by
    rw [stores_ranges]
    decide
  rw [List.forall₂_map_left_iff] at h
  exact h

theorem stores_disjoint (mm : MmStruct) : (stores mm).Pairwise Patch.Disjoint :=
  Patch.pairwise_disjoint (stores_into mm) MyGetSegment.processSegments.ordered.tail

/-- The bytes outside the written ranges are those of the user. -/
theorem filled_of_notMem (mm : MmStruct) (u : UserMem) (p : Word) {i : ℕ}
    (h : ∀ r ∈ writtenRanges, ¬ (r.1 ≤ i ∧ i < r.1 + r.2)) : filled mm u p i = u.byte p i := by
  apply Patch.applyAll_of_not_covers
  intro s hs
  have hr : (s.1, s.2.length) ∈ writtenRanges := by
    rw [← stores_ranges mm]
    exact List.mem_map_of_mem hs
  exact h _ hr

/-- A store is found in the struct. -/
theorem filled_store {mm : MmStruct} (u : UserMem) (p : Word) {s : Patch Byte}
    (hs : s ∈ stores mm) {i : ℕ} (hi : i < s.2.length) : filled mm u p (s.1 + i) = s.2[i] :=
  Patch.applyAll_add (stores_disjoint mm) hs hi

/-! ## What the user reads -/

/-- The word in an address field, under a declaration of the struct. -/
def fieldWord (D : CType) (f : ℕ → Byte) (path : List String) : Word :=
  wordOf fun i => ((fieldBytes D f path).getD []).getD i 0

/-- A byte of the struct that was copied back. -/
theorem byte_write_blockOf (u : UserMem) (p : Word) (f : ℕ → Byte) {i : ℕ}
    (hi : i < sizeofProcessSegments) : (u.write p (blockOf f)).byte p i = f i := by
  have hlt : i < 2 ^ 64 := hi.trans (by decide)
  rw [UserMem.byte, UserMem.write, BitVec.add_comm, BitVec.add_sub_cancel, BitVec.toNat_ofNat,
    Nat.mod_eq_of_lt hlt, getElem?_blockOf f hi, Option.getD_some]

/-- The members of the struct lie inside it. -/
theorem fieldBytes_eq {D : CType} (hs : D.size = sizeofProcessSegments) {f f' : ℕ → Byte}
    (h : ∀ i < sizeofProcessSegments, f i = f' i) (path : List String) :
    fieldBytes D f path = fieldBytes D f' path := by
  refine Option.map_congr fun m hm => List.map_congr_left fun i hi => h _ ?_
  have hb := D.bounded m (List.mem_of_find?_eq_some hm)
  have hi' := List.mem_range.mp hi
  omega

/-- The user reads what the kernel stored. -/
theorem fieldBytes_write (u : UserMem) (p : Word) (f : ℕ → Byte) {D : CType}
    (hs : D.size = sizeofProcessSegments) (path : List String) :
    fieldBytes D ((u.write p (blockOf f)).byte p) path = fieldBytes D f path :=
  fieldBytes_eq hs (fun _ hi => byte_write_blockOf u p f hi) path

/-- A declaration with the same members has the same fields. -/
theorem fieldBytes_congr {D D' : CType} (h : D.members = D'.members) (f : ℕ → Byte)
    (path : List String) : fieldBytes D f path = fieldBytes D' f path := by
  rw [fieldBytes, fieldBytes, CType.member?, CType.member?, h]

/-- The member that a store goes into begins with what is stored. -/
theorem memberBytes_filled {mm : MmStruct} (u : UserMem) (p : Word) {s : Patch Byte}
    (hs : s ∈ stores mm) {m : Member} (hm : s.Into m) :
    (memberBytes (filled mm u p) m).take s.2.length = s.2 := by
  have hlen : ((memberBytes (filled mm u p) m).take s.2.length).length = s.2.length := by
    have h := hm.2
    simp only [memberBytes, List.length_take, List.length_map, List.length_range]
    omega
  apply List.ext_getElem hlen
  intro i hi hi'
  rw [List.getElem_take]
  simp only [memberBytes, List.getElem_map, List.getElem_range, ← hm.1]
  exact filled_store u p hs hi'

/-- The characters of a name. -/
def nameBytes (s : String) : List Byte := s.toList.map fun c => BitVec.ofNat 8 c.toNat

/-- A string that begins with a name and its NUL is that name. -/
theorem cStringOf_eq {s : String} {bytes : List Byte} (h0 : ∀ b ∈ nameBytes s, b ≠ 0)
    (h : bytes.take (cString s).length = cString s) : cStringOf bytes = nameBytes s := by
  have hb : bytes = nameBytes s ++ 0 :: bytes.drop (cString s).length := by
    calc
      bytes = bytes.take (cString s).length ++ bytes.drop (cString s).length :=
        (List.take_append_drop _ _).symm
      _ = nameBytes s ++ 0 :: bytes.drop (cString s).length := by
        rw [h, cString, List.append_assoc]
        rfl
  rw [cStringOf, hb, List.takeWhile_append_of_pos fun b hb => by simpa using h0 b hb]
  simp

/-- What a program reads of one segment: the two addresses and the name. -/
structure ReadsSegment (D : CType) (f : ℕ → Byte) (seg : String) (startAddr endAddr : Word) :
    Prop where
  startAddr : fieldWord D f [seg, "start_addr"] = startAddr
  endAddr : fieldWord D f [seg, "end_addr"] = endAddr
  segName : (fieldBytes D f [seg, "seg_name"]).map cStringOf = some (nameBytes seg)

/-- The members of a segment at an offset of the struct. -/
structure SegmentAt (D : CType) (seg : String) (off : ℕ) : Prop where
  startAddr : D.member? [seg, "start_addr"] = some ⟨[seg, "start_addr"], off, 8⟩
  endAddr : D.member? [seg, "end_addr"] = some ⟨[seg, "end_addr"], off + 8, 8⟩
  segName : D.member? [seg, "seg_name"] = some ⟨[seg, "seg_name"], off + 16, 128⟩

/-- An address field holds the word that was stored. -/
theorem fieldWord_filled {D : CType} {mm : MmStruct} (u : UserMem) (p : Word) {off : ℕ}
    {w : Word} (hs : (off, bytesOf w) ∈ stores mm) {path : List String}
    (hm : D.member? path = some ⟨path, off, 8⟩) : fieldWord D (filled mm u p) path = w := by
  have h := memberBytes_filled u p hs (m := ⟨path, off, 8⟩) ⟨rfl, le_rfl⟩
  rw [List.take_of_length_le (by simp [memberBytes])] at h
  rw [fieldWord, fieldBytes, hm, Option.map_some, Option.getD_some, h]
  exact wordOf_bytesOf w

/-- A program reads the segment that was stored. -/
theorem readsSegment_filled {D : CType} {mm : MmStruct} (u : UserMem) (p : Word) {seg : String}
    (off : ℕ) {startAddr endAddr : Word}
    (hs : ∀ s ∈ segmentStores off startAddr endAddr seg, s ∈ stores mm)
    (hD : SegmentAt D seg off) (h0 : ∀ b ∈ nameBytes seg, b ≠ 0)
    (hlen : (cString seg).length ≤ 128) :
    ReadsSegment D (filled mm u p) seg startAddr endAddr := by
  simp only [segmentStores, List.forall_mem_cons] at hs
  refine ⟨fieldWord_filled u p hs.1 hD.startAddr, fieldWord_filled u p hs.2.1 hD.endAddr, ?_⟩
  rw [fieldBytes, hD.segName, Option.map_some, Option.map_some]
  exact congrArg some (cStringOf_eq h0 (memberBytes_filled u p hs.2.2.1 ⟨rfl, hlen⟩))

/-- What a program reads of the whole struct. -/
structure ReadsSegments (D : CType) (f : ℕ → Byte) (mm : MmStruct) : Prop where
  code : ReadsSegment D f "code_seg" mm.startCode mm.endCode
  data : ReadsSegment D f "data_seg" mm.startData mm.endData
  heap : ReadsSegment D f "heap_seg" mm.startBrk mm.brk
  stack : ReadsSegment D f "stack_seg" mm.startStack (mm.startStack + mm.stackVm)

theorem readsSegments_filled (mm : MmStruct) (u : UserMem) (p : Word) :
    ReadsSegments MyGetSegment.processSegments (filled mm u p) mm := by
  constructor
  · exact readsSegment_filled u p 8 (by simp [stores, segmentStores])
      ⟨by decide, by decide, by decide⟩ (by decide) (by decide)
  · exact readsSegment_filled u p 152 (by simp [stores, segmentStores])
      ⟨by decide, by decide, by decide⟩ (by decide) (by decide)
  · exact readsSegment_filled u p 296 (by simp [stores, segmentStores])
      ⟨by decide, by decide, by decide⟩ (by decide) (by decide)
  · exact readsSegment_filled u p 440 (by simp [stores, segmentStores])
      ⟨by decide, by decide, by decide⟩ (by decide) (by decide)

/-- Two structs with the same fields are read alike. -/
theorem ReadsSegment.congr {D D' : CType} {f f' : ℕ → Byte} {seg : String}
    {startAddr endAddr : Word} (h : ∀ path, fieldBytes D' f' path = fieldBytes D f path)
    (hr : ReadsSegment D f seg startAddr endAddr) : ReadsSegment D' f' seg startAddr endAddr := by
  refine ⟨?_, ?_, ?_⟩
  · rw [fieldWord, h]
    exact hr.startAddr
  · rw [fieldWord, h]
    exact hr.endAddr
  · rw [h]
    exact hr.segName

theorem ReadsSegments.congr {D D' : CType} {f f' : ℕ → Byte} {mm : MmStruct}
    (h : ∀ path, fieldBytes D' f' path = fieldBytes D f path) (hr : ReadsSegments D f mm) :
    ReadsSegments D' f' mm :=
  ⟨hr.code.congr h, hr.data.congr h, hr.heap.congr h, hr.stack.congr h⟩

/-- A complete call. -/
theorem run_myGetSegment_complete {env : SegmentEnv} {found : ℕ → Byte} {k : KState} {p : Word}
    {mm : MmStruct} (hf : env.found = some found) (hin : sizeofProcessSegments ≤ env.copiedIn)
    (hout : sizeofProcessSegments ≤ env.copiedOut)
    (ht : k.task (k.user.pid p) = some ⟨some mm⟩) :
    ∃ h, (myGetSegment env p).run k =
      .ok 0 { k with heap := h, user := k.user.write p (blockOf (filled mm k.user p)) } := by
  obtain ⟨h, hr⟩ := run_myGetSegment_mm hf hin ht
  rw [(notCopied_eq_zero_iff _).mpr hout, take_blockOf _ hout] at hr
  exact ⟨h, hr⟩

/-- The test programs read the fields that the kernel stored. -/
theorem fieldBytes_test {D : CType} (hD : D ∈ testDeclarations) (u : UserMem) (p : Word)
    (mm : MmStruct) (path : List String) :
    fieldBytes D ((u.write p (blockOf (filled mm u p))).byte p) path =
      fieldBytes MyGetSegment.processSegments (filled mm u p) path := by
  obtain ⟨hs, hm⟩ := testDeclarations_agree D hD
  rw [fieldBytes_write _ _ _ hs, fieldBytes_congr hm]

/-- What the heap held before makes no difference to a call. After a complete call the bytes
outside the written ranges are unchanged, and through their own declarations the test programs
read the fields that the kernel stored. -/
theorem myGetSegment_noLeak (env : SegmentEnv) (k : KState) (p : Word) :
    (∀ found found' : ℕ → Byte,
      (myGetSegment { env with found := some found } p).run k =
        (myGetSegment { env with found := some found' } p).run k) ∧
    ∀ found mm, env.found = some found → sizeofProcessSegments ≤ env.copiedIn →
      sizeofProcessSegments ≤ env.copiedOut → k.task (k.user.pid p) = some ⟨some mm⟩ →
      ∃ k', (myGetSegment env p).run k = .ok 0 k' ∧
        (∀ q, (∀ r ∈ writtenRanges, ¬ (r.1 ≤ (q - p).toNat ∧ (q - p).toNat < r.1 + r.2)) →
          k'.user q = k.user q) ∧
        ∀ D ∈ testDeclarations,
          (∀ path, fieldBytes D (k'.user.byte p) path =
            fieldBytes MyGetSegment.processSegments (filled mm k.user p) path) ∧
          ReadsSegments D (k'.user.byte p) mm := by
  constructor
  · intro found found'
    apply run_myGetSegment_congr <;> rfl
  · intro found mm hf hin hout ht
    obtain ⟨h, hr⟩ := run_myGetSegment_complete hf hin hout ht
    refine ⟨_, hr, ?_⟩
    dsimp only
    constructor
    · intro q hq
      have hp : q = p + BitVec.ofNat 64 (q - p).toNat := by
        rw [BitVec.ofNat_toNat, BitVec.setWidth_eq, BitVec.add_comm, BitVec.sub_add_cancel]
      rw [UserMem.write]
      by_cases hlt : (q - p).toNat < sizeofProcessSegments
      · rw [getElem?_blockOf _ hlt, Option.getD_some, filled_of_notMem mm k.user p hq,
          UserMem.byte, ← hp]
      · rw [List.getElem?_eq_none (by rw [length_blockOf]; omega), Option.getD_none]
    · intro D hD
      have hfields := fieldBytes_test hD k.user p mm
      exact ⟨hfields, (readsSegments_filled mm k.user p).congr hfields⟩

/-- The address space in the recorded output of the test program. -/
def recordedMm : MmStruct where
  startCode := 0x565402a42000
  endCode := 0x565402a433a5
  startData := 0x565402a45d5c
  endData := 0x565402a46014
  startBrk := 0x565402f13000
  brk := 0x565402f34000
  startStack := 0x7ffc8c1cb550
  stackVm := 0x21

/-- A state in which every pid names a task with that address space. -/
def recordedState : KState := { imageState 0 with task := fun _ => some ⟨some recordedMm⟩ }

/-- The heap contents do not reach the user, and the struct of the recorded run is read. -/
theorem myGetSegment_noLeak_recorded :
    (myGetSegment ⟨some fun _ => 0xaa, 584, 584⟩ 0x7000).run recordedState =
        (myGetSegment quietSegmentEnv 0x7000).run recordedState ∧
      ∃ k', (myGetSegment quietSegmentEnv 0x7000).run recordedState = .ok 0 k' ∧
        k'.user 0x7000 = recordedState.user 0x7000 ∧
        ReadsSegments TestMultiThread.processSegments (k'.user.byte 0x7000) recordedMm := by
  obtain ⟨hfound, hcomplete⟩ := myGetSegment_noLeak quietSegmentEnv recordedState 0x7000
  obtain ⟨k', hr, hq, hD⟩ := hcomplete (fun _ => 0) recordedMm rfl le_rfl le_rfl rfl
  exact ⟨hfound (fun _ => 0xaa) (fun _ => 0), k', hr, hq 0x7000 (by decide),
    (hD TestMultiThread.processSegments (by simp [testDeclarations])).2⟩

end LinuxOs2022.Syscall
