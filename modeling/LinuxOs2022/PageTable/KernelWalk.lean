import LinuxOs2022.PageTable.Translation

/-!
# The software walk of the kernel

`pgd_offset`, `p4d_offset`, `pud_offset`, `pmd_offset` and `pte_offset_kernel` index by the
9-bit fields of the address and follow the frame bits of the entry they are given, whatever
else that entry holds. With four levels `p4d_offset` is folded: it returns its `pgd`
argument, and the fields move down by one level.

## Implementation notes

These functions are kernel headers outside the repository; the definitions follow their
documented behaviour. `pud_pfn_mask` and `pmd_pfn_mask` clear the low frame bits of an entry
with the page-size bit, so `leafFrame` appears here although nothing tests for a leaf.
-/

namespace LinuxOs2022.PageTable

open Library

/-- `pgd_index(a)`, whose shift depends on the number of levels. -/
def pgdIndex (l5 : Bool) (a : Word) : Index := if l5 then field 48 a else field 39 a

/-- `p4d_index(a)`: a folded level has a single entry. -/
def p4dIndex (l5 : Bool) (a : Word) : Index := if l5 then field 39 a else 0

/-- `pud_index(a)`. -/
def pudIndex (a : Word) : Index := field 30 a

/-- `pmd_index(a)`. -/
def pmdIndex (a : Word) : Index := field 21 a

/-- `pte_index(a)`. -/
def pteIndex (a : Word) : Index := field 12 a

/-- The frame a PUD entry leads to, `pud_val(pud) & pud_pfn_mask(pud)`. -/
def pudFrame (e : Word) : Frame := if pse e then leafFrame 2 e else frame e

/-- The frame a PMD entry leads to, `pmd_val(pmd) & pmd_pfn_mask(pmd)`. -/
def pmdFrame (e : Word) : Frame := if pse e then leafFrame 1 e else frame e

/-- `pgd_offset(mm, a)` for an `mm` whose `pgd` is the frame `root`. -/
def pgdOffset (l5 : Bool) (root : Frame) (a : Word) : EntryPtr := (root, pgdIndex l5 a)

/-- `p4d_offset(pgd, a)`, the identity on `pgd` when it is folded. -/
def p4dOffset (l5 : Bool) (m : PhysMem) (pgd : EntryPtr) (a : Word) : EntryPtr :=
  if l5 then (frame (m.read pgd), p4dIndex l5 a) else pgd

/-- `pud_offset(p4d, a)`. -/
def pudOffset (m : PhysMem) (p4d : EntryPtr) (a : Word) : EntryPtr :=
  (frame (m.read p4d), pudIndex a)

/-- `pmd_offset(pud, a)`. -/
def pmdOffset (m : PhysMem) (pud : EntryPtr) (a : Word) : EntryPtr :=
  (pudFrame (m.read pud), pmdIndex a)

/-- `pte_offset_kernel(pmd, a)`. -/
def pteOffsetKernel (m : PhysMem) (pmd : EntryPtr) (a : Word) : EntryPtr :=
  (pmdFrame (m.read pmd), pteIndex a)

/-- `pgd_none(pgd)`: constantly false when the level is folded. -/
def pgdNone (l5 : Bool) (e : Word) : Bool := l5 && e == 0

/-- `p4d_none(p4d)`: nothing set but accessed, dirty and user bits. -/
def p4dNone (e : Word) : Bool := e &&& ~~~ 0x64#64 == 0

/-- `pud_none`, `pmd_none` and `pte_none`: nothing set but accessed and dirty bits. -/
def entryNone (e : Word) : Bool := e &&& ~~~ 0x60#64 == 0

/-- The entry that the chain of five calls ends at. -/
def ptePtr (l5 : Bool) (m : PhysMem) (root : Frame) (a : Word) : EntryPtr :=
  let pgd := pgdOffset l5 root a
  let p4d := p4dOffset l5 m pgd a
  let pud := pudOffset m p4d a
  let pmd := pmdOffset m pud a
  pteOffsetKernel m pmd a

/-- The word read where a PTE is expected. -/
def pteWord (l5 : Bool) (m : PhysMem) (root : Frame) (a : Word) : Word :=
  m.read (ptePtr l5 m root a)

/-- The lower hops of the chain, from the table that bits 39..47 index. -/
def hops4 (a : Word) : List (Radix.Hop Frame Index Word) :=
  [⟨field 30 a, pudFrame⟩, ⟨field 21 a, pmdFrame⟩, ⟨field 12 a, frame⟩]

/-- The chain of calls is the unchecked walk below the table of bits 39..47. -/
theorem ptePtr_eq_arrive (l5 : Bool) (m : PhysMem) (root : Frame) (a : Word) :
    ptePtr l5 m root a =
      Radix.arrive m (tableP4d l5 m root a) ⟨field 39 a, frame⟩ (hops4 a) := by
  cases l5 <;> rfl

/-- The words on the way of the chain, one level after the other. -/
theorem pteWord_eq {m : PhysMem} {l5 : Bool} {root : Frame} {a e4 e3 e2 : Word}
    (h4 : m (tableP4d l5 m root a) (field 39 a) = e4)
    (h3 : m (frame e4) (field 30 a) = e3) (h2 : m (pudFrame e3) (field 21 a) = e2) :
    pteWord l5 m root a = m (pmdFrame e2) (field 12 a) := by
  rw [pteWord, ptePtr_eq_arrive]
  simp only [hops4, Radix.arrive_cons, Radix.arrive_nil, Radix.Tables.read, h4, h3, h2]

/-- The hops follow the same frames as the hardware levels on entries of tables. -/
theorem hops4_matches (a : Word) :
    List.Forall₂ Radix.Hop.Matches (⟨field 39 a, frame⟩ :: hops4 a) (levels4 a) := by
  simp only [hops4, levels4, List.forall₂_cons, List.forall₂_nil_left_iff, Radix.Hop.Matches,
    true_and, and_true]
  refine ⟨fun _ _ _ => trivial, ?_, ?_, fun _ _ _ => trivial⟩
  · intro w _ hw
    simp only [pudFrame, if_neg hw]
  · intro w _ hw
    simp only [pmdFrame, if_neg hw]

/-- Where the hardware reaches the PTE level, the chain of calls ends at the same entry. -/
theorem ptePtr_of_hwPte {l5 : Bool} {m : PhysMem} {root : Frame} {a : Word} {p : EntryPtr}
    (h : hwPte l5 m root a = some p) : ptePtr l5 m root a = p := by
  rw [ptePtr_eq_arrive]
  exact Radix.arrive_of_locate (hops4_matches a) (locate_of_hwPte h)

/-- The chain of calls looks at the page of an address only. -/
theorem ptePtr_of_pageBits (l5 : Bool) (m : PhysMem) (root : Frame) {a b : Word}
    (h : pageBits a = pageBits b) : ptePtr l5 m root a = ptePtr l5 m root b := by
  have hf : ∀ lo, 12 ≤ lo → field lo a = field lo b := by
    intro lo hlo
    apply BitVec.eq_of_getLsbD_eq
    intro i hi
    have hbit := congrArg (fun x => x.getLsbD (lo - 12 + i)) h
    by_cases hw : lo - 12 + i < 52
    · simpa [pageBits, field, hw, hi, show 12 + (lo - 12 + i) = lo + i by omega] using hbit
    · simp [field, hi, BitVec.getLsbD_of_ge _ (lo + i) (show 64 ≤ lo + i by omega)]
  simp only [ptePtr, pgdOffset, p4dOffset, pudOffset, pmdOffset, pteOffsetKernel, pgdIndex,
    p4dIndex, pudIndex, pmdIndex, pteIndex, hf 12 (by omega), hf 21 (by omega),
    hf 30 (by omega), hf 39 (by omega), hf 48 (by omega)]

/-- Where the hardware reaches a PTE, the chain of calls ends at the same word. -/
theorem pteWord_of_leaf {l5 : Bool} {m : PhysMem} {root : Frame} {a e : Word}
    (h : leaf l5 m root a = some (0, e)) : pteWord l5 m root a = e := by
  obtain ⟨p, ls, hd, hlen, rfl⟩ := leaf_descend h
  rw [List.eq_nil_of_length_eq_zero hlen] at hd
  rw [pteWord, ptePtr_eq_arrive, Radix.arrive_of_descend (hops4_matches a) hd]

/-- Below a 2 MB leaf the chain reads a word of the mapped page itself. -/
theorem pteWord_of_leaf_one {l5 : Bool} {m : PhysMem} {root : Frame} {a e : Word}
    (h : leaf l5 m root a = some (1, e)) :
    pteWord l5 m root a = m (leafFrame 1 e) (field 12 a) := by
  cases leaf_cases h with
  | mb e4 e3 e2 h4 h3 h2 hn hp =>
      have h2' : m (pudFrame e3) (field 21 a) = e := by rwa [pudFrame, if_neg hn]
      rw [pteWord_eq h4 h3 h2', pmdFrame, if_pos hp]

/-- Below a 1 GB leaf the chain takes a word of the mapped page for a PMD entry. -/
theorem pteWord_of_leaf_two {l5 : Bool} {m : PhysMem} {root : Frame} {a e : Word}
    (h : leaf l5 m root a = some (2, e)) :
    pteWord l5 m root a =
      m (pmdFrame (m (leafFrame 2 e) (field 21 a))) (field 12 a) := by
  cases leaf_cases h with
  | gb e4 e3 h4 h3 hp =>
      rw [pteWord_eq h4 h3 rfl, pudFrame, if_pos hp]

/-- What the system call computes from the last word and the address:
`(pte & PAGE_MASK) | (a & ~PAGE_MASK)`. -/
def joinPage (w a : Word) : Word := (w &&& pageMask) ||| (a &&& ~~~ pageMask)

theorem getLsbD_joinPage (w a : Word) {i : ℕ} (hi : i < 64) :
    (joinPage w a).getLsbD i = if i < 12 then a.getLsbD i else w.getLsbD i := by
  simp only [joinPage, BitVec.getLsbD_or, BitVec.getLsbD_and, BitVec.getLsbD_not,
    getLsbD_pageMask hi]
  by_cases h : i < 12
  · simp [hi, h, show ¬ 12 ≤ i by omega]
  · simp [hi, h, show 12 ≤ i by omega]

/-- The OR keeps the page bits of the word it is given. -/
@[simp] theorem pageBits_joinPage (w a : Word) : pageBits (joinPage w a) = pageBits w := by
  apply BitVec.eq_of_getLsbD_eq
  intro i hi
  have h := getLsbD_joinPage w a (show 12 + i < 64 by omega)
  rw [if_neg (by omega)] at h
  simpa [pageBits, hi] using h

/-- The OR keeps the page offset of the address. -/
@[simp] theorem pageOffset_joinPage (w a : Word) :
    pageOffset (joinPage w a) = pageOffset a := by
  apply BitVec.eq_of_getLsbD_eq
  intro i hi
  have h := getLsbD_joinPage w a (show i < 64 by omega)
  rw [if_pos (by omega)] at h
  simpa [pageOffset, hi] using h

/-- For one page the computed values differ as the addresses do. -/
theorem joinPage_xor (w : Word) {a b : Word} (h : pageBits a = pageBits b) :
    joinPage w a ^^^ joinPage w b = a ^^^ b := by
  apply BitVec.eq_of_getLsbD_eq
  intro i hi
  rw [BitVec.getLsbD_xor, BitVec.getLsbD_xor, getLsbD_joinPage w a hi, getLsbD_joinPage w b hi]
  by_cases hlow : i < 12
  · rw [if_pos hlow, if_pos hlow]
  · have hbit := congrArg (fun x => x.getLsbD (i - 12)) h
    have hab : a.getLsbD i = b.getLsbD i := by
      simpa [pageBits, show i - 12 < 52 by omega, show 12 + (i - 12) = i by omega] using hbit
    rw [if_neg hlow, if_neg hlow, hab, Bool.xor_self, Bool.xor_self]

/-- The two operands of the OR have no bit in common. -/
theorem page_addr_and_page_offset (w a : Word) : (w &&& pageMask) &&& (a &&& ~~~ pageMask) = 0 := by
  apply BitVec.eq_of_getLsbD_eq
  intro i hi
  simp only [BitVec.getLsbD_and, BitVec.getLsbD_not, getLsbD_pageMask hi]
  by_cases h : 12 ≤ i <;> simp [h]

/-- Two computed values agree exactly in their page bits and offsets. -/
theorem joinPage_eq_iff (w w' a a' : Word) :
    joinPage w a = joinPage w' a' ↔
      pageBits w = pageBits w' ∧ pageOffset a = pageOffset a' := by
  rw [eq_iff_pageBits_pageOffset, pageBits_joinPage, pageBits_joinPage,
    pageOffset_joinPage, pageOffset_joinPage]

/-- The computed value is a translation of the address exactly when the last word has the
page bits of that translation. -/
theorem joinPage_eq_leafAddress_iff (w a : Word) (k : ℕ) (e : Word) :
    joinPage w a = leafAddress k e a ↔ pageBits w = pageBits (leafAddress k e a) := by
  rw [eq_iff_pageBits_pageOffset, pageBits_joinPage, pageOffset_joinPage,
    pageOffset_leafAddress, and_iff_left rfl]

/-- For the PTE itself that means that the bits above the frame are zero. -/
theorem pageBits_leafAddress_zero_iff (e a : Word) :
    pageBits e = pageBits (leafAddress 0 e a) ↔ highBits e = 0 := by
  rw [pageBits_eq_iff, highBits_leafAddress (by omega), frame_leafAddress_zero,
    and_iff_left rfl]

end LinuxOs2022.PageTable
