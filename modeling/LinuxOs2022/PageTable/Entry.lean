import LinuxOs2022.Library.Radix

/-!
# Page-table entries of x86-64

Physical memory is a memory of 4 KB frames, each of 512 words. An entry carries the
present bit (bit 0), the page-size bit (bit 7), the frame bits (12..51) and, in
bits 52..63, the software bits, the protection key and NX.

## Implementation notes

The memory is total: a frame that no RAM backs reads as arbitrary words. The kernel reads
tables through its direct map, so a pointer to an entry is a frame and an index.
-/

namespace LinuxOs2022.PageTable

open Library

/-- The number of a 4 KB frame: bits 12..51 of a physical address. -/
abbrev Frame := BitVec 40

/-- The position of an entry in its table: one 9-bit field of the address. -/
abbrev Index := BitVec 9

/-- `unsigned long`, the type of entries and of addresses. -/
abbrev Word := BitVec 64

/-- Physical memory as frames of 512 words. -/
abbrev PhysMem := Radix.Tables Frame Index Word

/-- A pointer to an entry. -/
abbrev EntryPtr := Radix.Slot Frame Index

/-- `_PAGE_PRESENT`. -/
def present (e : Word) : Bool := e.getLsbD 0

/-- `_PAGE_PSE`: at the PUD and PMD levels the entry maps a page itself. -/
def pse (e : Word) : Bool := e.getLsbD 7

/-- The frame bits 12..51, `val & PTE_PFN_MASK`. -/
def frame (e : Word) : Frame := e.extractLsb' 12 40

/-- Bits 52..63: software bits, protection key and NX. -/
def highBits (e : Word) : BitVec 12 := e.extractLsb' 52 12

/-- The frame bits of a leaf that maps `512 ^ k` frames: the low `9 * k` bits are clear. -/
def leafFrame (k : ℕ) (e : Word) : Frame := frame e >>> (9 * k) <<< (9 * k)

/-- `PAGE_MASK`. -/
def pageMask : Word := ~~~ 0xfff#64

/-- The offset bits of a page of `512 ^ k` frames. -/
def offsetMask (k : ℕ) : Word := (BitVec.allOnes (12 + 9 * k)).setWidth 64

/-- The physical address that a leaf `k` levels above the PTE level gives `a`: the frame
bits of the leaf joined with the offset of `a` inside the page. -/
def leafAddress (k : ℕ) (e a : Word) : Word :=
  ((BitVec.allOnes 52).setWidth 64 &&& ~~~ offsetMask k &&& e) ||| (offsetMask k &&& a)

theorem getLsbD_pageMask {i : ℕ} (hi : i < 64) :
    pageMask.getLsbD i = decide (12 ≤ i) := by
  revert i
  decide

theorem getLsbD_offsetMask (k : ℕ) {i : ℕ} (hi : i < 64) :
    (offsetMask k).getLsbD i = decide (i < 12 + 9 * k) := by
  simp [offsetMask, hi]

theorem getLsbD_leafAddress (k : ℕ) (e a : Word) {i : ℕ} (hi : i < 64) :
    (leafAddress k e a).getLsbD i =
      if i < 12 + 9 * k then a.getLsbD i else decide (i < 52) && e.getLsbD i := by
  simp only [leafAddress, BitVec.getLsbD_or, BitVec.getLsbD_and, BitVec.getLsbD_not,
    getLsbD_offsetMask k hi, BitVec.getLsbD_setWidth, BitVec.getLsbD_allOnes]
  by_cases hk : i < 12 + 9 * k <;> simp [hi, hk]

/-- Only the bits inside the page of a leaf are cleared. -/
theorem leafFrame_shift (k : ℕ) (e : Word) :
    leafFrame k e >>> (9 * k) = frame e >>> (9 * k) := by
  apply BitVec.eq_of_getLsbD_eq
  intro i hi
  simp only [leafFrame, BitVec.getLsbD_ushiftRight, BitVec.getLsbD_shiftLeft]
  by_cases h : 9 * k + i < 40
  · simp [h]
  · have hz : (frame e).getLsbD (9 * k + i) = false := BitVec.getLsbD_of_ge _ _ (by omega)
    simp [h, hz]

/-- Physical addresses have 52 bits. -/
theorem leafAddress_lt {k : ℕ} (hk : k ≤ 2) (e a : Word) :
    (leafAddress k e a).toNat < 2 ^ 52 := by
  apply Nat.lt_pow_two_of_testBit
  intro i hi
  rw [BitVec.testBit_toNat]
  by_cases h64 : i < 64
  · rw [getLsbD_leafAddress k e a h64, if_neg (by omega), decide_eq_false (by omega),
      Bool.false_and]
  · exact BitVec.getLsbD_of_ge _ _ (by omega)

/-- The bits of a word above the page offset. -/
def pageBits (w : Word) : BitVec 52 := w.extractLsb' 12 52

/-- The offset of an address in its 4 KB page. -/
def pageOffset (a : Word) : BitVec 12 := a.extractLsb' 0 12

/-- A word is its page bits and its page offset. -/
theorem eq_iff_pageBits_pageOffset (v w : Word) :
    v = w ↔ pageBits v = pageBits w ∧ pageOffset v = pageOffset w := by
  constructor
  · rintro rfl
    exact ⟨rfl, rfl⟩
  · rintro ⟨hb, ho⟩
    apply BitVec.eq_of_getLsbD_eq
    intro i hi
    by_cases hlow : i < 12
    · have h := congrArg (fun x => x.getLsbD i) ho
      simpa [pageOffset, hlow] using h
    · have h := congrArg (fun x => x.getLsbD (i - 12)) hb
      simpa [pageBits, show i - 12 < 52 by omega, show 12 + (i - 12) = i by omega] using h

/-- The number of a word from its page bits and its page offset. -/
theorem toNat_eq_pageBits_pageOffset (w : Word) :
    w.toNat = (pageBits w).toNat * 4096 + (pageOffset w).toNat := by
  have hw := w.isLt
  rw [pageBits, pageOffset, BitVec.extractLsb'_toNat, BitVec.extractLsb'_toNat,
    Nat.shiftRight_eq_div_pow, Nat.shiftRight_zero]
  omega

/-- The high bits and the frame bits of an entry are its page bits. -/
theorem pageBits_eq_iff (v w : Word) :
    pageBits v = pageBits w ↔ highBits v = highBits w ∧ frame v = frame w := by
  constructor
  · intro h
    constructor <;> apply BitVec.eq_of_getLsbD_eq <;> intro i hi
    · have h' := congrArg (fun x => x.getLsbD (i + 40)) h
      simpa [pageBits, highBits, hi, show i + 40 < 52 by omega,
        show 12 + (i + 40) = 52 + i by omega] using h'
    · have h' := congrArg (fun x => x.getLsbD i) h
      simpa [pageBits, frame, hi, show i < 52 by omega] using h'
  · rintro ⟨hh, hf⟩
    apply BitVec.eq_of_getLsbD_eq
    intro i hi
    by_cases hlow : i < 40
    · have h := congrArg (fun x => x.getLsbD i) hf
      simpa [pageBits, frame, hlow, hi] using h
    · have h := congrArg (fun x => x.getLsbD (i - 40)) hh
      simpa [pageBits, highBits, hi, show i - 40 < 12 by omega,
        show 52 + (i - 40) = 12 + i by omega] using h

/-- The low 12 bits of a translation are those of the address. -/
theorem pageOffset_leafAddress (k : ℕ) (e a : Word) :
    pageOffset (leafAddress k e a) = pageOffset a := by
  apply BitVec.eq_of_getLsbD_eq
  intro i hi
  have h := getLsbD_leafAddress k e a (show i < 64 by omega)
  rw [if_pos (by omega)] at h
  simpa [pageOffset, hi] using h

theorem highBits_leafAddress {k : ℕ} (hk : k ≤ 2) (e a : Word) :
    highBits (leafAddress k e a) = 0 := by
  apply BitVec.eq_of_getLsbD_eq
  intro i hi
  have h := getLsbD_leafAddress k e a (show 52 + i < 64 by omega)
  rw [if_neg (by omega), decide_eq_false (by omega), Bool.false_and] at h
  simpa [highBits, hi] using h

/-- A PTE maps the 4 KB frame of its frame bits. -/
theorem frame_leafAddress_zero (e a : Word) : frame (leafAddress 0 e a) = frame e := by
  apply BitVec.eq_of_getLsbD_eq
  intro i hi
  have h := getLsbD_leafAddress 0 e a (show 12 + i < 64 by omega)
  rw [if_neg (by omega), decide_eq_true (by omega), Bool.true_and] at h
  simpa [frame, hi] using h

end LinuxOs2022.PageTable
