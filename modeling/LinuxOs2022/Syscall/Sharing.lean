import LinuxOs2022.Syscall.PhyAddr

/-!
# Physical addresses and sharing as the homework programs see them

The test programs take the number that `my_other_get_phy_addr` stores for the physical
address, and two equal numbers for shared memory. The call clears only the page offset of
the last word it read, so bits 52..63 of a PTE survive, and below a huge-page leaf that word
is no page-table entry at all.

## Implementation notes

The conditions are stated on the tables before the call: the leaf entry the hardware reaches
and, for huge pages, the words of the mapped page that the walk takes for entries.
-/

namespace LinuxOs2022.Syscall

open Library PageTable

/-- The call finishes and stores the physical address that the hardware uses, a number of
52 bits. -/
def StoresPhysical (env : PhyAddrEnv) (k : KState) (initial result : Word) : Prop :=
  ∃ r k', (myOtherGetPhyAddr env initial result).run k = .ok r k' ∧
    hwTranslate k.l5 k.mem k.pgd (k.user.word initial) = some (k'.user.word result) ∧
    (k'.user.word result).toNat < 2 ^ 52

/-- What the leaf has to look like for the last word of the walk to have its page bits. A
PTE must be clear above its frame bits; below a huge-page leaf a word of the mapped page is
read for a PTE, and it must happen to name the 4 KB frame of the address. -/
def LeafReadRight (l5 : Bool) (m : PhysMem) (cr3 : Frame) (a : Word) : Prop :=
  match leaf l5 m cr3 a with
  | none => False
  | some (0, e) => highBits e = 0
  | some (1, e) => pageBits (m (leafFrame 1 e) (field 12 a)) = pageBits (leafAddress 1 e a)
  | some (_, e) => pageBits (m (pmdFrame (m (leafFrame 2 e) (field 21 a))) (field 12 a)) =
      pageBits (leafAddress 2 e a)

/-- Once both copies are complete the word at `result` is the join of the last word of the
walk with the offset of the address. -/
theorem stored_word {env : PhyAddrEnv} (he : env.Complete) (k : KState)
    (initial result : Word) :
    ∃ k', (myOtherGetPhyAddr env initial result).run k = .ok 0 k' ∧
      k'.user.word result =
        joinPage (pteWord k.l5 k.mem k.pgd (k.user.word initial)) (k.user.word initial) := by
  obtain ⟨ha, hin, hout⟩ := he
  obtain ⟨h, log, -, hr⟩ := run_myOtherGetPhyAddr ha k initial result
  refine ⟨_, hr, ?_⟩
  have ht : (bytesOf (valueComputed env k initial)).take env.copiedOut =
      bytesOf (valueComputed env k initial) := List.take_of_length_le (by simpa using hout)
  simp only [ht, UserMem.word_write]
  rw [valueComputed, addressRead_of_le hin]

/-- The page bits that the walk ends with, against those of the translation. -/
theorem pageBits_pteWord_iff {l5 : Bool} {m : PhysMem} {cr3 : Frame} {a e : Word} {n : ℕ}
    (h : leaf l5 m cr3 a = some (n, e)) :
    pageBits (pteWord l5 m cr3 a) = pageBits (leafAddress n e a) ↔
      LeafReadRight l5 m cr3 a := by
  have hn := (leaf_cases h).le_two
  match n, hn with
  | 0, _ =>
      rw [pteWord_of_leaf h, pageBits_leafAddress_zero_iff]
      simp only [LeafReadRight, h]
  | 1, _ =>
      rw [pteWord_of_leaf_one h]
      simp only [LeafReadRight, h]
  | 2, _ =>
      rw [pteWord_of_leaf_two h]
      simp only [LeafReadRight, h]

/-- For a mapped address the stored number is the physical address exactly when the leaf is
one that the code reads right. -/
theorem storesPhysical_iff {env : PhyAddrEnv} (he : env.Complete) {k : KState}
    {initial : Word} (hm : Mapped k.l5 k.mem k.pgd (k.user.word initial)) (result : Word) :
    StoresPhysical env k initial result ↔
      LeafReadRight k.l5 k.mem k.pgd (k.user.word initial) := by
  obtain ⟨⟨n, e⟩, hl⟩ := Option.isSome_iff_exists.mp hm
  obtain ⟨k', hr, hw⟩ := stored_word he k initial result
  have ht : hwTranslate k.l5 k.mem k.pgd (k.user.word initial) =
      some (leafAddress n e (k.user.word initial)) := by rw [hwTranslate, hl, Option.map_some]
  rw [← pageBits_pteWord_iff hl, ← joinPage_eq_leafAddress_iff, ← hw]
  constructor
  · rintro ⟨r, k'', hr', heq, -⟩
    obtain rfl : k' = k'' := by
      rw [hr] at hr'
      cases hr'
      rfl
    exact (Option.some.inj (ht.symm.trans heq)).symm
  · intro heq
    refine ⟨0, k', hr, by rw [ht, heq], ?_⟩
    rw [heq]
    exact hwTranslate_lt ht

/-- The executable mapping is read right. -/
theorem storesPhysical_executable :
    StoresPhysical quietEnv (imageState 0x401010) 0x7000 0x7008 ↔
      LeafReadRight false imageTables 1 ((imageState 0x401010).user.word 0x7000) :=
  storesPhysical_iff quietEnv_complete (by rw [imageState_word]; decide) 0x7008

/-- The writable mapping of the same frame is not: bit 63 of its PTE is stored. -/
theorem not_storesPhysical_writable :
    quietEnv.Complete ∧ Mapped false imageTables 1 0x400010 ∧
      ¬ StoresPhysical quietEnv (imageState 0x400010) 0x7000 0x7008 := by
  refine ⟨quietEnv_complete, by decide, ?_⟩
  obtain ⟨k', hr, hw⟩ := stored_word quietEnv_complete (imageState 0x400010) 0x7000 0x7008
  rw [imageState_word] at hw
  rintro ⟨r, k'', hr', -, hlt⟩
  rw [hr] at hr'
  cases hr'
  rw [hw] at hlt
  exact absurd hlt (by decide)

/-! ## Sharing -/

/-- The hardware takes both addresses to one physical byte. -/
def SameByte (l5 : Bool) (m : PhysMem) (p q : Frame) (a b : Word) : Prop :=
  ∃ pa, hwTranslate l5 m p a = some pa ∧ hwTranslate l5 m q b = some pa

/-- The word that the frame bits of four entries lead to, whether the entries are present or
not. -/
def followed (l5 : Bool) (m : PhysMem) (root : Frame) (a : Word) : Word :=
  m.read (Radix.arrive m (tableP4d l5 m root a) ⟨field 39 a, frame⟩ (hops4 a))

theorem pteWord_eq_followed (l5 : Bool) (m : PhysMem) (root : Frame) (a : Word) :
    pteWord l5 m root a = followed l5 m root a := by
  rw [pteWord, ptePtr_eq_arrive, followed]

/-- Two addresses that the numbers of the call compare right. Two PTEs for one frame must
agree above their frame bits. With a huge page or an unmapped address, the words the frame
bits lead to must agree in their page bits exactly for a shared page. -/
def Comparable (l5 : Bool) (m : PhysMem) (p q : Frame) (a b : Word) : Prop :=
  pageOffset a = pageOffset b →
    match leaf l5 m p a, leaf l5 m q b with
    | some (0, e), some (0, f) => frame e = frame f → highBits e = highBits f
    | some (i, e), some (j, f) =>
        pageBits (followed l5 m p a) = pageBits (followed l5 m q b) ↔
          pageBits (leafAddress i e a) = pageBits (leafAddress j f b)
    | _, _ => pageBits (followed l5 m p a) ≠ pageBits (followed l5 m q b)

/-- Two calls on one machine return 0, and the stored numbers are equal exactly for
addresses of one physical byte. -/
def DecidesSharing (env env' : PhyAddrEnv) (k k' : KState)
    (initial result initial' result' : Word) : Prop :=
  ∃ s s', (myOtherGetPhyAddr env initial result).run k = .ok 0 s ∧
    (myOtherGetPhyAddr env' initial' result').run k' = .ok 0 s' ∧
    (s.user.word result = s'.user.word result' ↔
      SameByte k.l5 k.mem k.pgd k'.pgd (k.user.word initial) (k'.user.word initial'))

section Compare

variable {l5 : Bool} {m : PhysMem} {p q : Frame} {a b : Word}

theorem sameByte_iff {i j : ℕ} {e f : Word} (hp : leaf l5 m p a = some (i, e))
    (hq : leaf l5 m q b = some (j, f)) :
    SameByte l5 m p q a b ↔
      pageBits (leafAddress i e a) = pageBits (leafAddress j f b) ∧
        pageOffset a = pageOffset b := by
  rw [← pageOffset_leafAddress i e a, ← pageOffset_leafAddress j f b,
    ← eq_iff_pageBits_pageOffset]
  simp [SameByte, hwTranslate, hp, hq, eq_comm]

/-- Two PTEs map one frame exactly when their frame bits agree. -/
theorem pageBits_leafAddress_zero_eq_iff (e f a b : Word) :
    pageBits (leafAddress 0 e a) = pageBits (leafAddress 0 f b) ↔ frame e = frame f := by
  rw [pageBits_eq_iff, highBits_leafAddress (by omega), highBits_leafAddress (by omega),
    frame_leafAddress_zero, frame_leafAddress_zero, eq_self_iff_true, true_and]

/-- The comparison of the joined words is right exactly for comparable addresses. -/
theorem joinPage_decides_iff :
    (joinPage (followed l5 m p a) a = joinPage (followed l5 m q b) b ↔
      SameByte l5 m p q a b) ↔ Comparable l5 m p q a b := by
  rw [joinPage_eq_iff, Comparable]
  split
  next e f hp hq =>
    rw [sameByte_iff hp hq, pageBits_leafAddress_zero_eq_iff, ← pteWord_eq_followed,
      ← pteWord_eq_followed, pteWord_of_leaf hp, pteWord_of_leaf hq, pageBits_eq_iff]
    tauto
  next i e j f _ hp hq =>
    rw [sameByte_iff hp hq]
    tauto
  next hnone =>
    have hn : ¬ SameByte l5 m p q a b := by
      rintro ⟨pa, hpa, hqb⟩
      obtain ⟨i, e, hp, -⟩ := hwTranslate_eq_some.mp hpa
      obtain ⟨j, f, hq, -⟩ := hwTranslate_eq_some.mp hqb
      exact hnone i e j f hp hq
    tauto

end Compare

/-- With complete calls the decision is the comparison of the two joined words. -/
theorem decidesSharing_iff_joinPage {env env' : PhyAddrEnv} (he : env.Complete)
    (he' : env'.Complete) {k k' : KState} (hm : k'.mem = k.mem) (hl : k'.l5 = k.l5)
    (initial result initial' result' : Word) :
    DecidesSharing env env' k k' initial result initial' result' ↔
      (joinPage (followed k.l5 k.mem k.pgd (k.user.word initial)) (k.user.word initial) =
          joinPage (followed k.l5 k.mem k'.pgd (k'.user.word initial'))
            (k'.user.word initial') ↔
        SameByte k.l5 k.mem k.pgd k'.pgd (k.user.word initial) (k'.user.word initial')) := by
  obtain ⟨s, hr, hw⟩ := stored_word he k initial result
  obtain ⟨s', hr', hw'⟩ := stored_word he' k' initial' result'
  rw [hm, hl, pteWord_eq_followed] at hw'
  rw [pteWord_eq_followed] at hw
  rw [← hw, ← hw']
  constructor
  · rintro ⟨t, t', ht, ht', h⟩
    rw [hr] at ht
    rw [hr'] at ht'
    cases ht
    cases ht'
    exact h
  · exact fun h => ⟨s, s', hr, hr', h⟩

/-- The test programs decide sharing right exactly on comparable addresses. -/
theorem decidesSharing_iff {env env' : PhyAddrEnv} (he : env.Complete)
    (he' : env'.Complete) {k k' : KState} (hm : k'.mem = k.mem) (hl : k'.l5 = k.l5)
    (initial result initial' result' : Word) :
    DecidesSharing env env' k k' initial result initial' result' ↔
      Comparable k.l5 k.mem k.pgd k'.pgd (k.user.word initial) (k'.user.word initial') := by
  rw [decidesSharing_iff_joinPage he he' hm hl, joinPage_decides_iff]

/-- The two mappings of one frame in the image. -/
theorem decidesSharing_image :
    DecidesSharing quietEnv quietEnv (imageState 0x400010) (imageState 0x401010)
        0x7000 0x7008 0x7000 0x7008 ↔
      Comparable false imageTables 1 1 ((imageState 0x400010).user.word 0x7000)
        ((imageState 0x401010).user.word 0x7000) :=
  decidesSharing_iff quietEnv_complete quietEnv_complete (imageState_mem _ _)
    (imageState_l5 _ _) _ _ _ _

/-- The two mappings of one frame look private, and two unmapped addresses look shared. -/
theorem not_decidesSharing_image :
    ¬ DecidesSharing quietEnv quietEnv (imageState 0x400010) (imageState 0x401010)
        0x7000 0x7008 0x7000 0x7008 ∧
      ¬ DecidesSharing quietEnv quietEnv (imageState 0x800010) (imageState 0xa00010)
        0x7000 0x7008 0x7000 0x7008 := by
  constructor <;>
    rw [decidesSharing_iff_joinPage quietEnv_complete quietEnv_complete (imageState_mem _ _)
      (imageState_l5 _ _), imageState_word, imageState_word]
  · intro h
    have hs : SameByte false imageTables 1 1 0x400010 0x401010 :=
      ⟨0x5010, by decide, by decide⟩
    exact absurd (h.mpr hs) (by decide)
  · intro h
    obtain ⟨pa, hpa, -⟩ := h.mp (by decide)
    exact absurd hpa (by rw [show hwTranslate _ _ _ _ = none by decide]; simp)

end LinuxOs2022.Syscall
