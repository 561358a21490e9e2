import LinuxOs2022.Syscall.Sharing

/-!
# The walk against the tables of the caller

With four levels the folded `p4d_offset` hands its argument on, so the chain of five calls
reads four tables; with five levels it reads five. Where all entries above the PTE level are
present tables the chain ends at the PTE of the hardware. Nothing stops it at any other
entry: an empty one leads it to frame 0 and a leaf into the page that the leaf maps.

## Implementation notes

Levels are counted from 1 for tables of PTEs. The root has level 5, or level 4 when the fifth
level is folded.
-/

namespace LinuxOs2022.Syscall

open Library PageTable

variable {l5 : Bool} {m m' : PhysMem} {root : Frame} {a : Word}

/-! ## The entry that is reached -/

/-- Two states with the same page tables. -/
structure SameTables (k k' : KState) : Prop where
  mem : k'.mem = k.mem
  pgd : k'.pgd = k.pgd
  l5 : k'.l5 = k.l5

/-- What two calls store for the addresses `a` and `b` of one page: numbers with the page bits
of the last word of the walk that differ as the addresses do. -/
structure PageResults (k : KState) (a b w w' : Word) : Prop where
  pageBits_left : pageBits w = pageBits (pteWord k.l5 k.mem k.pgd a)
  pageBits_right : pageBits w' = pageBits (pteWord k.l5 k.mem k.pgd a)
  xor : w ^^^ w' = a ^^^ b

theorem pageResults_joinPage (k : KState) {a b : Word} (h : pageBits a = pageBits b) :
    PageResults k a b (joinPage (pteWord k.l5 k.mem k.pgd a) a)
      (joinPage (pteWord k.l5 k.mem k.pgd b) b) := by
  have hw : pteWord k.l5 k.mem k.pgd b = pteWord k.l5 k.mem k.pgd a := by
    rw [pteWord, pteWord, ptePtr_of_pageBits k.l5 k.mem k.pgd h]
  rw [hw]
  exact ⟨pageBits_joinPage _ _, pageBits_joinPage _ _, joinPage_xor _ h⟩

/-- For either number of levels the chain of calls ends at the PTE of the hardware, and the
two operands of the OR have no common bit. The results for two addresses of a page have the
page bits of that PTE and differ as the addresses do. -/
theorem walk_refines_hardware (k : KState) :
    (∀ a p, hwPte k.l5 k.mem k.pgd a = some p →
      (∃ lines, (walk a).run k =
        .ok (k.mem.read p) { k with dmesg := k.dmesg ++ lines }) ∧
      ptePtr k.l5 k.mem k.pgd a = p ∧
      (k.mem.read p &&& pageMask) &&& (a &&& ~~~ pageMask) = 0) ∧
    ∀ (env env' : PhyAddrEnv) (k' : KState) (initial result initial' result' : Word),
      env.Complete → env'.Complete → SameTables k k' →
      pageBits (k.user.word initial) = pageBits (k'.user.word initial') →
      ∃ s s', (myOtherGetPhyAddr env initial result).run k = .ok 0 s ∧
        (myOtherGetPhyAddr env' initial' result').run k' = .ok 0 s' ∧
        PageResults k (k.user.word initial) (k'.user.word initial')
          (s.user.word result) (s'.user.word result') := by
  constructor
  · intro a p h
    obtain ⟨lines, hr⟩ := run_walk a k
    rw [pteWord, ptePtr_of_hwPte h] at hr
    exact ⟨⟨lines, hr⟩, ptePtr_of_hwPte h, page_addr_and_page_offset _ _⟩
  · intro env env' k' initial result initial' result' he he' hk hp
    obtain ⟨s, hr, hw⟩ := stored_word he k initial result
    obtain ⟨s', hr', hw'⟩ := stored_word he' k' initial' result'
    rw [hk.mem, hk.pgd, hk.l5] at hw'
    refine ⟨s, s', hr, hr', ?_⟩
    rw [hw, hw']
    exact pageResults_joinPage k hp

/-- Two addresses of the executable page of the image. -/
theorem walk_refines_hardware_image :
    ptePtr false imageTables 1 0x401010 = (4, 1) ∧
      ∃ s s', (myOtherGetPhyAddr quietEnv 0x7000 0x7008).run (imageState 0x401010) = .ok 0 s ∧
        (myOtherGetPhyAddr quietEnv 0x7000 0x7008).run (imageState 0x401ff8) = .ok 0 s' ∧
        PageResults (imageState 0x401010) 0x401010 0x401ff8
          (s.user.word 0x7008) (s'.user.word 0x7008) := by
  have hw := imageState_word
  obtain ⟨hpte, hcalls⟩ := walk_refines_hardware (imageState 0x401010)
  have h := hcalls quietEnv quietEnv (imageState 0x401ff8) 0x7000 0x7008 0x7000 0x7008
    quietEnv_complete quietEnv_complete ⟨rfl, rfl, rfl⟩ (by rw [hw, hw]; decide)
  rw [hw, hw] at h
  exact ⟨(hpte 0x401010 (4, 1) (by decide)).2.1, h⟩

/-! ## The entries that are read -/

/-- The entries that the walk reads, each with the level of the table it should lie in. -/
def entriesRead (l5 : Bool) (m : PhysMem) (root : Frame) (a : Word) : List (ℕ × EntryPtr) :=
  let pgd := pgdOffset l5 root a
  let p4d := p4dOffset l5 m pgd a
  let pud := pudOffset m p4d a
  let pmd := pmdOffset m pud a
  let pte := pteOffsetKernel m pmd a
  [(if l5 then 5 else 4, pgd), (4, p4d), (3, pud), (2, pmd), (1, pte)]

/-- A walk reads the same entries in memories that agree on them, and returns the same word. -/
theorem entriesRead_congr
    (h : ∀ r ∈ entriesRead l5 m root a, m'.read r.2 = m.read r.2) :
    entriesRead l5 m' root a = entriesRead l5 m root a ∧
      pteWord l5 m' root a = pteWord l5 m root a := by
  simp only [entriesRead, List.forall_mem_cons] at h
  obtain ⟨h5, h4, h3, h2, h1, -⟩ := h
  have e4 : p4dOffset l5 m' (pgdOffset l5 root a) a = p4dOffset l5 m (pgdOffset l5 root a) a := by
    rw [p4dOffset, p4dOffset, h5]
  have e3 := congrArg (fun w => ((frame w, pudIndex a) : EntryPtr)) h4
  have e2 := congrArg (fun w => ((pudFrame w, pmdIndex a) : EntryPtr)) h3
  have e1 := congrArg (fun w => ((pmdFrame w, pteIndex a) : EntryPtr)) h2
  simp only [pteWord, ptePtr, entriesRead, e4]
  simp only [pudOffset, pmdOffset, pteOffsetKernel] at e3 e2 e1 h1 ⊢
  simp only [e3, e2, e1, h1, and_self]

/-- An entry of a table of level `n` that leads to a table: it is present and no leaf. Only
PUD and PMD entries can be leaves. -/
def LeadsToTable (n : ℕ) (e : Word) : Prop := present e ∧ ((n = 3 ∨ n = 2) → ¬ pse e)

/-- The tables of a tree with their levels. -/
inductive TableNode (l5 : Bool) (m : PhysMem) (root : Frame) : ℕ → Frame → Prop
  | root : TableNode l5 m root (if l5 then 5 else 4) root
  | next {n : ℕ} {f : Frame} (hf : TableNode l5 m root (n + 2) f) (i : Index)
      (he : LeadsToTable (n + 2) (m f i)) : TableNode l5 m root (n + 1) (frame (m f i))

/-- The walk stays in the tables of the caller: every entry it reads lies in a table of the
right level, and every entry it follows leads to a table. -/
structure StaysInTables (l5 : Bool) (m : PhysMem) (root : Frame) (a : Word) : Prop where
  reads : ∀ r ∈ entriesRead l5 m root a, TableNode l5 m root r.1 r.2.1
  follows : ∀ r ∈ (entriesRead l5 m root a).dropLast, LeadsToTable r.1 (m.read r.2)

/-- The entries below the table of bits 39..47 that the walk follows. -/
structure FollowsTables (m : PhysMem) (t : Frame) (a : Word) : Prop where
  p4d : LeadsToTable 4 (m t (field 39 a))
  pud : LeadsToTable 3 (m (frame (m t (field 39 a))) (field 30 a))
  pmd : LeadsToTable 2 (m (frame (m (frame (m t (field 39 a))) (field 30 a))) (field 21 a))

theorem locate_levels4_isSome_iff {t : Frame} :
    (Radix.locate m t (levels4 a)).isSome ↔ FollowsTables m t a := by
  simp only [levels4, Radix.locate, Bool.false_eq_true, not_false_eq_true, and_true]
  constructor
  · intro h
    split at h
    case isFalse => cases h
    case isTrue h4 =>
      split at h
      case isFalse => cases h
      case isTrue h3 =>
        split at h
        case isFalse => cases h
        case isTrue h2 => exact ⟨⟨h4, by simp⟩, ⟨h3.1, fun _ => h3.2⟩, ⟨h2.1, fun _ => h2.2⟩⟩
  · rintro ⟨⟨h4, -⟩, ⟨h3, hn3⟩, ⟨h2, hn2⟩⟩
    rw [if_pos h4, if_pos ⟨h3, hn3 (.inl rfl)⟩, if_pos ⟨h2, hn2 (.inr rfl)⟩]
    rfl

/-- The descent of the hardware reaches the PTE level exactly when the entries on the way lead
to tables. -/
theorem hwPte_isSome_iff :
    (hwPte l5 m root a).isSome ↔
      (l5 → LeadsToTable 5 (m root (field 48 a))) ∧
        FollowsTables m (tableP4d l5 m root a) a := by
  cases l5 with
  | false =>
      rw [← locate_levels4_isSome_iff]
      exact ⟨fun h => ⟨fun hf => absurd hf (by decide), h⟩, And.right⟩
  | true =>
      simp only [← locate_levels4_isSome_iff, hwPte, levels, levels4, if_true]
      rw [Radix.locate]
      constructor
      · intro h
        split at h
        next hp => exact ⟨fun _ => ⟨hp.1, by simp⟩, h⟩
        next => cases h
      · rintro ⟨h5, h⟩
        rw [if_pos ⟨(h5 trivial).1, by simp⟩]
        exact h

/-- The entries that are read below a table `t` of bits 39..47. -/
def entriesBelow (m : PhysMem) (t : Frame) (a : Word) : List (ℕ × EntryPtr) :=
  let e4 := m t (field 39 a)
  let e3 := m (frame e4) (field 30 a)
  let e2 := m (pudFrame e3) (field 21 a)
  [(4, (t, field 39 a)), (3, (frame e4, field 30 a)), (2, (pudFrame e3, field 21 a)),
    (1, (pmdFrame e2, field 12 a))]

theorem entriesRead_eq (l5 : Bool) (m : PhysMem) (root : Frame) (a : Word) :
    entriesRead l5 m root a =
      (if l5 then 5 else 4, (root, pgdIndex l5 a)) ::
        entriesBelow m (tableP4d l5 m root a) a := by
  cases l5 <;> rfl

/-- What the walk follows below the table of bits 39..47. -/
theorem followsTables_iff {t : Frame} :
    FollowsTables m t a ↔
      ∀ r ∈ (entriesBelow m t a).dropLast, LeadsToTable r.1 (m.read r.2) := by
  simp only [entriesBelow, List.dropLast, List.forall_mem_cons, Radix.Tables.read]
  constructor
  · rintro ⟨h4, h3, h2⟩
    refine ⟨h4, h3, ?_, by simp⟩
    rwa [pudFrame, if_neg (h3.2 (.inl rfl))]
  · rintro ⟨h4, h3, h2, -⟩
    refine ⟨h4, h3, ?_⟩
    rwa [pudFrame, if_neg (h3.2 (.inl rfl))] at h2

/-- The entries below a table of bits 39..47 lie in tables when the followed ones lead to
tables. -/
theorem FollowsTables.reads {t : Frame} (h : FollowsTables m t a)
    (ht : TableNode l5 m root 4 t) :
    ∀ r ∈ entriesBelow m t a, TableNode l5 m root r.1 r.2.1 := by
  have n3 := ht.next _ h.p4d
  have n2 := n3.next _ h.pud
  have n1 := n2.next _ h.pmd
  simp only [entriesBelow, List.forall_mem_cons, pudFrame, if_neg (h.pud.2 (.inl rfl)), pmdFrame,
    if_neg (h.pmd.2 (.inr rfl))]
  exact ⟨ht, n3, n2, n1, by simp⟩

/-- The walk stays in the tables exactly when the descent of the hardware reaches the PTE
level. -/
theorem staysInTables_iff (l5 : Bool) (m : PhysMem) (root : Frame) (a : Word) :
    StaysInTables l5 m root a ↔ (hwPte l5 m root a).isSome := by
  rw [hwPte_isSome_iff]
  constructor
  · rintro ⟨-, h⟩
    rw [entriesRead_eq, List.dropLast_cons_of_ne_nil (by simp [entriesBelow]),
      List.forall_mem_cons] at h
    refine ⟨?_, followsTables_iff.mpr h.2⟩
    rintro rfl
    exact h.1
  · rintro ⟨h5, h⟩
    have ht : TableNode l5 m root 4 (tableP4d l5 m root a) := by
      cases l5 with
      | false => exact .root
      | true => exact TableNode.root.next _ (h5 rfl)
    constructor
    · rw [entriesRead_eq, List.forall_mem_cons]
      exact ⟨.root, h.reads ht⟩
    · rw [entriesRead_eq, List.dropLast_cons_of_ne_nil (by simp [entriesBelow]),
        List.forall_mem_cons]
      refine ⟨?_, followsTables_iff.mp h⟩
      cases l5 with
      | false => exact h.p4d
      | true => exact h5 rfl

/-- Address 0x800010 of the image has an empty PMD entry, so frame 0 is read for a table. -/
theorem not_staysInTables_unmapped :
    (1, ((0 : Frame), (0 : Index))) ∈ entriesRead false imageTables 1 0x800010 ∧
      ¬ StaysInTables false imageTables 1 0x800010 := by
  refine ⟨by decide, ?_⟩
  intro h
  have hp : present 0 := (h.follows (2, (3, 4)) (by decide)).1
  exact absurd hp (by decide)

end LinuxOs2022.Syscall
