import LinuxOs2022.PageTable.Entry

/-!
# The hardware translation

The processor splits an address into 9-bit fields, reads one entry at each level and stops
at an entry that is not present. A PUD or PMD entry with the page-size bit maps a page of
1 GB or 2 MB; a PTE maps a page of 4 KB. With five levels one more table stands above.

## Implementation notes

`leaf` keeps the leaf entry and the number of levels left below it, since the results of
this development distinguish the page sizes. Reserved bits are not checked: in the trees
the kernel builds they are zero.
-/

namespace LinuxOs2022.PageTable

open Library

/-- The 9-bit field of an address that starts at bit `lo`. -/
def field (lo : ℕ) (a : Word) : Index := a.extractLsb' lo 9

/-- The bits above the highest table field repeat the bit below them. -/
def canonical (l5 : Bool) (a : Word) : Bool :=
  if l5 then (a.setWidth 57).signExtend 64 == a else (a.setWidth 48).signExtend 64 == a

/-- The levels of the four-level tree, from the table that bits 39..47 index. -/
def levels4 (a : Word) : List (Radix.Level Frame Index Word) :=
  [⟨field 39 a, present, fun _ => false, frame⟩,
   ⟨field 30 a, present, pse, frame⟩,
   ⟨field 21 a, present, pse, frame⟩,
   ⟨field 12 a, present, fun _ => true, frame⟩]

/-- The levels of the tree in use. -/
def levels (l5 : Bool) (a : Word) : List (Radix.Level Frame Index Word) :=
  if l5 then ⟨field 48 a, present, fun _ => false, frame⟩ :: levels4 a else levels4 a

/-- The leaf entry that maps the address and the number of levels left below it: 0 for a
PTE, 1 for a 2 MB leaf, 2 for a 1 GB leaf. -/
def leaf (l5 : Bool) (m : PhysMem) (cr3 : Frame) (a : Word) : Option (ℕ × Word) :=
  if canonical l5 a then
    (Radix.descend m cr3 (levels l5 a)).map fun r => (r.2.length, m.read r.1)
  else none

/-- The physical address the hardware uses for an address. -/
def hwTranslate (l5 : Bool) (m : PhysMem) (cr3 : Frame) (a : Word) : Option Word :=
  (leaf l5 m cr3 a).map fun r => leafAddress r.1 r.2 a

theorem hwTranslate_eq_some {l5 : Bool} {m : PhysMem} {cr3 : Frame} {a pa : Word} :
    hwTranslate l5 m cr3 a = some pa ↔
      ∃ k e, leaf l5 m cr3 a = some (k, e) ∧ leafAddress k e a = pa := by
  simp [hwTranslate]

/-- The slot of the PTE of an address whose entries above the PTE level are all present
tables. The bits above the table fields are not looked at. -/
def hwPte (l5 : Bool) (m : PhysMem) (cr3 : Frame) (a : Word) : Option EntryPtr :=
  Radix.locate m cr3 (levels l5 a)

/-- The address is mapped: canonical and present at every level. -/
def Mapped (l5 : Bool) (m : PhysMem) (cr3 : Frame) (a : Word) : Prop :=
  (leaf l5 m cr3 a).isSome

instance (l5 : Bool) (m : PhysMem) (cr3 : Frame) (a : Word) :
    Decidable (Mapped l5 m cr3 a) := inferInstanceAs (Decidable (_ = true))

/-- The table that bits 39..47 index: the root, or the table below the fifth level. -/
def tableP4d (l5 : Bool) (m : PhysMem) (cr3 : Frame) (a : Word) : Frame :=
  if l5 then frame (m cr3 (field 48 a)) else cr3

/-- What a descent through the four lower levels met, one alternative for each page size. -/
inductive LeafCase (m : PhysMem) (t : Frame) (a : Word) : ℕ → Word → Prop
  | gb (e4 e3 : Word) (h4 : m t (field 39 a) = e4) (h3 : m (frame e4) (field 30 a) = e3)
      (hp : pse e3) : LeafCase m t a 2 e3
  | mb (e4 e3 e2 : Word) (h4 : m t (field 39 a) = e4) (h3 : m (frame e4) (field 30 a) = e3)
      (h2 : m (frame e3) (field 21 a) = e2) (hn : ¬ pse e3) (hp : pse e2) :
      LeafCase m t a 1 e2
  | kb (e4 e3 e2 e1 : Word) (h4 : m t (field 39 a) = e4)
      (h3 : m (frame e4) (field 30 a) = e3) (h2 : m (frame e3) (field 21 a) = e2)
      (h1 : m (frame e2) (field 12 a) = e1) (hn3 : ¬ pse e3) (hn2 : ¬ pse e2) :
      LeafCase m t a 0 e1

private theorem descend4_cases {m : PhysMem} {t : Frame} {a : Word} {p : EntryPtr}
    {ls : List (Radix.Level Frame Index Word)}
    (h : Radix.descend m t (levels4 a) = some (p, ls)) :
    LeafCase m t a ls.length (m.read p) := by
  simp only [levels4, Radix.descend] at h
  split at h
  case isFalse => exact absurd h (by simp)
  rw [if_neg (by simp)] at h
  split at h
  case isFalse => exact absurd h (by simp)
  split at h
  case isTrue hp =>
    obtain ⟨rfl, rfl⟩ := Prod.mk.inj (Option.some.inj h)
    exact .gb _ _ rfl rfl hp
  case isFalse hn3 =>
    split at h
    case isFalse => exact absurd h (by simp)
    split at h
    case isTrue hp =>
      obtain ⟨rfl, rfl⟩ := Prod.mk.inj (Option.some.inj h)
      exact .mb _ _ _ rfl rfl rfl hn3 hp
    case isFalse hn2 =>
      split at h
      case isFalse => exact absurd h (by simp)
      rw [if_pos trivial] at h
      obtain ⟨rfl, rfl⟩ := Prod.mk.inj (Option.some.inj h)
      exact .kb _ _ _ _ rfl rfl rfl rfl hn3 hn2

/-- A leaf is the end of a descent through the four lower levels, for either depth of the
tree. -/
theorem leaf_descend {l5 : Bool} {m : PhysMem} {cr3 : Frame} {a e : Word} {k : ℕ}
    (h : leaf l5 m cr3 a = some (k, e)) :
    ∃ p ls, Radix.descend m (tableP4d l5 m cr3 a) (levels4 a) = some (p, ls) ∧
      ls.length = k ∧ m.read p = e := by
  simp only [leaf] at h
  split at h
  case isFalse => exact absurd h (by simp)
  obtain ⟨⟨p, ls⟩, hd, hr⟩ := Option.map_eq_some_iff.mp h
  obtain ⟨hk, he⟩ := Prod.mk.inj hr
  refine ⟨p, ls, ?_, hk, he⟩
  cases l5 with
  | false => exact hd
  | true =>
      simp only [levels, if_true, Radix.descend] at hd
      split at hd
      case isFalse => exact absurd hd (by simp)
      rwa [if_neg (by simp)] at hd

/-- The PTE lies below the table of bits 39..47, for either depth of the tree. -/
theorem locate_of_hwPte {l5 : Bool} {m : PhysMem} {cr3 : Frame} {a : Word} {p : EntryPtr}
    (h : hwPte l5 m cr3 a = some p) :
    Radix.locate m (tableP4d l5 m cr3 a) (levels4 a) = some p := by
  cases l5 with
  | false => exact h
  | true =>
      simp only [hwPte, levels, levels4, if_true] at h
      rw [Radix.locate] at h
      split at h
      next => exact h
      next => cases h

/-- The entries on the way to a leaf. -/
theorem leaf_cases {l5 : Bool} {m : PhysMem} {cr3 : Frame} {a e : Word} {k : ℕ}
    (h : leaf l5 m cr3 a = some (k, e)) : LeafCase m (tableP4d l5 m cr3 a) a k e := by
  obtain ⟨p, ls, hd, rfl, rfl⟩ := leaf_descend h
  exact descend4_cases hd

theorem LeafCase.le_two {m : PhysMem} {t : Frame} {a e : Word} {k : ℕ}
    (h : LeafCase m t a k e) : k ≤ 2 := by
  cases h <;> omega

/-- The hardware produces physical addresses of 52 bits. -/
theorem hwTranslate_lt {l5 : Bool} {m : PhysMem} {cr3 : Frame} {a pa : Word}
    (h : hwTranslate l5 m cr3 a = some pa) : pa.toNat < 2 ^ 52 := by
  obtain ⟨k, e, hl, rfl⟩ := hwTranslate_eq_some.mp h
  exact leafAddress_lt (leaf_cases hl).le_two e a

end LinuxOs2022.PageTable
