import Mathlib

/-!
# Structs of C as bytes

The compiler places the fields of a struct in the order of their declaration, each at the
next multiple of its alignment, and pads the end to the alignment of the struct. A type is
kept as its size, its alignment and its members: the scalars and arrays of scalars in it,
with their paths of field names. Stores to disjoint ranges of bytes can be read one by one.

## Implementation notes

A type carries the proof that its members follow one another without overlap, so the ranges
of two members are disjoint whatever the declaration is.
-/

namespace LinuxOs2022.Library

universe u

/-! ## Types -/

/-- The least multiple of `a` from `n` on. -/
def alignUp (n a : ℕ) : ℕ := (n + a - 1) / a * a

theorem le_alignUp (n : ℕ) {a : ℕ} (ha : 0 < a) : n ≤ alignUp n a := by
  have h := Nat.div_add_mod (n + a - 1) a
  have hm := Nat.mod_lt (n + a - 1) ha
  rw [alignUp, Nat.mul_comm]
  omega

/-- A scalar or an array of scalars inside a type. -/
structure Member where
  path : List String
  offset : ℕ
  size : ℕ
  deriving DecidableEq

/-- The first of two members ends before the second begins. -/
def Member.Before (m m' : Member) : Prop := m.offset + m.size ≤ m'.offset

/-- The member in a struct that has its type at `start` under `name`. -/
def Member.inside (name : String) (start : ℕ) (m : Member) : Member :=
  ⟨name :: m.path, start + m.offset, m.size⟩

/-- A type as the compiler lays it out. -/
structure CType where
  size : ℕ
  align : ℕ
  members : List Member
  align_pos : 0 < align
  ordered : members.Pairwise Member.Before
  bounded : ∀ m ∈ members, m.offset + m.size ≤ size

namespace CType

/-- A scalar of `n` bytes. -/
def scalar (n : ℕ) (hn : 0 < n) : CType := ⟨n, n, [⟨[], 0, n⟩], hn, by simp, by simp⟩

/-- An array of `len` scalars of `n` bytes. -/
def array (n len : ℕ) (hn : 0 < n) : CType :=
  ⟨n * len, n, [⟨[], 0, n * len⟩], hn, by simp, by simp⟩

/-- The members of fields placed from offset `n` on, and the offset behind them. -/
def place : ℕ → List (String × CType) → List Member × ℕ
  | n, [] => ([], n)
  | n, (name, t) :: fs =>
      let start := alignUp n t.align
      let rest := place (start + t.size) fs
      (t.members.map (·.inside name start) ++ rest.1, rest.2)

/-- The members of placed fields lie between the two offsets. -/
theorem place_bounds (fs : List (String × CType)) (n : ℕ) :
    n ≤ (place n fs).2 ∧
      ∀ m ∈ (place n fs).1, n ≤ m.offset ∧ m.offset + m.size ≤ (place n fs).2 := by
  induction fs generalizing n with
  | nil => simp [place]
  | cons f fs ih =>
      obtain ⟨name, t⟩ := f
      have hstart := le_alignUp n t.align_pos
      obtain ⟨hle, hrest⟩ := ih (alignUp n t.align + t.size)
      constructor
      · simp only [place]
        omega
      · intro m hm
        simp only [place] at hm ⊢
        obtain hm | hm := List.mem_append.mp hm
        · obtain ⟨m', hm', rfl⟩ := List.mem_map.mp hm
          have hb := t.bounded m' hm'
          simp only [Member.inside]
          omega
        · have hb := hrest m hm
          omega

/-- The members of placed fields follow one another. -/
theorem place_ordered (fs : List (String × CType)) (n : ℕ) :
    (place n fs).1.Pairwise Member.Before := by
  induction fs generalizing n with
  | nil => exact .nil
  | cons f fs ih =>
      obtain ⟨name, t⟩ := f
      refine List.pairwise_append.mpr ⟨?_, ih _, ?_⟩
      · apply List.pairwise_map.mpr
        apply t.ordered.imp
        intro a b hab
        simp only [Member.Before, Member.inside] at hab ⊢
        omega
      · intro m hm m' hm'
        obtain ⟨m₀, hm₀, rfl⟩ := List.mem_map.mp hm
        have hb := t.bounded m₀ hm₀
        have hn := ((place_bounds fs _).2 m' hm').1
        simp only [Member.Before, Member.inside]
        omega

/-- The alignment of a struct: the largest one of its fields. -/
def maxAlign (fs : List (String × CType)) : ℕ := fs.foldr (fun f a => max f.2.align a) 1

theorem maxAlign_pos (fs : List (String × CType)) : 0 < maxAlign fs := by
  induction fs with
  | nil => exact Nat.one_pos
  | cons f fs ih => exact lt_max_of_lt_right ih

/-- A struct with the given fields. -/
def struct (fs : List (String × CType)) : CType where
  size := alignUp (place 0 fs).2 (maxAlign fs)
  align := maxAlign fs
  members := (place 0 fs).1
  align_pos := maxAlign_pos fs
  ordered := place_ordered fs 0
  bounded m hm := ((place_bounds fs 0).2 m hm).2.trans (le_alignUp _ (maxAlign_pos fs))

/-- The member with a given path. -/
def member? (t : CType) (path : List String) : Option Member :=
  t.members.find? fun m => m.path == path

end CType

/-! ## Stores -/

/-- A store: the offset of the first byte and the bytes. -/
abbrev Patch (β : Type u) := ℕ × List β

namespace Patch

variable {β : Type u}

/-- The store writes the byte at offset `j`. -/
def Covers (p : Patch β) (j : ℕ) : Prop := p.1 ≤ j ∧ j < p.1 + p.2.length

/-- Two stores write no common byte. -/
def Disjoint (p q : Patch β) : Prop := ∀ j, ¬ (p.Covers j ∧ q.Covers j)

/-- Bytes after a store. -/
def apply (f : ℕ → β) (p : Patch β) : ℕ → β := fun j =>
  if p.1 ≤ j then (p.2[j - p.1]?).getD (f j) else f j

/-- Bytes after several stores. -/
def applyAll (f : ℕ → β) (ps : List (Patch β)) : ℕ → β := ps.foldl apply f

theorem apply_of_not_covers {f : ℕ → β} {p : Patch β} {j : ℕ} (h : ¬ p.Covers j) :
    apply f p j = f j := by
  rw [apply]
  split
  next hle =>
    have hlen : p.2.length ≤ j - p.1 := by
      by_contra hlt
      exact h ⟨hle, by omega⟩
    rw [List.getElem?_eq_none hlen, Option.getD_none]
  next => rfl

theorem apply_add {f : ℕ → β} {p : Patch β} {i : ℕ} (h : i < p.2.length) :
    apply f p (p.1 + i) = p.2[i] := by
  rw [apply, if_pos (Nat.le_add_right _ _), Nat.add_sub_cancel_left,
    List.getElem?_eq_getElem h, Option.getD_some]

/-- A byte that no store writes keeps its value. -/
theorem applyAll_of_not_covers {f : ℕ → β} {ps : List (Patch β)} {j : ℕ}
    (h : ∀ p ∈ ps, ¬ p.Covers j) : applyAll f ps j = f j := by
  induction ps generalizing f with
  | nil => rfl
  | cons p ps ih =>
      obtain ⟨hp, hps⟩ := List.forall_mem_cons.mp h
      exact (ih hps).trans (apply_of_not_covers hp)

/-- Of disjoint stores each can be read back. -/
theorem applyAll_add {f : ℕ → β} {ps : List (Patch β)} (hd : ps.Pairwise Disjoint)
    {p : Patch β} (hp : p ∈ ps) {i : ℕ} (hi : i < p.2.length) :
    applyAll f ps (p.1 + i) = p.2[i] := by
  have hcov : p.Covers (p.1 + i) := ⟨Nat.le_add_right _ _, by omega⟩
  induction ps generalizing f with
  | nil => cases hp
  | cons q ps ih =>
      obtain ⟨hq, hps⟩ := List.pairwise_cons.mp hd
      obtain rfl | hp := List.mem_cons.mp hp
      · have hrest : ∀ r ∈ ps, ¬ r.Covers (p.1 + i) := fun r hr hc => hq r hr _ ⟨hcov, hc⟩
        exact (applyAll_of_not_covers hrest).trans (apply_add hi)
      · exact ih hps hp

/-- The store writes into a member from its first byte on. -/
def Into (p : Patch β) (m : Member) : Prop := p.1 = m.offset ∧ p.2.length ≤ m.size

/-- Stores into members that follow one another are disjoint. -/
theorem pairwise_disjoint {ps : List (Patch β)} {ms : List Member}
    (h : List.Forall₂ Into ps ms) (ho : ms.Pairwise Member.Before) : ps.Pairwise Disjoint := by
  induction h with
  | nil => exact .nil
  | @cons p m ps ms hp hps ih =>
      obtain ⟨hm, hms⟩ := List.pairwise_cons.mp ho
      refine .cons ?_ (ih hms)
      intro q hq j hj
      obtain ⟨m', hm', hq'⟩ : ∃ m' ∈ ms, Into q m' := by
        obtain ⟨i, hi, rfl⟩ := List.mem_iff_getElem.mp hq
        have hi' : i < ms.length := hps.length_eq ▸ hi
        exact ⟨ms[i], List.getElem_mem hi', hps.get hi hi'⟩
      have hb := hm m' hm'
      simp only [Into, Covers, Member.Before] at hp hq' hj hb
      omega

end Patch

end LinuxOs2022.Library
