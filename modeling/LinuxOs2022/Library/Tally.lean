import Mathlib

/-!
# Counters of a changing set

A counter agrees with a set when it is the number of its members. The counter may be a machine
word; what is said of it then holds modulo its size. The rules follow the members one at a
time, and no set has to be computed.
-/

namespace LinuxOs2022.Library

universe u v

variable {ι : Type u} {N : Type v}

/-- `x` is the number of those that `P` holds of. -/
def Tally [AddMonoidWithOne N] (x : N) (P : ι → Prop) : Prop :=
  ∃ T : Finset ι, (∀ i, i ∈ T ↔ P i) ∧ x = T.card

namespace Tally

section Monoid

variable [AddMonoidWithOne N] {x : N} {P Q : ι → Prop} {i : ι}

theorem congr (h : Tally x P) (hQ : ∀ j, Q j ↔ P j) : Tally x Q := by
  obtain ⟨T, hT, hx⟩ := h
  exact ⟨T, fun j => (hT j).trans (hQ j).symm, hx⟩

theorem zero (h : ∀ j, ¬ P j) : Tally (0 : N) P :=
  ⟨∅, fun j => by simpa using h j, by simp⟩

/-- A new member. -/
theorem insert [DecidableEq ι] (h : Tally x P) (hi : ¬ P i) (hQ : ∀ j, Q j ↔ j = i ∨ P j) :
    Tally (x + 1) Q := by
  obtain ⟨T, hT, rfl⟩ := h
  have hmem : i ∉ T := fun hmem => hi ((hT i).mp hmem)
  refine ⟨Insert.insert i T, fun j => ?_, ?_⟩
  · rw [Finset.mem_insert, hT, hQ]
  · rw [Finset.card_insert_of_notMem hmem, Nat.cast_succ]

/-- A member leaves. -/
theorem erase [DecidableEq ι] (h : Tally x P) (hi : P i) (hQ : ∀ j, Q j ↔ j ≠ i ∧ P j) :
    ∃ y, x = y + 1 ∧ Tally y Q := by
  obtain ⟨T, hT, rfl⟩ := h
  have hmem : i ∈ T := (hT i).mpr hi
  refine ⟨((T.erase i).card : N), ?_, T.erase i, fun j => ?_, rfl⟩
  · rw [← Nat.cast_succ, Nat.succ_eq_add_one, Finset.card_erase_add_one hmem]
  · rw [Finset.mem_erase, hT, hQ]

end Monoid

/-- A member leaves, and the counter goes down. -/
theorem sub_one [AddGroupWithOne N] [DecidableEq ι] {x : N} {P Q : ι → Prop} {i : ι}
    (h : Tally x P) (hi : P i) (hQ : ∀ j, Q j ↔ j ≠ i ∧ P j) : Tally (x - 1) Q := by
  obtain ⟨y, rfl, hy⟩ := h.erase hi hQ
  rwa [add_sub_cancel_right]

end Tally

end LinuxOs2022.Library
