import Mathlib

/-!
# Sums of many accounts

A step that changes one account changes the sum of all accounts by the same amount. The
growth of a sum is the sum of the growths, over all accounts or over any finite set of them
outside which nothing grows.
-/

namespace LinuxOs2022.Library

universe u v

variable {ι : Type u} {N : Type v}

/-- One account gets an entry. -/
theorem sum_eq_add_of_entry [DecidableEq ι] [AddCommMonoid N] {s : Finset ι} {f g : ι → N}
    {i : ι} {a : N} (hi : i ∈ s) (hg : g i = f i + a) (ho : ∀ j, j ≠ i → g j = f j) :
    ∑ j ∈ s, g j = ∑ j ∈ s, f j + a := by
  have hrest : ∑ j ∈ s.erase i, g j = ∑ j ∈ s.erase i, f j :=
    Finset.sum_congr rfl fun j hj => ho j (Finset.ne_of_mem_erase hj)
  calc ∑ j ∈ s, g j = g i + ∑ j ∈ s.erase i, g j := (Finset.add_sum_erase s g hi).symm
    _ = f i + ∑ j ∈ s.erase i, f j + a := by rw [hg, hrest, add_right_comm]
    _ = ∑ j ∈ s, f j + a := by rw [Finset.add_sum_erase s f hi]

/-- When only one account changes, the sum changes by the change of that account. -/
theorem sum_add_eq_sum_add [DecidableEq ι] [AddCommMonoid N] {s : Finset ι} {f g : ι → N}
    {i : ι} (hi : i ∈ s) (ho : ∀ j, j ≠ i → g j = f j) :
    ∑ j ∈ s, g j + f i = ∑ j ∈ s, f j + g i := by
  have hrest : ∑ j ∈ s.erase i, g j = ∑ j ∈ s.erase i, f j :=
    Finset.sum_congr rfl fun j hj => ho j (Finset.ne_of_mem_erase hj)
  calc ∑ j ∈ s, g j + f i = g i + ∑ j ∈ s.erase i, g j + f i := by
        rw [Finset.add_sum_erase s g hi]
    _ = f i + ∑ j ∈ s.erase i, f j + g i := by rw [hrest]; ac_rfl
    _ = ∑ j ∈ s, f j + g i := by rw [Finset.add_sum_erase s f hi]

/-- The growths of all accounts add up to the growth of the sum. -/
theorem finsum_growth [AddCommGroup N] {s : Finset ι} {f g : ι → N}
    (h : ∀ i, i ∉ s → g i = f i) :
    ∑ᶠ i, (g i - f i) = ∑ i ∈ s, g i - ∑ i ∈ s, f i := by
  have hsupp : (Function.support fun i => g i - f i) ⊆ s := by
    intro i hi
    by_contra hs
    exact hi (sub_eq_zero.mpr (h i hs))
  rw [finsum_eq_sum_of_support_subset _ hsupp, Finset.sum_sub_distrib]

end LinuxOs2022.Library
