import LinuxOs2022.Library.Tally

/-!
# The maximum of a changing set, by buckets

The members of a changing set have values, and a monotone key sorts the values into finitely
many buckets. Each bucket counts its members and keeps a bound of their values, which it
forgets only when it is empty. The bound of the topmost bucket in use is then a bound for all
members, and it is in the same bucket as the largest of them.
-/

namespace LinuxOs2022.Library

universe u v

variable {ι : Type u} {α : Type v} [LinearOrder α] {n : ℕ}

/-- The buckets count and bound the values of the members. -/
structure Aggregates (key : α → ℕ) (count : Fin n → ℕ) (best : Fin n → α) (val : ι → α)
    (P : ι → Prop) : Prop where
  tally : ∀ i : Fin n, Tally (count i) fun p => P p ∧ key (val p) = i
  le_best : ∀ (i : Fin n) p, P p → key (val p) = i → val p ≤ best i
  key_best : ∀ i : Fin n, count i ≠ 0 → key (best i) = i
  key_lt : ∀ p, P p → key (val p) < n

/-- `x` is the bound of the topmost bucket in use. -/
def IsTop (count : Fin n → ℕ) (best : Fin n → α) (x : α) : Prop :=
  ∃ i, count i ≠ 0 ∧ (∀ j, i < j → count j = 0) ∧ x = best i

namespace Aggregates

variable {key : α → ℕ} {count : Fin n → ℕ} {best : Fin n → α} {val val' : ι → α}
  {P Q : ι → Prop} {p : ι} {i : Fin n} {x : α}

theorem congr (h : Aggregates key count best val P) (hQ : ∀ q, Q q ↔ P q)
    (hval : ∀ q, P q → val' q = val q) : Aggregates key count best val' Q := by
  constructor
  · intro i
    apply (h.tally i).congr
    intro q
    rw [hQ]
    exact and_congr_right fun hq => by rw [hval q hq]
  · intro i q hq hi
    have hq' := (hQ q).mp hq
    rw [hval q hq'] at hi ⊢
    exact h.le_best i q hq' hi
  · exact h.key_best
  · intro q hq
    have hq' := (hQ q).mp hq
    rw [hval q hq']
    exact h.key_lt q hq'

theorem empty (hcount : ∀ i, count i = 0) (hP : ∀ q, ¬ P q) :
    Aggregates key count best val P := by
  constructor
  · intro i
    rw [hcount i]
    exact .zero fun q hq => hP q hq.1
  · exact fun i q hq => absurd hq (hP q)
  · exact fun i hi => absurd (hcount i) hi
  · exact fun q hq => absurd hq (hP q)

/-- A bucket is in use when it has members. -/
theorem count_ne_zero_iff (h : Aggregates key count best val P) (i : Fin n) :
    count i ≠ 0 ↔ ∃ q, P q ∧ key (val q) = i := by
  obtain ⟨T, hT, hc⟩ := h.tally i
  rw [hc, Nat.cast_id, Finset.card_ne_zero]
  exact exists_congr hT

theorem count_ne_zero (h : Aggregates key count best val P) (hp : P p) (hi : key (val p) = i) :
    count i ≠ 0 := (h.count_ne_zero_iff i).mpr ⟨p, hp, hi⟩

/-- A new member raises the bound of its bucket. -/
theorem insert [DecidableEq ι] (h : Aggregates key count best val P) (hp : ¬ P p)
    (hi : key x = i) :
    Aggregates key (Function.update count i (count i + 1))
      (Function.update best i (if count i = 0 ∨ best i < x then x else best i))
      (Function.update val p x) fun q => q = p ∨ P q := by
  have hother : ∀ q, P q → Function.update val p x q = val q := by
    intro q hq
    apply Function.update_of_ne
    rintro rfl
    exact hp hq
  constructor
  · intro j
    by_cases hj : j = i
    · subst hj
      rw [Function.update_self]
      apply (h.tally j).insert fun hq => hp hq.1
      intro q
      by_cases hq : q = p
      · subst hq
        simp [hi]
      · simp [hq]
    · rw [Function.update_of_ne hj]
      apply (h.tally j).congr
      intro q
      by_cases hq : q = p
      · subst hq
        refine iff_of_false (fun hk => hj ?_) fun hk => hp hk.1
        rw [Function.update_self, hi] at hk
        exact Fin.ext hk.2.symm
      · simp [hq]
  · intro j q hq hk
    by_cases hj : j = i
    · subst hj
      rw [Function.update_self]
      obtain rfl | hq := hq
      · rw [Function.update_self]
        split
        next => exact le_rfl
        next hmax => exact not_lt.mp (not_or.mp hmax).2
      · rw [hother q hq] at hk ⊢
        have hle := h.le_best j q hq hk
        split
        next hmax => exact hle.trans ((hmax.resolve_left (h.count_ne_zero hq hk)).le)
        next => exact hle
    · rw [Function.update_of_ne hj]
      obtain rfl | hq := hq
      · rw [Function.update_self, hi] at hk
        exact absurd (Fin.ext hk.symm) hj
      · rw [hother q hq] at hk ⊢
        exact h.le_best j q hq hk
  · intro j hj
    by_cases hji : j = i
    · subst hji
      rw [Function.update_self]
      split
      next => exact hi
      next hmax => exact h.key_best j (not_or.mp hmax).1
    · rw [Function.update_of_ne hji] at hj ⊢
      exact h.key_best j hj
  · rintro q (rfl | hq)
    · rw [Function.update_self, hi]
      exact i.isLt
    · rw [hother q hq]
      exact h.key_lt q hq

/-- When a member leaves, its bucket keeps the bound. -/
theorem erase [DecidableEq ι] (h : Aggregates key count best val P) (hp : P p)
    (hi : key (val p) = i) :
    Aggregates key (Function.update count i (count i - 1)) best val fun q => q ≠ p ∧ P q := by
  constructor
  · intro j
    by_cases hj : j = i
    · subst hj
      rw [Function.update_self]
      obtain ⟨y, hy, hleft⟩ := (h.tally j).erase ⟨hp, hi⟩ fun q => Iff.rfl
      rw [hy, Nat.add_sub_cancel]
      exact hleft.congr fun q => and_assoc
    · rw [Function.update_of_ne hj]
      apply (h.tally j).congr
      intro q
      rw [and_assoc, and_iff_right_iff_imp]
      rintro hq rfl
      exact hj (Fin.ext (hq.2.symm.trans hi))
  · exact fun j q hq => h.le_best j q hq.2
  · intro j hj
    apply h.key_best
    by_cases hji : j = i
    · subst hji
      rw [Function.update_self] at hj
      exact fun hzero => hj (by rw [hzero])
    · rwa [Function.update_of_ne hji] at hj
  · exact fun q hq => h.key_lt q hq.2

/-! ## The topmost bucket -/

/-- The bound of the topmost bucket bounds every member. -/
theorem le_top (h : Aggregates key count best val P) (hkey : Monotone key)
    (ht : IsTop count best x) (hp : P p) : val p ≤ x := by
  obtain ⟨i, hi, habove, rfl⟩ := ht
  have hb : count ⟨key (val p), h.key_lt p hp⟩ ≠ 0 := h.count_ne_zero hp rfl
  have hle : key (val p) ≤ i := by
    by_contra hlt
    exact hb (habove _ (Fin.lt_def.mpr (not_le.mp hlt)))
  obtain heq | hlt := hle.eq_or_lt
  · exact h.le_best i p hp heq
  · by_contra hgt
    have hmono := hkey (not_le.mp hgt).le
    rw [h.key_best i hi] at hmono
    exact absurd hlt (not_lt.mpr hmono)

/-- Some member is in the topmost bucket. -/
theorem exists_top (h : Aggregates key count best val P) (ht : IsTop count best x) :
    ∃ q, P q ∧ key (val q) = key x := by
  obtain ⟨i, hi, -, rfl⟩ := ht
  obtain ⟨q, hq, hk⟩ := (h.count_ne_zero_iff i).mp hi
  exact ⟨q, hq, hk.trans (h.key_best i hi).symm⟩

/-- The bound of any bucket in use is at most that of the topmost one. -/
theorem best_le_top (h : Aggregates key count best val P) (hkey : Monotone key)
    (ht : IsTop count best x) (hi : count i ≠ 0) : best i ≤ x := by
  obtain ⟨j, hj, habove, rfl⟩ := ht
  have hle : i ≤ j := by
    by_contra hlt
    exact hi (habove i (not_le.mp hlt))
  obtain rfl | hlt := hle.eq_or_lt
  · exact le_rfl
  · by_contra hgt
    have hmono := hkey (not_le.mp hgt).le
    rw [h.key_best i hi, h.key_best j hj] at hmono
    exact absurd hlt (not_lt.mpr hmono)

/-- A new member raises the top. -/
theorem top_insert (h : Aggregates key count best val P) (hkey : Monotone key)
    (ht : IsTop count best x) {y : α} (hi : key y = i) :
    IsTop (Function.update count i (count i + 1))
      (Function.update best i (if count i = 0 ∨ best i < y then y else best i)) (max x y) := by
  obtain ⟨j, hj, habove, rfl⟩ := ht
  obtain hlt | rfl | hgt := lt_trichotomy i j
  · -- the new member is below the top
    have hy : y ≤ best j := by
      by_contra hlt'
      have hmono := hkey (not_le.mp hlt').le
      rw [h.key_best j hj, hi] at hmono
      exact absurd hlt (not_lt.mpr hmono)
    refine ⟨j, ?_, fun k hk => ?_, ?_⟩
    · rwa [Function.update_of_ne hlt.ne']
    · rw [Function.update_of_ne (hlt.trans hk).ne']
      exact habove k hk
    · rw [Function.update_of_ne hlt.ne', max_eq_left hy]
  · refine ⟨i, ?_, fun k hk => ?_, ?_⟩
    · rw [Function.update_self]
      exact Nat.succ_ne_zero _
    · rw [Function.update_of_ne hk.ne']
      exact habove k hk
    · rw [Function.update_self]
      split
      next hmax => exact max_eq_right (hmax.resolve_left hj).le
      next hmax => exact max_eq_left (not_lt.mp (not_or.mp hmax).2)
  · -- the new member opens a bucket above the top
    have hzero := habove i hgt
    have hy : best j ≤ y := by
      by_contra hlt'
      have hmono := hkey (not_le.mp hlt').le
      rw [h.key_best j hj, hi] at hmono
      exact absurd hgt (not_lt.mpr hmono)
    refine ⟨i, ?_, fun k hk => ?_, ?_⟩
    · rw [Function.update_self]
      exact Nat.succ_ne_zero _
    · rw [Function.update_of_ne hk.ne']
      exact habove k (hgt.trans hk)
    · rw [Function.update_self, if_pos (.inl hzero), max_eq_right hy]

/-- The first member is the top. -/
theorem top_single (hzero : ∀ j, count j = 0) (y : α) (i : Fin n) :
    IsTop (Function.update count i (count i + 1))
      (Function.update best i (if count i = 0 ∨ best i < y then y else best i)) y := by
  refine ⟨i, ?_, fun k hk => ?_, ?_⟩
  · rw [Function.update_self]
    exact Nat.succ_ne_zero _
  · rw [Function.update_of_ne hk.ne']
    exact hzero k
  · rw [Function.update_self, if_pos (.inl (hzero i))]

end Aggregates

omit [LinearOrder α] in
/-- A bucket below the top may change its number of members. -/
theorem IsTop.update {count : Fin n → ℕ} {best : Fin n → α} {x : α} (ht : IsTop count best x)
    {i : Fin n} {k : ℕ} (hi : count i ≠ 0) (hk : k ≠ 0 ∨ best i ≠ x) :
    IsTop (Function.update count i k) best x := by
  obtain ⟨j, hj, habove, rfl⟩ := ht
  have hle : i ≤ j := by
    by_contra hlt
    exact hi (habove i (not_le.mp hlt))
  refine ⟨j, ?_, fun l hl => ?_, rfl⟩
  · by_cases hji : j = i
    · subst hji
      rw [Function.update_self]
      exact hk.resolve_right fun hne => hne rfl
    · rwa [Function.update_of_ne hji]
  · rw [Function.update_of_ne (hle.trans_lt hl).ne']
    exact habove l hl

end LinuxOs2022.Library
