import Mathlib

/-!
# Lock tables

A lock word names its owner. The locks an actor believes to hold are read off its control
state; the table is guarded when every such belief is true, and then no two actors hold one
lock. A step of one actor takes free locks and gives up its own.
-/

namespace LinuxOs2022.Library

universe u v

variable {L : Type u} {A : Type v}

/-- Whoever believes to hold a lock owns it. -/
def Guarded (lock : L → Option A) (holds : A → L → Prop) : Prop :=
  ∀ a l, holds a l → lock l = some a

/-- The lock words after a step of `a`: taken when free, given up when owned. -/
def LockStep (a : A) (lock lock' : L → Option A) : Prop :=
  ∀ l, lock' l = lock l ∨ (lock l = none ∧ lock' l = some a) ∨
    (lock l = some a ∧ lock' l = none)

variable {a b : A} {l : L} {lock lock' lock'' : L → Option A} {holds holds' : A → L → Prop}

theorem Guarded.exclusive (h : Guarded lock holds) (ha : holds a l) (hb : holds b l) :
    a = b := Option.some.inj ((h a l ha).symm.trans (h b l hb))

/-- A step of `a` keeps the table guarded when `a` owns what it believes to hold
afterwards. -/
theorem Guarded.step (h : Guarded lock holds) (hl : LockStep a lock lock')
    (hother : ∀ b, b ≠ a → ∀ l, holds' b l → holds b l)
    (hself : ∀ l, holds' a l → lock' l = some a) : Guarded lock' holds' := by
  intro b l hb
  by_cases hba : b = a
  · subst hba
    exact hself l hb
  · have hown := h b l (hother b hba l hb)
    obtain hsame | ⟨hfree, -⟩ | ⟨howned, -⟩ := hl l
    · rw [hsame, hown]
    · rw [hown] at hfree
      cases hfree
    · rw [hown] at howned
      exact absurd (Option.some.inj howned) hba

theorem LockStep.refl (a : A) (lock : L → Option A) : LockStep a lock lock := fun _ => .inl rfl

theorem LockStep.trans (h : LockStep a lock lock') (h' : LockStep a lock' lock'') :
    LockStep a lock lock'' := by
  intro l
  obtain h₁ | ⟨h₁, h₂⟩ | ⟨h₁, h₂⟩ := h l <;> obtain h₃ | ⟨h₃, h₄⟩ | ⟨h₃, h₄⟩ := h' l <;>
    simp_all

/-- `a` owns the lock or may take it. -/
def Available (a : A) (lock : L → Option A) (l : L) : Prop := lock l = none ∨ lock l = some a

/-- A step of `a` leaves it what was available to it. -/
theorem LockStep.available (h : LockStep a lock lock') (hl : Available a lock l) :
    Available a lock' l := by
  obtain hsame | ⟨-, htaken⟩ | ⟨-, hgiven⟩ := h l
  · unfold Available at hl ⊢
    rwa [hsame]
  · exact .inr htaken
  · exact .inl hgiven

variable [DecidableEq L]

/-- Taking a free lock. -/
theorem LockStep.acquire (hl : Available a lock l) :
    LockStep a lock (Function.update lock l (some a)) := by
  intro l'
  by_cases h : l' = l
  · subst h
    rw [Function.update_self]
    exact hl.elim (fun hfree => .inr (.inl ⟨hfree, rfl⟩)) fun hown => .inl hown.symm
  · exact .inl (Function.update_of_ne h _ _)

/-- Giving up an owned lock. -/
theorem LockStep.release (hl : Available a lock l) :
    LockStep a lock (Function.update lock l none) := by
  intro l'
  by_cases h : l' = l
  · subst h
    rw [Function.update_self]
    exact hl.elim (fun hfree => .inl hfree.symm) fun hown => .inr (.inr ⟨hown, rfl⟩)
  · exact .inl (Function.update_of_ne h _ _)

end LinuxOs2022.Library
