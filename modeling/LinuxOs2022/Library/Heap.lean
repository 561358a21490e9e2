import Mathlib

/-!
# A heap of allocated blocks

Blocks are numbered in the order of their allocation and a number is never used twice, so
a block that has been freed stays dead. The set of live blocks is what an observer of
leaks compares.
-/

namespace LinuxOs2022.Library

/-- Allocated blocks with their contents; numbers from `fresh` on were never handed out. -/
structure Heap (V : Type*) where
  fresh : ℕ
  block : ℕ → Option V
  bounded : ∀ i, fresh ≤ i → block i = none

namespace Heap

variable {V : Type*}

/-- The numbers of the blocks that are allocated and not freed. -/
def live (h : Heap V) : Set ℕ := {i | (h.block i).isSome}

/-- The heap before any allocation. -/
def empty : Heap V := ⟨0, fun _ => none, fun _ _ => rfl⟩

/-- Allocate block number `h.fresh` with the given contents. -/
def alloc (h : Heap V) (v : V) : Heap V where
  fresh := h.fresh + 1
  block i := if i = h.fresh then some v else h.block i
  bounded i hi := by
    rw [if_neg (by omega)]
    exact h.bounded i (by omega)

/-- Replace the contents of a live block; a dead block stays dead. -/
def write (h : Heap V) (i : ℕ) (v : V) : Heap V where
  fresh := h.fresh
  block j := if j = i then (h.block i).map fun _ => v else h.block j
  bounded j hj := by
    by_cases hji : j = i
    · subst hji
      rw [if_pos rfl, h.bounded j hj, Option.map_none]
    · rw [if_neg hji]
      exact h.bounded j hj

/-- Free a block. -/
def free (h : Heap V) (i : ℕ) : Heap V where
  fresh := h.fresh
  block j := if j = i then none else h.block j
  bounded j hj := by
    by_cases hji : j = i
    · rw [if_pos hji]
    · rw [if_neg hji]
      exact h.bounded j hj

theorem fresh_notMem_live (h : Heap V) : h.fresh ∉ h.live := by
  simp [live, h.bounded h.fresh le_rfl]

@[simp] theorem block_alloc_self (h : Heap V) (v : V) :
    (h.alloc v).block h.fresh = some v := by simp [alloc]

theorem block_alloc_of_ne (h : Heap V) (v : V) {i : ℕ} (hi : i ≠ h.fresh) :
    (h.alloc v).block i = h.block i := by simp [alloc, hi]

@[simp] theorem fresh_alloc (h : Heap V) (v : V) : (h.alloc v).fresh = h.fresh + 1 := rfl

theorem block_write_self {h : Heap V} {i : ℕ} {w : V} (hi : h.block i = some w) (v : V) :
    (h.write i v).block i = some v := by simp [write, hi]

theorem block_write_of_ne (h : Heap V) {i j : ℕ} (v : V) (hj : j ≠ i) :
    (h.write i v).block j = h.block j := by simp [write, hj]

/-- A new block is as good as written with what is stored into it. -/
theorem write_alloc (h : Heap V) (v w : V) : (h.alloc v).write h.fresh w = h.alloc w := by
  simp only [write, alloc, mk.injEq, true_and]
  funext j
  by_cases hj : j = h.fresh <;> simp [hj]

theorem block_free_of_ne (h : Heap V) {i j : ℕ} (hj : j ≠ i) :
    (h.free i).block j = h.block j := by simp [free, hj]

@[simp] theorem live_alloc (h : Heap V) (v : V) :
    (h.alloc v).live = insert h.fresh h.live := by
  ext i
  by_cases hi : i = h.fresh <;> simp [live, alloc, hi]

@[simp] theorem live_write (h : Heap V) (i : ℕ) (v : V) : (h.write i v).live = h.live := by
  ext j
  by_cases hj : j = i
  · subst hj
    simp [live, write]
  · simp [live, write, hj]

@[simp] theorem live_free (h : Heap V) (i : ℕ) : (h.free i).live = h.live \ {i} := by
  ext j
  by_cases hj : j = i <;> simp [live, free, hj]

/-- A block freed after its allocation leaves the live blocks as they were. -/
theorem live_insert_diff (h : Heap V) :
    insert h.fresh h.live \ {h.fresh} = h.live := by
  ext i
  have hf := h.fresh_notMem_live
  by_cases hi : i = h.fresh
  · subst hi
    simp [hf]
  · simp [hi]

/-- Two new blocks, both freed again. -/
theorem live_alloc_alloc_diff (h : Heap V) (v w : V) :
    (((h.alloc v).alloc w).live \ {h.fresh}) \ {h.fresh + 1} = h.live := by
  rw [Set.sdiff_sdiff_comm, live_alloc, ← fresh_alloc h v, live_insert_diff, live_alloc,
    live_insert_diff]

end Heap

end LinuxOs2022.Library
