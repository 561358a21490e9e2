import Mathlib.Data.Int.Basic
import Mathlib.Tactic

/-!
# Reference counters

An object lives while somebody has a reference to it. Its counter is initialised with one
reference, each further one is taken by a holder, and the object is freed when the last one
is given up. The counter counts when it equals the number of references and the object is
live exactly while that number is not zero.
-/

namespace LinuxOs2022.Library

/-- Whether an object has been made, and whether it has been freed. -/
inductive Life
  | unborn
  | live
  | freed
  deriving DecidableEq

/-- A reference counter and the object it belongs to. -/
structure Counter where
  count : ℤ
  life : Life
  deriving DecidableEq

namespace Counter

/-- A counter without an object. -/
def unborn : Counter := ⟨0, .unborn⟩

/-- The counter of a new object. -/
def init : Counter := ⟨1, .live⟩

/-- One reference more. -/
def get (k : Counter) : Counter := { k with count := k.count + 1 }

/-- One reference less; the last one frees the object. -/
def put (k : Counter) : Counter := ⟨k.count - 1, if k.count - 1 = 0 then .freed else k.life⟩

/-- The counter says how many references there are, and the object lives while there are
any. -/
structure Counts (k : Counter) (refs : ℕ) : Prop where
  count : k.count = refs
  live_iff : k.life = .live ↔ 0 < refs

variable {k : Counter} {refs : ℕ}

theorem counts_unborn : unborn.Counts 0 := ⟨rfl, by simp [unborn]⟩

theorem counts_init : init.Counts 1 := ⟨rfl, by simp [init]⟩

/-- A holder takes a further reference. -/
theorem Counts.get (h : k.Counts refs) (hpos : 0 < refs) : k.get.Counts (refs + 1) where
  count := by
    rw [Counter.get, h.count]
    rfl
  live_iff := by
    have hlive := h.live_iff.mpr hpos
    simpa [Counter.get] using hlive

/-- A holder gives up its reference. -/
theorem Counts.put (h : k.Counts (refs + 1)) : k.put.Counts refs where
  count := by
    have hc := h.count
    simp only [Counter.put]
    omega
  live_iff := by
    have hlive := h.live_iff.mpr (Nat.succ_pos refs)
    have hc : k.count - 1 = refs := by
      have hc := h.count
      omega
    unfold Counter.put
    rw [hc]
    by_cases hz : refs = 0
    · simp [hz]
    · simp [hz, hlive, Nat.pos_of_ne_zero hz]

/-- The references change hands. -/
theorem Counts.congr (h : k.Counts refs) {refs' : ℕ} (hr : refs' = refs) : k.Counts refs' :=
  hr ▸ h

end Counter

end LinuxOs2022.Library
