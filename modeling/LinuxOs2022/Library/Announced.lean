import Mathlib

/-!
# Announced increments

A counter whose increments are announced in one step and stored in a later one. At most one
increment is outstanding; while none is, the stored value is the number announced.
-/

namespace LinuxOs2022.Library

universe u

variable {N : Type u} [Add N] [One N]

/-- The stored value of a counter lags by the increment that is pending. -/
structure Announced (pending : Prop) (stored announced : N) : Prop where
  lag : pending → stored + 1 = announced
  exact : ¬ pending → stored = announced

namespace Announced

variable {pending pending' : Prop} {stored stored' announced : N}

/-- An increment is announced. -/
theorem announce (h : Announced pending stored announced) (hp : ¬ pending) (hp' : pending')
    (hs : stored' = stored) : Announced pending' stored' (announced + 1) where
  lag := fun _ => by rw [hs, h.exact hp]
  exact := fun hn => absurd hp' hn

/-- The announced increment is stored. -/
theorem store (h : Announced pending stored announced) (hp : pending) (hp' : ¬ pending')
    (hs : stored' = stored + 1) : Announced pending' stored' announced where
  lag := fun h' => absurd h' hp'
  exact := fun _ => hs.trans (h.lag hp)

/-- Nothing happens to the counter. -/
theorem congr (h : Announced pending stored announced) (hp : pending' ↔ pending)
    (hs : stored' = stored) : Announced pending' stored' announced := by
  rwa [propext hp, hs]

/-- The counter gets a new value. -/
theorem reset (hp : ¬ pending) : Announced pending stored stored :=
  ⟨fun h => absurd h hp, fun _ => rfl⟩

end Announced

end LinuxOs2022.Library
