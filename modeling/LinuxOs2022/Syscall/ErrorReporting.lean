import LinuxOs2022.Syscall.PhyAddr

/-!
# Error reporting of `my_other_get_phy_addr`

A caller can tell a good result from a bad one only by the return value. The call drops the
counts of both copies, does not test its allocations, prints a line for an empty entry and
goes on, so it never returns anything but 0.
-/

namespace LinuxOs2022.Syscall

open Library PageTable

/-- Everything before the copy to the user succeeded: the allocations, the copy of the
address, and the translation of the address by the hardware. -/
def ResultReady (env : PhyAddrEnv) (k : KState) (initial : Word) : Prop :=
  env.Allocates ∧ 8 ≤ env.copiedIn ∧ Mapped k.l5 k.mem k.pgd (k.user.word initial)

/-- Nothing failed. -/
def Succeeds (env : PhyAddrEnv) (k : KState) (initial : Word) : Prop :=
  ResultReady env k initial ∧ 8 ≤ env.copiedOut

/-- The call reports its outcome: it returns, 0 exactly when nothing failed, and after a
failure user memory is as before, except for the bytes that a failed last copy had already
stored. -/
def ReportsOutcome (env : PhyAddrEnv) (k : KState) (initial result : Word) : Prop :=
  match (myOtherGetPhyAddr env initial result).run k with
  | .error _ _ => False
  | .ok r k' =>
      (r = 0 ↔ Succeeds env k initial) ∧
        (¬ Succeeds env k initial → ∀ q,
          (ResultReady env k initial → env.copiedOut ≤ (q - result).toNat) →
            k'.user q = k.user q)

/-- A call that returns returns 0. -/
theorem return_eq_zero {env : PhyAddrEnv} {k k' : KState} {initial result r : Word}
    (h : (myOtherGetPhyAddr env initial result).run k = .ok r k') : r = 0 := by
  by_cases ha : env.Allocates
  · obtain ⟨_, _, -, hr⟩ := run_myOtherGetPhyAddr ha k initial result
    rw [hr] at h
    cases h
    rfl
  · obtain ⟨_, hr⟩ := run_myOtherGetPhyAddr_null ha k initial result
    rw [hr] at h
    cases h

end LinuxOs2022.Syscall
