import LinuxOs2022.Library.Locks
import LinuxOs2022.Scheduler.Transition

/-!
# Mutual exclusion

The program counter of a CPU says which spin locks it holds. Every lock a CPU holds names
that CPU as its owner, in every reachable state, so no two CPUs hold one lock.
-/

namespace LinuxOs2022.Scheduler

open Library

variable {Tid : Type} [DecidableEq Tid] {n : ℕ}

/-- The locks that a CPU holds at a statement. -/
def heldLocks (c : Cpu n) : Pc Tid n → List (Lock Tid n)
  | .running => []
  | .schedule (.pick _ _ false) => []
  | .schedule _ => [.rq c]
  | .tryToWakeUp p (.remote r) => [.pi p, .rq r]
  | .tryToWakeUp p (.remoteUnlock r) => [.pi p, .rq r]
  | .tryToWakeUp p (.activate d) => [.pi p, .rq d]
  | .tryToWakeUp p _ => [.pi p]
  | .schedTtwuPending _ false => []
  | .schedTtwuPending _ true => [.rq c]
  | .wakeUpNewTask p .setCpu => [.pi p]
  | .wakeUpNewTask p (.activate r) => [.pi p, .rq r]
  | .taskRqLock p _ (.check r) => [.pi p, .rq r]
  | .taskRqLock p _ _ => [.pi p]
  | .migrationCpuStop p _ false => [.pi p]
  | .migrationCpuStop p _ true => [.pi p, .rq c]
  | .moveQueuedTask p src _ .setCpu => [.pi p, .rq src]
  | .moveQueuedTask p src _ .unlock => [.pi p, .rq src]
  | .moveQueuedTask p _ _ .lock => [.pi p]
  | .moveQueuedTask p _ dest .enqueue => [.pi p, .rq dest]
  | .taskRqUnlock p r => [.pi p, .rq r]
  | .unlockPi p => [.pi p]
  | .migrateSwapStop arg .lockRqs => [.pi arg.srcTask, .pi arg.dstTask]
  | .migrateSwapStop arg _ =>
      [.pi arg.srcTask, .pi arg.dstTask, .rq arg.srcCpu, .rq arg.dstCpu]
  | .multiCpuStop _ => []

/-- Whoever holds a lock owns it. -/
def LocksOk (s : State Tid n) : Prop :=
  Guarded s.lock fun c l => l ∈ heldLocks c (s.pc c)

section LocksOk

variable {s s' : State Tid n} {c : Cpu n} {k : Pc Tid n} {l l' : Lock Tid n}

omit [DecidableEq Tid] in
theorem LocksOk.exclusive (h : LocksOk s) {c' : Cpu n} (hc : l ∈ heldLocks c (s.pc c))
    (hc' : l ∈ heldLocks c' (s.pc c')) : c = c' := Guarded.exclusive h hc hc'

omit [DecidableEq Tid] in
/-- A lock that is free is held by nobody. -/
theorem LocksOk.not_held (h : LocksOk s) (hl : s.lock l = none) (c : Cpu n) :
    l ∉ heldLocks c (s.pc c) := by
  intro hc
  rw [h c l hc] at hl
  cases hl

omit [DecidableEq Tid] in
/-- A step of `c` to statement `k` that owns the locks held there. -/
theorem LocksOk.step (h : LocksOk s) (hp : s'.pc = Function.update s.pc c k)
    (hl : LockStep c s.lock s'.lock) (hk : ∀ l ∈ heldLocks c k, s'.lock l = some c) :
    LocksOk s' := by
  refine Guarded.step h hl ?_ ?_
  · intro b hb l hm
    rwa [hp, Function.update_of_ne hb] at hm
  · intro l hm
    rw [hp, Function.update_self] at hm
    exact hk l hm

omit [DecidableEq Tid] in
/-- A step that takes no lock. -/
theorem LocksOk.jump (h : LocksOk s) (hp : s'.pc = Function.update s.pc c k)
    (hl : s'.lock = s.lock) (hk : heldLocks c k ⊆ heldLocks c (s.pc c)) : LocksOk s' := by
  apply h.step hp (hl ▸ .refl _ _)
  intro l hm
  rw [hl]
  exact h c l (hk hm)

/-- A step that takes a free lock. -/
theorem LocksOk.acquire (h : LocksOk s) (hp : s'.pc = Function.update s.pc c k)
    (hfree : s.lock l = none) (hl : s'.lock = Function.update s.lock l (some c))
    (hk : heldLocks c k ⊆ l :: heldLocks c (s.pc c)) : LocksOk s' := by
  apply h.step hp (hl ▸ .acquire (.inl hfree))
  intro l' hm
  rw [hl]
  by_cases he : l' = l
  · rw [he, Function.update_self]
  · rw [Function.update_of_ne he]
    exact h c l' (List.mem_of_ne_of_mem he (hk hm))

/-- A step that gives up a lock. -/
theorem LocksOk.release (h : LocksOk s) (hp : s'.pc = Function.update s.pc c k)
    (hown : l ∈ heldLocks c (s.pc c)) (hl : s'.lock = Function.update s.lock l none)
    (hk : ∀ l' ∈ heldLocks c k, l' ∈ heldLocks c (s.pc c) ∧ l' ≠ l) : LocksOk s' := by
  apply h.step hp (hl ▸ .release (.inr (h c l hown)))
  intro l' hm
  rw [hl, Function.update_of_ne (hk l' hm).2]
  exact h c l' (hk l' hm).1

omit [DecidableEq Tid] in
/-- A step that changes neither a lock nor a program counter. -/
theorem LocksOk.congr (h : LocksOk s) (hp : s'.pc = s.pc) (hl : s'.lock = s.lock) :
    LocksOk s' := by
  unfold LocksOk
  rwa [hp, hl]

end LocksOk

section Transition

variable {M : Machine Tid n} {s s' : State Tid n} {c : Cpu n} {e : Event Tid n}

@[simp] theorem State.migrateSwapTask_pc (p : Tid) (d : Cpu n) :
    (s.migrateSwapTask p d).pc = s.pc := by
  unfold migrateSwapTask
  split <;> rfl

@[simp] theorem State.migrateSwapTask_rq (p : Tid) (d : Cpu n) :
    (s.migrateSwapTask p d).rq = s.rq := by
  unfold migrateSwapTask
  split <;> rfl

@[simp] theorem State.migrateSwapTask_lock (p : Tid) (d : Cpu n) :
    (s.migrateSwapTask p d).lock = s.lock := by
  unfold migrateSwapTask
  split <;> rfl

/-- Every step keeps the locks in order. -/
theorem Transition.locksOk (ht : Transition M s c e s') (h : LocksOk s) : LocksOk s' := by
  cases ht with
  | enterSchedule preempt hpc hl => exact h.acquire rfl hl rfl (by simp [heldLocks])
  | retakeLock prev sc hpc hl => exact h.acquire rfl hl rfl (by simp [heldLocks])
  | wakeLock p mask hpc hp ha hm hl => exact h.acquire rfl hl rfl (by simp [heldLocks])
  | lockQueue p d hpc hl => exact h.acquire rfl hl rfl (by simp [hpc, heldLocks])
  | lockPending llist hpc hl => exact h.acquire rfl hl rfl (by simp [heldLocks])
  | wakeNew p hpc ha hs hl => exact h.acquire rfl hl rfl (by simp [heldLocks])
  | lockRq p caller r hpc hl => exact h.acquire rfl hl rfl (by simp [hpc, heldLocks])
  | enterAllowed p dest hpc hp hl => exact h.acquire rfl hl rfl (by simp [heldLocks])
  | enterCpuStop p dest hpc hp hs hl => exact h.acquire rfl hl rfl (by simp [heldLocks])
  | cpuStopLock p dest hpc hl => exact h.acquire rfl hl rfl (by simp [hpc, heldLocks])
  | moveLock p src dest hpc hl => exact h.acquire rfl hl rfl (by simp [hpc, heldLocks])
  | dropLock prev sc hpc =>
      have hown : Lock.rq c ∈ heldLocks c (s.pc c) := by simp [hpc, heldLocks]
      exact h.release rfl hown rfl (by simp [heldLocks])
  | unlock hpc =>
      have hown : Lock.rq c ∈ heldLocks c (s.pc c) := by simp [hpc, heldLocks]
      exact h.release rfl hown rfl (by simp [heldLocks])
  | remoteUnlock p r hpc =>
      have hown : Lock.rq r ∈ heldLocks c (s.pc c) := by simp [hpc, heldLocks]
      exact h.release rfl hown rfl (by simp [hpc, heldLocks])
  | unlockPending hpc =>
      have hown : Lock.rq c ∈ heldLocks c (s.pc c) := by simp [hpc, heldLocks]
      exact h.release rfl hown rfl (by simp [heldLocks])
  | lockRetry p caller r hpc hc =>
      have hown : Lock.rq r ∈ heldLocks c (s.pc c) := by simp [hpc, heldLocks]
      exact h.release rfl hown rfl (by simp [hpc, heldLocks])
  | moveUnlock p src dest hpc =>
      have hown : Lock.rq src ∈ heldLocks c (s.pc c) := by simp [hpc, heldLocks]
      exact h.release rfl hown rfl (by simp [hpc, heldLocks])
  | rqUnlock p r hpc =>
      have hown : Lock.rq r ∈ heldLocks c (s.pc c) := by simp [hpc, heldLocks]
      exact h.release rfl hown rfl (by simp [hpc, heldLocks])
  | piUnlock p hpc =>
      have hown : Lock.pi p ∈ heldLocks c (s.pc c) := by simp [hpc, heldLocks]
      exact h.release rfl hown rfl (by simp [heldLocks])
  | lockGiveUp p dest r hpc =>
      have h₁ : LockStep c s.lock _ := .release (.inr (h c (.rq r) (by simp [hpc, heldLocks])))
      have h₂ := h₁.trans (.release (h₁.available (.inr (h c (.pi p) (by simp [hpc, heldLocks])))))
      exact h.step rfl h₂ (by simp [heldLocks])
  | enterSwap arg hpc hr hsrc hdst =>
      have h₁ : LockStep c s.lock _ := .acquire (.inl hsrc)
      have h₂ := h₁.trans (.acquire (h₁.available (.inl hdst)))
      exact h.step rfl h₂ (by simp [heldLocks, Function.update_apply])
  | swapLock arg hpc hsrc hdst =>
      have h₁ : LockStep c s.lock _ := .acquire (.inl hsrc)
      have h₂ := h₁.trans (.acquire (h₁.available (.inl hdst)))
      have hpi : ∀ l ∈ [Lock.pi arg.srcTask, Lock.pi arg.dstTask], s.lock l = some c :=
        fun l hl => h c l (by simpa [hpc, heldLocks] using hl)
      exact h.step rfl h₂ (by simp_all [heldLocks, Function.update_apply])
  | swap arg hpc hsrc hdst =>
      have hp : ∀ k, (((s.migrateSwapTask arg.srcTask arg.dstCpu).migrateSwapTask arg.dstTask
          arg.srcCpu).setPc c k).pc = Function.update s.pc c k := by simp
      exact h.jump (hp _) (by simp) (by simp [hpc, heldLocks])
  | swapUnlock arg hpc =>
      have hown : ∀ l ∈ heldLocks c (s.pc c), Available c s.lock l := fun l hl => .inr (h c l hl)
      rw [hpc] at hown
      have h₁ : LockStep c s.lock _ := .release (hown (.rq arg.srcCpu) (by simp [heldLocks]))
      have h₂ := h₁.trans
        (.release (h₁.available (hown (.rq arg.dstCpu) (by simp [heldLocks]))))
      have h₃ := h₂.trans
        (.release (h₂.available (hown (.pi arg.srcTask) (by simp [heldLocks]))))
      have h₄ := h₃.trans
        (.release (h₃.available (hown (.pi arg.dstTask) (by simp [heldLocks]))))
      exact h.step rfl h₄ (by simp [heldLocks])
  | wakeSelf mask hpc => exact h.congr rfl rfl
  | activatePending p rest hpc hn => exact h.jump rfl rfl (by simp [hpc, heldLocks])
  | fork child thread hpc ha => exact h.congr rfl rfl
  | setState v hpc hi hv hv' => exact h.congr rfl rfl
  | startToCount hpc => exact h.congr rfl rfl
  | stopToCount hpc => exact h
  | myGetCpuNumber hpc => exact h
  | loadBalance p src dest hpc hq hn hl => exact h.congr rfl rfl
  | stay hpc => exact h
  | _ =>
      -- the other statements take no lock and give up none
      have hpc := ‹s.pc c = _›
      exact h.jump rfl rfl (by simp [hpc, heldLocks])

end Transition

end LinuxOs2022.Scheduler
