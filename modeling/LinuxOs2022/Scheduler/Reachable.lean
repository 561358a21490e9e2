import LinuxOs2022.Library.Runs
import LinuxOs2022.Scheduler.Refinement

/-!
# Runs from boot

After boot every CPU runs its idle task and no other task exists. Every state that a run
reaches from there is in order, and what custody sees of a run is a run of custody.
-/

namespace LinuxOs2022.Scheduler

open Custody Library Relation

variable {Tid : Type} [DecidableEq Tid] {n : ℕ}

/-- A step of some CPU. -/
def Steps (M : Machine Tid n) (s : State Tid n) (e : Event Tid n) (s' : State Tid n) : Prop :=
  ∃ c a, s.step M c a = some (e, s')

/-- The CPU whose idle task this is. -/
def Machine.idleCpu (M : Machine Tid n) (t : Tid) : Option (Cpu n) :=
  (List.finRange n).find? fun c => M.idle c = t

/-- The record of a task after `init_idle` on every CPU; `c₀` is the boot CPU. -/
def bootTask (M : Machine Tid n) (c₀ : Cpu n) (t : Tid) : TaskStruct Tid n where
  state := taskRunning
  onCpu := (M.idleCpu t).isSome
  cpu := (M.idleCpu t).getD c₀
  onRq := if (M.idleCpu t).isSome then .queued else .none
  queuedOn := none
  tgid := t
  nvcsw := 0
  nivcsw := 0
  nrMigrations := 0
  processSwitchesCount := 0
  allocated := (M.idleCpu t).isSome

/-- The state after boot. -/
def boot (M : Machine Tid n) (c₀ : Cpu n) : State Tid n where
  task := bootTask M c₀
  rq := fun c => { curr := M.idle c, nrSwitches := 0, wakeList := [] }
  pc := fun _ => .running
  lock := fun _ => none

/-- The steps of a schedule: the events and the last state. -/
def exec (M : Machine Tid n) :
    State Tid n → List (Cpu n × Action Tid n) → Option (List (Event Tid n) × State Tid n)
  | s, [] => some ([], s)
  | s, (c, a) :: rest => do
      let (e, s') ← s.step M c a
      let (es, t) ← exec M s' rest
      return (e :: es, t)

/-- The last state of a schedule. -/
def execState (M : Machine Tid n) (s : State Tid n) (acts : List (Cpu n × Action Tid n)) :
    State Tid n := ((exec M s acts).map Prod.snd).getD s

/-- The statements by which CPU `c` wakes the new task `p` on CPU `d`. -/
def wakeNew (c : Cpu n) (p : Tid) (d : Cpu n) : List (Cpu n × Action Tid n) :=
  (c, .wakeUpNewTask p) :: (c, .selectTaskRq d) :: List.replicate 6 (c, .next)

/-- The statements of a preemption on CPU `c` that ends with a switch to `next`. -/
def preempt (c : Cpu n) (next : Tid) : List (Cpu n × Action Tid n) :=
  (c, .schedule true) :: (c, .signalPending false) :: (c, .pick next) ::
    List.replicate 8 (c, .next)

/-- The events of a preemption. -/
def preemptEvents (c : Cpu n) (prev next : Tid) : List (Event Tid n) :=
  List.replicate 4 .tau ++ .switch c prev next :: List.replicate 6 .tau

/-- Two CPUs with idle tasks 0 and 1 and no stopper threads. -/
def twoCpus : Machine ℕ 2 where
  idle := fun c => c
  idle_injective := Fin.val_injective
  stopper := fun _ => false
  stopper_idle := fun _ => rfl
  cpus_le := by decide

/-- The CPUs of `twoCpus` are 0 and 1. -/
instance twoCpus_neZero : NeZero 2 := ⟨two_ne_zero⟩

section Runs

variable {M : Machine Tid n} {c₀ : Cpu n} {s s' t : State Tid n} {c : Cpu n}
  {e : Event Tid n} {es : List (Event Tid n)}

theorem exec_run {acts : List (Cpu n × Action Tid n)} (h : exec M s acts = some (es, t)) :
    Run (Steps M) s es t := by
  induction acts generalizing s es with
  | nil =>
      obtain ⟨rfl, rfl⟩ := Prod.mk.inj (Option.some.inj h)
      exact .nil s
  | cons act rest ih =>
      simp only [exec, Option.bind_eq_bind, Option.bind_eq_some_iff, Option.pure_def,
        Option.some.injEq, Prod.mk.injEq, Prod.exists] at h
      obtain ⟨e, s', hstep, es', t', hrest, rfl, rfl⟩ := h
      exact .cons ⟨act.1, act.2, hstep⟩ (ih hrest)

/-- A schedule that can be carried out is a run. -/
theorem execState_run (acts : List (Cpu n × Action Tid n))
    (h : (exec M s acts).map Prod.fst = some es) : Run (Steps M) s es (execState M s acts) := by
  obtain ⟨⟨es', t⟩, hexec, rfl⟩ := Option.map_eq_some_iff.mp h
  rw [execState, hexec]
  exact exec_run hexec

/-! ## The invariant holds in every reachable state -/

/-- Every step keeps the invariant. -/
theorem Transition.ok (ht : Transition M s c e s') (hi : Ok M s) : Ok M s' where
  locks := ht.locksOk hi.locks
  coherent := by
    refine ht.coherent hi.coherent (fun i => ?_) fun p i hpc => ?_
    · have hf := (hi.custody.idle_plain i).2.2
      simp only [State.view, TaskStruct.view, Bool.or_eq_false_iff, Bool.not_eq_false'] at hf
      exact hf.1
    · exact (hi.custody.held_plain c p (by rw [view_phase hpc]; rfl)).2 i
  custody := by
    have h := ht.effects hi
    generalize s'.view = v' at h
    induction h with
    | refl => exact hi.custody
    | tail _ he ih => exact he.inv ih

theorem Steps.ok (h : Steps M s e s') (hi : Ok M s) : Ok M s' := by
  obtain ⟨c, a, hstep⟩ := h
  exact (State.step_transition hstep).ok hi

theorem idleCpu_eq_some {p : Tid} (h : M.idleCpu p = some c) : M.idle c = p := by
  simpa using List.find?_some h

theorem idleCpu_idle (c : Cpu n) : M.idleCpu (M.idle c) = some c := by
  cases h : M.idleCpu (M.idle c) with
  | none =>
      have hc := List.find?_eq_none.mp h c (List.mem_finRange c)
      simp at hc
  | some c' => rw [M.idle_injective (idleCpu_eq_some h)]

theorem boot_taskOk (p : Tid) : TaskOk M p (bootTask M c₀ p) where
  onRq_of_queuedOn := fun h => absurd rfl h
  queuedOn_of_onRq := by
    intro h hp
    cases hc : M.idleCpu p with
    | none => simp [bootTask, hc] at h
    | some c => exact absurd (idleCpu_eq_some hc) (hp c)
  idle_state := fun _ _ => rfl

theorem boot_occupies {p : Tid} (h : (boot M c₀).view.Occupies c p) : p = M.idle c := by
  obtain h | h | h := h
  · exact h.symm
  · cases h
  · cases h

theorem boot_view_idle (c : Cpu n) :
    (boot M c₀).view.task (M.idle c) = ⟨c, none, true, false, false⟩ := by
  simp [State.view, boot, bootTask, TaskStruct.view, idleCpu_idle, taskRunning, taskWaking,
    taskNew]

/-- After boot only idle tasks run. -/
theorem boot_custody : Inv M.idle (boot M c₀).view where
  phase := fun _ => .inr rfl
  occupied_home := by
    intro c p h
    rw [boot_occupies h, boot_view_idle]
  occupied_onCpu := by
    intro c p h hn
    rw [boot_occupies h, boot_view_idle] at hn
    cases hn
  queued_home := fun _ _ h => nomatch h
  queued_plain := fun _ h => absurd rfl h
  inbox_plain := fun _ _ h => nomatch h
  inbox_nodup := fun _ => List.nodup_nil
  inbox_disjoint := fun _ _ _ h => nomatch h
  held_unique := fun _ _ _ h => nomatch h
  held_plain := fun _ _ h => nomatch h
  fresh_plain := by
    intro p h
    refine ⟨rfl, ?_⟩
    intro c ho
    rw [boot_occupies ho, boot_view_idle] at h
    cases h
  idle_plain := by
    intro c
    rw [boot_view_idle]
    exact ⟨rfl, rfl, rfl⟩

theorem boot_ok : Ok M (boot M c₀) where
  locks := fun _ _ hl => nomatch hl
  coherent := ⟨boot_taskOk, fun _ => trivial⟩
  custody := boot_custody

/-- Every reachable state is in order. -/
theorem run_ok (h : Run (Steps M) (boot M c₀) es s) : Ok M s :=
  h.invariant (fun _ _ _ hi hs => hs.ok hi) boot_ok

/-- The scheduler refines custody. -/
theorem run_effects (h : Run (Steps M) (boot M c₀) es s) :
    ReflTransGen (Effect M.idle) (boot M c₀).view s.view := by
  refine h.simulate (fun _ _ _ hi hs => hs.ok hi) ?_ boot_ok
  rintro s e t hi ⟨c, a, hstep⟩
  exact (State.step_transition hstep).effects hi

end Runs

end LinuxOs2022.Scheduler
