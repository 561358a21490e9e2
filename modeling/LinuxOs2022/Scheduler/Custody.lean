import Mathlib

/-!
# Custody of tasks

What the scheduler is for: a task runs on one CPU at a time, and on the CPU it is assigned
to. This machine keeps only who may decide about a task. A task is on a run queue, in the
inbox of a CPU, in the hands of one CPU, or with nobody; and a CPU may still use the task it
is switching away from. A task changes its home only in the hands of a CPU, when no CPU uses
it.

## Implementation notes

The effects are guarded by what other CPUs do, without locks; where the guards come from is
left to the code that takes the locks.
-/

namespace LinuxOs2022.Scheduler.Custody

/-- What the machine knows of a task: the CPU it is assigned to, the run queue it is on,
whether a CPU marks it as in use, whether a waking is under way, and whether it has not been
started yet. -/
structure TaskView (Cpu : Type) where
  home : Cpu
  queued : Option Cpu
  onCpu : Bool
  waking : Bool
  fresh : Bool

/-- What a CPU is in the middle of. -/
inductive Phase (Tid Cpu : Type)
  | quiet
  /-- The current task may have left the run queue; the next one is being chosen. -/
  | choosing
  | picked (next : Tid)
  /-- The new task is current, but not yet marked as in use. -/
  | entering (prev : Tid)
  /-- The old task is still marked as in use. -/
  | finishing (prev : Tid)
  /-- The CPU is the only one that may start a waking of the task. -/
  | pin (p : Tid)
  /-- The same, and the task has left its run queue. -/
  | claim (p : Tid)
  /-- The waking has started; a CPU may still use the task. -/
  | claimed (p : Tid)
  /-- The task is on no queue and no CPU uses it; perhaps its new home is set. -/
  | own (waking : Bool) (p : Tid) (dest : Option Cpu)

/-- The task in the hands of a CPU. -/
def Phase.held {Tid Cpu : Type} : Phase Tid Cpu → Option Tid
  | .pin p => some p
  | .claim p => some p
  | .claimed p => some p
  | .own _ p _ => some p
  | _ => none

/-- What the machine knows of a CPU. -/
structure CpuView (Tid Cpu : Type) where
  curr : Tid
  phase : Phase Tid Cpu
  inbox : List Tid

/-- The state of the machine. -/
structure View (Tid Cpu : Type) where
  task : Tid → TaskView Cpu
  cpu : Cpu → CpuView Tid Cpu

variable {Tid Cpu : Type} [DecidableEq Tid] [DecidableEq Cpu]

namespace View

variable (v : View Tid Cpu)

/-- Replace what is known of a task. -/
def setTask (p : Tid) (t : TaskView Cpu) : View Tid Cpu :=
  { v with task := Function.update v.task p t }

/-- Replace what is known of a CPU. -/
def setCpu (c : Cpu) (k : CpuView Tid Cpu) : View Tid Cpu :=
  { v with cpu := Function.update v.cpu c k }

/-- Move a CPU to another phase. -/
def setPhase (c : Cpu) (ph : Phase Tid Cpu) : View Tid Cpu :=
  v.setCpu c { v.cpu c with phase := ph }

section Fields

variable (p q : Tid) (c d : Cpu) (t : TaskView Cpu) (k : CpuView Tid Cpu)

omit [DecidableEq Cpu] in
theorem setTask_task : (v.setTask p t).task q = if q = p then t else v.task q :=
  Function.update_apply _ _ _ _

omit [DecidableEq Tid] in
theorem setCpu_cpu : (v.setCpu c k).cpu d = if d = c then k else v.cpu d :=
  Function.update_apply _ _ _ _

omit [DecidableEq Cpu] in
@[simp, grind =] theorem setTask_cpu : (v.setTask p t).cpu c = v.cpu c := rfl

omit [DecidableEq Tid] in
@[simp, grind =] theorem setCpu_task : (v.setCpu c k).task p = v.task p := rfl

omit [DecidableEq Cpu] in
@[grind =] theorem setTask_home :
    ((v.setTask p t).task q).home = if q = p then t.home else (v.task q).home := by
  rw [setTask_task, apply_ite TaskView.home]

omit [DecidableEq Cpu] in
@[grind =] theorem setTask_queued :
    ((v.setTask p t).task q).queued = if q = p then t.queued else (v.task q).queued := by
  rw [setTask_task, apply_ite TaskView.queued]

omit [DecidableEq Cpu] in
@[grind =] theorem setTask_onCpu :
    ((v.setTask p t).task q).onCpu = if q = p then t.onCpu else (v.task q).onCpu := by
  rw [setTask_task, apply_ite TaskView.onCpu]

omit [DecidableEq Cpu] in
@[grind =] theorem setTask_waking :
    ((v.setTask p t).task q).waking = if q = p then t.waking else (v.task q).waking := by
  rw [setTask_task, apply_ite TaskView.waking]

omit [DecidableEq Cpu] in
@[grind =] theorem setTask_fresh :
    ((v.setTask p t).task q).fresh = if q = p then t.fresh else (v.task q).fresh := by
  rw [setTask_task, apply_ite TaskView.fresh]

omit [DecidableEq Tid] in
@[grind =] theorem setCpu_curr :
    ((v.setCpu c k).cpu d).curr = if d = c then k.curr else (v.cpu d).curr := by
  rw [setCpu_cpu, apply_ite CpuView.curr]

omit [DecidableEq Tid] in
@[grind =] theorem setCpu_phase :
    ((v.setCpu c k).cpu d).phase = if d = c then k.phase else (v.cpu d).phase := by
  rw [setCpu_cpu, apply_ite CpuView.phase]

omit [DecidableEq Tid] in
@[grind =] theorem setCpu_inbox :
    ((v.setCpu c k).cpu d).inbox = if d = c then k.inbox else (v.cpu d).inbox := by
  rw [setCpu_cpu, apply_ite CpuView.inbox]

end Fields

/-- The CPU uses the task: it is current there, or being switched away from. -/
def Occupies (c : Cpu) (p : Tid) : Prop :=
  (v.cpu c).curr = p ∨ (v.cpu c).phase = .entering p ∨ (v.cpu c).phase = .finishing p

omit [DecidableEq Cpu] in
@[simp, grind =] theorem setTask_occupies (p q : Tid) (t : TaskView Cpu) (c : Cpu) :
    (v.setTask p t).Occupies c q ↔ v.Occupies c q := Iff.rfl

omit [DecidableEq Tid] in
@[grind =] theorem setCpu_occupies (c d : Cpu) (k : CpuView Tid Cpu) (q : Tid) :
    (v.setCpu c k).Occupies d q ↔
      if d = c then k.curr = q ∨ k.phase = .entering q ∨ k.phase = .finishing q
      else v.Occupies d q := by
  by_cases h : d = c <;> simp [Occupies, setCpu_cpu, h]

omit [DecidableEq Tid] in
/-- A phase without an old task adds nothing to what the CPU uses. -/
theorem occupies_of_setPhase {v : View Tid Cpu} {c d : Cpu} {ph : Phase Tid Cpu} {q : Tid}
    (hn : ∀ q, ph ≠ .entering q ∧ ph ≠ .finishing q) (h : (v.setPhase c ph).Occupies d q) :
    v.Occupies d q := by
  have hq := hn q
  rw [setPhase, setCpu_occupies] at h
  grind [Occupies]

/-- No CPU has the task in its hands. -/
def Unheld (p : Tid) : Prop := ∀ c, (v.cpu c).phase.held ≠ some p

/-- No CPU uses the task or is about to. -/
def Vacant (p : Tid) : Prop := ∀ c, ¬ v.Occupies c p ∧ (v.cpu c).phase ≠ .picked p

end View

/-- The effects of the scheduler on custody. -/
inductive Effect (idle : Cpu → Tid) (v : View Tid Cpu) : View Tid Cpu → Prop
  | choose (c : Cpu) (hc : (v.cpu c).phase = .quiet) : Effect idle v (v.setPhase c .choosing)
  | deactivate (c : Cpu) (hc : (v.cpu c).phase = .quiet) :
      Effect idle v ((v.setPhase c .choosing).setTask (v.cpu c).curr
        { v.task (v.cpu c).curr with queued := none })
  | keep (c : Cpu) (hc : (v.cpu c).phase = .choosing)
      (hq : (v.task (v.cpu c).curr).queued = some c ∨ (v.cpu c).curr = idle c) :
      Effect idle v (v.setPhase c .quiet)
  | pick (c : Cpu) (next : Tid) (hc : (v.cpu c).phase = .choosing)
      (hq : (v.task next).queued = some c ∨ next = idle c) (hne : next ≠ (v.cpu c).curr) :
      Effect idle v (v.setPhase c (.picked next))
  | install (c : Cpu) (next : Tid) (hc : (v.cpu c).phase = .picked next) :
      Effect idle v (v.setCpu c
        { v.cpu c with curr := next, phase := .entering (v.cpu c).curr })
  | prepare (c : Cpu) (prev : Tid) (hc : (v.cpu c).phase = .entering prev) :
      Effect idle v ((v.setPhase c (.finishing prev)).setTask (v.cpu c).curr
        { v.task (v.cpu c).curr with onCpu := true })
  | finish (c : Cpu) (prev : Tid) (hc : (v.cpu c).phase = .finishing prev) :
      Effect idle v ((v.setPhase c .quiet).setTask prev { v.task prev with onCpu := false })
  | pin (c : Cpu) (p : Tid) (hc : (v.cpu c).phase = .quiet)
      (hw : (v.task p).waking = false) (hf : (v.task p).fresh = false)
      (hi : ∀ i, idle i ≠ p) (hu : v.Unheld p) : Effect idle v (v.setPhase c (.pin p))
  | unpin (c : Cpu) (p : Tid) (hc : (v.cpu c).phase = .pin p) :
      Effect idle v (v.setPhase c .quiet)
  | claim (c : Cpu) (p : Tid) (hc : (v.cpu c).phase = .pin p)
      (hq : (v.task p).queued = none) : Effect idle v (v.setPhase c (.claim p))
  | setWaking (c : Cpu) (p : Tid) (hc : (v.cpu c).phase = .claim p) :
      Effect idle v ((v.setPhase c (.claimed p)).setTask p { v.task p with waking := true })
  | vacate (c : Cpu) (p : Tid) (hc : (v.cpu c).phase = .claimed p)
      (hn : (v.task p).onCpu = false) : Effect idle v (v.setPhase c (.own true p none))
  | push (c : Cpu) (p : Tid) (d : Cpu) (hcd : c ≠ d) (hc : (v.cpu c).phase.held = some p)
      (hq : (v.task p).queued = none) (hw : (v.task p).waking = true) :
      Effect idle v ((v.setPhase c .quiet).setCpu d
        { v.cpu d with inbox := (v.cpu d).inbox ++ [p] })
  | setHome (c : Cpu) (w : Bool) (p : Tid) (x : Option Cpu) (d : Cpu) (y : Option Cpu)
      (hc : (v.cpu c).phase = .own w p x) (hy : ∀ a, y = some a → a = d) :
      Effect idle v ((v.setPhase c (.own w p y)).setTask p { v.task p with home := d })
  | attach (c : Cpu) (w : Bool) (p : Tid) (x : Option Cpu)
      (hc : (v.cpu c).phase = .own w p x) (d : Cpu) (hd : (v.task p).home = d) :
      Effect idle v ((v.setPhase c .quiet).setTask p
        { v.task p with queued := some d, waking := false })
  | pop (c : Cpu) (p : Tid) (rest : List Tid) (hb : (v.cpu c).inbox = p :: rest)
      (hn : (v.task p).onCpu = false) :
      Effect idle v ((v.setCpu c { v.cpu c with inbox := rest }).setTask p
        { v.task p with home := c, queued := some c, waking := false })
  | detach (c : Cpu) (p : Tid) (hc : (v.cpu c).phase = .quiet)
      (hq : (v.task p).queued ≠ none) (hv : v.Vacant p) (hu : v.Unheld p) :
      Effect idle v ((v.setPhase c (.own false p none)).setTask p
        { v.task p with queued := none })
  | transfer (p : Tid) (d : Cpu) (hq : (v.task p).queued ≠ none) (hv : v.Vacant p) :
      Effect idle v (v.setTask p { v.task p with home := d, queued := some d })
  | adopt (c : Cpu) (p : Tid) (hc : (v.cpu c).phase = .quiet) (hf : (v.task p).fresh = true)
      (hu : v.Unheld p) :
      Effect idle v ((v.setPhase c (.own false p none)).setTask p
        { v.task p with fresh := false })
  | create (c : Cpu) (p : Tid) (hf : (v.task p).fresh = true) :
      Effect idle v (v.setTask p ⟨c, none, false, false, true⟩)

/-- A CPU that is not between two tasks runs one of its own queue or its idle task. -/
def Settled (idle : Cpu → Tid) (v : View Tid Cpu) (c : Cpu) : Prop :=
  (v.task (v.cpu c).curr).queued = some c ∨ (v.cpu c).curr = idle c

/-- What holds of a CPU in each phase. -/
def PhaseOk (idle : Cpu → Tid) (v : View Tid Cpu) (c : Cpu) : Phase Tid Cpu → Prop
  | .quiet => Settled idle v c
  | .choosing => True
  | .picked next =>
      ((v.task next).queued = some c ∨ next = idle c) ∧ next ≠ (v.cpu c).curr
  | .entering prev => Settled idle v c ∧ prev ≠ (v.cpu c).curr
  | .finishing prev => Settled idle v c ∧ prev ≠ (v.cpu c).curr
  | .pin p => Settled idle v c ∧ (v.task p).waking = false
  | .claim p => Settled idle v c ∧ (v.task p).waking = false ∧ (v.task p).queued = none
  | .claimed p => Settled idle v c ∧ (v.task p).waking = true ∧ (v.task p).queued = none
  | .own w p x => Settled idle v c ∧ (v.task p).waking = w ∧ (v.task p).queued = none ∧
      (∀ c', ¬ v.Occupies c' p) ∧ ∀ d, x = some d → (v.task p).home = d

/-- The invariant of custody. -/
structure Inv (idle : Cpu → Tid) (v : View Tid Cpu) : Prop where
  phase : ∀ c, PhaseOk idle v c (v.cpu c).phase
  /-- A CPU uses only tasks assigned to it. -/
  occupied_home : ∀ c p, v.Occupies c p → (v.task p).home = c
  /-- A task in use is marked, unless it has just become current. -/
  occupied_onCpu : ∀ c p, v.Occupies c p → (v.task p).onCpu = false →
    (v.cpu c).curr = p ∧ ∃ prev, (v.cpu c).phase = .entering prev
  queued_home : ∀ c p, (v.task p).queued = some c → (v.task p).home = c
  queued_plain : ∀ p, (v.task p).queued ≠ none → (v.task p).waking = false ∧
    (v.task p).fresh = false ∧ (∀ i, idle i ≠ p) ∧ ∀ c, p ∉ (v.cpu c).inbox
  inbox_plain : ∀ c p, p ∈ (v.cpu c).inbox → (v.task p).waking = true ∧
    (v.task p).fresh = false ∧ v.Unheld p
  inbox_nodup : ∀ c, (v.cpu c).inbox.Nodup
  inbox_disjoint : ∀ c c' p, p ∈ (v.cpu c).inbox → p ∈ (v.cpu c').inbox → c = c'
  held_unique : ∀ c c' p, (v.cpu c).phase.held = some p → (v.cpu c').phase.held = some p →
    c = c'
  held_plain : ∀ c p, (v.cpu c).phase.held = some p →
    (v.task p).fresh = false ∧ ∀ i, idle i ≠ p
  fresh_plain : ∀ p, (v.task p).fresh = true →
    (v.task p).waking = false ∧ ∀ c, ¬ v.Occupies c p
  idle_plain : ∀ c, (v.task (idle c)).home = c ∧ (v.task (idle c)).waking = false ∧
    (v.task (idle c)).fresh = false

/-! ## Consequences of the invariant -/

section Inv

variable {idle : Cpu → Tid} {v v' : View Tid Cpu}

attribute [local grind =] View.Unheld View.Vacant Settled PhaseOk Phase.held View.setPhase
  View.Occupies

omit [DecidableEq Tid] [DecidableEq Cpu] in
/-- At most one CPU uses a task. -/
theorem Inv.occupies_unique (hi : Inv idle v) {c c' : Cpu} {p : Tid} (h : v.Occupies c p)
    (h' : v.Occupies c' p) : c = c' :=
  (hi.occupied_home c p h).symm.trans (hi.occupied_home c' p h')

omit [DecidableEq Tid] [DecidableEq Cpu] in
/-- A task in an inbox is on no run queue. -/
theorem Inv.queued_of_inbox (hi : Inv idle v) {c : Cpu} {p : Tid}
    (hp : p ∈ (v.cpu c).inbox) : (v.task p).queued = none := by
  by_contra hq
  exact (hi.queued_plain p hq).2.2.2 c hp

omit [DecidableEq Tid] [DecidableEq Cpu] in
/-- No idle task is in an inbox. -/
theorem Inv.idle_ne_of_inbox (hi : Inv idle v) {c : Cpu} {p : Tid}
    (hp : p ∈ (v.cpu c).inbox) (i : Cpu) : idle i ≠ p := by
  rintro rfl
  have hw := (hi.inbox_plain c _ hp).1
  rw [(hi.idle_plain i).2.1] at hw
  cases hw

omit [DecidableEq Tid] [DecidableEq Cpu] in
/-- A task that is neither marked nor queued is used by no CPU. -/
theorem Inv.not_occupied (hi : Inv idle v) {p : Tid} (hn : (v.task p).onCpu = false)
    (hq : (v.task p).queued = none) (hidle : ∀ i, idle i ≠ p) (c : Cpu) :
    ¬ v.Occupies c p := by
  intro ho
  obtain ⟨hcurr, prev, hent⟩ := hi.occupied_onCpu c p ho hn
  have hs : Settled idle v c := by
    have hp := hi.phase c
    rw [hent] at hp
    exact hp.1
  obtain hqc | hic := hs
  · rw [hcurr, hq] at hqc
    cases hqc
  · exact hidle c (hic.symm.trans hcurr)

/-! ## Every effect keeps the invariant -/

theorem Effect.occupied_home (h : Effect idle v v') (hi : Inv idle v) (c : Cpu) (p : Tid)
    (ho : v'.Occupies c p) : (v'.task p).home = c := by
  have hh := hi.occupied_home c p
  cases h with
  | install c' next hc =>
      -- the new task was on the queue of this CPU
      have hp := hi.phase c'
      grind [hi.queued_home c p, hi.idle_plain c]
  | setHome c' w p' x d y hc hy =>
      have hp := hi.phase c'
      grind
  | pop c' p' rest hb hn =>
      have hmem : p' ∈ (v.cpu c').inbox := hb ▸ List.mem_cons_self
      have hidle := hi.idle_ne_of_inbox hmem
      have hocc := hi.not_occupied hn (hi.queued_of_inbox hmem) hidle c
      grind
  | create c' p' hf =>
      have hocc := (hi.fresh_plain p' hf).2 c
      grind
  | _ => grind

theorem Effect.occupied_onCpu (h : Effect idle v v') (hi : Inv idle v) (c : Cpu) (p : Tid)
    (ho : v'.Occupies c p) (hn : (v'.task p).onCpu = false) :
    (v'.cpu c).curr = p ∧ ∃ prev, (v'.cpu c).phase = .entering prev := by
  have hh := hi.occupied_onCpu c p
  cases h with
  | finish c' prev hc =>
      -- the old task is used by no other CPU
      have hp := hi.phase c'
      have hu : v.Occupies c p → v.Occupies c' p → c = c' := hi.occupies_unique
      grind
  | create c' p' hf =>
      have hocc := (hi.fresh_plain p' hf).2 c
      grind
  | _ => grind

theorem Effect.queued_home (h : Effect idle v v') (hi : Inv idle v) (c : Cpu) (p : Tid)
    (hq : (v'.task p).queued = some c) : (v'.task p).home = c := by
  have hh := hi.queued_home c p
  cases h with
  | setHome c' w p' x d y hc hy =>
      have hp := hi.phase c'
      grind
  | _ => grind

theorem Effect.queued_plain (h : Effect idle v v') (hi : Inv idle v) (p : Tid)
    (hq : (v'.task p).queued ≠ none) : (v'.task p).waking = false ∧
      (v'.task p).fresh = false ∧ (∀ i, idle i ≠ p) ∧ ∀ c, p ∉ (v'.cpu c).inbox := by
  have hh := hi.queued_plain p
  cases h with
  | setWaking c' p' hc =>
      have hp := hi.phase c'
      grind
  | attach c' w p' x hc d hd =>
      have hp := hi.held_plain c' p' (by rw [hc]; rfl)
      have hin : ∀ c, p' ∉ (v.cpu c).inbox := fun c hmem =>
        (hi.inbox_plain c p' hmem).2.2 c' (by rw [hc]; rfl)
      grind
  | pop c' p' rest hb hn =>
      have hmem : p' ∈ (v.cpu c').inbox := hb ▸ List.mem_cons_self
      have hm := hi.inbox_plain c' p' hmem
      have hnd := hi.inbox_nodup c'
      have hdis := hi.inbox_disjoint c'
      have hidle := hi.idle_ne_of_inbox hmem
      grind
  | _ => grind

theorem Effect.inbox_plain (h : Effect idle v v') (hi : Inv idle v) (c : Cpu) (p : Tid)
    (hp : p ∈ (v'.cpu c).inbox) : (v'.task p).waking = true ∧ (v'.task p).fresh = false ∧
      v'.Unheld p := by
  have hh := hi.inbox_plain c p
  cases h with
  | push c' p' d hcd hc hq hw =>
      -- the CPU that pushes the task lets go of it
      have hf := hi.held_plain c' p' hc
      have hu := hi.held_unique c'
      grind
  | pop c' p' rest hb hn =>
      have hnd := hi.inbox_nodup c'
      have hdis := hi.inbox_disjoint c' c p
      grind
  | detach c' p' hc hq hv hu =>
      have hq := hi.queued_plain p' hq
      grind
  | _ => grind

theorem Effect.inbox_nodup (h : Effect idle v v') (hi : Inv idle v) (c : Cpu) :
    (v'.cpu c).inbox.Nodup := by
  have hh := hi.inbox_nodup c
  cases h with
  | push c' p' d hcd hc hq hw =>
      have hin := hi.inbox_plain d p'
      grind
  | _ => grind

theorem Effect.inbox_disjoint (h : Effect idle v v') (hi : Inv idle v) (c c' : Cpu) (p : Tid)
    (hp : p ∈ (v'.cpu c).inbox) (hp' : p ∈ (v'.cpu c').inbox) : c = c' := by
  have hh := hi.inbox_disjoint c c' p
  cases h with
  | push b p' d hcd hc hq hw =>
      have hin := fun a => hi.inbox_plain a p'
      grind
  | _ => grind

theorem Effect.held_unique (h : Effect idle v v') (hi : Inv idle v) (c c' : Cpu) (p : Tid)
    (hp : (v'.cpu c).phase.held = some p) (hp' : (v'.cpu c').phase.held = some p) :
    c = c' := by
  have hh := hi.held_unique c c' p
  cases h with
  | _ => grind

theorem Effect.held_plain (h : Effect idle v v') (hi : Inv idle v) (c : Cpu) (p : Tid)
    (hp : (v'.cpu c).phase.held = some p) :
    (v'.task p).fresh = false ∧ ∀ i, idle i ≠ p := by
  have hh := hi.held_plain c p
  cases h with
  | detach c' p' hc hq hv hu =>
      have hq := hi.queued_plain p' hq
      grind
  | adopt c' p' hc hf hu =>
      have hidle : ∀ i, idle i ≠ p' := by
        rintro i rfl
        exact absurd hf (by simp [(hi.idle_plain i).2.2])
      grind
  | _ => grind

/-- Nothing becomes fresh again. -/
theorem Effect.fresh_of_fresh (h : Effect idle v v') (p : Tid)
    (hf : (v'.task p).fresh = true) : (v.task p).fresh = true := by
  cases h with
  | _ => grind

theorem Effect.fresh_plain (h : Effect idle v v') (hi : Inv idle v) (p : Tid)
    (hf : (v'.task p).fresh = true) :
    (v'.task p).waking = false ∧ ∀ c, ¬ v'.Occupies c p := by
  obtain ⟨hw, ho⟩ := hi.fresh_plain p (h.fresh_of_fresh p hf)
  constructor
  · cases h with
    | setWaking c' p' hc => grind [hi.held_plain c' p']
    | _ => grind
  · intro c
    have hoc := ho c
    cases h with
    | install c' next hc =>
        have hp := hi.phase c'
        have hq := hi.queued_plain next
        grind [hi.idle_plain c']
    | _ => grind

theorem Effect.idle_plain (h : Effect idle v v') (hi : Inv idle v) (c : Cpu) :
    (v'.task (idle c)).home = c ∧ (v'.task (idle c)).waking = false ∧
      (v'.task (idle c)).fresh = false := by
  have hh := hi.idle_plain c
  cases h with
  | setWaking c' p' hc => grind [hi.held_plain c' p']
  | setHome c' w p' x d y hc hy => grind [hi.held_plain c' p']
  | pop c' p' rest hb hn => grind [hi.inbox_plain c' p']
  | transfer p' d hq hv => grind [hi.queued_plain p']
  | _ => grind

omit [DecidableEq Tid] [DecidableEq Cpu] in
/-- A CPU with a task in its hands is between no two tasks. -/
theorem PhaseOk.settled {c : Cpu} {ph : Phase Tid Cpu} {p : Tid} (h : PhaseOk idle v c ph)
    (hh : ph.held = some p) : Settled idle v c := by
  cases ph with
  | pin q => exact h.1
  | claim q => exact h.1
  | claimed q => exact h.1
  | own w q x => exact h.1
  | _ => cases hh

/-- Nothing changes that the phase of a CPU says something about: its current task, the queue
of that task or of the one it has picked, and the task in its hands. -/
structure Untouched (v v' : View Tid Cpu) (c : Cpu) : Prop where
  phase : (v'.cpu c).phase = (v.cpu c).phase
  curr : (v'.cpu c).curr = (v.cpu c).curr
  queued : ∀ p, ((v.cpu c).phase ≠ .choosing ∧ p = (v.cpu c).curr) ∨
    (v.cpu c).phase = .picked p → (v.task p).queued = some c → (v'.task p).queued = some c
  waking : ∀ p, (v.cpu c).phase.held = some p → (v'.task p).waking = (v.task p).waking
  home : ∀ w p d, (v.cpu c).phase = .own w p (some d) → (v'.task p).home = (v.task p).home
  unqueued : ∀ p, (v.cpu c).phase.held = some p → (v.task p).queued = none →
    (v'.task p).queued = none
  vacant : ∀ w p x, (v.cpu c).phase = .own w p x → ∀ c', v'.Occupies c' p → v.Occupies c' p

omit [DecidableEq Tid] [DecidableEq Cpu] in
theorem Untouched.phaseOk {c : Cpu} (hu : Untouched v v' c)
    (h : PhaseOk idle v c (v.cpu c).phase) : PhaseOk idle v' c (v'.cpu c).phase := by
  obtain ⟨hphase, hcurr, hq, hw, hh, hn, ho⟩ := hu
  rw [hphase]
  have hs : (v.cpu c).phase ≠ .choosing → Settled idle v c → Settled idle v' c := by
    intro hne
    unfold Settled
    rw [hcurr]
    exact Or.imp_left (hq _ (.inl ⟨hne, rfl⟩))
  cases hph : (v.cpu c).phase with
  | picked next => grind
  | own w p x =>
      rw [hph] at h hs ho hw hh hn
      obtain ⟨hset, h₁, h₂, h₃, h₄⟩ := h
      exact ⟨hs (by simp) hset, (hw p rfl).trans h₁, hn p rfl h₂,
        fun c' hc' => h₃ c' (ho w p x rfl c' hc'),
        fun d hx => (hh w p d (by rw [hx])).trans (h₄ d hx)⟩
  | _ => grind

/-- An effect touches only the CPU whose phase it changes. -/
theorem Effect.untouched (h : Effect idle v v') (hi : Inv idle v) (c : Cpu)
    (hs : (v'.cpu c).phase = (v.cpu c).phase) : Untouched v v' c := by
  have hp := hi.phase c
  refine ⟨hs, ?_, ?_, ?_, ?_, ?_, ?_⟩
  · cases h with
    | _ => grind
  · cases h with
    | deactivate c' hc =>
        -- no other CPU has this task current or picked
        have hocc := hi.occupied_home c' (v.cpu c').curr (.inl rfl)
        have hq := hi.queued_home c (v.cpu c').curr
        grind
    | attach c' w p' x hc d hd =>
        have hp' := hi.phase c'
        grind
    | pop c' p' rest hb hn =>
        have hq := hi.queued_of_inbox (hb ▸ List.mem_cons_self : p' ∈ (v.cpu c').inbox)
        grind
    | detach c' p' hc hq hv hu =>
        have hv' := hv c
        grind
    | transfer p' d hq hv =>
        have hv' := hv c
        grind
    | create c' p' hf =>
        have hq := hi.queued_plain p'
        grind
    | _ => grind
  · cases h with
    | setWaking c' p' hc =>
        have hu := hi.held_unique c c' p'
        grind
    | attach c' w p' x hc d hd =>
        have hu := hi.held_unique c c' p'
        grind
    | pop c' p' rest hb hn =>
        have hin := hi.inbox_plain c' p'
        grind
    | create c' p' hf =>
        have hpl := hi.held_plain c p'
        grind
    | _ => grind
  · cases h with
    | setHome c' w p' x d y hc hy =>
        have hu := hi.held_unique c c' p'
        grind
    | pop c' p' rest hb hn =>
        have hin := hi.inbox_plain c' p'
        grind
    | create c' p' hf =>
        have hpl := hi.held_plain c p'
        grind
    | _ => grind
  · cases h with
    | attach c' w p' x hc d hd =>
        have hu := hi.held_unique c c' p'
        grind
    | pop c' p' rest hb hn =>
        have hin := hi.inbox_plain c' p'
        grind
    | _ => grind
  · cases h with
    | install c' next hc =>
        -- the new task was on a queue or is an idle task, and so in nobody's hands
        have hp' := hi.phase c'
        have hpl := hi.held_plain c next
        grind
    | _ => grind

/-- A custody effect keeps what each phase says. -/
theorem Effect.phase (h : Effect idle v v') (hi : Inv idle v) (c : Cpu) :
    PhaseOk idle v' c (v'.cpu c).phase := by
  have hp := hi.phase c
  by_cases hs : (v'.cpu c).phase = (v.cpu c).phase
  · exact (h.untouched hi c hs).phaseOk hp
  · cases h with
    | vacate c' p hc hn =>
        have hp' := hi.phase c'
        have hpl := hi.held_plain c' p (by rw [hc]; rfl)
        have hocc : ∀ b, ¬ (v.setPhase c' (.own true p none)).Occupies b p := fun b hb =>
          hi.not_occupied hn (by grind) hpl.2 b (View.occupies_of_setPhase (by simp) hb)
        grind
    | push c' p d hcd hc hq hw =>
        have hset := (hi.phase c').settled hc
        grind
    | setHome c' w p x d y hc hy =>
        have hp' := hi.phase c'
        have hocc : ∀ b, ¬ ((v.setPhase c' (.own w p y)).setTask p
            { v.task p with home := d }).Occupies b p := fun b hb => by
          rw [hc] at hp'
          exact hp'.2.2.2.1 b (View.occupies_of_setPhase (by simp) hb)
        grind
    | detach c' p hc hq hv hu =>
        have hpl := hi.queued_plain p hq
        have hv' := (hv c').1
        have hocc : ∀ b, ¬ ((v.setPhase c' (.own false p none)).setTask p
            { v.task p with queued := none }).Occupies b p := fun b hb =>
          (hv b).1 (View.occupies_of_setPhase (by simp) hb)
        grind
    | adopt c' p hc hf hu =>
        have hpl := hi.fresh_plain p hf
        have hq := hi.queued_plain p
        have hocc : ∀ b, ¬ ((v.setPhase c' (.own false p none)).setTask p
            { v.task p with fresh := false }).Occupies b p := fun b hb =>
          hpl.2 b (View.occupies_of_setPhase (by simp) hb)
        grind
    | _ => grind

/-- Every effect keeps the invariant of custody. -/
theorem Effect.inv (h : Effect idle v v') (hi : Inv idle v) : Inv idle v' where
  phase := h.phase hi
  occupied_home := h.occupied_home hi
  occupied_onCpu := h.occupied_onCpu hi
  queued_home := h.queued_home hi
  queued_plain := h.queued_plain hi
  inbox_plain := h.inbox_plain hi
  inbox_nodup := h.inbox_nodup hi
  inbox_disjoint := h.inbox_disjoint hi
  held_unique := h.held_unique hi
  held_plain := h.held_plain hi
  fresh_plain := h.fresh_plain hi
  idle_plain := h.idle_plain hi

end Inv

end LinuxOs2022.Scheduler.Custody
