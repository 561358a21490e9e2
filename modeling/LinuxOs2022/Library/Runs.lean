import Mathlib

/-!
# Runs of a labelled transition system

A run is a finite sequence of steps; each step emits an event. The rules here lift a fact
about one step to a fact about whole runs: an invariant, an invariant that needs another
one, and a property of the state together with the events that led to it.
-/

namespace LinuxOs2022.Library

universe u v

variable {σ : Type u} {ε : Type v}

/-- Finite runs with the events they emit. -/
inductive Run (step : σ → ε → σ → Prop) : σ → List ε → σ → Prop
  | nil (s : σ) : Run step s [] s
  | cons {s t r : σ} {e : ε} {es : List ε} (h : step s e t) (tail : Run step t es r) :
      Run step s (e :: es) r

namespace Run

variable {step : σ → ε → σ → Prop} {s t r : σ} {e : ε} {es es' : List ε}

theorem append (h : Run step s es t) (h' : Run step t es' r) : Run step s (es ++ es') r := by
  induction h with
  | nil s => exact h'
  | cons h _ ih => exact .cons h (ih h')

theorem single (h : step s e t) : Run step s [e] t := .cons h (.nil t)

theorem cons_iff : Run step s (e :: es) r ↔ ∃ t, step s e t ∧ Run step t es r := by
  constructor
  · rintro ⟨⟩
    exact ⟨_, ‹_›, ‹_›⟩
  · rintro ⟨t, h, tail⟩
    exact .cons h tail

/-- A run over two sequences of events passes through a state between them. -/
theorem append_iff : Run step s (es ++ es') r ↔ ∃ t, Run step s es t ∧ Run step t es' r := by
  constructor
  · intro h
    induction es generalizing s with
    | nil => exact ⟨s, .nil s, h⟩
    | cons e es ih =>
        obtain ⟨s', hs, tail⟩ := cons_iff.mp h
        obtain ⟨t, h₁, h₂⟩ := ih tail
        exact ⟨t, .cons hs h₁, h₂⟩
  · rintro ⟨t, h₁, h₂⟩
    exact h₁.append h₂

/-- A run that takes a step after `pre` and ends with another one. -/
theorem window {e' : ε} {pre mid : List ε} (h : Run step s (pre ++ e :: (mid ++ [e'])) t) :
    ∃ s₀ s₁ s₂, Run step s pre s₀ ∧ step s₀ e s₁ ∧ Run step s₁ mid s₂ ∧ step s₂ e' t := by
  obtain ⟨s₀, hpre, h⟩ := append_iff.mp h
  obtain ⟨s₁, hfirst, h⟩ := cons_iff.mp h
  obtain ⟨s₂, hmid, h⟩ := append_iff.mp h
  obtain ⟨t', hlast, hnil⟩ := cons_iff.mp h
  cases hnil with
  | nil => exact ⟨s₀, s₁, s₂, hpre, hfirst, hmid, hlast⟩

/-- What every step preserves holds at the end of a run. -/
theorem invariant {I : σ → Prop} (hstep : ∀ s e t, I s → step s e t → I t)
    (h : Run step s es t) (hs : I s) : I t := by
  induction h with
  | nil s => exact hs
  | cons h _ ih => exact ih (hstep _ _ _ hs h)

/-- When every step from a good state is a few abstract steps, so is every run. -/
theorem simulate {τ : Type*} {I : σ → Prop} {abs : σ → τ} {astep : τ → τ → Prop}
    (hstep : ∀ s e t, I s → step s e t → I t)
    (hsim : ∀ s e t, I s → step s e t → Relation.ReflTransGen astep (abs s) (abs t))
    (h : Run step s es t) (hs : I s) : Relation.ReflTransGen astep (abs s) (abs t) := by
  induction h with
  | nil s => exact .refl
  | cons h _ ih => exact (hsim _ _ _ hs h).trans (ih (hstep _ _ _ hs h))

/-- A property of the state and of the events so far, extended step by step. -/
theorem track (P : List ε → σ → Prop) {I : σ → Prop}
    (hstep : ∀ s e t, I s → step s e t → I t)
    (hP : ∀ es s e t, I s → e ∈ es' → P es s → step s e t → P (es ++ [e]) t)
    (h : Run step s es' t) (hs : I s) (h0 : P [] s) : P es' t := by
  suffices hgen : ∀ {s t : σ} {es₁ es₂ : List ε}, Run step s es₂ t → es₁ ++ es₂ = es' →
      I s → P es₁ s → P es' t from hgen h rfl hs h0
  intro s t es₁ es₂ h
  induction h generalizing es₁ with
  | nil s =>
      rintro rfl _ hp
      rwa [List.append_nil]
  | @cons s t r e es h _ ih =>
      intro he hs hp
      have hmem : e ∈ es' := he ▸ List.mem_append_right _ List.mem_cons_self
      exact ih (by simpa using he) (hstep _ _ _ hs h) (hP _ _ _ _ hs hmem hp h)

end Run

/-! ## Machines that can be executed -/

section Execute

variable {α : Type*} (step : σ → α → Option (ε × σ))

/-- The events and the last state of a sequence of actions; `none` when one is impossible. -/
def execute : σ → List α → Option (List ε × σ)
  | s, [] => some ([], s)
  | s, a :: rest => do
      let (e, s') ← step s a
      let (es, t) ← execute s' rest
      return (e :: es, t)

/-- The last state of a sequence of actions. -/
def lastState (s : σ) (acts : List α) : σ := ((execute step s acts).map Prod.snd).getD s

variable {step} {R : σ → ε → σ → Prop} {s t : σ} {es : List ε} {acts : List α}

theorem execute_run (hR : ∀ s a e t, step s a = some (e, t) → R s e t)
    (h : execute step s acts = some (es, t)) : Run R s es t := by
  induction acts generalizing s es with
  | nil =>
      obtain ⟨rfl, rfl⟩ := Prod.mk.inj (Option.some.inj h)
      exact .nil s
  | cons a rest ih =>
      simp only [execute, Option.bind_eq_bind, Option.bind_eq_some_iff, Option.pure_def,
        Option.some.injEq, Prod.mk.injEq, Prod.exists] at h
      obtain ⟨e, s', hstep, es', t', hrest, rfl, rfl⟩ := h
      exact .cons (hR _ _ _ _ hstep) (ih hrest)

/-- A sequence of actions that can be carried out is a run. -/
theorem lastState_run (hR : ∀ s a e t, step s a = some (e, t) → R s e t)
    (h : (execute step s acts).map Prod.fst = some es) : Run R s es (lastState step s acts) := by
  obtain ⟨⟨es', t⟩, hexec, rfl⟩ := Option.map_eq_some_iff.mp h
  rw [lastState, hexec]
  exact execute_run hR hexec

end Execute

end LinuxOs2022.Library
