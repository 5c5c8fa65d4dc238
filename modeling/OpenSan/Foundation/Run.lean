import Mathlib.Data.List.Basic

/-!
# Runs of a state machine

A machine is a step function on states and inputs.  `Guarded` says that a
condition on the state before the step and on the input holds at every step of
a run.  Prefixes of a guarded run are guarded, so a statement about the last
state of every guarded run is a statement about every state of it.
-/

namespace OpenSan.Foundation

variable {σ : Type*} {ι : Type*}

def run (step : σ → ι → σ) (start : σ) (inputs : List ι) : σ :=
  inputs.foldl step start

@[simp] theorem run_nil (step : σ → ι → σ) (start : σ) :
    run step start [] = start := rfl

@[simp] theorem run_cons (step : σ → ι → σ) (start : σ) (input : ι)
    (inputs : List ι) :
    run step start (input :: inputs) = run step (step start input) inputs := rfl

def Guarded (guard : σ → ι → Prop) (step : σ → ι → σ) : σ → List ι → Prop
  | _, [] => True
  | s, input :: inputs =>
      guard s input ∧ Guarded guard step (step s input) inputs

instance Guarded.decidable (guard : σ → ι → Prop) (step : σ → ι → σ)
    [∀ s input, Decidable (guard s input)] :
    (s : σ) → (inputs : List ι) → Decidable (Guarded guard step s inputs)
  | _, [] => .isTrue trivial
  | s, input :: inputs =>
      have := Guarded.decidable guard step (step s input) inputs
      inferInstanceAs (Decidable (guard s input ∧ _))

theorem Guarded.take {guard : σ → ι → Prop} {step : σ → ι → σ} {start : σ}
    {inputs : List ι} (h : Guarded guard step start inputs) (n : Nat) :
    Guarded guard step start (inputs.take n) := by
  induction inputs generalizing start n with
  | nil => simp [Guarded]
  | cons input inputs ih =>
      cases n with
      | zero => simp [Guarded]
      | succ n => exact ⟨h.1, ih h.2 n⟩

/-- The invariant rule: what holds at the start and is kept by every step
that meets the guard holds after every guarded run. -/
theorem Guarded.invariant {guard : σ → ι → Prop} {step : σ → ι → σ}
    {I : σ → Prop}
    (hstep : ∀ s input, I s → guard s input → I (step s input)) {start : σ}
    {inputs : List ι}
    (hrun : Guarded guard step start inputs) (hstart : I start) :
    I (run step start inputs) := by
  induction inputs generalizing start with
  | nil => exact hstart
  | cons input inputs ih =>
      obtain ⟨hguard, hrest⟩ := hrun
      exact ih hrest (hstep start input hstart hguard)

theorem run_invariant {step : σ → ι → σ} {I : σ → Prop}
    (hstep : ∀ s input, I s → I (step s input)) {start : σ}
    (hstart : I start) (inputs : List ι) : I (run step start inputs) := by
  induction inputs generalizing start with
  | nil => exact hstart
  | cons input inputs ih => exact ih (hstep start input hstart)

end OpenSan.Foundation
