/-
Turpial.Lib.Simulation — a component that can fail, against one that cannot.

The component below is a step function into `Except`, and a run ends with
its first failure (`runExcept`). The one above is a step function as in
`Turpial.Lib.Run`. A relation between their states is a simulation when a
step below that does not fail is matched by the step above with the same
label (`Simulates`). When it is known for each step whether it fails, from
the state above alone, it is known for each run (`Simulates.run_ok_iff`), and
when it is known how a step can fail, so it is for a run
(`Simulates.run_error`).
-/
import Turpial.Lib.Run

namespace Turpial.Lib

variable {σ τ ℓ ε : Type}

/-- The state reached from `s` by the steps `ls`, if none of them fails. -/
def runExcept (step : ℓ → σ → Except ε σ) : List ℓ → σ → Except ε σ
  | [], s => .ok s
  | l :: ls, s => (step l s).bind (runExcept step ls)

theorem runExcept_cons_ok {step : ℓ → σ → Except ε σ} {l : ℓ} {ls : List ℓ} {s s' : σ}
    (h : step l s = .ok s') : runExcept step (l :: ls) s = runExcept step ls s' := by
  change (step l s).bind (runExcept step ls) = _
  rw [h]
  rfl

theorem runExcept_cons_error {step : ℓ → σ → Except ε σ} {l : ℓ} {ls : List ℓ} {s : σ} {e : ε}
    (h : step l s = .error e) : runExcept step (l :: ls) s = .error e := by
  change (step l s).bind (runExcept step ls) = _
  rw [h]
  rfl

/-- A step below that does not fail is a step above. -/
def Simulates (step : ℓ → σ → Except ε σ) (step' : ℓ → τ → τ) (R : σ → τ → Prop) : Prop :=
  ∀ l s t s', R s t → step l s = .ok s' → R s' (step' l t)

variable {step : ℓ → σ → Except ε σ} {step' : ℓ → τ → τ} {R : σ → τ → Prop}

/-- A run below that does not fail is a run above. -/
theorem Simulates.run (h : Simulates step step' R) {ls : List ℓ} {s s' : σ} {t : τ} (hR : R s t)
    (hrun : runExcept step ls s = .ok s') : R s' (run step' ls t) := by
  induction ls generalizing s t with
  | nil =>
    cases hrun
    exact hR
  | cons l ls ih =>
    cases hstep : step l s with
    | error e =>
      rw [runExcept_cons_error hstep] at hrun
      cases hrun
    | ok s₁ =>
      rw [runExcept_cons_ok hstep] at hrun
      exact ih (h l s t s₁ hR hstep) hrun

/-- A run fails below exactly when one of its steps above is bad. -/
theorem Simulates.run_ok_iff (h : Simulates step step' R) {P : ℓ → τ → Prop}
    (hP : ∀ l s t, R s t → ((∃ s', step l s = .ok s') ↔ P l t)) {ls : List ℓ} {s : σ} {t : τ}
    (hR : R s t) : (∃ s', runExcept step ls s = .ok s') ↔ Along step' P ls t := by
  induction ls generalizing s t with
  | nil => exact ⟨fun _ => trivial, fun _ => ⟨s, rfl⟩⟩
  | cons l ls ih =>
    unfold Along
    rw [← hP l s t hR]
    constructor
    · rintro ⟨s', hrun⟩
      cases hstep : step l s with
      | error e =>
        rw [runExcept_cons_error hstep] at hrun
        cases hrun
      | ok s₁ =>
        rw [runExcept_cons_ok hstep] at hrun
        exact ⟨⟨s₁, rfl⟩, (ih (h l s t s₁ hR hstep)).mp ⟨s', hrun⟩⟩
    · rintro ⟨⟨s₁, hstep⟩, halong⟩
      rw [runExcept_cons_ok hstep]
      exact (ih (h l s t s₁ hR hstep)).mpr halong

/-- A run fails only in the ways its steps do. -/
theorem Simulates.run_error (h : Simulates step step' R) {P : ℓ → τ → Prop} {E : ε → Prop}
    (hE : ∀ l s t e, R s t → P l t → step l s = .error e → E e) {ls : List ℓ} {s : σ} {t : τ} {e : ε}
    (hR : R s t) (halong : Along step' P ls t) (hrun : runExcept step ls s = .error e) : E e := by
  induction ls generalizing s t with
  | nil => cases hrun
  | cons l ls ih =>
    cases hstep : step l s with
    | error e' =>
      rw [runExcept_cons_error hstep] at hrun
      cases hrun
      exact hE l s t e hR halong.1 hstep
    | ok s₁ =>
      rw [runExcept_cons_ok hstep] at hrun
      exact ih (h l s t s₁ hR hstep) halong.2 hrun

end Turpial.Lib
