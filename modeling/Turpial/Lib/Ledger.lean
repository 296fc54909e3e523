/-
Turpial.Lib.Ledger — a quantity against what the steps of a run enter for it.

A counter, or the number of references that somebody owns, is exact when
it equals what has been put in less what has been taken out. `change l s`
is what the step `l` enters in the state `s`; `entered` is the sum over a
run. `balanced_iff` is the rule: a quantity is the sum of its entries in
every state of a run exactly when every step changes it by its own entry.
So one step that is not entered shows, and no later step repairs it.
-/
import Turpial.Lib.Run

namespace Turpial.Lib

variable {σ ℓ : Type}

/-- What the steps of a run enter, in sum. -/
def entered (step : ℓ → σ → σ) (change : ℓ → σ → Int) : List ℓ → σ → Int
  | [], _ => 0
  | l :: ls, s => change l s + entered step change ls (step l s)

/-- The step changes the quantity by what it enters. -/
def Accounts (step : ℓ → σ → σ) (change : ℓ → σ → Int) (amount : σ → Int) (l : ℓ) (s : σ) : Prop :=
  amount (step l s) = amount s + change l s

section Balance

variable {step : ℓ → σ → σ} {change : ℓ → σ → Int} {amount : σ → Int}

@[simp] theorem entered_nil (s : σ) : entered step change [] s = 0 := rfl

@[simp] theorem entered_cons (l : ℓ) (ls : List ℓ) (s : σ) :
    entered step change (l :: ls) s = change l s + entered step change ls (step l s) := rfl

/-- Steps that account for what they do leave the balance. -/
theorem run_balance {ls : List ℓ} {s : σ} (h : Along step (Accounts step change amount) ls s) :
    amount (run step ls s) = amount s + entered step change ls s := by
  induction ls generalizing s with
  | nil => exact (Int.add_zero _).symm
  | cons l ls ih =>
    obtain ⟨hl, hrest⟩ := h
    have hstep : amount (step l s) = amount s + change l s := hl
    rw [run_cons, entered_cons, ih hrest, hstep, Int.add_assoc]

/-- **A quantity is the sum of its entries throughout a run exactly when
every step changes it by its own entry.** -/
theorem balanced_iff (ls : List ℓ) (s : σ) :
    (∀ ms, ms <+: ls → amount (run step ms s) = amount s + entered step change ms s) ↔
      Along step (Accounts step change amount) ls s := by
  constructor
  · intro h
    induction ls generalizing s with
    | nil => trivial
    | cons l ls ih =>
      have hl : amount (step l s) = amount s + change l s := by
        have hone := h [l] ⟨ls, rfl⟩
        rwa [run_cons, run_nil, entered_cons, entered_nil, Int.add_zero] at hone
      refine ⟨hl, ih _ fun ms hms => ?_⟩
      have hmore := h (l :: ms) (List.cons_prefix_cons.mpr ⟨rfl, hms⟩)
      rw [run_cons, entered_cons] at hmore
      rw [hmore, hl, Int.add_assoc]
  · intro h ms hms
    obtain ⟨rest, rfl⟩ := hms
    exact run_balance h.of_append.1

end Balance

end Turpial.Lib
