/-
Turpial.Lib.Threads — threads that take turns on a shared state.

Each thread is in a phase of what it is doing. A step of thread `i` is one
indivisible operation: it reads the phase of `i` and the shared state, and
leaves both changed; the phases of the others stay (`act_phase_other`). An
interleaving is a list of thread names.
-/
import Mathlib.Logic.Function.Basic

namespace Turpial.Lib

variable {ι φ σ : Type}

/-- The phase of each thread, and the state they share. -/
structure Threads (ι φ σ : Type) where
  phase : ι → φ
  shared : σ

namespace Threads

/-- All threads in one phase. -/
def start (p : φ) (s : σ) : Threads ι φ σ := ⟨fun _ => p, s⟩

/-- Every thread but `i` is in a phase with `P`. -/
def Others (P : φ → Prop) (i : ι) (s : Threads ι φ σ) : Prop := ∀ j, j ≠ i → P (s.phase j)

variable [DecidableEq ι]

/-- A step of thread `i`. -/
def act (next : φ → σ → φ × σ) (i : ι) (s : Threads ι φ σ) : Threads ι φ σ where
  phase := Function.update s.phase i (next (s.phase i) s.shared).1
  shared := (next (s.phase i) s.shared).2

variable {next : φ → σ → φ × σ} {i : ι} {s : Threads ι φ σ}

@[simp] theorem act_shared : (s.act next i).shared = (next (s.phase i) s.shared).2 := rfl

@[simp] theorem act_phase_self : (s.act next i).phase i = (next (s.phase i) s.shared).1 :=
  Function.update_self ..

theorem act_phase_other {j : ι} (h : j ≠ i) : (s.act next i).phase j = s.phase j :=
  Function.update_of_ne h ..

/-- The acting thread is not one of the others. -/
theorem others_act {P : φ → Prop} : Others P i (s.act next i) ↔ Others P i s := by
  refine forall_congr' fun j => forall_congr' fun hj => ?_
  rw [act_phase_other hj]

end Threads

end Turpial.Lib
