/-
Turpial.Lib.Run — runs of a deterministic step function, and the induction
rules for them.

A component is a step function `step : ℓ → σ → σ`; a run is the list of its
step labels, and the state it reaches is the fold. Two things are said
about runs over and over:

* `Along P s ls` — every step of the run meets `P` in the state before it.
  This is how a side condition on the steps is written: it can look at the
  label and at the state before the step, at nothing the step computes.
* `run_invariant` — an invariant that every step meeting `P` keeps holds
  at the end of every run along `P`. As `Along` is closed under prefixes
  (`Along.of_append`), that is every state the run passes through.
-/
import Mathlib.Data.List.Basic

namespace Turpial.Lib

variable {σ ℓ : Type}

/-- The state reached from `s` by the steps `ls`, in order. -/
def run (step : ℓ → σ → σ) : List ℓ → σ → σ
  | [], s => s
  | l :: ls, s => run step ls (step l s)

/-- Every step of the run meets `P` in the state before it. -/
def Along (step : ℓ → σ → σ) (P : ℓ → σ → Prop) : List ℓ → σ → Prop
  | [], _ => True
  | l :: ls, s => P l s ∧ Along step P ls (step l s)

instance instDecidableAlong {step : ℓ → σ → σ} {P : ℓ → σ → Prop} [∀ l s, Decidable (P l s)] :
    ∀ (ls : List ℓ) (s : σ), Decidable (Along step P ls s)
  | [], _ => inferInstanceAs (Decidable True)
  | l :: ls, s =>
    have : Decidable (Along step P ls (step l s)) := instDecidableAlong ls (step l s)
    inferInstanceAs (Decidable (P l s ∧ Along step P ls (step l s)))

section Runs

variable (step : ℓ → σ → σ)

@[simp] theorem run_nil (s : σ) : run step [] s = s := rfl

@[simp] theorem run_cons (l : ℓ) (ls : List ℓ) (s : σ) :
    run step (l :: ls) s = run step ls (step l s) := rfl

theorem run_append (ls ms : List ℓ) (s : σ) :
    run step (ls ++ ms) s = run step ms (run step ls s) := by
  induction ls generalizing s with
  | nil => rfl
  | cons l ls ih => simp [ih]

/-- One step more of a list of steps. -/
theorem run_take_succ (ls : List ℓ) (k : Nat) (s : σ) :
    run step (ls.take (k + 1)) s = run step ls[k]?.toList (run step (ls.take k) s) := by
  rw [List.take_add_one, run_append]

variable {step} {P : ℓ → σ → Prop}

/-- A run along `P` is a run along `P` and a continuation along `P`. -/
theorem along_append {ls ms : List ℓ} {s : σ} :
    Along step P (ls ++ ms) s ↔ Along step P ls s ∧ Along step P ms (run step ls s) := by
  induction ls generalizing s with
  | nil => exact ⟨fun h => ⟨trivial, h⟩, And.right⟩
  | cons l ls ih => exact (and_congr_right fun _ => ih).trans and_assoc.symm

/-- The two halves of a run along `P`. -/
theorem Along.of_append {ls ms : List ℓ} {s : σ} (h : Along step P (ls ++ ms) s) :
    Along step P ls s ∧ Along step P ms (run step ls s) :=
  along_append.mp h

/-- The last step of a run along `P` meets `P` in the state it is taken in. -/
theorem Along.last {ls : List ℓ} {l : ℓ} {s : σ} (h : Along step P (ls ++ [l]) s) :
    P l (run step ls s) :=
  h.of_append.2.1

theorem Along.mono {Q : ℓ → σ → Prop} (hPQ : ∀ l s, P l s → Q l s) {ls : List ℓ} {s : σ}
    (h : Along step P ls s) : Along step Q ls s := by
  induction ls generalizing s with
  | nil => trivial
  | cons l ls ih => exact ⟨hPQ l s h.1, ih h.2⟩

theorem Along.and {Q : ℓ → σ → Prop} {ls : List ℓ} {s : σ} (hP : Along step P ls s)
    (hQ : Along step Q ls s) : Along step (fun l s => P l s ∧ Q l s) ls s := by
  induction ls generalizing s with
  | nil => trivial
  | cons l ls ih => exact ⟨⟨hP.1, hQ.1⟩, ih hP.2 hQ.2⟩

/-- What every step meeting `P` keeps holds at the end of every run along `P`. -/
theorem run_invariant {Inv : σ → Prop} (hstep : ∀ l s, Inv s → P l s → Inv (step l s))
    {ls : List ℓ} {s : σ} (hs : Inv s) (h : Along step P ls s) : Inv (run step ls s) := by
  induction ls generalizing s with
  | nil => exact hs
  | cons l ls ih => exact ih (hstep l s hs h.1) h.2

/-- The form for invariants that need no side condition on the steps. -/
theorem run_invariant_of_step {Inv : σ → Prop} (hstep : ∀ l s, Inv s → Inv (step l s))
    (ls : List ℓ) {s : σ} (hs : Inv s) : Inv (run step ls s) := by
  induction ls generalizing s with
  | nil => exact hs
  | cons l ls ih => exact ih (hstep l s hs)

/-- Two step functions that keep a relation, on the same steps. -/
theorem run_simulation {τ : Type} {step' : ℓ → τ → τ} {R : σ → τ → Prop}
    (hstep : ∀ l s t, R s t → R (step l s) (step' l t)) (ls : List ℓ) {s : σ} {t : τ}
    (h : R s t) : R (run step ls s) (run step' ls t) := by
  induction ls generalizing s t with
  | nil => exact h
  | cons l ls ih => exact ih (hstep l s t h)

/-- Meeting a family of conditions is meeting each of them. -/
theorem along_forall {ι : Type} {Q : ι → ℓ → σ → Prop} {ls : List ℓ} {s : σ} :
    Along step (fun l s => ∀ i, Q i l s) ls s ↔ ∀ i, Along step (Q i) ls s := by
  induction ls generalizing s with
  | nil => exact ⟨fun _ _ => trivial, fun _ => trivial⟩
  | cons l ls ih =>
    constructor
    · rintro ⟨hl, hrest⟩ i
      exact ⟨hl i, ih.mp hrest i⟩
    · intro h
      exact ⟨fun i => (h i).1, ih.mpr fun i => (h i).2⟩

/-- Conditions that say the same in the states with an invariant say the
same of runs along what keeps the invariant. -/
theorem along_congr_along {Q R : ℓ → σ → Prop} {Inv : σ → Prop}
    (hstep : ∀ l s, Inv s → R l s → Inv (step l s)) (hPQ : ∀ l s, Inv s → R l s → (P l s ↔ Q l s))
    {ls : List ℓ} {s : σ} (hs : Inv s) (hR : Along step R ls s) :
    Along step P ls s ↔ Along step Q ls s := by
  induction ls generalizing s with
  | nil => exact Iff.rfl
  | cons l ls ih => exact and_congr (hPQ l s hs hR.1) (ih (hstep l s hs hR.1) hR.2)

/-- Every run is along no condition at all. -/
theorem along_true (ls : List ℓ) (s : σ) : Along step (fun _ _ => True) ls s := by
  induction ls generalizing s with
  | nil => trivial
  | cons l ls ih => exact ⟨trivial, ih _⟩

/-- The form for invariants that need no side condition on the steps. -/
theorem along_congr {Q : ℓ → σ → Prop} {Inv : σ → Prop}
    (hstep : ∀ l s, Inv s → Inv (step l s)) (hPQ : ∀ l s, Inv s → (P l s ↔ Q l s))
    (ls : List ℓ) {s : σ} (hs : Inv s) : Along step P ls s ↔ Along step Q ls s :=
  along_congr_along (fun l s h _ => hstep l s h) (fun l s h _ => hPQ l s h) hs (along_true ls s)

/-- A run is along `P` exactly when it is along `Q` and passes through good
states only, if `P` is what keeps an invariant that is good, and a step
along `Q` that does not meet `P` leads to a state that is not good. -/
theorem along_iff_good {Q : ℓ → σ → Prop} {Inv Good : σ → Prop} (hgood : ∀ s, Inv s → Good s)
    (hstep : ∀ l s, Inv s → P l s → Q l s ∧ Inv (step l s))
    (hback : ∀ l s, Inv s → Q l s → Good (step l s) → P l s) (ls : List ℓ) {s : σ} (hs : Inv s) :
    Along step P ls s ↔ (∀ ms, ms <+: ls → Good (run step ms s)) ∧ Along step Q ls s := by
  induction ls generalizing s with
  | nil =>
    refine ⟨fun _ => ⟨fun ms hms => ?_, trivial⟩, fun _ => trivial⟩
    rw [List.prefix_nil.mp hms]
    exact hgood s hs
  | cons l ls ih =>
    constructor
    · rintro ⟨hp, hrest⟩
      obtain ⟨hq, hnext⟩ := hstep l s hs hp
      obtain ⟨hgoods, hqs⟩ := (ih hnext).mp hrest
      refine ⟨fun ms hms => ?_, hq, hqs⟩
      cases ms with
      | nil => exact hgood s hs
      | cons m ms =>
        obtain ⟨rfl, hprefix⟩ := List.cons_prefix_cons.mp hms
        exact hgoods ms hprefix
    · rintro ⟨hgoods, hq, hqs⟩
      have hp := hback l s hs hq (hgoods [l] ⟨ls, rfl⟩)
      refine ⟨hp, (ih (hstep l s hs hp).2).mpr ⟨fun ms hms => ?_, hqs⟩⟩
      obtain ⟨rest, rfl⟩ := hms
      exact hgoods (l :: ms) ⟨rest, rfl⟩

/-- If `P` is exactly what a step needs to keep an invariant, then a run is
along `P` exactly when it passes through states with the invariant only. -/
theorem along_iff_invariant {Inv : σ → Prop} (hstep : ∀ l s, Inv s → (P l s ↔ Inv (step l s)))
    (ls : List ℓ) {s : σ} (hs : Inv s) :
    Along step P ls s ↔ ∀ ms, ms <+: ls → Inv (run step ms s) := by
  rw [along_iff_good (Q := fun _ _ => True) (fun s h => h)
    (fun l s hi hp => ⟨trivial, (hstep l s hi).mp hp⟩)
    (fun l s hi _ h => (hstep l s hi).mpr h) ls hs]
  exact and_iff_left (along_true ls s)

end Runs

/-! ## States that are reached -/

section Reaches

variable {step : ℓ → σ → σ} {P : ℓ → σ → Prop}

/-- Some run along `P` leads from one state to the other. -/
def Reaches (step : ℓ → σ → σ) (P : ℓ → σ → Prop) (s s' : σ) : Prop :=
  ∃ ls, Along step P ls s ∧ run step ls s = s'

theorem Reaches.single {l : ℓ} {s : σ} (h : P l s) : Reaches step P s (step l s) :=
  ⟨[l], ⟨h, trivial⟩, rfl⟩

theorem Reaches.trans {s₁ s₂ s₃ : σ} (h₁ : Reaches step P s₁ s₂) (h₂ : Reaches step P s₂ s₃) :
    Reaches step P s₁ s₃ := by
  obtain ⟨ls, hls, rfl⟩ := h₁
  obtain ⟨ms, hms, rfl⟩ := h₂
  exact ⟨ls ++ ms, along_append.mpr ⟨hls, hms⟩, run_append step ls ms s₁⟩

end Reaches

/-! ## Costs along a run -/

/-- What the steps of a run cost together, each in the state before it. -/
def totalCost (step : ℓ → σ → σ) (cost : ℓ → σ → Nat) : List ℓ → σ → Nat
  | [], _ => 0
  | l :: ls, s => cost l s + totalCost step cost ls (step l s)

/-- A potential pays for a run, with what is paid in on the way, if it pays
for every step. -/
theorem totalCost_le {step : ℓ → σ → σ} {cost income : ℓ → σ → Nat} {potential : σ → Nat}
    (hstep : ∀ l s, cost l s + potential (step l s) ≤ potential s + income l s) (ls : List ℓ)
    (s : σ) : totalCost step cost ls s + potential (run step ls s) ≤
      potential s + totalCost step income ls s := by
  induction ls generalizing s with
  | nil => exact Nat.le_of_eq (Nat.zero_add _)
  | cons l ls ih =>
    have hl := hstep l s
    have hls := ih (step l s)
    unfold totalCost
    rw [run_cons]
    omega

end Turpial.Lib
