/-
Turpial.Lib.Loop — programs over a state that may stop, and their loops.

`StateT κ (Except ε)` is the monad of a C function that works through a
pointer and returns early on an error. `bind_ok` takes a successful run of
two statements apart; everything else follows the code from there.

`loopWhile` is a `while` loop given fuel. Two rules cover its uses: what
the body keeps holds after the loop (`loopWhile_invariant`), and when the
body lowers a measure that bounds the fuel, the amount of fuel is
immaterial (`loopWhile_fuel`) and the loop only ends because its condition
failed (`loopWhile_done`).
-/
import Mathlib.Tactic.Common

namespace Turpial.Lib

variable {κ ε α β σ : Type}

/-! ## Successful runs -/

/-- A successful sequence is a success followed by a success. -/
theorem bind_ok {x : StateT κ (Except ε) α} {f : α → StateT κ (Except ε) β} {k k' : κ} {b : β}
    (h : (x >>= f) k = .ok (b, k')) : ∃ a k₁, x k = .ok (a, k₁) ∧ f a k₁ = .ok (b, k') := by
  have h' : (x k >>= fun p => f p.1 p.2) = .ok (b, k') := h
  cases hx : x k with
  | error e =>
    rw [hx] at h'
    cases h'
  | ok p =>
    rw [hx] at h'
    exact ⟨p.1, p.2, rfl, h'⟩

theorem bind_of_ok {x : StateT κ (Except ε) α} {f : α → StateT κ (Except ε) β} {k k₁ : κ} {a : α}
    (h : x k = .ok (a, k₁)) : (x >>= f) k = f a k₁ := by
  change (x k >>= fun p => f p.1 p.2) = f a k₁
  rw [h]
  rfl

theorem bind_of_error {x : StateT κ (Except ε) α} {f : α → StateT κ (Except ε) β} {k : κ} {e : ε}
    (h : x k = .error e) : (x >>= f) k = .error e := by
  change (x k >>= fun p => f p.1 p.2) = .error e
  rw [h]
  rfl

@[simp] theorem pure_ok {a b : α} {k k' : κ} :
    (pure a : StateT κ (Except ε) α) k = .ok (b, k') ↔ a = b ∧ k = k' := by
  change Except.ok (a, k) = Except.ok (b, k') ↔ _
  rw [Except.ok.injEq, Prod.mk.injEq]

/-! ## Loops -/

/-- `while (cond) s = body(s);`, for at most `fuel` rounds. -/
def loopWhile (cond : κ → Bool) (body : σ → StateT κ (Except ε) σ) :
    Nat → σ → StateT κ (Except ε) σ
  | 0, s => pure s
  | fuel + 1, s => fun k =>
    if cond k then (body s >>= fun s => loopWhile cond body fuel s) k else .ok (s, k)

section Loops

variable {cond : κ → Bool} {body : σ → StateT κ (Except ε) σ}

theorem loopWhile_zero (s : σ) (k : κ) : loopWhile cond body 0 s k = .ok (s, k) := rfl

theorem loopWhile_succ (fuel : Nat) (s : σ) (k : κ) :
    loopWhile cond body (fuel + 1) s k =
      if cond k then (body s >>= fun s => loopWhile cond body fuel s) k else .ok (s, k) := rfl

/-- What one round keeps holds after the loop. -/
theorem loopWhile_invariant {Inv : σ → Prop}
    (hbody : ∀ s s' k k', Inv s → body s k = .ok (s', k') → Inv s') {fuel : Nat} {s s' : σ}
    {k k' : κ} (hs : Inv s) (h : loopWhile cond body fuel s k = .ok (s', k')) : Inv s' := by
  induction fuel generalizing s k with
  | zero =>
    obtain ⟨rfl, -⟩ := pure_ok.mp h
    exact hs
  | succ fuel ih =>
    rw [loopWhile_succ] at h
    split at h
    · obtain ⟨s₁, k₁, h₁, h₂⟩ := bind_ok h
      exact ih (hbody s s₁ k k₁ hs h₁) h₂
    · cases h
      exact hs

/-- A measure that every round lowers while the condition holds. -/
def Lowers (cond : κ → Bool) (body : σ → StateT κ (Except ε) σ) (μ : κ → Nat) : Prop :=
  ∀ s s' k k', cond k = true → body s k = .ok (s', k') → μ k' < μ k

variable {μ : κ → Nat}

/-- Fuel beyond the measure makes no difference. -/
theorem loopWhile_fuel (hμ : Lowers cond body μ) (hzero : ∀ k, μ k = 0 → cond k = false)
    {fuel fuel' : Nat} {s : σ} {k : κ} (hf : μ k ≤ fuel) (hf' : μ k ≤ fuel') :
    loopWhile cond body fuel s k = loopWhile cond body fuel' s k := by
  induction fuel generalizing fuel' s k with
  | zero =>
    have hk := hzero k (Nat.le_zero.mp hf)
    cases fuel' with
    | zero => rfl
    | succ fuel' =>
      rw [loopWhile_zero, loopWhile_succ, hk]
      rfl
  | succ fuel ih =>
    cases fuel' with
    | zero =>
      rw [loopWhile_zero, loopWhile_succ, hzero k (Nat.le_zero.mp hf')]
      rfl
    | succ fuel' =>
      rw [loopWhile_succ, loopWhile_succ]
      split
      · rename_i hc
        cases hb : body s k with
        | error e => rw [bind_of_error hb, bind_of_error hb]
        | ok p =>
          have hlt := hμ s p.1 k p.2 hc hb
          rw [bind_of_ok hb, bind_of_ok hb]
          exact ih (by omega) (by omega)
      · rfl

/-- With enough fuel the loop ends because its condition fails. -/
theorem loopWhile_done (hμ : Lowers cond body μ) (hzero : ∀ k, μ k = 0 → cond k = false)
    {fuel : Nat} {s s' : σ} {k k' : κ} (hf : μ k ≤ fuel)
    (h : loopWhile cond body fuel s k = .ok (s', k')) : cond k' = false := by
  induction fuel generalizing s k with
  | zero =>
    obtain ⟨-, rfl⟩ := pure_ok.mp h
    exact hzero k (Nat.le_zero.mp hf)
  | succ fuel ih =>
    rw [loopWhile_succ] at h
    split at h
    · rename_i hc
      obtain ⟨s₁, k₁, h₁, h₂⟩ := bind_ok h
      have hlt := hμ s s₁ k k₁ hc h₁
      exact ih (by omega) h₂
    · rename_i hc
      cases h
      exact Bool.not_eq_true _ ▸ hc

end Loops

end Turpial.Lib
