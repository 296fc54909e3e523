/-
Turpial.Lib.CommonPrefix — how far two lists agree.

`commonLen xs ys` is the length of the longest common prefix. Everything
about it follows from one equivalence (`le_commonLen_iff`): a length is at
most `commonLen` exactly when the lists agree on their first elements up to
it. The common suffix is the common prefix of the reversed lists
(`drop_eq_of_le_commonLen_reverse`).
-/
import Mathlib.Tactic.Common

namespace Turpial.Lib

variable {α : Type} [DecidableEq α]

/-- Length of the longest common prefix. -/
def commonLen : List α → List α → Nat
  | x :: xs, y :: ys => if x = y then commonLen xs ys + 1 else 0
  | _, _ => 0

@[simp] theorem commonLen_nil_left (ys : List α) : commonLen [] ys = 0 := by
  cases ys <;> rfl

@[simp] theorem commonLen_nil_right (xs : List α) : commonLen xs [] = 0 := by
  cases xs <;> rfl

theorem commonLen_cons (x y : α) (xs ys : List α) :
    commonLen (x :: xs) (y :: ys) = if x = y then commonLen xs ys + 1 else 0 := rfl

theorem commonLen_le_left (xs ys : List α) : commonLen xs ys ≤ xs.length := by
  induction xs generalizing ys with
  | nil => simp
  | cons x xs ih =>
    cases ys with
    | nil => simp
    | cons y ys =>
      rw [commonLen_cons, List.length_cons]
      split
      · have := ih ys
        omega
      · omega

/-- A length is at most `commonLen` exactly when the lists agree up to it. -/
theorem le_commonLen_iff {xs ys : List α} {n : Nat} (hx : n ≤ xs.length) (hy : n ≤ ys.length) :
    n ≤ commonLen xs ys ↔ xs.take n = ys.take n := by
  induction xs generalizing ys n with
  | nil =>
    have hn : n = 0 := Nat.le_zero.mp hx
    simp [hn]
  | cons x xs ih =>
    cases n with
    | zero => simp
    | succ n =>
      cases ys with
      | nil => simp at hy
      | cons y ys =>
        rw [commonLen_cons, List.take_succ_cons, List.take_succ_cons, List.cons.injEq]
        by_cases hxy : x = y
        · rw [if_pos hxy, Nat.succ_le_succ_iff]
          have hrest := ih (Nat.le_of_succ_le_succ hx) (Nat.le_of_succ_le_succ hy)
          exact ⟨fun h => ⟨hxy, hrest.mp h⟩, fun h => hrest.mpr h.2⟩
        · rw [if_neg hxy]
          exact ⟨fun h => absurd h (by omega), fun h => absurd h.1 hxy⟩

@[simp] theorem commonLen_self (xs : List α) : commonLen xs xs = xs.length := by
  apply Nat.le_antisymm (commonLen_le_left xs xs)
  exact (le_commonLen_iff (Nat.le_refl _) (Nat.le_refl _)).mpr rfl

/-- Lists of one length agree everywhere exactly when they are equal. -/
theorem commonLen_lt_iff_ne {xs ys : List α} (h : xs.length = ys.length) :
    commonLen xs ys < xs.length ↔ xs ≠ ys := by
  rw [← Nat.not_le, le_commonLen_iff (Nat.le_refl _) (Nat.le_of_eq h)]
  rw [List.take_length, h, List.take_length]

/-- Lists of one length whose reversals agree up to `n` have the same last
`n` elements. -/
theorem drop_eq_of_le_commonLen_reverse {xs ys : List α} {n : Nat} (h : xs.length = ys.length)
    (hn : n ≤ commonLen xs.reverse ys.reverse) :
    xs.drop (xs.length - n) = ys.drop (ys.length - n) := by
  have hle : n ≤ xs.reverse.length := Nat.le_trans hn (commonLen_le_left _ _)
  have hle' : n ≤ ys.reverse.length := by
    rw [List.length_reverse] at hle ⊢
    omega
  have htake := (le_commonLen_iff hle hle').mp hn
  rw [List.take_reverse, List.take_reverse] at htake
  exact List.reverse_inj.mp htake

end Turpial.Lib
