/-
Turpial.Lib.Table — fixed-size tables that are searched by a linear scan.

Embedded code keeps its sets in static arrays and walks them with one of
two loops:

* `scan` — touch every slot on the way (expire it, clear it), test it,
  and stop at the first hit. The slots behind the hit keep the value they
  had before the walk; that a walk which stops early is only a PARTIAL
  clean-up is what most proofs about such tables turn on.
* `fillFree` — write a value into the first free slot, if there is one.

Both return the table after the walk and the index of the slot they
stopped at. `scanFrom` carries the index of the current slot, so a loop
that skips one particular slot is an instance as well.

Nothing here knows what the slots hold.
-/
import Mathlib.Data.List.Basic
import Mathlib.Tactic.Common

namespace Turpial.Lib

variable {α : Type}

/-! ## Writing one slot -/

/-- The slot that was written. -/
theorem getElem?_written {xs : List α} {i : Nat} {x : α} (hi : xs[i]? = some x) (y : α) :
    (xs.set i y)[i]? = some y :=
  List.getElem?_set_self (List.getElem?_eq_some_iff.mp hi).1

/-- A slot of a table in which slot `i` was written. -/
theorem getElem?_written_cases {xs : List α} {i j : Nat} {y z : α}
    (hj : (xs.set i y)[j]? = some z) : (j = i ∧ z = y) ∨ (j ≠ i ∧ xs[j]? = some z) := by
  by_cases hji : j = i
  · subst hji
    have hlt : j < xs.length := by simpa using (List.getElem?_eq_some_iff.mp hj).1
    rw [List.getElem?_set_self hlt, Option.some.injEq] at hj
    exact Or.inl ⟨rfl, hj.symm⟩
  · rw [List.getElem?_set_ne (Ne.symm hji)] at hj
    exact Or.inr ⟨hji, hj⟩

/-! ## Walking a table up to the first hit -/

/-- Walk a table whose first slot has index `k`: touch each slot, stop at
the first one that hits. -/
def scanFrom (touch : Nat → α → α) (hit : Nat → α → Bool) : Nat → List α → List α × Option Nat
  | _, [] => ([], none)
  | k, x :: xs =>
    if hit k (touch k x) then (touch k x :: xs, some k)
    else
      let rest := scanFrom touch hit (k + 1) xs
      (touch k x :: rest.1, rest.2)

/-- `scanFrom` over a whole table. -/
def scan (touch : Nat → α → α) (hit : Nat → α → Bool) (xs : List α) : List α × Option Nat :=
  scanFrom touch hit 0 xs

section Scan

variable (touch : Nat → α → α) (hit : Nat → α → Bool)

/-- A walk never resizes the table. -/
theorem scanFrom_length (k : Nat) (xs : List α) :
    (scanFrom touch hit k xs).1.length = xs.length := by
  induction xs generalizing k with
  | nil => rfl
  | cons x xs ih =>
    simp only [scanFrom]
    split
    · rfl
    · simp [ih]

/-- A walk without a hit has touched every slot, and no touched slot hits. -/
theorem scanFrom_none {k : Nat} {xs : List α} (h : (scanFrom touch hit k xs).2 = none) :
    ∀ i x, xs[i]? = some x →
      (scanFrom touch hit k xs).1[i]? = some (touch (k + i) x) ∧
        hit (k + i) (touch (k + i) x) = false := by
  induction xs generalizing k with
  | nil => intro i x hx; simp at hx
  | cons y ys ih =>
    simp only [scanFrom] at h ⊢
    split at h
    · simp at h
    · rename_i hy
      intro i x hx
      rw [if_neg hy]
      cases i with
      | zero =>
        simp only [List.getElem?_cons_zero, Option.some.injEq] at hx
        subst hx
        exact ⟨by simp, by simpa using hy⟩
      | succ i =>
        have hrec := ih h i x (by simpa using hx)
        rw [show k + 1 + i = k + (i + 1) by omega] at hrec
        simpa using hrec

/-- A walk that stops at slot `j` has touched the slots up to `j` and left
the ones behind it alone; `j` is the first touched slot that hits. -/
theorem scanFrom_some {k j : Nat} {xs : List α} (h : (scanFrom touch hit k xs).2 = some j) :
    ∃ i x, j = k + i ∧ xs[i]? = some x ∧ hit j (touch j x) = true ∧
      (scanFrom touch hit k xs).1[i]? = some (touch j x) ∧
      (∀ i' x', i' < i → xs[i']? = some x' →
        (scanFrom touch hit k xs).1[i']? = some (touch (k + i') x') ∧
          hit (k + i') (touch (k + i') x') = false) ∧
      (∀ i', i < i' → (scanFrom touch hit k xs).1[i']? = xs[i']?) := by
  induction xs generalizing k with
  | nil => simp [scanFrom] at h
  | cons y ys ih =>
    simp only [scanFrom] at h ⊢
    split at h
    · rename_i hy
      simp only [Option.some.injEq] at h
      subst h
      refine ⟨0, y, rfl, rfl, hy, by simp [hy], fun i' x' hi' => absurd hi' (by omega), ?_⟩
      intro i' hi'
      cases i' with
      | zero => omega
      | succ i' => simp [hy]
    · rename_i hy
      obtain ⟨i, x, hj, hx, hhit, hat, hbefore, hafter⟩ := ih h
      refine ⟨i + 1, x, by omega, by simpa using hx, hhit, by simpa [hy] using hat, ?_, ?_⟩
      · intro i' x' hi' hx'
        cases i' with
        | zero =>
          simp only [List.getElem?_cons_zero, Option.some.injEq] at hx'
          subst hx'
          exact ⟨by simp [hy], by simpa using hy⟩
        | succ i' =>
          have hrec := hbefore i' x' (by omega) (by simpa using hx')
          rw [show k + 1 + i' = k + (i' + 1) by omega] at hrec
          simpa [hy] using hrec
      · intro i' hi'
        cases i' with
        | zero => omega
        | succ i' => simpa [hy] using hafter i' (by omega)

@[simp] theorem scan_length (xs : List α) : (scan touch hit xs).1.length = xs.length :=
  scanFrom_length touch hit 0 xs

theorem scan_none {xs : List α} (h : (scan touch hit xs).2 = none) :
    ∀ i x, xs[i]? = some x →
      (scan touch hit xs).1[i]? = some (touch i x) ∧ hit i (touch i x) = false := by
  intro i x hx
  simpa [scan] using scanFrom_none touch hit h i x hx

theorem scan_some {j : Nat} {xs : List α} (h : (scan touch hit xs).2 = some j) :
    ∃ x, xs[j]? = some x ∧ hit j (touch j x) = true ∧
      (scan touch hit xs).1[j]? = some (touch j x) ∧
      (∀ i x', i < j → xs[i]? = some x' →
        (scan touch hit xs).1[i]? = some (touch i x') ∧ hit i (touch i x') = false) ∧
      (∀ i, j < i → (scan touch hit xs).1[i]? = xs[i]?) := by
  obtain ⟨i, x, hj, hx, hhit, hat, hbefore, hafter⟩ := scanFrom_some touch hit h
  rw [Nat.zero_add] at hj
  subst hj
  refine ⟨x, hx, hhit, hat, ?_, hafter⟩
  intro i' x' hi' hx'
  simpa [scan] using hbefore i' x' hi' hx'

/-- Every slot after a walk is the slot before it, touched or untouched. -/
theorem scan_getElem? {xs : List α} {i : Nat} {y : α} (hy : (scan touch hit xs).1[i]? = some y) :
    ∃ x, xs[i]? = some x ∧ (y = touch i x ∨ y = x) := by
  have hi : i < xs.length := by
    have := (List.getElem?_eq_some_iff.mp hy).1
    simpa using this
  obtain ⟨x, hx⟩ : ∃ x, xs[i]? = some x := ⟨xs[i], List.getElem?_eq_getElem hi⟩
  refine ⟨x, hx, ?_⟩
  cases hr : (scan touch hit xs).2 with
  | none =>
    have := (scan_none touch hit hr i x hx).1
    rw [this] at hy
    exact Or.inl (Option.some.inj hy).symm
  | some j =>
    obtain ⟨z, hz, -, hat, hbefore, hafter⟩ := scan_some touch hit hr
    rcases Nat.lt_trichotomy i j with hlt | rfl | hgt
    · have := (hbefore i x hlt hx).1
      rw [this] at hy
      exact Or.inl (Option.some.inj hy).symm
    · rw [hx] at hz
      cases hz
      rw [hat] at hy
      exact Or.inl (Option.some.inj hy).symm
    · rw [hafter i hgt, hx] at hy
      exact Or.inr (Option.some.inj hy).symm

/-- A slot that the walk has touched was reached: none before it hits. -/
theorem scan_reached {xs : List α} {i : Nat} {y : α} (hy : (scan touch hit xs).1[i]? = some y) :
    ∃ x, xs[i]? = some x ∧ (y = x ∨ y = touch i x ∧
      ∀ j < i, ∀ z, xs[j]? = some z → hit j (touch j z) = false) := by
  obtain ⟨x, hx, -⟩ := scan_getElem? touch hit hy
  refine ⟨x, hx, ?_⟩
  cases hr : (scan touch hit xs).2 with
  | none =>
    have hat := (scan_none touch hit hr i x hx).1
    rw [hy, Option.some.injEq] at hat
    exact Or.inr ⟨hat, fun j _ z hz => (scan_none touch hit hr j z hz).2⟩
  | some k =>
    obtain ⟨z, hz, -, hat, hbefore, hafter⟩ := scan_some touch hit hr
    rcases Nat.lt_trichotomy i k with hlt | rfl | hgt
    · have hi := (hbefore i x hlt hx).1
      rw [hy, Option.some.injEq] at hi
      exact Or.inr ⟨hi, fun j hj w hw => (hbefore j w (by omega) hw).2⟩
    · rw [hx] at hz
      cases hz
      rw [hy, Option.some.injEq] at hat
      exact Or.inr ⟨hat, fun j hj w hw => (hbefore j w hj hw).2⟩
    · have hi := hafter i hgt
      rw [hy, hx, Option.some.injEq] at hi
      exact Or.inl hi

/-- A slot before which none hits is touched. -/
theorem scan_touched {xs : List α} {i : Nat} {x : α} (hx : xs[i]? = some x)
    (h : ∀ j < i, ∀ z, xs[j]? = some z → hit j (touch j z) = false) :
    (scan touch hit xs).1[i]? = some (touch i x) := by
  cases hr : (scan touch hit xs).2 with
  | none => exact (scan_none touch hit hr i x hx).1
  | some k =>
    obtain ⟨z, hz, hhit, hat, hbefore, -⟩ := scan_some touch hit hr
    rcases Nat.lt_trichotomy i k with hlt | rfl | hgt
    · exact (hbefore i x hlt hx).1
    · rw [hx] at hz
      cases hz
      exact hat
    · rw [h k hgt z hz] at hhit
      cases hhit

/-- A slot that hits once touched stops the walk, at that slot or before. -/
theorem scan_hits {xs : List α} {i : Nat} {x : α} (hx : xs[i]? = some x)
    (hhit : hit i (touch i x) = true) : ∃ j, (scan touch hit xs).2 = some j ∧ j ≤ i := by
  cases hr : (scan touch hit xs).2 with
  | none =>
    have := (scan_none touch hit hr i x hx).2
    rw [hhit] at this
    cases this
  | some j =>
    refine ⟨j, rfl, Nat.le_of_not_lt fun hlt => ?_⟩
    obtain ⟨-, -, -, -, hbefore, -⟩ := scan_some touch hit hr
    have := (hbefore i x hlt hx).2
    rw [hhit] at this
    cases this

/-- Tables whose slots become the same when they are touched give a walk the
same result, and the same slot where it stops. -/
theorem scan_congr {xs ys : List α} (hlen : ys.length = xs.length)
    (htouch : ∀ i x y, xs[i]? = some x → ys[i]? = some y → touch i y = touch i x) :
    (scan touch hit ys).2 = (scan touch hit xs).2 ∧
      ∀ j, (scan touch hit xs).2 = some j →
        (scan touch hit ys).1[j]? = (scan touch hit xs).1[j]? := by
  have hslot : ∀ i y, ys[i]? = some y → ∃ x, xs[i]? = some x ∧ touch i y = touch i x := by
    intro i y hy
    have hi : i < xs.length := hlen ▸ (List.getElem?_eq_some_iff.mp hy).1
    exact ⟨_, List.getElem?_eq_getElem hi, htouch i _ y (List.getElem?_eq_getElem hi) hy⟩
  cases hx : (scan touch hit xs).2 with
  | none =>
    refine ⟨?_, fun j hj => nomatch hj⟩
    cases hy : (scan touch hit ys).2 with
    | none => rfl
    | some j =>
      obtain ⟨y, hat, hhit, -⟩ := scan_some touch hit hy
      obtain ⟨x, hxj, heq⟩ := hslot j y hat
      rw [heq, (scan_none touch hit hx j x hxj).2] at hhit
      cases hhit
  | some j =>
    obtain ⟨x, hxj, hhit, hstop, hbefore, -⟩ := scan_some touch hit hx
    have hj : j < ys.length := hlen ▸ (List.getElem?_eq_some_iff.mp hxj).1
    have heq := htouch j x _ hxj (List.getElem?_eq_getElem hj)
    obtain ⟨k, hk, hle⟩ := scan_hits touch hit (List.getElem?_eq_getElem hj) (heq ▸ hhit)
    -- A hit before slot `j` would have stopped the other walk there.
    obtain ⟨y, hyk, hhitk, hstopk, -⟩ := scan_some touch hit hk
    obtain rfl : k = j := by
      refine Nat.le_antisymm hle (Nat.le_of_not_lt fun hlt => ?_)
      obtain ⟨x', hx', heq'⟩ := hslot k y hyk
      rw [heq', (hbefore k x' hlt hx').2] at hhitk
      cases hhitk
    refine ⟨hk, fun i hi => ?_⟩
    cases hi
    rw [hstopk, hstop, htouch _ x y hxj hyk]

end Scan

/-! ## Writing into the first free slot -/

/-- Rewrite the first free slot with `fill`; `none` when every slot is taken. -/
def fillFree (free : α → Bool) (fill : α → α) : List α → List α × Option Nat
  | [] => ([], none)
  | x :: xs =>
    if free x then (fill x :: xs, some 0)
    else
      let rest := fillFree free fill xs
      (x :: rest.1, rest.2.map (· + 1))

section Fill

variable (free : α → Bool) (fill : α → α)

/-- A full table is left as it is. -/
theorem fillFree_none {xs : List α} (h : (fillFree free fill xs).2 = none) :
    (fillFree free fill xs).1 = xs ∧ ∀ x ∈ xs, free x = false := by
  induction xs with
  | nil => simp [fillFree]
  | cons x xs ih =>
    simp only [fillFree] at h ⊢
    split at h
    · simp at h
    · rename_i hx
      obtain ⟨heq, hall⟩ := ih (by simpa using h)
      rw [if_neg hx]
      exact ⟨by simp [heq], by simpa [hx] using hall⟩

/-- Otherwise exactly one slot changes, the first free one. -/
theorem fillFree_some {xs : List α} {j : Nat} (h : (fillFree free fill xs).2 = some j) :
    ∃ x, xs[j]? = some x ∧ free x = true ∧ (fillFree free fill xs).1 = xs.set j (fill x) := by
  induction xs generalizing j with
  | nil => simp [fillFree] at h
  | cons y ys ih =>
    simp only [fillFree] at h ⊢
    split at h
    · rename_i hy
      simp only [Option.some.injEq] at h
      subst h
      exact ⟨y, rfl, hy, by simp [hy]⟩
    · rename_i hy
      obtain ⟨i, hi, rfl⟩ := Option.map_eq_some_iff.mp h
      obtain ⟨x, hx, hfree, heq⟩ := ih hi
      exact ⟨x, by simpa using hx, hfree, by simp [hy, heq]⟩

@[simp] theorem fillFree_length (xs : List α) :
    (fillFree free fill xs).1.length = xs.length := by
  cases h : (fillFree free fill xs).2 with
  | none => rw [(fillFree_none free fill h).1]
  | some j =>
    obtain ⟨x, -, -, heq⟩ := fillFree_some free fill h
    rw [heq, List.length_set]

/-- A free slot is enough for the write to happen. -/
theorem fillFree_of_free {xs : List α} {x : α} (hx : x ∈ xs) (hfree : free x = true) :
    ∃ j, (fillFree free fill xs).2 = some j := by
  cases h : (fillFree free fill xs).2 with
  | none =>
    have := (fillFree_none free fill h).2 x hx
    rw [hfree] at this
    cases this
  | some j => exact ⟨j, rfl⟩

end Fill

end Turpial.Lib
