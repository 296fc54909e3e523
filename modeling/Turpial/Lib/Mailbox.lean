/-
Turpial.Lib.Mailbox — mail for many addresses in one box, and who gets
which item when.

The history of such a box says what is put in at each time and which
addresses are emptied. An item waits from the time after it was put in
until its address is emptied next; `waiting` lists the items that wait at
one time, as a fold over the history that looks at nothing else.

The laws a box has to meet are facts about histories:

* `waiting_succ`, what one step does to the waiting items: those of an
  emptied address leave, the new one comes last. A box that does the same
  to its contents holds the waiting items at all times.
* `leavesAt_unique`, `exists_leavesAt` — an item leaves at most once, and
  it leaves by the time its address is emptied, if that ever happens.
-/
import Mathlib.Data.List.Basic
import Mathlib.Data.Nat.Find
import Mathlib.Tactic.Common

namespace Turpial.Lib

variable {δ ι : Type}

/-- What is put into a box at each time, and which addresses are emptied. -/
structure MailHistory (δ ι : Type) where
  put : Nat → Option (δ × ι)
  empties : Nat → δ → Bool

namespace MailHistory

variable (h : MailHistory δ ι)

/-- The address is not emptied after `j` and before `k`. -/
def Untouched (d : δ) (j k : Nat) : Prop := ∀ m < k, j < m → h.empties m d = false

instance (d : δ) (j k : Nat) : Decidable (h.Untouched d j k) :=
  inferInstanceAs (Decidable (∀ m < k, j < m → _))

/-- What was put in at `j`, if it still waits at `k`. -/
def waitsAt (k j : Nat) : Option (δ × ι) := (h.put j).filter fun a => h.Untouched a.1 j k

/-- The items that wait at `k`, the oldest first. -/
def waiting (k : Nat) : List (δ × ι) := (List.range k).filterMap (h.waitsAt k)

/-- What was put in at `j`, if it leaves the box at `k`: it waits, and its
address is emptied. -/
def leavesAt (k j : Nat) : Option (δ × ι) := (h.waitsAt k j).filter fun a => h.empties k a.1

/-- The items that leave the box at `k`. -/
def leaving (k : Nat) : List (δ × ι) := (List.range k).filterMap (h.leavesAt k)

/-! ## One step -/

variable {h}

theorem untouched_succ {d : δ} {j k : Nat} (hjk : j < k) :
    h.Untouched d j (k + 1) ↔ h.Untouched d j k ∧ h.empties k d = false := by
  constructor
  · intro hu
    exact ⟨fun m hm hj => hu m (Nat.lt_succ_of_lt hm) hj, hu k (Nat.lt_succ_self k) hjk⟩
  · rintro ⟨hu, hk⟩ m hm hj
    rcases Nat.lt_succ_iff_lt_or_eq.mp hm with hlt | rfl
    · exact hu m hlt hj
    · exact hk

theorem untouched_self (d : δ) (k : Nat) : h.Untouched d k (k + 1) :=
  fun _ hm hk => absurd hk (Nat.not_lt.mpr (Nat.lt_succ_iff.mp hm))

theorem waitsAt_succ {j k : Nat} (hjk : j < k) :
    h.waitsAt (k + 1) j = (h.waitsAt k j).filter fun a => !h.empties k a.1 := by
  unfold waitsAt
  rw [Option.filter_filter]
  congr 1
  funext a
  rw [Bool.eq_iff_iff, decide_eq_true_iff, untouched_succ hjk, Bool.and_eq_true,
    decide_eq_true_iff, Bool.not_eq_true']

theorem waitsAt_self (k : Nat) : h.waitsAt (k + 1) k = h.put k := by
  unfold waitsAt
  cases h.put k with
  | none => rfl
  | some a => exact if_pos (decide_eq_true (h.untouched_self a.1 k))

variable (h) in
@[simp] theorem waiting_zero : h.waiting 0 = [] := rfl

variable (h) in
/-- What is left of the waiting items, and the new one. -/
theorem waiting_succ (k : Nat) :
    h.waiting (k + 1) = (h.waiting k).filter (fun a => !h.empties k a.1) ++ (h.put k).toList := by
  unfold waiting
  rw [List.range_succ, List.filterMap_append]
  congr 1
  · rw [List.filter_filterMap]
    refine List.filterMap_congr fun j hj => waitsAt_succ (List.mem_range.mp hj)
  · rw [← waitsAt_self]
    cases hk : h.waitsAt (k + 1) k with
    | none => rw [List.filterMap_cons_none hk]; rfl
    | some a => rw [List.filterMap_cons_some hk]; rfl

variable (h) in
/-- The items that leave are the waiting ones of the emptied addresses. -/
theorem leaving_eq (k : Nat) : h.leaving k = (h.waiting k).filter fun a => h.empties k a.1 := by
  unfold leaving waiting
  rw [List.filter_filterMap]
  rfl

/-! ## Whole histories -/

theorem leavesAt_eq_some_iff {j k : Nat} {a : δ × ι} :
    h.leavesAt k j = some a ↔
      h.put j = some a ∧ h.Untouched a.1 j k ∧ h.empties k a.1 = true := by
  unfold leavesAt waitsAt
  rw [Option.filter_eq_some_iff, Option.filter_eq_some_iff, decide_eq_true_iff, and_assoc]

/-- An item leaves at most once. -/
theorem leavesAt_unique {j k k' : Nat} {a b : δ × ι} (hjk : j < k) (hjk' : j < k')
    (hk : h.leavesAt k j = some a) (hk' : h.leavesAt k' j = some b) : k = k' := by
  obtain ⟨ha, huntouched, hempties⟩ := leavesAt_eq_some_iff.mp hk
  obtain ⟨hb, huntouched', hempties'⟩ := leavesAt_eq_some_iff.mp hk'
  have hab : a = b := Option.some.inj (ha.symm.trans hb)
  subst hab
  have hnot : ∀ m m', j < m → h.empties m a.1 = true → h.Untouched a.1 j m' → m' ≤ m := by
    intro m m' hj hem hun
    refine Nat.le_of_not_lt fun hlt => ?_
    have hfalse := hun m hlt hj
    rw [hem] at hfalse
    cases hfalse
  exact Nat.le_antisymm (hnot k' k hjk' hempties' huntouched) (hnot k k' hjk hempties huntouched')

/-- An item leaves by the time its address is emptied. -/
theorem exists_leavesAt {j m : Nat} {a : δ × ι} (ha : h.put j = some a) (hjm : j < m)
    (hempties : h.empties m a.1 = true) :
    ∃ k, j < k ∧ k ≤ m ∧ h.leavesAt k j = some a := by
  have hex : ∃ k, j < k ∧ h.empties k a.1 = true := ⟨m, hjm, hempties⟩
  obtain ⟨hlt, hfirst⟩ := Nat.find_spec hex
  refine ⟨Nat.find hex, hlt, Nat.find_min' hex ⟨hjm, hempties⟩, ?_⟩
  refine leavesAt_eq_some_iff.mpr ⟨ha, fun i hi hj => ?_, hfirst⟩
  have hnot := Nat.find_min hex hi
  rw [not_and] at hnot
  exact Bool.eq_false_iff.mpr (hnot hj)

end MailHistory

end Turpial.Lib
