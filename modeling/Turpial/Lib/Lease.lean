/-
Turpial.Lib.Lease — a bounded number of leases, and the slot tables that
keep them.

A lease is held by a key until a time. Renewing the lease of a key that
holds one moves its end; a key without one gets a lease while fewer than
`n` are held. Leases end by themselves, so nothing ever removes one.

A table keeps a lease in each slot: `key` and `till` read it off the slot.
Tables clear slots whose lease has ended lazily and in no particular
order; `Tracks` looks only at the leases that have not ended, and
therefore does not see which of the others were cleared.
-/
import Mathlib.Data.Set.Card
import Turpial.Lib.Slots

namespace Turpial.Lib

variable {α κ : Type}

/-! ## Leases -/

/-- The end of the lease of each key that was ever given one. -/
abbrev Leases (κ : Type) := κ → Option Nat

namespace Leases

/-- The keys whose lease has not ended. -/
def held (m : Leases κ) (now : Nat) : Set κ := {k | ∃ till ∈ m k, now ≤ till}

variable [DecidableEq κ]

open Classical in
/-- Renew the lease of `k` up to `till`, or give it one if fewer than `n`
are held. -/
noncomputable def renew (n now till : Nat) (k : κ) (m : Leases κ) : Leases κ :=
  if k ∈ m.held now ∨ (m.held now).ncard < n then Function.update m k (some till) else m

variable {n now till : Nat} {k : κ} {m : Leases κ}

theorem renew_of_room (h : k ∈ m.held now ∨ (m.held now).ncard < n) :
    m.renew n now till k = Function.update m k (some till) :=
  if_pos h

theorem renew_of_full (hk : k ∉ m.held now) (hfull : ¬ (m.held now).ncard < n) :
    m.renew n now till k = m :=
  if_neg (not_or.mpr ⟨hk, hfull⟩)

end Leases

/-! ## Tables of leases -/

section Tables

variable {key : α → Option κ} {till : α → Nat}

/-- The key of a slot whose lease has not ended. -/
def heldKey (key : α → Option κ) (till : α → Nat) (now : Nat) (x : α) : Option κ :=
  if now ≤ till x then key x else none

theorem heldKey_eq_some {now : Nat} {x : α} {k : κ} :
    heldKey key till now x = some k ↔ key x = some k ∧ now ≤ till x := by
  unfold heldKey
  by_cases h : now ≤ till x
  · rw [if_pos h]
    exact ⟨fun hk => ⟨hk, h⟩, fun hk => hk.1⟩
  · rw [if_neg h]
    exact ⟨fun hk => absurd hk (Option.some_ne_none k).symm, fun hk => absurd hk.2 h⟩

/-- The leases that have not ended are those in the table, each in one slot. -/
structure Tracks (key : α → Option κ) (till : α → Nat) (now : Nat) (xs : List α)
    (m : Leases κ) : Prop where
  distinct : DistinctKeys (heldKey key till now) xs
  leases : ∀ k r, now ≤ r → (m k = some r ↔ ∃ x ∈ xs, key x = some k ∧ till x = r)

variable {now : Nat} {xs ys : List α} {m : Leases κ}

/-- A table without leases. -/
theorem tracks_none (hfree : ∀ x ∈ xs, key x = none) :
    Tracks key till now xs (fun _ => none) where
  distinct := by
    unfold DistinctKeys
    rw [keys_of_free fun x hx => by unfold heldKey; rw [hfree x hx, ite_self]]
    exact List.nodup_nil
  leases := by
    intro k r _
    constructor
    · intro h
      cases h
    · rintro ⟨x, hx, hk, -⟩
      rw [hfree x hx] at hk
      cases hk

/-- Time passes. -/
theorem Tracks.later (h : Tracks key till now xs m) {now' : Nat} (hle : now ≤ now') :
    Tracks key till now' xs m where
  distinct := by
    apply distinctKeys_of_unique
    intro i j x y k hi hj hx hy
    obtain ⟨hxk, hxt⟩ := heldKey_eq_some.mp hx
    obtain ⟨hyk, hyt⟩ := heldKey_eq_some.mp hy
    exact h.distinct.unique hi hj (heldKey_eq_some.mpr ⟨hxk, hle.trans hxt⟩)
      (heldKey_eq_some.mpr ⟨hyk, hle.trans hyt⟩)
  leases := fun k r hr => h.leases k r (hle.trans hr)

/-- A key is held exactly when a slot holds it. -/
theorem Tracks.mem_held_iff (h : Tracks key till now xs m) {k : κ} :
    k ∈ m.held now ↔ ∃ x ∈ xs, heldKey key till now x = some k := by
  constructor
  · rintro ⟨r, hr, hle⟩
    obtain ⟨x, hx, hk, rfl⟩ := (h.leases k r hle).mp hr
    exact ⟨x, hx, heldKey_eq_some.mpr ⟨hk, hle⟩⟩
  · rintro ⟨x, hx, hk⟩
    obtain ⟨hk, hle⟩ := heldKey_eq_some.mp hk
    exact ⟨till x, (h.leases k _ hle).mpr ⟨x, hx, hk, rfl⟩, hle⟩

/-- As many leases are held as slots hold one. -/
theorem Tracks.held_ncard (h : Tracks key till now xs m) :
    (m.held now).ncard = (xs.filterMap (heldKey key till now)).length := by
  classical
  have heq : m.held now = ((xs.filterMap (heldKey key till now)).toFinset : Set κ) := by
    ext k
    rw [h.mem_held_iff, Finset.mem_coe, List.mem_toFinset, mem_keys]
  rw [heq, Set.ncard_coe_finset, List.toFinset_card_of_nodup h.distinct]

/-- There is room for a lease exactly when some slot does not hold one. -/
theorem Tracks.room_iff (h : Tracks key till now xs m) :
    (m.held now).ncard < xs.length ↔ ∃ x ∈ xs, heldKey key till now x = none := by
  rw [h.held_ncard]
  exact keys_length_lt_iff

/-- Slots without a lease may change into other such slots. -/
theorem Tracks.swept (h : Tracks key till now xs m)
    (hslot : ∀ (i : Nat) (y : α), ys[i]? = some y → xs[i]? = some y ∨ heldKey key till now y = none)
    (hheld : ∀ (i : Nat) (x : α) (k : κ), xs[i]? = some x → heldKey key till now x = some k →
      ys[i]? = some x) :
    Tracks key till now ys m where
  distinct := by
    apply distinctKeys_of_unique
    intro i j x y k hi hj hx hy
    have hi' := (hslot i x hi).resolve_right (by rw [hx]; exact Option.some_ne_none k)
    have hj' := (hslot j y hj).resolve_right (by rw [hy]; exact Option.some_ne_none k)
    exact h.distinct.unique hi' hj' hx hy
  leases := by
    intro k r hr
    rw [h.leases k r hr]
    constructor
    · rintro ⟨x, hx, hk, rfl⟩
      obtain ⟨i, hi⟩ := List.getElem?_of_mem hx
      have hkept := hheld i x k hi (heldKey_eq_some.mpr ⟨hk, hr⟩)
      exact ⟨x, List.mem_of_getElem? hkept, hk, rfl⟩
    · rintro ⟨y, hy, hk, rfl⟩
      obtain ⟨i, hi⟩ := List.getElem?_of_mem hy
      have hkey := heldKey_eq_some.mpr ⟨hk, hr⟩
      have hkept := (hslot i y hi).resolve_right (by rw [hkey]; exact Option.some_ne_none k)
      exact ⟨y, List.mem_of_getElem? hkept, hk, rfl⟩

variable [DecidableEq κ]

/-- Writing the slot of a key, or a slot without a lease for a key that
holds none, renews its lease. -/
theorem Tracks.write (h : Tracks key till now xs m) {i : Nat} {x y : α} {k : κ}
    (hi : xs[i]? = some x) (hy : key y = some k)
    (hx : heldKey key till now x = some k ∨
      (heldKey key till now x = none ∧ k ∉ m.held now)) :
    Tracks key till now (xs.set i y) (m.renew xs.length now (till y) k) := by
  have hroom : k ∈ m.held now ∨ (m.held now).ncard < xs.length := by
    rcases hx with hx | ⟨hx, -⟩
    · exact Or.inl (h.mem_held_iff.mpr ⟨x, List.mem_of_getElem? hi, hx⟩)
    · exact Or.inr (h.room_iff.mpr ⟨x, List.mem_of_getElem? hi, hx⟩)
  -- The key is in no other slot, and so is whatever else slot `i` held.
  have hother : ∀ j z, j ≠ i → xs[j]? = some z → heldKey key till now z ≠ some k := by
    intro j z hji hj hz
    rcases hx with hx | ⟨-, hnot⟩
    · exact hji (h.distinct.unique hj hi hz hx)
    · exact hnot (h.mem_held_iff.mpr ⟨z, List.mem_of_getElem? hj, hz⟩)
  rw [Leases.renew_of_room hroom]
  constructor
  · apply distinctKeys_of_unique
    intro a b u v k' ha hb hu hv
    have hown : ∀ {z}, heldKey key till now z = some k' → z = y → k' = k := by
      rintro z hz rfl
      exact Option.some.inj ((heldKey_eq_some.mp hz).1.symm.trans hy)
    rcases getElem?_written_cases ha with ⟨hai, hua⟩ | ⟨hai, ha'⟩
    · rcases getElem?_written_cases hb with ⟨hbi, -⟩ | ⟨hbi, hb'⟩
      · rw [hai, hbi]
      · exact absurd (hown hu hua ▸ hv) (hother b v hbi hb')
    · rcases getElem?_written_cases hb with ⟨hbi, hvb⟩ | ⟨hbi, hb'⟩
      · exact absurd (hown hv hvb ▸ hu) (hother a u hai ha')
      · exact h.distinct.unique ha' hb' hu hv
  · intro k' r hr
    by_cases hk : k' = k
    · subst hk
      rw [Function.update_self]
      constructor
      · intro heq
        cases heq
        exact ⟨y, List.mem_of_getElem? (getElem?_written hi y), hy, rfl⟩
      · rintro ⟨z, hz, hzk, rfl⟩
        obtain ⟨j, hj⟩ := List.getElem?_of_mem hz
        rcases getElem?_written_cases hj with ⟨-, rfl⟩ | ⟨hji, hj⟩
        · rfl
        · exact absurd (heldKey_eq_some.mpr ⟨hzk, hr⟩) (hother j z hji hj)
    · rw [Function.update_of_ne hk, h.leases k' r hr]
      constructor
      · rintro ⟨z, hz, hzk, rfl⟩
        obtain ⟨j, hj⟩ := List.getElem?_of_mem hz
        have hji : j ≠ i := by
          rintro rfl
          rw [hi] at hj
          cases hj
          rcases hx with hx | ⟨hx, -⟩
          · exact hk (Option.some.inj (hzk.symm.trans (heldKey_eq_some.mp hx).1))
          · rw [heldKey_eq_some.mpr ⟨hzk, hr⟩] at hx
            cases hx
        refine ⟨z, List.mem_of_getElem? (i := j) ?_, hzk, rfl⟩
        rw [List.getElem?_set_ne (Ne.symm hji), hj]
      · rintro ⟨z, hz, hzk, rfl⟩
        obtain ⟨j, hj⟩ := List.getElem?_of_mem hz
        rcases getElem?_written_cases hj with ⟨-, rfl⟩ | ⟨-, hj⟩
        · exact absurd (Option.some.inj (hzk.symm.trans hy)) hk
        · exact ⟨z, List.mem_of_getElem? hj, hzk, rfl⟩

/-- When every slot holds the lease of another key, a new key gets none. -/
theorem Tracks.full (h : Tracks key till now xs m) {k : κ} {r : Nat}
    (hfull : ∀ x ∈ xs, heldKey key till now x ≠ none) (hk : k ∉ m.held now) :
    m.renew xs.length now r k = m := by
  apply Leases.renew_of_full hk
  rw [h.room_iff]
  rintro ⟨x, hx, hnone⟩
  exact hfull x hx hnone

end Tables

end Turpial.Lib
