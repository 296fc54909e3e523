/-
Turpial.Lib.Slots — a slot table read as a bounded set of keys.

A slot is free or holds the key that `key` reads off it. As long as no key
is held twice (`DistinctKeys`), writing one slot is an operation on the set
of keys: filling a free slot inserts, freeing a slot erases, rewriting a
slot under its own key does nothing. The number of keys is the number of
slots that are not free, so there is a free slot exactly when the set is
below the size of the table.

`BoundedSet` is the set by itself, with its bound.
-/
import Mathlib.Data.Finset.Card
import Mathlib.Data.List.Perm.Basic
import Turpial.Lib.Table

namespace Turpial.Lib

variable {α κ : Type}

/-! ## Bounded sets -/

/-- A set of at most `n` elements. -/
structure BoundedSet (κ : Type) (n : Nat) where
  elems : Finset κ
  card_le : elems.card ≤ n

namespace BoundedSet

variable {n : Nat}

instance : Membership κ (BoundedSet κ n) := ⟨fun s k => k ∈ s.elems⟩

/-- The set without elements. -/
def empty (κ : Type) (n : Nat) : BoundedSet κ n := ⟨∅, Nat.zero_le n⟩

/-- There is room for the key, and it is new. -/
def Admits (s : BoundedSet κ n) (k : κ) : Prop := k ∉ s.elems ∧ s.elems.card < n

variable [DecidableEq κ]

instance (s : BoundedSet κ n) (k : κ) : Decidable (s.Admits k) :=
  inferInstanceAs (Decidable (_ ∧ _))

/-- Insert a key that the set admits; any other leaves it alone. -/
def add (k : κ) (s : BoundedSet κ n) : BoundedSet κ n :=
  if h : s.Admits k then
    ⟨insert k s.elems, by rw [Finset.card_insert_of_notMem h.1]; exact h.2⟩
  else s

/-- Remove a key. -/
def del (k : κ) (s : BoundedSet κ n) : BoundedSet κ n :=
  ⟨s.elems.erase k, Nat.le_trans (Finset.card_erase_le) s.card_le⟩

theorem add_of_admits {k : κ} {s : BoundedSet κ n} (h : s.Admits k) :
    (s.add k).elems = insert k s.elems := by
  unfold add
  rw [dif_pos h]

theorem add_of_not_admits {k : κ} {s : BoundedSet κ n} (h : ¬ s.Admits k) : s.add k = s := by
  unfold add
  rw [dif_neg h]

end BoundedSet

/-! ## Keys of a table -/

section Keys

variable (key : α → Option κ)

/-- No key is in two slots. -/
def DistinctKeys (xs : List α) : Prop := (xs.filterMap key).Nodup

variable {key}

theorem mem_keys {xs : List α} {k : κ} : k ∈ xs.filterMap key ↔ ∃ x ∈ xs, key x = some k :=
  List.mem_filterMap

/-- A table without keys. -/
theorem keys_of_free {xs : List α} (h : ∀ x ∈ xs, key x = none) : xs.filterMap key = [] :=
  List.filterMap_eq_nil_iff.mpr h

/-- Slots that hold one key are one slot. -/
theorem DistinctKeys.unique {xs : List α} (h : DistinctKeys key xs) {i j : Nat} {x y : α} {k : κ}
    (hi : xs[i]? = some x) (hj : xs[j]? = some y) (hx : key x = some k) (hy : key y = some k) :
    i = j := by
  induction xs generalizing i j with
  | nil => simp at hi
  | cons z zs ih =>
    have hzs : DistinctKeys key zs := List.Sublist.nodup (List.Sublist.filterMap key (by simp)) h
    have hhead : ∀ (m : Nat) (w : α), zs[m]? = some w → key z = some k → key w ≠ some k := by
      intro m w hm hz hw
      unfold DistinctKeys at h
      rw [List.filterMap_cons_some hz, List.nodup_cons] at h
      exact h.1 (mem_keys.mpr ⟨w, List.mem_of_getElem? hm, hw⟩)
    cases i with
    | zero =>
      cases j with
      | zero => rfl
      | succ j =>
        have hz : z = x := by simpa using hi
        exact absurd hy (hhead j y (by simpa using hj) (hz ▸ hx))
    | succ i =>
      cases j with
      | zero =>
        have hz : z = y := by simpa using hj
        exact absurd hx (hhead i x (by simpa using hi) (hz ▸ hy))
      | succ j =>
        have heq : i = j := ih hzs (by simpa using hi) (by simpa using hj)
        rw [heq]

/-- A key is in two slots only if they are one. -/
theorem distinctKeys_of_unique {xs : List α}
    (h : ∀ (i j : Nat) (x y : α) (k : κ), xs[i]? = some x → xs[j]? = some y → key x = some k →
      key y = some k → i = j) : DistinctKeys key xs := by
  induction xs with
  | nil => exact List.nodup_nil
  | cons z zs ih =>
    have htail : DistinctKeys key zs := ih fun i j x y k hi hj hx hy => by
      have heq := h (i + 1) (j + 1) x y k (by simpa using hi) (by simpa using hj) hx hy
      omega
    unfold DistinctKeys
    cases hz : key z with
    | none =>
      rw [List.filterMap_cons_none hz]
      exact htail
    | some k =>
      rw [List.filterMap_cons_some hz]
      refine List.nodup_cons.mpr ⟨fun hk => ?_, htail⟩
      obtain ⟨y, hy, hkey⟩ := mem_keys.mp hk
      obtain ⟨j, hj⟩ := List.getElem?_of_mem hy
      have heq := h 0 (j + 1) z y k rfl (by simpa using hj) hz hkey
      omega

/-- The keys are fewer than the slots exactly when a slot is free. -/
theorem keys_length_lt_iff {xs : List α} :
    (xs.filterMap key).length < xs.length ↔ ∃ x ∈ xs, key x = none := by
  induction xs with
  | nil => simp
  | cons x xs ih =>
    cases hx : key x with
    | none =>
      rw [List.filterMap_cons_none hx]
      have hle := List.length_filterMap_le key xs
      simp only [List.length_cons, List.mem_cons, exists_eq_or_imp, hx, true_or, iff_true]
      omega
    | some k =>
      rw [List.filterMap_cons_some hx]
      simp [ih, hx]

/-- The keys after one slot is written: those of the other slots, and the new one. -/
theorem keys_set_perm (key : α → Option κ) {xs : List α} {i : Nat} {x : α}
    (hi : xs[i]? = some x) (y : α) :
    ∃ rest, List.Perm (xs.filterMap key) ((key x).toList ++ rest) ∧
      List.Perm ((xs.set i y).filterMap key) ((key y).toList ++ rest) := by
  obtain ⟨hlt, rfl⟩ := List.getElem?_eq_some_iff.mp hi
  have hcons : ∀ z, ([z] : List α).filterMap key = (key z).toList := fun z => by
    cases hz : key z <;> simp [hz]
  refine ⟨(xs.eraseIdx i).filterMap key, ?_, ?_⟩
  · rw [← hcons, ← List.filterMap_append]
    exact ((List.getElem_cons_eraseIdx_perm hlt).symm).filterMap key
  · rw [← hcons, ← List.filterMap_append]
    exact (List.set_perm_cons_eraseIdx hlt y).filterMap key

/-- Filling a free slot with a new key. -/
theorem DistinctKeys.insert {xs : List α} (h : DistinctKeys key xs) {i : Nat} {x y : α} {k : κ}
    (hi : xs[i]? = some x) (hx : key x = none) (hy : key y = some k)
    (hnew : ∀ z ∈ xs, key z ≠ some k) :
    DistinctKeys key (xs.set i y) ∧
      ∀ k', k' ∈ (xs.set i y).filterMap key ↔ k' = k ∨ k' ∈ xs.filterMap key := by
  obtain ⟨rest, hbefore, hafter⟩ := keys_set_perm key hi y
  rw [hx, Option.toList_none, List.nil_append] at hbefore
  rw [hy, Option.toList_some, List.singleton_append] at hafter
  refine ⟨?_, fun k' => ?_⟩
  · refine hafter.nodup_iff.mpr (List.nodup_cons.mpr ⟨fun hk => ?_, hbefore.nodup_iff.mp h⟩)
    obtain ⟨z, hz, hkey⟩ := mem_keys.mp (hbefore.mem_iff.mpr hk)
    exact hnew z hz hkey
  · rw [hafter.mem_iff, hbefore.mem_iff, List.mem_cons]

/-- Freeing a slot. -/
theorem DistinctKeys.erase {xs : List α} (h : DistinctKeys key xs) {i : Nat} {x y : α} {k : κ}
    (hi : xs[i]? = some x) (hx : key x = some k) (hy : key y = none) :
    DistinctKeys key (xs.set i y) ∧
      ∀ k', k' ∈ (xs.set i y).filterMap key ↔ k' ≠ k ∧ k' ∈ xs.filterMap key := by
  obtain ⟨rest, hbefore, hafter⟩ := keys_set_perm key hi y
  rw [hx, Option.toList_some, List.singleton_append] at hbefore
  rw [hy, Option.toList_none, List.nil_append] at hafter
  obtain ⟨hnotin, hrest⟩ := List.nodup_cons.mp (hbefore.nodup_iff.mp h)
  refine ⟨hafter.nodup_iff.mpr hrest, fun k' => ?_⟩
  rw [hafter.mem_iff, hbefore.mem_iff, List.mem_cons]
  constructor
  · intro hk
    exact ⟨fun heq => hnotin (heq ▸ hk), Or.inr hk⟩
  · rintro ⟨hne, heq | hk⟩
    · exact absurd heq hne
    · exact hk

/-- Freeing a slot, whatever it holds. -/
theorem DistinctKeys.clear {xs : List α} (h : DistinctKeys key xs) (i : Nat) {y : α}
    (hy : key y = none) : DistinctKeys key (xs.set i y) := by
  cases hi : xs[i]? with
  | none =>
    rw [List.set_eq_of_length_le (List.getElem?_eq_none_iff.mp hi)]
    exact h
  | some x =>
    obtain ⟨rest, hbefore, hafter⟩ := keys_set_perm key hi y
    rw [hy, Option.toList_none, List.nil_append] at hafter
    have hnodup := hbefore.nodup_iff.mp h
    exact hafter.nodup_iff.mpr (List.nodup_append.mp hnodup).2.1

/-- Rewriting a slot under the key it has. -/
theorem DistinctKeys.rewrite {xs : List α} (h : DistinctKeys key xs) {i : Nat} {x y : α}
    (hi : xs[i]? = some x) (hxy : key y = key x) :
    DistinctKeys key (xs.set i y) ∧
      ∀ k', k' ∈ (xs.set i y).filterMap key ↔ k' ∈ xs.filterMap key := by
  obtain ⟨rest, hbefore, hafter⟩ := keys_set_perm key hi y
  rw [hxy] at hafter
  have hperm := hafter.trans hbefore.symm
  exact ⟨hperm.nodup_iff.mpr h, fun k' => hperm.mem_iff⟩

variable [DecidableEq κ]

/-- The table holds exactly the elements of a bounded set, each once. -/
structure Represents (key : α → Option κ) {n : Nat} (xs : List α) (s : BoundedSet κ n) : Prop where
  size : xs.length = n
  distinct : DistinctKeys key xs
  elems : (xs.filterMap key).toFinset = s.elems

variable {n : Nat}

theorem Represents.mem_iff {xs : List α} {s : BoundedSet κ n} (h : Represents key xs s) {k : κ} :
    k ∈ s ↔ ∃ x ∈ xs, key x = some k := by
  change k ∈ s.elems ↔ _
  rw [← h.elems, List.mem_toFinset, mem_keys]

/-- The set is full exactly when no slot is free. -/
theorem Represents.card_lt_iff {xs : List α} {s : BoundedSet κ n} (h : Represents key xs s) :
    s.elems.card < n ↔ ∃ x ∈ xs, key x = none := by
  rw [← keys_length_lt_iff, h.size, ← h.elems, List.toFinset_card_of_nodup h.distinct]

theorem represents_empty {xs : List α} (hfree : ∀ x ∈ xs, key x = none) :
    Represents key xs (BoundedSet.empty κ xs.length) where
  size := rfl
  distinct := by
    unfold DistinctKeys
    rw [keys_of_free hfree]
    exact List.nodup_nil
  elems := by
    rw [keys_of_free hfree]
    rfl

/-- Filling a free slot adds a key that the set admits. -/
theorem Represents.fill {xs : List α} {s : BoundedSet κ n} (h : Represents key xs s) {i : Nat}
    {x y : α} {k : κ} (hi : xs[i]? = some x) (hx : key x = none) (hy : key y = some k)
    (hnew : k ∉ s) : s.Admits k ∧ Represents key (xs.set i y) (s.add k) := by
  have hadmits : s.Admits k := ⟨hnew, h.card_lt_iff.mpr ⟨x, List.mem_of_getElem? hi, hx⟩⟩
  obtain ⟨hdistinct, hkeys⟩ := h.distinct.insert hi hx hy
    fun z hz hkey => hnew (h.mem_iff.mpr ⟨z, hz, hkey⟩)
  refine ⟨hadmits, by rw [List.length_set, h.size], hdistinct, ?_⟩
  rw [BoundedSet.add_of_admits hadmits, ← h.elems]
  ext k'
  rw [List.mem_toFinset, hkeys, Finset.mem_insert, List.mem_toFinset]

/-- Freeing the slot of a key removes it. -/
theorem Represents.free {xs : List α} {s : BoundedSet κ n} (h : Represents key xs s) {i : Nat}
    {x y : α} {k : κ} (hi : xs[i]? = some x) (hx : key x = some k) (hy : key y = none) :
    Represents key (xs.set i y) (s.del k) := by
  obtain ⟨hdistinct, hkeys⟩ := h.distinct.erase hi hx hy
  refine ⟨by rw [List.length_set, h.size], hdistinct, ?_⟩
  change _ = s.elems.erase k
  rw [← h.elems]
  ext k'
  rw [List.mem_toFinset, hkeys, Finset.mem_erase, List.mem_toFinset]

/-- Removing a key that is not there. -/
theorem Represents.absent {xs : List α} {s : BoundedSet κ n} (h : Represents key xs s) {k : κ}
    (hk : k ∉ s) : Represents key xs (s.del k) := by
  refine ⟨h.size, h.distinct, ?_⟩
  change _ = s.elems.erase k
  rw [h.elems]
  exact (Finset.erase_eq_of_notMem hk).symm

end Keys

end Turpial.Lib
