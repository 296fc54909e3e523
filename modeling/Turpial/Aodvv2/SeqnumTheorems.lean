/-
Turpial.Aodvv2.SeqnumTheorems — sequence numbers across the wrap
(`aodvv2_seqnum.c` with `aodvv2_seqnum_cmp`).

The counter skips 0, so it comes round after 65535 increments, and
`aodvv2_seqnum_cmp` works modulo 65536. A number that is `n` increments
ahead is `n` ahead modulo 65536, or `n + 1` where the counter came round in
between. Either way it is newer as long as that fits into an `int16_t`.
-/
import Turpial.Aodvv2.SeqnumThreads

namespace Turpial.Aodvv2

/-- The number of a counter that was incremented so often. -/
def seqnumAfter (increments : Nat) (c : SeqCounter) : SeqNum := seqnumGet (seqnumInc^[increments] c)

/-- An increment takes the counter to the next number of the cycle. -/
theorem seqnumInc_toNat {c : SeqCounter} {k : Nat} (h : c.toNat = k % 65535 + 1) :
    (seqnumInc c).toNat = (k + 1) % 65535 + 1 := by
  have hwrap : c ≥ 65535 ↔ 65535 ≤ k % 65535 + 1 := by
    rw [← h]
    exact UInt32.le_iff_toNat_le
  unfold seqnumInc
  by_cases hlast : c ≥ 65535
  · have hround : (k + 1) % 65535 = 0 := by
      have hle := hwrap.mp hlast
      omega
    rw [if_pos hlast, hround]
    rfl
  · have hless : k % 65535 + 1 < 65535 := Nat.lt_of_not_le fun hle => hlast (hwrap.mpr hle)
    rw [if_neg hlast, UInt32.toNat_add, h]
    change (k % 65535 + 1 + 1) % 2 ^ 32 = (k + 1) % 65535 + 1
    omega

/-- The counter goes through 1 to 65535, over and over. -/
theorem seqnumInc_iterate_toNat (k : Nat) : (seqnumInc^[k] seqnumInit).toNat = k % 65535 + 1 := by
  induction k with
  | zero => rfl
  | succ k ih =>
    rw [Function.iterate_succ_apply']
    exact seqnumInc_toNat ih

/-- After `k` increments the number is number `k` of the cycle. -/
theorem seqnumAfter_init (k : Nat) : seqnumAfter k seqnumInit = seqnumOf k :=
  seqnumGet_of_toNat (seqnumInc_iterate_toNat k)

/-- A number that is less than half of the number space ahead is newer by
what it is ahead. -/
theorem seqnumCmp_of_ahead {s t : SeqNum} {d : Nat} (hd : d < 32768)
    (h : t.toNat = (s.toNat + d) % 65536) : seqnumCmp s t = d := by
  have hs : s.toNat < 65536 := s.toNat_lt
  have hdiff : (t - s).toBitVec.toNat = d := by
    rw [UInt16.toBitVec_sub, BitVec.toNat_sub]
    change (2 ^ 16 - s.toNat + t.toNat) % 2 ^ 16 = d
    omega
  unfold seqnumCmp
  rw [BitVec.toInt_eq_toNat_cond, hdiff, if_pos (by omega)]

/-- The distance between two numbers of the cycle: one more where the
counter came round between them, as it skips 0. -/
theorem seqnumCmp_seqnumOf (k : Nat) {n : Nat} (hn : n ≤ 32766) :
    seqnumCmp (seqnumOf k) (seqnumOf (k + n)) =
      if k % 65535 + n < 65535 then (n : Int) else (n + 1 : Nat) := by
  by_cases hround : k % 65535 + n < 65535
  · rw [if_pos hround]
    refine seqnumCmp_of_ahead (by omega) ?_
    rw [seqnumOf_toNat, seqnumOf_toNat]
    omega
  · rw [if_neg hround]
    refine seqnumCmp_of_ahead (by omega) ?_
    rw [seqnumOf_toNat, seqnumOf_toNat]
    omega

/-- The comparison has the two numbers in order, both of which are not 0. -/
structure SeqnumsOrdered (old new : SeqNum) : Prop where
  old_range : 1 ≤ old.toNat ∧ old.toNat ≤ 65535
  new_range : 1 ≤ new.toNat ∧ new.toNat ≤ 65535
  newer : seqnumCmp old new > 0
  older : seqnumCmp new old < 0

theorem seqnumOf_range (k : Nat) : 1 ≤ (seqnumOf k).toNat ∧ (seqnumOf k).toNat ≤ 65535 := by
  rw [seqnumOf_toNat]
  omega

/-- **Sequence numbers stay ordered across the wrap**: the number that comes
up to 32766 increments later is the newer one, wherever the counter is. -/
theorem seqnums_ordered (k n : Nat) (hpos : 1 ≤ n) (hn : n ≤ 32766) :
    SeqnumsOrdered (seqnumAfter k seqnumInit)
      (seqnumAfter n (seqnumInc^[k] seqnumInit)) := by
  have hnew : seqnumAfter n (seqnumInc^[k] seqnumInit) = seqnumOf (k + n) := by
    rw [← seqnumAfter_init, Nat.add_comm k n]
    unfold seqnumAfter
    rw [Function.iterate_add_apply]
  have hnewer : seqnumCmp (seqnumOf k) (seqnumOf (k + n)) > 0 := by
    rw [seqnumCmp_seqnumOf k hn]
    split <;> omega
  rw [seqnumAfter_init, hnew]
  exact ⟨seqnumOf_range k, seqnumOf_range (k + n), hnewer, seqnumCmp_neg_iff.mpr (.inl hnewer)⟩

/-- From 65531 over 65535 to 6. -/
theorem seqnums_ordered_wrap :
    1 ≤ 10 ∧ 10 ≤ 32766 ∧
      SeqnumsOrdered (seqnumAfter 65530 seqnumInit)
        (seqnumAfter 10 (seqnumInc^[65530] seqnumInit)) :=
  ⟨by decide, by decide, seqnums_ordered 65530 10 (by decide) (by decide)⟩

end Turpial.Aodvv2
