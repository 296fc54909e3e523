/-
Turpial.Riot.Ipv6 — IPv6 addresses and the two prefix routines of the RTOS
that the routing code leans on.

RIOT is not part of the repository; what is written down here is its
documented behaviour and nothing else:

* `ipv6AddrInitPrefix out pfx bits` copies the first `bits` bits of `pfx`
  and leaves the REST OF THE OUTPUT UNTOUCHED. It is not a mask: the host
  bits of whatever the output held before survive.
* `ipv6AddrMatchPrefix a b` is the length of the longest common prefix.

An address is a 128-bit vector, most significant bit first, so a prefix is
the set of high bits and `prefixMask n` selects it.
-/
import Mathlib.Data.BitVec
import Mathlib.Tactic.Common

namespace Turpial

/-- `ipv6_addr_t`. -/
abbrev Ipv6Addr := BitVec 128

/-- `ipv6_addr_unspecified`, the address `::`. -/
def ipv6AddrUnspecified : Ipv6Addr := 0#128

/-- `ipv6_addr_is_unspecified`. -/
def ipv6AddrIsUnspecified (a : Ipv6Addr) : Bool := a == ipv6AddrUnspecified

/-- The first `n` bits. -/
def prefixMask (n : Nat) : Ipv6Addr := BitVec.allOnes 128 <<< (128 - n)

/-- `ipv6_addr_init_prefix`: the first `bits` bits come from `pfx`, the
others stay what they were in `out`. -/
def ipv6AddrInitPrefix (out pfx : Ipv6Addr) (bits : Nat) : Ipv6Addr :=
  (pfx &&& prefixMask bits) ||| (out &&& ~~~ (prefixMask bits))

/-- `ipv6_addr_match_prefix`: length of the longest common prefix. -/
def ipv6AddrMatchPrefix (a b : Ipv6Addr) : Nat :=
  if a = b then 128 else 127 - (a ^^^ b).toNat.log2

/-- An address without host bits: everything beyond `n` bits is zero. -/
def HostBitsZero (a : Ipv6Addr) (n : Nat) : Prop := a &&& ~~~ (prefixMask n) = 0#128

instance (a : Ipv6Addr) (n : Nat) : Decidable (HostBitsZero a n) :=
  inferInstanceAs (Decidable (_ = _))

/-- The prefix of an address: its first `n` bits, the others zero. -/
def prefixOf (a : Ipv6Addr) (n : Nat) : Ipv6Addr := a &&& prefixMask n

/-! ## Bits of a prefix -/

/-- Bit `i` counted from the most significant one is in the mask exactly
when it is among the first `n`. -/
theorem getMsbD_prefixMask (n i : Nat) :
    (prefixMask n).getMsbD i = (decide (i < n) && decide (i < 128)) := by
  simp only [prefixMask, BitVec.getMsbD_shiftLeft, BitVec.getMsbD_allOnes]
  by_cases hn : n ≤ 128
  · by_cases hi : i < n <;> simp [hi] <;> omega
  · have : 128 - n = 0 := by omega
    by_cases hi : i < 128 <;> simp [this, hi]
    omega

theorem getMsbD_ipv6AddrInitPrefix (out pfx : Ipv6Addr) (n i : Nat) :
    (ipv6AddrInitPrefix out pfx n).getMsbD i =
      if i < n then pfx.getMsbD i else out.getMsbD i := by
  unfold ipv6AddrInitPrefix
  rw [BitVec.getMsbD_or, BitVec.getMsbD_and, BitVec.getMsbD_and, BitVec.getMsbD_not,
    getMsbD_prefixMask]
  by_cases h128 : i < 128
  · by_cases hi : i < n <;> simp [hi, h128]
  · have hge : 128 ≤ i := by omega
    simp [BitVec.getMsbD_of_ge _ _ hge]

/-- A full-length prefix is the whole address. -/
@[simp] theorem prefixMask_full : prefixMask 128 = BitVec.allOnes 128 := by decide

/-- Copying all 128 bits leaves nothing of the old output. -/
@[simp] theorem ipv6AddrInitPrefix_full (out pfx : Ipv6Addr) :
    ipv6AddrInitPrefix out pfx 128 = pfx := by
  apply BitVec.eq_of_getMsbD_eq
  intro i hi
  rw [getMsbD_ipv6AddrInitPrefix, if_pos hi]

/-- The copy gives back a prefix with zero host bits exactly when the old
output had zero host bits beyond its length. -/
theorem ipv6AddrInitPrefix_eq_iff {out pfx : Ipv6Addr} {n : Nat} (hp : HostBitsZero pfx n) :
    ipv6AddrInitPrefix out pfx n = pfx ↔ HostBitsZero out n := by
  constructor
  · intro h
    apply BitVec.eq_of_getMsbD_eq
    intro i hi
    have hpi := congrArg (·.getMsbD i) hp
    have hoi := congrArg (·.getMsbD i) h
    simp only [BitVec.getMsbD_and, BitVec.getMsbD_not, getMsbD_prefixMask,
      getMsbD_ipv6AddrInitPrefix] at hpi hoi ⊢
    by_cases hn : i < n
    · simp [hn, hi]
    · simp only [hn, if_false] at hoi
      rw [hoi]
      simpa using hpi
  · intro h
    apply BitVec.eq_of_getMsbD_eq
    intro i hi
    rw [getMsbD_ipv6AddrInitPrefix]
    split
    · rfl
    · rename_i hn
      have hpi := congrArg (·.getMsbD i) hp
      have hoi := congrArg (·.getMsbD i) h
      simp only [BitVec.getMsbD_and, BitVec.getMsbD_not, getMsbD_prefixMask, hn, hi,
        decide_false, Bool.not_false, Bool.and_true, decide_true] at hpi hoi
      rw [hpi, hoi]

/-! ## Longest common prefix -/

@[simp] theorem ipv6AddrMatchPrefix_self (a : Ipv6Addr) : ipv6AddrMatchPrefix a a = 128 := by
  simp [ipv6AddrMatchPrefix]

/-- Two addresses have one prefix when they agree on its bits. -/
theorem prefixOf_eq_iff {a b : Ipv6Addr} {n : Nat} :
    prefixOf a n = prefixOf b n ↔ ∀ i < n, a.getMsbD i = b.getMsbD i := by
  unfold prefixOf
  constructor
  · intro h i hi
    have hbit := congrArg (·.getMsbD i) h
    simp only [BitVec.getMsbD_and, getMsbD_prefixMask, hi, decide_true, Bool.true_and] at hbit
    by_cases h128 : i < 128
    · simpa [h128] using hbit
    · have hge : 128 ≤ i := Nat.le_of_not_lt h128
      rw [BitVec.getMsbD_of_ge _ _ hge, BitVec.getMsbD_of_ge _ _ hge]
  · intro h
    apply BitVec.eq_of_getMsbD_eq
    intro i hi
    rw [BitVec.getMsbD_and, BitVec.getMsbD_and, getMsbD_prefixMask]
    by_cases hn : i < n
    · rw [h i hn]
    · simp [hn]

/-- A common prefix of `n` bits is one prefix. -/
theorem le_ipv6AddrMatchPrefix_iff {a b : Ipv6Addr} {n : Nat} (hn : n ≤ 128) :
    n ≤ ipv6AddrMatchPrefix a b ↔ prefixOf a n = prefixOf b n := by
  unfold ipv6AddrMatchPrefix
  split
  · rename_i h
    exact ⟨fun _ => by rw [h], fun _ => hn⟩
  rename_i hne
  have hx : (a ^^^ b).toNat ≠ 0 := by
    intro h
    have hzero : a ^^^ b = 0#128 := BitVec.eq_of_toNat_eq h
    exact hne (BitVec.xor_eq_zero_iff.mp hzero)
  have hlog : (a ^^^ b).toNat.log2 < 128 := (Nat.log2_lt hx).mpr (a ^^^ b).isLt
  -- Bit `i` from the top is bit `127 - i` of the number.
  have hbit : ∀ i < 128, (a ^^^ b).getMsbD i = (a ^^^ b).toNat.testBit (127 - i) := by
    intro i hi
    rw [BitVec.getMsbD_eq_getLsbD, ← BitVec.testBit_toNat]
    simp [hi]
  have hle : n ≤ 127 - (a ^^^ b).toNat.log2 ↔ (a ^^^ b).toNat < 2 ^ (128 - n) := by
    rw [← Nat.log2_lt hx]
    omega
  rw [hle, prefixOf_eq_iff]
  constructor
  · intro hlt i hi
    have hfalse : (a ^^^ b).getMsbD i = false := by
      rw [hbit i (by omega)]
      refine Nat.testBit_lt_two_pow (Nat.lt_of_lt_of_le hlt ?_)
      exact Nat.pow_le_pow_right (by decide) (by omega)
    rw [BitVec.getMsbD_xor] at hfalse
    simpa using hfalse
  · intro h
    refine Nat.lt_pow_two_of_testBit _ fun j hj => ?_
    by_cases h128 : j < 128
    · have hat := hbit (127 - j) (by omega)
      rw [show 127 - (127 - j) = j by omega] at hat
      rw [← hat, BitVec.getMsbD_xor, h (127 - j) (by omega), Bool.xor_self]
    · refine Nat.testBit_lt_two_pow (Nat.lt_of_lt_of_le (a ^^^ b).isLt ?_)
      exact Nat.pow_le_pow_right (by decide) (by omega)

/-- An address without host bits is its own prefix. -/
theorem hostBitsZero_iff {a : Ipv6Addr} {n : Nat} : HostBitsZero a n ↔ prefixOf a n = a := by
  unfold HostBitsZero prefixOf
  constructor
  · intro h
    apply BitVec.eq_of_getMsbD_eq
    intro i hi
    have hbit := congrArg (·.getMsbD i) h
    simp only [BitVec.getMsbD_and, BitVec.getMsbD_not] at hbit ⊢
    cases hm : (prefixMask n).getMsbD i with
    | true => simp
    | false => simpa [hi, hm] using hbit.symm
  · intro h
    rw [← h, BitVec.and_assoc, BitVec.and_not_self]
    exact BitVec.and_zero

theorem hostBitsZero_prefixOf (a : Ipv6Addr) (n : Nat) : HostBitsZero (prefixOf a n) n := by
  unfold HostBitsZero prefixOf
  rw [BitVec.and_assoc, BitVec.and_not_self]
  exact BitVec.and_zero

/-- Copying an address or its prefix is the same. -/
theorem ipv6AddrInitPrefix_prefixOf (out a : Ipv6Addr) (n : Nat) :
    ipv6AddrInitPrefix out (prefixOf a n) n = ipv6AddrInitPrefix out a n := by
  unfold ipv6AddrInitPrefix prefixOf
  rw [BitVec.and_assoc, BitVec.and_self]

/-- Into a zeroed output the copy is a mask. -/
theorem ipv6AddrInitPrefix_unspecified (a : Ipv6Addr) (n : Nat) :
    ipv6AddrInitPrefix ipv6AddrUnspecified a n = prefixOf a n := by
  unfold ipv6AddrInitPrefix prefixOf ipv6AddrUnspecified
  rw [BitVec.zero_and, BitVec.or_zero]

end Turpial
