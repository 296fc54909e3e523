/-
Turpial.Lib.Memory — bytes in memory, and numbers as strings of octets.

A C union is the memory its members share, so what one member stores
another one can load. `Memory` is a map from offsets to bytes with
`store` (`memcpy` into it) and `load` (`memcpy` out of it).

`octets` and `ofOctets` turn a bit vector into its octets and back, the
most significant octet first (network order).
-/
import Mathlib.Data.BitVec
import Mathlib.Tactic.Common

namespace Turpial.Lib

/-! ## Memory -/

/-- A region of memory, by offset. -/
abbrev Memory := Nat → UInt8

/-- Memory after `memset` with zero. -/
def Memory.zeroed : Memory := fun _ => 0

/-- Write a string of bytes. -/
def Memory.store (m : Memory) (offset : Nat) (bytes : List UInt8) : Memory :=
  fun i => if offset ≤ i then bytes[i - offset]?.getD (m i) else m i

/-- Read `n` bytes. -/
def Memory.load (m : Memory) (offset n : Nat) : List UInt8 :=
  (List.range n).map fun i => m (offset + i)

@[simp] theorem Memory.load_length (m : Memory) (offset n : Nat) :
    (m.load offset n).length = n := by
  simp [Memory.load]

/-- What was stored is loaded again. -/
theorem Memory.load_store (m : Memory) (offset : Nat) (bytes : List UInt8) :
    (m.store offset bytes).load offset bytes.length = bytes := by
  refine List.ext_getElem (by simp) fun i h₁ h₂ => ?_
  simp [Memory.load, Memory.store, List.getElem?_eq_getElem h₂]

/-! ## Octets -/

variable {w : Nat}

/-- The low octet of a bit vector. -/
def lowOctet (x : BitVec w) : UInt8 := UInt8.ofBitVec (x.setWidth 8)

/-- The last `n` octets, the most significant one first. -/
def octets : Nat → BitVec w → List UInt8
  | 0, _ => []
  | n + 1, x => octets n (x >>> 8) ++ [lowOctet x]

/-- The bit vector with these octets. -/
def ofOctets (w : Nat) (bytes : List UInt8) : BitVec w :=
  bytes.foldl (fun x b => x <<< 8 ||| b.toBitVec.setWidth w) 0#w

@[simp] theorem octets_length (n : Nat) (x : BitVec w) : (octets n x).length = n := by
  induction n generalizing x with
  | zero => rfl
  | succ n ih => simp [octets, ih]

theorem ofOctets_snoc (bytes : List UInt8) (b : UInt8) :
    ofOctets w (bytes ++ [b]) = ofOctets w bytes <<< 8 ||| b.toBitVec.setWidth w := by
  simp [ofOctets, List.foldl_append]

/-- Bit by bit: the last octet is lowest. -/
theorem getLsbD_ofOctets_snoc (bytes : List UInt8) (b : UInt8) (i : Nat) :
    (ofOctets w (bytes ++ [b])).getLsbD i =
      (decide (i < w) && if i < 8 then b.toBitVec.getLsbD i else (ofOctets w bytes).getLsbD (i - 8)) := by
  rw [ofOctets_snoc, BitVec.getLsbD_or, BitVec.getLsbD_shiftLeft, BitVec.getLsbD_setWidth]
  by_cases hw : i < w
  · by_cases h8 : i < 8
    · simp [hw, h8]
    · have hhigh : b.toBitVec.getLsbD i = false := BitVec.getLsbD_of_ge _ _ (by omega)
      simp [hw, h8, hhigh]
  · simp [hw]

/-- There is nothing above the octets. -/
theorem getLsbD_ofOctets_ge (bytes : List UInt8) {i : Nat} (hi : 8 * bytes.length ≤ i) :
    (ofOctets w bytes).getLsbD i = false := by
  induction bytes using List.reverseRecOn generalizing i with
  | nil => simp [ofOctets]
  | append_singleton bytes b ih =>
    rw [List.length_append, List.length_singleton] at hi
    rw [getLsbD_ofOctets_snoc, if_neg (by omega), ih (by omega), Bool.and_false]

/-- Octets of a number that has no more make it up again. -/
theorem ofOctets_octets {n : Nat} (x : BitVec w) (h : w ≤ 8 * n) : ofOctets w (octets n x) = x := by
  have hlow : ∀ (n : Nat) (x : BitVec w) (i : Nat), i < 8 * n →
      (ofOctets w (octets n x)).getLsbD i = x.getLsbD i := by
    intro n
    induction n with
    | zero => intro x i hi; omega
    | succ n ih =>
      intro x i hi
      rw [octets, getLsbD_ofOctets_snoc]
      by_cases hw : i < w
      · by_cases h8 : i < 8
        · simp [hw, h8, lowOctet]
        · rw [if_neg h8, ih _ _ (by omega), BitVec.getLsbD_ushiftRight]
          simp [hw, show 8 + (i - 8) = i by omega]
      · rw [BitVec.getLsbD_of_ge x i (by omega)]
        simp [hw]
  apply BitVec.eq_of_getLsbD_eq
  intro i hi
  exact hlow n x i (by omega)

/-- The octets of a number that they fit into. -/
theorem octets_ofOctets (bytes : List UInt8) (h : 8 * bytes.length ≤ w) :
    octets bytes.length (ofOctets w bytes) = bytes := by
  induction bytes using List.reverseRecOn with
  | nil => rfl
  | append_singleton bytes b ih =>
    rw [List.length_append, List.length_singleton] at h ⊢
    have hlow : lowOctet (ofOctets w (bytes ++ [b])) = b := by
      apply UInt8.toBitVec_inj.mp
      apply BitVec.eq_of_getLsbD_eq
      intro i hi
      change ((ofOctets w (bytes ++ [b])).setWidth 8).getLsbD i = _
      rw [BitVec.getLsbD_setWidth, getLsbD_ofOctets_snoc]
      simp [hi, show i < w by omega]
    have hhigh : ofOctets w (bytes ++ [b]) >>> 8 = ofOctets w bytes := by
      apply BitVec.eq_of_getLsbD_eq
      intro i hi
      rw [BitVec.getLsbD_ushiftRight, getLsbD_ofOctets_snoc, if_neg (by omega)]
      by_cases hw : 8 + i < w
      · simp [hw]
      · rw [getLsbD_ofOctets_ge bytes (by omega : 8 * bytes.length ≤ i)]
        simp [hw]
    rw [octets, hhigh, hlow, ih (by omega)]

end Turpial.Lib
