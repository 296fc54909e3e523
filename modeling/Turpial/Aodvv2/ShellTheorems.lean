/-
Turpial.Aodvv2.ShellTheorems — the prefix that the shell command
`aodvv2 rcs add <address>[/prefix]` adds (`shell_extended/sc_aodvv2.c`).

`_get_pfx_len` takes the number behind the slash as an `int`, replaces what
is below one by the default, and returns the rest as `uint8_t`. Only then
does `aodvv2_rcs_add` cut lengths above 128 back to 128. So a number above
255 is a short prefix if its low byte is one, and the prefix of all
addresses if that is zero.

§1 is the command, §2 what it adds, §3 which numbers it takes rightly.
-/
import Turpial.Aodvv2.RcsTheorems

namespace Turpial.Aodvv2

open Turpial.Lib

/-! ## §1 The command -/

/-- `_IPV6_DEFAULT_PREFIX_LEN`. -/
def ipv6DefaultPrefixLen : Int := 64

/-- `_get_pfx_len`, on what `ipv6_addr_split_int` returns. -/
def getPfxLen (splitInt : Int) : UInt8 :=
  let pfxLen := if splitInt < 1 then ipv6DefaultPrefixLen else splitInt
  -- The return type is narrower.
  UInt8.ofInt pfxLen

/-- `_rcs_add` of the shell, with the address if it can be read: what it
returns, and the client set. -/
def shellRcsAdd (splitInt : Int) (addr : Option Ipv6Addr) (rcs : RouterClientSet) :
    Int × RouterClientSet :=
  match addr with
  | none => (1, rcs)
  | some addr =>
    let added := rcsAdd addr (getPfxLen splitInt) 1 rcs
    match added.2 with
    | none => (1, added.1)
    | some _ => (0, added.1)

/-- The prefix length that a number stands for. -/
def shellPfxLen (splitInt : Int) : Nat :=
  if splitInt < 1 then 64 else if splitInt > 128 then 128 else splitInt.toNat

/-- The numbers that keep their meaning in eight bits. -/
def KeepsLength (splitInt : Int) : Prop := splitInt < 256 ∨ 128 ≤ splitInt % 256

instance (splitInt : Int) : Decidable (KeepsLength splitInt) :=
  inferInstanceAs (Decidable (_ ∨ _))

/-- An entry that one table holds in a slot that is free in another. -/
def Inserted (rcs rcs' : RouterClientSet) (e : RcsEntry) : Prop :=
  ∃ (i : Nat) (e₀ : RcsEntry), rcs[i]? = some e₀ ∧ e₀.used = false ∧ rcs'[i]? = some e ∧ e.used = true

/-- The command adds the prefix that it was given, and no other address
becomes a client's by it. -/
structure AddsGivenPrefix (splitInt : Int) (addr : Ipv6Addr) (rcs rcs' : RouterClientSet) :
    Prop where
  length : ∀ e, Inserted rcs rcs' e → e.pfxLen.toNat = shellPfxLen splitInt
  within : ∀ a, ¬ IsClient rcs a → IsClient rcs' a →
    prefixOf a (shellPfxLen splitInt) = prefixOf addr (shellPfxLen splitInt)
  not_all : ∀ e, Inserted rcs rcs' e → ∃ a, e.covers a = false

/-! ## §2 What is added -/

theorem getPfxLen_toNat (splitInt : Int) :
    (getPfxLen splitInt).toNat = if splitInt < 1 then 64 else (splitInt % 256).toNat := by
  unfold getPfxLen
  split
  · rfl
  · change (UInt8.ofNat (splitInt % 256).toNat).toNat = _
    rw [UInt8.toNat_ofNat']
    omega

/-- The length that is stored is the one that was meant exactly for the
numbers that keep their meaning. -/
theorem clampPfxLen_getPfxLen (splitInt : Int) :
    (clampPfxLen (getPfxLen splitInt)).toNat = shellPfxLen splitInt ↔ KeepsLength splitInt := by
  unfold shellPfxLen KeepsLength
  rw [clampPfxLen_toNat, getPfxLen_toNat]
  split
  · constructor
    · intro _
      omega
    · intro _
      rfl
  · split
    · omega
    · omega

/-- A prefix that is not empty does not cover all addresses. -/
theorem exists_not_covered {p : ClientPrefix} (h : 0 < p.len.toNat) : ∃ a, ¬ p.Covers a := by
  refine ⟨~~~p.addr, fun hcovers => ?_⟩
  have hsame : prefixOf (~~~p.addr) p.len.toNat = prefixOf p.addr p.len.toNat :=
    Eq.trans hcovers (hostBitsZero_iff.mp p.host).symm
  have hbit := prefixOf_eq_iff.mp hsame 0 h
  rw [BitVec.getMsbD_not] at hbit
  cases hb : p.addr.getMsbD 0 with
  | true =>
    rw [hb] at hbit
    cases hbit
  | false =>
    rw [hb] at hbit
    cases hbit

/-- The client set after the command is the one after `aodvv2_rcs_add`. -/
theorem shellRcsAdd_rcs (splitInt : Int) (addr : Ipv6Addr) (rcs : RouterClientSet) :
    (shellRcsAdd splitInt (some addr) rcs).2 = (rcsAdd addr (getPfxLen splitInt) 1 rcs).1 := by
  unfold shellRcsAdd
  dsimp only
  cases (rcsAdd addr (getPfxLen splitInt) 1 rcs).2 with
  | none => rfl
  | some i => rfl

theorem not_inserted_self {rcs : RouterClientSet} {e : RcsEntry} : ¬ Inserted rcs rcs e := by
  rintro ⟨i, e₀, he₀, hfree, he, hused⟩
  rw [he₀] at he
  cases he
  rw [hfree] at hused
  cases hused

/-- Writing one slot inserts at most what is written. -/
theorem inserted_set {rcs : RouterClientSet} {i : Nat} {e f : RcsEntry}
    (h : Inserted rcs (rcs.set i e) f) : f = e := by
  obtain ⟨j, e₀, he₀, hfree, hf, hused⟩ := h
  rcases getElem?_written_cases hf with ⟨-, heq⟩ | ⟨-, hsame⟩
  · exact heq
  · rw [he₀] at hsame
    cases hsame
    rw [hfree] at hused
    cases hused

section Command

variable {n : Nat} {rcs : RouterClientSet} {set : BoundedSet ClientPrefix n}

/-- A number that keeps its meaning adds the prefix that was given. -/
theorem shellRcsAdd_keeps (h : RcsInv rcs set) {splitInt : Int} (hkeeps : KeepsLength splitInt)
    (addr : Ipv6Addr) :
    AddsGivenPrefix splitInt addr rcs (shellRcsAdd splitInt (some addr) rcs).2 := by
  have hlen := (clampPfxLen_getPfxLen splitInt).mpr hkeeps
  rw [shellRcsAdd_rcs]
  have hout := h.add addr (getPfxLen splitInt) 1
  generalize rcsAdd addr (getPfxLen splitInt) 1 rcs = result at hout
  cases hout with
  | refused =>
    exact ⟨fun e he => absurd he not_inserted_self, fun a hno hyes => absurd hyes hno,
      fun e he => absurd he not_inserted_self⟩
  | @added i e hadmits inv client hcost slot =>
    obtain ⟨-, -, hlength⟩ := client?_eq_some.mp client
    refine ⟨fun f hf => ?_, fun a hno hyes => ?_, fun f hf => ?_⟩
    · rw [inserted_set hf, hlength]
      exact hlen
    · obtain ⟨p, hp, hcovers⟩ := (inv.isClient_isSome_iff a).mp hyes
      have hnew : p = ClientPrefix.of addr (getPfxLen splitInt) := by
        change p ∈ (set.add _).elems at hp
        rw [BoundedSet.add_of_admits hadmits, Finset.mem_insert] at hp
        refine hp.resolve_right fun hold => hno ?_
        exact (h.isClient_isSome_iff a).mpr ⟨p, hold, hcovers⟩
      rw [hnew] at hcovers
      rw [← hlen]
      exact hcovers
    · have hpos : 0 < (ClientPrefix.of addr (getPfxLen splitInt)).len.toNat := by
        change 0 < (clampPfxLen (getPfxLen splitInt)).toNat
        rw [hlen]
        unfold shellPfxLen
        split
        · decide
        · split
          · decide
          · omega
      obtain ⟨a, ha⟩ := exists_not_covered hpos
      rw [inserted_set hf]
      exact ⟨a, Bool.eq_false_iff.mpr fun hcovers => ha ((covers_iff client a).mp hcovers)⟩

/-- One that does not adds another prefix to an empty client set. -/
theorem keeps_of_shellRcsAdd (h : RcsInv rcs set) (hempty : ∀ e ∈ rcs, e.used = false)
    {splitInt : Int} {addr : Ipv6Addr}
    (hadmits : set.Admits (ClientPrefix.of addr (getPfxLen splitInt)))
    (hadds : AddsGivenPrefix splitInt addr rcs (shellRcsAdd splitInt (some addr) rcs).2) :
    KeepsLength splitInt := by
  rw [shellRcsAdd_rcs] at hadds
  have hout := h.add addr (getPfxLen splitInt) 1
  generalize rcsAdd addr (getPfxLen splitInt) 1 rcs = result at hadds hout
  cases hout with
  | refused hrefused => exact absurd hadmits hrefused
  | @added i e _ inv client hcost slot =>
    obtain ⟨hused, -, hlength⟩ := client?_eq_some.mp client
    have hold : rcs[i]? = some rcs[i] := List.getElem?_eq_getElem slot
    have hinserted : Inserted rcs (rcs.set i e) e :=
      ⟨i, rcs[i], hold, hempty _ (List.getElem_mem slot), getElem?_written hold e, hused⟩
    have hlen := hadds.length e hinserted
    rw [hlength] at hlen
    exact (clampPfxLen_getPfxLen splitInt).mp hlen

end Command

/-! ## §3 Which numbers are taken rightly -/

/-- **The shell adds the prefix it was given exactly for the numbers below
256 and those whose low byte is at least 128**, in every client set that
calls can lead to. -/
theorem shell_prefix_iff (addr : Ipv6Addr) (splitInt : Int) :
    (∀ (n : Nat) (calls : List RcsCall), AddsGivenPrefix splitInt addr
      (run rcsStep calls (rcsInit n))
      (shellRcsAdd splitInt (some addr) (run rcsStep calls (rcsInit n))).2) ↔
      splitInt < 256 ∨ 128 ≤ splitInt % 256 := by
  constructor
  · intro h
    have hempty : ∀ e ∈ rcsInit 1, e.used = false := fun e he => by
      rw [List.eq_of_mem_replicate he]
    exact keeps_of_shellRcsAdd (rcsInv_init 1) hempty ⟨Finset.notMem_empty _, Nat.one_pos⟩ (h 1 [])
  · intro hkeeps n calls
    exact shellRcsAdd_keeps (rcsInv_run n calls) hkeeps addr

/-- The length 256 comes out as zero, and the entry covers all addresses. -/
theorem shell_prefix_256 : ¬ ∀ (n : Nat) (calls : List RcsCall), AddsGivenPrefix 256 1#128
    (run rcsStep calls (rcsInit n))
    (shellRcsAdd 256 (some 1#128) (run rcsStep calls (rcsInit n))).2 := by
  intro h
  have hlen := (h 1 []).length { addr := 0#128, pfxLen := 0, cost := 1, used := true }
    ⟨0, {}, rfl, rfl, by decide +kernel, rfl⟩
  exact absurd hlen (by decide)

end Turpial.Aodvv2
