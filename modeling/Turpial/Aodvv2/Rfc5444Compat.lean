/-
Turpial.Aodvv2.Rfc5444Compat — between `netaddr` and IPv6 addresses
(`rfc5444_compat.c`).

`netaddrToIpv6Addr` writes through a pointer to the old address and copies
only as many bits as the prefix is long, so the host bits of the old
address stay. A write is full when it leaves nothing of the old address.
-/
import Turpial.Aodvv2.Message
import Turpial.Rfc5444.Context

namespace Turpial.Aodvv2

open Turpial.Rfc5444

/-- `ipv6_addr_to_netaddr`. -/
def ipv6AddrToNetaddr (src : Ipv6Addr) (pfxLen : UInt8) : Netaddr where
  addr := src
  type := .inet6
  prefixLen := clampPfxLen pfxLen

/-- `netaddr_to_ipv6_addr`: the new value of `*dst`, and the prefix length. -/
def netaddrToIpv6Addr (src : Netaddr) (dst : Ipv6Addr) : Ipv6Addr × UInt8 :=
  if src.type = .unspec then (ipv6AddrUnspecified, 0)
  else
    let pfxLen := clampPfxLen src.prefixLen
    (ipv6AddrInitPrefix dst src.addr pfxLen.toNat, pfxLen)

/-- The prefix length that the conversion stores, whatever the old address. -/
def ipv6PfxLen (src : Netaddr) : UInt8 :=
  if src.type = .unspec then 0 else clampPfxLen src.prefixLen

@[simp] theorem netaddrToIpv6Addr_snd (src : Netaddr) (dst : Ipv6Addr) :
    (netaddrToIpv6Addr src dst).2 = ipv6PfxLen src := by
  unfold netaddrToIpv6Addr ipv6PfxLen
  split <;> rfl

@[simp] theorem ipv6PfxLen_netaddr (src : Ipv6Addr) (pfxLen : UInt8) :
    ipv6PfxLen (ipv6AddrToNetaddr src pfxLen) = clampPfxLen pfxLen :=
  clampPfxLen_clamp pfxLen

/-- There and back again: the first bits arrive, the host bits are those of
the address that was there. -/
@[simp] theorem netaddrToIpv6Addr_netaddr (src dst : Ipv6Addr) (pfxLen : UInt8) :
    (netaddrToIpv6Addr (ipv6AddrToNetaddr src pfxLen) dst).1 =
      ipv6AddrInitPrefix dst src (clampPfxLen pfxLen).toNat := by
  change ipv6AddrInitPrefix dst src (clampPfxLen (clampPfxLen pfxLen)).toNat = _
  rw [clampPfxLen_clamp]

/-- A write that leaves nothing of the old address. -/
def FullWrite (src : Netaddr) : Prop := src.type = .unspec ∨ 128 ≤ src.prefixLen.toNat

instance (src : Netaddr) : Decidable (FullWrite src) := inferInstanceAs (Decidable (_ ∨ _))

theorem netaddrToIpv6Addr_full {src : Netaddr} (h : FullWrite src) (dst dst' : Ipv6Addr) :
    (netaddrToIpv6Addr src dst).1 = (netaddrToIpv6Addr src dst').1 := by
  unfold netaddrToIpv6Addr
  split
  · rfl
  · rename_i hty
    have hlen : (clampPfxLen src.prefixLen).toNat = 128 := by
      have h128 := h.resolve_left hty
      unfold clampPfxLen
      split
      · rfl
      · rename_i hle
        have := UInt8.le_iff_toNat_le.mp (UInt8.not_lt.mp hle)
        exact Nat.le_antisymm this h128
    simp only [hlen, ipv6AddrInitPrefix_full]

/-- A write that is not full leaves the last bit alone. -/
theorem netaddrToIpv6Addr_last {src : Netaddr} (h : ¬ FullWrite src) (dst : Ipv6Addr) :
    (netaddrToIpv6Addr src dst).1.getMsbD 127 = dst.getMsbD 127 := by
  unfold FullWrite at h
  rw [not_or] at h
  unfold netaddrToIpv6Addr
  rw [if_neg h.1]
  have hlt : src.prefixLen.toNat < 128 := by omega
  rw [getMsbD_ipv6AddrInitPrefix, clampPfxLen_of_le (Nat.le_of_lt hlt), if_neg (by omega)]

/-! ## There and back -/

/-- What the conversion to a `netaddr` and back is to store: the prefix of
the address and its length, whatever was there before. -/
structure ConvertsBack (src : Ipv6Addr) (pfxLen : UInt8) (dst : Ipv6Addr) : Prop where
  addr : (netaddrToIpv6Addr (ipv6AddrToNetaddr src pfxLen) dst).1 =
    prefixOf src (min pfxLen.toNat 128)
  pfxLen : (netaddrToIpv6Addr (ipv6AddrToNetaddr src pfxLen) dst).2.toNat = min pfxLen.toNat 128

/-- **The conversion stores the prefix exactly when** the old address has no
bits behind it. Only the whole address comes back over any old one. -/
theorem convertsBack_iff (src : Ipv6Addr) (pfxLen : UInt8) :
    (∀ dst, ConvertsBack src pfxLen dst ↔ HostBitsZero dst (min pfxLen.toNat 128)) ∧
      ((∀ dst, ConvertsBack src pfxLen dst) ↔ 128 ≤ pfxLen.toNat) := by
  have hiff : ∀ dst, ConvertsBack src pfxLen dst ↔ HostBitsZero dst (min pfxLen.toNat 128) := by
    intro dst
    have haddr := netaddrToIpv6Addr_netaddr src dst pfxLen
    have hlen : (netaddrToIpv6Addr (ipv6AddrToNetaddr src pfxLen) dst).2.toNat =
        min pfxLen.toNat 128 := by
      rw [netaddrToIpv6Addr_snd, ipv6PfxLen_netaddr, clampPfxLen_toNat]
    rw [clampPfxLen_toNat, ← ipv6AddrInitPrefix_prefixOf] at haddr
    have hcopy := @ipv6AddrInitPrefix_eq_iff dst _ _
      (hostBitsZero_prefixOf src (min pfxLen.toNat 128))
    rw [← hcopy, ← haddr]
    exact ⟨fun h => h.addr, fun h => ⟨h, hlen⟩⟩
  refine ⟨hiff, ?_⟩
  simp only [hiff]
  constructor
  · intro h
    -- An old address with all bits set has none behind the prefix.
    have hones := h (BitVec.allOnes 128)
    rw [hostBitsZero_iff] at hones
    have hlast := congrArg (·.getMsbD 127) hones
    simp only [prefixOf, BitVec.getMsbD_and, getMsbD_prefixMask, BitVec.getMsbD_allOnes] at hlast
    simp at hlast
    exact hlast
  · intro h dst
    rw [Nat.min_eq_right h, hostBitsZero_iff]
    unfold prefixOf
    rw [prefixMask_full, BitVec.and_allOnes]

/-- A /64 written over `::1` keeps its last bit. -/
theorem convertsBack_keeps_host_bit : ¬ ConvertsBack (1#128 <<< 96) 64 1#128 := by
  intro h
  exact absurd h.addr (by decide)

end Turpial.Aodvv2
