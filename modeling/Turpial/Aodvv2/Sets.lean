/-
Turpial.Aodvv2.Sets — the other tables of a router: the Router Client Set
(`aodvv2_rcs.c`), the packet buffer (`aodvv2_buffer.c`) and the
forwarding table of RIOT's neighbour information base.

The forwarding table is RTOS code that the repository does not hold. It is
a map from a prefix and its length to a next hop; adding and deleting
always succeed, and only the first `len` bits of the destination count.

Packets are known to the buffer by their address only, so they are
numbers here. The mutexes of the client set guard loops that are one step
of this model.
-/
import Turpial.Aodvv2.Message
import Turpial.Lib.Table

namespace Turpial.Aodvv2

open Turpial.Lib

/-! ## Router Client Set -/

/-- `aodvv2_rcs_entry_t` with the `used` flag of its `internal_entry_t`. -/
structure RcsEntry where
  addr : Ipv6Addr := ipv6AddrUnspecified
  pfxLen : UInt8 := 0
  cost : UInt8 := 0
  used : Bool := false
  deriving DecidableEq, Repr

/-- The static `_entries` of the client set. -/
abbrev RouterClientSet := List RcsEntry

/-- `aodvv2_rcs_init`, for a set of `n` slots. -/
def rcsInit (n : Nat) : RouterClientSet := List.replicate n {}

/-- The prefix of the entry covers the address. -/
def RcsEntry.covers (entry : RcsEntry) (addr : Ipv6Addr) : Bool :=
  decide (ipv6AddrMatchPrefix entry.addr addr ≥ entry.pfxLen.toNat)

/-- `aodvv2_rcs_matches`, as the slot the returned pointer points into. -/
def rcsMatches (addr : Ipv6Addr) (pfxLen : UInt8) (rcs : RouterClientSet) : Option Nat :=
  (scan (fun _ e => e)
    (fun _ e => e.used && e.pfxLen == clampPfxLen pfxLen && e.covers addr) rcs).2

/-- `aodvv2_rcs_is_client`. -/
def rcsIsClient (addr : Ipv6Addr) (rcs : RouterClientSet) : Option RcsEntry :=
  rcs.find? fun e => e.used && e.covers addr

/-- The section of `aodvv2_rcs_add` under its second lock: take a free slot. -/
def rcsFill (addr : Ipv6Addr) (pfxLen cost : UInt8) (rcs : RouterClientSet) :
    RouterClientSet × Option Nat :=
  fillFree (fun e => !e.used)
    (fun e => { addr := ipv6AddrInitPrefix e.addr addr (clampPfxLen pfxLen).toNat
                pfxLen := clampPfxLen pfxLen
                cost := cost
                used := true }) rcs

/-- `aodvv2_rcs_add`: a lookup and, if nothing was found, that section. -/
def rcsAdd (addr : Ipv6Addr) (pfxLen cost : UInt8) (rcs : RouterClientSet) :
    RouterClientSet × Option Nat :=
  match rcsMatches addr (clampPfxLen pfxLen) rcs with
  | some _ => (rcs, none)
  | none => rcsFill addr pfxLen cost rcs

/-- `aodvv2_rcs_del`. -/
def rcsDel (addr : Ipv6Addr) (pfxLen : UInt8) (rcs : RouterClientSet) : RouterClientSet :=
  match rcsMatches addr pfxLen rcs with
  | none => rcs
  | some i => rcs.set i {}

/-- `aodvv2_rcs_is_client(addr) != NULL`. -/
def IsClient (rcs : RouterClientSet) (addr : Ipv6Addr) : Prop := (rcsIsClient addr rcs).isSome = true

instance (rcs : RouterClientSet) (addr : Ipv6Addr) : Decidable (IsClient rcs addr) :=
  inferInstanceAs (Decidable (_ = _))

/-- The client that was found covers the address and is in the set. -/
theorem rcsIsClient_some {rcs : RouterClientSet} {addr : Ipv6Addr} {e : RcsEntry}
    (h : rcsIsClient addr rcs = some e) : e ∈ rcs ∧ e.used = true ∧ e.covers addr = true := by
  have hp := List.find?_some h
  rw [Bool.and_eq_true] at hp
  exact ⟨List.mem_of_find?_eq_some h, hp.1, hp.2⟩

/-- The client entry that covers an address is itself the address of a client. -/
theorem isClient_of_mem {rcs : RouterClientSet} {e : RcsEntry} {addr : Ipv6Addr} (he : e ∈ rcs)
    (hu : e.used = true) (hc : e.covers addr = true) : IsClient rcs addr := by
  unfold IsClient rcsIsClient
  rw [List.find?_isSome]
  exact ⟨e, he, by rw [hu, hc]; rfl⟩

/-! ## Packet buffer -/

/-- `buffered_pkt_t`. -/
structure BufferedPkt where
  used : Bool := false
  pkt : Option Nat := none
  dst : Ipv6Addr := ipv6AddrUnspecified
  deriving DecidableEq, Repr

/-- The static `_buffered_pkts`. -/
abbrev PacketBuffer := List BufferedPkt

/-- `aodvv2_buffer_init`, for a buffer of `n` slots. -/
def bufferInit (n : Nat) : PacketBuffer := List.replicate n {}

/-- `_pkt_del`. -/
def pktDel (e : BufferedPkt) : BufferedPkt := if e.used then {} else e

/-- `aodvv2_buffer_pkt_add`; `none` is the full buffer. -/
def bufferPktAdd (dst : Ipv6Addr) (pkt : Nat) (buf : PacketBuffer) : PacketBuffer × Option Nat :=
  fillFree (fun e => !e.used) (fun _ => { used := true, pkt := some pkt, dst := dst }) buf

/-- `aodvv2_buffer_dispatch`: the packets handed to IPv6 and the buffer
without them. The loop compares `dst` only, so a free slot can match. -/
def bufferDispatch (targAddr : Ipv6Addr) (buf : PacketBuffer) : PacketBuffer × List (Option Nat) :=
  (buf.map fun e => if e.dst == targAddr then pktDel e else e,
    (buf.filter fun e => e.dst == targAddr).map (·.pkt))

/-! ## Forwarding table -/

/-- The forwarding table of the NIB: the next hop for a prefix and its length. -/
abbrev Nib := Ipv6Addr → UInt8 → Option Ipv6Addr

/-- The table without routes. -/
def nibInit : Nib := fun _ _ => none

/-- `gnrc_ipv6_nib_ft_add`. -/
def nibFtAdd (dst : Ipv6Addr) (dstLen : UInt8) (nextHop : Ipv6Addr) (nib : Nib) : Nib :=
  fun p len => if p = prefixOf dst dstLen.toNat ∧ len = dstLen then some nextHop else nib p len

/-- `gnrc_ipv6_nib_ft_del`. -/
def nibFtDel (dst : Ipv6Addr) (dstLen : UInt8) (nib : Nib) : Nib :=
  fun p len => if p = prefixOf dst dstLen.toNat ∧ len = dstLen then none else nib p len

/-- Replacing a route under one key is adding it. -/
theorem nibFtAdd_del (dst : Ipv6Addr) (dstLen : UInt8) (nextHop : Ipv6Addr) (nib : Nib) :
    nibFtAdd dst dstLen nextHop (nibFtDel dst dstLen nib) = nibFtAdd dst dstLen nextHop nib := by
  funext p len
  unfold nibFtAdd nibFtDel
  split <;> rfl

end Turpial.Aodvv2
