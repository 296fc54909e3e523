/-
Turpial.Vaina.Server — the VAINA server of the mesh firmware
(`mesh/sys/net/vaina/vaina.c`, with the message type of `net/vaina.h`).

The payload of a message is a C union of four members. It is the memory
they share, and a member is where its fields lie in it. All four have
`pfx_len` first and the address right behind it, as `ipv6_addr_t` has no
alignment. `parseMsg` fills `nib_del` for both NIB messages: its branch
for them compares with `VAINA_MSG_RCS_ADD`, as the source does.

The two calls into the neighbour information base are RTOS code and come
as a parameter. The firmware is built with `aodvv2`, so the messages for
the client set are always compiled in.
-/
import Turpial.Aodvv2.Sets
import Turpial.Lib.Memory

namespace Turpial.Vaina

open Turpial.Lib Turpial.Aodvv2

/-! ## Messages -/

/-- `VAINA_MSG_ACK`. -/
def vainaMsgAck : UInt8 := 0

/-- `VAINA_MSG_NACK`. -/
def vainaMsgNack : UInt8 := 1

/-- `VAINA_MSG_RCS_ADD`. -/
def vainaMsgRcsAdd : UInt8 := 2

/-- `VAINA_MSG_RCS_DEL`. -/
def vainaMsgRcsDel : UInt8 := 3

/-- `VAINA_MSG_NIB_ADD`. -/
def vainaMsgNibAdd : UInt8 := 4

/-- `VAINA_MSG_NIB_DEL`. -/
def vainaMsgNibDel : UInt8 := 5

/-- `sizeof(ipv6_addr_t)`. -/
def sizeofIpv6Addr : Nat := 16

/-- A member of the payload union: the offsets of its fields. -/
structure Member where
  pfxLen : Nat
  ip : Nat

/-- `vaina_msg_rcs_add_t`. -/
def Member.rcsAdd : Member := ⟨0, 1⟩

/-- `vaina_msg_rcs_del_t`. -/
def Member.rcsDel : Member := ⟨0, 1⟩

/-- `vaina_msg_nib_add_t`. -/
def Member.nibAdd : Member := ⟨0, 1⟩

/-- `vaina_msg_nib_del_t`. -/
def Member.nibDel : Member := ⟨0, 1⟩

/-- `vaina_msg_t`. The defaults are the zeroed record. -/
structure VainaMsg where
  msg : UInt8 := 0
  seqno : UInt8 := 0
  payload : Memory := Memory.zeroed

/-- `payload.<member>.pfx_len`. -/
def VainaMsg.pfxLen (m : VainaMsg) (member : Member) : UInt8 := m.payload member.pfxLen

/-- `payload.<member>.ip`. -/
def VainaMsg.ip (m : VainaMsg) (member : Member) : Ipv6Addr :=
  ofOctets 128 (m.payload.load member.ip sizeofIpv6Addr)

/-- The assignment to `pfx_len` and the `memcpy` to `ip` of a member. -/
def VainaMsg.fill (m : VainaMsg) (member : Member) (pfxLen : UInt8) (ip : List UInt8) : VainaMsg :=
  { m with payload := (m.payload.store member.pfxLen [pfxLen]).store member.ip ip }

/-! ## Parsing -/

/-- The error codes of the server. -/
inductive Errno where
  | einval
  | enospc
  | enomem
  deriving DecidableEq, Repr

/-- `_parse_msg`, on the bytes that were received. -/
def parseMsg (buf : List UInt8) : Except Errno VainaMsg :=
  if buf.length < 2 then .error .einval
  else
    let type := buf.getD 0 0
    let seqno := buf.getD 1 0
    let ip := (buf.drop 3).take sizeofIpv6Addr
    if type = vainaMsgRcsAdd ∨ type = vainaMsgRcsDel then
      if buf.length < 2 + 1 + sizeofIpv6Addr then .error .einval
      else
        let vaina : VainaMsg := { msg := type, seqno := seqno }
        if vaina.msg = vainaMsgRcsAdd then .ok (vaina.fill .rcsAdd (buf.getD 2 0) ip)
        else .ok (vaina.fill .rcsDel (buf.getD 2 0) ip)
    else if type = vainaMsgNibAdd ∨ type = vainaMsgNibDel then
      if buf.length < 2 + 1 + sizeofIpv6Addr then .error .einval
      else
        let vaina : VainaMsg := { msg := type, seqno := seqno }
        -- Not `VAINA_MSG_NIB_ADD`.
        if vaina.msg = vainaMsgRcsAdd then .ok (vaina.fill .nibAdd (buf.getD 2 0) ip)
        else .ok (vaina.fill .nibDel (buf.getD 2 0) ip)
    else .error .einval

/-! ## Processing -/

/-- The forwarding-table calls of RIOT: `gnrc_ipv6_nib_ft_add` with its
result, and `gnrc_ipv6_nib_ft_del`. -/
structure NibApi (ν : Type) where
  ftAdd : (dst : Ipv6Addr) → (dstLen : UInt8) → (nextHop : Ipv6Addr) → (iface ltime : Nat) → ν →
    Int × ν
  ftDel : (dst : Ipv6Addr) → (dstLen : UInt8) → ν → ν

/-- What the server works on. -/
structure VainaServer (ν : Type) where
  rcs : RouterClientSet
  nib : ν

/-- The next hop of every entry the server adds, `fe80::1`. -/
def vainaNextHop : Ipv6Addr := 0xfe80#128 <<< 112 ||| 1#128

section Server

variable {ν : Type} (api : NibApi ν) (pid : Nat)

/-- `_process_msg`, with the process id of the network interface. -/
def processMsg (msg : VainaMsg) (s : VainaServer ν) : Except Errno Unit × VainaServer ν :=
  if msg.msg = vainaMsgRcsAdd then
    let added := rcsAdd (msg.ip .rcsAdd) (msg.pfxLen .rcsAdd) 1 s.rcs
    match added.2 with
    | none => (.error .enospc, { s with rcs := added.1 })
    | some _ => (.ok (), { s with rcs := added.1 })
  else if msg.msg = vainaMsgRcsDel then
    (.ok (), { s with rcs := rcsDel (msg.ip .rcsDel) (msg.pfxLen .rcsDel) s.rcs })
  else if msg.msg = vainaMsgNibAdd then
    let added := api.ftAdd (msg.ip .nibAdd) (msg.pfxLen .nibAdd) vainaNextHop pid 0 s.nib
    if added.1 < 0 then (.error .enomem, { s with nib := added.2 })
    else (.ok (), { s with nib := added.2 })
  else if msg.msg = vainaMsgNibDel then
    (.ok (), { s with nib := api.ftDel (msg.ip .nibDel) (msg.pfxLen .nibDel) s.nib })
  else (.error .einval, s)

/-- The bytes `_send_ack` sends. -/
def sendAck (msg : VainaMsg) (goodAck : Bool) : List UInt8 :=
  [if goodAck then vainaMsgAck else vainaMsgNack, msg.seqno]

/-- A result of `sock_udp_recv`: where the packet came from, and its bytes
unless the call failed. -/
structure Received where
  netif : Nat
  buf : Option (List UInt8)

/-- One turn of the loop of `_vaina_thread`, with what it sends. -/
def vainaThread (r : Received) (s : VainaServer ν) : VainaServer ν × List (List UInt8) :=
  if r.netif ≠ pid ∧ r.netif ≠ 0 then (s, [])
  else
    match r.buf with
    | none => (s, [])
    | some buf =>
      if buf.length = 0 then (s, [])
      else
        match parseMsg buf with
        | .error _ => (s, [])
        | .ok msg =>
          let processed := processMsg api pid msg s
          (processed.2, [sendAck msg processed.1.toBool])

end Server

end Turpial.Vaina
