/-
Turpial.Vaina.Peers — the two programs that talk to the VAINA server: the
client of the ESP32 firmware (`wifi/sys/net/vaina/vaina.c`) and the host
tool (`dist/tools/vaina/src/msg.rs`).

The client has a message type of its own. Its union has no prefix length
in the members for the client set, so their address is at offset 0, and
the NIB members are laid out as on the server. `serializeMsg` reads
`nib_del` for both of them.
-/
import Turpial.Vaina.Server

namespace Turpial.Vaina

open Turpial.Lib Turpial.Aodvv2

/-! ## The client of the ESP32 firmware -/

namespace Wifi

/-- `vaina_msg_t`. -/
structure VainaMsg where
  msg : UInt8
  seqno : UInt8
  payload : Memory

/-- The offset of `ip` in `vaina_msg_rcs_add_t`, its only field. -/
def rcsAddIp : Nat := 0

/-- The same for `vaina_msg_rcs_del_t`. -/
def rcsDelIp : Nat := 0

/-- `vaina_msg_nib_add_t`, whose first field is called `prefix`. -/
def nibAdd : Member := ⟨0, 1⟩

/-- `vaina_msg_nib_del_t`. -/
def nibDel : Member := ⟨0, 1⟩

/-- The bytes of the address at an offset of the payload. -/
def VainaMsg.ipBytes (m : VainaMsg) (offset : Nat) : List UInt8 :=
  m.payload.load offset sizeofIpv6Addr

/-- `_serialize_msg`: the bytes it writes, unless it returns -1. -/
def serializeMsg (m : VainaMsg) : Option (List UInt8) :=
  if m.msg = vainaMsgRcsAdd then some ([m.msg, m.seqno] ++ m.ipBytes rcsAddIp)
  else if m.msg = vainaMsgRcsDel then some ([m.msg, m.seqno] ++ m.ipBytes rcsDelIp)
  else if m.msg = vainaMsgNibAdd then
    some ([m.msg, m.seqno, m.payload nibDel.pfxLen] ++ m.ipBytes nibDel.ip)
  else if m.msg = vainaMsgNibDel then
    some ([m.msg, m.seqno, m.payload nibDel.pfxLen] ++ m.ipBytes nibDel.ip)
  else none

end Wifi

/-! ## The host tool -/

/-- `Message` of the host tool. -/
inductive Message where
  | ack (seqno : UInt8)
  | nack (seqno : UInt8)
  | rcsAdd (seqno pfx : UInt8) (ip : Ipv6Addr)
  | rcsDel (seqno pfx : UInt8) (ip : Ipv6Addr)
  | nibAdd (seqno pfx : UInt8) (ip : Ipv6Addr)
  | nibDel (seqno pfx : UInt8) (ip : Ipv6Addr)
  deriving DecidableEq, Repr

/-- `Message::seqno`. -/
def Message.seqno : Message → UInt8
  | .ack seqno => seqno
  | .nack seqno => seqno
  | .rcsAdd seqno .. => seqno
  | .rcsDel seqno .. => seqno
  | .nibAdd seqno .. => seqno
  | .nibDel seqno .. => seqno

/-- `Message::is_ack`. -/
def Message.isAck : Message → Bool
  | .ack _ => true
  | .nack _ => true
  | _ => false

/-- `Message::serialize`. Acknowledgements are not written. -/
def Message.serialize : Message → List UInt8
  | .ack _ => []
  | .nack _ => []
  | .rcsAdd seqno pfx ip => [vainaMsgRcsAdd, seqno, pfx] ++ octets sizeofIpv6Addr ip
  | .rcsDel seqno pfx ip => [vainaMsgRcsDel, seqno, pfx] ++ octets sizeofIpv6Addr ip
  | .nibAdd seqno pfx ip => [vainaMsgNibAdd, seqno, pfx] ++ octets sizeofIpv6Addr ip
  | .nibDel seqno pfx ip => [vainaMsgNibDel, seqno, pfx] ++ octets sizeofIpv6Addr ip

end Turpial.Vaina
