/-
Turpial.Rfc5444.Context — what the vendored RFC 5444 reader hands to its
consumers (`rfc5444_context.h`, `rfc5444_reader.h`, `netaddr.h`).

A pointer into the packet is the offset it points at together with the
byte that is there (`BytePtr`); `none` is the null pointer. A TLV has two
of them. `value` is where its own bytes start, if it has any. `singleValue`
is the public pointer that consumers dereference, and nothing in the
record ties it to `value`: `OwnsSingleValue` says when it does point into
the TLV's own bytes.
-/
import Turpial.Riot.Ipv6

namespace Turpial.Rfc5444

/-! ## Results -/

/-- The values of `enum rfc5444_result` that the reader and the consumers
of this repository return. `dropPacket` is the only one above zero. -/
inductive Rfc5444Result where
  | okay
  | dropPacket
  | unsupportedVersion
  | endOfBuffer
  | badTlvIdxflags
  | badTlvValueflags
  | badTlvLength
  | badTlvIndex
  | emptyAddrblock
  | badMsgTailflags
  | badMsgPrefixflags
  | badAddrHeadLength
  | badAddrTailLength
  | tooLarge
  deriving DecidableEq, Repr

/-- What stops the processor instead of returning. -/
inductive Fault where
  | nullDereference
  | divisionByZero
  | bufferOverflow
  deriving DecidableEq, Repr

/-- Why parsing or handling ends early. -/
inductive Stop where
  | result (r : Rfc5444Result)
  | fault (f : Fault)
  deriving DecidableEq, Repr

/-! ## Addresses -/

/-- The address types of `netaddr.h` that a length selects. -/
inductive AddrType where
  | unspec
  | inet
  | mac48
  | eui64
  | inet6
  deriving DecidableEq, Repr

/-- `struct netaddr`. The 16 bytes of `_addr` are one vector. -/
structure Netaddr where
  addr : Ipv6Addr := 0#128
  type : AddrType := .unspec
  prefixLen : UInt8 := 0
  deriving DecidableEq, Repr

/-! ## TLVs -/

/-- A pointer into the packet and the byte it points at. -/
structure BytePtr where
  pos : Nat
  byte : UInt8
  deriving DecidableEq, Repr

/-- `struct rfc5444_reader_tlvblock_entry`. The defaults are the zeroed record. -/
structure TlvEntry where
  type : UInt8 := 0
  flags : UInt8 := 0
  typeExt : UInt8 := 0
  index1 : UInt8 := 0
  index2 : UInt8 := 0
  length : Nat := 0
  value : Option Nat := none
  singleValue : Option BytePtr := none
  multivalue : Bool := false
  deriving DecidableEq, Repr

/-- `_order`: type and type extension as one number. -/
def TlvEntry.order (tlv : TlvEntry) : Nat := tlv.type.toNat * 256 + tlv.typeExt.toNat

/-- Offset of the value of one address among the values of a multi-value TLV. -/
def TlvEntry.valueOffset (tlv : TlvEntry) (idx : UInt8) : Nat :=
  if tlv.multivalue then (idx - tlv.index1).toNat * tlv.length else 0

/-- `single_value` points into the bytes that the TLV itself carries for
address `idx`. -/
def TlvEntry.OwnsSingleValue (tlv : TlvEntry) (idx : UInt8) : Prop :=
  ∃ start ptr, tlv.value = some start ∧ tlv.singleValue = some ptr ∧
    start + tlv.valueOffset idx ≤ ptr.pos ∧
      ptr.pos < start + tlv.valueOffset idx + tlv.length

/-! ## Contexts -/

/-- `struct rfc5444_reader_tlvblock_context` for one address, with the TLVs
that the consumer entries hold while its callback runs. -/
structure AddrContext where
  addr : Netaddr
  addrIndex : UInt8 := 0
  origSeqnum : Option TlvEntry := none
  targSeqnum : Option TlvEntry := none
  metric : Option TlvEntry := none
  deriving DecidableEq, Repr

/-- The address is there, or assembling it overruns its buffer. -/
abbrev AddrResult := Except Fault AddrContext

/-- A message as its consumers see it: type, hop limit if it has one, and
its addresses in order. -/
structure MessageContext where
  msgType : UInt8
  hopLimit : Option UInt8
  addrs : List AddrResult
  deriving DecidableEq

end Turpial.Rfc5444
