/-
Turpial.Aodvv2.Writer — the writer callbacks (`aodvv2_writer.c`) and the
thread that runs them on posted messages.

A message on the wire is its type, its hop limit and its addresses in
order, each with its TLVs (`WireMessage`). `WireMessage.context` is what the
reader's consumers are called with for it; `Turpial.Aodvv2.PacketTheorems`
shows that the bytes of its packet amount to that. `rfc5444_writer_add_address`
keeps one entry for equal addresses, so OrigNode and TargNode under the
same prefix share theirs.

The RREP callback takes TargNode's sequence number from the router's own
counter and increments it, on a relay as well as on TargNode's router.
-/
import Turpial.Aodvv2.Reader

namespace Turpial.Aodvv2

open Turpial.Rfc5444

/-! ## Messages on the wire -/

/-- An address TLV with its value bytes. -/
structure WireTlv where
  type : UInt8
  typeExt : UInt8 := 0
  value : List UInt8
  deriving DecidableEq, Repr

/-- An address with its TLVs (`struct rfc5444_writer_address`). -/
structure WireAddr where
  addr : Netaddr
  tlvs : List WireTlv := []
  deriving DecidableEq, Repr

/-- A message with a hop limit and no originator, hop count or sequence number. -/
structure WireMessage where
  msgType : UInt8
  hopLimit : UInt8
  addrs : List WireAddr
  deriving DecidableEq, Repr

/-- `rfc5444_writer_add_address`: the addresses, and the entry the returned
pointer points at. -/
def addAddress (addr : Netaddr) (addrs : List WireAddr) : List WireAddr × Nat :=
  match addrs.findIdx? (fun a => a.addr == addr) with
  | some i => (addrs, i)
  | none => (addrs ++ [{ addr }], addrs.length)

/-- `rfc5444_writer_add_addrtlv` without `allow_dup`. -/
def addAddrtlv (i : Nat) (tlv : WireTlv) (addrs : List WireAddr) : List WireAddr :=
  addrs.modify i fun a =>
    if a.tlvs.any (fun t => t.type == tlv.type && t.typeExt == tlv.typeExt) then a
    else { a with tlvs := a.tlvs ++ [tlv] }

/-- The bytes of a `uint16_t` in memory. -/
def bytesOfU16 (v : UInt16) : List UInt8 := [v.toUInt8, (v >>> 8).toUInt8]

/-! ## Writer callbacks -/

/-- The guard of the writer on prefix lengths. -/
def writerPfxLen (pfxLen : UInt8) : UInt8 := if pfxLen = 0 ∨ pfxLen > 128 then 128 else pfxLen

/-- The address of a node as the writer adds it. -/
def NodeData.netaddr (node : NodeData) : Netaddr :=
  ipv6AddrToNetaddr node.addr (writerPfxLen node.pfxLen)

/-- The ORIGSEQNUM TLV. -/
def origSeqnumTlv (seqnum : SeqNum) : WireTlv where
  type := msgtlvOrigseqnum
  value := bytesOfU16 seqnum

/-- The TARGSEQNUM TLV. -/
def targSeqnumTlv (seqnum : SeqNum) : WireTlv where
  type := msgtlvTargseqnum
  value := bytesOfU16 seqnum

/-- The METRIC TLV. -/
def metricTlv (metric : UInt8) : WireTlv where
  type := msgtlvMetric
  typeExt := defaultMetric
  value := [metric]

/-- `_cb_rreq_add_addresses`. -/
def cbRreqAddAddresses (msg : Message) : List WireAddr :=
  let orig := addAddress msg.origNode.netaddr []
  let targ := addAddress msg.targNode.netaddr orig.1
  addAddrtlv orig.2 (metricTlv msg.origNode.metric)
    (addAddrtlv orig.2 (origSeqnumTlv msg.origNode.seqnum) targ.1)

/-- `_cb_rrep_add_addresses`, with the own sequence number it takes. -/
def cbRrepAddAddresses (seqnum : SeqCounter) (msg : Message) : SeqCounter × List WireAddr :=
  let targNodeSeqnum := seqnumGet seqnum
  let orig := addAddress msg.origNode.netaddr []
  let targ := addAddress msg.targNode.netaddr orig.1
  (seqnumInc seqnum,
    addAddrtlv targ.2 (metricTlv msg.targNode.metric)
      (addAddrtlv targ.2 (targSeqnumTlv targNodeSeqnum)
        (addAddrtlv orig.2 (origSeqnumTlv msg.origNode.seqnum) targ.1)))

/-- `aodvv2_writer_send_rreq`; the header is from `_cb_add_message_header`. -/
def writerSendRreq (msg : Message) : WireMessage where
  msgType := msgtypeRreq
  hopLimit := msg.msgHopLimit
  addrs := cbRreqAddAddresses msg

/-- `aodvv2_writer_send_rrep`. -/
def writerSendRrep (seqnum : SeqCounter) (msg : Message) : SeqCounter × WireMessage :=
  let written := cbRrepAddAddresses seqnum msg
  (written.1, { msgType := msgtypeRrep, hopLimit := msg.msgHopLimit, addrs := written.2 })

/-- Where a packet is sent: to all neighbours, or to one address. -/
inductive Destination where
  | allManetRouters
  | unicast (addr : Ipv6Addr)
  deriving DecidableEq, Repr

/-- `_send_rreq` and `_send_rrep` on the oldest message of the queue. -/
def transmit (s : Node) : Option (Destination × WireMessage) × Node :=
  match s.outbox with
  | [] => (none, s)
  | .rreq pkt :: rest => (some (.allManetRouters, writerSendRreq pkt), { s with outbox := rest })
  | .rrep pkt hop :: rest =>
    let written := writerSendRrep s.router.seqnum pkt
    (some (.unicast hop, written.2),
      { s with outbox := rest, router := { s.router with seqnum := written.1 } })

/-! ## What the reader makes of it -/

/-- The entry of a TLV, with pointers relative to its own value. -/
def WireTlv.entry (tlv : WireTlv) : TlvEntry where
  type := tlv.type
  typeExt := tlv.typeExt
  length := tlv.value.length
  value := if tlv.value.isEmpty then none else some 0
  singleValue := tlv.value.head?.map (BytePtr.mk 0)

/-- The first TLV of a type. -/
def WireAddr.consumerEntryTlv (a : WireAddr) (type : UInt8) : Option TlvEntry :=
  (a.tlvs.find? fun tlv => tlv.type == type).map WireTlv.entry

/-- The context of an address. -/
def WireAddr.context (a : WireAddr) : AddrContext where
  addr := a.addr
  origSeqnum := a.consumerEntryTlv msgtlvOrigseqnum
  targSeqnum := a.consumerEntryTlv msgtlvTargseqnum
  metric := a.consumerEntryTlv msgtlvMetric

/-- The context of a message. -/
def WireMessage.context (msg : WireMessage) : MessageContext where
  msgType := msg.msgType
  hopLimit := some msg.hopLimit
  addrs := (msg.addrs.map WireAddr.context).map .ok

/-! ## Small facts -/

theorem writerPfxLen_of_le {pfxLen : UInt8} (h₀ : pfxLen ≠ 0) (h : pfxLen ≤ 128) :
    writerPfxLen pfxLen = pfxLen := by
  unfold writerPfxLen
  rw [if_neg]
  rintro (h' | h')
  · exact h₀ h'
  · exact UInt8.not_lt.mpr h h'

/-- Two addresses written one after the other, with different entries. -/
theorem addAddress_ne {a b : Netaddr} (h : a ≠ b) :
    addAddress b (addAddress a []).1 = ([{ addr := a }, { addr := b }], 1) := by
  simp [addAddress, List.findIdx?_cons, h]

theorem addAddress_same (a : Netaddr) :
    addAddress a (addAddress a []).1 = ([{ addr := a }], 0) := by
  simp [addAddress, List.findIdx?_cons]

theorem addAddress_nil (a : Netaddr) : addAddress a [] = ([{ addr := a }], 0) := rfl

end Turpial.Aodvv2
