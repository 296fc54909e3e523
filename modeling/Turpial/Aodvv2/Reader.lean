/-
Turpial.Aodvv2.Reader — the RREQ and RREP callbacks (`aodvv2_reader.c`).

A message goes through three callbacks: one for its header, one for every
address, and the end callback that acts on the router. They talk to each
other only through the static record `_msg_data`, which no one clears.

`Callback` is the monad of the address callbacks: the record, a trace of
the TLVs whose `single_value` was dereferenced, and the fault of
dereferencing a null pointer. The trace is bookkeeping for the theorems.

The end callbacks share the create-or-improve step on the two route
tables; it is `updateRoute`, at the node and the fill function of the
message type. In its improve branch the old forwarding entry is deleted
through the route that has ALREADY been overwritten, as in the source.
-/
import Turpial.Aodvv2.Router
import Turpial.Aodvv2.Rfc5444Compat
import Turpial.Rfc5444.Reader

namespace Turpial.Aodvv2

open Turpial.Rfc5444

/-! ## Address callbacks -/

/-- A dereference of `tlv->single_value`, for the address with an index. -/
structure TlvRead where
  addrIndex : UInt8
  tlv : TlvEntry
  deriving DecidableEq, Repr

/-- The static record, and the dereferences made so far. -/
structure CbState where
  msgData : Message
  reads : List TlvRead := []
  deriving DecidableEq, Repr

/-- A callback: it returns a result or faults, and leaves a record either way. -/
abbrev Callback (α : Type) := ExceptT Fault (StateM CbState) α

/-- `*tlv->single_value`. -/
def derefSingleValue (cont : AddrContext) (tlv : TlvEntry) : Callback UInt8 := fun s =>
  let s := { s with reads := s.reads ++ [⟨cont.addrIndex, tlv⟩] }
  match tlv.singleValue with
  | some ptr => (.ok ptr.byte, s)
  | none => (.error .nullDereference, s)

/-- Write to `_msg_data`. -/
def writeMsg (f : Message → Message) : Callback Unit := fun s =>
  (.ok (), { s with msgData := f s.msgData })

/-- Write to `_msg_data` under a condition. -/
def writeIf (p : Bool) (f : Message → Message) : Callback Unit :=
  if p then writeMsg f else pure ()

/-- `if (tlv) { … }`. -/
def ifTlv (tlv : Option TlvEntry) (body : TlvEntry → Callback Unit) : Callback Unit :=
  match tlv with
  | some tlv => body tlv
  | none => pure ()

/-! The assignments the address callbacks make. -/

/-- `netaddr_to_ipv6_addr` into OrigNode. -/
def Message.setOrigAddr (src : Netaddr) (d : Message) : Message :=
  let new := netaddrToIpv6Addr src d.origNode.addr
  { d with origNode.addr := new.1, origNode.pfxLen := new.2 }

/-- `netaddr_to_ipv6_addr` into TargNode. -/
def Message.setTargAddr (src : Netaddr) (d : Message) : Message :=
  let new := netaddrToIpv6Addr src d.targNode.addr
  { d with targNode.addr := new.1, targNode.pfxLen := new.2 }

/-- `netaddr_to_ipv6_addr` into OrigNode as the RREP callback calls it, with
a pointer to the prefix length of TargNode. -/
def Message.setOrigAddrRrep (src : Netaddr) (d : Message) : Message :=
  let new := netaddrToIpv6Addr src d.origNode.addr
  { d with origNode.addr := new.1, targNode.pfxLen := new.2 }

/-- The one byte of a value, stored as OrigNode's sequence number. -/
def Message.setOrigSeqnum (v : UInt8) (d : Message) : Message :=
  { d with origNode.seqnum := v.toUInt16 }

/-- The one byte of a value, stored as TargNode's sequence number. -/
def Message.setTargSeqnum (v : UInt8) (d : Message) : Message :=
  { d with targNode.seqnum := v.toUInt16 }

def Message.setMetricType (t : UInt8) (d : Message) : Message := { d with metricType := t }

/-- Both callbacks store the metric in OrigNode. -/
def Message.setMetric (v : UInt8) (d : Message) : Message := { d with origNode.metric := v }

/-- `_cb_rreq_blocktlv_addresstlvs_okay`. -/
def cbRreqBlocktlvAddresstlvsOkay (cont : AddrContext) : Callback Rfc5444Result := do
  ifTlv cont.origSeqnum fun tlv => do
    writeMsg (Message.setOrigAddr cont.addr)
    let v ← derefSingleValue cont tlv
    writeMsg (Message.setOrigSeqnum v)
  let isOrigNodeAddr := cont.origSeqnum.isSome
  ifTlv cont.targSeqnum fun tlv => do
    writeMsg (Message.setTargAddr cont.addr)
    let v ← derefSingleValue cont tlv
    writeMsg (Message.setTargSeqnum v)
  -- A missing TLV is taken to mean TargNode's address.
  writeIf (cont.targSeqnum.isNone && !isOrigNodeAddr) (Message.setTargAddr cont.addr)
  let isTargNode := cont.targSeqnum.isSome || !isOrigNodeAddr
  if !isOrigNodeAddr && !isTargNode then return .dropPacket
  else if cont.metric.isNone && isOrigNodeAddr then return .dropPacket
  else if cont.metric.isSome && !isOrigNodeAddr then return .dropPacket
  else do
    ifTlv cont.metric fun tlv => do
      writeMsg (Message.setMetricType tlv.typeExt)
      let v ← derefSingleValue cont tlv
      writeMsg (Message.setMetric v)
    return .okay

/-- `_cb_rrep_blocktlv_addresstlvs_okay`. -/
def cbRrepBlocktlvAddresstlvsOkay (cont : AddrContext) : Callback Rfc5444Result := do
  ifTlv cont.targSeqnum fun tlv => do
    writeMsg (Message.setTargAddr cont.addr)
    let v ← derefSingleValue cont tlv
    writeMsg (Message.setTargSeqnum v)
  ifTlv cont.origSeqnum fun tlv => do
    writeMsg (Message.setOrigAddrRrep cont.addr)
    let v ← derefSingleValue cont tlv
    writeMsg (Message.setOrigSeqnum v)
  -- The second `if` clears what the first has set.
  let isTargNodeAddr := cont.targSeqnum.isSome && cont.origSeqnum.isNone
  if cont.origSeqnum.isNone && !isTargNodeAddr then return .dropPacket
  else if cont.metric.isNone && isTargNodeAddr then return .dropPacket
  else if cont.metric.isSome && !isTargNodeAddr then return .dropPacket
  else do
    ifTlv cont.metric fun tlv => do
      writeMsg (Message.setMetricType tlv.typeExt)
      let v ← derefSingleValue cont tlv
      writeMsg (Message.setMetric v)
    return .okay

/-- `schedule_msgaddr_consumer`: the callback on each address, until one
does not return OKAY. -/
def scheduleAddrs (callback : AddrContext → Callback Rfc5444Result) :
    List AddrResult → Callback Rfc5444Result
  | [] => return .okay
  | .error f :: _ => throw f
  | .ok cont :: rest => do
    let r ← callback cont
    if r = .okay then scheduleAddrs callback rest else return r

/-! ## Message header callback -/

/-- `_cb_rreq_blocktlv_messagetlvs_okay` and
`_cb_rrep_blocktlv_messagetlvs_okay`, which have the same body. -/
def cbBlocktlvMessagetlvsOkay (hopLimit : Option UInt8) (d : Message) : Rfc5444Result × Message :=
  match hopLimit with
  | none => (.dropPacket, d)
  | some hop =>
    if hop = 0 then (.dropPacket, { d with msgHopLimit := hop })
    else (.okay, { d with msgHopLimit := hop - 1 })

/-! ## End callbacks -/

/-- The create branch: a route the table does not have. -/
def createRoute (cfg : Conf) (now : Timex) (route : LocalRoute) (node : NodeData)
    (sender : Ipv6Addr) (r : Router) : Router :=
  { r with
    lrs := lrsAddEntry cfg now route r.lrs
    nib := nibFtAdd node.addr node.pfxLen sender r.nib }

/-- The improve branch: slot `i` is overwritten, and then the forwarding
entry of the route it now holds is replaced. -/
def improveRoute (i : Nat) (route : LocalRoute) (r : Router) : Router :=
  { r with
    lrs := r.lrs.set i { route := route, used := (r.lrs[i]?.getD {}).used }
    nib := nibFtAdd route.addr route.pfxLen route.nextHop
      (nibFtDel route.addr route.pfxLen r.nib) }

/-- The part of both end callbacks that works on the route tables, for the
node the message gives a route to; `false` when the message offers no
improvement. -/
def updateRoute (cfg : Conf) (now : Timex) (msg : Message) (node : NodeData) (route : LocalRoute)
    (r : Router) : Bool × Router :=
  let found := lrsGetEntry cfg now node.addr msg.metricType r.lrs
  let r := { r with lrs := found.1 }
  match found.2 with
  | none => (true, createRoute cfg now route node msg.sender r)
  | some i =>
    let rtEntry := routeAt found.1 i
    if rtEntry.metricType ≠ msg.metricType then
      (true, createRoute cfg now route node msg.sender r)
    else if !offersImprovement rtEntry node then (false, r)
    else (true, improveRoute i route r)

/-- The result of an end callback and the router it leaves. -/
abbrev EndResult := Except Fault Rfc5444Result × Node

/-- `aodvv2_send_rrep` and the return behind it. -/
def returnRrep (pkt : Message) (nextHop : Option Ipv6Addr) (s : Node) : EndResult :=
  match sendRrep pkt nextHop s with
  | some s => (.ok .okay, s)
  | none => (.error .nullDereference, s)

/-- `_cb_rreq_end_callback`. -/
def cbRreqEndCallback (cfg : Conf) (now : Timex) (dropped : Bool) (s : Node) : EndResult :=
  let d := s.msgData
  if dropped then (.ok .dropPacket, s)
  else if ipv6AddrIsUnspecified d.origNode.addr || d.origNode.seqnum == 0 then
    (.ok .dropPacket, s)
  else if ipv6AddrIsUnspecified d.targNode.addr then (.ok .dropPacket, s)
  else if d.msgHopLimit = 0 then (.ok .dropPacket, s)
  else
    let linkCost := metricLinkCost d.metricType
    if metricLimitReached cfg d.metricType d.origNode.metric then (.ok .dropPacket, s)
    else
      let processed := mcmsgProcess cfg now d s.router.mcmsg
      let r := { s.router with mcmsg := processed.2 }
      if processed.1 = .redundant then (.ok .dropPacket, { s with router := r })
      else
        let d := { d with
          origNode.metric := metricUpdate d.metricType d.origNode.metric
          timestamp := now }
        let route := fillRoutingEntryRreq cfg d linkCost
        let updated := updateRoute cfg now d d.origNode route r
        let s := { s with router := updated.2, msgData := d }
        if !updated.1 then (.ok .dropPacket, s)
        else if (rcsIsClient d.targNode.addr s.router.rcs).isSome then
          let d := { d with targNode.metric := 0 }
          returnRrep d (some d.sender) { s with msgData := d }
        else (.ok .okay, sendRreq d s)

/-- `_cb_rrep_end_callback`. -/
def cbRrepEndCallback (cfg : Conf) (now : Timex) (dropped : Bool) (s : Node) : EndResult :=
  let d := s.msgData
  if dropped then (.ok .dropPacket, s)
  else if ipv6AddrIsUnspecified d.origNode.addr || d.origNode.seqnum == 0 then
    (.ok .dropPacket, s)
  else if ipv6AddrIsUnspecified d.targNode.addr || d.targNode.seqnum == 0 then
    (.ok .dropPacket, s)
  else
    let linkCost := metricLinkCost d.metricType
    if metricLimitReached cfg d.metricType d.targNode.metric then (.ok .dropPacket, s)
    else
      let d := { d with
        targNode.metric := metricUpdate d.metricType d.targNode.metric
        timestamp := now }
      let route := fillRoutingEntryRrep cfg d linkCost
      let updated := updateRoute cfg now d d.targNode route s.router
      let s := { s with router := updated.2, msgData := d }
      if !updated.1 then (.ok .dropPacket, s)
      else if (rcsIsClient d.origNode.addr s.router.rcs).isSome then
        let sent := bufferDispatch d.targNode.addr s.router.buffer
        (.ok .okay, { s with
          router := { s.router with buffer := sent.1 }
          dispatched := s.dispatched ++ sent.2 })
      else
        let hop := lrsGetNextHop cfg now d.origNode.addr d.metricType s.router.lrs
        returnRrep d hop.2 { s with router := { s.router with lrs := hop.1 } }

/-! ## The consumers together -/

/-- The callbacks of one message type. -/
structure Callbacks where
  addressTlvs : AddrContext → Callback Rfc5444Result
  endCallback : Conf → Timex → Bool → Node → EndResult

def rreqCallbacks : Callbacks := ⟨cbRreqBlocktlvAddresstlvsOkay, cbRreqEndCallback⟩

def rrepCallbacks : Callbacks := ⟨cbRrepBlocktlvAddresstlvsOkay, cbRrepEndCallback⟩

/-- The record after the header callback and the address callbacks of a
message, and how they ended. -/
def decodeMessage (cbs : Callbacks) (msg : MessageContext) (d : Message) :
    Except Fault Rfc5444Result × CbState :=
  let header := cbBlocktlvMessagetlvsOkay msg.hopLimit d
  if header.1 = .okay then scheduleAddrs cbs.addressTlvs msg.addrs { msgData := header.2 }
  else (.ok header.1, { msgData := header.2 })

/-- The consumer half of `_handle_message` for a message with these
callbacks. DROP_PACKET is the greatest result, so the end callback's
result replaces the one before it only when it is DROP_PACKET. -/
def consumeWith (cfg : Conf) (now : Timex) (cbs : Callbacks) (msg : MessageContext) (s : Node) :
    EndResult :=
  let decoded := decodeMessage cbs msg s.msgData
  let s := { s with msgData := decoded.2.msgData }
  match decoded.1 with
  | .error f => (.error f, s)
  | .ok r =>
    match cbs.endCallback cfg now (decide (r ≠ .okay)) s with
    | (.ok e, s) => (.ok (if e = .dropPacket then e else r), s)
    | (.error f, s) => (.error f, s)

/-- `RFC5444_MSGTYPE_RREQ`. -/
def msgtypeRreq : UInt8 := 10

/-- `RFC5444_MSGTYPE_RREP`. -/
def msgtypeRrep : UInt8 := 11

/-- The message consumers registered by `aodvv2_reader_init`. -/
def consumeMessage (cfg : Conf) (now : Timex) : Consumer Node := fun msg s =>
  if msg.msgType = msgtypeRreq then consumeWith cfg now rreqCallbacks msg s
  else if msg.msgType = msgtypeRrep then consumeWith cfg now rrepCallbacks msg s
  else (.ok .okay, s)

/-- `aodvv2_rfc5444_handle_packet_prepare`. -/
def handlePacketPrepare (sender : Ipv6Addr) (s : Node) : Node :=
  { s with msgData := { s.msgData with sender := sender } }

/-- `_receive`: a packet from a neighbour. -/
def receivePacket (cfg : Conf) (now : Timex) (sender : Ipv6Addr) (buf : List UInt8) (s : Node) :
    Except Stop Unit × Node :=
  handlePacket (consumeMessage cfg now) buf (handlePacketPrepare sender s)

end Turpial.Aodvv2
