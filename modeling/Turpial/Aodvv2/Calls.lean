/-
Turpial.Aodvv2.Calls — the calls that the end callbacks make.

Which calls were made cannot be read off the node they leave: a route that
is added twice is in the forwarding table once. Here the end callbacks
run again, with each call they make on the forwarding table, the thread
and the packet buffer written down as it is made (`Traced.call`). What
they do to the node is what `Turpial.Aodvv2.Reader` has; the two are shown
to be the same in `Turpial.Aodvv2.CallTheorems`.

A call of `aodvv2_send_rrep` with a null pointer is a call.
-/
import Turpial.Aodvv2.Writer

namespace Turpial.Aodvv2

open Turpial.Rfc5444

/-! ## Calls -/

/-- A call of an end callback on the forwarding table, the thread's queue
or the packet buffer. -/
inductive Call where
  | nibFtAdd (dst : Ipv6Addr) (dstLen : UInt8) (nextHop : Ipv6Addr)
  | nibFtDel (dst : Ipv6Addr) (dstLen : UInt8)
  | sendRreq (pkt : Message) (nextHop : Destination)
  | sendRrep (pkt : Message) (nextHop : Option Ipv6Addr)
  | bufferDispatch (targAddr : Ipv6Addr)
  deriving DecidableEq, Repr

/-- What a call does; `none` is the null pointer. -/
def Call.perform : Call → Node → Option Node
  | .nibFtAdd dst dstLen nextHop, s =>
    let nib := Turpial.Aodvv2.nibFtAdd dst dstLen nextHop s.router.nib
    some { s with router := { s.router with nib } }
  | .nibFtDel dst dstLen, s =>
    let nib := Turpial.Aodvv2.nibFtDel dst dstLen s.router.nib
    some { s with router := { s.router with nib } }
  | .sendRreq pkt _, s => some (Turpial.Aodvv2.sendRreq pkt s)
  | .sendRrep pkt nextHop, s => Turpial.Aodvv2.sendRrep pkt nextHop s
  | .bufferDispatch targAddr, s =>
    let sent := Turpial.Aodvv2.bufferDispatch targAddr s.router.buffer
    some { s with
      router := { s.router with buffer := sent.1 }
      dispatched := s.dispatched ++ sent.2 }

/-- The call adds a route to the forwarding table. -/
def Call.addsRoute : Call → Bool
  | .nibFtAdd .. => true
  | _ => false

/-- The call sends something on: a message, or the packets that waited. -/
def Call.sends : Call → Bool
  | .sendRreq .. | .sendRrep .. | .bufferDispatch .. => true
  | _ => false

/-- The message handed to `aodvv2_send_rreq` or `aodvv2_send_rrep`. -/
def Call.message? : Call → Option Message
  | .sendRreq pkt _ | .sendRrep pkt _ => some pkt
  | _ => none

/-- What the call leaves in the thread's queue. -/
def Call.posted : Call → Option Outgoing
  | .sendRreq pkt _ => some (.rreq pkt)
  | .sendRrep pkt nextHop => nextHop.map (.rrep pkt)
  | _ => none

/-! ## The end callbacks with their calls -/

/-- A node, and the calls made so far. -/
structure Traced where
  node : Node
  calls : List Call := []

namespace Traced

/-- Make a call. -/
def call (c : Call) (t : Traced) : Traced where
  node := (c.perform t.node).getD t.node
  calls := t.calls ++ [c]

/-- Write to the tables of the router. -/
def writeRouter (r : Router) (t : Traced) : Traced := { t with node := { t.node with router := r } }

/-- Write to `_msg_data`. -/
def writeMsgData (d : Message) (t : Traced) : Traced :=
  { t with node := { t.node with msgData := d } }

/-- The create branch. -/
def createRoute (cfg : Conf) (now : Timex) (route : LocalRoute) (node : NodeData)
    (sender : Ipv6Addr) (t : Traced) : Traced :=
  let r := t.node.router
  (t.writeRouter { r with lrs := lrsAddEntry cfg now route r.lrs }).call
    (.nibFtAdd node.addr node.pfxLen sender)

/-- The improve branch. -/
def improveRoute (i : Nat) (route : LocalRoute) (t : Traced) : Traced :=
  let r := t.node.router
  let t := t.writeRouter { r with
    lrs := r.lrs.set i { route := route, used := (r.lrs[i]?.getD {}).used } }
  (t.call (.nibFtDel route.addr route.pfxLen)).call
    (.nibFtAdd route.addr route.pfxLen route.nextHop)

/-- The part of both end callbacks that works on the route tables. -/
def updateRoute (cfg : Conf) (now : Timex) (msg : Message) (node : NodeData) (route : LocalRoute)
    (t : Traced) : Bool × Traced :=
  let found := lrsGetEntry cfg now node.addr msg.metricType t.node.router.lrs
  let t := t.writeRouter { t.node.router with lrs := found.1 }
  match found.2 with
  | none => (true, createRoute cfg now route node msg.sender t)
  | some i =>
    let rtEntry := routeAt found.1 i
    if rtEntry.metricType ≠ msg.metricType then
      (true, createRoute cfg now route node msg.sender t)
    else if !offersImprovement rtEntry node then (false, t)
    else (true, improveRoute i route t)

/-- The result of an end callback, the node it leaves and its calls. -/
abbrev Result := Except Fault Rfc5444Result × Traced

/-- `aodvv2_send_rrep` and the return behind it. -/
def returnRrep (pkt : Message) (nextHop : Option Ipv6Addr) (t : Traced) : Result :=
  (if nextHop.isSome then .ok .okay else .error .nullDereference, t.call (.sendRrep pkt nextHop))

/-- `_cb_rreq_end_callback`. -/
def cbRreqEndCallback (cfg : Conf) (now : Timex) (dropped : Bool) (t : Traced) : Result :=
  let d := t.node.msgData
  if dropped then (.ok .dropPacket, t)
  else if ipv6AddrIsUnspecified d.origNode.addr || d.origNode.seqnum == 0 then
    (.ok .dropPacket, t)
  else if ipv6AddrIsUnspecified d.targNode.addr then (.ok .dropPacket, t)
  else if d.msgHopLimit = 0 then (.ok .dropPacket, t)
  else
    let linkCost := metricLinkCost d.metricType
    if metricLimitReached cfg d.metricType d.origNode.metric then (.ok .dropPacket, t)
    else
      let processed := mcmsgProcess cfg now d t.node.router.mcmsg
      let t := t.writeRouter { t.node.router with mcmsg := processed.2 }
      if processed.1 = .redundant then (.ok .dropPacket, t)
      else
        let d := { d with
          origNode.metric := metricUpdate d.metricType d.origNode.metric
          timestamp := now }
        let route := fillRoutingEntryRreq cfg d linkCost
        let updated := updateRoute cfg now d d.origNode route (t.writeMsgData d)
        let t := updated.2
        if !updated.1 then (.ok .dropPacket, t)
        else if (rcsIsClient d.targNode.addr t.node.router.rcs).isSome then
          let d := { d with targNode.metric := 0 }
          returnRrep d (some d.sender) (t.writeMsgData d)
        else (.ok .okay, t.call (.sendRreq d .allManetRouters))

/-- `_cb_rrep_end_callback`. -/
def cbRrepEndCallback (cfg : Conf) (now : Timex) (dropped : Bool) (t : Traced) : Result :=
  let d := t.node.msgData
  if dropped then (.ok .dropPacket, t)
  else if ipv6AddrIsUnspecified d.origNode.addr || d.origNode.seqnum == 0 then
    (.ok .dropPacket, t)
  else if ipv6AddrIsUnspecified d.targNode.addr || d.targNode.seqnum == 0 then
    (.ok .dropPacket, t)
  else
    let linkCost := metricLinkCost d.metricType
    if metricLimitReached cfg d.metricType d.targNode.metric then (.ok .dropPacket, t)
    else
      let d := { d with
        targNode.metric := metricUpdate d.metricType d.targNode.metric
        timestamp := now }
      let route := fillRoutingEntryRrep cfg d linkCost
      let updated := updateRoute cfg now d d.targNode route (t.writeMsgData d)
      let t := updated.2
      if !updated.1 then (.ok .dropPacket, t)
      else if (rcsIsClient d.origNode.addr t.node.router.rcs).isSome then
        (.ok .okay, t.call (.bufferDispatch d.targNode.addr))
      else
        let hop := lrsGetNextHop cfg now d.origNode.addr d.metricType t.node.router.lrs
        returnRrep d hop.2 (t.writeRouter { t.node.router with lrs := hop.1 })

end Traced

/-! ## The calls of a received message -/

/-- An end callback with its calls. -/
abbrev TracedCallback := Conf → Timex → Bool → Traced → Traced.Result

/-- The calls while `_handle_message` runs the callbacks on a message. The
header and the address callbacks make none. -/
def consumeCalls (cfg : Conf) (now : Timex) (cbs : Callbacks) (endCallback : TracedCallback)
    (msg : MessageContext) (s : Node) : List Call :=
  let decoded := decodeMessage cbs msg s.msgData
  match decoded.1 with
  | .error _ => []
  | .ok r =>
    let s := { s with msgData := decoded.2.msgData }
    (endCallback cfg now (decide (r ≠ .okay)) { node := s }).2.calls

/-- The calls while a message from a neighbour is handled. -/
def messageCalls (cfg : Conf) (now : Timex) (sender : Ipv6Addr) (msg : MessageContext) (s : Node) :
    List Call :=
  let s := handlePacketPrepare sender s
  if msg.msgType = msgtypeRreq then
    consumeCalls cfg now rreqCallbacks Traced.cbRreqEndCallback msg s
  else if msg.msgType = msgtypeRrep then
    consumeCalls cfg now rrepCallbacks Traced.cbRrepEndCallback msg s
  else []

/-- The messages handed to `aodvv2_send_rreq` and `aodvv2_send_rrep` while a
message from a neighbour is handled. -/
def sentMessages (cfg : Conf) (now : Timex) (sender : Ipv6Addr) (msg : MessageContext)
    (s : Node) : List Message :=
  (messageCalls cfg now sender msg s).filterMap Call.message?

/-- The thread writes this for a call, whatever its counter is then. -/
def Call.Writes : Call → WireMessage → Prop
  | .sendRreq pkt _, w => w = writerSendRreq pkt
  | .sendRrep pkt _, w => ∃ seqnum, w = (writerSendRrep seqnum pkt).2
  | _, _ => False

end Turpial.Aodvv2
