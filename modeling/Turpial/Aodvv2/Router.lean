/-
Turpial.Aodvv2.Router — what one router consists of, the calls that put a
message on its way, and `aodvv2_find_route` (`aodvv2.c`).

The RFC 5444 thread runs one event at a time. Handlers and
`aodvv2_find_route` do not write packets themselves: they copy a message
and post it to the thread's queue, and the thread writes it later. The
queue is `outbox`; `Turpial.Aodvv2.Writer` empties it. So what the writer
reads of the router (its own sequence number) is read at that later time.

`Node` also holds the static record `_msg_data`, because nothing clears it
between packets.
-/
import Turpial.Aodvv2.McMsg
import Turpial.Aodvv2.Lrs
import Turpial.Aodvv2.Sets

namespace Turpial.Aodvv2

/-! ## Router state -/

/-- The tables of a router and its own sequence number. -/
structure Router where
  lrs : RoutingTable
  mcmsg : McmsgSet
  rcs : RouterClientSet
  nib : Nib
  buffer : PacketBuffer
  seqnum : SeqCounter

/-- How many slots each table has. -/
structure Sizes where
  /-- `CONFIG_AODVV2_MAX_ROUTING_ENTRIES` -/
  routingEntries : Nat
  /-- `CONFIG_AODVV2_MCMSG_MAX_ENTRIES` -/
  mcmsgEntries : Nat
  /-- `CONFIG_AODVV2_MAX_BUFFERED_PACKETS` -/
  bufferedPackets : Nat
  deriving DecidableEq, Repr

/-- The tables after `aodvv2_init`, once the clients are set up. -/
def Router.init (sizes : Sizes) (rcs : RouterClientSet) : Router where
  lrs := lrsInit sizes.routingEntries
  mcmsg := mcmsgInit sizes.mcmsgEntries
  rcs := rcs
  nib := nibInit
  buffer := bufferInit sizes.bufferedPackets
  seqnum := seqnumInit

/-- A message posted to the thread (`aodvv2_msg_t` and the type of its IPC
message). The next hop of an RREQ is always the multicast address. -/
inductive Outgoing where
  | rreq (pkt : Message)
  | rrep (pkt : Message) (nextHop : Ipv6Addr)
  deriving DecidableEq, Repr

/-- A router with its static record, its queue, and the buffered packets
it has handed back to IPv6. -/
structure Node where
  router : Router
  msgData : Message := {}
  outbox : List Outgoing := []
  dispatched : List (Option Nat) := []

/-- `aodvv2_send_rreq`. -/
def sendRreq (pkt : Message) (s : Node) : Node := { s with outbox := s.outbox ++ [.rreq pkt] }

/-- `aodvv2_send_rrep`. The next hop is copied from a pointer that may be null. -/
def sendRrep (pkt : Message) (nextHop : Option Ipv6Addr) (s : Node) : Option Node :=
  nextHop.map fun hop => { s with outbox := s.outbox ++ [.rrep pkt hop] }

/-! ## Route discovery -/

/-- The message that `aodvv2_find_route` builds. `stack` is what the local
variable holds before: `sender`, `seqnortr` and `timestamp` are never set. -/
def findRoutePkt (cfg : Conf) (client : RcsEntry) (targetAddr : Ipv6Addr) (seqnum : SeqNum)
    (stack : Message) : Message :=
  { stack with
    msgHopLimit := metricMax cfg metricHopCount
    metricType := defaultMetric
    origNode := { addr := client.addr, pfxLen := client.pfxLen, metric := 0, seqnum := seqnum }
    targNode := { addr := targetAddr, pfxLen := 128, metric := 0, seqnum := 0 } }

/-- `aodvv2_find_route`; `none` when the originator is not a client. The
verdict of the Multicast Message Set is not looked at. -/
def findRoute (cfg : Conf) (now : Timex) (origAddr targetAddr : Ipv6Addr) (stack : Message)
    (s : Node) : Option Node :=
  (rcsIsClient origAddr s.router.rcs).map fun client =>
    let pkt := findRoutePkt cfg client targetAddr (seqnumGet s.router.seqnum) stack
    sendRreq pkt { s with router := { s.router with
      seqnum := seqnumInc s.router.seqnum
      mcmsg := (mcmsgProcess cfg now pkt s.router.mcmsg).2 } }

/-- `_route_info` when the NIB asks for a route: buffer the packet and
look for its destination, if the packet comes from a client and there is
room for it. -/
def routeInfo (cfg : Conf) (now : Timex) (src dst : Ipv6Addr) (pkt : Nat) (stack : Message)
    (s : Node) : Node :=
  match rcsIsClient src s.router.rcs with
  | none => s
  | some _ =>
    let added := bufferPktAdd dst pkt s.router.buffer
    match added.2 with
    | none => s
    | some _ =>
      let s := { s with router := { s.router with buffer := added.1 } }
      (findRoute cfg now src dst stack s).getD s

end Turpial.Aodvv2
