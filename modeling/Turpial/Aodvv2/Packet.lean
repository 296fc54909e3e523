/-
Turpial.Aodvv2.Packet — the packets that routers send each other, byte by
byte (`aodvv2_writer.c`, `aodvv2.c`).

`Turpial.Aodvv2.Network` passes messages on as they are written. Here a
message is handed to the vendored writer, what is in flight is the packet
it flushes, and the receiver runs the vendored reader on its bytes. Writing
a message and handling a packet can end in a fault, and then so does the
step of the network.
-/
import Turpial.Aodvv2.Network
import Turpial.Rfc5444.Generator
import Turpial.Lib.Memory

namespace Turpial.Aodvv2

open Turpial.Lib Turpial.Rfc5444

/-! ## Packets -/

/-- `CONFIG_AODVV2_RFC5444_PACKET_SIZE`, the size of `_writer_msg_buffer` and
of `_writer_pkt_buffer`. -/
def packetSize : Nat := 128

/-- A TLV as the vendored writer keeps it. -/
def WireTlv.addrtlv (tlv : WireTlv) : WriterAddrtlv where
  type := tlv.type
  exttype := tlv.typeExt
  value := tlv.value

/-- An address of 16 bytes as the vendored writer keeps it. -/
def WireAddr.writerAddress (a : WireAddr) : WriterAddress 15 where
  addr := octets 16 a.addr.addr
  prefixLen := a.addr.prefixLen
  tlvs := addrtlvTree (a.tlvs.map WireTlv.addrtlv)
  length_addr := octets_length 16 _
  sorted := addrtlvTree_sorted _

/-- `_cb_add_message_header`. -/
def WireMessage.header (msg : WireMessage) : WriterHeader 15 where
  msgType := msg.msgType
  hopLimit := some msg.hopLimit

/-- The addresses of a message, in the order in which they were added. -/
def WireMessage.addresses (msg : WireMessage) : List (WriterAddress 15) :=
  msg.addrs.map WireAddr.writerAddress

/-- `rfc5444_writer_create_message_alltarget` and `rfc5444_writer_flush`, as
`_send_rreq` and `_send_rrep` call them: the buffer for `_send_packet`. -/
def WireMessage.packet (msg : WireMessage) : Except Fault (List UInt8) :=
  sendMessage packetSize packetSize msg.header msg.addresses

/-! ## A network of packets -/

variable {ι : Type}

/-- A copy of a packet on its way to one neighbour. -/
structure PacketTransit (ι : Type) where
  sender : ι
  receiver : ι
  packet : List UInt8

/-- The routers, their clocks, and the packets on their way. -/
structure PacketState (ι : Type) where
  nodes : ι → Node
  now : ι → Timex := fun _ => 0
  inFlight : List (PacketTransit ι) := []

/-- Freshly initialised routers with their clients. -/
def PacketState.init (sizes : ι → Sizes) (rcs : ι → RouterClientSet) : PacketState ι where
  nodes i := Node.init (sizes i) (rcs i)

/-- The neighbours that hear what is sent. -/
def Network.hearers (net : Network ι) (i : ι) : Destination → List ι
  | .allManetRouters => net.neighbours i
  | .unicast a => (net.neighbours i).filter fun j => net.addr j == a

variable [DecidableEq ι]

/-- One router after a call of its own. -/
def PacketState.put (s : PacketState ι) (i : ι) (n : Node) : PacketState ι :=
  { s with nodes := Function.update s.nodes i n }

/-- The packet a router sends next, with the router after it. -/
def transmitPacket (s : Node) : Except Fault (Option (Destination × List UInt8) × Node) :=
  match transmit s with
  | (none, s) => .ok (none, s)
  | (some (dst, msg), s) => msg.packet.map fun packet => (some (dst, packet), s)

/-- The router after it has received a packet. Other results of the reader
than a fault are logged at most. -/
def receivePacketTry (cfg : Conf) (now : Timex) (sender : Ipv6Addr) (buf : List UInt8) (s : Node) :
    Except Fault Node :=
  match receivePacket cfg now sender buf s with
  | (.error (.fault f), _) => .error f
  | (_, s) => .ok s

/-- The network after an event, byte by byte. -/
def packetNetStep (cfg : Conf) (net : Network ι) :
    NetEvent ι → PacketState ι → Except Fault (PacketState ι)
  | .findRoute i origAddr targetAddr stack, s =>
    .ok (s.put i ((findRoute cfg (s.now i) origAddr targetAddr stack (s.nodes i)).getD (s.nodes i)))
  | .transmit i, s =>
    (transmitPacket (s.nodes i)).map fun sent =>
      { s.put i sent.2 with
        inFlight := s.inFlight ++ (sent.1.map fun p =>
          (net.hearers i p.1).map fun j => ⟨i, j, p.2⟩).getD [] }
  | .deliver k, s =>
    match s.inFlight[k]? with
    | none => .ok s
    | some t =>
      (receivePacketTry cfg (s.now t.receiver) (net.addr t.sender) t.packet
          (s.nodes t.receiver)).map fun n =>
        { s.put t.receiver n with inFlight := s.inFlight.eraseIdx k }
  | .lose k, s => .ok { s with inFlight := s.inFlight.eraseIdx k }
  | .tick i d, s => .ok { s with now := Function.update s.now i (s.now i + d) }

end Turpial.Aodvv2
