/-
Turpial.Aodvv2.PacketRunTheorems — the network of packets against the
network of messages.

§1 is the simulation: as long as no router faults, the routers are in the
same state in both networks, and what is in flight in the one are the
packets of what is in flight in the other (`Matches`). So the network of
packets runs into a fault exactly when, in the network of messages, a router
is about to write two addresses that differ in the prefix length alone
(`CanWrite`), or hands on an RREP without a next hop (`FindsHop`):
`packets_refine_messages`.

§2 is about networks whose clients are single hosts. There every prefix
length a router ever sends is 128, so of the two faults only the null pointer
for the next hop is left (`host_networks_fault_iff`).
-/
import Turpial.Aodvv2.PacketTheorems
import Turpial.Aodvv2.ReactionTheorems
import Turpial.Lib.Simulation

namespace Turpial.Aodvv2

open Turpial.Lib Turpial.Rfc5444

/-! ## §1 The simulation -/

/-- Its two addresses differ in the prefix length alone. -/
def Outgoing.Clashes (o : Outgoing) : Prop :=
  PrefixClash o.pkt.origNode.netaddr o.pkt.targNode.netaddr

theorem Outgoing.writes (c : SeqCounter) (o : Outgoing) :
    Writes (o.written c) o.pkt.origNode.netaddr o.pkt.targNode.netaddr := by
  cases o with
  | rreq pkt => exact writes_rreq pkt
  | rrep pkt hop => exact writes_rrep c pkt

/-- **What a router posts goes through the bytes.** Its packet has at most 128
bytes, and whoever receives it does what the message says. Only a message
whose two addresses differ in the prefix length alone has none: there the
writer reads behind its compression sessions. -/
theorem posted_packet (c : SeqCounter) (o : Outgoing) :
    (¬ o.Clashes → ∃ packet, (o.written c).packet = .ok packet ∧ packet.length ≤ packetSize ∧
      ∀ cfg now sender s, receivePacket cfg now sender packet s =
        afterMessage (consumeMessage cfg now (o.written c).context (handlePacketPrepare sender s))
          fun s => (.ok (), s)) ∧
    (o.Clashes → (o.written c).packet = .error .bufferOverflow) := (o.writes c).packet

/-- The packet is that of the message, as some router writes it. -/
def CarriesMessage (packet : List UInt8) (msg : WireMessage) : Prop :=
  msg.packet = .ok packet ∧ ∃ orig targ, Writes msg orig targ

/-- Receiving the packet is receiving the message, and ends in the same fault. -/
theorem CarriesMessage.received {packet : List UInt8} {msg : WireMessage}
    (h : CarriesMessage packet msg) (cfg : Conf) (now : Timex) (sender : Ipv6Addr) (s : Node) :
    (¬ NullNextHop cfg now sender msg.context s →
      receivePacketTry cfg now sender packet s = .ok (receive cfg now sender msg.context s)) ∧
    (NullNextHop cfg now sender msg.context s →
      receivePacketTry cfg now sender packet s = .error .nullDereference) := by
  obtain ⟨hpacket, orig, targ, hw⟩ := h
  have hne : ¬ PrefixClash orig targ := by
    intro hclash
    rw [hw.packet.2 hclash] at hpacket
    cases hpacket
  obtain ⟨packet', hpacket', -, hrun⟩ := hw.packet.1 hne
  rw [hpacket'] at hpacket
  cases hpacket
  have herror := consumeMessage_error_iff cfg now sender hw.readable s
  unfold receivePacketTry receive
  rw [hrun]
  generalize consumeMessage cfg now msg.context (handlePacketPrepare sender s) = result at herror ⊢
  obtain ⟨f | r, s'⟩ := result
  · obtain ⟨rfl, hnull⟩ := (herror f).mp rfl
    exact ⟨fun hnot => absurd hnull hnot, fun _ => rfl⟩
  · refine ⟨fun _ => ?_, fun hnull => nomatch (herror _).mpr ⟨rfl, hnull⟩⟩
    cases r <;> rfl

variable {ι : Type}

/-- A packet in flight and the message it carries. -/
structure SameTransit (p : PacketTransit ι) (w : Transit ι) : Prop where
  sender : p.sender = w.sender
  receiver : p.receiver = w.receiver
  message : CarriesMessage p.packet w.msg

/-- The two networks: the same routers and clocks, and in flight the packets
of the messages. -/
structure Matches (s : PacketState ι) (t : NetState ι) : Prop where
  nodes : s.nodes = t.nodes
  now : s.now = t.now
  inFlight : List.Forall₂ SameTransit s.inFlight t.inFlight

theorem matches_init (sizes : ι → Sizes) (rcs : ι → RouterClientSet) :
    Matches (PacketState.init sizes rcs) (NetState.init sizes rcs) := ⟨rfl, rfl, List.Forall₂.nil⟩

theorem forall₂_eraseIdx {α β : Type} {R : α → β → Prop} {xs : List α} {ys : List β}
    (h : List.Forall₂ R xs ys) (k : Nat) : List.Forall₂ R (xs.eraseIdx k) (ys.eraseIdx k) := by
  induction h generalizing k with
  | nil => exact List.Forall₂.nil
  | cons hxy hrest ih =>
    cases k with
    | zero => exact hrest
    | succ k => exact List.Forall₂.cons hxy (ih k)

theorem forall₂_getElem? {α β : Type} {R : α → β → Prop} {xs : List α} {ys : List β}
    (h : List.Forall₂ R xs ys) (k : Nat) :
    (xs[k]? = none ∧ ys[k]? = none) ∨ ∃ x y, xs[k]? = some x ∧ ys[k]? = some y ∧ R x y := by
  induction h generalizing k with
  | nil => exact Or.inl ⟨rfl, rfl⟩
  | cons hxy hrest ih =>
    cases k with
    | zero => exact Or.inr ⟨_, _, rfl, rfl, hxy⟩
    | succ k => exact ih k

/-- The copies of a packet are those of its message. -/
theorem copies_match (net : Network ι) (i : ι) (dst : Destination) {packet : List UInt8}
    {msg : WireMessage} (h : CarriesMessage packet msg) :
    List.Forall₂ SameTransit ((net.hearers i dst).map fun j => ⟨i, j, packet⟩)
      (net.copies i (dst, msg)) := by
  have hall : ∀ js : List ι, List.Forall₂ SameTransit (js.map fun j => ⟨i, j, packet⟩)
      (js.map fun j => (⟨i, j, msg⟩ : Transit ι)) := by
    intro js
    induction js with
    | nil => exact List.Forall₂.nil
    | cons j js ih => exact List.Forall₂.cons ⟨rfl, rfl, h⟩ ih
  cases dst with
  | allManetRouters => exact hall _
  | unicast a => exact hall _

variable [DecidableEq ι]

/-- A router that is about to write has a message that it can write. -/
def CanWrite : NetEvent ι → NetState ι → Prop
  | .transmit i, s => ∀ o ∈ (s.nodes i).outbox.head?, ¬ o.Clashes
  | _, _ => True

/-- A router that is about to receive an RREP and to hand it on finds a next
hop. -/
def FindsHop (cfg : Conf) (net : Network ι) : NetEvent ι → NetState ι → Prop
  | .deliver k, s => ∀ t ∈ s.inFlight[k]?, ¬ NullNextHop cfg (s.now t.receiver) (net.addr t.sender)
      t.msg.context (s.nodes t.receiver)
  | _, _ => True

instance (cfg : Conf) (net : Network ι) :
    ∀ ev s, Decidable (FindsHop cfg net ev s)
  | .deliver k, s => inferInstanceAs (Decidable (∀ t ∈ s.inFlight[k]?, ¬ _))
  | .findRoute _ _ _ _, _ => inferInstanceAs (Decidable True)
  | .transmit _, _ => inferInstanceAs (Decidable True)
  | .lose _, _ => inferInstanceAs (Decidable True)
  | .tick _ _, _ => inferInstanceAs (Decidable True)

/-- Sending, byte by byte. -/
theorem transmitPacket_cases (s : Node) :
    ((∀ o ∈ s.outbox.head?, ¬ o.Clashes) → ∃ sent, transmitPacket s = .ok sent ∧
      sent.2 = (transmit s).2 ∧ ((sent.1 = none ∧ (transmit s).1 = none) ∨
        ∃ dst packet msg, sent.1 = some (dst, packet) ∧ (transmit s).1 = some (dst, msg) ∧
          CarriesMessage packet msg)) ∧
    (∀ o ∈ s.outbox.head?, o.Clashes → transmitPacket s = .error .bufferOverflow) := by
  have hfst := transmit_fst s
  unfold transmitPacket
  rcases htrans : transmit s with ⟨sent, s'⟩
  rw [htrans] at hfst
  cases hhead : s.outbox.head? with
  | none =>
    rw [hhead] at hfst
    cases hfst
    refine ⟨fun _ => ⟨(none, s'), rfl, rfl, Or.inl ⟨rfl, rfl⟩⟩, fun o ho => nomatch ho⟩
  | some o =>
    rw [hhead] at hfst
    cases hfst
    have hw := o.writes s.router.seqnum
    constructor
    · intro hok
      obtain ⟨packet, hpacket, -⟩ := hw.packet.1 (hok o rfl)
      refine ⟨(some (o.destination, packet), s'), ?_, rfl, Or.inr
        ⟨o.destination, packet, _, rfl, rfl, hpacket, _, _, hw⟩⟩
      dsimp only
      rw [hpacket]
      rfl
    · intro o' ho' hclash
      cases ho'
      dsimp only
      rw [hw.packet.2 hclash]
      rfl

/-- A delivery, byte by byte. -/
theorem packetNetStep_deliver (cfg : Conf) (net : Network ι) (k : Nat) {s : PacketState ι}
    {t : NetState ι} (h : Matches s t) :
    (FindsHop cfg net (.deliver k) t → ∃ s', packetNetStep cfg net (.deliver k) s = .ok s' ∧
      Matches s' (netStep cfg net (.deliver k) t)) ∧
    (¬ FindsHop cfg net (.deliver k) t →
      packetNetStep cfg net (.deliver k) s = .error .nullDereference) := by
  unfold packetNetStep netStep FindsHop
  dsimp only
  rcases forall₂_getElem? h.inFlight k with ⟨hnone, hnone'⟩ | ⟨p, w, hsome, hsome', hpw⟩
  · rw [hnone, hnone']
    exact ⟨fun _ => ⟨s, rfl, h⟩, fun hnot => absurd (fun t ht => nomatch ht) hnot⟩
  · rw [hsome, hsome']
    obtain ⟨hok, hfault⟩ := hpw.message.received cfg (t.now w.receiver) (net.addr w.sender)
      (t.nodes w.receiver)
    dsimp only
    rw [h.nodes, h.now, hpw.sender, hpw.receiver]
    constructor
    · intro hfinds
      rw [hok (hfinds w rfl)]
      refine ⟨_, rfl, ?_, h.now, forall₂_eraseIdx h.inFlight k⟩
      unfold PacketState.put NetState.put
      dsimp only
      rw [h.nodes]
    · intro hnot
      have hnull : NullNextHop cfg (t.now w.receiver) (net.addr w.sender) w.msg.context
          (t.nodes w.receiver) := by
        by_contra hfinds
        refine hnot fun u hu => ?_
        cases hu
        exact hfinds
      rw [hfault hnull]
      rfl

/-- A step of the network of packets goes through exactly when the router can
write, or finds a next hop. -/
theorem packetNetStep_ok_iff (cfg : Conf) (net : Network ι) (ev : NetEvent ι) (s : PacketState ι)
    (t : NetState ι) (h : Matches s t) :
    (∃ s', packetNetStep cfg net ev s = .ok s') ↔ CanWrite ev t ∧ FindsHop cfg net ev t := by
  cases ev with
  | transmit i =>
    obtain ⟨hok, hfault⟩ := transmitPacket_cases (s.nodes i)
    unfold CanWrite packetNetStep
    dsimp only
    rw [← h.nodes]
    constructor
    · rintro ⟨s', hs'⟩
      refine ⟨fun o ho hclash => ?_, trivial⟩
      rw [hfault o ho hclash] at hs'
      cases hs'
    · rintro ⟨hcan, -⟩
      obtain ⟨sent, hsent, -⟩ := hok hcan
      rw [hsent]
      exact ⟨_, rfl⟩
  | findRoute i origAddr targetAddr stack =>
    exact ⟨fun _ => ⟨trivial, trivial⟩, fun _ => ⟨_, rfl⟩⟩
  | deliver k =>
    obtain ⟨hok, hfault⟩ := packetNetStep_deliver cfg net k h
    constructor
    · rintro ⟨s', hs'⟩
      refine ⟨trivial, ?_⟩
      by_contra hnot
      rw [hfault hnot] at hs'
      cases hs'
    · rintro ⟨-, hfinds⟩
      obtain ⟨s', hs', -⟩ := hok hfinds
      exact ⟨s', hs'⟩
  | lose k => exact ⟨fun _ => ⟨trivial, trivial⟩, fun _ => ⟨_, rfl⟩⟩
  | tick i d => exact ⟨fun _ => ⟨trivial, trivial⟩, fun _ => ⟨_, rfl⟩⟩

/-- A router that can write faults on a null pointer only. -/
theorem packetNetStep_error {cfg : Conf} {net : Network ι} {ev : NetEvent ι} {s : PacketState ι}
    {t : NetState ι} {f : Fault} (h : Matches s t) (hcan : CanWrite ev t)
    (hf : packetNetStep cfg net ev s = .error f) : f = .nullDereference := by
  have hnot : ¬ FindsHop cfg net ev t := by
    intro hfinds
    obtain ⟨s', hs'⟩ := (packetNetStep_ok_iff cfg net ev s t h).mpr ⟨hcan, hfinds⟩
    rw [hs'] at hf
    cases hf
  cases ev with
  | deliver k =>
    rw [(packetNetStep_deliver cfg net k h).2 hnot] at hf
    cases hf
    rfl
  | findRoute i origAddr targetAddr stack => exact absurd trivial hnot
  | transmit i => exact absurd trivial hnot
  | lose k => exact absurd trivial hnot
  | tick i d => exact absurd trivial hnot

/-- A step of the network of packets is a step of the network of messages. -/
theorem packetNetStep_simulates (cfg : Conf) (net : Network ι) :
    Simulates (packetNetStep cfg net) (netStep cfg net) Matches := by
  intro ev s t s' h hstep
  cases ev with
  | findRoute i origAddr targetAddr stack =>
    cases hstep
    refine ⟨?_, h.now, h.inFlight⟩
    unfold PacketState.put netStep NetState.put
    dsimp only
    rw [h.nodes, h.now]
  | transmit i =>
    have hcan := ((packetNetStep_ok_iff cfg net (.transmit i) s t h).mp ⟨s', hstep⟩).1
    unfold CanWrite at hcan
    dsimp only at hcan
    rw [← h.nodes] at hcan
    obtain ⟨sent, hsent, hnode, hsame⟩ := (transmitPacket_cases (s.nodes i)).1 hcan
    unfold packetNetStep at hstep
    dsimp only at hstep
    rw [hsent] at hstep
    cases hstep
    refine ⟨?_, h.now, ?_⟩
    · unfold PacketState.put netStep NetState.put
      dsimp only
      rw [hnode, h.nodes]
    · unfold PacketState.put netStep NetState.put
      dsimp only
      rw [← h.nodes]
      refine List.rel_append h.inFlight ?_
      rcases hsame with ⟨hnone, hnone'⟩ | ⟨dst, packet, msg, hsome, hsome', hcarries⟩
      · rw [hnone, hnone']
        exact List.Forall₂.nil
      · rw [hsome, hsome']
        exact copies_match net i dst hcarries
  | deliver k =>
    have hfinds := ((packetNetStep_ok_iff cfg net (.deliver k) s t h).mp ⟨s', hstep⟩).2
    obtain ⟨s'', hstep', hmatches⟩ := (packetNetStep_deliver cfg net k h).1 hfinds
    rw [hstep] at hstep'
    cases hstep'
    exact hmatches
  | lose k =>
    cases hstep
    exact ⟨h.nodes, h.now, forall₂_eraseIdx h.inFlight k⟩
  | tick i d =>
    cases hstep
    refine ⟨h.nodes, ?_, h.inFlight⟩
    unfold netStep
    dsimp only
    rw [h.now]

/-- **The packets carry the protocol.** However the events are ordered, the
network of packets runs without a fault exactly when, in the network of
messages, no router is ever about to write two addresses that differ in the
prefix length alone, nor receives an RREP that it hands on without a next
hop; and then the two networks end in the same state. -/
theorem packets_refine_messages (cfg : Conf) (net : Network ι) (sizes : ι → Sizes)
    (rcs : ι → RouterClientSet) (evs : List (NetEvent ι)) :
    ((∃ s, runExcept (packetNetStep cfg net) evs (PacketState.init sizes rcs) = .ok s) ↔
      Along (netStep cfg net) (fun ev s => CanWrite ev s ∧ FindsHop cfg net ev s) evs
        (NetState.init sizes rcs)) ∧
    ∀ s, runExcept (packetNetStep cfg net) evs (PacketState.init sizes rcs) = .ok s →
      Matches s (run (netStep cfg net) evs (NetState.init sizes rcs)) :=
  ⟨(packetNetStep_simulates cfg net).run_ok_iff (packetNetStep_ok_iff cfg net) (matches_init sizes rcs),
    fun _ hrun => (packetNetStep_simulates cfg net).run (matches_init sizes rcs) hrun⟩

/-! ## §2 Networks of hosts -/

/-- A prefix length that the writer sends as 128. -/
def HostLen (pfxLen : UInt8) : Prop := pfxLen = 0 ∨ pfxLen = 128

/-- A record of two hosts. -/
def HostRecord (d : Message) : Prop := HostLen d.origNode.pfxLen ∧ HostLen d.targNode.pfxLen

/-- A router whose clients are hosts, and that has heard of hosts only. -/
structure HostNode (s : Node) : Prop where
  clients : ∀ e ∈ s.router.rcs, e.used = true → e.pfxLen = 128
  record : HostRecord s.msgData
  queue : ∀ o ∈ s.outbox, HostRecord o.pkt

/-- A network in which only hosts are spoken of. -/
structure HostState (s : NetState ι) : Prop where
  nodes : ∀ i, HostNode (s.nodes i)
  inFlight : ∀ t ∈ s.inFlight, ∀ a ∈ t.msg.addrs, a.addr.prefixLen = 128

theorem HostLen.netaddr {node : NodeData} (h : HostLen node.pfxLen) :
    node.netaddr = ⟨node.addr, .inet6, 128⟩ := by
  unfold NodeData.netaddr ipv6AddrToNetaddr
  rcases h with h | h
  · rw [h]
    rfl
  · rw [h]
    rfl

theorem HostRecord.not_clashes {o : Outgoing} (h : HostRecord o.pkt) : ¬ o.Clashes := by
  unfold Outgoing.Clashes
  rw [h.1.netaddr, h.2.netaddr]
  rintro ⟨haddr, hne⟩
  exact hne (congrArg (fun a => (⟨a, .inet6, 128⟩ : Netaddr)) haddr)

/-- The addresses of a message about hosts. -/
theorem HostRecord.written {o : Outgoing} (h : HostRecord o.pkt) (c : SeqCounter) :
    ∀ a ∈ (o.written c).addrs, a.addr.prefixLen = 128 := by
  intro a ha
  have hmem := List.mem_map_of_mem (f := WireAddr.addr) ha
  rw [(o.writes c).addrs, h.1.netaddr, h.2.netaddr] at hmem
  split at hmem
  · rw [List.mem_singleton.mp hmem]
  · rcases List.mem_cons.mp hmem with hmem | hmem
    · rw [hmem]
    · rw [List.mem_singleton.mp hmem]

theorem hostLen_ipv6PfxLen {src : Netaddr} (h : src.prefixLen = 128) : HostLen (ipv6PfxLen src) := by
  unfold ipv6PfxLen
  split
  · exact Or.inl rfl
  · rw [h]
    exact Or.inr rfl

/-- An address of a host leaves a record of hosts. -/
theorem stores_hostRecord {src : Netaddr} (h : src.prefixLen = 128) : StoresAddr HostRecord src where
  origAddr d hd := by
    refine ⟨?_, hd.2⟩
    change HostLen (netaddrToIpv6Addr src d.origNode.addr).2
    rw [netaddrToIpv6Addr_snd]
    exact hostLen_ipv6PfxLen h
  targAddr d hd := by
    refine ⟨hd.1, ?_⟩
    change HostLen (netaddrToIpv6Addr src d.targNode.addr).2
    rw [netaddrToIpv6Addr_snd]
    exact hostLen_ipv6PfxLen h
  origAddrRrep d hd := by
    refine ⟨hd.1, ?_⟩
    change HostLen (netaddrToIpv6Addr src d.origNode.addr).2
    rw [netaddrToIpv6Addr_snd]
    exact hostLen_ipv6PfxLen h
  origSeqnum _ _ hd := hd
  targSeqnum _ _ hd := hd
  metricType _ _ hd := hd
  metric _ _ hd := hd

theorem HostRecord.of_ends {d d' : Message} (h : d'.ends = d.ends) (hd : HostRecord d) :
    HostRecord d' := by
  have horig : d'.origNode.pfxLen = d.origNode.pfxLen := congrArg (fun e => e.2.1.2) h
  have htarg : d'.targNode.pfxLen = d.targNode.pfxLen := congrArg (fun e => e.2.2.2) h
  unfold HostRecord
  rw [horig, htarg]
  exact hd

/-- A message about hosts leaves a router that has heard of hosts only. -/
theorem HostNode.receive {s : Node} (h : HostNode s) (cfg : Conf) (now : Timex)
    (sender : Ipv6Addr) {msg : WireMessage} (hmsg : ∀ a ∈ msg.addrs, a.addr.prefixLen = 128) :
    HostNode (receive cfg now sender msg.context s) := by
  obtain ⟨d, hd, hreaction⟩ := receive_reaction cfg now sender msg.context s
  have hrecord : HostRecord d := by
    rcases hd with rfl | ⟨cbs, hcbs, rfl⟩
    · exact h.record
    · refine decodeMessage_keeps hcbs (fun _ _ hd => hd) (fun cont hc => stores_hostRecord ?_)
        (show HostRecord (prepared sender s) from h.record)
      obtain ⟨cont', hcont', heq⟩ := List.mem_map.mp hc
      cases heq
      obtain ⟨a, ha, rfl⟩ := List.mem_map.mp hcont'
      exact hmsg a ha
  refine ⟨?_, hrecord.of_ends hreaction.record, ?_⟩
  · rw [receive_rcs]
    exact h.clients
  · rcases hreaction.outbox with hsame | ⟨o, ho, hends, -⟩
    · rw [hsame]
      exact h.queue
    · rw [ho]
      intro o' ho'
      rcases List.mem_append.mp ho' with ho' | ho'
      · exact h.queue o' ho'
      · rw [List.mem_singleton.mp ho']
        exact hrecord.of_ends hends

/-- Looking for a route for a client that is a host. -/
theorem HostNode.findRoute {s : Node} (h : HostNode s) (cfg : Conf) (now : Timex)
    (origAddr targetAddr : Ipv6Addr) (stack : Message) :
    HostNode ((findRoute cfg now origAddr targetAddr stack s).getD s) := by
  unfold Aodvv2.findRoute
  cases hclient : rcsIsClient origAddr s.router.rcs with
  | none => exact h
  | some client =>
    obtain ⟨hmem, hused, -⟩ := rcsIsClient_some hclient
    refine ⟨h.clients, h.record, fun o ho => ?_⟩
    rcases List.mem_append.mp ho with ho | ho
    · exact h.queue o ho
    · rw [List.mem_singleton.mp ho]
      exact ⟨Or.inr (h.clients client hmem hused), Or.inr rfl⟩

omit [DecidableEq ι] in
/-- What a router sends are copies of a message of its queue, to its neighbours. -/
theorem mem_transmitted {net : Network ι} {i : ι} {n : Node} {t : Transit ι}
    (ht : t ∈ ((transmit n).1.map (net.copies i)).getD []) :
    ∃ o ∈ n.outbox, t.sender = i ∧ t.receiver ∈ net.neighbours i ∧
      t.msg = o.written n.router.seqnum := by
  rw [transmit_fst] at ht
  cases hhead : n.outbox.head? with
  | none =>
    rw [hhead] at ht
    cases ht
  | some o =>
    rw [hhead] at ht
    refine ⟨o, List.mem_of_head? hhead, ?_⟩
    change t ∈ net.copies i (o.destination, o.written n.router.seqnum) at ht
    cases hdst : o.destination with
    | allManetRouters =>
      rw [hdst] at ht
      obtain ⟨j, hj, rfl⟩ := List.mem_map.mp ht
      exact ⟨rfl, hj, rfl⟩
    | unicast a =>
      rw [hdst] at ht
      obtain ⟨j, hj, rfl⟩ := List.mem_map.mp ht
      exact ⟨rfl, List.mem_of_mem_filter hj, rfl⟩

theorem HostState.put {s : NetState ι} (h : HostState s) (i : ι) {n : Node} (hn : HostNode n)
    (k : ι) : HostNode ((s.put i n).nodes k) := by
  unfold NetState.put
  dsimp only
  by_cases hk : k = i
  · subst hk
    rw [Function.update_self]
    exact hn
  · rw [Function.update_of_ne hk]
    exact h.nodes k

/-- Every event keeps to hosts. -/
theorem HostState.step {s : NetState ι} (h : HostState s) (cfg : Conf) (net : Network ι)
    (ev : NetEvent ι) : HostState (netStep cfg net ev s) := by
  cases ev with
  | findRoute i origAddr targetAddr stack =>
    exact ⟨h.put i ((h.nodes i).findRoute cfg (s.now i) origAddr targetAddr stack), h.inFlight⟩
  | transmit i =>
    obtain ⟨hrcs, hdata, hqueue⟩ := transmit_snd (s.nodes i)
    have hi := h.nodes i
    refine ⟨h.put i ⟨hrcs ▸ hi.clients, hdata ▸ hi.record, fun o ho => ?_⟩, fun t ht => ?_⟩
    · rw [hqueue] at ho
      exact hi.queue o (List.mem_of_mem_tail ho)
    · change t ∈ s.inFlight ++ ((transmit (s.nodes i)).1.map (net.copies i)).getD [] at ht
      rcases List.mem_append.mp ht with ht | ht
      · exact h.inFlight t ht
      · obtain ⟨o, ho, -, -, hmsg⟩ := mem_transmitted ht
        rw [hmsg]
        exact (hi.queue o ho).written _
  | deliver k =>
    unfold netStep
    dsimp only
    split
    · exact h
    · rename_i t ht
      refine ⟨h.put t.receiver ((h.nodes t.receiver).receive cfg _ _
        (h.inFlight t (List.mem_of_getElem? ht))), fun u hu => ?_⟩
      exact h.inFlight u (List.mem_of_mem_eraseIdx hu)
  | lose k => exact ⟨h.nodes, fun t ht => h.inFlight t (List.mem_of_mem_eraseIdx ht)⟩
  | tick i d => exact ⟨h.nodes, h.inFlight⟩

/-- Every client of every router is a single host. -/
def HostClients (rcs : ι → RouterClientSet) : Prop :=
  ∀ i, ∀ e ∈ rcs i, e.used = true → e.pfxLen = 128

omit [DecidableEq ι] in
theorem HostState.canWrite {s : NetState ι} (h : HostState s) (ev : NetEvent ι) : CanWrite ev s := by
  cases ev with
  | transmit i => exact fun o ho => ((h.nodes i).queue o (List.mem_of_mem_head? ho)).not_clashes
  | _ => trivial

omit [DecidableEq ι] in
theorem hostState_init (sizes : ι → Sizes) {rcs : ι → RouterClientSet} (h : HostClients rcs)
    (now : ι → Timex) : HostState { NetState.init sizes rcs with now := now } :=
  ⟨fun i => ⟨h i, ⟨Or.inl rfl, Or.inl rfl⟩, fun _ ho => nomatch ho⟩, fun _ ht => nomatch ht⟩

/-- A run of hosts: every router can write what it has to send. -/
theorem HostState.run {s : PacketState ι} {t : NetState ι} (hhost : HostState t) (h : Matches s t)
    (cfg : Conf) (net : Network ι) (evs : List (NetEvent ι)) :
    (Along (netStep cfg net) (FindsHop cfg net) evs t →
      ∃ s', runExcept (packetNetStep cfg net) evs s = .ok s' ∧
        Matches s' (run (netStep cfg net) evs t)) ∧
    (¬ Along (netStep cfg net) (FindsHop cfg net) evs t →
      runExcept (packetNetStep cfg net) evs s = .error .nullDereference) := by
  have hsim := packetNetStep_simulates cfg net
  have hiff : (∃ s', runExcept (packetNetStep cfg net) evs s = .ok s') ↔
      Along (netStep cfg net) (fun ev s => CanWrite ev s ∧ FindsHop cfg net ev s) evs t :=
    hsim.run_ok_iff (packetNetStep_ok_iff cfg net) h
  have hboth : Along (netStep cfg net) (fun ev s => CanWrite ev s ∧ FindsHop cfg net ev s) evs t ↔
      Along (netStep cfg net) (FindsHop cfg net) evs t :=
    along_congr (fun ev _ hs => hs.step cfg net ev)
      (fun ev _ hs => and_iff_right (hs.canWrite ev)) evs hhost
  have hcan : Along (netStep cfg net) CanWrite evs t :=
    (along_congr (fun ev _ hs => hs.step cfg net ev)
      (fun ev _ hs => iff_true_intro (hs.canWrite ev)) evs hhost).mpr (along_true evs t)
  rw [hboth] at hiff
  constructor
  · intro hfinds
    obtain ⟨s', hs'⟩ := hiff.mpr hfinds
    exact ⟨s', hs', hsim.run h hs'⟩
  · intro hnot
    cases hrun : runExcept (packetNetStep cfg net) evs s with
    | ok s' => exact absurd (hiff.mp ⟨s', hrun⟩) hnot
    | error f =>
      have hf : f = .nullDereference :=
        hsim.run_error (fun _ _ _ _ hm hc => packetNetStep_error hm hc) h hcan hrun
      rw [hf]

/-- **When a network of hosts faults.** When every client is a single host, no
order of events makes a router read or write behind a buffer. The packets
carry the protocol to the end of the run, unless a router receives an RREP
that it hands on without a next hop; there the run ends, with a null pointer
that is dereferenced. -/
theorem host_networks_fault_iff (cfg : Conf) (net : Network ι) (sizes : ι → Sizes)
    (rcs : ι → RouterClientSet) (h : HostClients rcs) (evs : List (NetEvent ι)) :
    (Along (netStep cfg net) (FindsHop cfg net) evs (NetState.init sizes rcs) →
      ∃ s, runExcept (packetNetStep cfg net) evs (PacketState.init sizes rcs) = .ok s ∧
        Matches s (run (netStep cfg net) evs (NetState.init sizes rcs))) ∧
    (¬ Along (netStep cfg net) (FindsHop cfg net) evs (NetState.init sizes rcs) →
      runExcept (packetNetStep cfg net) evs (PacketState.init sizes rcs) =
        .error .nullDereference) :=
  (hostState_init sizes h fun _ => 0).run (matches_init sizes rcs) cfg net evs

/-- Three routers in a row. -/
inductive RowRouter where
  | first
  | middle
  | last
  deriving DecidableEq

/-- The number of a router in the row. -/
def RowRouter.number : RowRouter → Nat
  | .first => 1
  | .middle => 2
  | .last => 3

/-- Each hears the ones next to it. -/
def rowNetwork : Network RowRouter where
  addr i := BitVec.ofNat 128 (10 + i.number)
  addr_injective i j := by cases i <;> cases j <;> decide
  addr_ne i := by cases i <;> decide
  neighbours
    | .first => [.middle]
    | .middle => [.first, .last]
    | .last => [.middle]

/-- Each has one host. -/
def rowClients (i : RowRouter) : RouterClientSet :=
  [{ addr := BitVec.ofNat 128 i.number <<< 64, pfxLen := 128, used := true }]

/-- The first looks for the host of the last. Time passes at the router between
them before the RREP arrives there. -/
def rowDiscovery (d : Timex) : List (NetEvent RowRouter) :=
  [.findRoute .first (1#128 <<< 64) (3#128 <<< 64) {}, .transmit .first, .deliver 0,
    .transmit .middle, .deliver 1, .transmit .last, .tick .middle d, .deliver 1]

/-- The RREP goes on if it comes at once. After 1000 seconds the route to the
first router is gone, and the one between them dereferences a null pointer. -/
theorem rowDiscovery_faults_late :
    (∃ s, runExcept (packetNetStep .default rowNetwork) (rowDiscovery 0)
        (PacketState.init (fun _ => ⟨2, 2, 2⟩) rowClients) = .ok s ∧
      Matches s (run (netStep .default rowNetwork) (rowDiscovery 0)
        (NetState.init (fun _ => ⟨2, 2, 2⟩) rowClients))) ∧
    runExcept (packetNetStep .default rowNetwork) (rowDiscovery (timexSet 1000 0))
      (PacketState.init (fun _ => ⟨2, 2, 2⟩) rowClients) = .error .nullDereference :=
  ⟨(host_networks_fault_iff .default rowNetwork (fun _ => ⟨2, 2, 2⟩) rowClients
      (fun _ e he _ => by rw [List.mem_singleton.mp he]) (rowDiscovery 0)).1 (by decide +kernel),
    (host_networks_fault_iff .default rowNetwork (fun _ => ⟨2, 2, 2⟩) rowClients
      (fun _ e he _ => by rw [List.mem_singleton.mp he]) (rowDiscovery (timexSet 1000 0))).2
      (by decide +kernel)⟩

/-- Two routers that hear each other. -/
def pairNetwork : Network (Fin 2) where
  addr i := BitVec.ofNat 128 (10 + i.val)
  addr_injective := by decide
  addr_ne := by decide
  neighbours i := [i.rev]

/-- Each with one client, of this prefix length. -/
def pairClients (pfxLen : UInt8) (i : Fin 2) : RouterClientSet :=
  [{ addr := BitVec.ofNat 128 (i.val + 1) <<< 64, pfxLen := pfxLen, used := true }]

/-- The first looks for the client of the second, and is answered. -/
def pairDiscovery : List (NetEvent (Fin 2)) :=
  [.findRoute 0 (1#128 <<< 64) (2#128 <<< 64) {}, .transmit 0, .deliver 0, .transmit 1, .deliver 0]

/-- With a /64 client, a search for the address of its own prefix faults. -/
example : (runExcept (packetNetStep .default pairNetwork)
    [.findRoute 0 (1#128 <<< 64 + 5#128) (1#128 <<< 64) {}, .transmit 0]
    (PacketState.init (fun _ => ⟨2, 2, 2⟩) (pairClients 64))).toOption.isNone = true := by
  decide +kernel

end Turpial.Aodvv2
