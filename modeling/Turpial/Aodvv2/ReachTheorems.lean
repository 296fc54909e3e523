/-
Turpial.Aodvv2.ReachTheorems — how far a discovery reaches.

Every message that a router posts or that is on its way left a trail: an
RREQ comes from a router with OrigNode as a client, and an RREP from one
with TargNode as a client that an RREQ had reached. With every hop the hop
limit goes down by one, and the RREP goes on with what the RREQ has left.
So the way there and the way back are together no longer than the first
hop limit (`discovery_reach`), and every route in the network leads to a
client of some router (`routes_reach_clients`).

The clients are single hosts: there the addresses of a message arrive as
they were written.
-/
import Turpial.Aodvv2.PacketRunTheorems
import Turpial.Aodvv2.HopLimitTheorems
import Turpial.Aodvv2.LoopTheorems

namespace Turpial.Aodvv2

open Turpial.Lib Turpial.Rfc5444

variable {cfg : Conf} {now : Timex} {ι : Type}

/-! ## §1 What arrives -/

/-- The addresses of a message, as the callbacks are called with them. -/
theorem decoded_contexts {rules : AddressRules} {msg : WireMessage} {hop : UInt8}
    {conts : List AddrContext} (h : Decodable rules msg.context hop conts) :
    conts = msg.addrs.map WireAddr.context := by
  have haddrs : (msg.addrs.map WireAddr.context).map Except.ok = conts.map Except.ok := h.addrs
  exact (List.map_injective_iff.mpr (fun _ _ h => Except.ok.inj h) haddrs).symm

/-- A host comes back as the address it is. -/
theorem HostLen.setAddr {node : NodeData} (h : HostLen node.pfxLen) (dst : Ipv6Addr) :
    netaddrToIpv6Addr node.netaddr dst = (node.addr, 128) := by
  rw [h.netaddr]
  simp [netaddrToIpv6Addr, clampPfxLen]

/-- OrigNode of an RREQ arrives. -/
theorem rreq_origAddr {pkt d : Message} {st : CbState} (h : HostRecord pkt)
    (hdec : decodeMessage rreqCallbacks (writerSendRreq pkt).context d = (.ok .okay, st)) :
    st.msgData.origNode.addr = pkt.origNode.addr := by
  obtain ⟨hop, conts, hconts, hrec⟩ := decodeMessage_okay rreq_follows hdec
  rw [hrec, decoded_contexts hconts]
  change (decodeAll rreqRules ((cbRreqAddAddresses pkt).map WireAddr.context) _).origNode.addr = _
  by_cases hsame : pkt.origNode.netaddr = pkt.targNode.netaddr
  · have haddrs : cbRreqAddAddresses pkt = [{
        addr := pkt.origNode.netaddr
        tlvs := [origSeqnumTlv pkt.origNode.seqnum, metricTlv pkt.origNode.metric] }] := by
      unfold cbRreqAddAddresses
      dsimp only
      rw [← hsame, addAddress_same, addAddress_nil]
      rfl
    rw [haddrs]
    exact congrArg Prod.fst (h.1.setAddr _)
  · rw [cbRreqAddAddresses_ne hsame]
    exact congrArg Prod.fst (h.1.setAddr _)

/-- An RREP that is accepted has two addresses, and they arrive. -/
theorem rrep_addrs {c : SeqCounter} {pkt d : Message} {st : CbState} (h : HostRecord pkt)
    (hdec : decodeMessage rrepCallbacks (writerSendRrep c pkt).2.context d = (.ok .okay, st)) :
    st.msgData.origNode.addr = pkt.origNode.addr ∧
      st.msgData.targNode.addr = pkt.targNode.addr := by
  obtain ⟨hop, conts, hconts, hrec⟩ := decodeMessage_okay rrep_follows hdec
  have haccepted := hconts.accepted
  rw [decoded_contexts hconts] at haccepted hrec
  by_cases hsame : pkt.origNode.netaddr = pkt.targNode.netaddr
  · -- With all TLVs at one address the metric counts as OrigNode's.
    have haddrs : (writerSendRrep c pkt).2.addrs = _ := cbRrepAddAddresses_same hsame
    rw [haddrs] at haccepted
    have hrefused := (haccepted _ List.mem_cons_self).2
    cases hrefused
  · have haddrs : (writerSendRrep c pkt).2.addrs = _ := cbRrepAddAddresses_ne hsame
    rw [hrec, haddrs]
    exact ⟨congrArg Prod.fst (h.1.setAddr _), congrArg Prod.fst (h.2.setAddr _)⟩

/-! ## §2 What is posted -/

/-- What an RREQ makes a router post: the RREQ once more, or an RREP if
TargNode is one of its clients. -/
theorem receive_rreq (cfg : Conf) (now : Timex) (sender : Ipv6Addr) {msg : MessageContext}
    (s : Node) (h : msg.msgType = msgtypeRreq) :
    (receive cfg now sender msg s).outbox = s.outbox ∨ ∃ st o,
      decodeMessage rreqCallbacks msg (prepared sender s) = (.ok .okay, st) ∧
      (receive cfg now sender msg s).outbox = s.outbox ++ [o] ∧ o.pkt.ends = st.msgData.ends ∧
      ((∃ pkt, o = .rreq pkt) ∨
        (∃ pkt hop, o = .rrep pkt hop) ∧ IsClient s.router.rcs st.msgData.targNode.addr) := by
  unfold receive consumeMessage
  rw [if_pos h]
  by_cases hokay : ∃ st, decodeMessage rreqCallbacks msg (prepared sender s) = (.ok .okay, st)
  · obtain ⟨st, hdec⟩ := hokay
    rw [consumeWith_okay hdec]
    have hout : RreqOutcome cfg now _ (rreqCallbacks.endCallback cfg now false
        { handlePacketPrepare sender s with msgData := st.msgData }) :=
      cbRreqEndCallback_outcome cfg now _
    generalize rreqCallbacks.endCallback cfg now false _ = result at hout ⊢
    cases hout with
    | refused hchecks => exact Or.inl rfl
    | redundant hchecks hseen => exact Or.inl rfl
    | noImprovement hchecks hseen hkept => exact Or.inl rfl
    | answered hchecks hseen hupdated hclient =>
      exact Or.inr ⟨st, _, hdec, rfl, rfl, Or.inr ⟨⟨_, _, rfl⟩, hclient⟩⟩
    | forwarded hchecks hseen hupdated hclient =>
      exact Or.inr ⟨st, _, hdec, rfl, rfl, Or.inl ⟨_, rfl⟩⟩
  · have hdropped := consumeWith_dropped (Or.inl rfl) (fun st hst => hokay ⟨st, hst⟩) cfg now
    rw [hdropped]
    exact Or.inl rfl

/-- What an RREP makes a router post: the RREP once more. -/
theorem receive_rrep (cfg : Conf) (now : Timex) (sender : Ipv6Addr) {msg : MessageContext}
    (s : Node) (h : msg.msgType = msgtypeRrep) :
    (receive cfg now sender msg s).outbox = s.outbox ∨ ∃ st pkt hop,
      decodeMessage rrepCallbacks msg (prepared sender s) = (.ok .okay, st) ∧
      (receive cfg now sender msg s).outbox = s.outbox ++ [.rrep pkt hop] ∧
      pkt.ends = st.msgData.ends := by
  unfold receive consumeMessage
  rw [if_neg (by rw [h]; decide), if_pos h]
  by_cases hokay : ∃ st, decodeMessage rrepCallbacks msg (prepared sender s) = (.ok .okay, st)
  · obtain ⟨st, hdec⟩ := hokay
    rw [consumeWith_okay hdec]
    have hout : RrepOutcome cfg now _ (rrepCallbacks.endCallback cfg now false
        { handlePacketPrepare sender s with msgData := st.msgData }) :=
      cbRrepEndCallback_outcome cfg now _
    generalize rrepCallbacks.endCallback cfg now false _ = result at hout ⊢
    cases hout with
    | refused hchecks => exact Or.inl rfl
    | noImprovement hchecks hkept => exact Or.inl rfl
    | arrived hchecks hupdated hclient => exact Or.inl rfl
    | relayed hchecks hupdated hclient hhop => exact Or.inr ⟨st, _, _, hdec, rfl, rfl⟩
    | noNextHop hchecks hupdated hclient hhop => exact Or.inl rfl
  · have hdropped := consumeWith_dropped (Or.inr rfl) (fun st hst => hokay ⟨st, hst⟩) cfg now
    rw [hdropped]
    exact Or.inl rfl

/-! ## §3 Trails -/

/-- So many hops lead from one router to another. -/
def Hops (net : Network ι) : Nat → ι → ι → Prop
  | 0, i, j => i = j
  | n + 1, i, j => ∃ k, Hops net n i k ∧ j ∈ net.neighbours k

/-- The hop limit of a message as `aodvv2_find_route` sends it. -/
def firstHopLimit (cfg : Conf) : Nat := (metricMax cfg metricHopCount).toNat

variable (cfg) (net : Network ι) (rcs : ι → RouterClientSet)

/-- The trail of a message at router `i`. -/
def Trail (i : ι) : Outgoing → Prop
  | .rreq pkt => ∃ u n, IsClient (rcs u) pkt.origNode.addr ∧ Hops net n u i ∧
      n + pkt.msgHopLimit.toNat ≤ firstHopLimit cfg
  | .rrep pkt _ => ∃ u w n m, IsClient (rcs u) pkt.origNode.addr ∧
      IsClient (rcs w) pkt.targNode.addr ∧ Hops net n u w ∧ Hops net m w i ∧
      n + m + pkt.msgHopLimit.toNat ≤ firstHopLimit cfg

/-- The route of router `i` leads to a neighbour, and its address is that of a
client that a message came from. -/
def ReachesClient (i : ι) (route : LocalRoute) : Prop :=
  route.addr ≠ ipv6AddrUnspecified →
    (∃ k, route.nextHop = net.addr k ∧ i ∈ net.neighbours k) ∧
    ∃ w n, IsClient (rcs w) route.addr ∧ Hops net n w i ∧ n ≤ firstHopLimit cfg

/-- A network in which every message left its trail. -/
structure TrailState (s : NetState ι) : Prop where
  nodes : ∀ i, HostNode (s.nodes i)
  clients : ∀ i, (s.nodes i).router.rcs = rcs i
  queue : ∀ i, ∀ o ∈ (s.nodes i).outbox, Trail cfg net rcs i o
  routes : ∀ i, ∀ e ∈ (s.nodes i).router.lrs, ReachesClient cfg net rcs i e.route
  inFlight : ∀ t ∈ s.inFlight, t.receiver ∈ net.neighbours t.sender ∧
    ∃ o c, t.msg = o.written c ∧ HostRecord o.pkt ∧ Trail cfg net rcs t.sender o

variable {cfg net rcs}

theorem Outgoing.ends_fields {pkt : Message} {d : Message} (h : pkt.ends = d.ends) :
    pkt.msgHopLimit = d.msgHopLimit ∧ pkt.origNode.addr = d.origNode.addr ∧
      pkt.targNode.addr = d.targNode.addr :=
  ⟨congrArg (fun e => e.1) h, congrArg (fun e => e.2.1.1) h, congrArg (fun e => e.2.2.1) h⟩

/-- What a router posts on an RREQ has a trail one hop longer. -/
theorem trail_rreq {i j : ι} {pkt : Message} (hpkt : HostRecord pkt)
    (htrail : Trail cfg net rcs i (.rreq pkt)) (hij : j ∈ net.neighbours i) {s : Node}
    (hrcs : s.router.rcs = rcs j) (sender : Ipv6Addr) :
    ∀ o ∈ (receive cfg now sender (writerSendRreq pkt).context s).outbox,
      o ∈ s.outbox ∨ Trail cfg net rcs j o := by
  obtain ⟨u, n, hclient, hhops, hle⟩ := htrail
  rcases receive_rreq cfg now sender s (show (writerSendRreq pkt).context.msgType = _ from rfl)
    with hsame | ⟨st, o, hdec, hout, hends, hkind⟩
  · rw [hsame]
    exact fun o ho => Or.inl ho
  · obtain ⟨hlimit, horig, htarg⟩ := Outgoing.ends_fields hends
    obtain ⟨hop, hhop, hone⟩ := decodeMessage_hopLimit rreq_follows rreqRules_hopLimit hdec
    cases hhop
    rw [rreq_origAddr hpkt hdec] at horig
    rw [← hlimit] at hone
    change o.pkt.msgHopLimit.toNat + 1 = pkt.msgHopLimit.toNat at hone
    rw [hout]
    intro o' ho'
    rcases List.mem_append.mp ho' with ho' | ho'
    · exact Or.inl ho'
    · rw [List.mem_singleton.mp ho']
      refine Or.inr ?_
      rcases hkind with ⟨pkt', rfl⟩ | ⟨⟨pkt', hop', rfl⟩, htargClient⟩
      · exact ⟨u, n + 1, horig ▸ hclient, ⟨i, hhops, hij⟩, by
          change pkt'.msgHopLimit.toNat + 1 = _ at hone
          omega⟩
      · rw [hrcs, ← htarg] at htargClient
        exact ⟨u, j, n + 1, 0, horig ▸ hclient, htargClient, ⟨i, hhops, hij⟩, rfl, by
          change pkt'.msgHopLimit.toNat + 1 = _ at hone
          omega⟩

/-- And so has what it posts on an RREP. -/
theorem trail_rrep {i j : ι} {pkt : Message} {hop : Ipv6Addr} (hpkt : HostRecord pkt)
    (htrail : Trail cfg net rcs i (.rrep pkt hop)) (hij : j ∈ net.neighbours i) {s : Node}
    (c : SeqCounter) (sender : Ipv6Addr) :
    ∀ o ∈ (receive cfg now sender (writerSendRrep c pkt).2.context s).outbox,
      o ∈ s.outbox ∨ Trail cfg net rcs j o := by
  obtain ⟨u, w, n, m, hclient, htargClient, hthere, hback, hle⟩ := htrail
  rcases receive_rrep cfg now sender s
    (show (writerSendRrep c pkt).2.context.msgType = _ from rfl)
    with hsame | ⟨st, pkt', hop', hdec, hout, hends⟩
  · rw [hsame]
    exact fun o ho => Or.inl ho
  · obtain ⟨hlimit, horig, htarg⟩ := Outgoing.ends_fields hends
    obtain ⟨hop, hhop, hone⟩ := decodeMessage_hopLimit rrep_follows rrepRules_hopLimit hdec
    cases hhop
    obtain ⟨horig', htarg'⟩ := rrep_addrs hpkt hdec
    rw [horig'] at horig
    rw [htarg'] at htarg
    rw [← hlimit] at hone
    change pkt'.msgHopLimit.toNat + 1 = pkt.msgHopLimit.toNat at hone
    rw [hout]
    intro o' ho'
    rcases List.mem_append.mp ho' with ho' | ho'
    · exact Or.inl ho'
    · rw [List.mem_singleton.mp ho']
      exact Or.inr ⟨u, w, n, m + 1, horig ▸ hclient, htarg ▸ htargClient, hthere,
        ⟨i, hback, hij⟩, by omega⟩

/-- A discovery starts at a router with a client for it. -/
theorem trail_findRoute {s : Node} {i : ι} (h : HostNode s) (hrcs : s.router.rcs = rcs i)
    (origAddr targetAddr : Ipv6Addr) (stack : Message) :
    ∀ o ∈ ((findRoute cfg now origAddr targetAddr stack s).getD s).outbox,
      o ∈ s.outbox ∨ Trail cfg net rcs i o := by
  unfold findRoute
  cases hclient : rcsIsClient origAddr s.router.rcs with
  | none => exact fun o ho => Or.inl ho
  | some client =>
    obtain ⟨hmem, hused, -⟩ := rcsIsClient_some hclient
    have hcovers : client.covers client.addr = true := by
      unfold RcsEntry.covers
      rw [ipv6AddrMatchPrefix_self, h.clients client hmem hused]
      rfl
    intro o ho
    rcases List.mem_append.mp ho with ho | ho
    · exact Or.inl ho
    · rw [List.mem_singleton.mp ho]
      exact Or.inr ⟨i, 0, hrcs ▸ isClient_of_mem hmem hused hcovers, rfl,
        Nat.le_of_eq (Nat.zero_add _)⟩

/-! ## §4 Routes -/

/-- Ageing keeps the address and the next hop of a route, or zeroes them. -/
theorem ReachesClient.aged {i : ι} {e e' : LrsEntry} (h : ReachesClient cfg net rcs i e.route)
    (hslot : AgedSlot cfg now e e') : ReachesClient cfg net rcs i e'.route := by
  intro hne
  rcases hslot.route with hsame | ⟨-, hblank⟩
  · rw [hsame.addr] at hne ⊢
    rw [hsame.nextHop]
    exact h hne
  · exact absurd hblank.addr hne

/-- The route tables hold such routes if the advert brings one. -/
theorem RouteUpdate.reaches {i : ι} {a : Advert} {lrs t : RoutingTable} {nib nib' : Nib}
    {taken : Bool} (h : RouteUpdate cfg now a lrs nib taken t nib')
    (ha : ReachesClient cfg net rcs i (a.route cfg now))
    (hlrs : ∀ e ∈ lrs, ReachesClient cfg net rcs i e.route) :
    ∀ e ∈ t, ReachesClient cfg net rcs i e.route := by
  have haged : ∀ t', Aged cfg now lrs t' → ∀ e ∈ t', ReachesClient cfg net rcs i e.route := by
    intro t' haged e he
    obtain ⟨e₀, he₀, hslot⟩ := haged.mem he
    exact (hlrs e₀ he₀).aged hslot
  cases h with
  | kept aged => exact haged _ aged
  | full aged => exact haged _ aged
  | created aged =>
    intro e he
    rcases List.mem_or_eq_of_mem_set he with he | rfl
    · exact haged _ aged e he
    · exact ha
  | improved aged =>
    intro e he
    rcases List.mem_or_eq_of_mem_set he with he | rfl
    · exact haged _ aged e he
    · exact ha

/-- The advert of a message with a trail brings such a route. -/
theorem advert_reaches {i j : ι} {o : Outgoing} (hpkt : HostRecord o.pkt)
    (htrail : Trail cfg net rcs i o) (hij : j ∈ net.neighbours i) (c : SeqCounter) {s : Node}
    {a : Advert} (ha : advert? cfg now (net.addr i) (o.written c).context s = some a) :
    ReachesClient cfg net rcs j (a.route cfg now) := by
  intro _
  refine ⟨⟨i, (advert?_sound ha).sender, hij⟩, ?_⟩
  change ∃ w n, IsClient (rcs w) a.node.addr ∧ Hops net n w j ∧ n ≤ firstHopLimit cfg
  rcases advert?_some ha with ⟨st, htype, hdec, -, rfl⟩ | ⟨st, htype, hdec, -, rfl⟩
  · cases o with
    | rrep pkt hop => exact absurd htype (show msgtypeRrep ≠ msgtypeRreq by decide)
    | rreq pkt =>
      obtain ⟨u, n, hclient, hhops, hle⟩ := htrail
      obtain ⟨hop, hhop, hone⟩ := decodeMessage_hopLimit rreq_follows rreqRules_hopLimit hdec
      cases hhop
      change _ + 1 = pkt.msgHopLimit.toNat at hone
      rw [show (rreqAdvert st.msgData).node.addr = _ from rreq_origAddr hpkt hdec]
      exact ⟨u, n + 1, hclient, ⟨i, hhops, hij⟩, by omega⟩
  · cases o with
    | rreq pkt => exact absurd htype (show msgtypeRreq ≠ msgtypeRrep by decide)
    | rrep pkt hop =>
      obtain ⟨u, w, n, m, -, hclient, -, hback, hle⟩ := htrail
      obtain ⟨hop, hhop, hone⟩ := decodeMessage_hopLimit rrep_follows rrepRules_hopLimit hdec
      cases hhop
      change _ + 1 = pkt.msgHopLimit.toNat at hone
      rw [show (rrepAdvert st.msgData).node.addr = _ from (rrep_addrs hpkt hdec).2]
      exact ⟨w, m + 1, hclient, ⟨i, hback, hij⟩, by omega⟩

/-- A message with a trail leaves such routes. -/
theorem receive_reaches (now : Timex) {i j : ι} {o : Outgoing} (hpkt : HostRecord o.pkt)
    (htrail : Trail cfg net rcs i o) (hij : j ∈ net.neighbours i) (c : SeqCounter) {s : Node}
    (hs : ∀ e ∈ s.router.lrs, ReachesClient cfg net rcs j e.route) :
    ∀ e ∈ (receive cfg now (net.addr i) (o.written c).context s).router.lrs,
      ReachesClient cfg net rcs j e.route := by
  have hhandled := receive_handled cfg now (net.addr i) (o.written c).context s
  have hadvert := @advert_reaches cfg now ι net rcs i j o hpkt htrail hij c s
  generalize advert? cfg now (net.addr i) (o.written c).context s = adv at hhandled hadvert
  cases hhandled with
  | quiet hrcs hlrs hnib hout =>
    rw [hlrs]
    exact hs
  | updated hrcs hupdate haged hposted =>
    intro e he
    obtain ⟨e₀, he₀, hslot⟩ := haged.mem he
    exact (hupdate.reaches (hadvert rfl) hs e₀ he₀).aged hslot

/-! ## §5 Runs -/

theorem trailState_init (sizes : ι → Sizes) (hhosts : HostClients rcs) :
    TrailState cfg net rcs (NetState.init sizes rcs) where
  nodes i := ⟨hhosts i, ⟨Or.inl rfl, Or.inl rfl⟩, fun o ho => nomatch ho⟩
  clients _ := rfl
  queue _ o ho := nomatch ho
  routes i e he := by
    rw [List.eq_of_mem_replicate he]
    exact fun hne => absurd rfl hne
  inFlight t ht := nomatch ht

variable [DecidableEq ι]

/-- One router does something. -/
theorem TrailState.put {s : NetState ι} (h : TrailState cfg net rcs s) {i : ι} {n : Node}
    (hnode : HostNode n) (hrcs : n.router.rcs = (s.nodes i).router.rcs)
    (hqueue : ∀ o ∈ n.outbox, o ∈ (s.nodes i).outbox ∨ Trail cfg net rcs i o)
    (hroutes : ∀ e ∈ n.router.lrs, ReachesClient cfg net rcs i e.route) :
    TrailState cfg net rcs (s.put i n) := by
  have hput : ∀ k, ((s.put i n).nodes k = n ∧ k = i) ∨ (s.put i n).nodes k = s.nodes k := by
    intro k
    unfold NetState.put
    by_cases hk : k = i
    · subst hk
      exact Or.inl ⟨Function.update_self .., rfl⟩
    · exact Or.inr (Function.update_of_ne hk ..)
  refine ⟨fun k => ?_, fun k => ?_, fun k => ?_, fun k => ?_, h.inFlight⟩
  all_goals rcases hput k with ⟨hn, rfl⟩ | hn
  all_goals rw [hn]
  · exact hnode
  · exact h.nodes k
  · exact hrcs.trans (h.clients k)
  · exact h.clients k
  · exact fun o ho => (hqueue o ho).elim (h.queue k o) id
  · exact h.queue k
  · exact hroutes
  · exact h.routes k

/-- Every event keeps the trails. -/
theorem TrailState.step {s : NetState ι} (h : TrailState cfg net rcs s) (ev : NetEvent ι) :
    TrailState cfg net rcs (netStep cfg net ev s) := by
  cases ev with
  | findRoute i origAddr targetAddr stack =>
    obtain ⟨hlrs, -, hrcs⟩ :=
      findRoute_frame cfg (s.now i) origAddr targetAddr stack (s.nodes i)
    refine h.put ((h.nodes i).findRoute cfg (s.now i) origAddr targetAddr stack) hrcs
      (trail_findRoute (h.nodes i) (h.clients i) origAddr targetAddr stack) ?_
    rw [hlrs]
    exact h.routes i
  | transmit i =>
    obtain ⟨hrcs, hdata, hqueue⟩ := transmit_snd (s.nodes i)
    have hi := h.nodes i
    have hold : ∀ o ∈ (transmit (s.nodes i)).2.outbox, o ∈ (s.nodes i).outbox := by
      rw [hqueue]
      exact fun o ho => List.mem_of_mem_tail ho
    have hnode : HostNode (transmit (s.nodes i)).2 :=
      ⟨hrcs ▸ hi.clients, hdata ▸ hi.record, fun o ho => hi.queue o (hold o ho)⟩
    have hput := h.put hnode hrcs (fun o ho => Or.inl (hold o ho))
      (by rw [(transmit_frame (s.nodes i)).1]; exact h.routes i)
    refine ⟨hput.nodes, hput.clients, hput.queue, hput.routes, fun t ht => ?_⟩
    change t ∈ s.inFlight ++ ((transmit (s.nodes i)).1.map (net.copies i)).getD [] at ht
    rcases List.mem_append.mp ht with ht | ht
    · exact h.inFlight t ht
    · obtain ⟨o, ho, hsender, hreceiver, hmsg⟩ := mem_transmitted ht
      rw [hsender]
      exact ⟨hreceiver, o, _, hmsg, hi.queue o ho, h.queue i o ho⟩
  | deliver k =>
    unfold netStep
    dsimp only
    split
    · exact h
    · rename_i t ht
      obtain ⟨hij, o, c, hmsg, hpkt, htrail⟩ := h.inFlight t (List.mem_of_getElem? ht)
      have hqueue : ∀ o' ∈ (receive cfg (s.now t.receiver) (net.addr t.sender) t.msg.context
          (s.nodes t.receiver)).outbox,
          o' ∈ (s.nodes t.receiver).outbox ∨ Trail cfg net rcs t.receiver o' := by
        rw [hmsg]
        cases o with
        | rreq pkt => exact trail_rreq hpkt htrail hij (h.clients t.receiver) _
        | rrep pkt hop => exact trail_rrep hpkt htrail hij c _
      have hroutes := receive_reaches (s.now t.receiver) hpkt htrail hij c (h.routes t.receiver)
      rw [← hmsg] at hroutes
      have hput := h.put ((h.nodes t.receiver).receive cfg (s.now t.receiver) (net.addr t.sender)
        (hmsg ▸ hpkt.written c)) (receive_rcs ..) hqueue hroutes
      exact ⟨hput.nodes, hput.clients, hput.queue, hput.routes,
        fun u hu => h.inFlight u (List.mem_of_mem_eraseIdx hu)⟩
  | lose k =>
    exact ⟨h.nodes, h.clients, h.queue, h.routes,
      fun t ht => h.inFlight t (List.mem_of_mem_eraseIdx ht)⟩
  | tick i d => exact ⟨h.nodes, h.clients, h.queue, h.routes, h.inFlight⟩

/-- So it is in every state that a network reaches. -/
theorem trailState_run (cfg : Conf) (net : Network ι) (sizes : ι → Sizes)
    (hhosts : HostClients rcs) (evs : List (NetEvent ι)) :
    TrailState cfg net rcs (run (netStep cfg net) evs (NetState.init sizes rcs)) :=
  run_invariant_of_step (fun ev _ hs => hs.step ev) evs (trailState_init sizes hhosts)

/-- **Every route leads to a client.** When the clients are single hosts, no
router ever has a route but to a client of some router, through a neighbour
that hears it, and no further away than the first hop limit. -/
theorem routes_reach_clients (cfg : Conf) (net : Network ι) (sizes : ι → Sizes)
    (rcs : ι → RouterClientSet) (hhosts : HostClients rcs) (evs : List (NetEvent ι)) :
    ∀ i, ∀ e ∈ ((run (netStep cfg net) evs (NetState.init sizes rcs)).nodes i).router.lrs,
      ReachesClient cfg net rcs i e.route :=
  (trailState_run cfg net sizes hhosts evs).routes

theorem pairHosts : HostClients (pairClients 128) :=
  fun i e he _ => by rw [List.mem_singleton.mp he]

/-- The first router has a route to the client of the second. -/
theorem pairDiscovery_routes :
    ∃ e ∈ ((run (netStep .default pairNetwork) pairDiscovery
        (NetState.init (fun _ => ⟨2, 2, 2⟩) (pairClients 128))).nodes 0).router.lrs,
      e.route.addr = 2#128 <<< 64 ∧
        ReachesClient .default pairNetwork (pairClients 128) 0 e.route := by
  have hfound : (((run (netStep .default pairNetwork) pairDiscovery
      (NetState.init (fun _ => ⟨2, 2, 2⟩) (pairClients 128))).nodes 0).router.lrs.map
        (·.route.addr)).contains (2#128 <<< 64) = true := by decide +kernel
  obtain ⟨e, he, haddr⟩ := List.mem_map.mp (List.contains_iff_mem.mp hfound)
  exact ⟨e, he, haddr, routes_reach_clients .default pairNetwork (fun _ => ⟨2, 2, 2⟩)
    (pairClients 128) pairHosts pairDiscovery 0 e he⟩

/-- **How far a discovery reaches.** When the clients are single hosts and no
two routers have the same, an RREP that a router accepts for one of its
clients comes from a router with TargNode as a client, and the way there
and the way back are together no longer than the first hop limit. -/
theorem discovery_reach (cfg : Conf) (net : Network ι) (sizes : ι → Sizes)
    (rcs : ι → RouterClientSet) (hhosts : HostClients rcs) (hdisjoint : ClientsDisjoint rcs)
    (evs : List (NetEvent ι)) :
    let s := run (netStep cfg net) evs (NetState.init sizes rcs)
    ∀ t ∈ s.inFlight, t.msg.msgType = msgtypeRrep → ∀ st,
      decodeMessage rrepCallbacks t.msg.context
        (prepared (net.addr t.sender) (s.nodes t.receiver)) = (.ok .okay, st) →
      IsClient (rcs t.receiver) st.msgData.origNode.addr →
      ∃ w n m, IsClient (rcs w) st.msgData.targNode.addr ∧ Hops net n t.receiver w ∧
        Hops net m w t.receiver ∧ n + m ≤ firstHopLimit cfg := by
  intro s t ht htype st hdec hclient
  have hs : TrailState cfg net rcs s := trailState_run cfg net sizes hhosts evs
  obtain ⟨hij, o, c, hmsg, hpkt, htrail⟩ := hs.inFlight t ht
  cases o with
  | rreq pkt =>
    rw [hmsg] at htype
    exact absurd htype (show msgtypeRreq ≠ msgtypeRrep by decide)
  | rrep pkt hop =>
    rw [hmsg] at hdec
    obtain ⟨horig, htarg⟩ := rrep_addrs hpkt hdec
    obtain ⟨u, w, n, m, huser, htargClient, hthere, hback, hle⟩ := htrail
    obtain ⟨hop', hhop, hone⟩ := decodeMessage_hopLimit rrep_follows rrepRules_hopLimit hdec
    cases hhop
    change _ + 1 = pkt.msgHopLimit.toNat at hone
    rw [horig] at hclient
    have huser' : u = t.receiver := by
      by_contra hne
      exact hdisjoint u t.receiver hne _ huser hclient
    subst huser'
    exact ⟨w, n, m + 1, htarg ▸ htargClient, hthere, ⟨t.sender, hback, hij⟩, by omega⟩

omit [DecidableEq ι] in
/-- An entry that is a single host covers itself alone. -/
theorem covers_host {e : RcsEntry} {a : Ipv6Addr} (h : e.pfxLen = 128) (hc : e.covers a = true) :
    e.addr = a := by
  unfold RcsEntry.covers at hc
  rw [h, decide_eq_true_iff] at hc
  have heq := prefixOf_eq_iff.mp ((le_ipv6AddrMatchPrefix_iff (Nat.le_refl 128)).mp hc)
  exact BitVec.eq_of_getMsbD_eq fun i hi => heq i hi

theorem pairClients_disjoint : ClientsDisjoint (pairClients 128) := by
  have hclient : ∀ i a, IsClient (pairClients 128 i) a →
      BitVec.ofNat 128 (i.val + 1) <<< 64 = a := by
    intro i a h
    obtain ⟨e, he⟩ := Option.isSome_iff_exists.mp h
    obtain ⟨hmem, hused, hcovers⟩ := rcsIsClient_some he
    have heq := covers_host (pairHosts i e hmem hused) hcovers
    rw [List.mem_singleton.mp hmem] at heq
    exact heq
  intro i j hij a hi hj
  have heq := (hclient i a hi).trans (hclient j a hj).symm
  clear hi hj
  revert i j
  decide

/-- The answer, on its way back to the first router. -/
def pairAnswer : Transit (Fin 2) where
  sender := ⟨1, Nat.one_lt_two⟩
  receiver := ⟨0, Nat.zero_lt_two⟩
  msg := (writerSendRrep 1 {
    msgHopLimit := 254
    origNode := { addr := 1#128 <<< 64, pfxLen := 128, seqnum := 1 }
    targNode := { addr := 2#128 <<< 64, pfxLen := 128 } }).2

def pairAnswered : NetState (Fin 2) :=
  run (netStep .default pairNetwork) (pairDiscovery.take 4)
    (NetState.init (fun _ => ⟨2, 2, 2⟩) (pairClients 128))

/-- The first router reads it. -/
def pairDecoded : Except Fault Rfc5444Result × CbState :=
  decodeMessage rrepCallbacks pairAnswer.msg.context
    (prepared (pairNetwork.addr pairAnswer.sender) (pairAnswered.nodes pairAnswer.receiver))

theorem pairAnswer_inFlight : pairAnswer ∈ pairAnswered.inFlight := by
  have hflight : pairAnswered.inFlight.map (fun t => (t.sender, t.receiver, t.msg)) =
      [(1, 0, pairAnswer.msg)] := by decide +kernel
  obtain ⟨t, ht, heq⟩ := List.map_eq_singleton_iff.mp hflight
  rw [ht, List.mem_singleton]
  cases t
  cases heq
  rfl

theorem pairAnswer_reach : ∃ w n m, IsClient (pairClients 128 w) (2#128 <<< 64) ∧
    Hops pairNetwork n 0 w ∧ Hops pairNetwork m w 0 ∧ n + m ≤ 255 := by
  have hdec : pairDecoded = (.ok .okay, pairDecoded.2) := Prod.ext (by decide +kernel) rfl
  have hclient : IsClient (pairClients 128 0) pairDecoded.2.msgData.origNode.addr := by
    unfold IsClient
    decide +kernel
  have htarg : pairDecoded.2.msgData.targNode.addr = 2#128 <<< 64 := by decide +kernel
  rw [← htarg]
  exact discovery_reach .default pairNetwork (fun _ => ⟨2, 2, 2⟩) (pairClients 128) pairHosts
    pairClients_disjoint (pairDiscovery.take 4) pairAnswer pairAnswer_inFlight rfl pairDecoded.2
    hdec hclient

end Turpial.Aodvv2
