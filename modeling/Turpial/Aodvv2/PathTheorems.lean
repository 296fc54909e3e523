/-
Turpial.Aodvv2.PathTheorems — a discovery that gets through.

`Turpial.Aodvv2.ReachTheorems` bounds how far a discovery can reach. Here is
the other half: along every path of routers that hear each other, as long
as the way there and the way back fit into the first hop limit, some order
of events takes the RREQ to the last router and the RREP back, and then
every router of the path forwards to both ends (`discovery_along_path`). The
routers exchange packets, and none of them runs into a fault on the way.

The routers start fresh. What a router on the path has taken up so far is
a list of addresses with their next hops (`KnowsRoutes`), and every message
it accepts adds one to it. The proof goes along the path: the rest of it
brings an RREP to the next router, which relays it.
-/
import Turpial.Aodvv2.ReachTheorems
import Turpial.Aodvv2.DiscoveryTheorems
import Mathlib.Data.List.Chain

namespace Turpial.Aodvv2

open Turpial.Lib Turpial.Rfc5444

variable {cfg : Conf} {now : Timex}

/-! ## §1 What a router has taken up -/

/-- How many slots of the table are free. -/
def freeSlots (t : RoutingTable) : Nat := t.countP (fun e => !e.used)

/-- The router has taken up these routes, addresses with their next hops, and
no others. -/
structure KnowsRoutes (cfg : Conf) (now : Timex) (routes : List (Ipv6Addr × Ipv6Addr))
    (lrs : RoutingTable) (nib : Nib) : Prop where
  room : lrs.length = routes.length + freeSlots lrs
  kept : Kept cfg now lrs
  only : ∀ e ∈ lrs, e.route.addr ≠ ipv6AddrUnspecified → (e.route.addr, e.route.nextHop) ∈ routes
  stored : ∀ p ∈ routes, p.1 ≠ ipv6AddrUnspecified ∧ ∃ e ∈ lrs, e.used = true ∧
    e.route.matchesDest p.1 metricHopCount = true ∧ e.route.nextHop = p.2
  forwarded : ∀ p ∈ routes, nib p.1 128 = some p.2

theorem Aged.map_used {t t' : RoutingTable} (h : Aged cfg now t t') :
    t'.map LrsEntry.used = t.map LrsEntry.used := by
  apply List.ext_getElem?
  intro i
  rw [List.getElem?_map, List.getElem?_map]
  cases hi : t[i]? with
  | none =>
    have hlen : t'.length ≤ i := h.1 ▸ List.getElem?_eq_none_iff.mp hi
    rw [List.getElem?_eq_none hlen]
  | some e =>
    obtain ⟨e', he', hslot⟩ := h.slot hi
    rw [he']
    simp [hslot.used]

/-- Ageing frees no slot. -/
theorem Aged.freeSlots {t t' : RoutingTable} (h : Aged cfg now t t') :
    freeSlots t' = freeSlots t := by
  have hcount : ∀ t : RoutingTable,
      Aodvv2.freeSlots t = (t.map LrsEntry.used).countP (fun used => !used) := by
    intro t
    rw [List.countP_map]
    rfl
  rw [hcount, hcount, h.map_used]

/-- Taking a free slot leaves one less. -/
theorem freeSlots_set {t : RoutingTable} {i : Nat} {e : LrsEntry} (he : t[i]? = some e)
    (hfree : e.used = false) (route : LocalRoute) :
    freeSlots (t.set i { route := route, used := true }) + 1 = freeSlots t := by
  obtain ⟨hi, hget⟩ := List.getElem?_eq_some_iff.mp he
  have hpos : 0 < freeSlots t :=
    List.countP_pos_iff.mpr ⟨e, List.mem_of_getElem? he, by simp [hfree]⟩
  unfold freeSlots at hpos ⊢
  rw [List.countP_set hi, hget, hfree]
  simp
  omega

theorem knowsRoutes_init (cfg : Conf) (now : Timex) (n : Nat) :
    KnowsRoutes cfg now [] (lrsInit n) nibInit where
  room := by
    unfold freeSlots lrsInit
    simp [List.countP_replicate]
  kept e he := by
    rw [List.eq_of_mem_replicate he]
    exact fun hexp => hexp.1 rfl
  only e he hne := by
    rw [List.eq_of_mem_replicate he] at hne
    exact absurd rfl hne
  stored p hp := nomatch hp
  forwarded p hp := nomatch hp

section KnowsRoutes

variable {routes : List (Ipv6Addr × Ipv6Addr)} {lrs : RoutingTable} {nib : Nib}

theorem KnowsRoutes.aged (h : KnowsRoutes cfg now routes lrs nib) {t : RoutingTable}
    (haged : Aged cfg now lrs t) : KnowsRoutes cfg now routes t nib where
  room := by rw [haged.1, haged.freeSlots, h.room]
  kept := h.kept.aged haged
  only e' he' hne := by
    obtain ⟨e, he, hslot⟩ := haged.mem he'
    have hsame := hslot.same_of_addr hne
    have hroute := h.only e he (hsame.addr ▸ hne)
    rwa [← hsame.addr, ← hsame.nextHop] at hroute
  stored p hp := by
    obtain ⟨hne, e, he, hused, hmatch, hhop⟩ := h.stored p hp
    obtain ⟨e', he', hslot⟩ := haged.mem_of he
    have hsame := hslot.same (h.kept e he)
    exact ⟨hne, e', he', hslot.used.trans hused, (hsame.matchesDest ..).trans hmatch,
      hsame.nextHop.trans hhop⟩
  forwarded := h.forwarded

/-- Where no route is known, no slot matches. -/
theorem KnowsRoutes.absent (h : KnowsRoutes cfg now routes lrs nib) {a : Advert}
    (haddr : a.node.addr ≠ ipv6AddrUnspecified) (hnew : a.node.addr ∉ routes.map Prod.fst) :
    ∀ e ∈ lrs, a.matches e = false := by
  intro e he
  cases hmatch : a.matches e with
  | false => rfl
  | true =>
    have hkey := (matchesDest_iff.mp hmatch).1
    have hroute := h.only e he (by rw [hkey]; exact haddr)
    rw [hkey] at hroute
    exact absurd (List.mem_map_of_mem hroute) hnew

theorem KnowsRoutes.unknown (h : KnowsRoutes cfg now routes lrs nib) {a : Advert}
    (haddr : a.node.addr ≠ ipv6AddrUnspecified) (hnew : a.node.addr ∉ routes.map Prod.fst) :
    (lrsGetEntry cfg now a.node.addr a.metricType lrs).2 = none := by
  cases hfound : (lrsGetEntry cfg now a.node.addr a.metricType lrs).2 with
  | none => rfl
  | some i =>
    obtain ⟨e, he, hmatch⟩ := lrsGetEntry_some hfound
    have hnone := (lrsGetEntry_aged cfg now a.node.addr a.metricType lrs).no_match haddr
      (h.absent haddr hnew) e (List.mem_of_getElem? he)
    rw [hnone] at hmatch
    cases hmatch

/-- The route tables take a route that is new. -/
theorem KnowsRoutes.taken (h : KnowsRoutes cfg now routes lrs nib) {a : Advert}
    (haddr : a.node.addr ≠ ipv6AddrUnspecified) (hnew : a.node.addr ∉ routes.map Prod.fst) :
    a.taken cfg now lrs = true := by
  have hunknown := h.unknown haddr hnew
  unfold Advert.taken
  generalize lrsGetEntry cfg now a.node.addr a.metricType lrs = found at hunknown
  obtain ⟨t, i⟩ := found
  cases hunknown
  rfl

/-- If a slot is free, the route is one more. -/
theorem KnowsRoutes.update (h : KnowsRoutes cfg now routes lrs nib) {sender : Ipv6Addr}
    {a : Advert} (hsound : AdvertSound cfg sender a) (hlen : a.node.pfxLen = 128)
    (hnew : a.node.addr ∉ routes.map Prod.fst) (hroom : routes.length < lrs.length)
    (hlife : 0 < cfg.validity) {t : RoutingTable} {nib' : Nib}
    (hupdate : RouteUpdate cfg now a lrs nib true t nib') :
    KnowsRoutes cfg now ((a.node.addr, sender) :: routes) t nib' := by
  have hfree : 0 < freeSlots lrs := by
    have := h.room
    omega
  cases hupdate with
  | full aged absent full =>
    rw [← aged.freeSlots] at hfree
    obtain ⟨e, he, hunused⟩ := List.countP_pos_iff.mp hfree
    rw [full e he] at hunused
    cases hunused
  | improved aged slot present offers known =>
    unfold Advert.knows at known
    rw [h.unknown hsound.addr hnew] at known
    cases known
  | @created t i e aged absent slot free =>
    have ht := h.aged aged
    have hi := (List.getElem?_eq_some_iff.mp slot).1
    refine ⟨?_, ?_, ?_, ?_, ?_⟩
    · have hset := freeSlots_set slot free (a.route cfg now)
      have hroom' := ht.room
      rw [List.length_set, List.length_cons]
      omega
    · exact ht.kept.write i (a.route_kept hlife)
    · intro e' he' hne
      rcases List.mem_or_eq_of_mem_set he' with he' | rfl
      · exact List.mem_cons_of_mem _ (ht.only e' he' hne)
      · rw [← hsound.sender]
        exact List.mem_cons_self
    · intro p hp
      rcases List.mem_cons.mp hp with rfl | hp
      · refine ⟨hsound.addr, _, List.mem_set hi _, rfl, ?_, hsound.sender⟩
        exact matchesDest_iff.mpr ⟨rfl, hsound.metricType⟩
      · obtain ⟨hne, e', he', hused, hmatch, hhop⟩ := ht.stored p hp
        -- The slot that is taken is another one, as it was free.
        obtain ⟨j, hj⟩ := List.getElem?_of_mem he'
        have hij : i ≠ j := by
          rintro rfl
          rw [slot] at hj
          cases hj
          rw [free] at hused
          cases hused
        have hj' : (t.set i { route := a.route cfg now, used := true })[j]? = some e' := by
          rw [List.getElem?_set_ne hij]
          exact hj
        exact ⟨hne, e', List.mem_of_getElem? hj', hused, hmatch, hhop⟩
    · intro p hp
      have hkey : prefixOf a.node.addr (128 : UInt8).toNat = a.node.addr := by
        change prefixOf a.node.addr 128 = _
        unfold prefixOf
        rw [prefixMask_full, BitVec.and_allOnes]
      rw [hlen, nibFtAdd_apply _ _ _ _ (p.1, 128), hkey]
      rcases List.mem_cons.mp hp with rfl | hp
      · rw [if_pos rfl, hsound.sender]
      · rw [if_neg, ht.forwarded p hp]
        intro heq
        exact hnew ((Prod.mk.inj heq).1 ▸ List.mem_map_of_mem hp)

/-- A lookup forwards along such a route, if there is one for the address. -/
theorem KnowsRoutes.lookup (h : KnowsRoutes cfg now routes lrs nib)
    (hdistinct : (routes.map Prod.fst).Nodup) {a hop : Ipv6Addr} (hroute : (a, hop) ∈ routes) :
    (lrsGetNextHop cfg now a metricHopCount lrs).2 = some hop := by
  obtain ⟨hne, e, he, -, hmatch, -⟩ := h.stored _ hroute
  have haged := lrsGetEntry_aged cfg now a metricHopCount lrs
  obtain ⟨e', he', hslot⟩ := haged.mem_of he
  have hmatch' : e'.route.matchesDest a metricHopCount = true :=
    ((hslot.same (h.kept e he)).matchesDest ..).trans hmatch
  unfold lrsGetNextHop
  dsimp only
  cases hfound : (lrsGetEntry cfg now a metricHopCount lrs).2 with
  | none =>
    rw [lrsGetEntry_none hfound e' he'] at hmatch'
    cases hmatch'
  | some i =>
    obtain ⟨f, hf, hfmatch⟩ := lrsGetEntry_some hfound
    have hkey := (matchesDest_iff.mp hfmatch).1
    have honly := (h.aged haged).only f (List.mem_of_getElem? hf) (by rw [hkey]; exact hne)
    rw [hkey] at honly
    have hsame := List.inj_on_of_nodup_map hdistinct honly hroute rfl
    have hat : routeAt (lrsGetEntry cfg now a metricHopCount lrs).1 i = f.route := by
      unfold routeAt
      rw [hf]
      rfl
    rw [Option.map_some, hat]
    exact congrArg some (Prod.mk.inj hsame).2

end KnowsRoutes

/-! ## §2 What is asked and what is answered -/

/-- The RREQ of this discovery, with so many hops left and this metric. -/
structure Asks (orig targ : Ipv6Addr) (hops metric : Nat) (pkt : Message) : Prop where
  hop : pkt.msgHopLimit.toNat = hops
  metric : pkt.origNode.metric.toNat = metric
  seqnum : pkt.origNode.seqnum = 1
  origAddr : pkt.origNode.addr = orig
  origLen : pkt.origNode.pfxLen = 128
  targAddr : pkt.targNode.addr = targ
  targLen : pkt.targNode.pfxLen = 128

/-- The RREP that answers it, with so many hops left. -/
structure Answers (orig targ : Ipv6Addr) (hops : Nat) (pkt : Message) : Prop where
  hop : pkt.msgHopLimit.toNat = hops
  seqnum : pkt.origNode.seqnum = 1
  origAddr : pkt.origNode.addr = orig
  origLen : HostLen pkt.origNode.pfxLen
  targAddr : pkt.targNode.addr = targ
  targLen : pkt.targNode.pfxLen = 128

theorem netaddr_ne {m : Message} (h : HostRecord m) (hne : m.origNode.addr ≠ m.targNode.addr) :
    m.origNode.netaddr ≠ m.targNode.netaddr := by
  rw [h.1.netaddr, h.2.netaddr]
  exact fun heq => hne (congrArg Netaddr.addr heq)

theorem hop_pred {hop : UInt8} (h : hop ≠ 0) : (hop - 1).toNat + 1 = hop.toNat := by
  have hpos : 1 ≤ hop := by
    rw [UInt8.le_iff_toNat_le]
    have hne : hop.toNat ≠ 0 := fun hz => h (UInt8.toNat_inj.mp hz)
    change 1 ≤ hop.toNat
    omega
  rw [UInt8.toNat_sub_of_le _ _ hpos]
  have hle : 1 ≤ hop.toNat := UInt8.le_iff_toNat_le.mp hpos
  change hop.toNat - 1 + 1 = _
  omega

theorem hop_ne_zero {hop : UInt8} {hops : Nat} (h : hop.toNat = hops + 1) : hop ≠ 0 := by
  rintro rfl
  have hzero : 0 = hops + 1 := h
  omega

theorem HostLen.ipv6PfxLen {node : NodeData} (h : HostLen node.pfxLen) :
    ipv6PfxLen node.netaddr = 128 := by
  rw [← netaddrToIpv6Addr_snd _ ipv6AddrUnspecified, h.setAddr]

/-- The record that the RREQ leaves asks the same, one hop further on. -/
theorem Asks.decoded {orig targ : Ipv6Addr} {hops metric : Nat} {pkt : Message}
    (h : Asks orig targ (hops + 1) metric pkt) (hne : orig ≠ targ) (d : Message) :
    ∃ st, decodeMessage rreqCallbacks (writerSendRreq pkt).context d = (.ok .okay, st) ∧
      Asks orig targ hops metric st.msgData ∧ st.msgData.metricType = metricHopCount ∧
      st.msgData.sender = d.sender ∧ st.msgData.targNode.metric = d.targNode.metric := by
  have hhost : HostRecord pkt := ⟨Or.inr h.origLen, Or.inr h.targLen⟩
  have hdiffer := netaddr_ne hhost (by rw [h.origAddr, h.targAddr]; exact hne)
  have hhop := hop_ne_zero h.hop
  obtain ⟨reads, hrun⟩ := (rreqContexts_decodable hhop hdiffer).decodeMessage rreq_follows d
  have hpred := hop_pred hhop
  have hrec : decodeAll rreqRules (rreqContexts pkt) { d with msgHopLimit := pkt.msgHopLimit - 1 } =
      { d with
        msgHopLimit := pkt.msgHopLimit - 1
        metricType := metricHopCount
        origNode := { addr := orig, pfxLen := 128, metric := pkt.origNode.metric, seqnum := 1 }
        targNode := { d.targNode with addr := targ, pfxLen := 128 } } := by
    simp [decodeAll, rreqContexts, rreqRules, Message.setOrigAddr, Message.setTargAddr,
      Message.setOrigSeqnum, Message.setMetricType, Message.setMetric, hhost.1.setAddr,
      hhost.2.setAddr, hhost.1.ipv6PfxLen, hhost.2.ipv6PfxLen, h.origAddr, h.targAddr, h.seqnum,
      byteOf, WireTlv.entry, origSeqnumTlv, metricTlv, bytesOfU16, defaultMetric]
  rw [hrec] at hrun
  refine ⟨_, hrun, ⟨?_, h.metric, rfl, rfl, rfl, rfl, rfl⟩, rfl, rfl, rfl⟩
  change (pkt.msgHopLimit - 1).toNat = hops
  rw [h.hop] at hpred
  exact Nat.succ.inj hpred

/-- The two addresses of an RREP with its TLVs, as the reader finds them. -/
def rrepAddresses (c : SeqCounter) (m : Message) : RrepAddresses where
  origAddr := m.origNode.netaddr
  targAddr := m.targNode.netaddr
  origIndex := 0
  targIndex := 0
  origSeqnum := (origSeqnumTlv m.origNode.seqnum).entry
  targSeqnum := (targSeqnumTlv (seqnumGet c)).entry
  metric := (metricTlv m.targNode.metric).entry
  values := by simp [NonNull, WireTlv.entry, origSeqnumTlv, targSeqnumTlv, metricTlv, bytesOfU16]

/-- The record that the RREP leaves answers the same. The metric of TargNode
stays what it was. -/
theorem Answers.decoded {orig targ : Ipv6Addr} {hops : Nat} {pkt : Message}
    (h : Answers orig targ (hops + 1) pkt) (hne : orig ≠ targ) {d : Message}
    (hlen : HostLen d.origNode.pfxLen) :
    ∃ st, decodeMessage rrepCallbacks (writerSendRrep seqnumInit pkt).2.context d =
        (.ok .okay, st) ∧
      Answers orig targ hops st.msgData ∧ st.msgData.metricType = metricHopCount ∧
      st.msgData.sender = d.sender ∧ st.msgData.targNode.metric = d.targNode.metric ∧
      st.msgData.targNode.seqnum = 1 := by
  have hhost : HostRecord pkt := ⟨h.origLen, Or.inr h.targLen⟩
  have hdiffer := netaddr_ne hhost (by rw [h.origAddr, h.targAddr]; exact hne)
  have hhop := hop_ne_zero h.hop
  have hdec : Decodable rrepRules (writerSendRrep seqnumInit pkt).2.context pkt.msgHopLimit
      ((rrepAddresses seqnumInit pkt).contexts true) := by
    refine ⟨rfl, hhop, ?_, (rrepAddresses seqnumInit pkt).contexts_accepted true⟩
    unfold WireMessage.context writerSendRrep
    dsimp only
    rw [cbRrepAddAddresses_ne hdiffer]
    rfl
  obtain ⟨reads, hrun⟩ := hdec.decodeMessage rrep_follows d
  have hpred := hop_pred hhop
  have hrec : decodeAll rrepRules ((rrepAddresses seqnumInit pkt).contexts true)
      { d with msgHopLimit := pkt.msgHopLimit - 1 } =
      { d with
        msgHopLimit := pkt.msgHopLimit - 1
        metricType := metricHopCount
        origNode := { d.origNode with addr := orig, metric := pkt.targNode.metric, seqnum := 1 }
        targNode := { d.targNode with addr := targ, pfxLen := 128, seqnum := 1 } } := by
    simp [decodeAll, RrepAddresses.contexts, RrepAddresses.orig, RrepAddresses.targ, rrepAddresses,
      rrepRules, Message.setOrigAddrRrep, Message.setTargAddr, Message.setOrigSeqnum,
      Message.setTargSeqnum, Message.setMetricType, Message.setMetric, hhost.1.setAddr,
      hhost.2.setAddr, hhost.1.ipv6PfxLen, hhost.2.ipv6PfxLen, h.origAddr, h.targAddr, h.seqnum,
      byteOf, WireTlv.entry, origSeqnumTlv, targSeqnumTlv, metricTlv, bytesOfU16, defaultMetric,
      seqnumGet, seqnumInit]
  rw [hrec] at hrun
  refine ⟨_, hrun, ⟨?_, rfl, rfl, hlen, rfl, rfl⟩, rfl, rfl, rfl, rfl⟩
  change (pkt.msgHopLimit - 1).toNat = hops
  rw [h.hop] at hpred
  exact Nat.succ.inj hpred

/-! ## §3 Routers on the path -/

/-- A router of the path that knows these routes. An RREP is read over the
metric of TargNode and the prefix length of OrigNode in its record. -/
structure Ready (cfg : Conf) (now : Timex) (routes : List (Ipv6Addr × Ipv6Addr)) (s : Node) :
    Prop where
  routes : KnowsRoutes cfg now routes s.router.lrs s.router.nib
  metric : s.msgData.targNode.metric = 0
  origLen : HostLen s.msgData.origNode.pfxLen

/-- A metric below the limit is let through. -/
theorem metric_let_through {metric : UInt8} (h : metric.toNat + 2 ≤ cfg.metricHopCountMax.toNat) :
    metricLimitReached cfg metricHopCount metric = false := by
  unfold metricLimitReached metricMax metricLinkCost
  rw [if_pos rfl, if_pos rfl, decide_eq_false_iff_not]
  have hone : (1 : UInt8).toNat = 1 := rfl
  omega

/-- A set without entries finds nothing redundant. -/
theorem mcmsgProcess_init (cfg : Conf) (now : Timex) (msg : Message) (n : Nat) :
    (mcmsgProcess cfg now msg (mcmsgInit n)).1 = .ok := by
  unfold mcmsgProcess
  dsimp only
  cases hfound : (findComparableEntry now msg (mcmsgInit n)).2 with
  | none => rfl
  | some i =>
    obtain ⟨e, hfirst, -⟩ := findComparable_some hfound
    have hused := hfirst.live.1
    rw [List.eq_of_mem_replicate (List.mem_of_getElem? hfirst.at_slot)] at hused
    cases hused

section Received

variable {orig targ sender : Ipv6Addr} {hops metric : Nat} {pkt : Message}

/-- A fresh router with OrigNode as a client asks for TargNode. -/
theorem findRoute_asks (cfg : Conf) (now : Timex) (sizes : Sizes) {rcs : RouterClientSet}
    (hhosts : ∀ e ∈ rcs, e.used = true → e.pfxLen = 128) (horig : IsClient rcs orig)
    (targ : Ipv6Addr) (stack : Message) :
    ∃ s q, findRoute cfg now orig targ stack (Node.init sizes rcs) = some s ∧
      s.outbox = [.rreq q] ∧ Asks orig targ (firstHopLimit cfg) 0 q ∧ Ready cfg now [] s ∧
      s.router.lrs = lrsInit sizes.routingEntries ∧ s.router.rcs = rcs := by
  obtain ⟨client, hclient⟩ := Option.isSome_iff_exists.mp horig
  obtain ⟨hmem, hused, hcovers⟩ := rcsIsClient_some hclient
  have hlen : client.pfxLen = 128 := hhosts client hmem hused
  refine ⟨_, findRoutePkt cfg client targ (seqnumGet seqnumInit) stack,
    congrArg (Option.map _) hclient, rfl, ?_, ?_, rfl, rfl⟩
  · exact ⟨rfl, rfl, rfl, covers_host hlen hcovers, hlen, rfl, rfl⟩
  · exact ⟨knowsRoutes_init cfg now _, rfl, Or.inl rfl⟩

/-- The RREQ reaches a fresh router: it takes up the route to OrigNode, and
answers for a client or passes the RREQ on. -/
theorem Asks.received (now : Timex) (h : Asks orig targ (hops + 2) metric pkt) (hne : orig ≠ targ)
    (horig : orig ≠ ipv6AddrUnspecified) (htarg : targ ≠ ipv6AddrUnspecified)
    (hmetric : metric + 2 ≤ cfg.metricHopCountMax.toNat) (hlife : 0 < cfg.validity)
    (sizes : Sizes) (hroom : 0 < sizes.routingEntries) (rcs : RouterClientSet) (sender : Ipv6Addr) :
    let s := receive cfg now sender (writerSendRreq pkt).context (Node.init sizes rcs)
    Ready cfg now [(orig, sender)] s ∧ s.router.seqnum = seqnumInit ∧
      (IsClient rcs targ →
        ∃ q, s.outbox = [.rrep q sender] ∧ Answers orig targ (hops + 1) q) ∧
      (¬ IsClient rcs targ →
        ∃ q, s.outbox = [.rreq q] ∧ Asks orig targ (hops + 1) (metric + 1) q) := by
  obtain ⟨st, hdec, hasks, htype, hsender, htargMetric⟩ :=
    h.decoded hne (prepared sender (Node.init sizes rcs))
  intro s
  have hs : s = (cbRreqEndCallback cfg now false
      { handlePacketPrepare sender (Node.init sizes rcs) with msgData := st.msgData }).2 := by
    unfold s receive consumeMessage
    rw [if_pos (show (writerSendRreq pkt).context.msgType = msgtypeRreq from rfl),
      consumeWith_okay hdec]
    rfl
  have hlimit : metricLimitReached cfg st.msgData.metricType st.msgData.origNode.metric = false := by
    rw [htype]
    exact metric_let_through (hasks.metric ▸ hmetric)
  have hchecks : RreqChecks cfg st.msgData := by
    refine ⟨?_, ?_, ?_, hop_ne_zero hasks.hop, hlimit⟩
    · rw [hasks.origAddr]
      exact horig
    · rw [hasks.seqnum]
      decide
    · rw [hasks.targAddr]
      exact htarg
  have hseen : ¬ Redundant cfg now st.msgData (Router.init sizes rcs) := by
    unfold Redundant
    rw [show (Router.init sizes rcs).mcmsg = mcmsgInit sizes.mcmsgEntries from rfl,
      mcmsgProcess_init]
    decide
  have hknown := knowsRoutes_init cfg now sizes.routingEntries
  have htaken : (rreqAdvert st.msgData).taken cfg now (Router.init sizes rcs).lrs = true :=
    hknown.taken hchecks.1 List.not_mem_nil
  obtain ⟨hupdated, hupdate⟩ := rreqTables_update now (Router.init sizes rcs) hchecks
  rw [htaken] at hupdated hupdate
  have hroutes : KnowsRoutes cfg now [(orig, sender)]
      (rreqTables cfg now st.msgData (Router.init sizes rcs)).2.lrs
      (rreqTables cfg now st.msgData (Router.init sizes rcs)).2.nib := by
    have hnew := hknown.update (rreqAdvert_sound hchecks) hasks.origLen List.not_mem_nil
      (by rw [show (lrsInit sizes.routingEntries).length = _ from List.length_replicate]; exact hroom)
      hlife hupdate
    rw [hsender, show (rreqAdvert st.msgData).node.addr = orig from hasks.origAddr] at hnew
    exact hnew
  have hseqnum : (rreqTables cfg now st.msgData (Router.init sizes rcs)).2.seqnum = seqnumInit :=
    (updateRoute_frame _ _ _ _).2.2.2
  have hask : Asks orig targ (hops + 1) (metric + 1) (rreqRecord now st.msgData) := by
    obtain ⟨-, hone, -⟩ := metricUpdate_sound hlimit
    exact ⟨hasks.hop, hone.trans (congrArg (· + 1) hasks.metric), hasks.seqnum, hasks.origAddr,
      hasks.origLen, hasks.targAddr, hasks.targLen⟩
  have hout := cbRreqEndCallback_outcome cfg now
    { handlePacketPrepare sender (Node.init sizes rcs) with msgData := st.msgData }
  rw [hs]
  generalize cbRreqEndCallback cfg now false _ = result at hout
  cases hout with
  | refused hrefused => exact absurd hchecks hrefused
  | redundant _ hredundant => exact absurd hredundant hseen
  | noImprovement _ _ hkept => exact absurd (hupdated.symm.trans hkept) (by decide)
  | answered _ _ _ hclient =>
    rw [hasks.targAddr] at hclient
    refine ⟨⟨hroutes, rfl, Or.inr hasks.origLen⟩, hseqnum, fun _ => ?_, fun h => absurd hclient h⟩
    refine ⟨{ rreqRecord now st.msgData with targNode.metric := 0 }, ?_, ?_⟩
    · rw [show sender = st.msgData.sender from hsender.symm]
      rfl
    · exact ⟨hask.hop, hask.seqnum, hask.origAddr, Or.inr hask.origLen, hask.targAddr, hask.targLen⟩
  | forwarded _ _ _ hclient =>
    rw [hasks.targAddr] at hclient
    exact ⟨⟨hroutes, htargMetric, Or.inr hasks.origLen⟩, hseqnum, fun h => absurd h hclient,
      fun _ => ⟨_, rfl, hask⟩⟩

/-- The RREP reaches a router that waits for it: it takes up the route to
TargNode, and passes the RREP on along its route to OrigNode if that is not a
client. -/
theorem Answers.received (h : Answers orig targ (hops + 1) pkt) (hne : orig ≠ targ)
    (horig : orig ≠ ipv6AddrUnspecified) (htarg : targ ≠ ipv6AddrUnspecified)
    (hmax : 2 ≤ cfg.metricHopCountMax.toNat) (hlife : 0 < cfg.validity)
    {routes : List (Ipv6Addr × Ipv6Addr)} {s : Node} (hs : Ready cfg now routes s)
    (hnew : targ ∉ routes.map Prod.fst) (hroom : routes.length < s.router.lrs.length)
    (hdistinct : (routes.map Prod.fst).Nodup) (sender : Ipv6Addr) :
    let s' := receive cfg now sender (writerSendRrep seqnumInit pkt).2.context s
    KnowsRoutes cfg now ((targ, sender) :: routes) s'.router.lrs s'.router.nib ∧
      (IsClient s.router.rcs orig ∨ orig ∈ routes.map Prod.fst →
        ¬ NullNextHop cfg now sender (writerSendRrep seqnumInit pkt).2.context s) ∧
      (¬ IsClient s.router.rcs orig → ∀ hop, (orig, hop) ∈ routes →
        s'.router.seqnum = s.router.seqnum ∧
          ∃ q, s'.outbox = s.outbox ++ [.rrep q hop] ∧ Answers orig targ hops q) := by
  obtain ⟨st, hdec, hanswers, htype, hsender, htargMetric, htargSeqnum⟩ :=
    h.decoded hne (show HostLen (prepared sender s).origNode.pfxLen from hs.origLen)
  intro s'
  have hs' : s' = (cbRrepEndCallback cfg now false
      { handlePacketPrepare sender s with msgData := st.msgData }).2 := by
    unfold s' receive consumeMessage
    rw [if_neg (show ¬ (writerSendRrep seqnumInit pkt).2.context.msgType = msgtypeRreq by
        show msgtypeRrep ≠ msgtypeRreq; decide),
      if_pos (show (writerSendRrep seqnumInit pkt).2.context.msgType = msgtypeRrep from rfl),
      consumeWith_okay hdec]
    rfl
  have hzero : st.msgData.targNode.metric = 0 := htargMetric.trans hs.metric
  have hchecks : RrepChecks cfg st.msgData := by
    refine ⟨?_, ?_, ?_, ?_, ?_⟩
    · rw [hanswers.origAddr]
      exact horig
    · rw [hanswers.seqnum]
      decide
    · rw [hanswers.targAddr]
      exact htarg
    · rw [htargSeqnum]
      decide
    · rw [htype, hzero]
      exact metric_let_through hmax
  have hnew' : (rrepAdvert st.msgData).node.addr ∉ routes.map Prod.fst := by
    rw [show (rrepAdvert st.msgData).node.addr = targ from hanswers.targAddr]
    exact hnew
  obtain ⟨hupdated, hupdate⟩ := rrepTables_update now s.router hchecks
  rw [hs.routes.taken hchecks.2.2.1 hnew'] at hupdated hupdate
  have hroutes : KnowsRoutes cfg now ((targ, sender) :: routes)
      (rrepTables cfg now st.msgData s.router).2.lrs
      (rrepTables cfg now st.msgData s.router).2.nib := by
    have hknown := hs.routes.update (rrepAdvert_sound hchecks) hanswers.targLen hnew' hroom hlife
      hupdate
    rw [hsender, show (rrepAdvert st.msgData).node.addr = targ from hanswers.targAddr] at hknown
    exact hknown
  have hseqnum : (rrepTables cfg now st.msgData s.router).2.seqnum = s.router.seqnum :=
    (updateRoute_frame _ _ _ _).2.2.2
  have hanswer : Answers orig targ hops (rrepRecord now st.msgData) :=
    ⟨hanswers.hop, hanswers.seqnum, hanswers.origAddr, hanswers.origLen, hanswers.targAddr,
      hanswers.targLen⟩
  have hlookup : ∀ hop, (orig, hop) ∈ routes → (rrepNextHop cfg now
      { handlePacketPrepare sender s with msgData := st.msgData }).2 = some hop := by
    intro hop hhop
    unfold rrepNextHop
    dsimp only
    rw [hanswers.origAddr, htype]
    exact hroutes.lookup (List.nodup_cons.mpr ⟨hnew, hdistinct⟩) (List.mem_cons_of_mem _ hhop)
  have hfinds : IsClient s.router.rcs orig ∨ orig ∈ routes.map Prod.fst →
      ¬ NullNextHop cfg now sender (writerSendRrep seqnumInit pkt).2.context s := by
    unfold NullNextHop
    rw [hdec]
    rintro hway ⟨-, -, ⟨-, -, hforeign⟩, hnone⟩
    dsimp only at hforeign
    rw [hanswers.origAddr] at hforeign
    rcases hway with hclient | hroute
    · exact hforeign hclient
    · obtain ⟨⟨a, hop⟩, hmem, rfl⟩ := List.mem_map.mp hroute
      exact Option.some_ne_none hop ((hlookup hop hmem).symm.trans hnone)
  have haged : Aged cfg now (rrepTables cfg now st.msgData s.router).2.lrs
      (rrepNextHop cfg now { handlePacketPrepare sender s with msgData := st.msgData }).1 :=
    lrsGetEntry_aged _ _ _ _ _
  have hout := cbRrepEndCallback_outcome cfg now
    { handlePacketPrepare sender s with msgData := st.msgData }
  rw [hs']
  generalize cbRrepEndCallback cfg now false _ = result at hout
  cases hout with
  | refused hrefused => exact absurd hchecks hrefused
  | noImprovement _ hkept => exact absurd (hupdated.symm.trans hkept) (by decide)
  | arrived _ _ hclient =>
    rw [hanswers.origAddr] at hclient
    exact ⟨hroutes, hfinds, fun hnot => absurd hclient hnot⟩
  | relayed _ _ _ hhop =>
    refine ⟨hroutes.aged haged, hfinds, fun _ hop hmem => ⟨hseqnum, _, ?_, hanswer⟩⟩
    rw [hlookup hop hmem] at hhop
    cases hhop
    rfl
  | noNextHop _ _ _ hhop =>
    refine ⟨hroutes.aged haged, hfinds, fun _ hop hmem => ?_⟩
    rw [hlookup hop hmem] at hhop
    cases hhop

theorem RouteUpdate.length {a : Advert} {lrs t : RoutingTable} {nib nib' : Nib} {taken : Bool}
    (h : RouteUpdate cfg now a lrs nib taken t nib') : t.length = lrs.length := by
  cases h with
  | kept aged => exact aged.1
  | full aged => exact aged.1
  | created aged => rw [List.length_set, aged.1]
  | improved aged => rw [List.length_set, aged.1]

/-- No message changes the size of the table. -/
theorem receive_length (cfg : Conf) (now : Timex) (sender : Ipv6Addr) (msg : MessageContext)
    (s : Node) : (receive cfg now sender msg s).router.lrs.length = s.router.lrs.length := by
  have hhandled := receive_handled cfg now sender msg s
  generalize advert? cfg now sender msg s = a at hhandled
  cases hhandled with
  | quiet rcs lrs => rw [lrs]
  | updated rcs update aged => rw [aged.1, update.length]

end Received

/-! ## §4 One hop -/

variable {ι : Type} [DecidableEq ι] {net : Network ι}

/-- Only the routers of the list have done anything, and no time has passed. -/
structure OnlyChanges (xs : List ι) (s s' : NetState ι) : Prop where
  now : s'.now = s.now
  nodes : ∀ i ∉ xs, s'.nodes i = s.nodes i

omit [DecidableEq ι] in
theorem OnlyChanges.trans {xs : List ι} {s₁ s₂ s₃ : NetState ι} (h₁ : OnlyChanges xs s₁ s₂)
    (h₂ : OnlyChanges xs s₂ s₃) : OnlyChanges xs s₁ s₃ :=
  ⟨h₂.now.trans h₁.now, fun i hi => (h₂.nodes i hi).trans (h₁.nodes i hi)⟩

omit [DecidableEq ι] in
theorem OnlyChanges.mono {xs ys : List ι} {s s' : NetState ι} (h : OnlyChanges xs s s')
    (hsub : ∀ i ∈ xs, i ∈ ys) : OnlyChanges ys s s' :=
  ⟨h.now, fun i hi => h.nodes i fun hmem => hi (hsub i hmem)⟩

theorem onlyChanges_put (s : NetState ι) (i : ι) (n : Node) (msgs : List (Transit ι)) :
    OnlyChanges [i] s { s.put i n with inFlight := msgs } :=
  ⟨rfl, fun _ hk => Function.update_of_ne (fun h => hk (List.mem_singleton.mpr h)) ..⟩

/-- A router sends the message it has, and a copy is on its way to each
neighbour that is to hear it. -/
theorem sent (cfg : Conf) {s : NetState ι} {v w : ι} {o : Outgoing}
    (hout : (s.nodes v).outbox = [o]) (hw : w ∈ net.neighbours v)
    (hdst : o.destination = .allManetRouters ∨ o.destination = .unicast (net.addr w)) :
    ∃ s', Reaches (netStep cfg net) (FindsHop cfg net) s s' ∧ OnlyChanges [v] s s' ∧
      s'.nodes v = (transmit (s.nodes v)).2 ∧
      ⟨v, w, o.written (s.nodes v).router.seqnum⟩ ∈ s'.inFlight := by
  refine ⟨netStep cfg net (.transmit v) s, .single trivial, onlyChanges_put s v _ _,
    Function.update_self .., ?_⟩
  change _ ∈ s.inFlight ++ ((transmit (s.nodes v)).1.map (net.copies v)).getD []
  rw [transmit_fst, hout]
  refine List.mem_append_right _ ?_
  change _ ∈ net.copies v (o.destination, o.written (s.nodes v).router.seqnum)
  rcases hdst with hdst | hdst
  · rw [hdst]
    exact List.mem_map.mpr ⟨w, hw, rfl⟩
  · rw [hdst]
    exact List.mem_map.mpr ⟨w, List.mem_filter.mpr ⟨hw, beq_self_eq_true _⟩, rfl⟩

/-- What is on its way arrives, unless the receiver would hand on a null next
hop. -/
theorem arrives {s : NetState ι} {t : Transit ι} (ht : t ∈ s.inFlight)
    (hfinds : ¬ NullNextHop cfg (s.now t.receiver) (net.addr t.sender) t.msg.context
      (s.nodes t.receiver)) :
    ∃ s', Reaches (netStep cfg net) (FindsHop cfg net) s s' ∧ OnlyChanges [t.receiver] s s' ∧
      s'.nodes t.receiver = receive cfg (s.now t.receiver) (net.addr t.sender) t.msg.context
        (s.nodes t.receiver) := by
  obtain ⟨k, hk⟩ := List.getElem?_of_mem ht
  have hstep : netStep cfg net (.deliver k) s =
      { s.put t.receiver (receive cfg (s.now t.receiver) (net.addr t.sender) t.msg.context
          (s.nodes t.receiver)) with
        inFlight := s.inFlight.eraseIdx k } := by
    unfold netStep
    dsimp only
    rw [hk]
  have hstepFinds : FindsHop cfg net (.deliver k) s := by
    intro u hu
    rw [hk] at hu
    cases hu
    exact hfinds
  refine ⟨netStep cfg net (.deliver k) s, .single hstepFinds, ?_, ?_⟩
  · rw [hstep]
    exact onlyChanges_put s t.receiver _ _
  · rw [hstep]
    exact Function.update_self ..

/-! ## §5 Along a path -/

/-- The router forwards what is for the address to this hop, and so does its NIB. -/
def Forwards (cfg : Conf) (now : Timex) (s : Node) (a hop : Ipv6Addr) : Prop :=
  (lrsGetNextHop cfg now a metricHopCount s.router.lrs).2 = some hop ∧
    s.router.nib a 128 = some hop

/-- Two routers of the path forward through each other, one way to TargNode and
the other way to OrigNode. -/
def Linked (cfg : Conf) (net : Network ι) (now : ι → Timex) (nodes : ι → Node)
    (orig targ : Ipv6Addr) (i j : ι) : Prop :=
  Forwards cfg (now i) (nodes i) targ (net.addr j) ∧
    Forwards cfg (now j) (nodes j) orig (net.addr i)

/-- Two routers hear each other. -/
def Hear (net : Network ι) (i j : ι) : Prop := j ∈ net.neighbours i ∧ i ∈ net.neighbours j

theorem KnowsRoutes.forwards {routes : List (Ipv6Addr × Ipv6Addr)} {s : Node}
    (h : KnowsRoutes cfg now routes s.router.lrs s.router.nib)
    (hdistinct : (routes.map Prod.fst).Nodup) {a hop : Ipv6Addr} (hroute : (a, hop) ∈ routes) :
    Forwards cfg now s a hop :=
  ⟨h.lookup hdistinct hroute, h.forwarded _ hroute⟩

omit [DecidableEq ι] in
theorem OnlyChanges.forwards {xs : List ι} {s s' : NetState ι} (h : OnlyChanges xs s s') {i : ι}
    (hi : i ∉ xs) {a hop : Ipv6Addr} (hs : Forwards cfg (s.now i) (s.nodes i) a hop) :
    Forwards cfg (s'.now i) (s'.nodes i) a hop := by
  rw [h.now, h.nodes i hi]
  exact hs

omit [DecidableEq ι] in
theorem OnlyChanges.linked {xs ys : List ι} {s s' : NetState ι} (h : OnlyChanges xs s s')
    {orig targ : Ipv6Addr} (hys : ∀ x ∈ ys, x ∉ xs)
    (hs : ys.IsChain (Linked cfg net s.now s.nodes orig targ)) :
    ys.IsChain (Linked cfg net s'.now s'.nodes orig targ) :=
  hs.imp_of_mem_imp fun x y hx hy hxy =>
    ⟨h.forwards (hys x hx) hxy.1, h.forwards (hys y hy) hxy.2⟩

/-- What a discovery of TargNode by OrigNode rests on. -/
structure Discoverable (cfg : Conf) (sizes : ι → Sizes) (orig targ : Ipv6Addr) : Prop where
  lifetime : 0 < cfg.validity
  orig_ne : orig ≠ ipv6AddrUnspecified
  targ_ne : targ ≠ ipv6AddrUnspecified
  differ : orig ≠ targ
  room : ∀ i, 2 ≤ (sizes i).routingEntries

/-- The rest of a path has answered the RREQ of router `v`: an RREP for it is on
its way from `w`, and the routers from `w` on forward to both ends. -/
structure Answered (cfg : Conf) (net : Network ι) (orig targ : Ipv6Addr) (hops : Nat) (v w : ι)
    (rest : List ι) (s s' : NetState ι) : Prop where
  reached : Reaches (netStep cfg net) (FindsHop cfg net) s s'
  changes : OnlyChanges (v :: w :: rest) s s'
  asker : s'.nodes v = (transmit (s.nodes v)).2
  answer : ∃ q hop, Answers orig targ (hops + 1) q ∧
    ⟨w, v, (Outgoing.rrep q hop).written seqnumInit⟩ ∈ s'.inFlight
  back : Forwards cfg (s'.now w) (s'.nodes w) orig (net.addr v)
  linked : (w :: rest).IsChain (Linked cfg net s'.now s'.nodes orig targ)

section Path

variable {sizes : ι → Sizes} {rcs : ι → RouterClientSet} {orig targ : Ipv6Addr}

/-- A router has taken up the route to OrigNode and waits for the RREP. -/
structure Waits (cfg : Conf) (now : Timex) (orig prev : Ipv6Addr) (s : Node) : Prop where
  ready : Ready cfg now [(orig, prev)] s
  seqnum : s.router.seqnum = seqnumInit
  room : 1 < s.router.lrs.length
  foreign : ¬ IsClient s.router.rcs orig

/-- A router sends its RREQ and the next one, which is fresh, receives it. -/
theorem asked (h : Discoverable cfg sizes orig targ) {s : NetState ι} {v w : ι} {hops metric : Nat}
    {q : Message} (hout : (s.nodes v).outbox = [.rreq q])
    (hask : Asks orig targ (hops + 2) metric q) (hw : w ∈ net.neighbours v) (hvw : w ≠ v)
    (hfresh : s.nodes w = Node.init (sizes w) (rcs w)) (hforeign : ¬ IsClient (rcs w) orig)
    (hmax : metric + 2 ≤ cfg.metricHopCountMax.toNat) :
    ∃ s', Reaches (netStep cfg net) (FindsHop cfg net) s s' ∧ OnlyChanges [v, w] s s' ∧
      s'.nodes v = (transmit (s.nodes v)).2 ∧
      Waits cfg (s'.now w) orig (net.addr v) (s'.nodes w) ∧
      (IsClient (rcs w) targ → ∃ q', (s'.nodes w).outbox = [.rrep q' (net.addr v)] ∧
        Answers orig targ (hops + 1) q') ∧
      (¬ IsClient (rcs w) targ → ∃ q', (s'.nodes w).outbox = [.rreq q'] ∧
        Asks orig targ (hops + 1) (metric + 1) q') := by
  obtain ⟨s₁, hreach₁, hchanges₁, hv₁, hflight⟩ := sent cfg hout hw (Or.inl rfl)
  have hrreq : ¬ msgtypeRreq = msgtypeRrep := by decide
  obtain ⟨s₂, hreach₂, hchanges₂, hw₂⟩ := arrives hflight fun hnull => hrreq hnull.1
  change OnlyChanges [w] s₁ s₂ at hchanges₂
  have hchanges : OnlyChanges [v, w] s s₂ :=
    (hchanges₁.mono (by simp)).trans (hchanges₂.mono (by simp))
  have hv₂ : s₂.nodes v = (transmit (s.nodes v)).2 := by
    rw [hchanges₂.nodes v (by simpa using hvw.symm), hv₁]
  change s₂.nodes w = receive cfg (s₁.now w) (net.addr v) (writerSendRreq q).context (s₁.nodes w)
    at hw₂
  rw [hchanges₁.nodes w (by simpa using hvw), hfresh, ← hchanges₂.now] at hw₂
  have hroom := h.room w
  obtain ⟨hready, hseqnum, hanswers, hasks⟩ := hask.received (s₂.now w) h.differ h.orig_ne
    h.targ_ne hmax h.lifetime (sizes w) (by omega) (rcs w) (net.addr v)
  have hlength := receive_length cfg (s₂.now w) (net.addr v) (writerSendRreq q).context
    (Node.init (sizes w) (rcs w))
  have hrcs := receive_rcs cfg (s₂.now w) (net.addr v) (writerSendRreq q).context
    (Node.init (sizes w) (rcs w))
  rw [← hw₂] at hready hseqnum hanswers hasks hlength hrcs
  refine ⟨s₂, hreach₁.trans hreach₂, hchanges, hv₂, ⟨hready, hseqnum, ?_, ?_⟩, hanswers, hasks⟩
  · rw [hlength, show (Node.init (sizes w) (rcs w)).router.lrs.length = _ from List.length_replicate]
    omega
  · rw [hrcs]
    exact hforeign

/-- A router sends its RREP back, and keeps its routes. -/
theorem answer_sent {s : NetState ι} {v w : ι} {q : Message}
    (hout : (s.nodes w).outbox = [.rrep q (net.addr v)]) (hv : v ∈ net.neighbours w)
    (hseqnum : (s.nodes w).router.seqnum = seqnumInit) {routes : List (Ipv6Addr × Ipv6Addr)}
    (hknown : KnowsRoutes cfg (s.now w) routes (s.nodes w).router.lrs (s.nodes w).router.nib)
    (hdistinct : (routes.map Prod.fst).Nodup) :
    ∃ s', Reaches (netStep cfg net) (FindsHop cfg net) s s' ∧ OnlyChanges [w] s s' ∧
      ⟨w, v, (Outgoing.rrep q (net.addr v)).written seqnumInit⟩ ∈ s'.inFlight ∧
      ∀ p ∈ routes, Forwards cfg (s'.now w) (s'.nodes w) p.1 p.2 := by
  obtain ⟨s', hreach, hchanges, hw, hflight⟩ := sent cfg hout hv (Or.inr rfl)
  rw [hseqnum] at hflight
  refine ⟨s', hreach, hchanges, hflight, fun p hp => ?_⟩
  obtain ⟨hlrs, hnib, -⟩ := transmit_frame (s.nodes w)
  rw [← hlrs, ← hnib, ← hw, ← hchanges.now] at hknown
  exact hknown.forwards hdistinct hp

/-- A router that waits takes the RREP and sends it back to the router it heard
the RREQ from. -/
theorem relayed (h : Discoverable cfg sizes orig targ) {s : NetState ι} {v w w' : ι} {hops : Nat}
    {q : Message} {hop : Ipv6Addr} (hwaits : Waits cfg (s.now w) orig (net.addr v) (s.nodes w))
    (hout : (s.nodes w).outbox = []) (hanswer : Answers orig targ (hops + 1) q)
    (hflight : ⟨w', w, (Outgoing.rrep q hop).written seqnumInit⟩ ∈ s.inFlight)
    (hv : v ∈ net.neighbours w) (hmax : 2 ≤ cfg.metricHopCountMax.toNat) :
    ∃ s' q', Reaches (netStep cfg net) (FindsHop cfg net) s s' ∧ OnlyChanges [w] s s' ∧
      Answers orig targ hops q' ∧
      ⟨w, v, (Outgoing.rrep q' (net.addr v)).written seqnumInit⟩ ∈ s'.inFlight ∧
      Forwards cfg (s'.now w) (s'.nodes w) targ (net.addr w') ∧
      Forwards cfg (s'.now w) (s'.nodes w) orig (net.addr v) := by
  have hnew : targ ∉ [(orig, net.addr v)].map Prod.fst := by simpa using h.differ.symm
  obtain ⟨hknown, hfinds, hrelayed⟩ := hanswer.received h.differ h.orig_ne h.targ_ne hmax
    h.lifetime hwaits.ready hnew hwaits.room (List.nodup_singleton _) (net.addr w')
  obtain ⟨s₁, hreach₁, hchanges₁, hw₁⟩ := arrives hflight (hfinds (Or.inr List.mem_cons_self))
  change OnlyChanges [w] s s₁ at hchanges₁
  change s₁.nodes w = receive cfg (s.now w) (net.addr w')
    (writerSendRrep seqnumInit q).2.context (s.nodes w) at hw₁
  rw [← hw₁] at hknown hrelayed
  obtain ⟨hseqnum, q', hout', hanswer'⟩ := hrelayed hwaits.foreign _ List.mem_cons_self
  rw [hout] at hout'
  rw [← hchanges₁.now] at hknown
  obtain ⟨s₂, hreach₂, hchanges₂, hflight₂, hforwards⟩ :=
    answer_sent hout' hv (hseqnum.trans hwaits.seqnum) hknown
      (List.nodup_cons.mpr ⟨hnew, List.nodup_singleton _⟩)
  exact ⟨s₂, q', hreach₁.trans hreach₂, hchanges₁.trans hchanges₂, hanswer', hflight₂,
    hforwards (targ, net.addr w') (by simp), hforwards (orig, net.addr v) (by simp)⟩

theorem transmit_rreq {s : Node} {q : Message} (h : s.outbox = [.rreq q]) :
    (transmit s).2 = { s with outbox := [] } := by
  unfold transmit
  rw [h]

/-- The rest of a path answers. The induction goes along the path: the next
router answers itself, or has the rest behind it answer first. -/
theorem answered (h : Discoverable cfg sizes orig targ) (rest : List ι) {v w : ι} {s : NetState ι}
    {hops metric : Nat} {q : Message} (hnodup : (v :: w :: rest).Nodup)
    (hhear : (v :: w :: rest).IsChain (Hear net)) (hout : (s.nodes v).outbox = [.rreq q])
    (hask : Asks orig targ (hops + 2 * (rest.length + 1)) metric q)
    (hfresh : ∀ x ∈ w :: rest, s.nodes x = Node.init (sizes x) (rcs x))
    (hforeign : ∀ x ∈ w :: rest, ¬ IsClient (rcs x) orig)
    (htarg : ∀ x ∈ w :: rest, IsClient (rcs x) targ ↔ (w :: rest).getLast? = some x)
    (hmax : metric + rest.length + 2 ≤ cfg.metricHopCountMax.toNat) :
    ∃ s', Answered cfg net orig targ hops v w rest s s' := by
  induction rest generalizing v w s hops metric q with
  | nil =>
    have hvhears : Hear net v w := (List.isChain_cons_cons.mp hhear).1
    have hvw : w ≠ v := fun heq => (List.nodup_cons.mp hnodup).1 (heq ▸ List.mem_cons_self)
    obtain ⟨s₁, hreach₁, hchanges₁, hv₁, hwaits, hanswers, -⟩ := asked h hout hask hvhears.1 hvw
      (hfresh w List.mem_cons_self) (hforeign w List.mem_cons_self) hmax
    obtain ⟨q', hout', hanswer⟩ := hanswers ((htarg w List.mem_cons_self).mpr rfl)
    obtain ⟨s₂, hreach₂, hchanges₂, hflight, hforwards⟩ := answer_sent hout' hvhears.2
      hwaits.seqnum hwaits.ready.routes (List.nodup_singleton _)
    have hv₂ : s₂.nodes v = (transmit (s.nodes v)).2 := by
      rw [hchanges₂.nodes v (by simpa using hvw.symm), hv₁]
    exact ⟨s₂, hreach₁.trans hreach₂, hchanges₁.trans (hchanges₂.mono (by simp)), hv₂,
      ⟨q', _, hanswer, hflight⟩, hforwards _ List.mem_cons_self, List.isChain_singleton _⟩
  | cons w' rest ih =>
    obtain ⟨hvhears, hhear'⟩ := List.isChain_cons_cons.mp hhear
    obtain ⟨hv, hnodup'⟩ := List.nodup_cons.mp hnodup
    have hw : w ∉ w' :: rest := (List.nodup_cons.mp hnodup').1
    have hvw : w ≠ v := fun heq => hv (heq ▸ List.mem_cons_self)
    have htail : ∀ x ∈ w' :: rest, x ≠ v ∧ x ≠ w := fun x hx =>
      ⟨fun heq => hv (heq ▸ List.mem_cons_of_mem _ hx), fun heq => hw (heq ▸ hx)⟩
    have hlast : (w :: w' :: rest).getLast? = (w' :: rest).getLast? := List.getLast?_cons_cons
    have hnotTarg : ¬ IsClient (rcs w) targ := by
      rw [htarg w List.mem_cons_self, hlast]
      exact fun hmem => hw (List.mem_of_getLast? hmem)
    rw [List.length_cons, show hops + 2 * (rest.length + 1 + 1) =
      hops + 2 * (rest.length + 1) + 2 by omega] at hask
    rw [List.length_cons] at hmax
    -- The router passes the RREQ on, the rest answers, and it passes that on.
    obtain ⟨s₁, hreach₁, hchanges₁, hv₁, hwaits, -, hasks⟩ :=
      asked h hout hask hvhears.1 hvw (hfresh w List.mem_cons_self)
        (hforeign w List.mem_cons_self) (by omega)
    obtain ⟨q₁, hout₁, hask₁⟩ := hasks hnotTarg
    rw [show hops + 2 * (rest.length + 1) + 1 = hops + 1 + 2 * (rest.length + 1) by omega] at hask₁
    obtain ⟨s₂, h₂⟩ := ih hnodup' hhear' hout₁ hask₁
      (fun x hx => (hchanges₁.nodes x (by simpa using htail x hx)).trans
        (hfresh x (List.mem_cons_of_mem _ hx)))
      (fun x hx => hforeign x (List.mem_cons_of_mem _ hx))
      (fun x hx => (htarg x (List.mem_cons_of_mem _ hx)).trans (by rw [hlast])) (by omega)
    obtain ⟨q₂, hop₂, hanswer₂, hflight₂⟩ := h₂.answer
    have hw₂ : s₂.nodes w = { s₁.nodes w with outbox := [] } :=
      h₂.asker.trans (transmit_rreq hout₁)
    have hwaits₂ : Waits cfg (s₂.now w) orig (net.addr v) (s₂.nodes w) := by
      rw [h₂.changes.now, hw₂]
      exact ⟨⟨hwaits.ready.routes, hwaits.ready.metric, hwaits.ready.origLen⟩, hwaits.seqnum,
        hwaits.room, hwaits.foreign⟩
    obtain ⟨s₃, q₃, hreach₃, hchanges₃, hanswer₃, hflight₃, htoTarg, htoOrig⟩ :=
      relayed h hwaits₂ (by rw [hw₂]) hanswer₂ hflight₂ hvhears.2 (by omega)
    have hv₃ : s₃.nodes v = (transmit (s.nodes v)).2 := by
      rw [hchanges₃.nodes v (by simpa using hvw.symm), h₂.changes.nodes v hv, hv₁]
    have hkept : ∀ x ∈ w' :: rest, x ∉ [w] := fun x hx => by simpa using (htail x hx).2
    have hlinked : (w' :: rest).IsChain (Linked cfg net s₃.now s₃.nodes orig targ) :=
      hchanges₃.linked hkept h₂.linked
    have hback : Forwards cfg (s₃.now w') (s₃.nodes w') orig (net.addr w) :=
      hchanges₃.forwards (hkept w' List.mem_cons_self) h₂.back
    have hchanges : OnlyChanges (v :: w :: w' :: rest) s s₃ :=
      ((hchanges₁.mono (by simp)).trans
        (h₂.changes.mono fun x hx => List.mem_cons_of_mem v hx)).trans (hchanges₃.mono (by simp))
    exact ⟨s₃, (hreach₁.trans h₂.reached).trans hreach₃, hchanges, hv₃, ⟨q₃, _, hanswer₃, hflight₃⟩,
      htoOrig, List.isChain_cons_cons.mpr ⟨⟨htoTarg, hback⟩, hlinked⟩⟩

/-- The RREP comes back to the router that asked, for its client. -/
theorem Answered.returns {s s' : NetState ι} {hops : Nat} {v w : ι} {rest : List ι}
    (h : Answered cfg net orig targ hops v w rest s s') (hd : Discoverable cfg sizes orig targ)
    (hv : v ∉ w :: rest) (hready : Ready cfg (s'.now v) [] (s'.nodes v))
    (hclient : IsClient (s'.nodes v).router.rcs orig) (hroom : 0 < (s'.nodes v).router.lrs.length)
    (hmax : 2 ≤ cfg.metricHopCountMax.toNat) :
    ∃ s'', Reaches (netStep cfg net) (FindsHop cfg net) s' s'' ∧
      (v :: w :: rest).IsChain (Linked cfg net s''.now s''.nodes orig targ) := by
  obtain ⟨q, hop, hanswer, hflight⟩ := h.answer
  obtain ⟨hknown, hfinds, -⟩ := hanswer.received hd.differ hd.orig_ne hd.targ_ne hmax hd.lifetime
    hready List.not_mem_nil hroom List.nodup_nil (net.addr w)
  obtain ⟨s'', hreach, hchanges, hnode⟩ := arrives hflight (hfinds (Or.inl hclient))
  change OnlyChanges [v] s' s'' at hchanges
  change s''.nodes v = receive cfg (s'.now v) (net.addr w)
    (writerSendRrep seqnumInit q).2.context (s'.nodes v) at hnode
  rw [← hnode, ← hchanges.now] at hknown
  have htoTarg : Forwards cfg (s''.now v) (s''.nodes v) targ (net.addr w) :=
    hknown.forwards (List.nodup_singleton _) List.mem_cons_self
  have hkept : ∀ x ∈ w :: rest, x ∉ [v] := fun x hx hmem => hv (List.mem_singleton.mp hmem ▸ hx)
  have hback : Forwards cfg (s''.now w) (s''.nodes w) orig (net.addr v) :=
    hchanges.forwards (hkept w List.mem_cons_self) h.back
  exact ⟨s'', hreach, List.isChain_cons_cons.mpr ⟨⟨htoTarg, hback⟩, hchanges.linked hkept h.linked⟩⟩

/-- The routers of a path come to forward along it, and each finds a next hop
for what it hands on. -/
theorem linked_along_path (net : Network ι) {rcs : ι → RouterClientSet} (hhosts : HostClients rcs)
    (hdisjoint : ClientsDisjoint rcs) (hlife : 0 < cfg.validity)
    (hroom : ∀ i, 2 ≤ (sizes i).routingEntries) (now : ι → Timex) {v z : ι} {ws : List ι}
    (hz : ws.getLast? = some z) (hnodup : (v :: ws).Nodup) (hhear : (v :: ws).IsChain (Hear net))
    (horig : orig ≠ ipv6AddrUnspecified) (htarg : targ ≠ ipv6AddrUnspecified)
    (hv : IsClient (rcs v) orig) (hclient : IsClient (rcs z) targ)
    (hreach : 2 * ws.length ≤ firstHopLimit cfg) :
    ∃ s, Reaches (netStep cfg net) (FindsHop cfg net) { NetState.init sizes rcs with now := now } s ∧
      (v :: ws).IsChain (Linked cfg net s.now s.nodes orig targ) := by
  have honly : ∀ x y a, IsClient (rcs x) a → IsClient (rcs y) a → x = y := by
    intro x y a hx hy
    by_contra hne
    exact hdisjoint x y hne a hx hy
  cases ws with
  | nil => cases hz
  | cons w rest =>
    have hvw : v ∉ w :: rest := (List.nodup_cons.mp hnodup).1
    have hdiscoverable : Discoverable cfg sizes orig targ := by
      refine ⟨hlife, horig, htarg, ?_, hroom⟩
      rintro rfl
      exact hvw (honly v z _ hv hclient ▸ List.mem_of_getLast? hz)
    obtain ⟨n, q, hfound, hout, hask, hready, hlrs, hrcs⟩ :=
      findRoute_asks cfg (now v) (sizes v) (hhosts v) hv targ {}
    rw [List.length_cons] at hreach
    have hmax : firstHopLimit cfg = cfg.metricHopCountMax.toNat := rfl
    rw [show firstHopLimit cfg = firstHopLimit cfg - 2 * (rest.length + 1) + 2 * (rest.length + 1) by
      omega] at hask
    let s₀ : NetState ι := { NetState.init sizes rcs with now := now }
    have hstep : netStep cfg net (.findRoute v orig targ {}) s₀ = s₀.put v n := by
      unfold netStep
      dsimp only
      rw [show findRoute cfg (s₀.now v) orig targ {} (s₀.nodes v) = some n from hfound]
      rfl
    have hv₁ : (s₀.put v n).nodes v = n := Function.update_self ..
    have hfresh : ∀ x ∈ w :: rest, (s₀.put v n).nodes x = Node.init (sizes x) (rcs x) :=
      fun x hx => Function.update_of_ne (show x ≠ v from fun heq => hvw (heq ▸ hx)) ..
    obtain ⟨s₂, h₂⟩ := answered hdiscoverable rest hnodup hhear (by rw [hv₁]; exact hout) hask hfresh
      (fun x hx hmem => hvw (honly v x _ hv hmem ▸ hx))
      (fun x hx => ⟨fun hmem => hz.trans (congrArg some (honly z x _ hclient hmem)), fun hlast => by
        rw [hz] at hlast
        cases hlast
        exact hclient⟩) (by omega)
    have hv₂ : s₂.nodes v = { n with outbox := [] } := by
      rw [h₂.asker, hv₁, transmit_rreq hout]
    have hready₂ : Ready cfg (s₂.now v) [] (s₂.nodes v) := by
      rw [hv₂, h₂.changes.now]
      exact ⟨hready.routes, hready.metric, hready.origLen⟩
    have hroom₂ : 0 < (s₂.nodes v).router.lrs.length := by
      rw [hv₂]
      change 0 < n.router.lrs.length
      rw [hlrs, show (lrsInit (sizes v).routingEntries).length = _ from List.length_replicate]
      exact Nat.lt_of_lt_of_le Nat.zero_lt_two (hroom v)
    have hclient₂ : IsClient (s₂.nodes v).router.rcs orig := by
      rw [hv₂]
      change IsClient n.router.rcs orig
      rw [hrcs]
      exact hv
    have hfirst : Reaches (netStep cfg net) (FindsHop cfg net) s₀ (s₀.put v n) := by
      rw [← hstep]
      exact .single trivial
    obtain ⟨s₃, hreach₃, hlinked⟩ :=
      h₂.returns hdiscoverable hvw hready₂ hclient₂ hroom₂ (by omega)
    exact ⟨s₃, (hfirst.trans h₂.reached).trans hreach₃, hlinked⟩

/-- **A discovery along a path gets through.** Let fresh routers with disjoint
clients, all single hosts, hear each other along a path, and let the path
there and back be no longer than the first hop limit. Then some order of
events makes the routers exchange packets without a fault until every router of
the path forwards to a client of the last router along the path, and to a
client of the first one back along it. -/
theorem discovery_along_path (cfg : Conf) (net : Network ι) (sizes : ι → Sizes)
    (rcs : ι → RouterClientSet) (hhosts : HostClients rcs) (hdisjoint : ClientsDisjoint rcs)
    (hlife : 0 < cfg.validity) (hroom : ∀ i, 2 ≤ (sizes i).routingEntries) (now : ι → Timex)
    (v z : ι) (ws : List ι) (hz : ws.getLast? = some z) (hnodup : (v :: ws).Nodup)
    (hhear : (v :: ws).IsChain (Hear net)) (orig targ : Ipv6Addr)
    (horig : orig ≠ ipv6AddrUnspecified) (htarg : targ ≠ ipv6AddrUnspecified)
    (hv : IsClient (rcs v) orig) (hclient : IsClient (rcs z) targ)
    (hreach : 2 * ws.length ≤ firstHopLimit cfg) :
    ∃ evs s, runExcept (packetNetStep cfg net) evs { PacketState.init sizes rcs with now := now } =
        .ok s ∧
      (v :: ws).IsChain (Linked cfg net s.now s.nodes orig targ) := by
  obtain ⟨t, ⟨evs, hfinds, rfl⟩, hlinked⟩ :=
    linked_along_path net hhosts hdisjoint hlife hroom now hz hnodup hhear horig htarg hv hclient
      hreach
  -- Single hosts can always be written, so the packets go through as well.
  have hmatch : Matches { PacketState.init sizes rcs with now := now }
      { NetState.init sizes rcs with now := now } := ⟨rfl, rfl, List.Forall₂.nil⟩
  obtain ⟨s, hs, hmatches⟩ := ((hostState_init sizes hhosts now).run hmatch cfg net evs).1 hfinds
  refine ⟨evs, s, hs, ?_⟩
  rw [hmatches.nodes, hmatches.now]
  exact hlinked

/-- The two routers of a pair come to forward to each other's clients. -/
theorem pairDiscovery_along : ∃ evs s, runExcept (packetNetStep .default pairNetwork) evs
      { PacketState.init (fun _ => ⟨2, 2, 2⟩) (pairClients 128) with now := fun _ => 7 } = .ok s ∧
    [(0 : Fin 2), 1].IsChain (Linked .default pairNetwork s.now s.nodes (1#128 <<< 64)
      (2#128 <<< 64)) :=
  discovery_along_path .default pairNetwork (fun _ => ⟨2, 2, 2⟩) (pairClients 128) pairHosts
    pairClients_disjoint (by decide) (fun _ => Nat.le_refl 2) (fun _ => 7) 0 1 [1] rfl (by decide)
    (by unfold Hear; decide) _ _ (by decide) (by decide) (by decide +kernel) (by decide +kernel)
    (by decide)

end Path

end Turpial.Aodvv2
