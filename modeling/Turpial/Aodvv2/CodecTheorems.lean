/-
Turpial.Aodvv2.CodecTheorems — what a message keeps on its way from the
writer callbacks through the reader callbacks.

§1 is the RREQ round trip. Sequence numbers are written as two bytes and
read as one, and a prefix is copied over whatever address the static
record held. So a message comes back exactly when its sequence number fits
one byte and the old addresses have no host bits.

§2 is the RREP. The reader stores OrigNode's prefix length in TargNode and
the metric in OrigNode, so every datum is at its own node only when the
record happened to hold it there already.

§3 is the relay. Whoever writes an RREP puts its own sequence number into
it and increments the counter.
-/
import Turpial.Aodvv2.HandlerTheorems

namespace Turpial.Aodvv2

open Turpial.Rfc5444

/-! ## §1 RREQ round trip -/

/-- The messages the round trip is about. -/
structure RreqSendable (m : Message) : Prop where
  hop : m.msgHopLimit ≠ 0
  seqnum : m.origNode.seqnum ≠ 0
  origLen : m.origNode.pfxLen ≠ 0 ∧ m.origNode.pfxLen ≤ 128
  targLen : m.targNode.pfxLen ≠ 0 ∧ m.targNode.pfxLen ≤ 128
  origHost : HostBitsZero m.origNode.addr m.origNode.pfxLen.toNat
  targHost : HostBitsZero m.targNode.addr m.targNode.pfxLen.toNat
  distinct : (m.origNode.addr, m.origNode.pfxLen) ≠ (m.targNode.addr, m.targNode.pfxLen)

/-- The message comes back: every callback returns OKAY and the record,
which held `d` before, has the message's data. -/
structure RreqRoundTrip (m d : Message) : Prop where
  okay : (decodeMessage rreqCallbacks (writerSendRreq m).context d).1 = .ok .okay
  same : ∀ d', (decodeMessage rreqCallbacks (writerSendRreq m).context d).2.msgData = d' →
    d'.origNode.addr = m.origNode.addr ∧ d'.origNode.pfxLen = m.origNode.pfxLen ∧
    d'.origNode.seqnum = m.origNode.seqnum ∧ d'.origNode.metric = m.origNode.metric ∧
    d'.targNode.addr = m.targNode.addr ∧ d'.targNode.pfxLen = m.targNode.pfxLen ∧
    d'.metricType = defaultMetric ∧ d'.msgHopLimit = m.msgHopLimit - 1

theorem netaddr_of_len {node : NodeData} (h : node.pfxLen ≠ 0 ∧ node.pfxLen ≤ 128) :
    node.netaddr = ipv6AddrToNetaddr node.addr node.pfxLen := by
  rw [NodeData.netaddr, writerPfxLen_of_le h.1 h.2]

/-- The addresses of an RREQ whose nodes have different prefixes. -/
theorem cbRreqAddAddresses_ne {m : Message} (h : m.origNode.netaddr ≠ m.targNode.netaddr) :
    cbRreqAddAddresses m =
      [{ addr := m.origNode.netaddr
         tlvs := [origSeqnumTlv m.origNode.seqnum, metricTlv m.origNode.metric] },
       { addr := m.targNode.netaddr }] := by
  unfold cbRreqAddAddresses
  dsimp only
  rw [addAddress_ne h, addAddress_nil]
  rfl

/-- The two addresses as the callback sees them. -/
def rreqContexts (m : Message) : List AddrContext :=
  [{ addr := m.origNode.netaddr
     origSeqnum := some (origSeqnumTlv m.origNode.seqnum).entry
     metric := some (metricTlv m.origNode.metric).entry },
   { addr := m.targNode.netaddr }]

theorem rreqContexts_accepted (m : Message) : AllAccepted rreqRules (rreqContexts m) := by
  intro cont hc
  rcases List.mem_cons.mp hc with rfl | hc
  · refine ⟨fun tlv ht => ?_, rfl⟩
    change tlv ∈ [(origSeqnumTlv m.origNode.seqnum).entry, (metricTlv m.origNode.metric).entry] at ht
    rcases List.mem_cons.mp ht with rfl | ht
    · simp [WireTlv.entry, origSeqnumTlv, bytesOfU16]
    · rw [List.mem_singleton.mp ht]
      simp [WireTlv.entry, metricTlv]
  · rw [List.mem_singleton.mp hc]
    refine ⟨fun tlv ht => ?_, rfl⟩
    change tlv ∈ [] at ht
    cases ht

theorem rreqContexts_decodable {m : Message} (hop : m.msgHopLimit ≠ 0)
    (h : m.origNode.netaddr ≠ m.targNode.netaddr) :
    Decodable rreqRules (writerSendRreq m).context m.msgHopLimit (rreqContexts m) where
  hopLimit := rfl
  hop_ne := hop
  addrs := by
    unfold WireMessage.context writerSendRreq
    rw [cbRreqAddAddresses_ne h]
    rfl
  accepted := rreqContexts_accepted m

/-- One byte of a sequence number is all of it exactly up to 255. -/
theorem readSeqnum_eq_iff (s : SeqNum) : s.toUInt8.toUInt16 = s ↔ s ≤ 255 := by
  rw [← UInt16.toNat_inj, UInt16.le_iff_toNat_le]
  simp only [UInt8.toNat_toUInt16, UInt16.toNat_toUInt8]
  have : (255 : UInt16).toNat = 255 := rfl
  omega

/-- **RREQ round trip.** A message comes back through the reader callbacks
exactly when its sequence number fits one byte and the addresses left in
the static record have no bits beyond the message's prefixes. -/
theorem rreq_roundTrip_iff (m d : Message) (hm : RreqSendable m) :
    RreqRoundTrip m d ↔ m.origNode.seqnum ≤ 255 ∧
      HostBitsZero d.origNode.addr m.origNode.pfxLen.toNat ∧
      HostBitsZero d.targNode.addr m.targNode.pfxLen.toNat := by
  have horig := netaddr_of_len hm.origLen
  have htarg := netaddr_of_len hm.targLen
  have hol := clampPfxLen_of_le (UInt8.le_iff_toNat_le.mp hm.origLen.2)
  have htl := clampPfxLen_of_le (UInt8.le_iff_toNat_le.mp hm.targLen.2)
  have hne : m.origNode.netaddr ≠ m.targNode.netaddr := by
    rw [horig, htarg]
    intro heq
    have haddr := congrArg Netaddr.addr heq
    have hlen := congrArg Netaddr.prefixLen heq
    change clampPfxLen _ = clampPfxLen _ at hlen
    rw [hol, htl] at hlen
    exact hm.distinct (Prod.ext haddr hlen)
  obtain ⟨reads, hrun⟩ := (rreqContexts_decodable hm.hop hne).decodeMessage rreq_follows d
  -- What the record holds afterwards, field by field.
  have hdec : decodeAll rreqRules (rreqContexts m) { d with msgHopLimit := m.msgHopLimit - 1 } =
      { d with
        msgHopLimit := m.msgHopLimit - 1
        metricType := defaultMetric
        origNode := {
          addr := ipv6AddrInitPrefix d.origNode.addr m.origNode.addr m.origNode.pfxLen.toNat
          pfxLen := m.origNode.pfxLen
          metric := m.origNode.metric
          seqnum := m.origNode.seqnum.toUInt8.toUInt16 }
        targNode := { d.targNode with
          addr := ipv6AddrInitPrefix d.targNode.addr m.targNode.addr m.targNode.pfxLen.toNat
          pfxLen := m.targNode.pfxLen } } := by
    simp [decodeAll, rreqContexts, rreqRules, Message.setOrigAddr, Message.setTargAddr,
      Message.setOrigSeqnum, Message.setMetricType, Message.setMetric, horig, htarg, hol, htl,
      byteOf, WireTlv.entry, origSeqnumTlv, metricTlv, bytesOfU16]
  have hiff : RreqRoundTrip m d ↔ m.origNode.seqnum.toUInt8.toUInt16 = m.origNode.seqnum ∧
      ipv6AddrInitPrefix d.origNode.addr m.origNode.addr m.origNode.pfxLen.toNat =
        m.origNode.addr ∧
      ipv6AddrInitPrefix d.targNode.addr m.targNode.addr m.targNode.pfxLen.toNat =
        m.targNode.addr := by
    constructor
    · rintro ⟨-, hsame⟩
      obtain ⟨ha, -, hs, -, ht, -⟩ := hsame _ rfl
      rw [hrun, hdec] at ha hs ht
      exact ⟨hs, ha, ht⟩
    · rintro ⟨hs, ha, ht⟩
      refine ⟨by rw [hrun], fun d' hd' => ?_⟩
      rw [hrun, hdec] at hd'
      subst hd'
      exact ⟨ha, rfl, hs, rfl, ht, rfl, rfl, rfl⟩
  rw [hiff, readSeqnum_eq_iff, ipv6AddrInitPrefix_eq_iff hm.origHost,
    ipv6AddrInitPrefix_eq_iff hm.targHost]

/-- A client network and a target, and a small sequence number. -/
def sampleRreq (seqnum : SeqNum) : Message where
  msgHopLimit := 20
  metricType := defaultMetric
  origNode := { addr := 0x20010db8#128 <<< 96, pfxLen := 64, seqnum := seqnum }
  targNode := { addr := 2#128, pfxLen := 128 }

theorem rreq_roundTrip_small_seqnum :
    RreqSendable (sampleRreq 1) ∧ RreqRoundTrip (sampleRreq 1) {} := by
  have hm : RreqSendable (sampleRreq 1) := by constructor <;> decide
  exact ⟨hm, (rreq_roundTrip_iff _ {} hm).mpr (by decide)⟩

/-- Sequence number 256 is read as 0, even into a zeroed record. -/
theorem rreq_roundTrip_loses_seqnum :
    RreqSendable (sampleRreq 256) ∧ ¬ RreqRoundTrip (sampleRreq 256) {} := by
  refine ⟨by constructor <;> decide, fun h => ?_⟩
  have hseq := (h.same _ rfl).2.2.1
  have hread : (decodeMessage rreqCallbacks (writerSendRreq (sampleRreq 256)).context
      {}).2.msgData.origNode.seqnum = 0 := by decide +kernel
  rw [hread] at hseq
  exact absurd hseq (by decide)

/-! ## §2 RREP decoding -/

/-- An RREP of one OrigNode address and one TargNode address. The TLVs have
values, so that they can be read. -/
structure RrepAddresses where
  origAddr : Netaddr
  targAddr : Netaddr
  origIndex : UInt8
  targIndex : UInt8
  origSeqnum : TlvEntry
  targSeqnum : TlvEntry
  metric : TlvEntry
  values : NonNull [origSeqnum, targSeqnum, metric]

namespace RrepAddresses

/-- The OrigNode address with its TLV. -/
def orig (p : RrepAddresses) : AddrContext where
  addr := p.origAddr
  addrIndex := p.origIndex
  origSeqnum := some p.origSeqnum

/-- The TargNode address with its TLVs. -/
def targ (p : RrepAddresses) : AddrContext where
  addr := p.targAddr
  addrIndex := p.targIndex
  targSeqnum := some p.targSeqnum
  metric := some p.metric

/-- The two addresses in the order they come in. -/
def contexts (p : RrepAddresses) (origFirst : Bool) : List AddrContext :=
  if origFirst then [p.orig, p.targ] else [p.targ, p.orig]

/-- The address that is read last. -/
def lastAddr (p : RrepAddresses) (origFirst : Bool) : Netaddr :=
  if origFirst then p.targAddr else p.origAddr

/-- The message. -/
def message (p : RrepAddresses) (hop : UInt8) (origFirst : Bool) : MessageContext where
  msgType := msgtypeRrep
  hopLimit := some hop
  addrs := (p.contexts origFirst).map .ok

theorem contexts_accepted (p : RrepAddresses) (origFirst : Bool) :
    AllAccepted rrepRules (p.contexts origFirst) := by
  have horig : NonNull (rrepRules.reads p.orig) := by
    intro tlv ht
    rw [List.mem_singleton.mp (show tlv ∈ [p.origSeqnum] from ht)]
    exact p.values _ (by simp)
  have htarg : NonNull (rrepRules.reads p.targ) := by
    intro tlv ht
    have hmem : tlv ∈ [p.targSeqnum, p.metric] := ht
    exact p.values tlv (List.mem_cons_of_mem _ hmem)
  intro cont hc
  have hcont : cont = p.orig ∨ cont = p.targ := by
    cases origFirst <;> simpa [contexts, or_comm] using hc
  rcases hcont with rfl | rfl
  · exact ⟨horig, rfl⟩
  · exact ⟨htarg, rfl⟩

/-- The record after the callbacks: the prefix length of the last address goes
to TargNode and the metric to OrigNode. -/
theorem decode_fields (p : RrepAddresses) (origFirst : Bool) (d : Message) :
    let d' := decodeAll rrepRules (p.contexts origFirst) d
    d'.origNode.pfxLen = d.origNode.pfxLen ∧ d'.targNode.pfxLen = ipv6PfxLen (p.lastAddr origFirst) ∧
    d'.targNode.metric = d.targNode.metric ∧ d'.origNode.metric = byteOf p.metric := by
  cases origFirst with
  | true => exact ⟨rfl, netaddrToIpv6Addr_snd _ _, rfl, rfl⟩
  | false => exact ⟨rfl, netaddrToIpv6Addr_snd _ _, rfl, rfl⟩

end RrepAddresses

/-- Every datum is at its own node, and OrigNode's metric is what it was. -/
structure RrepDecoded (p : RrepAddresses) (d d' : Message) : Prop where
  origPfxLen : d'.origNode.pfxLen = p.origAddr.prefixLen
  targPfxLen : d'.targNode.pfxLen = p.targAddr.prefixLen
  targMetric : d'.targNode.metric = byteOf p.metric
  origMetric : d'.origNode.metric = d.origNode.metric

/-- **RREP decoding** puts every datum at its own node exactly when the
record already holds OrigNode's prefix length and has the metric at both
nodes, and the address read last has TargNode's prefix length. -/
theorem rrep_decoded_iff (p : RrepAddresses) (origFirst : Bool) (hop : UInt8) (hhop : hop ≠ 0)
    (d : Message) :
    RrepDecoded p d (decodeMessage rrepCallbacks (p.message hop origFirst) d).2.msgData ↔
      d.origNode.pfxLen = p.origAddr.prefixLen ∧
      ipv6PfxLen (p.lastAddr origFirst) = p.targAddr.prefixLen ∧
      d.targNode.metric = byteOf p.metric ∧ d.origNode.metric = byteOf p.metric := by
  have hdec : Decodable rrepRules (p.message hop origFirst) hop (p.contexts origFirst) :=
    ⟨rfl, hhop, rfl, p.contexts_accepted origFirst⟩
  obtain ⟨reads, hrun⟩ := hdec.decodeMessage rrep_follows d
  obtain ⟨ho, ht, hm, hom⟩ := p.decode_fields origFirst { d with msgHopLimit := hop - 1 }
  rw [hrun]
  constructor
  · rintro ⟨h₁, h₂, h₃, h₄⟩
    exact ⟨ho.symm.trans h₁, ht.symm.trans h₂, hm.symm.trans h₃, h₄.symm.trans hom⟩
  · rintro ⟨h₁, h₂, h₃, h₄⟩
    exact ⟨ho.trans h₁, ht.trans h₂, hm.trans h₃, hom.trans h₄.symm⟩

/-- `::1` under a prefix length, `::2/128`, and a metric. -/
def sampleRrep (pfxLen metric : UInt8) : RrepAddresses where
  origAddr := ⟨1#128, .inet6, pfxLen⟩
  targAddr := ⟨2#128, .inet6, 128⟩
  origIndex := 0
  targIndex := 1
  origSeqnum := (origSeqnumTlv 1).entry
  targSeqnum := (targSeqnumTlv 1).entry
  metric := (metricTlv metric).entry
  values := by simp [NonNull, WireTlv.entry, origSeqnumTlv, targSeqnumTlv, metricTlv, bytesOfU16]

theorem rrep_decoded_zero_metric :
    RrepDecoded (sampleRrep 0 0) {}
      (decodeMessage rrepCallbacks ((sampleRrep 0 0).message 20 true) {}).2.msgData :=
  (rrep_decoded_iff (sampleRrep 0 0) true 20 (by decide) {}).mpr (by decide)

/-- OrigNode's prefix length of 64 does not arrive, nor does a metric of 3. -/
theorem rrep_decoded_mixed_up :
    ¬ RrepDecoded (sampleRrep 64 3) {}
      (decodeMessage rrepCallbacks ((sampleRrep 64 3).message 20 false) {}).2.msgData := by
  intro h
  have hread : (decodeMessage rrepCallbacks ((sampleRrep 64 3).message 20 false)
      {}).2.msgData.origNode.pfxLen = 0 := by decide +kernel
  exact absurd (hread.symm.trans h.origPfxLen) (by decide)

/-! ## §3 Relayed RREPs -/

theorem bytesOfU16_inj {v w : UInt16} (h : bytesOfU16 v = bytesOfU16 w) : v = w := by
  have hlow := congrArg UInt8.toNat (List.cons.inj h).1
  have hhigh := congrArg UInt8.toNat (List.cons.inj (List.cons.inj h).2).1
  have hv := v.toNat_lt
  have hw := w.toNat_lt
  simp only [UInt16.toNat_toUInt8, UInt16.toNat_shiftRight, Nat.shiftRight_eq_div_pow] at hlow hhigh
  have h8 : 2 ^ ((8 : UInt16).toNat % 16) = 256 := rfl
  rw [h8] at hhigh
  apply UInt16.toNat_inj.mp
  omega

theorem targSeqnumTlv_inj {v w : SeqNum} (h : targSeqnumTlv v = targSeqnumTlv w) : v = w :=
  bytesOfU16_inj (congrArg WireTlv.value h)

/-- The TLVs that an RREP has for the two nodes. -/
theorem cbRrepAddAddresses_ne {c : SeqCounter} {m : Message}
    (h : m.origNode.netaddr ≠ m.targNode.netaddr) :
    (cbRrepAddAddresses c m).2 =
      [{ addr := m.origNode.netaddr, tlvs := [origSeqnumTlv m.origNode.seqnum] },
       { addr := m.targNode.netaddr
         tlvs := [targSeqnumTlv (seqnumGet c), metricTlv m.targNode.metric] }] := by
  unfold cbRrepAddAddresses
  dsimp only
  rw [addAddress_ne h, addAddress_nil]
  rfl

/-- With one prefix for both, they are all at one address. -/
theorem cbRrepAddAddresses_same {c : SeqCounter} {m : Message}
    (h : m.origNode.netaddr = m.targNode.netaddr) :
    (cbRrepAddAddresses c m).2 =
      [{ addr := m.targNode.netaddr
         tlvs := [origSeqnumTlv m.origNode.seqnum, targSeqnumTlv (seqnumGet c),
           metricTlv m.targNode.metric] }] := by
  unfold cbRrepAddAddresses
  dsimp only
  rw [h, addAddress_same, addAddress_nil]
  rfl

/-- A message has the two nodes of `d`, each with its sequence number. -/
def CarriesIdentity (w : WireMessage) (d : Message) : Prop :=
  (∃ a ∈ w.addrs, a.addr = d.origNode.netaddr ∧ origSeqnumTlv d.origNode.seqnum ∈ a.tlvs) ∧
    ∃ a ∈ w.addrs, a.addr = d.targNode.netaddr ∧ targSeqnumTlv d.targNode.seqnum ∈ a.tlvs

theorem metricTlv_ne_targSeqnumTlv (metric : UInt8) (v : SeqNum) :
    targSeqnumTlv v ≠ metricTlv metric := by
  intro h
  have htype : msgtlvTargseqnum = msgtlvMetric := congrArg WireTlv.type h
  exact absurd htype (by decide)

theorem origSeqnumTlv_ne_targSeqnumTlv (v w : SeqNum) : targSeqnumTlv v ≠ origSeqnumTlv w := by
  intro h
  have htype : msgtlvTargseqnum = msgtlvOrigseqnum := congrArg WireTlv.type h
  exact absurd htype (by decide)

/-- The writer keeps the identity of a message only if the router's own
sequence number happens to be TargNode's. -/
theorem carriesIdentity_iff (c : SeqCounter) (m : Message) :
    CarriesIdentity (writerSendRrep c m).2 m ↔ seqnumGet c = m.targNode.seqnum := by
  change CarriesIdentity ⟨msgtypeRrep, m.msgHopLimit, (cbRrepAddAddresses c m).2⟩ m ↔ _
  unfold CarriesIdentity
  by_cases h : m.origNode.netaddr = m.targNode.netaddr
  · rw [cbRrepAddAddresses_same h]
    constructor
    · rintro ⟨-, a, ha, -, htlv⟩
      rw [List.mem_singleton.mp ha] at htlv
      simp only [List.mem_cons, List.not_mem_nil, or_false, origSeqnumTlv_ne_targSeqnumTlv,
        metricTlv_ne_targSeqnumTlv, false_or] at htlv
      exact (targSeqnumTlv_inj htlv).symm
    · intro heq
      rw [heq]
      exact ⟨⟨_, List.mem_singleton_self _, h.symm, by simp⟩,
        ⟨_, List.mem_singleton_self _, rfl, by simp⟩⟩
  · rw [cbRrepAddAddresses_ne h]
    constructor
    · rintro ⟨-, a, ha, haddr, htlv⟩
      rcases List.mem_cons.mp ha with rfl | ha
      · exact absurd haddr h
      rw [List.mem_singleton.mp ha] at htlv
      simp only [List.mem_cons, List.not_mem_nil, or_false, metricTlv_ne_targSeqnumTlv] at htlv
      exact (targSeqnumTlv_inj htlv).symm
    · intro heq
      rw [heq]
      exact ⟨⟨_, List.mem_cons_self, rfl, by simp⟩,
        ⟨_, List.mem_cons_of_mem _ (List.mem_singleton_self _), rfl, by simp⟩⟩

/-- Relaying `pkt` with the counter `c` keeps the identity of `d` and does
not touch the counter. -/
structure RelayKeepsIdentity (d pkt : Message) (c : SeqCounter) : Prop where
  identity : CarriesIdentity (writerSendRrep c pkt).2 d
  counter : (writerSendRrep c pkt).1 = c

/-- **A relayed RREP never keeps the target's identity.** Whatever RREP a
router relays, and whatever its own sequence number is when the message is
written, that number replaces TargNode's and is used up. -/
theorem relayed_rrep_loses_identity (cfg : Conf) (now : Timex) (s s' : Node)
    (haccepted : cbRrepEndCallback cfg now false s = (.ok .okay, s'))
    (hrelay : ¬ IsClient s.router.rcs s.msgData.origNode.addr) :
    ∃ pkt hop, s'.outbox = s.outbox ++ [.rrep pkt hop] ∧ ∀ c,
      (CarriesIdentity (writerSendRrep c pkt).2 s.msgData ↔
        seqnumGet c = s.msgData.targNode.seqnum) ∧
      ¬ RelayKeepsIdentity s.msgData pkt c := by
  have hout := cbRrepEndCallback_outcome cfg now s
  rw [haccepted] at hout
  cases hout with
  | arrived _ _ hclient => exact absurd hclient hrelay
  | relayed hchecks hupdated hclient hhop =>
    refine ⟨rrepRecord now s.msgData, _, rfl, fun c => ⟨?_, fun h => ?_⟩⟩
    · exact carriesIdentity_iff c (rrepRecord now s.msgData)
    · exact seqnumInc_ne c h.counter

/-- A router with a route to the OrigNode of an RREQ it has heard, and in
its record an RREP on the way back. -/
def relaySample : Node :=
  { receive Conf.default 0 5#128 (writerSendRreq (sampleRreq 1)).context
      { router := Router.init ⟨2, 2, 0⟩ [] } with
    msgData := {
      msgHopLimit := 20
      sender := 6#128
      metricType := defaultMetric
      origNode := (sampleRreq 1).origNode
      targNode := { addr := 2#128, pfxLen := 128, seqnum := 9 } } }

theorem relaySample_accepted : cbRrepEndCallback Conf.default 0 false relaySample =
    (.ok .okay, (cbRrepEndCallback Conf.default 0 false relaySample).2) :=
  Prod.ext (by rfl) rfl

theorem relayed_rrep_loses_identity_sample :
    ∃ pkt hop, (cbRrepEndCallback Conf.default 0 false relaySample).2.outbox =
        relaySample.outbox ++ [.rrep pkt hop] ∧ ∀ c,
      (CarriesIdentity (writerSendRrep c pkt).2 relaySample.msgData ↔ seqnumGet c = 9) ∧
      ¬ RelayKeepsIdentity relaySample.msgData pkt c :=
  relayed_rrep_loses_identity Conf.default 0 relaySample _ relaySample_accepted (by decide +kernel)

/-- The relay whose own number is 1 writes 1 for TargNode's 9, and goes on with 2. -/
theorem relay_writes_own_seqnum :
    (cbRrepEndCallback Conf.default 0 false relaySample).2.outbox =
        relaySample.outbox ++ [.rrep (rrepRecord 0 relaySample.msgData) 5#128] ∧
      ¬ RelayKeepsIdentity relaySample.msgData (rrepRecord 0 relaySample.msgData) seqnumInit ∧
      writerSendRrep seqnumInit (rrepRecord 0 relaySample.msgData) =
        (2, { msgType := msgtypeRrep
              hopLimit := 20
              addrs := [
                { addr := relaySample.msgData.origNode.netaddr, tlvs := [origSeqnumTlv 1] },
                { addr := relaySample.msgData.targNode.netaddr
                  tlvs := [targSeqnumTlv 1, metricTlv 1] }] }) := by
  refine ⟨by decide +kernel, fun h => ?_, by decide +kernel⟩
  exact absurd h.counter (by decide)

end Turpial.Aodvv2
