/-
Turpial.Aodvv2.IndependenceTheorems — which packets are handled without
regard to what earlier ones have left in the static record.

`Turpial.Aodvv2.RecordTheorems` has the packets that are. §1 builds the
node that tells all others apart: its tables are full, so that nothing it
learns from one message gets in the way of the next. §2 finds two records
for each kind of packet that depends on the record, and §3 has both
directions. The records that earlier packets can have left agree on
`seqnortr`; from arbitrary ones every accepted RREQ can be told apart.
-/
import Turpial.Aodvv2.RecordTheorems

namespace Turpial.Aodvv2

open Turpial.Lib Turpial.Rfc5444

variable {cfg : Conf}

/-! ## §1 The router that tells packets apart

A router without clients whose tables are full, at time zero. It forwards
every RREQ that passes unless it is redundant to the one entry of its
Multicast Message Set, and it finds no next hop for an RREP. -/

/-- Its tables. The forwarding table may hold anything. -/
def fullRouter (entry : Mcmsg) (nib : Nib) : Router where
  lrs := [{ used := true }]
  mcmsg := [{ data := entry, used := true }]
  rcs := []
  nib := nib
  buffer := []
  seqnum := seqnumInit

variable {entry : Mcmsg}

theorem lrsGetEntry_full {addr : Ipv6Addr} (h : addr ≠ ipv6AddrUnspecified) (t : RoutingMetric)
    (nib : Nib) : lrsGetEntry cfg 0 addr t (fullRouter entry nib).lrs =
      ((fullRouter entry nib).lrs, none) := by
  have hmiss : ({} : LocalRoute).matchesDest addr t = false := by
    simp [LocalRoute.matchesDest, Ne.symm h]
  simp [lrsGetEntry, fullRouter, scan, scanFrom, hmiss]

theorem updateRoute_full (msg : Message) (node : NodeData) (route : LocalRoute)
    (hnode : node.addr ≠ ipv6AddrUnspecified) (hroute : route.addr = node.addr) (nib : Nib) :
    updateRoute cfg 0 msg node route (fullRouter entry nib) =
      (true, fullRouter entry (nibFtAdd node.addr node.pfxLen msg.sender nib)) := by
  have hadd : lrsAddEntry cfg 0 route (fullRouter entry nib).lrs = (fullRouter entry nib).lrs := by
    unfold lrsAddEntry
    rw [hroute, lrsGetEntry_full hnode]
    rfl
  unfold updateRoute
  rw [lrsGetEntry_full hnode]
  change (true, createRoute cfg 0 route node msg.sender (fullRouter entry nib)) = _
  unfold createRoute
  rw [hadd]
  rfl

theorem fullRouter_live (entry : Mcmsg) : McmsgEntry.Live 0 { data := entry, used := true } :=
  ⟨rfl, Nat.zero_le _⟩

theorem mcmsgProcess_full {d : Message} (hmiss : isComparable entry d = false) (nib : Nib) :
    mcmsgProcess cfg 0 d (fullRouter entry nib).mcmsg =
      (.ok, (fullRouter entry nib).mcmsg) := by
  have hfound : findComparableEntry 0 d (fullRouter entry nib).mcmsg =
      ((fullRouter entry nib).mcmsg, none) := by
    simp [findComparableEntry, fullRouter, scan, scanFrom, mcmsgReset_live (fullRouter_live entry),
      hmiss]
  unfold mcmsgProcess
  rw [hfound]
  rfl

/-- The zeroed entry is comparable to no RREQ that passes. -/
theorem isComparable_zero {d : Message} (h : d.origNode.addr ≠ ipv6AddrUnspecified) :
    isComparable {} d = false := by
  rw [Bool.eq_false_iff]
  intro hcomp
  have hclass := isCompatible_of_isComparable hcomp
  simp only [isCompatible, Bool.and_eq_true, beq_iff_eq] at hclass
  exact h hclass.1.1.1.symm

/-- An RREQ that passes is forwarded. -/
theorem cbRreqEndCallback_full {s : Node} {nib : Nib} (hs : s.router = fullRouter entry nib)
    (hmiss : isComparable entry s.msgData = false) (hchecks : RreqChecks cfg s.msgData) :
    ∃ nib', cbRreqEndCallback cfg 0 false s = (.ok .okay, { s with
      router := fullRouter entry nib'
      msgData := rreqRecord 0 s.msgData
      outbox := s.outbox ++ [.rreq (rreqRecord 0 s.msgData)] }) := by
  have hseen : ¬ Redundant cfg 0 s.msgData s.router := by
    unfold Redundant
    rw [hs, mcmsgProcess_full hmiss]
    simp
  have hrecorded : recordRreq cfg 0 s.msgData s.router = fullRouter entry nib := by
    unfold recordRreq
    rw [hs, mcmsgProcess_full hmiss]
  have hupdated := @updateRoute_full cfg entry (rreqRecord 0 s.msgData)
    (rreqRecord 0 s.msgData).origNode
    (fillRoutingEntryRreq cfg (rreqRecord 0 s.msgData) (metricLinkCost s.msgData.metricType))
    hchecks.1 rfl nib
  have hclient : ¬ IsClient s.router.rcs s.msgData.targNode.addr := by
    rw [hs]
    exact Bool.false_ne_true
  refine ⟨nibFtAdd s.msgData.origNode.addr s.msgData.origNode.pfxLen s.msgData.sender nib, ?_⟩
  rw [cbRreqEndCallback_eq hchecks, if_neg hseen, if_neg hclient]
  unfold rreqTables
  rw [hrecorded, hupdated]
  rfl

/-- An RREP that passes is the end of it. -/
theorem cbRrepEndCallback_full {s : Node} {nib : Nib} (hs : s.router = fullRouter entry nib)
    (hchecks : RrepChecks cfg s.msgData) :
    (cbRrepEndCallback cfg 0 false s).1 = .error .nullDereference := by
  have hupdated : rrepTables cfg 0 s.msgData s.router =
      (true, fullRouter entry (nibFtAdd s.msgData.targNode.addr s.msgData.targNode.pfxLen
        s.msgData.sender nib)) := by
    rw [hs]
    exact updateRoute_full (rrepRecord 0 s.msgData) (rrepRecord 0 s.msgData).targNode _
      hchecks.2.2.1 rfl nib
  have hout := cbRrepEndCallback_outcome cfg 0 s
  generalize cbRrepEndCallback cfg 0 false s = result at hout ⊢
  cases hout with
  | refused h => exact absurd hchecks h
  | noImprovement _ hkept =>
    rw [hupdated] at hkept
    cases hkept
  | arrived _ _ hclient =>
    rw [hs] at hclient
    exact absurd hclient Bool.false_ne_true
  | relayed _ _ _ hhop =>
    unfold rrepNextHop lrsGetNextHop at hhop
    rw [hupdated, lrsGetEntry_full hchecks.1] at hhop
    cases hhop
  | noNextHop => rfl

/-! ## §2 Two records for a packet that depends on them

An RREP that passes for some record, and the same with a metric that fails. -/

theorem rreqRecord_withSlack (e : Message) (metric : UInt8) (time : Timex) :
    rreqRecord now (e.withSlack metric time) = (rreqRecord now e).withSlack metric now := rfl

/-- The tests are met by no record in which TargNode's metric is 255. -/
theorem rrepChecks_top (d : Message) (time : Timex) : ¬ RrepChecks cfg (d.withSlack 255 time) := by
  rintro ⟨-, -, -, -, hbelow⟩
  have hlimit := cfg.metricHopCountMax.toNat_lt
  have hle : 255 + 2 ≤ cfg.metricHopCountMax.toNat := (of_not_metricLimitReached hbelow).2
  omega

theorem consumeAll_admits (rest : Except Stop Unit) {msgs : List MessageContext} {s : Node}
    (hs : ∃ nib, s.router = fullRouter {} nib) (h : AdmitsRrep cfg msgs s.msgData) :
    (consumeAll (consumeMessage cfg 0) rest msgs s).1 = .error (.fault .nullDereference) := by
  induction msgs generalizing s with
  | nil => exact absurd h not_false
  | cons msg msgs ih =>
    obtain ⟨nib, hnib⟩ := hs
    unfold consumeAll consumeMessage
    unfold AdmitsRrep at h
    by_cases hrreq : msg.msgType = msgtypeRreq
    · rw [if_pos hrreq] at h ⊢
      obtain ⟨e, he, hrest⟩ := h
      obtain ⟨-, -, -, -, hchecks⟩ := (passed?_eq_some rreq_follows).mp he
      obtain ⟨nib', hend⟩ := @cbRreqEndCallback_full cfg {} { s with msgData := e } nib hnib
        (isComparable_zero hchecks.1) hchecks
      rw [consumeWith_passed he hend (Or.inl rfl)]
      exact ih ⟨nib', rfl⟩ hrest
    rw [if_neg hrreq] at h ⊢
    by_cases hrrep : msg.msgType = msgtypeRrep
    · rw [if_pos hrrep] at h ⊢
      obtain ⟨e, he⟩ := h
      obtain ⟨-, -, -, -, hchecks⟩ := (passed?_eq_some rrep_follows).mp he
      have hfault := @cbRrepEndCallback_full cfg {} { s with msgData := e } nib hnib hchecks
      rw [consumeWith_passed he (Prod.ext hfault rfl) (Or.inr (Or.inr ⟨_, rfl⟩))]
      rfl
    · rw [if_neg hrrep] at h ⊢
      exact ih ⟨nib, hnib⟩ h

/-- With the metric at its top the same packet is dropped. -/
theorem consumeAll_top (rest : Except Stop Unit) {msgs : List MessageContext} {s : Node}
    {d : Message} {time : Timex} (hs : ∃ nib, s.router = fullRouter {} nib)
    (hd : s.msgData = d.withSlack 255 time) (h : AdmitsRrep cfg msgs d) :
    (consumeAll (consumeMessage cfg 0) rest msgs s).1 = .error (.result .dropPacket) := by
  induction msgs generalizing s d time with
  | nil => exact absurd h not_false
  | cons msg msgs ih =>
    obtain ⟨nib, hnib⟩ := hs
    unfold consumeAll consumeMessage
    unfold AdmitsRrep at h
    by_cases hrreq : msg.msgType = msgtypeRreq
    · rw [if_pos hrreq] at h ⊢
      obtain ⟨e, he, hrest⟩ := h
      have he' := rreqPassed?_withSlack 255 time he
      rw [← hd] at he'
      obtain ⟨-, -, -, -, hchecks⟩ := (passed?_eq_some rreq_follows).mp he'
      obtain ⟨nib', hend⟩ := @cbRreqEndCallback_full cfg {}
        { s with msgData := e.withSlack 255 time } nib hnib (isComparable_zero hchecks.1) hchecks
      rw [consumeWith_passed he' hend (Or.inl rfl)]
      exact ih ⟨nib', rfl⟩ (rreqRecord_withSlack e 255 time) hrest
    rw [if_neg hrreq] at h ⊢
    by_cases hrrep : msg.msgType = msgtypeRrep
    · rw [if_pos hrrep] at h ⊢
      obtain ⟨e, he⟩ := h
      obtain ⟨hop, conts, hdec, -, -⟩ := (passed?_eq_some rrep_follows).mp he
      have hrefused : ¬ RrepChecks cfg
          (decodeAll rrepRules conts { s.msgData with msgHopLimit := hop - 1 }) := by
        rw [hd]
        change ¬ RrepChecks cfg (decodeAll rrepRules conts
          (Message.withSlack 255 time { d with msgHopLimit := hop - 1 }))
        rw [decodeAll_withSlack_rrep]
        exact rrepChecks_top _ _
      rw [consumeWith_refused rrep_follows (fun _ => cbRrepEndCallback_refused) hdec hrefused]
      rfl
    · rw [if_neg hrrep] at h ⊢
      exact ih ⟨nib, hnib⟩ hd h

/-! A first RREQ that is not complete. -/

/-- The handlers only append to the queue. -/
theorem consumeAll_outbox (rest : Except Stop Unit) (msgs : List MessageContext) (s : Node) :
    ∃ posted, (consumeAll (consumeMessage cfg 0) rest msgs s).2.outbox = s.outbox ++ posted := by
  have hsame : ∀ s : Node, ∃ posted, s.outbox = s.outbox ++ posted :=
    fun s => ⟨[], (List.append_nil _).symm⟩
  have htrans : ∀ s₁ s₂ s₃ : Node, (∃ posted, s₂.outbox = s₁.outbox ++ posted) →
      (∃ posted, s₃.outbox = s₂.outbox ++ posted) → ∃ posted, s₃.outbox = s₁.outbox ++ posted := by
    rintro s₁ s₂ s₃ ⟨posted, h⟩ ⟨posted', h'⟩
    exact ⟨posted ++ posted', by rw [h', h, List.append_assoc]⟩
  refine consumeAll_preserves (R := fun s s' : Node => ∃ posted, s'.outbox = s.outbox ++ posted)
    hsame htrans (fun msg s => ?_) rest msgs s
  refine consumeMessage_preserves (R := fun s s' : Node => ∃ posted, s'.outbox = s.outbox ++ posted)
    hsame htrans (fun _ _ _ s => hsame s) (fun s => ?_) (fun s => ?_) msg s
  · have hout := cbRreqEndCallback_outcome cfg 0 s
    generalize cbRreqEndCallback cfg 0 false s = result at hout ⊢
    cases hout with
    | answered => exact ⟨_, rfl⟩
    | forwarded => exact ⟨_, rfl⟩
    | _ => exact hsame s
  · have hout := cbRrepEndCallback_outcome cfg 0 s
    generalize cbRrepEndCallback cfg 0 false s = result at hout ⊢
    cases hout with
    | relayed => exact ⟨_, rfl⟩
    | _ => exact hsame s

/-- The addresses of an RREQ can be read off the wire: the first one is
OrigNode's and the last one TargNode's. -/
theorem writerSendRreq_addrs (m : Message) :
    (writerSendRreq m).addrs.head?.map WireAddr.addr = some m.origNode.netaddr ∧
      (writerSendRreq m).addrs.getLast?.map WireAddr.addr = some m.targNode.netaddr := by
  change (cbRreqAddAddresses m).head?.map WireAddr.addr = _ ∧
    (cbRreqAddAddresses m).getLast?.map WireAddr.addr = _
  unfold cbRreqAddAddresses
  by_cases h : m.origNode.netaddr = m.targNode.netaddr
  · rw [← h]
    dsimp only
    rw [addAddress_same]
    exact ⟨rfl, rfl⟩
  · dsimp only
    rw [addAddress_ne h]
    exact ⟨rfl, rfl⟩

theorem wire_rreq_addrs {m m' : Message}
    (h : (Outgoing.rreq m).wire = (Outgoing.rreq m').wire) :
    m.origNode.addr = m'.origNode.addr ∧ m.targNode.addr = m'.targNode.addr := by
  have hwire : writerSendRreq m = writerSendRreq m' :=
    congrArg Prod.snd (congrFun (congrArg Prod.snd h) seqnumInit)
  obtain ⟨horig, htarg⟩ := writerSendRreq_addrs m
  obtain ⟨horig', htarg'⟩ := writerSendRreq_addrs m'
  rw [hwire] at horig htarg
  exact ⟨congrArg Netaddr.addr (Option.some.inj (horig.symm.trans horig')),
    congrArg Netaddr.addr (Option.some.inj (htarg.symm.trans htarg'))⟩

/-- The address with its last bit flipped. -/
def flipLast (a : Ipv6Addr) : Ipv6Addr := a ^^^ 1#128

theorem flipLast_last (a : Ipv6Addr) : (flipLast a).getMsbD 127 = !a.getMsbD 127 := by
  unfold flipLast
  rw [BitVec.getMsbD_xor, show (1#128 : BitVec 128).getMsbD 127 = true from rfl, Bool.xor_true]

/-- What an address that is not written in full keeps. -/
theorem decodeAll_last {f : Message → Ipv6Addr} {writes : AddrContext → Bool}
    (hwrites : ∀ cont d, f (rreqRules.decode cont d) =
      if writes cont then (netaddrToIpv6Addr cont.addr (f d)).1 else f d)
    {conts : List AddrContext} (h : ¬ ∃ cont ∈ conts, writes cont = true ∧ FullWrite cont.addr)
    (d : Message) :
    (f (decodeAll rreqRules conts d)).getMsbD 127 = (f d).getMsbD 127 := by
  induction conts generalizing d with
  | nil => rfl
  | cons cont conts ih =>
    have hrest := ih (fun ⟨c, hc, hw⟩ => h ⟨c, List.mem_cons_of_mem _ hc, hw⟩)
      (rreqRules.decode cont d)
    refine hrest.trans ?_
    rw [hwrites]
    split
    · rename_i hw
      exact netaddrToIpv6Addr_last (fun hfull => h ⟨cont, List.mem_cons_self, hw, hfull⟩) _
    · rfl

/-- Then some other record makes the message differ on the wire, if it
passes at all. -/
theorem rreq_incomplete_differs {msg : MessageContext} {d e : Message}
    (hpassed : rreqPassed? cfg msg d = some e)
    (hincomplete : ∀ conts, msg.addrs = conts.map .ok → ¬ RreqComplete conts) :
    ∃ d' : Message, d'.sender = d.sender ∧ d'.seqnortr = d.seqnortr ∧
      ∀ e', rreqPassed? cfg msg d' = some e' →
        (Outgoing.rreq (rreqRecord 0 e)).wire ≠ (Outgoing.rreq (rreqRecord 0 e')).wire := by
  obtain ⟨hop, conts, hdec, rfl, -⟩ := (passed?_eq_some rreq_follows).mp hpassed
  have hconts : ∀ {d' e'}, rreqPassed? cfg msg d' = some e' →
      ∃ hop', e' = decodeAll rreqRules conts { d' with msgHopLimit := hop' - 1 } := by
    intro d' e' he'
    obtain ⟨hop', conts', hdec', rfl, -⟩ := (passed?_eq_some rreq_follows).mp he'
    have heq : conts' = conts := (List.map_inj_right fun _ _ => Except.ok.inj).mp
      (hdec'.addrs.symm.trans hdec.addrs)
    exact ⟨hop', by rw [heq]⟩
  have hflip : ∀ {a : Ipv6Addr}, a.getMsbD 127 ≠ (flipLast a).getMsbD 127 := by
    intro a
    rw [flipLast_last]
    exact (Bool.not_ne_self _).symm
  by_cases horig : ∃ cont ∈ conts, cont.origSeqnum.isSome = true ∧ FullWrite cont.addr
  · have htarg : ¬ ∃ cont ∈ conts, isTargAddr cont = true ∧ FullWrite cont.addr :=
      fun htarg => hincomplete conts hdec.addrs ⟨horig, htarg⟩
    have hlast := @decodeAll_last (fun d => d.targNode.addr) isTargAddr
      (fun cont d => (rreqRules_decode_targ cont d).1) conts htarg
    refine ⟨{ d with targNode.addr := flipLast d.targNode.addr }, rfl, rfl, fun e' he' hwire => ?_⟩
    obtain ⟨hop', rfl⟩ := hconts he'
    have haddr := congrArg (·.getMsbD 127) (wire_rreq_addrs hwire).2
    exact hflip ((hlast _).symm.trans (haddr.trans (hlast _)))
  · have hlast := @decodeAll_last (fun d => d.origNode.addr) (fun cont => cont.origSeqnum.isSome)
      (fun cont d => (rreqRules_decode_orig cont d).1) conts horig
    refine ⟨{ d with origNode.addr := flipLast d.origNode.addr }, rfl, rfl, fun e' he' hwire => ?_⟩
    obtain ⟨hop', rfl⟩ := hconts he'
    have haddr := congrArg (·.getMsbD 127) (wire_rreq_addrs hwire).1
    exact hflip ((hlast _).symm.trans (haddr.trans (hlast _)))

/-- The router above with a record. -/
def fullNode (entry : Mcmsg) (d : Message) : Node where
  router := fullRouter entry nibInit
  msgData := d

/-- What an RREQ that passes leaves in the queue. -/
theorem consumeRreq_full {msg : MessageContext} {d e : Message}
    (he : rreqPassed? cfg msg d = some e) (hmiss : isComparable entry e = false)
    (rest : Except Stop Unit) (msgs : List MessageContext) :
    ∃ posted, (afterMessage (consumeWith cfg 0 rreqCallbacks msg (fullNode entry d))
      (consumeAll (consumeMessage cfg 0) rest msgs)).2.outbox =
        .rreq (rreqRecord 0 e) :: posted := by
  obtain ⟨-, -, -, -, hchecks⟩ := (passed?_eq_some rreq_follows).mp he
  obtain ⟨nib, hend⟩ := @cbRreqEndCallback_full cfg entry { fullNode entry d with msgData := e }
    nibInit rfl hmiss hchecks
  rw [consumeWith_passed he hend (Or.inl rfl)]
  exact consumeAll_outbox rest msgs _

/-- And one that does not pass. -/
theorem consumeRreq_stopped {msg : MessageContext} {d : Message}
    (hnone : rreqPassed? cfg msg d = none) (next : Node → Except Stop Unit × Node) :
    (afterMessage (consumeWith cfg 0 rreqCallbacks msg (fullNode entry d)) next).2.outbox = [] := by
  obtain ⟨r, hr, hstopped⟩ := @consumeWith_stopped cfg 0 _ _ _ _ rreq_follows (fun _ => rfl)
    (fun _ => cbRreqEndCallback_refused) msg
  obtain ⟨d', hs⟩ := hstopped (fullNode entry d) hnone
  obtain ⟨stop, hstop⟩ := afterMessage_stopped hr
  rw [hs, hstop]
  rfl

theorem consumeAll_incomplete (rest : Except Stop Unit) {msgs : List MessageContext}
    (h : ¬ FirstRreqComplete cfg msgs) :
    ∃ d d' : Message, d'.sender = d.sender ∧ d'.seqnortr = d.seqnortr ∧
      ¬ EndSame (consumeAll (consumeMessage cfg 0) rest msgs (fullNode {} d))
        (consumeAll (consumeMessage cfg 0) rest msgs (fullNode {} d')) := by
  induction msgs with
  | nil => exact absurd trivial h
  | cons msg msgs ih =>
    unfold FirstRreqComplete at h
    unfold consumeAll
    by_cases hrreq : msg.msgType = msgtypeRreq
    · have hconsume : ∀ s, consumeMessage cfg 0 msg s = consumeWith cfg 0 rreqCallbacks msg s :=
        fun _ => if_pos hrreq
      simp only [hconsume]
      rw [if_pos hrreq] at h
      push Not at h
      obtain ⟨⟨d, e, he⟩, hincomplete⟩ := h
      obtain ⟨d', hsender, hrtr, hdiffers⟩ := rreq_incomplete_differs he hincomplete
      refine ⟨d, d', hsender, hrtr, fun hsame => ?_⟩
      have hmiss : ∀ {d e}, rreqPassed? cfg msg d = some e → isComparable {} e = false := by
        intro d e he
        obtain ⟨-, -, -, -, hchecks⟩ := (passed?_eq_some rreq_follows).mp he
        exact isComparable_zero hchecks.1
      obtain ⟨posted, hposted⟩ := consumeRreq_full he (hmiss he) rest msgs
      have houtbox := hsame.2.outbox
      rw [hposted] at houtbox
      cases he' : rreqPassed? cfg msg d' with
      | some e' =>
        obtain ⟨posted', hposted'⟩ := consumeRreq_full he' (hmiss he') rest msgs
        rw [hposted'] at houtbox
        exact hdiffers e' he' (List.cons.inj houtbox).1
      | none =>
        rw [consumeRreq_stopped he'] at houtbox
        cases houtbox
    · rw [if_neg hrreq] at h
      by_cases hrrep : msg.msgType = msgtypeRrep
      · rw [if_pos hrrep] at h
        exact absurd trivial h
      · rw [if_neg hrrep] at h
        have hconsume : ∀ s, consumeMessage cfg 0 msg s = (.ok .okay, s) := fun _ =>
          (if_neg hrreq).trans (if_neg hrrep)
        simp only [hconsume]
        exact ih h

/-! Two records that agree on all but `seqnortr`. -/

/-- The entry that an RREQ like this one has left behind. -/
def entryOf (d : Message) : Mcmsg where
  origPrefix := d.origNode.addr
  origPfxLen := d.origNode.pfxLen
  targPrefix := d.targNode.addr
  origSeqnum := d.origNode.seqnum
  metricType := d.metricType
  metric := d.origNode.metric
  seqnortr := d.seqnortr

theorem redundant_entryOf (d : Message) (nib : Nib) :
    Redundant cfg 0 d (fullRouter (entryOf d) nib) := by
  have hcomp : isComparable (entryOf d) d = true :=
    isComparable_iff.mpr ⟨by simp [isCompatible, entryOf], rfl⟩
  have hfirst : FirstComparable 0 d (fullRouter (entryOf d) nib).mcmsg 0
      { data := entryOf d, used := true } :=
    ⟨rfl, fullRouter_live _, hcomp, fun j _ hj => absurd hj (Nat.not_lt_zero j)⟩
  unfold Redundant
  cases hverdict : (mcmsgProcess cfg 0 d (fullRouter (entryOf d) nib).mcmsg).1 with
  | redundant => rfl
  | ok =>
    -- It would have to be newer or to have another metric.
    obtain ⟨hpasses, -⟩ := (mcmsgProcess_ok_iff cfg 0 d _).mp hverdict 0 _ hfirst
    rcases hpasses with hnewer | ⟨-, hmetric⟩
    · rw [show (entryOf d).origSeqnum = d.origNode.seqnum from rfl, seqnumCmp_self] at hnewer
      exact absurd hnewer (by decide)
    · exact absurd rfl hmetric

theorem flipLast_ne (a : Ipv6Addr) : flipLast a ≠ a := by
  intro h
  have hbit := flipLast_last a
  rw [h] at hbit
  exact Bool.not_ne_self _ hbit.symm

/-- An RREQ that passes does so with any SeqNoRtr in the record, and keeps it. -/
theorem rreqPassed?_withSeqnortr {msg : MessageContext} {d e : Message}
    (he : rreqPassed? cfg msg d = some e) (seqnortr : Ipv6Addr) :
    rreqPassed? cfg msg { d with seqnortr := seqnortr } =
      some { e with seqnortr := seqnortr } := by
  obtain ⟨hop, conts, hdec, heq, hchecks⟩ := (passed?_eq_some rreq_follows).mp he
  refine (passed?_eq_some rreq_follows).mpr ⟨hop, conts, hdec, ?_, hchecks⟩
  rw [heq]
  symm
  refine @decodeAll_commutes rreqRules (fun d => { d with seqnortr := seqnortr })
    (fun cont d => ?_) conts { d with msgHopLimit := hop - 1 }
  obtain ⟨addr, idx, o, t, m⟩ := cont
  cases o <;> cases t <;> cases m <;> rfl

theorem consumeAll_seqnortr (rest : Except Stop Unit) {msgs : List MessageContext}
    (hrrep : ∀ d, ¬ AdmitsRrep cfg msgs d) (h : ¬ FirstRefused cfg msgs) :
    ∃ (entry : Mcmsg) (d d' : Message), d'.sender = d.sender ∧
      ¬ EndSame (consumeAll (consumeMessage cfg 0) rest msgs (fullNode entry d))
        (consumeAll (consumeMessage cfg 0) rest msgs (fullNode entry d')) := by
  induction msgs with
  | nil => exact absurd trivial h
  | cons msg msgs ih =>
    unfold FirstRefused at h
    unfold AdmitsRrep at hrrep
    unfold consumeAll
    by_cases hrreq : msg.msgType = msgtypeRreq
    · have hconsume : ∀ s, consumeMessage cfg 0 msg s = consumeWith cfg 0 rreqCallbacks msg s :=
        fun _ => if_pos hrreq
      simp only [hconsume]
      rw [if_pos hrreq] at h
      push Not at h
      obtain ⟨d, hd⟩ := h
      obtain ⟨e, he⟩ := Option.ne_none_iff_exists'.mp hd
      obtain ⟨-, -, -, -, hchecks⟩ := (passed?_eq_some rreq_follows).mp he
      have he' := rreqPassed?_withSeqnortr he (flipLast e.seqnortr)
      refine ⟨entryOf e, d, { d with seqnortr := flipLast e.seqnortr }, rfl, fun hsame => ?_⟩
      have hmiss : isComparable (entryOf e) { e with seqnortr := flipLast e.seqnortr } = false := by
        rw [Bool.eq_false_iff]
        intro hcomp
        exact flipLast_ne _ (isComparable_iff.mp hcomp).2.symm
      obtain ⟨posted, hposted⟩ := consumeRreq_full he' hmiss rest msgs
      have hend : cbRreqEndCallback cfg 0 false { fullNode (entryOf e) d with msgData := e } =
          (.ok .dropPacket, { fullNode (entryOf e) d with
            msgData := e
            router := recordRreq cfg 0 e (fullRouter (entryOf e) nibInit) }) := by
        rw [cbRreqEndCallback_eq hchecks]
        exact if_pos (redundant_entryOf e nibInit)
      have houtbox := hsame.2.outbox
      rw [hposted, consumeWith_passed he hend (Or.inr (Or.inl rfl))] at houtbox
      cases houtbox
    · rw [if_neg hrreq] at h
      simp only [if_neg hrreq] at hrrep
      by_cases htype : msg.msgType = msgtypeRrep
      · rw [if_pos htype] at h
        simp only [if_pos htype] at hrrep
        push Not at h
        obtain ⟨d, hd⟩ := h
        exact absurd (Option.ne_none_iff_exists'.mp hd) (hrrep d)
      · rw [if_neg htype] at h
        simp only [if_neg htype] at hrrep
        have hconsume : ∀ s, consumeMessage cfg 0 msg s = (.ok .okay, s) := fun _ =>
          (if_neg hrreq).trans (if_neg htype)
        simp only [hconsume]
        exact ih hrrep h

/-! ## §3 Which packets are independent of the record -/

/-- **Independence of a packet.** From two initial records in this relation
it is handled the same way, whoever sent it and whatever the tables hold. -/
def PacketIndependent (cfg : Conf) (Initial : Message → Message → Prop) (buf : List UInt8) : Prop :=
  ∀ (now : Timex) (sender : Ipv6Addr) (s : Node) (d d' : Message), Initial d d' →
    EndSame (receivePacket cfg now sender buf { s with msgData := d })
      (receivePacket cfg now sender buf { s with msgData := d' })

/-- Records that earlier packets can have left in one router: no packet
writes `seqnortr`. -/
def LeftBehind (d d' : Message) : Prop := d.seqnortr = d'.seqnortr

/-- Two records that tell the packet apart on one node. -/
theorem not_packetIndependent {buf : List UInt8} {Initial : Message → Message → Prop}
    {rest : Except Stop Unit}
    (hrest : ∀ {σ : Type} (consumer : Consumer σ) (s : σ),
      handlePacket consumer buf s = consumeAll consumer rest (messages buf) s)
    {entry : Mcmsg} {d d' : Message} (hsender : d'.sender = d.sender) (hinitial : Initial d d')
    (h : ¬ EndSame (consumeAll (consumeMessage cfg 0) rest (messages buf) (fullNode entry d))
      (consumeAll (consumeMessage cfg 0) rest (messages buf) (fullNode entry d'))) :
    ¬ PacketIndependent cfg Initial buf := by
  intro hindependent
  have hsame := hindependent 0 d.sender (fullNode entry d) d d' hinitial
  unfold receivePacket at hsame
  rw [hrest, hrest] at hsame
  have hprepared : handlePacketPrepare d.sender { fullNode entry d with msgData := d' } =
      fullNode entry d' := by
    rw [← hsender]
    rfl
  rw [hprepared] at hsame
  exact h hsame

/-- **Message independence.** From any two records only a packet whose
first message is refused whatever the record holds is handled the same way.
From two that earlier packets can have left it is handled the same way
exactly when no RREP of it can pass its tests, and the first RREQ, if it can
pass, has an OrigNode and a TargNode address in full. -/
theorem packetIndependent_iff (cfg : Conf) (buf : List UInt8) :
    (PacketIndependent cfg (fun _ _ => True) buf ↔ FirstRefused cfg (messages buf)) ∧
    (∀ now sender s,
      (receivePacket cfg now sender buf s).2.msgData.seqnortr = s.msgData.seqnortr) ∧
    (PacketIndependent cfg LeftBehind buf ↔
      (∀ d, ¬ AdmitsRrep cfg (messages buf) d) ∧ FirstRreqComplete cfg (messages buf)) := by
  obtain ⟨rest, hrest⟩ := handlePacket_eq buf
  have hrrep : PacketIndependent cfg LeftBehind buf → ∀ d, ¬ AdmitsRrep cfg (messages buf) d := by
    intro h d hadmits
    refine @not_packetIndependent cfg buf LeftBehind rest hrest {} d (d.withSlack 255 0) rfl rfl ?_ h
    rintro ⟨hresult, -⟩
    rw [consumeAll_admits rest ⟨nibInit, rfl⟩ hadmits,
      consumeAll_top rest ⟨nibInit, rfl⟩ rfl hadmits] at hresult
    cases hresult
  refine ⟨⟨fun h => ?_, fun h => ?_⟩, fun now sender s => receivePacket_seqnortr _ _ _ _ _,
    ⟨fun h => ⟨hrrep h, ?_⟩, fun h => ?_⟩⟩
  · by_contra hfirst
    have hleft : PacketIndependent cfg LeftBehind buf := fun now sender s d d' _ =>
      h now sender s d d' trivial
    obtain ⟨entry, d, d', hsender, hdiffer⟩ := consumeAll_seqnortr rest (hrrep hleft) hfirst
    exact not_packetIndependent hrest hsender trivial hdiffer h
  · intro now sender s d d' _
    unfold receivePacket
    rw [hrest, hrest]
    exact consumeAll_refused rest h ⟨rfl, rfl, rfl⟩
  · by_contra hfirst
    obtain ⟨d, d', hsender, hrtr, hdiffer⟩ := consumeAll_incomplete rest hfirst
    exact not_packetIndependent hrest hsender hrtr.symm hdiffer h
  · intro now sender s d d' hrtr
    unfold receivePacket
    rw [hrest, hrest]
    exact consumeAll_same rest _ h.1 h.2 ⟨⟨rfl, rfl, rfl⟩, rfl, hrtr⟩

/-- An RREQ without a TargNode address. A fresh router drops it; one that
has seen another message before looks for the target of that message. -/
theorem packet_depends_on_record :
    let buf := oneAddressRreq 36 [0, 9, 0, 0x10, 1, 9, 3, 0x90, 3, 1, 0]
    let s : Node := { router := Router.init ⟨16, 16, 16⟩ [] }
    (receivePacket .default 0 1#128 buf { s with msgData := {} }).1 =
        .error (.result .dropPacket) ∧
      (receivePacket .default 0 1#128 buf { s with msgData := { targNode.addr := 9#128 } }).1 =
        .ok () ∧
      ¬ PacketIndependent .default LeftBehind buf := by
  intro buf s
  have hfresh : (receivePacket .default 0 1#128 buf { s with msgData := {} }).1 =
      .error (.result .dropPacket) := by decide +kernel
  have hlater : (receivePacket .default 0 1#128 buf
      { s with msgData := { targNode.addr := 9#128 } }).1 = .ok () := by decide +kernel
  refine ⟨hfresh, hlater, fun h => ?_⟩
  have hresult := (h 0 1#128 s {} { targNode.addr := 9#128 } rfl).1
  rw [hfresh, hlater] at hresult
  cases hresult

end Turpial.Aodvv2
