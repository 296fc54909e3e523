/-
Turpial.Aodvv2.RecordTheorems — what a packet makes of the static record.

Two runs of one router on one packet, from records that differ. §1 says
what of a node can be observed; §2 that no packet writes `seqnortr`. §3
compares the two records after the address callbacks: they agree on all
that an RREQ is about if some OrigNode address and some TargNode address
overwrite the whole old address.

An RREQ that is accepted settles the record for the rest of the packet, but
for TargNode's metric, which no message writes: the RREP callback stores
the metric it reads in OrigNode. An RREP that reaches the route tables
therefore always depends on the record. §4 carries agreement through a
packet whose first RREQ is complete and whose RREPs all fail their tests.
-/
import Turpial.Aodvv2.MetricTheorems

namespace Turpial.Aodvv2

open Turpial.Lib Turpial.Rfc5444

variable {cfg : Conf} {now : Timex}

/-! ## §1 What can be observed -/

/-- What goes out for a posted message: where to, and for each value of the
own sequence number the message and the next value. -/
def Outgoing.wire : Outgoing → Destination × (SeqCounter → SeqCounter × WireMessage)
  | .rreq pkt => (.allManetRouters, fun c => (c, writerSendRreq pkt))
  | .rrep pkt nextHop => (.unicast nextHop, fun c => writerSendRrep c pkt)

/-- Two nodes with the same tables, the same messages to send and the same
packets handed back. -/
structure SameVisible (s s' : Node) : Prop where
  router : s.router = s'.router
  outbox : s.outbox.map Outgoing.wire = s'.outbox.map Outgoing.wire
  dispatched : s.dispatched = s'.dispatched

/-- And besides with the same sender and `seqnortr` in their records. -/
structure SameButRecord (s s' : Node) : Prop where
  visible : SameVisible s s'
  sender : s.msgData.sender = s'.msgData.sender
  seqnortr : s.msgData.seqnortr = s'.msgData.seqnortr

/-- Two ways of handling a packet that cannot be told apart. -/
def EndSame (a b : Except Stop Unit × Node) : Prop := a.1 = b.1 ∧ SameVisible a.2 b.2

/-! ## §2 What no packet writes -/

section Keeps

variable {α β : Type}

/-- The callback leaves `seqnortr` alone, also when it faults. -/
def KeepsSeqnortr (c : Callback α) : Prop :=
  ∀ st, (c st).2.msgData.seqnortr = st.msgData.seqnortr

theorem KeepsSeqnortr.bind {x : Callback α} {f : α → Callback β} (hx : KeepsSeqnortr x)
    (hf : ∀ a, KeepsSeqnortr (f a)) : KeepsSeqnortr (x >>= f) := by
  intro st
  have hst := hx st
  rw [callback_bind]
  split <;> rename_i hrun <;> rw [hrun] at hst
  · exact (hf _ _).trans hst
  · exact hst

theorem keepsSeqnortr_pure (a : α) : KeepsSeqnortr (pure a) := fun _ => rfl

theorem keepsSeqnortr_writeMsg {f : Message → Message} (h : ∀ d, (f d).seqnortr = d.seqnortr) :
    KeepsSeqnortr (writeMsg f) := fun st => h st.msgData

theorem keepsSeqnortr_deref (cont : AddrContext) (tlv : TlvEntry) :
    KeepsSeqnortr (derefSingleValue cont tlv) := by
  intro st
  unfold derefSingleValue
  dsimp only
  split <;> rfl

theorem keepsSeqnortr_writeIf (p : Bool) {f : Message → Message}
    (h : ∀ d, (f d).seqnortr = d.seqnortr) : KeepsSeqnortr (writeIf p f) := by
  unfold writeIf
  split
  · exact keepsSeqnortr_writeMsg h
  · exact keepsSeqnortr_pure _

theorem keepsSeqnortr_ifTlv (tlv : Option TlvEntry) {body : TlvEntry → Callback Unit}
    (h : ∀ tlv, KeepsSeqnortr (body tlv)) : KeepsSeqnortr (ifTlv tlv body) := by
  cases tlv with
  | none => exact keepsSeqnortr_pure _
  | some tlv => exact h tlv

theorem keepsSeqnortr_ite (p : Prop) [Decidable p] {x y : Callback α} (hx : KeepsSeqnortr x)
    (hy : KeepsSeqnortr y) : KeepsSeqnortr (if p then x else y) := by
  split
  · exact hx
  · exact hy

/-- Write, read the value, write it. -/
theorem keepsSeqnortr_assign (cont : AddrContext) (tlv : TlvEntry) (before : Message → Message)
    (after : UInt8 → Message → Message) (hbefore : ∀ d, (before d).seqnortr = d.seqnortr)
    (hafter : ∀ v d, (after v d).seqnortr = d.seqnortr) :
    KeepsSeqnortr (do writeMsg before; let v ← derefSingleValue cont tlv; writeMsg (after v)) :=
  (keepsSeqnortr_writeMsg hbefore).bind fun _ =>
    (keepsSeqnortr_deref cont tlv).bind fun v => keepsSeqnortr_writeMsg (hafter v)

/-- The end of both address callbacks. -/
theorem keepsSeqnortr_metric (cont : AddrContext) :
    KeepsSeqnortr (do
      ifTlv cont.metric fun tlv => do
        writeMsg (Message.setMetricType tlv.typeExt)
        let v ← derefSingleValue cont tlv
        writeMsg (Message.setMetric v)
      return Rfc5444Result.okay) :=
  KeepsSeqnortr.bind (keepsSeqnortr_ifTlv _ fun tlv =>
    keepsSeqnortr_assign cont tlv (Message.setMetricType tlv.typeExt) Message.setMetric
      (fun _ => rfl) fun _ _ => rfl) fun _ => keepsSeqnortr_pure _

theorem keepsSeqnortr_rreq (cont : AddrContext) :
    KeepsSeqnortr (cbRreqBlocktlvAddresstlvsOkay cont) := by
  unfold cbRreqBlocktlvAddresstlvsOkay
  refine KeepsSeqnortr.bind (keepsSeqnortr_ifTlv _ fun tlv => ?_) fun _ =>
    KeepsSeqnortr.bind (keepsSeqnortr_ifTlv _ fun tlv => ?_) fun _ =>
    KeepsSeqnortr.bind (keepsSeqnortr_writeIf _ fun _ => rfl) fun _ => ?_
  · exact keepsSeqnortr_assign cont tlv (Message.setOrigAddr cont.addr) Message.setOrigSeqnum
      (fun _ => rfl) fun _ _ => rfl
  · exact keepsSeqnortr_assign cont tlv (Message.setTargAddr cont.addr) Message.setTargSeqnum
      (fun _ => rfl) fun _ _ => rfl
  · exact keepsSeqnortr_ite _ (keepsSeqnortr_pure _) <|
      keepsSeqnortr_ite _ (keepsSeqnortr_pure _) <|
      keepsSeqnortr_ite _ (keepsSeqnortr_pure _) (keepsSeqnortr_metric cont)

theorem keepsSeqnortr_rrep (cont : AddrContext) :
    KeepsSeqnortr (cbRrepBlocktlvAddresstlvsOkay cont) := by
  unfold cbRrepBlocktlvAddresstlvsOkay
  refine KeepsSeqnortr.bind (keepsSeqnortr_ifTlv _ fun tlv => ?_) fun _ =>
    KeepsSeqnortr.bind (keepsSeqnortr_ifTlv _ fun tlv => ?_) fun _ => ?_
  · exact keepsSeqnortr_assign cont tlv (Message.setTargAddr cont.addr) Message.setTargSeqnum
      (fun _ => rfl) fun _ _ => rfl
  · exact keepsSeqnortr_assign cont tlv (Message.setOrigAddrRrep cont.addr) Message.setOrigSeqnum
      (fun _ => rfl) fun _ _ => rfl
  · exact keepsSeqnortr_ite _ (keepsSeqnortr_pure _) <|
      keepsSeqnortr_ite _ (keepsSeqnortr_pure _) <|
      keepsSeqnortr_ite _ (keepsSeqnortr_pure _) (keepsSeqnortr_metric cont)

theorem keepsSeqnortr_scheduleAddrs {callback : AddrContext → Callback Rfc5444Result}
    (h : ∀ cont, KeepsSeqnortr (callback cont)) (addrs : List AddrResult) :
    KeepsSeqnortr (scheduleAddrs callback addrs) := by
  induction addrs with
  | nil => exact keepsSeqnortr_pure _
  | cons a rest ih =>
    cases a with
    | error f => exact fun _ => rfl
    | ok cont =>
      exact (h cont).bind fun r => keepsSeqnortr_ite _ ih (keepsSeqnortr_pure _)

theorem decodeMessage_seqnortr {cbs : Callbacks} (h : ∀ cont, KeepsSeqnortr (cbs.addressTlvs cont))
    (msg : MessageContext) (d : Message) :
    (decodeMessage cbs msg d).2.msgData.seqnortr = d.seqnortr := by
  have hheader : (cbBlocktlvMessagetlvsOkay msg.hopLimit d).2.seqnortr = d.seqnortr := by
    unfold cbBlocktlvMessagetlvsOkay
    split
    · rfl
    · split <;> rfl
  unfold decodeMessage
  dsimp only
  split
  · exact (keepsSeqnortr_scheduleAddrs h _ _).trans hheader
  · exact hheader

end Keeps

/-- What both types of message do to the node. -/
theorem consumeMessage_preserves {R : Node → Node → Prop} (hrefl : ∀ s, R s s)
    (htrans : ∀ s₁ s₂ s₃, R s₁ s₂ → R s₂ s₃ → R s₁ s₃)
    (hdecode : ∀ cbs, cbs = rreqCallbacks ∨ cbs = rrepCallbacks → ∀ msg s,
      R s { s with msgData := (decodeMessage cbs msg s.msgData).2.msgData })
    (hrreq : ∀ s, R s (cbRreqEndCallback cfg now false s).2)
    (hrrep : ∀ s, R s (cbRrepEndCallback cfg now false s).2) (msg : MessageContext) (s : Node) :
    R s (consumeMessage cfg now msg s).2 := by
  have hwith : ∀ cbs, cbs = rreqCallbacks ∨ cbs = rrepCallbacks →
      (∀ dropped s, R s (cbs.endCallback cfg now dropped s).2) →
      R s (consumeWith cfg now cbs msg s).2 := by
    intro cbs hcbs hend
    have hdec := hdecode cbs hcbs msg s
    unfold consumeWith
    dsimp only
    split
    · exact hdec
    · rename_i r _
      have hrun := hend (decide (r ≠ .okay))
        { s with msgData := (decodeMessage cbs msg s.msgData).2.msgData }
      split <;> rename_i heq <;> rw [heq] at hrun <;> exact htrans _ _ _ hdec hrun
  unfold consumeMessage
  split
  · refine hwith _ (Or.inl rfl) fun dropped s => ?_
    cases dropped with
    | true => exact hrefl s
    | false => exact hrreq s
  · split
    · refine hwith _ (Or.inr rfl) fun dropped s => ?_
      cases dropped with
      | true => exact hrefl s
      | false => exact hrrep s
    · exact hrefl s

/-- A packet leaves `seqnortr` as it was, whatever it holds and however
handling it ends. -/
theorem receivePacket_seqnortr (cfg : Conf) (now : Timex) (sender : Ipv6Addr) (buf : List UInt8)
    (s : Node) : (receivePacket cfg now sender buf s).2.msgData.seqnortr = s.msgData.seqnortr := by
  obtain ⟨rest, hrest⟩ := handlePacket_eq buf
  unfold receivePacket
  rw [hrest]
  refine consumeAll_preserves
    (R := fun s s' : Node => s'.msgData.seqnortr = s.msgData.seqnortr) (fun _ => rfl)
    (fun _ _ _ h h' => h'.trans h) (fun msg s => ?_) rest _ (handlePacketPrepare sender s)
  refine consumeMessage_preserves
    (R := fun s s' : Node => s'.msgData.seqnortr = s.msgData.seqnortr) (fun _ => rfl)
    (fun _ _ _ h h' => h'.trans h) ?_ (fun s => ?_) (fun s => ?_) msg s
  · rintro cbs (rfl | rfl) msg s
    · exact decodeMessage_seqnortr keepsSeqnortr_rreq msg s.msgData
    · exact decodeMessage_seqnortr keepsSeqnortr_rrep msg s.msgData
  · have hout := cbRreqEndCallback_outcome cfg now s
    generalize cbRreqEndCallback cfg now false s = result at hout ⊢
    cases hout <;> rfl
  · have hout := cbRrepEndCallback_outcome cfg now s
    generalize cbRrepEndCallback cfg now false s = result at hout ⊢
    cases hout <;> rfl

/-! ## §3 The record of an RREQ -/

/-- What an address of an RREQ writes, field by field. -/
theorem rreqRules_decode_orig (cont : AddrContext) (d : Message) :
    (rreqRules.decode cont d).origNode.addr =
        (if cont.origSeqnum.isSome then (netaddrToIpv6Addr cont.addr d.origNode.addr).1
          else d.origNode.addr) ∧
      (rreqRules.decode cont d).origNode.pfxLen =
        (if cont.origSeqnum.isSome then ipv6PfxLen cont.addr else d.origNode.pfxLen) ∧
      (rreqRules.decode cont d).origNode.seqnum =
        (cont.origSeqnum.elim d.origNode.seqnum fun tlv => (byteOf tlv).toUInt16) ∧
      (rreqRules.decode cont d).origNode.metric =
        (if cont.origSeqnum.isSome then cont.metric.elim d.origNode.metric byteOf
          else d.origNode.metric) ∧
      (rreqRules.decode cont d).metricType =
        (if cont.origSeqnum.isSome then cont.metric.elim d.metricType TlvEntry.typeExt
          else d.metricType) := by
  obtain ⟨addr, idx, o, t, m⟩ := cont
  cases o <;> cases t <;> cases m <;>
    simp [rreqRules, Message.setOrigAddr, Message.setOrigSeqnum, Message.setTargAddr,
      Message.setTargSeqnum, Message.setMetricType, Message.setMetric]

/-- The address is TargNode's. -/
def isTargAddr (cont : AddrContext) : Bool :=
  cont.targSeqnum.isSome || cont.origSeqnum.isNone

theorem rreqRules_decode_targ (cont : AddrContext) (d : Message) :
    (rreqRules.decode cont d).targNode.addr =
        (if isTargAddr cont then (netaddrToIpv6Addr cont.addr d.targNode.addr).1
          else d.targNode.addr) ∧
      (rreqRules.decode cont d).targNode.pfxLen =
        (if isTargAddr cont then ipv6PfxLen cont.addr else d.targNode.pfxLen) := by
  obtain ⟨addr, idx, o, t, m⟩ := cont
  cases o <;> cases t <;> cases m <;>
    simp [rreqRules, isTargAddr, Message.setOrigAddr, Message.setOrigSeqnum,
      Message.setTargAddr, Message.setTargSeqnum, Message.setMetricType, Message.setMetric]

/-- The records agree on everything that an RREQ is about. TargNode's
sequence number and metric are not among it. -/
structure SameRreq (d d' : Message) : Prop where
  hop : d.msgHopLimit = d'.msgHopLimit
  sender : d.sender = d'.sender
  metricType : d.metricType = d'.metricType
  orig : d.origNode = d'.origNode
  targAddr : d.targNode.addr = d'.targNode.addr
  targPfxLen : d.targNode.pfxLen = d'.targNode.pfxLen
  seqnortr : d.seqnortr = d'.seqnortr

/-- One of the OrigNode addresses and one of the TargNode addresses leave
nothing of the old address. -/
structure RreqComplete (conts : List AddrContext) : Prop where
  orig : ∃ cont ∈ conts, cont.origSeqnum.isSome = true ∧ FullWrite cont.addr
  targ : ∃ cont ∈ conts, isTargAddr cont = true ∧ FullWrite cont.addr

/-- An accepted OrigNode address makes the records agree on OrigNode, but
for its address. -/
theorem rreqRules_agree_orig {conts : List AddrContext} (hacc : AllAccepted rreqRules conts)
    (horig : ∃ cont ∈ conts, cont.origSeqnum.isSome = true) (d d' : Message) :
    let e := decodeAll rreqRules conts d
    let e' := decodeAll rreqRules conts d'
    e.origNode.pfxLen = e'.origNode.pfxLen ∧ e.origNode.seqnum = e'.origNode.seqnum ∧
      e.origNode.metric = e'.origNode.metric ∧ e.metricType = e'.metricType := by
  apply decodeAll_agree (R := fun e e' => e.origNode.pfxLen = e'.origNode.pfxLen ∧
    e.origNode.seqnum = e'.origNode.seqnum ∧ e.origNode.metric = e'.origNode.metric ∧
    e.metricType = e'.metricType)
  · rintro cont - d d' ⟨hlen, hseq, hmetric, htype⟩
    obtain ⟨-, h₁, h₂, h₃, h₄⟩ := rreqRules_decode_orig cont d
    obtain ⟨-, h₁', h₂', h₃', h₄'⟩ := rreqRules_decode_orig cont d'
    rw [h₁, h₂, h₃, h₄, h₁', h₂', h₃', h₄', hlen, hseq, hmetric, htype]
    exact ⟨rfl, rfl, rfl, rfl⟩
  · obtain ⟨cont, hc, ho⟩ := horig
    refine ⟨cont, hc, fun d d' => ?_⟩
    have hmetric : cont.metric.isSome = true := by
      have haccepts := (hacc cont hc).2
      change (cont.origSeqnum.isSome == cont.metric.isSome) = true at haccepts
      rw [ho] at haccepts
      simpa using haccepts
    obtain ⟨-, h₁, h₂, h₃, h₄⟩ := rreqRules_decode_orig cont d
    obtain ⟨-, h₁', h₂', h₃', h₄'⟩ := rreqRules_decode_orig cont d'
    rw [h₁, h₂, h₃, h₄, h₁', h₂', h₃', h₄']
    obtain ⟨tlv, htlv⟩ := Option.isSome_iff_exists.mp ho
    obtain ⟨m, hm⟩ := Option.isSome_iff_exists.mp hmetric
    simp [htlv, hm]

/-- A complete RREQ makes two records agree. -/
theorem RreqComplete.sameRreq {conts : List AddrContext} (h : RreqComplete conts)
    (hacc : AllAccepted rreqRules conts) {d d' : Message} (hhop : d.msgHopLimit = d'.msgHopLimit)
    (hsender : d.sender = d'.sender) (hrtr : d.seqnortr = d'.seqnortr) :
    SameRreq (decodeAll rreqRules conts d) (decodeAll rreqRules conts d') := by
  have hheader := decodeAll_keeps Message.header rreqRules_header conts
  have hhop' : ∀ d, (decodeAll rreqRules conts d).msgHopLimit = d.msgHopLimit :=
    fun d => congrArg (fun h => h.1) (hheader d)
  have hsender' : ∀ d, (decodeAll rreqRules conts d).sender = d.sender :=
    fun d => congrArg (fun h => h.2.1) (hheader d)
  have hrtr' : ∀ d, (decodeAll rreqRules conts d).seqnortr = d.seqnortr :=
    fun d => congrArg (fun h => h.2.2.1) (hheader d)
  obtain ⟨co, hco, ho, hfullo⟩ := h.orig
  obtain ⟨ct, hct, ht, hfullt⟩ := h.targ
  obtain ⟨hlen, hseq, hmetric, htype⟩ := rreqRules_agree_orig hacc ⟨co, hco, ho⟩ d d'
  have horigAddr : (decodeAll rreqRules conts d).origNode.addr =
      (decodeAll rreqRules conts d').origNode.addr := by
    apply decodeAll_agree (R := fun e e' => e.origNode.addr = e'.origNode.addr)
    · rintro cont - d d' heq
      rw [(rreqRules_decode_orig cont d).1, (rreqRules_decode_orig cont d').1, heq]
    · refine ⟨co, hco, fun d d' => ?_⟩
      rw [(rreqRules_decode_orig co d).1, (rreqRules_decode_orig co d').1, if_pos ho, if_pos ho]
      exact netaddrToIpv6Addr_full hfullo _ _
  have htargAddr : (decodeAll rreqRules conts d).targNode.addr =
      (decodeAll rreqRules conts d').targNode.addr := by
    apply decodeAll_agree (R := fun e e' => e.targNode.addr = e'.targNode.addr)
    · rintro cont - d d' heq
      rw [(rreqRules_decode_targ cont d).1, (rreqRules_decode_targ cont d').1, heq]
    · refine ⟨ct, hct, fun d d' => ?_⟩
      rw [(rreqRules_decode_targ ct d).1, (rreqRules_decode_targ ct d').1, if_pos ht, if_pos ht]
      exact netaddrToIpv6Addr_full hfullt _ _
  have htargLen : (decodeAll rreqRules conts d).targNode.pfxLen =
      (decodeAll rreqRules conts d').targNode.pfxLen := by
    apply decodeAll_agree (R := fun e e' => e.targNode.pfxLen = e'.targNode.pfxLen)
    · rintro cont - d d' heq
      rw [(rreqRules_decode_targ cont d).2, (rreqRules_decode_targ cont d').2, heq]
    · refine ⟨ct, hct, fun d d' => ?_⟩
      rw [(rreqRules_decode_targ ct d).2, (rreqRules_decode_targ ct d').2, if_pos ht, if_pos ht]
  refine ⟨?_, ?_, htype, ?_, htargAddr, htargLen, ?_⟩
  · rw [hhop', hhop', hhop]
  · rw [hsender', hsender', hsender]
  · exact NodeData.ext horigAddr hlen hmetric hseq
  · rw [hrtr', hrtr', hrtr]

/-- An RREQ keeps records in agreement. -/
theorem rreqRules_sameRreq {cont : AddrContext} {d d' : Message} (h : SameRreq d d') :
    SameRreq (rreqRules.decode cont d) (rreqRules.decode cont d') := by
  obtain ⟨hop, sender, type, orig, targ, rtr, time⟩ := d
  obtain ⟨hop', sender', type', orig', targ', rtr', time'⟩ := d'
  obtain ⟨rfl, rfl, rfl, rfl, haddr, hlen, rfl⟩ := h
  obtain ⟨addr, idx, o, t, m⟩ := cont
  obtain ⟨a, l, x, q⟩ := targ
  obtain ⟨a', l', x', q'⟩ := targ'
  obtain rfl : a = a' := haddr
  obtain rfl : l = l' := hlen
  cases o <;> cases t <;> cases m <;> exact ⟨rfl, rfl, rfl, rfl, rfl, rfl, rfl⟩

theorem decodeAll_sameRreq (conts : List AddrContext) {d d' : Message} (h : SameRreq d d') :
    SameRreq (decodeAll rreqRules conts d) (decodeAll rreqRules conts d') := by
  induction conts generalizing d d' with
  | nil => exact h
  | cons cont conts ih => exact ih (rreqRules_sameRreq h)

theorem SameRreq.withHop {d d' : Message} (h : SameRreq d d') (hop : UInt8) :
    SameRreq { d with msgHopLimit := hop } { d' with msgHopLimit := hop } :=
  ⟨rfl, h.sender, h.metricType, h.orig, h.targAddr, h.targPfxLen, h.seqnortr⟩

/-! TargNode's metric and the time are not read from a message. -/

/-- The record with another metric of TargNode and another time. -/
def Message.withSlack (metric : UInt8) (time : Timex) (d : Message) : Message :=
  { d with targNode.metric := metric, timestamp := time }

/-- What every address leaves as it is goes through all of them. -/
theorem decodeAll_commutes {rules : AddressRules} {f : Message → Message}
    (h : ∀ cont d, rules.decode cont (f d) = f (rules.decode cont d)) (conts : List AddrContext)
    (d : Message) : decodeAll rules conts (f d) = f (decodeAll rules conts d) := by
  induction conts generalizing d with
  | nil => rfl
  | cons cont conts ih =>
    change decodeAll rules conts (rules.decode cont _) = _
    rw [h, ih]
    rfl

theorem decodeAll_withSlack_rreq (conts : List AddrContext) (metric : UInt8) (time : Timex)
    (d : Message) : decodeAll rreqRules conts (d.withSlack metric time) =
      (decodeAll rreqRules conts d).withSlack metric time := by
  refine decodeAll_commutes (fun cont d => ?_) conts d
  obtain ⟨addr, idx, o, t, m⟩ := cont
  cases o <;> cases t <;> cases m <;> rfl

theorem decodeAll_withSlack_rrep (conts : List AddrContext) (metric : UInt8) (time : Timex)
    (d : Message) : decodeAll rrepRules conts (d.withSlack metric time) =
      (decodeAll rrepRules conts d).withSlack metric time := by
  refine decodeAll_commutes (fun cont d => ?_) conts d
  obtain ⟨addr, idx, o, t, m⟩ := cont
  cases o <;> cases t <;> cases m <;> rfl

/-! ## §4 Packets that settle the record -/

/-- The record of a message that passes the callbacks before the end
callback and the tests in it. -/
def passed? (cbs : Callbacks) (checks : Message → Prop) [DecidablePred checks]
    (msg : MessageContext) (d : Message) : Option Message :=
  match decodeMessage cbs msg d with
  | (.ok .okay, st) => if checks st.msgData then some st.msgData else none
  | _ => none

/-- The record of an RREQ that passes. -/
abbrev rreqPassed? (cfg : Conf) : MessageContext → Message → Option Message :=
  passed? rreqCallbacks (RreqChecks cfg)

/-- The record of an RREP that passes. -/
abbrev rrepPassed? (cfg : Conf) : MessageContext → Message → Option Message :=
  passed? rrepCallbacks (RrepChecks cfg)

/-- Some RREP passes, if the RREQs before it do. -/
def AdmitsRrep (cfg : Conf) : List MessageContext → Message → Prop
  | [], _ => False
  | msg :: msgs, d =>
    if msg.msgType = msgtypeRreq then
      ∃ e, rreqPassed? cfg msg d = some e ∧ AdmitsRrep cfg msgs (rreqRecord 0 e)
    else if msg.msgType = msgtypeRrep then ∃ e, rrepPassed? cfg msg d = some e
    else AdmitsRrep cfg msgs d

/-- The first RREQ, unless an RREP is before it, never passes or is complete. -/
def FirstRreqComplete (cfg : Conf) : List MessageContext → Prop
  | [] => True
  | msg :: msgs =>
    if msg.msgType = msgtypeRreq then
      (∃ d e, rreqPassed? cfg msg d = some e) →
        ∃ conts, msg.addrs = conts.map .ok ∧ RreqComplete conts
    else if msg.msgType = msgtypeRrep then True
    else FirstRreqComplete cfg msgs

/-- The first RREQ or RREP never passes. -/
def FirstRefused (cfg : Conf) : List MessageContext → Prop
  | [] => True
  | msg :: msgs =>
    if msg.msgType = msgtypeRreq then ∀ d, rreqPassed? cfg msg d = none
    else if msg.msgType = msgtypeRrep then ∀ d, rrepPassed? cfg msg d = none
    else FirstRefused cfg msgs

section Passed

variable {cbs : Callbacks} {rules : AddressRules} {checks : Message → Prop} [DecidablePred checks]
  {msg : MessageContext}

theorem passed?_eq_some (hf : Follows cbs.addressTlvs rules) {d e : Message} :
    passed? cbs checks msg d = some e ↔ ∃ hop conts, Decodable rules msg hop conts ∧
      e = decodeAll rules conts { d with msgHopLimit := hop - 1 } ∧ checks e := by
  unfold passed?
  constructor
  · intro h
    split at h
    · rename_i st hdec
      obtain ⟨hop, conts, hdecodable, hrec⟩ := decodeMessage_okay hf hdec
      split at h
      · rename_i hchecks
        cases h
        exact ⟨hop, conts, hdecodable, hrec, hchecks⟩
      · cases h
    · cases h
  · rintro ⟨hop, conts, hdecodable, rfl, hchecks⟩
    obtain ⟨reads, hdec⟩ := hdecodable.decodeMessage hf d
    rw [hdec]
    exact if_pos hchecks

/-- A message that decodes passes exactly when what it decodes to meets the
tests. -/
theorem Decodable.passed?_eq (hf : Follows cbs.addressTlvs rules) {hop : UInt8}
    {conts : List AddrContext} (h : Decodable rules msg hop conts) (d : Message) :
    passed? cbs checks msg d =
      if checks (decodeAll rules conts { d with msgHopLimit := hop - 1 }) then
        some (decodeAll rules conts { d with msgHopLimit := hop - 1 })
      else none := by
  obtain ⟨reads, hdec⟩ := h.decodeMessage hf d
  unfold passed?
  rw [hdec]

omit [DecidablePred checks] in
/-- A message that fails the tests is dropped by its end callback. -/
theorem consumeWith_refused (hf : Follows cbs.addressTlvs rules)
    (hrefuse : ∀ s : Node, ¬ checks s.msgData →
      cbs.endCallback cfg now false s = (.ok .dropPacket, s)) {hop : UInt8}
    {conts : List AddrContext} (hdec : Decodable rules msg hop conts) {s : Node}
    (hchecks : ¬ checks (decodeAll rules conts { s.msgData with msgHopLimit := hop - 1 })) :
    consumeWith cfg now cbs msg s = (.ok .dropPacket, { s with
      msgData := decodeAll rules conts { s.msgData with msgHopLimit := hop - 1 } }) := by
  obtain ⟨reads, hrun⟩ := hdec.decodeMessage hf s.msgData
  unfold consumeWith
  dsimp only
  rw [hrun]
  dsimp only
  rw [show decide (Rfc5444Result.okay ≠ .okay) = false from rfl, hrefuse _ hchecks]
  rfl

/-- A message that does not pass ends the packet, in the same way whatever
the record holds, and leaves nothing but a record. -/
theorem consumeWith_stopped (hf : Follows cbs.addressTlvs rules)
    (hdrop : ∀ s, cbs.endCallback cfg now true s = (.ok .dropPacket, s))
    (hrefuse : ∀ s : Node, ¬ checks s.msgData →
      cbs.endCallback cfg now false s = (.ok .dropPacket, s)) (msg : MessageContext) :
    ∃ r, r ≠ .ok .okay ∧ ∀ s : Node, passed? cbs checks msg s.msgData = none →
      ∃ d, consumeWith cfg now cbs msg s = (r, { s with msgData := d }) := by
  by_cases hdec : ∃ hop conts, Decodable rules msg hop conts
  · obtain ⟨hop, conts, hdec⟩ := hdec
    refine ⟨.ok .dropPacket, by simp, fun s hnone => ?_⟩
    have hchecks : ¬ checks (decodeAll rules conts { s.msgData with msgHopLimit := hop - 1 }) := by
      intro hchecks
      rw [(passed?_eq_some hf).mpr ⟨hop, conts, hdec, rfl, hchecks⟩] at hnone
      cases hnone
    exact ⟨_, consumeWith_refused hf hrefuse hdec hchecks⟩
  · obtain ⟨r, hr, hrun⟩ := decodeMessage_refused hf hdec
    cases r with
    | error f =>
      refine ⟨.error f, by simp, fun s _ => ⟨(decodeMessage cbs msg s.msgData).2.msgData, ?_⟩⟩
      unfold consumeWith
      dsimp only
      rw [hrun]
    | ok r =>
      have hne : r ≠ .okay := fun h => hr (by rw [h])
      refine ⟨.ok .dropPacket, by simp, fun s _ =>
        ⟨(decodeMessage cbs msg s.msgData).2.msgData, ?_⟩⟩
      unfold consumeWith
      dsimp only
      rw [hrun]
      dsimp only
      rw [decide_eq_true hne, hdrop]
      rfl

/-- A message that passes is handled by its end callback, which returns
OKAY, DROP_PACKET or not at all. -/
theorem consumeWith_passed {s : Node} {e : Message}
    (h : passed? cbs checks msg s.msgData = some e) {r : Except Fault Rfc5444Result} {s' : Node}
    (hend : cbs.endCallback cfg now false { s with msgData := e } = (r, s'))
    (hr : r = .ok .okay ∨ r = .ok .dropPacket ∨ ∃ f, r = .error f) :
    consumeWith cfg now cbs msg s = (r, s') := by
  unfold passed? at h
  split at h
  · rename_i st hdec
    split at h
    · cases h
      unfold consumeWith
      dsimp only
      rw [hdec]
      dsimp only
      rw [show decide (Rfc5444Result.okay ≠ .okay) = false from rfl, hend]
      rcases hr with rfl | rfl | ⟨f, rfl⟩ <;> rfl
    · cases h
  · cases h

end Passed

/-! The end callback of an RREQ reads what such records agree on. -/

theorem SameRreq.checks {d d' : Message} (h : SameRreq d d') :
    RreqChecks cfg d ↔ RreqChecks cfg d' := by
  unfold RreqChecks
  rw [h.orig, h.targAddr, h.hop, h.metricType]

theorem SameRreq.mcmsgProcess {d d' : Message} (h : SameRreq d d') (set : McmsgSet) :
    mcmsgProcess cfg now d set = mcmsgProcess cfg now d' set := by
  obtain ⟨hop, sender, type, orig, targ, rtr, time⟩ := d
  obtain ⟨hop', sender', type', orig', targ', rtr', time'⟩ := d'
  obtain ⟨rfl, rfl, rfl, rfl, haddr, hlen, rfl⟩ := h
  obtain ⟨a, l, x, q⟩ := targ
  obtain ⟨a', l', x', q'⟩ := targ'
  obtain rfl : a = a' := haddr
  rfl

theorem SameRreq.tables {d d' : Message} (h : SameRreq d d') (r : Router) :
    rreqTables cfg now d r = rreqTables cfg now d' r := by
  have hrecord : recordRreq cfg now d r = recordRreq cfg now d' r := by
    unfold recordRreq
    rw [h.mcmsgProcess]
  unfold rreqTables
  rw [hrecord]
  obtain ⟨hop, sender, type, orig, targ, rtr, time⟩ := d
  obtain ⟨hop', sender', type', orig', targ', rtr', time'⟩ := d'
  obtain ⟨rfl, rfl, rfl, rfl, -, -, rfl⟩ := h
  rfl

/-- `_cb_rreq_end_callback` on a record that passes its tests. -/
theorem cbRreqEndCallback_eq {s : Node} (hchecks : RreqChecks cfg s.msgData) :
    cbRreqEndCallback cfg now false s =
      if Redundant cfg now s.msgData s.router then
        (.ok .dropPacket, { s with router := recordRreq cfg now s.msgData s.router })
      else if (rreqTables cfg now s.msgData s.router).1 = false then
        (.ok .dropPacket, { s with
          router := (rreqTables cfg now s.msgData s.router).2
          msgData := rreqRecord now s.msgData })
      else if IsClient s.router.rcs s.msgData.targNode.addr then
        (.ok .okay, { s with
          router := (rreqTables cfg now s.msgData s.router).2
          msgData := { rreqRecord now s.msgData with targNode.metric := 0 }
          outbox := s.outbox ++
            [.rrep { rreqRecord now s.msgData with targNode.metric := 0 } s.msgData.sender] })
      else
        (.ok .okay, { s with
          router := (rreqTables cfg now s.msgData s.router).2
          msgData := rreqRecord now s.msgData
          outbox := s.outbox ++ [.rreq (rreqRecord now s.msgData)] }) := by
  have hout := cbRreqEndCallback_outcome cfg now s
  generalize cbRreqEndCallback cfg now false s = result at hout ⊢
  cases hout with
  | refused h => exact absurd hchecks h
  | redundant _ hseen => rw [if_pos hseen]
  | noImprovement _ hseen hkept => rw [if_neg hseen, if_pos hkept]
  | answered _ hseen hupdated hclient =>
    rw [if_neg hseen, if_neg (by rw [hupdated]; decide), if_pos hclient]
  | forwarded _ hseen hupdated hclient =>
    rw [if_neg hseen, if_neg (by rw [hupdated]; decide), if_neg hclient]

/-- The record after an RREQ that was accepted. TargNode's metric may have
been set for an answer. -/
def AfterRreq (now : Timex) (e : Message) (s : Node) : Prop :=
  ∃ metric, s.msgData = (rreqRecord now e).withSlack metric now

theorem wire_append {o o' : List Outgoing} (h : o.map Outgoing.wire = o'.map Outgoing.wire)
    {x x' : Outgoing} (hx : x.wire = x'.wire) :
    (o ++ [x]).map Outgoing.wire = (o' ++ [x']).map Outgoing.wire := by
  rw [List.map_append, List.map_append, h, List.map_singleton, List.map_singleton, hx]

/-- The messages posted for such records look the same. -/
theorem SameRreq.wire {d d' : Message} (h : SameRreq d d') :
    (Outgoing.rreq (rreqRecord now d)).wire = (Outgoing.rreq (rreqRecord now d')).wire ∧
      (Outgoing.rrep { rreqRecord now d with targNode.metric := 0 } d.sender).wire =
        (Outgoing.rrep { rreqRecord now d' with targNode.metric := 0 } d'.sender).wire := by
  obtain ⟨hop, sender, type, orig, targ, rtr, time⟩ := d
  obtain ⟨hop', sender', type', orig', targ', rtr', time'⟩ := d'
  obtain ⟨rfl, rfl, rfl, rfl, haddr, hlen, rfl⟩ := h
  obtain ⟨a, l, x, q⟩ := targ
  obtain ⟨a', l', x', q'⟩ := targ'
  obtain rfl : a = a' := haddr
  obtain rfl : l = l' := hlen
  exact ⟨rfl, rfl⟩

theorem SameRreq.record {d d' : Message} (h : SameRreq d d') {metric metric' : UInt8} :
    SameRreq ((rreqRecord now d).withSlack metric now)
      ((rreqRecord now d').withSlack metric' now) := by
  obtain ⟨hop, sender, type, orig, targ, rtr, time⟩ := d
  obtain ⟨hop', sender', type', orig', targ', rtr', time'⟩ := d'
  obtain ⟨rfl, rfl, rfl, rfl, haddr, hlen, rfl⟩ := h
  exact ⟨rfl, rfl, rfl, rfl, haddr, hlen, rfl⟩

/-- Two nodes that differ in their records only, as far as an RREQ can
tell, on an RREQ that passes. -/
theorem cbRreqEndCallback_same {s s' : Node} (hv : SameVisible s s')
    (hd : SameRreq s.msgData s'.msgData) (hchecks : RreqChecks cfg s.msgData) :
    ∃ r t t', (r = .ok .okay ∨ r = .ok .dropPacket) ∧
      cbRreqEndCallback cfg now false s = (r, t) ∧ cbRreqEndCallback cfg now false s' = (r, t') ∧
      SameVisible t t' ∧
      (r = .ok .okay → AfterRreq now s.msgData t ∧ AfterRreq now s'.msgData t') := by
  obtain ⟨hrouter, houtbox, hdispatched⟩ := hv
  have hseen : Redundant cfg now s.msgData s.router ↔ Redundant cfg now s'.msgData s'.router := by
    unfold Redundant
    rw [hrouter, hd.mcmsgProcess]
  have htables : rreqTables cfg now s.msgData s.router = rreqTables cfg now s'.msgData s'.router := by
    rw [hrouter, hd.tables]
  have hrecorded : recordRreq cfg now s.msgData s.router =
      recordRreq cfg now s'.msgData s'.router := by
    unfold recordRreq
    rw [hrouter, hd.mcmsgProcess]
  have hclient : IsClient s.router.rcs s.msgData.targNode.addr ↔
      IsClient s'.router.rcs s'.msgData.targNode.addr := by
    rw [hrouter, hd.targAddr]
  rw [cbRreqEndCallback_eq hchecks, cbRreqEndCallback_eq (hd.checks.mp hchecks)]
  by_cases h₁ : Redundant cfg now s.msgData s.router
  · rw [if_pos h₁, if_pos (hseen.mp h₁)]
    exact ⟨_, _, _, Or.inr rfl, rfl, rfl, ⟨hrecorded, houtbox, hdispatched⟩, by simp⟩
  rw [if_neg h₁, if_neg fun h => h₁ (hseen.mpr h)]
  by_cases h₂ : (rreqTables cfg now s.msgData s.router).1 = false
  · rw [if_pos h₂, if_pos (htables ▸ h₂)]
    exact ⟨_, _, _, Or.inr rfl, rfl, rfl, ⟨congrArg Prod.snd htables, houtbox, hdispatched⟩,
      by simp⟩
  rw [if_neg h₂, if_neg fun h => h₂ (htables ▸ h)]
  by_cases h₃ : IsClient s.router.rcs s.msgData.targNode.addr
  · rw [if_pos h₃, if_pos (hclient.mp h₃)]
    exact ⟨_, _, _, Or.inl rfl, rfl, rfl,
      ⟨congrArg Prod.snd htables, wire_append houtbox hd.wire.2, hdispatched⟩,
      fun _ => ⟨⟨0, rfl⟩, ⟨0, rfl⟩⟩⟩
  · rw [if_neg h₃, if_neg fun h => h₃ (hclient.mpr h)]
    exact ⟨_, _, _, Or.inl rfl, rfl, rfl,
      ⟨congrArg Prod.snd htables, wire_append houtbox hd.wire.1, hdispatched⟩,
      fun _ => ⟨⟨_, rfl⟩, ⟨_, rfl⟩⟩⟩

/-! The slack of a record in a packet. -/

theorem rreqPassed?_withSlack {msg : MessageContext} {d e : Message} (metric : UInt8) (time : Timex)
    (h : rreqPassed? cfg msg d = some e) :
    rreqPassed? cfg msg (d.withSlack metric time) = some (e.withSlack metric time) := by
  obtain ⟨hop, conts, hdec, rfl, hchecks⟩ := (passed?_eq_some rreq_follows).mp h
  exact (passed?_eq_some rreq_follows).mpr
    ⟨hop, conts, hdec, (decodeAll_withSlack_rreq conts metric time _).symm, hchecks⟩

/-- Undoing the slack. -/
theorem withSlack_self (d : Message) : d.withSlack d.targNode.metric d.timestamp = d := rfl

theorem withSlack_withSlack (d : Message) (metric metric' : UInt8) (time time' : Timex) :
    (d.withSlack metric time).withSlack metric' time' = d.withSlack metric' time' := rfl

/-- Whether an RREP passes does not depend on the time. -/
theorem admitsRrep_time {msgs : List MessageContext} {d : Message} {metric : UInt8}
    {time time' : Timex} (h : AdmitsRrep cfg msgs (d.withSlack metric time)) :
    AdmitsRrep cfg msgs (d.withSlack metric time') := by
  induction msgs with
  | nil => exact h
  | cons msg msgs ih =>
    unfold AdmitsRrep at h ⊢
    split
    · rename_i hrreq
      rw [if_pos hrreq] at h
      obtain ⟨e, he, hrest⟩ := h
      have hmetric : e.targNode.metric = metric := by
        obtain ⟨hop, conts, -, rfl, -⟩ := (passed?_eq_some rreq_follows).mp he
        exact congrArg (·.targNode.metric) (decodeAll_withSlack_rreq conts metric time
          { d with msgHopLimit := hop - 1 })
      have he' := rreqPassed?_withSlack metric time' he
      subst hmetric
      exact ⟨_, he', hrest⟩
    · rename_i hrreq
      rw [if_neg hrreq] at h
      split
      · rename_i hrrep
        rw [if_pos hrrep] at h
        obtain ⟨e, he⟩ := h
        obtain ⟨hop, conts, hdec, rfl, hchecks⟩ := (passed?_eq_some rrep_follows).mp he
        refine ⟨_, (passed?_eq_some rrep_follows).mpr ⟨hop, conts, hdec, rfl, ?_⟩⟩
        change RrepChecks cfg (decodeAll rrepRules conts
          (Message.withSlack metric time { d with msgHopLimit := hop - 1 })) at hchecks
        change RrepChecks cfg (decodeAll rrepRules conts
          (Message.withSlack metric time' { d with msgHopLimit := hop - 1 }))
        rw [decodeAll_withSlack_rrep] at hchecks ⊢
        exact hchecks
      · rename_i hrrep
        rw [if_neg hrrep] at h
        exact ih h

/-- No RREP passes from this record, whatever its slack. -/
def NeverAdmits (cfg : Conf) (msgs : List MessageContext) (d : Message) : Prop :=
  ∀ metric time, ¬ AdmitsRrep cfg msgs (d.withSlack metric time)

theorem NeverAdmits.afterRreq {msg : MessageContext} {msgs : List MessageContext} {d e : Message}
    {t : Node} (h : NeverAdmits cfg (msg :: msgs) d) (htype : msg.msgType = msgtypeRreq)
    (hpassed : rreqPassed? cfg msg d = some e) (hafter : AfterRreq now e t) :
    NeverAdmits cfg msgs t.msgData := by
  obtain ⟨metric₀, hrecord⟩ := hafter
  intro metric time hadmits
  rw [hrecord, withSlack_withSlack] at hadmits
  refine h metric 0 ?_
  unfold AdmitsRrep
  rw [if_pos htype]
  exact ⟨e.withSlack metric 0, rreqPassed?_withSlack metric 0 hpassed,
    admitsRrep_time (d := rreqRecord now e) hadmits⟩

/-- A message that does not return OKAY ends the packet. -/
theorem afterMessage_stopped {r : Except Fault Rfc5444Result} (hr : r ≠ .ok .okay) :
    ∃ stop, ∀ (s : Node) next, afterMessage (r, s) next = (stop, s) := by
  cases r with
  | error f => exact ⟨.error (.fault f), fun _ _ => rfl⟩
  | ok r =>
    cases r with
    | okay => exact absurd rfl hr
    | _ => exact ⟨_, fun _ _ => rfl⟩

/-- Messages that both nodes stop at. -/
theorem consumeWith_same_of_stopped {cbs : Callbacks} {rules : AddressRules}
    {checks : Message → Prop} [DecidablePred checks] (hf : Follows cbs.addressTlvs rules)
    (hdrop : ∀ s, cbs.endCallback cfg now true s = (.ok .dropPacket, s))
    (hrefuse : ∀ s : Node, ¬ checks s.msgData →
      cbs.endCallback cfg now false s = (.ok .dropPacket, s)) {msg : MessageContext} {s s' : Node}
    (hv : SameVisible s s') (h : passed? cbs checks msg s.msgData = none)
    (h' : passed? cbs checks msg s'.msgData = none) (next : Node → Except Stop Unit × Node) :
    EndSame (afterMessage (consumeWith cfg now cbs msg s) next)
      (afterMessage (consumeWith cfg now cbs msg s') next) := by
  obtain ⟨r, hr, hstopped⟩ := consumeWith_stopped hf hdrop hrefuse msg
  obtain ⟨d, hs⟩ := hstopped s h
  obtain ⟨d', hs'⟩ := hstopped s' h'
  obtain ⟨stop, hstop⟩ := afterMessage_stopped hr
  rw [hs, hs', hstop, hstop]
  exact ⟨rfl, hv.router, hv.outbox, hv.dispatched⟩

/-- An RREQ that both nodes stop at, or that passes in both with records it
cannot tell apart. -/
theorem consumeRreq_same {msg : MessageContext} {s s' : Node} (hv : SameVisible s s')
    (hpassed : (rreqPassed? cfg msg s.msgData = none ∧ rreqPassed? cfg msg s'.msgData = none) ∨
      ∃ e e', rreqPassed? cfg msg s.msgData = some e ∧ rreqPassed? cfg msg s'.msgData = some e' ∧
        SameRreq e e')
    {next : Node → Except Stop Unit × Node}
    (hnext : ∀ e e' t t', rreqPassed? cfg msg s.msgData = some e →
      rreqPassed? cfg msg s'.msgData = some e' → SameRreq e e' → SameVisible t t' →
      AfterRreq now e t → AfterRreq now e' t' → EndSame (next t) (next t')) :
    EndSame (afterMessage (consumeWith cfg now rreqCallbacks msg s) next)
      (afterMessage (consumeWith cfg now rreqCallbacks msg s') next) := by
  rcases hpassed with ⟨hnone, hnone'⟩ | ⟨e, e', he, he', hsame⟩
  · exact consumeWith_same_of_stopped rreq_follows (fun _ => rfl)
      (fun _ => cbRreqEndCallback_refused) hv hnone hnone' next
  · obtain ⟨-, -, -, -, hchecks⟩ := (passed?_eq_some rreq_follows).mp he
    obtain ⟨r, t, t', hr, hend, hend', hv', hafter⟩ := @cbRreqEndCallback_same cfg now
      { s with msgData := e } { s' with msgData := e' } ⟨hv.router, hv.outbox, hv.dispatched⟩
      hsame hchecks
    have hr' : r = .ok .okay ∨ r = .ok .dropPacket ∨ ∃ f, r = .error f := hr.imp_right Or.inl
    rw [consumeWith_passed he hend hr', consumeWith_passed he' hend' hr']
    rcases hr with rfl | rfl
    · obtain ⟨hafter, hafter'⟩ := hafter rfl
      exact hnext e e' t t' he he' hsame hv' hafter hafter'
    · exact ⟨rfl, hv'⟩

/-- Records that agree pass together. -/
theorem SameRreq.passed {d d' : Message} (h : SameRreq d d') (msg : MessageContext) :
    (rreqPassed? cfg msg d = none ∧ rreqPassed? cfg msg d' = none) ∨
      ∃ e e', rreqPassed? cfg msg d = some e ∧ rreqPassed? cfg msg d' = some e' ∧
        SameRreq e e' := by
  have himp : ∀ {d d' : Message}, SameRreq d d' → ∀ e, rreqPassed? cfg msg d = some e →
      ∃ e', rreqPassed? cfg msg d' = some e' ∧ SameRreq e e' := by
    intro d d' h e he
    obtain ⟨hop, conts, hdec, rfl, hchecks⟩ := (passed?_eq_some rreq_follows).mp he
    have hsame := decodeAll_sameRreq conts (h.withHop (hop - 1))
    exact ⟨_, (passed?_eq_some rreq_follows).mpr
      ⟨hop, conts, hdec, rfl, hsame.checks.mp hchecks⟩, hsame⟩
  have hsymm : SameRreq d' d := ⟨h.hop.symm, h.sender.symm, h.metricType.symm, h.orig.symm,
    h.targAddr.symm, h.targPfxLen.symm, h.seqnortr.symm⟩
  cases he : rreqPassed? cfg msg d with
  | some e =>
    obtain ⟨e', he', hsame⟩ := himp h e he
    exact Or.inr ⟨e, e', rfl, he', hsame⟩
  | none =>
    refine Or.inl ⟨rfl, ?_⟩
    cases he' : rreqPassed? cfg msg d' with
    | none => rfl
    | some e' =>
      obtain ⟨e, h', -⟩ := himp hsymm e' he'
      rw [he] at h'
      cases h'

/-- Behind an RREQ that was accepted, nothing depends on the record any more. -/
theorem consumeAll_settled (rest : Except Stop Unit) (msgs : List MessageContext) {s s' : Node}
    (hv : SameVisible s s') (hd : SameRreq s.msgData s'.msgData)
    (h : NeverAdmits cfg msgs s.msgData) (h' : NeverAdmits cfg msgs s'.msgData) :
    EndSame (consumeAll (consumeMessage cfg now) rest msgs s)
      (consumeAll (consumeMessage cfg now) rest msgs s') := by
  induction msgs generalizing s s' with
  | nil => exact ⟨rfl, hv⟩
  | cons msg msgs ih =>
    unfold consumeAll consumeMessage
    by_cases hrreq : msg.msgType = msgtypeRreq
    · rw [if_pos hrreq, if_pos hrreq]
      refine consumeRreq_same hv (hd.passed msg) fun e e' t t' he he' hsame hv' hafter hafter' => ?_
      refine ih hv' ?_ (h.afterRreq hrreq he hafter) (h'.afterRreq hrreq he' hafter')
      obtain ⟨metric, hrecord⟩ := hafter
      obtain ⟨metric', hrecord'⟩ := hafter'
      rw [hrecord, hrecord']
      exact hsame.record
    · rw [if_neg hrreq, if_neg hrreq]
      have hadmits := h s.msgData.targNode.metric s.msgData.timestamp
      have hadmits' := h' s'.msgData.targNode.metric s'.msgData.timestamp
      rw [withSlack_self] at hadmits hadmits'
      unfold AdmitsRrep at hadmits hadmits'
      rw [if_neg hrreq] at hadmits hadmits'
      by_cases hrrep : msg.msgType = msgtypeRrep
      · rw [if_pos hrrep] at hadmits hadmits' ⊢
        rw [if_pos hrrep]
        exact consumeWith_same_of_stopped rrep_follows (fun _ => rfl)
          (fun _ => cbRrepEndCallback_refused) hv
          (Option.eq_none_iff_forall_ne_some.mpr fun e he => hadmits ⟨e, he⟩)
          (Option.eq_none_iff_forall_ne_some.mpr fun e he => hadmits' ⟨e, he⟩) _
      · have hskip : ∀ {d}, NeverAdmits cfg (msg :: msgs) d → NeverAdmits cfg msgs d := by
          intro d hd metric time hadm
          refine hd metric time ?_
          unfold AdmitsRrep
          rw [if_neg hrreq, if_neg hrrep]
          exact hadm
        rw [if_neg hrrep, if_neg hrrep]
        exact ih hv hd (hskip h) (hskip h')

/-- A complete RREQ passes from both records, with the same data, or from
neither. -/
theorem rreqPassed?_same {msg : MessageContext}
    (hcomplete : (∃ d e, rreqPassed? cfg msg d = some e) →
      ∃ conts, msg.addrs = conts.map .ok ∧ RreqComplete conts) {s s' : Node}
    (h : SameButRecord s s') :
    (rreqPassed? cfg msg s.msgData = none ∧ rreqPassed? cfg msg s'.msgData = none) ∨
      ∃ e e', rreqPassed? cfg msg s.msgData = some e ∧ rreqPassed? cfg msg s'.msgData = some e' ∧
        SameRreq e e' := by
  by_cases hpasses : ∃ d e, rreqPassed? cfg msg d = some e
  · obtain ⟨conts, haddrs, hcomplete⟩ := hcomplete hpasses
    obtain ⟨d₀, e₀, he₀⟩ := hpasses
    obtain ⟨hop, conts', hdec, -, -⟩ := (passed?_eq_some rreq_follows).mp he₀
    have hconts : conts' = conts := by
      have hmap := hdec.addrs.symm.trans haddrs
      exact (List.map_inj_right fun _ _ => Except.ok.inj).mp hmap
    subst hconts
    have hsame : SameRreq
        (decodeAll rreqRules conts' { s.msgData with msgHopLimit := hop - 1 })
        (decodeAll rreqRules conts' { s'.msgData with msgHopLimit := hop - 1 }) :=
      hcomplete.sameRreq hdec.accepted rfl h.sender h.seqnortr
    have hpassed : ∀ d, rreqPassed? cfg msg d = _ := hdec.passed?_eq rreq_follows
    rw [hpassed, hpassed]
    by_cases hchecks : RreqChecks cfg
        (decodeAll rreqRules conts' { s.msgData with msgHopLimit := hop - 1 })
    · rw [if_pos hchecks, if_pos (hsame.checks.mp hchecks)]
      exact Or.inr ⟨_, _, rfl, rfl, hsame⟩
    · rw [if_neg hchecks, if_neg fun hc => hchecks (hsame.checks.mpr hc)]
      exact Or.inl ⟨rfl, rfl⟩
  · have hnone : ∀ d, rreqPassed? cfg msg d = none := fun d =>
      Option.eq_none_iff_forall_ne_some.mpr fun e he => hpasses ⟨d, e, he⟩
    exact Or.inl ⟨hnone _, hnone _⟩

/-- Before that, the first RREQ settles it. -/
theorem consumeAll_same (rest : Except Stop Unit) (msgs : List MessageContext)
    (hrrep : ∀ d, ¬ AdmitsRrep cfg msgs d) (hfirst : FirstRreqComplete cfg msgs) {s s' : Node}
    (h : SameButRecord s s') :
    EndSame (consumeAll (consumeMessage cfg now) rest msgs s)
      (consumeAll (consumeMessage cfg now) rest msgs s') := by
  induction msgs with
  | nil => exact ⟨rfl, h.visible⟩
  | cons msg msgs ih =>
    unfold consumeAll consumeMessage
    unfold FirstRreqComplete at hfirst
    by_cases htype : msg.msgType = msgtypeRreq
    · rw [if_pos htype] at hfirst ⊢
      rw [if_pos htype]
      have hnever : ∀ d, NeverAdmits cfg (msg :: msgs) d := fun d metric time => hrrep _
      refine consumeRreq_same h.visible (rreqPassed?_same hfirst h)
        fun e e' t t' he he' hsame hv' hafter hafter' => ?_
      refine consumeAll_settled rest msgs hv' ?_ ((hnever _).afterRreq htype he hafter)
        ((hnever _).afterRreq htype he' hafter')
      obtain ⟨metric, hrecord⟩ := hafter
      obtain ⟨metric', hrecord'⟩ := hafter'
      rw [hrecord, hrecord']
      exact hsame.record
    · rw [if_neg htype] at hfirst ⊢
      rw [if_neg htype]
      by_cases htype' : msg.msgType = msgtypeRrep
      · have hnone : ∀ d, rrepPassed? cfg msg d = none := fun d =>
          Option.eq_none_iff_forall_ne_some.mpr fun e he => hrrep d (by
            unfold AdmitsRrep
            rw [if_neg htype, if_pos htype']
            exact ⟨e, he⟩)
        rw [if_pos htype', if_pos htype']
        exact consumeWith_same_of_stopped rrep_follows (fun _ => rfl)
          (fun _ => cbRrepEndCallback_refused) h.visible (hnone _) (hnone _) _
      · rw [if_neg htype'] at hfirst ⊢
        rw [if_neg htype']
        refine ih (fun d hadm => hrrep d ?_) hfirst
        unfold AdmitsRrep
        rw [if_neg htype, if_neg htype']
        exact hadm

/-- A packet whose first message never passes ends with it. -/
theorem consumeAll_refused (rest : Except Stop Unit) {msgs : List MessageContext}
    (h : FirstRefused cfg msgs) {s s' : Node} (hv : SameVisible s s') :
    EndSame (consumeAll (consumeMessage cfg now) rest msgs s)
      (consumeAll (consumeMessage cfg now) rest msgs s') := by
  induction msgs with
  | nil => exact ⟨rfl, hv⟩
  | cons msg msgs ih =>
    unfold consumeAll consumeMessage
    unfold FirstRefused at h
    by_cases hrreq : msg.msgType = msgtypeRreq
    · rw [if_pos hrreq] at h ⊢
      rw [if_pos hrreq]
      exact consumeWith_same_of_stopped rreq_follows (fun _ => rfl)
        (fun _ => cbRreqEndCallback_refused) hv (h _) (h _) _
    rw [if_neg hrreq] at h ⊢
    rw [if_neg hrreq]
    by_cases hrrep : msg.msgType = msgtypeRrep
    · rw [if_pos hrrep] at h ⊢
      rw [if_pos hrrep]
      exact consumeWith_same_of_stopped rrep_follows (fun _ => rfl)
        (fun _ => cbRrepEndCallback_refused) hv (h _) (h _) _
    · rw [if_neg hrrep] at h ⊢
      rw [if_neg hrrep]
      exact ih h

end Turpial.Aodvv2
