/-
Turpial.Aodvv2.ReactionTheorems — what one reception does to the static
record and to the queue of the thread.

The thread sends the oldest message of its queue (`transmit_fst`). The end
callbacks leave the hop limit and the prefixes of the record alone,
and they post one message at most, which has those of the record
(`receive_reaction`). What the address callbacks may store in the record
depends on the addresses of the message alone (`decodeMessage_keeps`).
-/
import Turpial.Aodvv2.HopLimitTheorems

namespace Turpial.Aodvv2

open Turpial.Lib Turpial.Rfc5444

variable {cfg : Conf} {now : Timex} {α β : Type}

/-! ## §1 The thread and the end callbacks -/

/-- The message that is posted to the thread. -/
def Outgoing.pkt : Outgoing → Message
  | .rreq pkt => pkt
  | .rrep pkt _ => pkt

/-- Where the thread sends a message. -/
def Outgoing.destination : Outgoing → Destination
  | .rreq _ => .allManetRouters
  | .rrep _ hop => .unicast hop

/-- What the thread writes for it. -/
def Outgoing.written (c : SeqCounter) : Outgoing → WireMessage
  | .rreq pkt => writerSendRreq pkt
  | .rrep pkt _ => (writerSendRrep c pkt).2

/-- The thread sends the oldest message of its queue. -/
theorem transmit_fst (s : Node) : (transmit s).1 =
    s.outbox.head?.map fun o => (o.destination, o.written s.router.seqnum) := by
  unfold transmit
  split
  · rename_i h
    rw [h]
    rfl
  · rename_i h
    rw [h]
    rfl
  · rename_i h
    rw [h]
    rfl

theorem transmit_snd (s : Node) : (transmit s).2.router.rcs = s.router.rcs ∧
    (transmit s).2.msgData = s.msgData ∧ (transmit s).2.outbox = s.outbox.tail := by
  unfold transmit
  split
  · rename_i h
    rw [h]
    exact ⟨rfl, rfl, rfl⟩
  · rename_i h
    rw [h]
    exact ⟨rfl, rfl, rfl⟩
  · rename_i h
    rw [h]
    exact ⟨rfl, rfl, rfl⟩

/-- The hop limit of a message, and the prefixes of its two nodes. -/
def Message.ends (d : Message) : UInt8 × (Ipv6Addr × UInt8) × (Ipv6Addr × UInt8) :=
  (d.msgHopLimit, (d.origNode.addr, d.origNode.pfxLen), (d.targNode.addr, d.targNode.pfxLen))

/-- The record keeps its hop limit and its prefixes, and one message at most
is posted, with those of the record. -/
structure EndEffect (s s' : Node) : Prop where
  record : s'.msgData.ends = s.msgData.ends
  outbox : s'.outbox = s.outbox ∨ ∃ o, s'.outbox = s.outbox ++ [o] ∧ o.pkt.ends = s.msgData.ends

theorem EndEffect.quiet {s s' : Node} (hd : s'.msgData = s.msgData) (ho : s'.outbox = s.outbox) :
    EndEffect s s' := ⟨congrArg Message.ends hd, Or.inl ho⟩

theorem RreqOutcome.effect {s : Node} {r : EndResult} (h : RreqOutcome cfg now s r) :
    EndEffect s r.2 := by
  cases h with
  | refused hchecks => exact .quiet rfl rfl
  | redundant hchecks hseen => exact .quiet rfl rfl
  | noImprovement hchecks hseen hkept => exact ⟨rfl, Or.inl rfl⟩
  | answered hchecks hseen hupdated hclient => exact ⟨rfl, Or.inr ⟨_, rfl, rfl⟩⟩
  | forwarded hchecks hseen hupdated hclient => exact ⟨rfl, Or.inr ⟨_, rfl, rfl⟩⟩

theorem RrepOutcome.effect {s : Node} {r : EndResult} (h : RrepOutcome cfg now s r) :
    EndEffect s r.2 := by
  cases h with
  | refused hchecks => exact .quiet rfl rfl
  | noImprovement hchecks hkept => exact ⟨rfl, Or.inl rfl⟩
  | arrived hchecks hupdated hclient => exact ⟨rfl, Or.inl rfl⟩
  | relayed hchecks hupdated hclient hhop => exact ⟨rfl, Or.inr ⟨_, rfl, rfl⟩⟩
  | noNextHop hchecks hupdated hclient hhop => exact ⟨rfl, Or.inl rfl⟩

/-! ## §2 One reception -/

/-- The callbacks of a message type that AODVv2 registers. -/
def Registered (cbs : Callbacks) : Prop := cbs = rreqCallbacks ∨ cbs = rrepCallbacks

theorem Registered.dropped {cbs : Callbacks} (h : Registered cbs) (s : Node) :
    cbs.endCallback cfg now true s = (.ok .dropPacket, s) := by
  rcases h with rfl | rfl <;> rfl

theorem Registered.effect {cbs : Callbacks} (h : Registered cbs) (cfg : Conf) (now : Timex)
    (s : Node) : EndEffect s (cbs.endCallback cfg now false s).2 := by
  rcases h with rfl | rfl
  · exact (cbRreqEndCallback_outcome cfg now s).effect
  · exact (cbRrepEndCallback_outcome cfg now s).effect

theorem Registered.hopLimit {cbs : Callbacks} (h : Registered cbs) {msg : MessageContext}
    {d : Message} {st : CbState} (hdec : decodeMessage cbs msg d = (.ok .okay, st)) :
    ∃ hop, msg.hopLimit = some hop ∧ st.msgData.msgHopLimit.toNat + 1 = hop.toNat := by
  rcases h with rfl | rfl
  · exact decodeMessage_hopLimit rreq_follows rreqRules_hopLimit hdec
  · exact decodeMessage_hopLimit rrep_follows rrepRules_hopLimit hdec

/-- What a reception leaves: a record with the hop limit and the prefixes of
`d`, and in the queue at most one message more, which has them too and one
hop less to go than the message that was received. -/
structure Reaction (msg : MessageContext) (d : Message) (s s' : Node) : Prop where
  record : s'.msgData.ends = d.ends
  outbox : s'.outbox = s.outbox ∨ ∃ o, s'.outbox = s.outbox ++ [o] ∧ o.pkt.ends = d.ends ∧
    ∃ hop, msg.hopLimit = some hop ∧ o.pkt.msgHopLimit.toNat + 1 = hop.toNat

/-- A message that gets through the callbacks is left to the end callback. -/
theorem consumeWith_okay {cbs : Callbacks} {msg : MessageContext} {s : Node} {st : CbState}
    (h : decodeMessage cbs msg s.msgData = (.ok .okay, st)) (cfg : Conf) (now : Timex) :
    (consumeWith cfg now cbs msg s).2 =
      (cbs.endCallback cfg now false { s with msgData := st.msgData }).2 := by
  unfold consumeWith
  rw [h]
  dsimp only
  rw [show decide (Rfc5444Result.okay ≠ .okay) = false from rfl]
  rcases cbs.endCallback cfg now false { s with msgData := st.msgData } with ⟨e | e, s'⟩
  · rfl
  · rfl

/-- Of any other message nothing is left but what the callbacks stored. -/
theorem consumeWith_dropped {cbs : Callbacks} (h : Registered cbs) {msg : MessageContext} {s : Node}
    (hdec : ∀ st, decodeMessage cbs msg s.msgData ≠ (.ok .okay, st)) (cfg : Conf) (now : Timex) :
    (consumeWith cfg now cbs msg s).2 =
      { s with msgData := (decodeMessage cbs msg s.msgData).2.msgData } := by
  unfold consumeWith
  rcases hrun : decodeMessage cbs msg s.msgData with ⟨e | r, st⟩
  · rfl
  · have hr : r ≠ .okay := fun hr => hdec st (hr ▸ hrun)
    dsimp only
    rw [decide_eq_true hr, h.dropped]

theorem consumeWith_reaction {cbs : Callbacks} (h : Registered cbs) (cfg : Conf) (now : Timex)
    (msg : MessageContext) (s : Node) : Reaction msg (decodeMessage cbs msg s.msgData).2.msgData s
      (consumeWith cfg now cbs msg s).2 := by
  by_cases hokay : ∃ st, decodeMessage cbs msg s.msgData = (.ok .okay, st)
  · obtain ⟨st, hdec⟩ := hokay
    obtain ⟨hop, hhop, hone⟩ := h.hopLimit hdec
    have heffect := h.effect cfg now { s with msgData := st.msgData }
    rw [consumeWith_okay hdec, hdec]
    refine ⟨heffect.record, ?_⟩
    rcases heffect.outbox with hsame | ⟨o, ho, hends⟩
    · exact Or.inl hsame
    · refine Or.inr ⟨o, ho, hends, hop, hhop, ?_⟩
      rw [show o.pkt.msgHopLimit = st.msgData.msgHopLimit from congrArg (fun e => e.1) hends]
      exact hone
  · rw [consumeWith_dropped h fun st hst => hokay ⟨st, hst⟩]
    exact ⟨rfl, Or.inl rfl⟩

/-- The record that a message finds. -/
def prepared (sender : Ipv6Addr) (s : Node) : Message := (handlePacketPrepare sender s).msgData

/-- **What one reception does.** The record has the hop limit and the
prefixes that the callbacks stored, and one message at most is posted. -/
theorem receive_reaction (cfg : Conf) (now : Timex) (sender : Ipv6Addr) (msg : MessageContext)
    (s : Node) : ∃ d, (d = prepared sender s ∨ ∃ cbs, Registered cbs ∧
        d = (decodeMessage cbs msg (prepared sender s)).2.msgData) ∧
      Reaction msg d s (receive cfg now sender msg s) := by
  unfold receive consumeMessage
  split
  · have h := consumeWith_reaction (Or.inl rfl) cfg now msg
      (handlePacketPrepare sender s)
    exact ⟨_, Or.inr ⟨rreqCallbacks, Or.inl rfl, rfl⟩, h.record, h.outbox⟩
  · split
    · have h := consumeWith_reaction (Or.inr rfl) cfg now msg
        (handlePacketPrepare sender s)
      exact ⟨_, Or.inr ⟨rrepCallbacks, Or.inr rfl, rfl⟩, h.record, h.outbox⟩
    · exact ⟨_, Or.inl rfl, rfl, Or.inl rfl⟩

/-! ## §3 What the callbacks may store -/

/-- The callback keeps a property of the record. -/
def Upholds (P : Message → Prop) (c : Callback α) : Prop := ∀ st, P st.msgData → P (c st).2.msgData

variable {P : Message → Prop}

theorem upholds_pure (a : α) : Upholds P (pure a) := fun _ h => h

theorem Upholds.bind {x : Callback α} {f : α → Callback β} (hx : Upholds P x)
    (hf : ∀ a, Upholds P (f a)) : Upholds P (x >>= f) := by
  intro st h
  have hst := hx st h
  rw [callback_bind]
  rcases hrun : x st with ⟨r, st'⟩
  rw [hrun] at hst
  cases r with
  | ok a => exact hf a st' hst
  | error e => exact hst

theorem upholds_writeMsg {f : Message → Message} (h : ∀ d, P d → P (f d)) :
    Upholds P (writeMsg f) :=
  fun st hst => h st.msgData hst

theorem upholds_writeIf {f : Message → Message} (p : Bool) (h : ∀ d, P d → P (f d)) :
    Upholds P (writeIf p f) := by
  cases p with
  | false => exact upholds_pure ()
  | true => exact upholds_writeMsg h

theorem Upholds.ite {p : Prop} [Decidable p] {x y : Callback α} (hx : Upholds P x) (hy : Upholds P y) :
    Upholds P (if p then x else y) := by
  split
  · exact hx
  · exact hy

theorem upholds_deref (cont : AddrContext) (tlv : TlvEntry) :
    Upholds P (derefSingleValue cont tlv) := by
  intro st h
  unfold derefSingleValue
  cases tlv.singleValue with
  | none => exact h
  | some ptr => exact h

theorem upholds_ifTlv {tlv : Option TlvEntry} {body : TlvEntry → Callback Unit}
    (h : ∀ t, Upholds P (body t)) : Upholds P (ifTlv tlv body) := by
  cases tlv with
  | none => exact upholds_pure ()
  | some t => exact h t

/-- An assignment before the dereference and one with what it reads. -/
theorem upholds_assign {cont : AddrContext} {tlv : TlvEntry} {before : Message → Message}
    {after : UInt8 → Message → Message} (hbefore : ∀ d, P d → P (before d))
    (hafter : ∀ v d, P d → P (after v d)) :
    Upholds P (do writeMsg before; let v ← derefSingleValue cont tlv; writeMsg (after v)) :=
  (upholds_writeMsg hbefore).bind fun _ => (upholds_deref cont tlv).bind fun v =>
    upholds_writeMsg (hafter v)

/-- The property survives every assignment that an address callback makes
for an address. -/
structure StoresAddr (P : Message → Prop) (src : Netaddr) : Prop where
  origAddr : ∀ d, P d → P (d.setOrigAddr src)
  targAddr : ∀ d, P d → P (d.setTargAddr src)
  origAddrRrep : ∀ d, P d → P (d.setOrigAddrRrep src)
  origSeqnum : ∀ v d, P d → P (d.setOrigSeqnum v)
  targSeqnum : ∀ v d, P d → P (d.setTargSeqnum v)
  metricType : ∀ t d, P d → P (d.setMetricType t)
  metric : ∀ v d, P d → P (d.setMetric v)

theorem Registered.keeps {cbs : Callbacks} (h : Registered cbs) {cont : AddrContext}
    (hP : StoresAddr P cont.addr) : Upholds P (cbs.addressTlvs cont) := by
  rcases h with rfl | rfl
  · refine (upholds_ifTlv fun t => upholds_assign hP.origAddr hP.origSeqnum).bind fun _ => ?_
    refine (upholds_ifTlv fun t => upholds_assign hP.targAddr hP.targSeqnum).bind fun _ => ?_
    refine (upholds_writeIf _ hP.targAddr).bind fun _ => ?_
    refine (upholds_pure _).ite ((upholds_pure _).ite ((upholds_pure _).ite ?_))
    exact (upholds_ifTlv fun t => upholds_assign (hP.metricType t.typeExt) hP.metric).bind
      fun _ => upholds_pure _
  · refine (upholds_ifTlv fun t => upholds_assign hP.targAddr hP.targSeqnum).bind fun _ => ?_
    refine (upholds_ifTlv fun t => upholds_assign hP.origAddrRrep hP.origSeqnum).bind fun _ => ?_
    refine (upholds_pure _).ite ((upholds_pure _).ite ((upholds_pure _).ite ?_))
    exact (upholds_ifTlv fun t => upholds_assign (hP.metricType t.typeExt) hP.metric).bind
      fun _ => upholds_pure _

theorem scheduleAddrs_keeps {callback : AddrContext → Callback Rfc5444Result}
    {addrs : List AddrResult} (h : ∀ cont, .ok cont ∈ addrs → Upholds P (callback cont)) :
    Upholds P (scheduleAddrs callback addrs) := by
  induction addrs with
  | nil => exact upholds_pure _
  | cons r rest ih =>
    cases r with
    | error f => exact fun _ hst => hst
    | ok cont =>
      refine (h cont List.mem_cons_self).bind fun r => Upholds.ite ?_ (upholds_pure r)
      exact ih fun c hc => h c (List.mem_cons_of_mem _ hc)

/-- What the header and every address keep, the message keeps. -/
theorem decodeMessage_keeps {cbs : Callbacks} (h : Registered cbs) {msg : MessageContext}
    {d : Message} (hheader : ∀ hop d, P d → P { d with msgHopLimit := hop })
    (haddrs : ∀ cont, .ok cont ∈ msg.addrs → StoresAddr P cont.addr) (hd : P d) :
    P (decodeMessage cbs msg d).2.msgData := by
  have hokay : P (cbBlocktlvMessagetlvsOkay msg.hopLimit d).2 := by
    unfold cbBlocktlvMessagetlvsOkay
    split
    · exact hd
    · split
      · exact hheader _ d hd
      · exact hheader _ d hd
  unfold decodeMessage
  dsimp only
  split
  · exact scheduleAddrs_keeps (fun cont hc => h.keeps (haddrs cont hc)) _ hokay
  · exact hokay

end Turpial.Aodvv2
