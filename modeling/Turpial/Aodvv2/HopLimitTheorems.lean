/-
Turpial.Aodvv2.HopLimitTheorems — the hop limit of what a router passes on.

The header callback takes one off the hop limit of a message, and every
message the router sends for it has what is left. That this is not zero is
tested in the end callback of an RREQ; the one of an RREP has no such test.
So a router keeps the hop limit of what it sends above zero except for an
RREP that comes with hop limit 1 and is relayed: `RelaysLast` (§1, §2).

A message that was passed on by one router after another has lost one from
its hop limit at each of them (§3).
-/
import Turpial.Aodvv2.CallTheorems
import Turpial.Aodvv2.RouteTheorems

namespace Turpial.Aodvv2

open Turpial.Lib Turpial.Rfc5444

variable {cfg : Conf} {now : Timex}

/-! ## §1 The hop limit in the record -/

/-- A message that got through has a hop limit, and the record the one below. -/
theorem decodeMessage_hopLimit {cbs : Callbacks} {rules : AddressRules}
    (hf : Follows cbs.addressTlvs rules)
    (hrules : ∀ cont d, (rules.decode cont d).msgHopLimit = d.msgHopLimit) {msg : MessageContext}
    {d : Message} {st : CbState} (h : decodeMessage cbs msg d = (.ok .okay, st)) :
    ∃ hop, msg.hopLimit = some hop ∧ st.msgData.msgHopLimit.toNat + 1 = hop.toNat := by
  obtain ⟨hop, conts, hdec, hrec⟩ := decodeMessage_okay hf h
  refine ⟨hop, hdec.hopLimit, ?_⟩
  have hpos : 1 ≤ hop.toNat := Nat.one_le_iff_ne_zero.mpr fun hzero =>
    hdec.hop_ne (UInt8.toNat_inj.mp hzero)
  have hle : (1 : UInt8) ≤ hop := UInt8.le_iff_toNat_le.mpr hpos
  rw [hrec, decodeAll_keeps Message.msgHopLimit hrules]
  change (hop - 1).toNat + 1 = hop.toNat
  rw [UInt8.toNat_sub_of_le _ _ hle]
  exact Nat.sub_add_cancel hpos

theorem rreqRules_hopLimit (cont : AddrContext) (d : Message) :
    (rreqRules.decode cont d).msgHopLimit = d.msgHopLimit :=
  congrArg (fun h => h.1) (rreqRules_header cont d)

theorem rrepRules_hopLimit (cont : AddrContext) (d : Message) :
    (rrepRules.decode cont d).msgHopLimit = d.msgHopLimit :=
  congrArg (fun h => h.1) (rrepRules_header cont d)

/-! ## §2 One router -/

/-- The messages of the calls, read off the calls that send something. -/
theorem message?_filter (calls : List Call) :
    (calls.filter Call.sends).filterMap Call.message? = calls.filterMap Call.message? := by
  rw [List.filterMap_filter]
  refine List.filterMap_congr fun c _ => ?_
  cases c <;> rfl

/-- What is sent for an RREQ has the hop limit of the record, which is not zero. -/
theorem rreq_messages {s : Node} {pkt : Message}
    (h : pkt ∈ (Traced.cbRreqEndCallback cfg now false { node := s }).2.calls.filterMap
      Call.message?) :
    pkt.msgHopLimit = s.msgData.msgHopLimit ∧ s.msgData.msgHopLimit ≠ 0 := by
  rw [← message?_filter, rreq_sends] at h
  split at h
  · rename_i haccepted
    refine ⟨?_, haccepted.1.2.2.2.1⟩
    unfold rreqCall at h
    split at h
    · cases List.mem_singleton.mp h
      rfl
    · cases List.mem_singleton.mp h
      rfl
  · cases h

/-- The RREP in the record is handed on. -/
def HandsOn (cfg : Conf) (now : Timex) (s : Node) : Prop :=
  RrepChecks cfg s.msgData ∧ (rrepAdvert s.msgData).taken cfg now s.router.lrs = true ∧
    ¬ IsClient s.router.rcs s.msgData.origNode.addr

instance (cfg : Conf) (now : Timex) (s : Node) : Decidable (HandsOn cfg now s) :=
  inferInstanceAs (Decidable (_ ∧ _))

/-- What is sent for an RREP is the record. -/
theorem rrep_messages (cfg : Conf) (now : Timex) (s : Node) :
    (Traced.cbRrepEndCallback cfg now false { node := s }).2.calls.filterMap Call.message? =
      if HandsOn cfg now s then [rrepRecord now s.msgData] else [] := by
  rw [← message?_filter, rrep_sends]
  unfold rrepCall
  by_cases hchecks : RrepChecks cfg s.msgData
  · rw [(rrepTables_update now s.router hchecks).1]
    by_cases htaken : (rrepAdvert s.msgData).taken cfg now s.router.lrs = true
    · rw [if_pos ⟨hchecks, htaken⟩]
      by_cases hclient : IsClient s.router.rcs s.msgData.origNode.addr
      · rw [if_pos hclient, if_neg fun h : HandsOn cfg now s => h.2.2 hclient]
        rfl
      · rw [if_neg hclient, if_pos (show HandsOn cfg now s from ⟨hchecks, htaken, hclient⟩)]
        rfl
    · rw [if_neg fun h => htaken h.2, if_neg fun h : HandsOn cfg now s => htaken h.2.1]
      rfl
  · rw [if_neg fun h => hchecks h.1, if_neg fun h : HandsOn cfg now s => hchecks h.1]
    rfl

/-- What the router sends in response has a hop limit one below, which is
not zero; a message with a hop limit of at most one, or without, makes it
send nothing. -/
structure HopLimitKept (hopLimit : Option UInt8) (sent : List Message) : Prop where
  decreased : ∀ pkt ∈ sent, ∃ hop, hopLimit = some hop ∧
    pkt.msgHopLimit.toNat + 1 = hop.toNat ∧ 1 ≤ pkt.msgHopLimit.toNat
  silent : (∀ hop, hopLimit = some hop → hop ≤ 1) → sent = []

/-- An RREP with hop limit 1 that the router hands on: it decodes, passes the
checks, offers an improvement and is not for a client. -/
def RelaysLast (cfg : Conf) (now : Timex) (sender : Ipv6Addr) (msg : MessageContext) (s : Node) :
    Prop :=
  msg.msgType = msgtypeRrep ∧ msg.hopLimit = some 1 ∧
    ∃ st, decodeMessage rrepCallbacks msg (handlePacketPrepare sender s).msgData =
      (.ok .okay, st) ∧ HandsOn cfg now { s with msgData := st.msgData }

/-- Messages that are sent have a hop limit one below; so they are as they
should be when none has hop limit zero. -/
theorem hopLimitKept_iff {hopLimit : Option UInt8} {sent : List Message}
    (h : ∀ pkt ∈ sent, ∃ hop, hopLimit = some hop ∧ pkt.msgHopLimit.toNat + 1 = hop.toNat) :
    HopLimitKept hopLimit sent ↔ ∀ pkt ∈ sent, pkt.msgHopLimit ≠ 0 := by
  have hne : ∀ v : UInt8, v ≠ 0 ↔ 1 ≤ v.toNat := by
    intro v
    rw [Nat.one_le_iff_ne_zero, Ne, Ne, not_iff_not]
    exact UInt8.toNat_inj.symm
  constructor
  · intro hkept pkt hpkt
    obtain ⟨hop, -, -, hpos⟩ := hkept.decreased pkt hpkt
    exact (hne _).mpr hpos
  · intro hpos
    refine ⟨fun pkt hpkt => ?_, fun hlow => ?_⟩
    · obtain ⟨hop, hhop, heq⟩ := h pkt hpkt
      exact ⟨hop, hhop, heq, (hne _).mp (hpos pkt hpkt)⟩
    · refine List.eq_nil_iff_forall_not_mem.mpr fun pkt hpkt => ?_
      obtain ⟨hop, hhop, heq⟩ := h pkt hpkt
      have hle : hop.toNat ≤ 1 := UInt8.le_iff_toNat_le.mp (hlow hop hhop)
      have hpkt' := (hne _).mp (hpos pkt hpkt)
      omega

/-- A message that was dropped by an earlier callback makes no call. -/
theorem consumeCalls_dropped {cbs : Callbacks} {endCallback : TracedCallback}
    (hdrop : ∀ t, endCallback cfg now true t = (.ok .dropPacket, t)) {msg : MessageContext}
    {s : Node} (h : ∀ st, decodeMessage cbs msg s.msgData ≠ (.ok .okay, st)) :
    consumeCalls cfg now cbs endCallback msg s = [] := by
  unfold consumeCalls
  dsimp only
  generalize decodeMessage cbs msg s.msgData = decoded at h ⊢
  obtain ⟨r, st⟩ := decoded
  cases r with
  | error f => rfl
  | ok r =>
    have hr : r ≠ .okay := fun hr => h st (by rw [hr])
    dsimp only
    rw [decide_eq_true hr, hdrop]

theorem consumeCalls_okay {cbs : Callbacks} {endCallback : TracedCallback} {msg : MessageContext}
    {s : Node} {st : CbState} (h : decodeMessage cbs msg s.msgData = (.ok .okay, st)) :
    consumeCalls cfg now cbs endCallback msg s =
      (endCallback cfg now false { node := { s with msgData := st.msgData } }).2.calls := by
  unfold consumeCalls
  dsimp only
  rw [h]
  rfl

/-- What is sent for an RREQ. -/
theorem sentMessages_rreq {sender : Ipv6Addr} {msg : MessageContext} {s : Node}
    (htype : msg.msgType = msgtypeRreq) :
    ∀ pkt ∈ sentMessages cfg now sender msg s, (∃ hop, msg.hopLimit = some hop ∧
      pkt.msgHopLimit.toNat + 1 = hop.toNat) ∧ pkt.msgHopLimit ≠ 0 := by
  intro pkt hpkt
  unfold sentMessages messageCalls at hpkt
  dsimp only at hpkt
  rw [if_pos htype] at hpkt
  by_cases hdec : ∃ st, decodeMessage rreqCallbacks msg (handlePacketPrepare sender s).msgData =
      (.ok .okay, st)
  · obtain ⟨st, hdec⟩ := hdec
    rw [consumeCalls_okay hdec] at hpkt
    obtain ⟨heq, hne⟩ := rreq_messages hpkt
    rw [heq]
    exact ⟨decodeMessage_hopLimit rreq_follows rreqRules_hopLimit hdec, hne⟩
  · rw [consumeCalls_dropped (fun _ => rfl) fun st h => hdec ⟨st, h⟩] at hpkt
    cases hpkt

/-- What is sent for an RREP. -/
theorem sentMessages_rrep {sender : Ipv6Addr} {msg : MessageContext} {s : Node}
    (htype : msg.msgType = msgtypeRrep) (pkt : Message) :
    pkt ∈ sentMessages cfg now sender msg s ↔
      ∃ st, decodeMessage rrepCallbacks msg (handlePacketPrepare sender s).msgData =
        (.ok .okay, st) ∧ HandsOn cfg now { s with msgData := st.msgData } ∧
        pkt = rrepRecord now st.msgData := by
  unfold sentMessages messageCalls
  dsimp only
  rw [if_neg (by rw [htype]; decide), if_pos htype]
  by_cases hdec : ∃ st, decodeMessage rrepCallbacks msg (handlePacketPrepare sender s).msgData =
      (.ok .okay, st)
  · obtain ⟨st, hdec⟩ := hdec
    rw [consumeCalls_okay hdec, rrep_messages]
    constructor
    · intro hpkt
      split at hpkt
      · rename_i hon
        exact ⟨st, hdec, hon, List.mem_singleton.mp hpkt⟩
      · cases hpkt
    · rintro ⟨st', hdec', hon, rfl⟩
      rw [hdec] at hdec'
      cases hdec'
      rw [if_pos (show HandsOn cfg now { handlePacketPrepare sender s with msgData := st.msgData }
        from hon)]
      exact List.mem_singleton.mpr rfl
  · rw [consumeCalls_dropped (fun _ => rfl) fun st h => hdec ⟨st, h⟩]
    constructor
    · intro hpkt
      cases hpkt
    · rintro ⟨st, h, -⟩
      exact absurd ⟨st, h⟩ hdec

/-- Whatever is sent has one off the hop limit. -/
theorem sentMessages_hopLimit {sender : Ipv6Addr} {msg : MessageContext} {s : Node} {pkt : Message}
    (h : pkt ∈ sentMessages cfg now sender msg s) :
    (∃ hop, msg.hopLimit = some hop ∧ pkt.msgHopLimit.toNat + 1 = hop.toNat) ∧
      (pkt.msgHopLimit = 0 → RelaysLast cfg now sender msg s) := by
  by_cases hrreq : msg.msgType = msgtypeRreq
  · obtain ⟨hhop, hne⟩ := sentMessages_rreq hrreq pkt h
    exact ⟨hhop, fun hzero => absurd hzero hne⟩
  · by_cases hrrep : msg.msgType = msgtypeRrep
    · obtain ⟨st, hdec, hon, rfl⟩ := (sentMessages_rrep hrrep pkt).mp h
      obtain ⟨hop, hhop, heq⟩ := decodeMessage_hopLimit rrep_follows rrepRules_hopLimit hdec
      refine ⟨⟨hop, hhop, heq⟩, fun hzero => ⟨hrrep, ?_, st, hdec, hon⟩⟩
      have hone : hop.toNat = 1 := by
        rw [← heq, show st.msgData.msgHopLimit = 0 from hzero]
        rfl
      rw [hhop, show hop = 1 from UInt8.toNat_inj.mp hone]
    · unfold sentMessages messageCalls at h
      dsimp only at h
      rw [if_neg hrreq, if_neg hrrep] at h
      cases h

/-- The hop limits that a router sends are kept exactly for the messages that
are not an RREP with hop limit 1 it hands on. -/
theorem hopLimitKept_iff_not_relaysLast (cfg : Conf) (now : Timex) (sender : Ipv6Addr)
    (msg : MessageContext) (s : Node) :
    HopLimitKept msg.hopLimit (sentMessages cfg now sender msg s) ↔
      ¬ RelaysLast cfg now sender msg s := by
  rw [hopLimitKept_iff fun pkt hpkt => (sentMessages_hopLimit hpkt).1]
  constructor
  · rintro hpos ⟨htype, hhop, st, hdec, hon⟩
    have hsent := (sentMessages_rrep htype _).mpr ⟨st, hdec, hon, rfl⟩
    obtain ⟨⟨hop, hhop', heq⟩, -⟩ := sentMessages_hopLimit hsent
    rw [hhop] at hhop'
    cases hhop'
    exact hpos _ hsent (UInt8.toNat_inj.mp (Nat.succ.inj heq))
  · intro hnot pkt hpkt hzero
    exact hnot ((sentMessages_hopLimit hpkt).2 hzero)

/-! ## §3 Chains of routers -/

/-- A router, in whatever state, writes `w'` in response to `w`. -/
def Regenerates (cfg : Conf) (w w' : WireMessage) : Prop :=
  ∃ now sender s, ∃ c ∈ messageCalls cfg now sender w.context s, c.Writes w'

/-- The last message of its kind: an RREP with hop limit 1. -/
def LastRrep (w : WireMessage) : Prop := w.msgType = msgtypeRrep ∧ w.hopLimit = 1

instance (w : WireMessage) : Decidable (LastRrep w) := inferInstanceAs (Decidable (_ ∧ _))

/-- One link of a chain. -/
theorem Regenerates.hopLimit {w w' : WireMessage} (h : Regenerates cfg w w') :
    w'.hopLimit.toNat + 1 = w.hopLimit.toNat ∧ (w'.hopLimit = 0 → LastRrep w) := by
  obtain ⟨now, sender, s, c, hc, hwrites⟩ := h
  obtain ⟨pkt, hpkt, hhop⟩ : ∃ pkt, c.message? = some pkt ∧ w'.hopLimit = pkt.msgHopLimit := by
    cases c with
    | sendRreq pkt nextHop => exact ⟨pkt, rfl, congrArg WireMessage.hopLimit hwrites⟩
    | sendRrep pkt nextHop =>
      obtain ⟨seqnum, heq⟩ := hwrites
      exact ⟨pkt, rfl, congrArg WireMessage.hopLimit heq⟩
    | nibFtAdd => cases hwrites
    | nibFtDel => cases hwrites
    | bufferDispatch => cases hwrites
  obtain ⟨⟨hop, hsome, heq⟩, hlast⟩ :=
    sentMessages_hopLimit (List.mem_filterMap.mpr ⟨c, hc, hpkt⟩)
  cases hsome
  rw [hhop]
  refine ⟨heq, fun hzero => ?_⟩
  obtain ⟨htype, hone, -⟩ := hlast hzero
  exact ⟨htype, Option.some.inj hone⟩

/-- The length of a chain, by the last RREPs that were regenerated in it. -/
theorem chain_length_lt_iff {ws : List WireMessage} (hne : ws ≠ []) {w : WireMessage}
    (h : List.IsChain (Regenerates cfg) (w :: ws)) :
    ws.length < w.hopLimit.toNat ↔ ∀ v ∈ (w :: ws).dropLast, ¬ LastRrep v := by
  induction ws generalizing w with
  | nil => exact absurd rfl hne
  | cons w₁ rest ih =>
    obtain ⟨hlink, hrest⟩ := List.isChain_cons_cons.mp h
    obtain ⟨hstep, hlast⟩ := hlink.hopLimit
    have hzero : w₁.hopLimit = 0 ↔ LastRrep w := by
      refine ⟨hlast, fun hw => UInt8.toNat_inj.mp ?_⟩
      rw [hw.2] at hstep
      exact Nat.succ.inj hstep
    have hpos : w₁.hopLimit ≠ 0 ↔ 1 ≤ w₁.hopLimit.toNat := by
      rw [Nat.one_le_iff_ne_zero, Ne, Ne, not_iff_not]
      exact UInt8.toNat_inj.symm
    cases rest with
    | nil =>
      rw [List.dropLast_cons_of_ne_nil (List.cons_ne_nil _ _)]
      simp only [List.dropLast_singleton, List.mem_singleton, forall_eq]
      rw [← hzero, ← Ne, hpos, ← hstep, List.length_singleton]
      exact Nat.succ_lt_succ_iff
    | cons w₂ rest =>
      have hnext := ih (List.cons_ne_nil _ _) hrest
      -- The next message was regenerated in turn, so it came with a hop limit.
      obtain ⟨hstep', -⟩ := (List.isChain_cons_cons.mp hrest).1.hopLimit
      have hne₁ : w₁.hopLimit ≠ 0 := hpos.mpr (by omega)
      rw [List.dropLast_cons_of_ne_nil (List.cons_ne_nil _ _), List.forall_mem_cons, ← hnext,
        ← hzero, ← hstep, List.length_cons, Nat.succ_lt_succ_iff]
      exact ⟨fun hlt => ⟨hne₁, hlt⟩, fun h => h.2⟩

/-- **Hop limits decrease and stay above zero exactly** where no RREP with hop
limit 1 is handed on: in every state of a router, and in every chain of
regenerations, which then is shorter than the hop limit it began with. -/
theorem hop_limits_iff (cfg : Conf) :
    (∀ now sender msg s, HopLimitKept msg.hopLimit (sentMessages cfg now sender msg s) ↔
      ¬ RelaysLast cfg now sender msg s) ∧
    ∀ w ws, ws ≠ [] → List.IsChain (Regenerates cfg) (w :: ws) →
      (ws.length < w.hopLimit.toNat ↔ ∀ v ∈ (w :: ws).dropLast, ¬ LastRrep v) :=
  ⟨hopLimitKept_iff_not_relaysLast cfg, fun _ _ hne h => chain_length_lt_iff hne h⟩

/-- An RREP of `::3` for `::7` that comes with hop limit 1. -/
def sampleLastRrep : WireMessage :=
  (writerSendRrep 1 {
    msgHopLimit := 1
    origNode := { addr := 7#128, pfxLen := 128, seqnum := 1 }
    targNode := { addr := 3#128, pfxLen := 128 } }).2

/-- A router that has heard the RREQ of `::7`. -/
def sampleOnPath : Node :=
  receive .default 0 5#128 (sampleRreqFor { addr := 7#128, pfxLen := 128, seqnum := 1 } 3#128)
    (Node.init ⟨2, 2, 0⟩ [])

/-- It sends the RREP on with hop limit 0. -/
theorem hop_limit_reaches_zero :
    ¬ HopLimitKept sampleLastRrep.context.hopLimit
      (sentMessages .default (timexSet 1 0) 6#128 sampleLastRrep.context sampleOnPath) := by
  intro h
  exact absurd (h.silent (by decide +kernel)) (by decide +kernel)

/-- What the router sends on for an RREP, the only message it sends. -/
def sampleRelayed (w : WireMessage) : Message :=
  (sentMessages .default (timexSet 1 0) 6#128 w.context sampleOnPath).headD {}

/-- The RREP with hop limit 3, handed on by two such routers: it arrives with
hop limit 1. -/
theorem hop_limits_two_relays :
    let w : WireMessage := { sampleLastRrep with hopLimit := 3 }
    let w₁ := (writerSendRrep 1 (sampleRelayed w)).2
    let w₂ := (writerSendRrep 1 (sampleRelayed w₁)).2
    List.IsChain (Regenerates .default) [w, w₁, w₂] ∧ [w₁, w₂].length < w.hopLimit.toNat := by
  intro w w₁ w₂
  have hrelays : ∀ v : WireMessage,
      Call.sendRrep (sampleRelayed v) (some 5#128) ∈
        messageCalls .default (timexSet 1 0) 6#128 v.context sampleOnPath →
      Regenerates .default v (writerSendRrep 1 (sampleRelayed v)).2 :=
    fun v hcall => ⟨_, _, _, _, hcall, 1, rfl⟩
  have hchain : List.IsChain (Regenerates .default) [w, w₁, w₂] :=
    .cons_cons (hrelays w (by decide +kernel))
      (.cons_cons (hrelays w₁ (by decide +kernel)) (.singleton _))
  refine ⟨hchain, ((hop_limits_iff .default).2 w [w₁, w₂] (List.cons_ne_nil _ _) hchain).mpr ?_⟩
  change ∀ v ∈ [w, w₁], ¬ LastRrep v
  decide +kernel

end Turpial.Aodvv2
