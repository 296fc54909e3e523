/-
Turpial.Aodvv2.FaultTheorems — when a reception ends in a fault.

The callbacks of the reader can dereference a null pointer in two places:
the value of a TLV that has none (`derefSingleValue`), and the next hop that
`_cb_rrep_end_callback` hands to `aodvv2_send_rrep` unchecked. In a message
whose TLVs all have values the second is what is left
(`consumeMessage_error_iff`): the router takes an RREP that is not for a client,
and finds no next hop to OrigNode.
-/
import Turpial.Aodvv2.ReactionTheorems

namespace Turpial.Aodvv2

open Turpial.Lib Turpial.Rfc5444

variable {cfg : Conf} {now : Timex}

/-! ## §1 Values that are there -/

/-- Every address is assembled, and all its TLVs have values. -/
def Readable (addrs : List AddrResult) : Prop :=
  ∀ r ∈ addrs, ∃ cont, r = .ok cont ∧ NonNull cont.tlvs

theorem scheduleAddrs_readable {callback : AddrContext → Callback Rfc5444Result}
    {rules : AddressRules} (hf : Follows callback rules)
    (hreads : ∀ cont tlv, tlv ∈ rules.reads cont → tlv ∈ cont.tlvs) {addrs : List AddrResult}
    (h : Readable addrs) (st : CbState) : ∃ r, (scheduleAddrs callback addrs st).1 = .ok r := by
  induction addrs generalizing st with
  | nil => exact ⟨.okay, rfl⟩
  | cons a rest ih =>
    obtain ⟨cont, rfl, hvalues⟩ := h a List.mem_cons_self
    have hnn : NonNull (rules.reads cont) := fun tlv ht => hvalues tlv (hreads cont tlv ht)
    cases hacc : rules.accepts cont with
    | false => exact ⟨.dropPacket, by rw [scheduleAddrs_drop hf hnn hacc]⟩
    | true =>
      rw [scheduleAddrs_okay hf hnn hacc]
      exact ih (fun r hr => h r (List.mem_cons_of_mem _ hr)) _

/-- Reading such a message ends without a fault. -/
theorem decodeMessage_readable {cbs : Callbacks} (hcbs : Registered cbs) {msg : MessageContext}
    (h : Readable msg.addrs) (d : Message) : ∃ r, (decodeMessage cbs msg d).1 = .ok r := by
  unfold decodeMessage
  dsimp only
  split
  · rcases hcbs with rfl | rfl
    · exact scheduleAddrs_readable rreq_follows (fun _ _ => rreqRules_reads_tlvs) h _
    · exact scheduleAddrs_readable rrep_follows (fun _ _ => rrepRules_reads_tlvs) h _
  · exact ⟨_, rfl⟩

/-! ## §2 The next hop -/

/-- The router hands on the RREP in its record, and finds no next hop to
OrigNode. -/
def LacksNextHop (cfg : Conf) (now : Timex) (s : Node) : Prop :=
  HandsOn cfg now s ∧ (rrepNextHop cfg now s).2 = none

instance (cfg : Conf) (now : Timex) (s : Node) : Decidable (LacksNextHop cfg now s) :=
  inferInstanceAs (Decidable (_ ∧ _))

theorem cbRreqEndCallback_no_error (cfg : Conf) (now : Timex) (s : Node) (f : Fault) :
    (cbRreqEndCallback cfg now false s).1 ≠ .error f := by
  have hout := cbRreqEndCallback_outcome cfg now s
  generalize cbRreqEndCallback cfg now false s = result at hout ⊢
  intro h
  cases hout <;> cases h

theorem cbRrepEndCallback_error_iff (cfg : Conf) (now : Timex) (s : Node) (f : Fault) :
    (cbRrepEndCallback cfg now false s).1 = .error f ↔
      f = .nullDereference ∧ LacksNextHop cfg now s := by
  have hout := cbRrepEndCallback_outcome cfg now s
  generalize cbRrepEndCallback cfg now false s = result at hout ⊢
  have htaken : RrepChecks cfg s.msgData → (rrepTables cfg now s.msgData s.router).1 =
      (rrepAdvert s.msgData).taken cfg now s.router.lrs :=
    fun hchecks => (rrepTables_update now s.router hchecks).1
  cases hout with
  | refused hchecks => exact iff_of_false nofun fun h => hchecks h.2.1.1
  | noImprovement hchecks hkept =>
    refine iff_of_false nofun fun h => ?_
    rw [htaken hchecks, h.2.1.2.1] at hkept
    cases hkept
  | arrived _ _ hclient => exact iff_of_false nofun fun h => h.2.1.2.2 hclient
  | relayed _ _ _ hhop =>
    refine iff_of_false nofun fun h => ?_
    rw [h.2.2] at hhop
    cases hhop
  | noNextHop hchecks hupdated hclient hhop =>
    rw [htaken hchecks] at hupdated
    exact ⟨fun h => ⟨(Except.error.inj h).symm, ⟨hchecks, hupdated, hclient⟩, hhop⟩,
      fun h => congrArg Except.error h.1.symm⟩

/-! ## §3 A reception -/

/-- The message is an RREP that the router takes and hands on without a next
hop. -/
def NullNextHop (cfg : Conf) (now : Timex) (sender : Ipv6Addr) (msg : MessageContext) (s : Node) :
    Prop :=
  let decoded := decodeMessage rrepCallbacks msg (prepared sender s)
  msg.msgType = msgtypeRrep ∧ decoded.1 = .ok .okay ∧
    LacksNextHop cfg now { s with msgData := decoded.2.msgData }

instance (cfg : Conf) (now : Timex) (sender : Ipv6Addr) (msg : MessageContext) (s : Node) :
    Decidable (NullNextHop cfg now sender msg s) :=
  inferInstanceAs (Decidable (_ ∧ _ ∧ _))

/-- The consumer of one message type, once the addresses are read. -/
theorem consumeWith_error_iff {cbs : Callbacks} (hcbs : Registered cbs) {msg : MessageContext}
    {s : Node} {r : Rfc5444Result} {st : CbState}
    (hdec : decodeMessage cbs msg s.msgData = (.ok r, st)) (f : Fault) :
    (consumeWith cfg now cbs msg s).1 = .error f ↔
      r = .okay ∧ (cbs.endCallback cfg now false { s with msgData := st.msgData }).1 = .error f := by
  unfold consumeWith
  dsimp only
  rw [hdec]
  dsimp only
  by_cases hr : r = .okay
  · subst hr
    rw [show decide (Rfc5444Result.okay ≠ .okay) = false from rfl]
    generalize cbs.endCallback cfg now false { s with msgData := st.msgData } = ended
    obtain ⟨e | e, s'⟩ := ended
    · exact ⟨fun h => ⟨rfl, h⟩, And.right⟩
    · exact iff_of_false nofun fun h => nomatch h.2
  · rw [decide_eq_true hr, hcbs.dropped]
    exact iff_of_false nofun fun h => hr h.1

/-- **When a reception ends in a fault.** A message that is readable is
handled to the end, unless it is an RREP that the router hands on without a
next hop. -/
theorem consumeMessage_error_iff (cfg : Conf) (now : Timex) (sender : Ipv6Addr)
    {msg : MessageContext} (h : Readable msg.addrs) (s : Node) (f : Fault) :
    (consumeMessage cfg now msg (handlePacketPrepare sender s)).1 = .error f ↔
      f = .nullDereference ∧ NullNextHop cfg now sender msg s := by
  have hdec : ∀ cbs, Registered cbs →
      ∃ r st, decodeMessage cbs msg (prepared sender s) = (.ok r, st) := by
    intro cbs hcbs
    obtain ⟨r, hr⟩ := decodeMessage_readable hcbs h (prepared sender s)
    exact ⟨r, _, Prod.ext hr rfl⟩
  unfold consumeMessage NullNextHop
  by_cases hrreq : msg.msgType = msgtypeRreq
  · have hnot : ¬ msg.msgType = msgtypeRrep := by
      rw [hrreq]
      decide
    obtain ⟨r, st, hst⟩ := hdec rreqCallbacks (Or.inl rfl)
    rw [if_pos hrreq, consumeWith_error_iff (Or.inl rfl) hst]
    exact iff_of_false (fun h => cbRreqEndCallback_no_error cfg now _ f h.2) fun h => hnot h.2.1
  · rw [if_neg hrreq]
    by_cases hrrep : msg.msgType = msgtypeRrep
    · obtain ⟨r, st, hst⟩ := hdec rrepCallbacks (Or.inr rfl)
      rw [if_pos hrrep, consumeWith_error_iff (Or.inr rfl) hst, hst]
      change r = .okay ∧ (cbRrepEndCallback cfg now false { s with msgData := st.msgData }).1 =
        .error f ↔ _
      rw [cbRrepEndCallback_error_iff]
      constructor
      · rintro ⟨rfl, hf, hlacks⟩
        exact ⟨hf, hrrep, rfl, hlacks⟩
      · rintro ⟨hf, -, hokay, hlacks⟩
        exact ⟨Except.ok.inj hokay, hf, hlacks⟩
    · rw [if_neg hrrep]
      exact iff_of_false nofun fun h => hrrep h.2.1

end Turpial.Aodvv2
