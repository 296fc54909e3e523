/-
Turpial.Aodvv2.ReaderTheorems — what the address callbacks read and write.

A callback `Plans` a list of TLVs and an outcome: it dereferences these
TLVs in this order and has this outcome if none of their pointers is null,
and otherwise it dereferences some of them, a null one among them, and
faults. Plans compose along `>>=`, so §1 gives each statement of a
callback its plan and §2 reads the plans of the two callbacks off their
code: which TLVs they read (`reads`), which addresses they accept
(`accepts`) and what they write (`decode`).

§3 lifts this to the addresses of a message and §4 to the message: what
it leaves in the record if it gets through, and that how it ends does not
depend on the record. §5 is about the values that are read: the pointer of
a TLV is its own exactly when the TLV has a length, so the callbacks read
only values that are there exactly when every TLV they read has one.
-/
import Turpial.Aodvv2.Reader
import Turpial.Rfc5444.ReaderTheorems

namespace Turpial.Aodvv2

open Turpial.Rfc5444

variable {α β : Type}

/-! ## §1 Plans -/

/-- The byte that `*tlv->single_value` reads, where it reads one. -/
def byteOf (tlv : TlvEntry) : UInt8 := (tlv.singleValue.map BytePtr.byte).getD 0

/-- `*tlv->single_value` can be read. -/
def NonNull (tlvs : List TlvEntry) : Prop := ∀ tlv ∈ tlvs, tlv.singleValue ≠ none

/-- The callback dereferences these TLVs, and has this outcome, unless one
of their pointers is null. -/
structure Plans (idx : UInt8) (c : Callback α) (tlvs : List TlvEntry)
    (out : Message → α × Message) : Prop where
  runs : NonNull tlvs → ∀ st, c st = (.ok (out st.msgData).1,
    ⟨(out st.msgData).2, st.reads ++ tlvs.map (TlvRead.mk idx)⟩)
  faults : ¬ NonNull tlvs → ∀ st, ∃ st' pre tlv post, c st = (.error .nullDereference, st') ∧
    st'.reads = st.reads ++ (pre ++ [tlv]).map (TlvRead.mk idx) ∧
    tlvs = pre ++ tlv :: post ∧ tlv.singleValue = none

theorem callback_bind (x : Callback α) (f : α → Callback β) (st : CbState) :
    (x >>= f) st = match x st with
      | (.ok a, st) => f a st
      | (.error e, st) => (.error e, st) := by
  change (ExceptT.bindCont f (x st).1 (x st).2 : Except Fault β × CbState) = _
  rcases x st with ⟨_ | _, _⟩ <;> rfl

theorem Plans.bind {idx : UInt8} {x : Callback α} {f : α → Callback β} {xs ys : List TlvEntry}
    {outx : Message → α × Message} {outy : α → Message → β × Message}
    (hx : Plans idx x xs outx) (hf : ∀ a, Plans idx (f a) ys (outy a)) :
    Plans idx (x >>= f) (xs ++ ys) (fun d => outy (outx d).1 (outx d).2) := by
  constructor
  · intro hnn st
    have hxs : NonNull xs := fun tlv h => hnn tlv (List.mem_append_left _ h)
    have hys : NonNull ys := fun tlv h => hnn tlv (List.mem_append_right _ h)
    rw [callback_bind, hx.runs hxs st]
    dsimp only
    rw [(hf _).runs hys, List.map_append, List.append_assoc]
  · intro hnull st
    by_cases hxs : NonNull xs
    · have hys : ¬ NonNull ys := by
        intro hys
        refine hnull fun tlv h => ?_
        rcases List.mem_append.mp h with h | h
        · exact hxs tlv h
        · exact hys tlv h
      rw [callback_bind, hx.runs hxs st]
      dsimp only
      obtain ⟨st', pre, tlv, post, hrun, hreads, hys', htlv⟩ := (hf (outx st.msgData).1).faults hys
        ⟨(outx st.msgData).2, st.reads ++ xs.map (TlvRead.mk idx)⟩
      refine ⟨st', xs ++ pre, tlv, post, hrun, ?_, ?_, htlv⟩
      · rw [hreads]
        simp
      · rw [hys', List.append_assoc]
    · obtain ⟨st', pre, tlv, post, hrun, hreads, hxs', htlv⟩ := hx.faults hxs st
      refine ⟨st', pre, tlv, post ++ ys, ?_, hreads, ?_, htlv⟩
      · rw [callback_bind, hrun]
      · rw [hxs']
        simp

theorem plans_pure (idx : UInt8) (a : α) : Plans idx (pure a) [] (fun d => (a, d)) := by
  refine ⟨fun _ st => ?_, fun h => absurd (fun tlv h => by cases h) h⟩
  change (Except.ok a, st) = _
  simp

theorem plans_writeMsg (idx : UInt8) (f : Message → Message) :
    Plans idx (writeMsg f) [] (fun d => ((), f d)) := by
  refine ⟨fun _ st => ?_, fun h => absurd (fun tlv h => by cases h) h⟩
  change (Except.ok (), _) = _
  simp

theorem plans_deref (cont : AddrContext) (tlv : TlvEntry) :
    Plans cont.addrIndex (derefSingleValue cont tlv) [tlv] (fun d => (byteOf tlv, d)) := by
  constructor
  · intro h st
    unfold derefSingleValue byteOf
    cases hs : tlv.singleValue with
    | none => exact absurd hs (h tlv List.mem_cons_self)
    | some ptr => rfl
  · intro h st
    have hs : tlv.singleValue = none := by
      refine Classical.byContradiction fun hs => h ?_
      intro tlv' h'
      rw [List.mem_singleton.mp h']
      exact hs
    refine ⟨⟨st.msgData, st.reads ++ [⟨cont.addrIndex, tlv⟩]⟩, [], tlv, [], ?_, rfl, rfl, hs⟩
    unfold derefSingleValue
    rw [hs]

theorem plans_writeIf (idx : UInt8) (p : Bool) (f : Message → Message) :
    Plans idx (writeIf p f) [] (fun d => ((), if p then f d else d)) := by
  cases p with
  | false => exact plans_pure idx ()
  | true => exact plans_writeMsg idx f

theorem plans_ite {idx : UInt8} (p : Prop) [Decidable p] {x y : Callback α}
    {xs ys : List TlvEntry} {outx outy : Message → α × Message} (hx : Plans idx x xs outx)
    (hy : Plans idx y ys outy) :
    Plans idx (if p then x else y) (if p then xs else ys)
      (fun d => if p then outx d else outy d) := by
  by_cases h : p
  · simpa only [if_pos h] using hx
  · simpa only [if_neg h] using hy

theorem plans_ifTlv {idx : UInt8} (tlv : Option TlvEntry) {body : TlvEntry → Callback Unit}
    {f : TlvEntry → Message → Message}
    (hbody : ∀ t, Plans idx (body t) [t] (fun d => ((), f t d))) :
    Plans idx (ifTlv tlv body) tlv.toList (fun d => ((), tlv.elim d (f · d))) := by
  cases tlv with
  | none => exact plans_pure idx ()
  | some t => exact hbody t

/-- An assignment before the dereference and one with what it reads. -/
theorem plans_assign (cont : AddrContext) (tlv : TlvEntry) (before : Message → Message)
    (after : UInt8 → Message → Message) :
    Plans cont.addrIndex
      (do writeMsg before; let v ← derefSingleValue cont tlv; writeMsg (after v))
      [tlv] (fun d => ((), after (byteOf tlv) (before d))) :=
  (plans_writeMsg _ before).bind fun _ =>
    (plans_deref cont tlv).bind fun v => plans_writeMsg _ (after v)

/-! ## §2 The two callbacks -/

/-- The plan of an address callback: what it reads, whether it accepts the
address, and what it writes. -/
structure AddressRules where
  reads : AddrContext → List TlvEntry
  accepts : AddrContext → Bool
  decode : AddrContext → Message → Message

/-- An RREQ address is read up to its metric, which only OrigNode may have
and must have. -/
def rreqRules : AddressRules where
  reads cont := cont.origSeqnum.toList ++ (cont.targSeqnum.toList ++
    if cont.origSeqnum.isSome then cont.metric.toList else [])
  accepts cont := cont.origSeqnum.isSome == cont.metric.isSome
  decode cont d :=
    let d := cont.origSeqnum.elim d fun tlv =>
      (d.setOrigAddr cont.addr).setOrigSeqnum (byteOf tlv)
    let d := cont.targSeqnum.elim d fun tlv =>
      (d.setTargAddr cont.addr).setTargSeqnum (byteOf tlv)
    let d := if cont.targSeqnum.isNone && cont.origSeqnum.isNone then d.setTargAddr cont.addr else d
    if cont.origSeqnum.isSome then
      cont.metric.elim d fun tlv => (d.setMetricType tlv.typeExt).setMetric (byteOf tlv)
    else d

/-- An RREP address needs a sequence number, and a metric exactly when it
is TargNode's alone. -/
def rrepRules : AddressRules where
  reads cont := cont.targSeqnum.toList ++ (cont.origSeqnum.toList ++
    if cont.targSeqnum.isSome && cont.origSeqnum.isNone then cont.metric.toList else [])
  accepts cont := (cont.origSeqnum.isSome || cont.targSeqnum.isSome) &&
    (cont.metric.isSome == (cont.targSeqnum.isSome && cont.origSeqnum.isNone))
  decode cont d :=
    let d := cont.targSeqnum.elim d fun tlv =>
      (d.setTargAddr cont.addr).setTargSeqnum (byteOf tlv)
    let d := cont.origSeqnum.elim d fun tlv =>
      (d.setOrigAddrRrep cont.addr).setOrigSeqnum (byteOf tlv)
    if cont.targSeqnum.isSome && cont.origSeqnum.isNone then
      cont.metric.elim d fun tlv => (d.setMetricType tlv.typeExt).setMetric (byteOf tlv)
    else d

/-- The callback's plan on every address. -/
def Follows (callback : AddrContext → Callback Rfc5444Result) (rules : AddressRules) : Prop :=
  ∀ cont, Plans cont.addrIndex (callback cont) (rules.reads cont) fun d =>
    (if rules.accepts cont then .okay else .dropPacket, rules.decode cont d)

/-- Plans are the same when their lists and outcomes are. -/
theorem Plans.congr {idx : UInt8} {c : Callback α} {xs ys : List TlvEntry}
    {out out' : Message → α × Message} (h : Plans idx c xs out) (hl : xs = ys)
    (ho : ∀ d, out d = out' d) : Plans idx c ys out' := by
  obtain rfl : out = out' := funext ho
  exact hl ▸ h

theorem rreq_follows : Follows rreqCallbacks.addressTlvs rreqRules := by
  intro cont
  refine Plans.congr
    ((plans_ifTlv cont.origSeqnum fun tlv =>
        plans_assign cont tlv (Message.setOrigAddr cont.addr) Message.setOrigSeqnum).bind fun _ =>
      (plans_ifTlv cont.targSeqnum fun tlv =>
        plans_assign cont tlv (Message.setTargAddr cont.addr) Message.setTargSeqnum).bind fun _ =>
      (plans_writeIf _ _ (Message.setTargAddr cont.addr)).bind fun _ =>
      plans_ite _ (plans_pure _ _) <| plans_ite _ (plans_pure _ _) <|
      plans_ite _ (plans_pure _ _) <|
      (plans_ifTlv cont.metric fun tlv =>
        plans_assign cont tlv (Message.setMetricType tlv.typeExt) Message.setMetric).bind fun _ =>
      plans_pure _ _) ?_ ?_
  · obtain ⟨addr, idx, o, t, m⟩ := cont
    cases o <;> cases t <;> cases m <;> rfl
  · intro d
    obtain ⟨addr, idx, o, t, m⟩ := cont
    cases o <;> cases t <;> cases m <;> rfl

theorem rrep_follows : Follows rrepCallbacks.addressTlvs rrepRules := by
  intro cont
  refine Plans.congr
    ((plans_ifTlv cont.targSeqnum fun tlv =>
        plans_assign cont tlv (Message.setTargAddr cont.addr) Message.setTargSeqnum).bind fun _ =>
      (plans_ifTlv cont.origSeqnum fun tlv =>
        plans_assign cont tlv (Message.setOrigAddrRrep cont.addr) Message.setOrigSeqnum).bind
        fun _ =>
      plans_ite _ (plans_pure _ _) <| plans_ite _ (plans_pure _ _) <|
      plans_ite _ (plans_pure _ _) <|
      (plans_ifTlv cont.metric fun tlv =>
        plans_assign cont tlv (Message.setMetricType tlv.typeExt) Message.setMetric).bind fun _ =>
      plans_pure _ _) ?_ ?_
  · obtain ⟨addr, idx, o, t, m⟩ := cont
    cases o <;> cases t <;> cases m <;> rfl
  · intro d
    obtain ⟨addr, idx, o, t, m⟩ := cont
    cases o <;> cases t <;> cases m <;> rfl

/-! ## §3 The addresses of a message -/

section Addresses

variable {callback : AddrContext → Callback Rfc5444Result} {rules : AddressRules}

/-- The addresses the callback is called on: up to and with the first one
it rejects. -/
def reached (rules : AddressRules) : List AddrResult → List AddrContext
  | [] => []
  | .error _ :: _ => []
  | .ok cont :: rest => cont :: if rules.accepts cont then reached rules rest else []

/-- Every address is assembled, readable and accepted. -/
def AllAccepted (rules : AddressRules) (conts : List AddrContext) : Prop :=
  ∀ cont ∈ conts, NonNull (rules.reads cont) ∧ rules.accepts cont = true

/-- What the addresses of a message write, one after the other. -/
def decodeAll (rules : AddressRules) (conts : List AddrContext) (d : Message) : Message :=
  conts.foldl (fun d cont => rules.decode cont d) d

theorem scheduleAddrs_nil (st : CbState) : scheduleAddrs callback [] st = (.ok .okay, st) := rfl

theorem scheduleAddrs_error (f : Fault) (rest : List AddrResult) (st : CbState) :
    scheduleAddrs callback (.error f :: rest) st = (.error f, st) := rfl

theorem scheduleAddrs_okay (hf : Follows callback rules) {cont : AddrContext}
    (hnn : NonNull (rules.reads cont)) (hacc : rules.accepts cont = true)
    (rest : List AddrResult) (st : CbState) :
    scheduleAddrs callback (.ok cont :: rest) st = scheduleAddrs callback rest
      ⟨rules.decode cont st.msgData,
        st.reads ++ (rules.reads cont).map (TlvRead.mk cont.addrIndex)⟩ := by
  rw [scheduleAddrs, callback_bind, (hf cont).runs hnn st, if_pos hacc]
  rfl

theorem scheduleAddrs_drop (hf : Follows callback rules) {cont : AddrContext}
    (hnn : NonNull (rules.reads cont)) (hacc : rules.accepts cont = false)
    (rest : List AddrResult) (st : CbState) :
    scheduleAddrs callback (.ok cont :: rest) st = (.ok .dropPacket,
      ⟨rules.decode cont st.msgData,
        st.reads ++ (rules.reads cont).map (TlvRead.mk cont.addrIndex)⟩) := by
  rw [scheduleAddrs, callback_bind, (hf cont).runs hnn st, hacc]
  rfl

theorem scheduleAddrs_fault (hf : Follows callback rules) {cont : AddrContext}
    (hnull : ¬ NonNull (rules.reads cont)) (rest : List AddrResult) (st : CbState) :
    ∃ st' pre tlv post, scheduleAddrs callback (.ok cont :: rest) st = (.error .nullDereference, st') ∧
      st'.reads = st.reads ++ (pre ++ [tlv]).map (TlvRead.mk cont.addrIndex) ∧
      rules.reads cont = pre ++ tlv :: post ∧ tlv.singleValue = none := by
  obtain ⟨st', pre, tlv, post, hrun, hrest⟩ := (hf cont).faults hnull st
  refine ⟨st', pre, tlv, post, ?_, hrest⟩
  rw [scheduleAddrs, callback_bind, hrun]

/-- If all addresses are accepted, the message is decoded. -/
theorem scheduleAddrs_accepted (hf : Follows callback rules) {conts : List AddrContext}
    (h : AllAccepted rules conts) (st : CbState) :
    ∃ reads, scheduleAddrs callback (conts.map .ok) st =
      (.ok .okay, ⟨decodeAll rules conts st.msgData, reads⟩) := by
  induction conts generalizing st with
  | nil => exact ⟨st.reads, rfl⟩
  | cons cont conts ih =>
    obtain ⟨hnn, hacc⟩ := h cont List.mem_cons_self
    rw [List.map_cons, scheduleAddrs_okay hf hnn hacc]
    exact ih (fun c hc => h c (List.mem_cons_of_mem _ hc)) _

/-- Otherwise it ends in the same way whatever the record holds. -/
theorem scheduleAddrs_refused (hf : Follows callback rules) {addrs : List AddrResult}
    (h : ¬ ∃ conts, addrs = conts.map .ok ∧ AllAccepted rules conts) :
    ∃ r, r ≠ .ok .okay ∧ ∀ st, (scheduleAddrs callback addrs st).1 = r := by
  induction addrs with
  | nil => exact absurd ⟨[], rfl, by simp [AllAccepted]⟩ h
  | cons a rest ih =>
    cases a with
    | error f => exact ⟨.error f, by simp, fun st => rfl⟩
    | ok cont =>
      by_cases hnn : NonNull (rules.reads cont)
      · cases hacc : rules.accepts cont with
        | false =>
          refine ⟨.ok .dropPacket, by simp, fun st => ?_⟩
          rw [scheduleAddrs_drop hf hnn hacc]
        | true =>
          obtain ⟨r, hr, hrun⟩ := ih fun ⟨conts, hconts, hall⟩ =>
            h ⟨cont :: conts, by rw [hconts]; rfl, by
              intro c hc
              rcases List.mem_cons.mp hc with rfl | hc
              · exact ⟨hnn, hacc⟩
              · exact hall c hc⟩
          refine ⟨r, hr, fun st => ?_⟩
          rw [scheduleAddrs_okay hf hnn hacc]
          exact hrun _
      · refine ⟨.error .nullDereference, by simp, fun st => ?_⟩
        obtain ⟨st', pre, tlv, post, hrun, -⟩ := scheduleAddrs_fault hf hnn rest st
        rw [hrun]

end Addresses

/-! ## §4 Whole messages -/

/-- The header callback lets the message through. -/
def HopLimitOkay (msg : MessageContext) : Prop := ∃ hop, msg.hopLimit = some hop ∧ hop ≠ 0

instance (msg : MessageContext) : Decidable (HopLimitOkay msg) :=
  decidable_of_iff (∃ hop ∈ msg.hopLimit, hop ≠ 0) (by simp [HopLimitOkay])

theorem header_okay_iff {msg : MessageContext} {d : Message} :
    (cbBlocktlvMessagetlvsOkay msg.hopLimit d).1 = .okay ↔ HopLimitOkay msg := by
  unfold cbBlocktlvMessagetlvsOkay HopLimitOkay
  cases msg.hopLimit with
  | none => simp
  | some hop =>
    dsimp only
    split
    · simp [*]
    · simp [*]

/-- The message gets through the header callback and all address callbacks. -/
structure Decodable (rules : AddressRules) (msg : MessageContext) (hop : UInt8)
    (conts : List AddrContext) : Prop where
  hopLimit : msg.hopLimit = some hop
  hop_ne : hop ≠ 0
  addrs : msg.addrs = conts.map .ok
  accepted : AllAccepted rules conts

section Messages

variable {cbs : Callbacks} {rules : AddressRules} {msg : MessageContext}

/-- Then its record is known. -/
theorem Decodable.decodeMessage {hop : UInt8} {conts : List AddrContext}
    (h : Decodable rules msg hop conts) (hf : Follows cbs.addressTlvs rules) (d : Message) :
    ∃ reads, decodeMessage cbs msg d =
      (.ok .okay, ⟨decodeAll rules conts { d with msgHopLimit := hop - 1 }, reads⟩) := by
  have hhdr : cbBlocktlvMessagetlvsOkay msg.hopLimit d =
      (.okay, { d with msgHopLimit := hop - 1 }) := by
    unfold cbBlocktlvMessagetlvsOkay
    rw [h.hopLimit]
    dsimp only
    rw [if_neg h.hop_ne]
  unfold Aodvv2.decodeMessage
  rw [hhdr, h.addrs, if_pos rfl]
  exact scheduleAddrs_accepted hf h.accepted _

/-- Otherwise it ends in the same way whatever the record holds. -/
theorem decodeMessage_refused (hf : Follows cbs.addressTlvs rules)
    (h : ¬ ∃ hop conts, Decodable rules msg hop conts) :
    ∃ r, r ≠ .ok .okay ∧ ∀ d, (decodeMessage cbs msg d).1 = r := by
  by_cases hhop : HopLimitOkay msg
  · have haddrs : ¬ ∃ conts, msg.addrs = conts.map .ok ∧ AllAccepted rules conts := by
      rintro ⟨conts, haddrs, hacc⟩
      obtain ⟨hop, hlimit, hne⟩ := hhop
      exact h ⟨hop, conts, hlimit, hne, haddrs, hacc⟩
    obtain ⟨r, hr, hrun⟩ := scheduleAddrs_refused hf haddrs
    refine ⟨r, hr, fun d => ?_⟩
    unfold decodeMessage
    rw [if_pos (header_okay_iff.mpr hhop)]
    exact hrun _
  · refine ⟨.ok .dropPacket, by simp, fun d => ?_⟩
    unfold decodeMessage
    rw [if_neg fun hokay => hhop (header_okay_iff.mp hokay)]
    unfold cbBlocktlvMessagetlvsOkay
    cases hlimit : msg.hopLimit with
    | none => rfl
    | some hop =>
      by_cases hzero : hop = 0
      · rw [hzero]
        rfl
      · exact absurd ⟨hop, hlimit, hzero⟩ hhop

/-- The record of a message that got through. -/
theorem decodeMessage_okay (hf : Follows cbs.addressTlvs rules) {d : Message} {st : CbState}
    (h : decodeMessage cbs msg d = (.ok .okay, st)) :
    ∃ hop conts, Decodable rules msg hop conts ∧
      st.msgData = decodeAll rules conts { d with msgHopLimit := hop - 1 } := by
  by_cases hdec : ∃ hop conts, Decodable rules msg hop conts
  · obtain ⟨hop, conts, hdec⟩ := hdec
    obtain ⟨reads, hrun⟩ := hdec.decodeMessage hf d
    rw [h] at hrun
    cases hrun
    exact ⟨hop, conts, hdec, rfl⟩
  · obtain ⟨r, hr, hrun⟩ := decodeMessage_refused hf hdec
    exact absurd ((hrun d).symm.trans (congrArg Prod.fst h)) hr

/-- What no address writes stays. -/
theorem decodeAll_keeps (f : Message → α) (h : ∀ cont d, f (rules.decode cont d) = f d)
    (conts : List AddrContext) (d : Message) : f (decodeAll rules conts d) = f d := by
  induction conts generalizing d with
  | nil => rfl
  | cons cont conts ih => exact (ih (rules.decode cont d)).trans (h cont d)

/-- Two records agree in the end if one of the addresses makes them agree
and none undoes it. -/
theorem decodeAll_agree {R : Message → Message → Prop} {conts : List AddrContext}
    (hkeep : ∀ cont ∈ conts, ∀ d d', R d d' → R (rules.decode cont d) (rules.decode cont d'))
    (hmake : ∃ cont ∈ conts, ∀ d d', R (rules.decode cont d) (rules.decode cont d'))
    (d d' : Message) : R (decodeAll rules conts d) (decodeAll rules conts d') := by
  have hrest : ∀ conts : List AddrContext,
      (∀ cont ∈ conts, ∀ d d', R d d' → R (rules.decode cont d) (rules.decode cont d')) →
      ∀ d d', R d d' → R (decodeAll rules conts d) (decodeAll rules conts d') := by
    intro conts
    induction conts with
    | nil => exact fun _ d d' h => h
    | cons cont conts ih =>
      intro hkeep d d' h
      exact ih (fun c hc => hkeep c (List.mem_cons_of_mem _ hc)) _ _
        (hkeep cont List.mem_cons_self d d' h)
  induction conts generalizing d d' with
  | nil => simp at hmake
  | cons cont conts ih =>
    obtain ⟨c, hc, hmakes⟩ := hmake
    have hkeep' := fun c hc => hkeep c (List.mem_cons_of_mem cont hc)
    rcases List.mem_cons.mp hc with rfl | hc
    · exact hrest conts hkeep' _ _ (hmakes d d')
    · exact ih hkeep' ⟨c, hc, hmakes⟩ _ _

end Messages

/-! ## §5 Only values that are there -/

section Reads

variable {callback : AddrContext → Callback Rfc5444Result} {rules : AddressRules}

/-- The dereferences of a message all meet `Good`, a property no null
pointer has, exactly when all the TLVs that the plans name do. -/
theorem scheduleAddrs_reads_iff (hf : Follows callback rules) {Good : TlvRead → Prop}
    (hgood : ∀ r, Good r → r.tlv.singleValue ≠ none) (addrs : List AddrResult) (st : CbState) :
    (∀ r ∈ (scheduleAddrs callback addrs st).2.reads, Good r) ↔
      (∀ r ∈ st.reads, Good r) ∧
        ∀ cont ∈ reached rules addrs, ∀ tlv ∈ rules.reads cont, Good ⟨cont.addrIndex, tlv⟩ := by
  induction addrs generalizing st with
  | nil =>
    rw [scheduleAddrs_nil]
    simp [reached]
  | cons a rest ih =>
    cases a with
    | error f => simp [scheduleAddrs_error, reached]
    | ok cont =>
      by_cases hnn : NonNull (rules.reads cont)
      · cases hacc : rules.accepts cont with
        | false =>
          rw [scheduleAddrs_drop hf hnn hacc]
          simp [reached, hacc, or_imp, forall_and]
        | true =>
          rw [scheduleAddrs_okay hf hnn hacc, ih]
          simp [reached, hacc, or_imp, forall_and, and_assoc]
      · -- The callback stops at a null pointer, which both sides exclude.
        obtain ⟨st', pre, tlv, post, hrun, hreads, hplan, hnull⟩ :=
          scheduleAddrs_fault hf hnn rest st
        rw [hrun]
        have hbad : ¬ Good ⟨cont.addrIndex, tlv⟩ := fun h => hgood _ h hnull
        constructor
        · intro h
          refine absurd (h ⟨cont.addrIndex, tlv⟩ ?_) hbad
          rw [hreads]
          simp
        · rintro ⟨-, h⟩
          refine absurd (h cont List.mem_cons_self tlv ?_) hbad
          rw [hplan]
          simp

end Reads

/-- Every TLV that the callbacks read in a message has a length. -/
def ValuesPresent (rules : AddressRules) (msg : MessageContext) : Prop :=
  HopLimitOkay msg →
    ∀ cont ∈ reached rules msg.addrs, ∀ tlv ∈ rules.reads cont, tlv.length ≠ 0

instance (rules : AddressRules) (msg : MessageContext) : Decidable (ValuesPresent rules msg) :=
  inferInstanceAs (Decidable (HopLimitOkay msg →
    ∀ cont ∈ reached rules msg.addrs, ∀ tlv ∈ rules.reads cont, tlv.length ≠ 0))

/-- Every `single_value` the callbacks dereference in a message points into
the value that its TLV carries for the address. -/
def ReadsOwnValues (cbs : Callbacks) (msg : MessageContext) (d : Message) : Prop :=
  ∀ r ∈ (decodeMessage cbs msg d).2.reads, r.tlv.OwnsSingleValue r.addrIndex

theorem mem_reached {rules : AddressRules} {addrs : List AddrResult} {cont : AddrContext}
    (h : cont ∈ reached rules addrs) : .ok cont ∈ addrs := by
  induction addrs with
  | nil => cases h
  | cons a rest ih =>
    cases a with
    | error f => cases h
    | ok c =>
      rcases List.mem_cons.mp h with rfl | h
      · exact List.mem_cons_self
      · split at h
        · exact List.mem_cons_of_mem _ (ih h)
        · cases h

/-- For the messages of any packet, one message type at a time. -/
theorem readsOwnValues_iff {cbs : Callbacks} {rules : AddressRules} {msg : MessageContext}
    (hf : Follows cbs.addressTlvs rules)
    (howned : ∀ cont, .ok cont ∈ msg.addrs → ∀ tlv ∈ rules.reads cont,
      tlv.OwnsSingleValue cont.addrIndex ↔ tlv.length ≠ 0) (d : Message) :
    ReadsOwnValues cbs msg d ↔ ValuesPresent rules msg := by
  have hgood : ∀ r : TlvRead, r.tlv.OwnsSingleValue r.addrIndex → r.tlv.singleValue ≠ none := by
    rintro r ⟨start, ptr, -, hptr, -⟩ hnone
    rw [hptr] at hnone
    cases hnone
  unfold ReadsOwnValues ValuesPresent decodeMessage
  dsimp only
  by_cases hop : HopLimitOkay msg
  · rw [if_pos (header_okay_iff.mpr hop), scheduleAddrs_reads_iff hf hgood]
    refine ⟨fun h _ cont hc tlv ht => ?_, fun h => ⟨by simp, fun cont hc tlv ht => ?_⟩⟩
    · exact (howned cont (mem_reached hc) tlv ht).mp (h.2 cont hc tlv ht)
    · exact (howned cont (mem_reached hc) tlv ht).mpr (h hop cont hc tlv ht)
  · rw [if_neg fun h => hop (header_okay_iff.mp h)]
    exact ⟨fun _ h => absurd h hop, fun _ r hr => by cases hr⟩

theorem rreqRules_reads_tlvs {cont : AddrContext} {tlv : TlvEntry}
    (h : tlv ∈ rreqRules.reads cont) : tlv ∈ cont.tlvs := by
  simp only [rreqRules, AddrContext.tlvs, List.mem_append] at h ⊢
  rcases h with h | h | h
  · exact Or.inl (Or.inl h)
  · exact Or.inl (Or.inr h)
  · split at h
    · exact Or.inr h
    · cases h

theorem rrepRules_reads_tlvs {cont : AddrContext} {tlv : TlvEntry}
    (h : tlv ∈ rrepRules.reads cont) : tlv ∈ cont.tlvs := by
  simp only [rrepRules, AddrContext.tlvs, List.mem_append] at h ⊢
  rcases h with h | h | h
  · exact Or.inl (Or.inr h)
  · exact Or.inl (Or.inl h)
  · split at h
    · exact Or.inr h
    · cases h

theorem rreq_readsOwnValues_iff {buf : List UInt8} {msg : MessageContext}
    (hmsg : msg ∈ messages buf) (d : Message) :
    ReadsOwnValues rreqCallbacks msg d ↔ ValuesPresent rreqRules msg :=
  readsOwnValues_iff rreq_follows
    (fun _ hc _ ht => messages_owned hmsg hc _ (rreqRules_reads_tlvs ht)) d

theorem rrep_readsOwnValues_iff {buf : List UInt8} {msg : MessageContext}
    (hmsg : msg ∈ messages buf) (d : Message) :
    ReadsOwnValues rrepCallbacks msg d ↔ ValuesPresent rrepRules msg :=
  readsOwnValues_iff rrep_follows
    (fun _ hc _ ht => messages_owned hmsg hc _ (rrepRules_reads_tlvs ht)) d

/-- **The callbacks read only values that are there** exactly when every
TLV they read has a length. This is for every message of every byte
string, and whatever the static record holds. Each dereference reads one
byte, so a value that is there is long enough. -/
theorem callbacks_read_own_values_iff (buf : List UInt8) (msg : MessageContext)
    (hmsg : msg ∈ messages buf) (d : Message) :
    (msg.msgType = msgtypeRreq →
      (ReadsOwnValues rreqCallbacks msg d ↔ ValuesPresent rreqRules msg)) ∧
    (msg.msgType = msgtypeRrep →
      (ReadsOwnValues rrepCallbacks msg d ↔ ValuesPresent rrepRules msg)) :=
  ⟨fun _ => rreq_readsOwnValues_iff hmsg d, fun _ => rrep_readsOwnValues_iff hmsg d⟩

/-- A packet with one RREQ of one address, `::7`, and a block of TLVs for it. -/
def oneAddressRreq (size : UInt8) (tlvs : List UInt8) : List UInt8 :=
  [0x00, 10, 0x4f, 0, size, 5, 0, 0, 1, 0] ++ List.replicate 15 0 ++ [7] ++ tlvs

/-- A sequence number of one byte and a metric: everything is read from its
own TLV. -/
theorem callbacks_read_own_values_rreq :
    ∃ msg ∈ messages (oneAddressRreq 36 [0, 9, 0, 0x10, 1, 9, 3, 0x90, 3, 1, 0]),
      msg.msgType = msgtypeRreq ∧ ReadsOwnValues rreqCallbacks msg {} := by
  have hvalues : ∃ msg ∈ messages (oneAddressRreq 36 [0, 9, 0, 0x10, 1, 9, 3, 0x90, 3, 1, 0]),
      msg.msgType = msgtypeRreq ∧ ValuesPresent rreqRules msg := by decide +kernel
  obtain ⟨msg, hmsg, htype, hpresent⟩ := hvalues
  exact ⟨msg, hmsg, htype, ((callbacks_read_own_values_iff _ msg hmsg {}).1 htype).mpr hpresent⟩

/-- A sequence number TLV without a value: the callback dereferences a null
pointer. -/
theorem callbacks_read_missing_value :
    ∃ msg ∈ messages (oneAddressRreq 29 [0, 2, 0, 0]),
      msg.msgType = msgtypeRreq ∧ ¬ ReadsOwnValues rreqCallbacks msg {} := by
  have hvalues : ∃ msg ∈ messages (oneAddressRreq 29 [0, 2, 0, 0]),
      msg.msgType = msgtypeRreq ∧ ¬ ValuesPresent rreqRules msg := by decide +kernel
  obtain ⟨msg, hmsg, htype, habsent⟩ := hvalues
  exact ⟨msg, hmsg, htype, fun h => habsent ((rreq_readsOwnValues_iff hmsg {}).mp h)⟩

end Turpial.Aodvv2
