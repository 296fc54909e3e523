/-
Turpial.Aodvv2.PacketTheorems — messages through the bytes of a packet.

§1 says what the callbacks of the reader look at (`MessageContext.seen`):
messages that are alike in it are handled alike, wherever their TLVs are in
the packet. §2 is what the writer callbacks hand to the vendored writer, and
§3 joins the two: a message has a packet exactly when its two addresses do
not differ in the prefix length alone, and it is handled from its packet as
it was written (`Writes.packet`).
-/
import Turpial.Aodvv2.Packet
import Turpial.Aodvv2.CallTheorems
import Turpial.Aodvv2.FaultTheorems
import Turpial.Aodvv2.CodecTheorems
import Turpial.Rfc5444.GeneratorTheorems
import Mathlib.Data.List.Chain

namespace Turpial.Aodvv2

open Turpial.Lib Turpial.Rfc5444

variable {α β : Type}

/-! ## §1 What the callbacks look at -/

/-- A TLV, as the callbacks look at it. -/
def tlvSeen (tlv : TlvEntry) : UInt8 × Option UInt8 :=
  (tlv.typeExt, tlv.singleValue.map BytePtr.byte)

/-- An address with its TLVs, as the callbacks look at them. -/
structure AddrSeen where
  addr : Netaddr
  origSeqnum : Option (UInt8 × Option UInt8)
  targSeqnum : Option (UInt8 × Option UInt8)
  metric : Option (UInt8 × Option UInt8)
  deriving DecidableEq

def contextSeen (cont : AddrContext) : AddrSeen where
  addr := cont.addr
  origSeqnum := cont.origSeqnum.map tlvSeen
  targSeqnum := cont.targSeqnum.map tlvSeen
  metric := cont.metric.map tlvSeen

/-- The addresses of a message, as far as they can be assembled. -/
def addrsSeen (addrs : List AddrResult) : List (Except Fault AddrSeen) :=
  addrs.map (Except.map contextSeen)

/-- A message, as the callbacks look at it. -/
structure SameSeen (msg msg' : MessageContext) : Prop where
  msgType : msg.msgType = msg'.msgType
  hopLimit : msg.hopLimit = msg'.hopLimit
  addrs : addrsSeen msg.addrs = addrsSeen msg'.addrs

/-- Two callbacks end alike and leave the same record, whatever they have
read so far. -/
def Alike (c c' : Callback α) : Prop := ∀ st st', st.msgData = st'.msgData →
  (c st).1 = (c' st').1 ∧ (c st).2.msgData = (c' st').2.msgData

theorem alike_pure (a : α) : Alike (pure a) (pure a) := fun _ _ h => ⟨rfl, h⟩

theorem alike_throw (f : Fault) : Alike (throw f : Callback α) (throw f) := fun _ _ h => ⟨rfl, h⟩

theorem Alike.bind {x x' : Callback α} {f f' : α → Callback β} (hx : Alike x x')
    (hf : ∀ a, Alike (f a) (f' a)) : Alike (x >>= f) (x' >>= f') := by
  intro st st' h
  obtain ⟨hr, hd⟩ := hx st st' h
  rw [callback_bind, callback_bind]
  rcases hrun : x st with ⟨r, st₁⟩
  rcases hrun' : x' st' with ⟨r', st₁'⟩
  rw [hrun, hrun'] at hr hd
  cases r with
  | ok a =>
    cases hr
    exact hf a st₁ st₁' hd
  | error e =>
    cases hr
    exact ⟨rfl, hd⟩

theorem alike_writeMsg (f : Message → Message) : Alike (writeMsg f) (writeMsg f) :=
  fun _ _ h => ⟨rfl, congrArg f h⟩

theorem alike_writeIf (p : Bool) (f : Message → Message) : Alike (writeIf p f) (writeIf p f) := by
  cases p with
  | false => exact alike_pure ()
  | true => exact alike_writeMsg f

theorem Alike.ite {p : Prop} [Decidable p] {x x' y y' : Callback α} (hx : Alike x x')
    (hy : Alike y y') : Alike (if p then x else y) (if p then x' else y') := by
  split
  · exact hx
  · exact hy

theorem alike_deref {cont cont' : AddrContext} {tlv tlv' : TlvEntry}
    (h : tlvSeen tlv = tlvSeen tlv') :
    Alike (derefSingleValue cont tlv) (derefSingleValue cont' tlv') := by
  intro st st' hst
  have hbyte : tlv.singleValue.map BytePtr.byte = tlv'.singleValue.map BytePtr.byte :=
    congrArg Prod.snd h
  unfold derefSingleValue
  cases htlv : tlv.singleValue with
  | none =>
    cases htlv' : tlv'.singleValue with
    | none => exact ⟨rfl, hst⟩
    | some ptr' =>
      rw [htlv, htlv'] at hbyte
      cases hbyte
  | some ptr =>
    cases htlv' : tlv'.singleValue with
    | none =>
      rw [htlv, htlv'] at hbyte
      cases hbyte
    | some ptr' =>
      rw [htlv, htlv'] at hbyte
      exact ⟨congrArg Except.ok (Option.some.inj hbyte), hst⟩

theorem alike_ifTlv {tlv tlv' : Option TlvEntry} {body body' : TlvEntry → Callback Unit}
    (h : tlv.map tlvSeen = tlv'.map tlvSeen)
    (hbody : ∀ t t', tlvSeen t = tlvSeen t' → Alike (body t) (body' t')) :
    Alike (ifTlv tlv body) (ifTlv tlv' body') := by
  cases tlv with
  | none =>
    cases tlv' with
    | none => exact alike_pure ()
    | some t' => cases h
  | some t =>
    cases tlv' with
    | none => cases h
    | some t' => exact hbody t t' (Option.some.inj h)

/-- An assignment before the dereference and one with what it reads. -/
theorem alike_assign {cont cont' : AddrContext} {tlv tlv' : TlvEntry}
    (h : tlvSeen tlv = tlvSeen tlv') (before : Message → Message)
    (after : UInt8 → Message → Message) :
    Alike (do writeMsg before; let v ← derefSingleValue cont tlv; writeMsg (after v))
      (do writeMsg before; let v ← derefSingleValue cont' tlv'; writeMsg (after v)) :=
  (alike_writeMsg before).bind fun _ => (alike_deref h).bind fun v => alike_writeMsg (after v)

theorem isSome_of_map {γ δ : Type} {f : γ → δ} {o o' : Option γ} (h : o.map f = o'.map f) :
    o.isSome = o'.isSome := by
  have hs := congrArg Option.isSome h
  rwa [Option.isSome_map, Option.isSome_map] at hs

theorem isNone_of_map {γ δ : Type} {f : γ → δ} {o o' : Option γ} (h : o.map f = o'.map f) :
    o.isNone = o'.isNone := by
  rw [← Option.not_isSome, ← Option.not_isSome, isSome_of_map h]

/-- What an address callback does is decided by what it looks at. -/
def LooksAtSeen (callback : AddrContext → Callback Rfc5444Result) : Prop :=
  ∀ cont cont' : AddrContext, contextSeen cont = contextSeen cont' →
    Alike (callback cont) (callback cont')

theorem rreq_looksAtSeen : LooksAtSeen rreqCallbacks.addressTlvs := by
  intro cont cont' h
  have haddr : cont.addr = cont'.addr := congrArg AddrSeen.addr h
  have horig : cont.origSeqnum.map _ = cont'.origSeqnum.map _ := congrArg AddrSeen.origSeqnum h
  have htarg : cont.targSeqnum.map _ = cont'.targSeqnum.map _ := congrArg AddrSeen.targSeqnum h
  have hmetric : cont.metric.map _ = cont'.metric.map _ := congrArg AddrSeen.metric h
  change Alike (cbRreqBlocktlvAddresstlvsOkay cont) (cbRreqBlocktlvAddresstlvsOkay cont')
  unfold cbRreqBlocktlvAddresstlvsOkay
  rw [haddr, isSome_of_map horig, isSome_of_map htarg, isNone_of_map htarg, isSome_of_map hmetric,
    isNone_of_map hmetric]
  refine (alike_ifTlv horig fun t t' ht => alike_assign ht _ _).bind fun _ => ?_
  refine (alike_ifTlv htarg fun t t' ht => alike_assign ht _ _).bind fun _ => ?_
  refine (alike_writeIf _ _).bind fun _ => ?_
  refine (alike_pure _).ite ((alike_pure _).ite ((alike_pure _).ite ?_))
  refine (alike_ifTlv hmetric fun t t' ht => ?_).bind fun _ => alike_pure _
  rw [show t.typeExt = t'.typeExt from congrArg Prod.fst ht]
  exact alike_assign ht _ _

theorem rrep_looksAtSeen : LooksAtSeen rrepCallbacks.addressTlvs := by
  intro cont cont' h
  have haddr : cont.addr = cont'.addr := congrArg AddrSeen.addr h
  have horig : cont.origSeqnum.map _ = cont'.origSeqnum.map _ := congrArg AddrSeen.origSeqnum h
  have htarg : cont.targSeqnum.map _ = cont'.targSeqnum.map _ := congrArg AddrSeen.targSeqnum h
  have hmetric : cont.metric.map _ = cont'.metric.map _ := congrArg AddrSeen.metric h
  change Alike (cbRrepBlocktlvAddresstlvsOkay cont) (cbRrepBlocktlvAddresstlvsOkay cont')
  unfold cbRrepBlocktlvAddresstlvsOkay
  rw [haddr, isNone_of_map horig, isSome_of_map htarg, isSome_of_map hmetric,
    isNone_of_map hmetric]
  refine (alike_ifTlv htarg fun t t' ht => alike_assign ht _ _).bind fun _ => ?_
  refine (alike_ifTlv horig fun t t' ht => alike_assign ht _ _).bind fun _ => ?_
  refine (alike_pure _).ite ((alike_pure _).ite ((alike_pure _).ite ?_))
  refine (alike_ifTlv hmetric fun t t' ht => ?_).bind fun _ => alike_pure _
  rw [show t.typeExt = t'.typeExt from congrArg Prod.fst ht]
  exact alike_assign ht _ _

theorem scheduleAddrs_alike {callback : AddrContext → Callback Rfc5444Result}
    (hc : LooksAtSeen callback) {addrs addrs' : List AddrResult}
    (h : addrsSeen addrs = addrsSeen addrs') :
    Alike (scheduleAddrs callback addrs) (scheduleAddrs callback addrs') := by
  induction addrs generalizing addrs' with
  | nil =>
    cases addrs' with
    | nil => exact alike_pure _
    | cons r' rest' => cases h
  | cons r rest ih =>
    cases addrs' with
    | nil => cases h
    | cons r' rest' =>
      obtain ⟨hhead, hrest⟩ := List.cons.inj h
      cases r with
      | error f =>
        cases r' with
        | error f' =>
          cases hhead
          exact alike_throw f
        | ok cont' => cases hhead
      | ok cont =>
        cases r' with
        | error f' => cases hhead
        | ok cont' =>
          refine (hc cont cont' (Except.ok.inj hhead)).bind fun r => ?_
          exact (ih hrest).ite (alike_pure r)

theorem decodeMessage_alike {cbs : Callbacks} (hc : LooksAtSeen cbs.addressTlvs)
    {msg msg' : MessageContext} (h : SameSeen msg msg') (d : Message) :
    (decodeMessage cbs msg d).1 = (decodeMessage cbs msg' d).1 ∧
      (decodeMessage cbs msg d).2.msgData = (decodeMessage cbs msg' d).2.msgData := by
  unfold decodeMessage
  rw [h.hopLimit]
  dsimp only
  split
  · exact scheduleAddrs_alike hc h.addrs _ _ rfl
  · exact ⟨rfl, rfl⟩

theorem consumeWith_alike {cbs : Callbacks} (hc : LooksAtSeen cbs.addressTlvs) (cfg : Conf)
    (now : Timex) {msg msg' : MessageContext} (h : SameSeen msg msg') (s : Node) :
    consumeWith cfg now cbs msg s = consumeWith cfg now cbs msg' s := by
  obtain ⟨hr, hd⟩ := decodeMessage_alike hc h s.msgData
  unfold consumeWith
  dsimp only
  rw [hr, hd]

/-- Messages that look the same are handled the same. -/
theorem consumeMessage_alike (cfg : Conf) (now : Timex) {msg msg' : MessageContext}
    (h : SameSeen msg msg') (s : Node) :
    consumeMessage cfg now msg s = consumeMessage cfg now msg' s := by
  unfold consumeMessage
  rw [h.msgType, consumeWith_alike rreq_looksAtSeen cfg now h,
    consumeWith_alike rrep_looksAtSeen cfg now h]

/-! ## §2 What the writer callbacks write -/

/-- The address of a node, with TLVs that have values and come in the order
of their types. -/
structure WireAddr.Ok (a : WireAddr) : Prop where
  type : a.addr.type = .inet6
  prefixLen : a.addr.prefixLen ≤ 128
  sorted : TlvsSorted (a.tlvs.map WireTlv.addrtlv)
  values : ∀ tlv ∈ a.tlvs, tlv.value ≠ []

theorem addrtlvTree_of_sorted {tlvs : List WriterAddrtlv} (h : TlvsSorted tlvs) :
    addrtlvTree tlvs = tlvs := by
  have hinsert : ∀ (tree : List WriterAddrtlv) (tlv : WriterAddrtlv),
      (∀ t ∈ tree, t.fullType < tlv.fullType) → insertAddrtlv tlv tree = tree ++ [tlv] := by
    intro tree tlv htree
    induction tree with
    | nil => rfl
    | cons t tree ih =>
      have ht := htree t List.mem_cons_self
      unfold insertAddrtlv
      rw [if_neg (by omega), if_neg (by omega), ih fun u hu => htree u (List.mem_cons_of_mem t hu)]
      rfl
  have hfold : ∀ (rest tree : List WriterAddrtlv), TlvsSorted (tree ++ rest) →
      rest.foldl (fun tree tlv => insertAddrtlv tlv tree) tree = tree ++ rest := by
    intro rest
    induction rest with
    | nil => exact fun tree _ => (List.append_nil tree).symm
    | cons tlv rest ih =>
      intro tree hsorted
      obtain ⟨-, -, hcross⟩ := List.pairwise_append.mp hsorted
      rw [List.foldl_cons, hinsert tree tlv fun t ht => hcross t ht tlv List.mem_cons_self,
        ih _ (by rw [List.append_assoc]; exact hsorted), List.append_assoc]
      rfl
  exact hfold tlvs [] h

/-- A message of the writer callbacks for these two nodes. -/
structure Writes (msg : WireMessage) (orig targ : Netaddr) : Prop where
  ok : ∀ a ∈ msg.addrs, WireAddr.Ok a
  addrs : msg.addrs.map WireAddr.addr = if orig = targ then [orig] else [orig, targ]
  cost : (msg.addrs.map fun a => 22 + (a.tlvs.map fun t => t.addrtlv.cost).sum).sum ≤ 65

theorem NodeData.netaddr_ok (node : NodeData) :
    node.netaddr.type = .inet6 ∧ node.netaddr.prefixLen ≤ 128 :=
  ⟨rfl, UInt8.le_iff_toNat_le.mpr (clampPfxLen_le _)⟩

/-- An address of a node with some of the TLVs that the callbacks add. -/
theorem NodeData.wireAddr_ok (node : NodeData) (orig targ : SeqNum) (metric : UInt8)
    {tlvs : List WireTlv}
    (h : tlvs.Sublist [origSeqnumTlv orig, targSeqnumTlv targ, metricTlv metric]) :
    WireAddr.Ok { addr := node.netaddr, tlvs := tlvs } where
  type := node.netaddr_ok.1
  prefixLen := node.netaddr_ok.2
  sorted := by
    have hall : TlvsSorted ([origSeqnumTlv orig, targSeqnumTlv targ, metricTlv metric].map
        WireTlv.addrtlv) := by
      simp [TlvsSorted, WireTlv.addrtlv, WriterAddrtlv.fullType, origSeqnumTlv, targSeqnumTlv,
        metricTlv, msgtlvOrigseqnum, msgtlvTargseqnum, msgtlvMetric, defaultMetric, metricHopCount]
    exact hall.sublist (h.map _)
  values := by
    have hall : ∀ tlv ∈ [origSeqnumTlv orig, targSeqnumTlv targ, metricTlv metric],
        tlv.value ≠ [] := by
      simp [origSeqnumTlv, targSeqnumTlv, metricTlv, bytesOfU16]
    exact fun tlv htlv => hall tlv (h.subset htlv)

/-- A message with one address for both nodes, or one for each. -/
theorem writes_of {msg : WireMessage} {orig targ : NodeData} (origSeqnum targSeqnum : SeqNum)
    (metric : UInt8) (both first second : List WireTlv)
    (hboth : both.Sublist [origSeqnumTlv origSeqnum, targSeqnumTlv targSeqnum, metricTlv metric])
    (hfirst : first.Sublist both) (hsecond : second.Sublist both)
    (hcount : (first.map fun t => t.addrtlv.cost).sum + (second.map fun t => t.addrtlv.cost).sum =
      (both.map fun t => t.addrtlv.cost).sum)
    (hcost : (both.map fun t => t.addrtlv.cost).sum ≤ 21)
    (hsame : orig.netaddr = targ.netaddr → msg.addrs = [{ addr := orig.netaddr, tlvs := both }])
    (hne : orig.netaddr ≠ targ.netaddr → msg.addrs =
      [{ addr := orig.netaddr, tlvs := first }, { addr := targ.netaddr, tlvs := second }]) :
    Writes msg orig.netaddr targ.netaddr := by
  by_cases h : orig.netaddr = targ.netaddr
  · rw [← h]
    refine ⟨fun a ha => ?_, by rw [hsame h, if_pos rfl]; rfl, ?_⟩
    · rw [hsame h] at ha
      rw [List.mem_singleton.mp ha]
      exact orig.wireAddr_ok origSeqnum targSeqnum metric hboth
    · rw [hsame h]
      simp only [List.map_cons, List.map_nil, List.sum_cons, List.sum_nil]
      omega
  · refine ⟨fun a ha => ?_, by rw [hne h, if_neg h]; rfl, ?_⟩
    · rw [hne h] at ha
      rcases List.mem_cons.mp ha with rfl | ha
      · exact orig.wireAddr_ok origSeqnum targSeqnum metric (hfirst.trans hboth)
      · rw [List.mem_singleton.mp ha]
        exact targ.wireAddr_ok origSeqnum targSeqnum metric (hsecond.trans hboth)
    · rw [hne h]
      simp only [List.map_cons, List.map_nil, List.sum_cons, List.sum_nil]
      omega

/-- The TLVs of such a message have values. -/
theorem Writes.readable {msg : WireMessage} {orig targ : Netaddr} (h : Writes msg orig targ) :
    Readable msg.context.addrs := by
  intro r hr
  obtain ⟨cont, hcont, rfl⟩ := List.mem_map.mp hr
  obtain ⟨a, ha, rfl⟩ := List.mem_map.mp hcont
  refine ⟨_, rfl, fun tlv htlv => ?_⟩
  have hentry : ∃ type, tlv ∈ a.consumerEntryTlv type := by
    unfold AddrContext.tlvs at htlv
    simp only [List.mem_append, Option.mem_toList] at htlv
    rcases htlv with (h | h) | h
    · exact ⟨_, h⟩
    · exact ⟨_, h⟩
    · exact ⟨_, h⟩
  obtain ⟨type, htype⟩ := hentry
  obtain ⟨t, ht, rfl⟩ := Option.map_eq_some_iff.mp htype
  have hvalue := (h.ok a ha).values t (List.mem_of_find?_eq_some ht)
  unfold WireTlv.entry
  cases hbytes : t.value with
  | nil => exact absurd hbytes hvalue
  | cons b bytes => exact Option.some_ne_none _

theorem writes_rreq (m : Message) :
    Writes (writerSendRreq m) m.origNode.netaddr m.targNode.netaddr := by
  refine writes_of m.origNode.seqnum 0 m.origNode.metric
    [origSeqnumTlv m.origNode.seqnum, metricTlv m.origNode.metric] _ _ (by simp)
    (List.Sublist.refl _) (List.nil_sublist _) rfl (Nat.le_of_ble_eq_true rfl) (fun h => ?_)
    fun h => cbRreqAddAddresses_ne h
  change cbRreqAddAddresses m = _
  unfold cbRreqAddAddresses
  dsimp only
  rw [← h, addAddress_same, addAddress_nil]
  rfl

theorem writes_rrep (c : SeqCounter) (m : Message) :
    Writes (writerSendRrep c m).2 m.origNode.netaddr m.targNode.netaddr := by
  refine writes_of m.origNode.seqnum (seqnumGet c) m.targNode.metric _
    [origSeqnumTlv m.origNode.seqnum] [targSeqnumTlv (seqnumGet c), metricTlv m.targNode.metric]
    (List.Sublist.refl _) (by simp) (by simp) rfl (Nat.le_of_ble_eq_true rfl) (fun h => ?_)
    fun h => cbRrepAddAddresses_ne h
  rw [h]
  exact cbRrepAddAddresses_same h

/-! ## §3 Through the packet -/

/-- The 16 bytes of an address make it up again. -/
theorem addrOfBytes_octets (a : Ipv6Addr) : addrOfBytes (octets 16 a) = a := by
  have hlen : (octets 16 a).length = 16 := octets_length 16 a
  unfold addrOfBytes
  rw [List.take_of_length_le (Nat.le_of_eq hlen), hlen]
  change ofOctets 128 (octets 16 a) <<< 0 = a
  rw [ofOctets_octets a (Nat.le_refl _), BitVec.shiftLeft_zero]

/-- An address comes back with its type and its prefix length. -/
theorem netaddr_roundTrip {a : Netaddr} (htype : a.type = .inet6) (hlen : a.prefixLen ≤ 128) :
    netaddrFromBinaryPrefix (octets 16 a.addr) 16 a.prefixLen = a := by
  have htake : (octets 16 a.addr).take (16 : UInt8).toNat = octets 16 a.addr :=
    List.take_of_length_le (Nat.le_of_eq (octets_length 16 a.addr))
  have hne : a.prefixLen ≠ 255 := by
    intro h
    rw [h] at hlen
    exact absurd hlen (by decide)
  unfold netaddrFromBinaryPrefix
  rw [htake, addrOfBytes_octets, if_neg hne]
  obtain ⟨addr, type, prefixLen⟩ := a
  subst htype
  rfl

/-- The entry of a TLV is seen as it was written. -/
theorem entryHolds_seen {buf : List UInt8} {tlv : Option TlvEntry} {written : Option WireTlv}
    (hvalue : ∀ t ∈ written, t.value ≠ [])
    (h : EntryHolds buf tlv (written.map WireTlv.addrtlv)) :
    tlv.map tlvSeen = (written.map WireTlv.entry).map tlvSeen := by
  cases written with
  | none =>
    cases tlv with
    | none => rfl
    | some tlv => exact h.elim
  | some t =>
    cases tlv with
    | none => exact h.elim
    | some tlv =>
      have hholds : tlv.Holds buf t.addrtlv := h
      obtain ⟨p, hp, hat⟩ := hholds.value (hvalue t rfl)
      have hbyte : t.value.head? = some (byteAt buf p) := by
        have hat : HasAt buf p t.value := hat
        cases hv : t.value with
        | nil => exact absurd hv (hvalue t rfl)
        | cons b bytes =>
          rw [hv] at hat
          rw [hat.head]
          rfl
      have hext : tlv.typeExt = t.typeExt := hholds.typeExt
      unfold tlvSeen WireTlv.entry
      simp only [Option.map_some, hp, hbyte, hext]

/-- What the reader makes of an address is what the writer was given. -/
theorem contextOf_seen {buf : List UInt8} {a : WireAddr} (ha : a.Ok) {cont : AddrContext}
    (h : ContextOf buf a.writerAddress cont) : contextSeen cont = contextSeen a.context := by
  have htlv : ∀ (entry : Option TlvEntry) (type : UInt8),
      EntryHolds buf entry (a.writerAddress.tlv type) →
      entry.map tlvSeen = (a.consumerEntryTlv type).map tlvSeen := by
    intro entry type hentry
    have hfind : a.writerAddress.tlv type =
        (a.tlvs.find? fun tlv => tlv.type == type).map WireTlv.addrtlv := by
      unfold WriterAddress.tlv WireAddr.writerAddress
      dsimp only
      rw [addrtlvTree_of_sorted ha.sorted, List.find?_map]
      rfl
    rw [hfind] at hentry
    exact entryHolds_seen (fun t ht => ha.values t (List.mem_of_find?_eq_some ht)) hentry
  unfold contextSeen WireAddr.context
  rw [htlv _ _ h.origSeqnum, htlv _ _ h.targSeqnum, htlv _ _ h.metric,
    show cont.addr = a.addr from h.addr.trans (netaddr_roundTrip ha.type ha.prefixLen)]

/-- The addresses of a message, one after the other. -/
theorem contextsOf_seen {buf : List UInt8} {addrs : List WireAddr} {conts : List AddrContext}
    (hok : ∀ a ∈ addrs, WireAddr.Ok a)
    (h : List.Forall₂ (fun a cont => ContextOf buf a.writerAddress cont) addrs conts) :
    conts.map contextSeen = addrs.map fun a => contextSeen a.context := by
  induction h with
  | nil => rfl
  | cons hhead _ ih =>
    rw [List.map_cons, List.map_cons, contextOf_seen (hok _ List.mem_cons_self) hhead,
      ih fun a ha => hok a (List.mem_cons_of_mem _ ha)]

/-- A message looks in its packet as it was written. -/
theorem messageOf_seen {buf : List UInt8} {msg : WireMessage} (hok : ∀ a ∈ msg.addrs, WireAddr.Ok a)
    {ctx : MessageContext} (h : MessageOf buf msg.header msg.addresses ctx) :
    SameSeen ctx msg.context where
  msgType := h.msgType
  hopLimit := h.hopLimit
  addrs := by
    obtain ⟨conts, hconts, hall⟩ := h.addrs
    have hseen := contextsOf_seen hok (List.forall₂_map_left_iff.mp hall)
    unfold addrsSeen WireMessage.context
    rw [hconts, List.map_map, List.map_map, List.map_map]
    have hmap := congrArg (List.map (Except.ok : AddrSeen → Except Fault AddrSeen)) hseen
    rw [List.map_map, List.map_map] at hmap
    exact hmap

theorem Writes.length_le {msg : WireMessage} {orig targ : Netaddr} (h : Writes msg orig targ) :
    msg.addresses.length ≤ 2 := by
  have hlen := congrArg List.length h.addrs
  unfold WireMessage.addresses
  rw [List.length_map] at hlen ⊢
  rw [hlen]
  split <;> simp

/-- A message of the writer callbacks has room in the buffers. -/
theorem Writes.hasRoom {msg : WireMessage} {orig targ : Netaddr} (h : Writes msg orig targ) :
    HasRoom packetSize packetSize msg.header msg.addresses := by
  have hcost : ∀ a ∈ msg.addrs,
      a.writerAddress.newCost 15 ≤ 22 + (a.tlvs.map fun t => t.addrtlv.cost).sum := by
    intro a ha
    have htlvs : (a.writerAddress.tlvs.map WriterAddrtlv.cost).sum =
        (a.tlvs.map fun t => t.addrtlv.cost).sum := by
      unfold WireAddr.writerAddress
      dsimp only
      rw [addrtlvTree_of_sorted (h.ok a ha).sorted, List.map_map]
      rfl
    unfold WriterAddress.newCost
    rw [htlvs, if_pos (by decide : 15 > 0)]
    split <;> omega
  have hsum : separateEstimate msg.addresses ≤ 65 := by
    refine Nat.le_trans ?_ h.cost
    unfold separateEstimate WireMessage.addresses
    rw [List.map_map]
    exact List.sum_le_sum hcost
  have hsize : msg.header.size = 7 := rfl
  refine ⟨?_, Nat.le_trans h.length_le (by decide)⟩
  unfold maxAddrSize packetSize
  rw [hsize]
  omega

/-- Two addresses with the same bytes and different prefix lengths. -/
def PrefixClash (orig targ : Netaddr) : Prop := orig.addr = targ.addr ∧ orig ≠ targ

instance (orig targ : Netaddr) : Decidable (PrefixClash orig targ) :=
  inferInstanceAs (Decidable (_ ∧ _))

theorem octets_injective {a b : Ipv6Addr} (h : octets 16 a = octets 16 b) : a = b := by
  rw [← ofOctets_octets (n := 16) a (Nat.le_refl _), h, ofOctets_octets b (Nat.le_refl _)]

theorem Writes.neighboursDiffer_iff {msg : WireMessage} {orig targ : Netaddr}
    (h : Writes msg orig targ) : NeighboursDiffer msg.addresses ↔ ¬ PrefixClash orig targ := by
  have hbytes : msg.addresses.map WriterAddress.addr =
      (msg.addrs.map WireAddr.addr).map fun a => octets 16 a.addr := by
    unfold WireMessage.addresses
    rw [List.map_map, List.map_map]
    rfl
  have hmap : NeighboursDiffer msg.addresses ↔
      (msg.addresses.map WriterAddress.addr).IsChain (· ≠ ·) := by
    unfold NeighboursDiffer
    exact (List.isChain_map _).symm
  rw [hmap, hbytes, h.addrs]
  unfold PrefixClash
  by_cases hsame : orig = targ
  · rw [if_pos hsame]
    exact ⟨fun _ hclash => hclash.2 hsame, fun _ => List.IsChain.singleton _⟩
  · rw [if_neg hsame]
    rw [List.map_cons, List.map_singleton, List.isChain_cons_cons]
    constructor
    · exact fun hne hclash => hne.1 (congrArg (octets 16) hclash.1)
    · exact fun hne => ⟨fun heq => hne ⟨octets_injective heq, hsame⟩, List.IsChain.singleton _⟩

/-- **Handled as it was written.** A message of the writer callbacks has a
packet of at most 128 bytes, and whoever receives it handles the message,
unless its addresses differ in the prefix length alone. Then the writer
reads behind its compression sessions. -/
theorem Writes.packet {msg : WireMessage} {orig targ : Netaddr} (h : Writes msg orig targ) :
    (¬ PrefixClash orig targ → ∃ packet, msg.packet = .ok packet ∧ packet.length ≤ packetSize ∧
      ∀ cfg now sender s, receivePacket cfg now sender packet s =
        afterMessage (consumeMessage cfg now msg.context (handlePacketPrepare sender s))
          fun s => (.ok (), s)) ∧
    (PrefixClash orig targ → msg.packet = .error .bufferOverflow) := by
  obtain ⟨hok, hfault⟩ := @sendMessage_cases 15 packetSize packetSize msg.header
    msg.addresses rfl (by decide) (by decide) h.hasRoom
  rw [h.neighboursDiffer_iff] at hok hfault
  refine ⟨fun hne => ?_, fun hclash => hfault (not_not.mpr hclash)⟩
  obtain ⟨packet, hsent, hlen, ctx, hctx, hrun⟩ := hok hne
  refine ⟨packet, hsent, hlen, fun cfg now sender s => ?_⟩
  unfold receivePacket
  rw [hrun, consumeMessage_alike cfg now (messageOf_seen h.ok hctx)]

end Turpial.Aodvv2
