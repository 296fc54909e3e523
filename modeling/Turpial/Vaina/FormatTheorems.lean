/-
Turpial.Vaina.FormatTheorems — who speaks the format of the VAINA server.

A `Request` is what a message asks for, without its layout. The server
reads one off a parsed message through the member of the payload that
belongs to the type (`VainaMsg.request?`), and `processMsg` performs it;
that the parser may have filled another member does not matter, as they
share one layout. §1 and §2 say so once, together with what exactly the
parser accepts.

§3: the host tool and the server agree in both directions. §4: the client
of the ESP32 firmware does not write the prefix length of a request for
the client set, and the server takes none of these.
-/
import Turpial.Vaina.Peers

namespace Turpial.Vaina

open Turpial.Lib Turpial.Aodvv2

/-! ## §1 Requests -/

/-- What a message can ask for. -/
inductive RequestKind where
  | rcsAdd
  | rcsDel
  | nibAdd
  | nibDel
  deriving DecidableEq, Repr

/-- A request: a prefix and what to do with it. -/
structure Request where
  kind : RequestKind
  addr : Ipv6Addr
  pfxLen : UInt8
  deriving DecidableEq, Repr

/-- The message type of a request. -/
def RequestKind.type : RequestKind → UInt8
  | .rcsAdd => vainaMsgRcsAdd
  | .rcsDel => vainaMsgRcsDel
  | .nibAdd => vainaMsgNibAdd
  | .nibDel => vainaMsgNibDel

/-- The member of the payload that the server reads for it. -/
def RequestKind.member : RequestKind → Member
  | .rcsAdd => .rcsAdd
  | .rcsDel => .rcsDel
  | .nibAdd => .nibAdd
  | .nibDel => .nibDel

/-- The request of a message type. -/
def requestKind? (type : UInt8) : Option RequestKind :=
  if type = vainaMsgRcsAdd then some .rcsAdd
  else if type = vainaMsgRcsDel then some .rcsDel
  else if type = vainaMsgNibAdd then some .nibAdd
  else if type = vainaMsgNibDel then some .nibDel
  else none

theorem requestKind?_type (k : RequestKind) : requestKind? k.type = some k := by
  cases k <;> rfl

theorem requestKind?_eq_some {type : UInt8} {k : RequestKind} :
    requestKind? type = some k ↔ type = k.type := by
  constructor
  · intro h
    unfold requestKind? at h
    split at h
    · rename_i ht
      cases h
      exact ht
    · split at h
      · rename_i ht
        cases h
        exact ht
      · split at h
        · rename_i ht
          cases h
          exact ht
        · split at h
          · rename_i ht
            cases h
            exact ht
          · cases h
  · rintro rfl
    exact requestKind?_type k

/-- The request in a message, as `_process_msg` reads it. -/
def VainaMsg.request? (m : VainaMsg) : Option Request :=
  (requestKind? m.msg).map fun k => ⟨k, m.ip k.member, m.pfxLen k.member⟩

/-- A message has the type of its request. -/
theorem VainaMsg.msg_of_request {m : VainaMsg} {r : Request} (h : m.request? = some r) :
    m.msg = r.kind.type := by
  obtain ⟨k, hk, rfl⟩ := Option.map_eq_some_iff.mp h
  exact requestKind?_eq_some.mp hk

/-- What a request does to the server. -/
def Request.perform {ν : Type} (api : NibApi ν) (pid : Nat) (r : Request) (s : VainaServer ν) :
    Except Errno Unit × VainaServer ν :=
  match r.kind with
  | .rcsAdd =>
    let added := rcsAdd r.addr r.pfxLen 1 s.rcs
    (if added.2.isSome then .ok () else .error .enospc, { s with rcs := added.1 })
  | .rcsDel => (.ok (), { s with rcs := rcsDel r.addr r.pfxLen s.rcs })
  | .nibAdd =>
    let added := api.ftAdd r.addr r.pfxLen vainaNextHop pid 0 s.nib
    (if added.1 < 0 then .error .enomem else .ok (), { s with nib := added.2 })
  | .nibDel => (.ok (), { s with nib := api.ftDel r.addr r.pfxLen s.nib })

/-- `_process_msg` performs the request of the message. -/
theorem processMsg_request {ν : Type} (api : NibApi ν) (pid : Nat) {m : VainaMsg} {r : Request}
    (hr : m.request? = some r) (s : VainaServer ν) : processMsg api pid m s = r.perform api pid s := by
  obtain ⟨k, hk, rfl⟩ := Option.map_eq_some_iff.mp hr
  have htype := requestKind?_eq_some.mp hk
  cases k with
  | rcsAdd =>
    change m.msg = vainaMsgRcsAdd at htype
    unfold processMsg
    rw [if_pos htype]
    unfold Request.perform RequestKind.member
    dsimp only
    generalize rcsAdd (m.ip .rcsAdd) (m.pfxLen .rcsAdd) 1 s.rcs = added
    obtain ⟨rcs, _ | i⟩ := added
    · rfl
    · rfl
  | rcsDel =>
    change m.msg = vainaMsgRcsDel at htype
    unfold processMsg
    rw [if_neg (by rw [htype]; decide), if_pos htype]
    rfl
  | nibAdd =>
    change m.msg = vainaMsgNibAdd at htype
    unfold processMsg
    rw [if_neg (by rw [htype]; decide), if_neg (by rw [htype]; decide), if_pos htype]
    unfold Request.perform RequestKind.member
    dsimp only
    split
    · rfl
    · rfl
  | nibDel =>
    change m.msg = vainaMsgNibDel at htype
    unfold processMsg
    rw [if_neg (by rw [htype]; decide), if_neg (by rw [htype]; decide),
      if_neg (by rw [htype]; decide), if_pos htype]
    rfl

/-! ## §2 What the server parses -/

/-- The address in the bytes of a datagram. -/
def addrOf (buf : List UInt8) : Ipv6Addr := ofOctets 128 ((buf.drop 3).take sizeofIpv6Addr)

/-- The request in a datagram, by its bytes. -/
def requestOf (buf : List UInt8) (k : RequestKind) : Request := ⟨k, addrOf buf, buf.getD 2 0⟩

/-- All members read what any of them was filled with. -/
theorem request?_fill {m : VainaMsg} {k : RequestKind} (hk : m.msg = k.type) (k' : RequestKind)
    (pfxLen : UInt8) {ip : List UInt8}
    (hip : ip.length = sizeofIpv6Addr) :
    (m.fill k'.member pfxLen ip).request? = some ⟨k, ofOctets 128 ip, pfxLen⟩ := by
  have hlayout : ∀ j : RequestKind, j.member = ⟨0, 1⟩ := fun j => by cases j <;> rfl
  have haddr : (m.fill ⟨0, 1⟩ pfxLen ip).ip ⟨0, 1⟩ = ofOctets 128 ip := by
    unfold VainaMsg.ip VainaMsg.fill
    rw [← hip]
    exact congrArg (ofOctets 128) (Memory.load_store _ _ _)
  have hlen : (m.fill ⟨0, 1⟩ pfxLen ip).pfxLen ⟨0, 1⟩ = pfxLen := rfl
  unfold VainaMsg.request?
  rw [show (m.fill k'.member pfxLen ip).msg = k.type from hk, requestKind?_type]
  rw [Option.map_some, hlayout k, hlayout k', haddr, hlen]

/-- `_parse_msg` accepts a datagram exactly when it is long enough for a
request and has the type of one, and reads that request off it. -/
theorem parseMsg_cases (buf : List UInt8) :
    (∃ k v, buf.getD 0 0 = RequestKind.type k ∧ 3 + sizeofIpv6Addr ≤ buf.length ∧
      parseMsg buf = .ok v ∧ v.seqno = buf.getD 1 0 ∧ v.request? = some (requestOf buf k)) ∨
    (buf.length < 3 + sizeofIpv6Addr ∨ requestKind? (buf.getD 0 0) = none) ∧
      parseMsg buf = .error .einval := by
  unfold parseMsg
  dsimp only
  by_cases hlen : buf.length < 2 + 1 + sizeofIpv6Addr
  · refine Or.inr ⟨Or.inl hlen, ?_⟩
    split
    · rfl
    · split
      · rfl
      · split
        · rfl
        · rfl
  have hip : ((buf.drop 3).take sizeofIpv6Addr).length = sizeofIpv6Addr := by
    rw [List.length_take, List.length_drop]
    unfold sizeofIpv6Addr at hlen ⊢
    omega
  rw [if_neg (by unfold sizeofIpv6Addr at hlen; omega), if_neg hlen]
  have hle : 3 + sizeofIpv6Addr ≤ buf.length := Nat.le_of_not_lt hlen
  -- One accepting branch: `k` is the type, `k'` the member that is filled.
  have haccept : ∀ k k' : RequestKind, buf.getD 0 0 = k.type →
      ∃ k₀ v, buf.getD 0 0 = RequestKind.type k₀ ∧ 3 + sizeofIpv6Addr ≤ buf.length ∧
        (Except.ok (ε := Errno) ((⟨buf.getD 0 0, buf.getD 1 0, Memory.zeroed⟩ : VainaMsg).fill
          k'.member (buf.getD 2 0) ((buf.drop 3).take sizeofIpv6Addr))) = .ok v ∧
        v.seqno = buf.getD 1 0 ∧ v.request? = some (requestOf buf k₀) :=
    fun k k' htype => ⟨k, _, htype, hle, rfl, rfl, request?_fill htype k' _ hip⟩
  split
  · rename_i htype
    left
    split
    · rename_i hadd
      exact haccept .rcsAdd .rcsAdd hadd
    · rename_i hadd
      exact haccept .rcsDel .rcsDel (htype.resolve_left hadd)
  · rename_i hrcs
    split
    · rename_i htype
      left
      split
      · rename_i hadd
        exact absurd (Or.inl hadd) hrcs
      · rcases htype with htype | htype
        · exact haccept .nibAdd .nibDel htype
        · exact haccept .nibDel .nibDel htype
    · rename_i hnib
      refine Or.inr ⟨Or.inr ?_, rfl⟩
      unfold requestKind?
      rw [if_neg fun h => hrcs (Or.inl h), if_neg fun h => hrcs (Or.inr h),
        if_neg fun h => hnib (Or.inl h), if_neg fun h => hnib (Or.inr h)]

/-- A request as bytes, followed by anything. -/
theorem parseMsg_request (k : RequestKind) (seqno pfxLen : UInt8) {ip : List UInt8}
    (hip : ip.length = sizeofIpv6Addr) :
    ∃ v, parseMsg ([k.type, seqno, pfxLen] ++ ip) = .ok v ∧ v.seqno = seqno ∧
      v.request? = some ⟨k, ofOctets 128 ip, pfxLen⟩ := by
  have htake : (([k.type, seqno, pfxLen] ++ ip).drop 3).take sizeofIpv6Addr = ip := by
    rw [← hip]
    exact List.take_length
  have hlen : 3 + sizeofIpv6Addr ≤ ([k.type, seqno, pfxLen] ++ ip).length := by
    rw [List.length_append, hip]
    exact Nat.le_refl _
  rcases parseMsg_cases ([k.type, seqno, pfxLen] ++ ip) with
    ⟨k', v, htype, -, hparse, hseqno, hrequest⟩ | ⟨hshort | hkind, -⟩
  · have hk : k' = k := by
      have hsome := requestKind?_eq_some.mpr htype
      rw [show ([k.type, seqno, pfxLen] ++ ip).getD 0 0 = k.type from rfl, requestKind?_type] at hsome
      exact (Option.some.inj hsome).symm
    subst hk
    unfold requestOf addrOf at hrequest
    rw [htake] at hrequest
    exact ⟨v, hparse, hseqno, hrequest⟩
  · exact absurd hlen (Nat.not_le_of_lt hshort)
  · rw [show ([k.type, seqno, pfxLen] ++ ip).getD 0 0 = k.type from rfl, requestKind?_type] at hkind
    cases hkind

/-! ## §3 The host tool -/

/-- The request of a message of the host tool. -/
def Message.request? : Message → Option Request
  | .ack _ => none
  | .nack _ => none
  | .rcsAdd _ pfx ip => some ⟨.rcsAdd, ip, pfx⟩
  | .rcsDel _ pfx ip => some ⟨.rcsDel, ip, pfx⟩
  | .nibAdd _ pfx ip => some ⟨.nibAdd, ip, pfx⟩
  | .nibDel _ pfx ip => some ⟨.nibDel, ip, pfx⟩

/-- The message of the host tool for a request. -/
def Request.message (r : Request) (seqno : UInt8) : Message :=
  match r.kind with
  | .rcsAdd => .rcsAdd seqno r.pfxLen r.addr
  | .rcsDel => .rcsDel seqno r.pfxLen r.addr
  | .nibAdd => .nibAdd seqno r.pfxLen r.addr
  | .nibDel => .nibDel seqno r.pfxLen r.addr

theorem Message.request?_eq_some {m : Message} {r : Request} :
    m.request? = some r ↔ m = r.message m.seqno := by
  obtain ⟨k, addr, pfxLen⟩ := r
  cases m <;> cases k <;> simp [Message.request?, Request.message, Message.seqno, and_comm]

/-- A message that is not an acknowledgement is a request. -/
theorem Message.exists_request {m : Message} (h : m.isAck = false) : ∃ r, m.request? = some r := by
  cases m with
  | ack => cases h
  | nack => cases h
  | rcsAdd => exact ⟨_, rfl⟩
  | rcsDel => exact ⟨_, rfl⟩
  | nibAdd => exact ⟨_, rfl⟩
  | nibDel => exact ⟨_, rfl⟩

theorem Request.message_seqno (r : Request) (seqno : UInt8) : (r.message seqno).seqno = seqno := by
  obtain ⟨k, addr, pfxLen⟩ := r
  cases k <;> rfl

theorem Request.message_isAck (r : Request) (seqno : UInt8) : (r.message seqno).isAck = false := by
  obtain ⟨k, addr, pfxLen⟩ := r
  cases k <;> rfl

theorem Request.serialize_message (r : Request) (seqno : UInt8) :
    (r.message seqno).serialize = [r.kind.type, seqno, r.pfxLen] ++ octets sizeofIpv6Addr r.addr := by
  obtain ⟨k, addr, pfxLen⟩ := r
  cases k <;> rfl

/-- A list of at least three bytes, taken apart. -/
theorem eq_cons_of_length {buf : List UInt8} (h : buf.length = 3 + sizeofIpv6Addr) :
    buf = [buf.getD 0 0, buf.getD 1 0, buf.getD 2 0] ++ (buf.drop 3).take sizeofIpv6Addr := by
  match buf, h with
  | a :: b :: c :: rest, h =>
    have hrest : rest.length = sizeofIpv6Addr := by
      simp only [List.length_cons] at h
      omega
    simp [← hrest]

/-- **The host tool and the server speak one format.** The server decodes
what the host tool writes, and each 19-byte datagram it accepts is what the
host tool writes for exactly one message, the decoded one. -/
theorem hostTool_roundTrip :
    (∀ m : Message, m.isAck = false → ∃ v r, parseMsg m.serialize = .ok v ∧
      v.seqno = m.seqno ∧ v.msg = r.kind.type ∧ v.request? = some r ∧ m.request? = some r) ∧
    (∀ buf v, buf.length = 19 → parseMsg buf = .ok v →
      ∃ m : Message, (m.isAck = false ∧ m.serialize = buf) ∧ v.seqno = m.seqno ∧
        v.request? = m.request? ∧ ∀ m' : Message, m'.isAck = false ∧ m'.serialize = buf → m' = m) := by
  have hforward : ∀ m : Message, m.isAck = false → ∃ v r, parseMsg m.serialize = .ok v ∧
      v.seqno = m.seqno ∧ v.msg = r.kind.type ∧ v.request? = some r ∧ m.request? = some r := by
    intro m hm
    obtain ⟨r, hr⟩ := Message.exists_request hm
    obtain ⟨v, hparse, hseqno, hrequest⟩ := parseMsg_request r.kind m.seqno r.pfxLen
      (octets_length sizeofIpv6Addr r.addr)
    rw [ofOctets_octets r.addr (Nat.le_refl 128)] at hrequest
    refine ⟨v, r, ?_, hseqno, VainaMsg.msg_of_request hrequest, hrequest, hr⟩
    rw [Message.request?_eq_some.mp hr, Request.serialize_message]
    exact hparse
  refine ⟨hforward, fun buf v hlen hparse => ?_⟩
  rcases parseMsg_cases buf with ⟨k, v', htype, -, hparse', hseqno, hrequest⟩ | ⟨-, herror⟩
  · rw [hparse] at hparse'
    cases hparse'
    have hbytes : ((requestOf buf k).message (buf.getD 1 0)).serialize = buf := by
      have hip : ((buf.drop 3).take sizeofIpv6Addr).length = sizeofIpv6Addr := by
        rw [List.length_take, List.length_drop, hlen]
        rfl
      rw [Request.serialize_message]
      conv_rhs => rw [eq_cons_of_length hlen]
      change [k.type, _, _] ++ octets sizeofIpv6Addr (ofOctets 128 _) = _
      have hoctets := octets_ofOctets (w := 128) ((buf.drop 3).take sizeofIpv6Addr)
        (by rw [hip]; exact Nat.le_refl 128)
      rw [hip] at hoctets
      rw [hoctets, htype]
      rfl
    have hack := (requestOf buf k).message_isAck (buf.getD 1 0)
    refine ⟨(requestOf buf k).message (buf.getD 1 0), ⟨hack, hbytes⟩, ?_, ?_, ?_⟩
    · rw [hseqno, Request.message_seqno]
    · rw [hrequest, eq_comm, Message.request?_eq_some, Request.message_seqno]
    · rintro m' ⟨hack', hbytes'⟩
      obtain ⟨v', r, hparse', hseqno', -, hrequest', hr⟩ := hforward m' hack'
      rw [hbytes', hparse] at hparse'
      cases hparse'
      rw [hrequest] at hrequest'
      cases hrequest'
      rw [Message.request?_eq_some.mp hr, ← hseqno', hseqno]
  · rw [hparse] at herror
    cases herror

/-! ## §4 The client of the ESP32 firmware -/

/-- The address in a message of the client, by its type. -/
def Wifi.VainaMsg.addr (m : Wifi.VainaMsg) : RequestKind → Ipv6Addr
  | .rcsAdd => ofOctets 128 (m.ipBytes rcsAddIp)
  | .rcsDel => ofOctets 128 (m.ipBytes rcsDelIp)
  | .nibAdd => ofOctets 128 (m.ipBytes nibAdd.ip)
  | .nibDel => ofOctets 128 (m.ipBytes nibDel.ip)

/-- The prefix length in it, where it has one. -/
def Wifi.VainaMsg.pfxLen? (m : Wifi.VainaMsg) : RequestKind → Option UInt8
  | .rcsAdd => none
  | .rcsDel => none
  | .nibAdd => some (m.payload nibAdd.pfxLen)
  | .nibDel => some (m.payload nibDel.pfxLen)

/-- The server understands a request of the client: it parses the bytes,
finds the same sequence number, address and prefix length (if there is
one), and performs the request. -/
def Understood (m : Wifi.VainaMsg) (k : RequestKind) : Prop :=
  ∃ buf v r, Wifi.serializeMsg m = some buf ∧ parseMsg buf = .ok v ∧ v.msg = m.msg ∧
    v.seqno = m.seqno ∧ v.request? = some r ∧ r.kind = k ∧ r.addr = m.addr k ∧
    (∀ pfxLen ∈ m.pfxLen? k, r.pfxLen = pfxLen) ∧
    ∀ (ν : Type) (api : NibApi ν) (pid : Nat) (s : VainaServer ν),
      processMsg api pid v s = r.perform api pid s

/-- The requests of the client for the NIB. -/
theorem understood_of_nib {m : Wifi.VainaMsg} {k : RequestKind} (hm : m.msg = k.type)
    (hk : k = .nibAdd ∨ k = .nibDel) : Understood m k := by
  have hbytes : Wifi.serializeMsg m = some ([k.type, m.seqno, m.payload 0] ++ m.ipBytes 1) := by
    unfold Wifi.serializeMsg
    rcases hk with rfl | rfl
    · change m.msg = vainaMsgNibAdd at hm
      rw [if_neg (by rw [hm]; decide), if_neg (by rw [hm]; decide), if_pos hm, hm]
      rfl
    · change m.msg = vainaMsgNibDel at hm
      rw [if_neg (by rw [hm]; decide), if_neg (by rw [hm]; decide), if_neg (by rw [hm]; decide),
        if_pos hm, hm]
      rfl
  obtain ⟨v, hparse, hseqno, hrequest⟩ := @parseMsg_request k m.seqno (m.payload 0)
    (m.ipBytes 1) (Memory.load_length _ _ _)
  have htype : v.msg = k.type := VainaMsg.msg_of_request hrequest
  refine ⟨_, v, _, hbytes, hparse, htype.trans hm.symm, hseqno, hrequest, rfl, ?_, ?_, ?_⟩
  · rcases hk with rfl | rfl
    · rfl
    · rfl
  · intro pfxLen hpfx
    rcases hk with rfl | rfl
    · exact Option.some.inj hpfx
    · exact Option.some.inj hpfx
  · intro ν api pid s
    exact processMsg_request api pid hrequest s

/-- Its requests for the client set are one byte too short. -/
theorem not_understood_of_rcs {m : Wifi.VainaMsg} {k : RequestKind} (hm : m.msg = k.type)
    (hk : k = .rcsAdd ∨ k = .rcsDel) : ¬ Understood m k := by
  rintro ⟨buf, v, r, hbytes, hparse, -⟩
  have hlen : buf.length = 2 + sizeofIpv6Addr := by
    unfold Wifi.serializeMsg at hbytes
    rcases hk with rfl | rfl
    · change m.msg = vainaMsgRcsAdd at hm
      rw [if_pos hm] at hbytes
      cases hbytes
      rw [List.length_append]
      exact congrArg (2 + ·) (Memory.load_length _ _ _)
    · change m.msg = vainaMsgRcsDel at hm
      rw [if_neg (by rw [hm]; decide), if_pos hm] at hbytes
      cases hbytes
      rw [List.length_append]
      exact congrArg (2 + ·) (Memory.load_length _ _ _)
  rcases parseMsg_cases buf with ⟨k', v', -, hle, -⟩ | ⟨-, herror⟩
  · omega
  · rw [hparse] at herror
    cases herror

/-- **The server understands the client's requests for the NIB**, and only those. -/
theorem client_understood_iff (m : Wifi.VainaMsg) (k : RequestKind) (hm : m.msg = k.type) :
    Understood m k ↔ k = .nibAdd ∨ k = .nibDel := by
  constructor
  · intro h
    cases k with
    | rcsAdd => exact absurd h (not_understood_of_rcs hm (Or.inl rfl))
    | rcsDel => exact absurd h (not_understood_of_rcs hm (Or.inr rfl))
    | nibAdd => exact Or.inl rfl
    | nibDel => exact Or.inr rfl
  · exact understood_of_nib hm

/-- A request of the client with sequence number 7. In the members for the NIB
its payload is the prefix `2001:db8::/64`. -/
def sampleClientMsg (k : RequestKind) : Wifi.VainaMsg where
  msg := k.type
  seqno := 7
  payload := Memory.zeroed.store 0 [64, 0x20, 0x01, 0x0d, 0xb8]

theorem client_understood_nib_add :
    Understood (sampleClientMsg .nibAdd) .nibAdd :=
  (client_understood_iff (sampleClientMsg .nibAdd) .nibAdd rfl).mpr (Or.inl rfl)

/-- The server refuses the first request for the client set. -/
theorem client_rcs_add_refused :
    ¬ Understood (sampleClientMsg .rcsAdd) .rcsAdd ∧
      ∃ buf, Wifi.serializeMsg (sampleClientMsg .rcsAdd) = some buf ∧
        parseMsg buf = .error .einval :=
  ⟨not_understood_of_rcs rfl (Or.inl rfl), _, rfl, rfl⟩

end Turpial.Vaina
