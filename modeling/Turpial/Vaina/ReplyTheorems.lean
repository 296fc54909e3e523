/-
Turpial.Vaina.ReplyTheorems — what a reply of the VAINA server means.

A datagram that does not parse is passed over in silence. Any other gets
one reply with its sequence number, and `TruthfulReply` says what may be
concluded from it. That an acknowledged deletion leaves no match behind
rests on the client set holding each prefix once, so the statement is about
the client sets that calls can lead to.
-/
import Turpial.Aodvv2.RcsTheorems
import Turpial.Vaina.FormatTheorems

namespace Turpial.Vaina

open Turpial.Lib Turpial.Aodvv2

variable {ν : Type} {api : NibApi ν} {pid : Nat}

/-- An addition to the forwarding table that fails leaves it alone. -/
def FtAddKeeps (api : NibApi ν) : Prop :=
  ∀ dst dstLen nextHop iface ltime nib, (api.ftAdd dst dstLen nextHop iface ltime nib).1 < 0 →
    (api.ftAdd dst dstLen nextHop iface ltime nib).2 = nib

/-- The request is one for the client set. -/
def RequestKind.forClients : RequestKind → Bool
  | .rcsAdd => true
  | .rcsDel => true
  | .nibAdd => false
  | .nibDel => false

/-- What a reply to a request says about the server before and after. -/
structure TruthfulReply (r : Request) (s s' : VainaServer ν) (ack : UInt8) : Prop where
  type : ack = vainaMsgAck ∨ ack = vainaMsgNack
  nack : ack = vainaMsgNack → s' = s
  rcsAdd : ack = vainaMsgAck → r.kind = .rcsAdd →
    (rcsMatches r.addr r.pfxLen s'.rcs).isSome = true
  rcsDel : ack = vainaMsgAck → r.kind = .rcsDel → rcsMatches r.addr r.pfxLen s'.rcs = none
  nib_kept : r.kind.forClients = true → s'.nib = s.nib
  rcs_kept : r.kind.forClients = false → s'.rcs = s.rcs

/-- The type of the reply to a result. -/
def ackType (result : Except Errno Unit) : UInt8 :=
  if result.toBool then vainaMsgAck else vainaMsgNack

theorem nack_ne_ack : vainaMsgNack ≠ vainaMsgAck := by decide

/-- A request that changes nothing is refused truthfully. -/
theorem truthful_refused (r : Request) (s : VainaServer ν) :
    TruthfulReply r s s vainaMsgNack where
  type := Or.inr rfl
  nack _ := rfl
  rcsAdd hack := absurd hack nack_ne_ack
  rcsDel hack := absurd hack nack_ne_ack
  nib_kept _ := rfl
  rcs_kept _ := rfl

/-- One for the forwarding table that leaves the client set is acknowledged
truthfully. -/
theorem truthful_forwarding {r : Request} {s s' : VainaServer ν} (hkind : r.kind.forClients = false)
    (hrcs : s'.rcs = s.rcs) : TruthfulReply r s s' vainaMsgAck where
  type := Or.inl rfl
  nack hnack := absurd hnack.symm nack_ne_ack
  rcsAdd _ hk := by
    rw [hk] at hkind
    cases hkind
  rcsDel _ hk := by
    rw [hk] at hkind
    cases hkind
  nib_kept hclients := by
    rw [hkind] at hclients
    cases hclients
  rcs_kept _ := hrcs

/-- Performing a request on a well-formed client set. -/
theorem Request.perform_truthful (hadd : FtAddKeeps api) (r : Request) {s : VainaServer ν} {n : Nat}
    {set : BoundedSet ClientPrefix n} (h : RcsInv s.rcs set) :
    TruthfulReply r s (r.perform api pid s).2 (ackType (r.perform api pid s).1) := by
  obtain ⟨k, addr, pfxLen⟩ := r
  cases k with
  | rcsAdd =>
    have hout := h.add addr pfxLen 1
    unfold Request.perform
    dsimp only
    generalize Aodvv2.rcsAdd addr pfxLen 1 s.rcs = result at hout ⊢
    cases hout with
    | refused hadmits => exact truthful_refused _ s
    | added hadmits inv client hcost slot =>
      have hmem : ClientPrefix.of addr pfxLen ∈ set.add (ClientPrefix.of addr pfxLen) := by
        change _ ∈ (set.add (ClientPrefix.of addr pfxLen)).elems
        rw [BoundedSet.add_of_admits hadmits]
        exact Finset.mem_insert_self _ _
      exact {
        type := Or.inl rfl
        nack := fun hnack => absurd hnack.symm nack_ne_ack
        rcsAdd := fun _ _ => (inv.matches_isSome_iff addr pfxLen).mpr hmem
        rcsDel := fun _ hk => nomatch hk
        nib_kept := fun _ => rfl
        rcs_kept := fun hk => absurd hk.symm Bool.false_ne_true }
  | rcsDel =>
    have hgone : ClientPrefix.of addr pfxLen ∉ set.del (ClientPrefix.of addr pfxLen) :=
      Finset.notMem_erase _ _
    rw [← (h.del addr pfxLen).matches_isSome_iff, Option.not_isSome_iff_eq_none] at hgone
    exact {
      type := Or.inl rfl
      nack := fun hnack => absurd hnack.symm nack_ne_ack
      rcsAdd := fun _ hk => nomatch hk
      rcsDel := fun _ _ => hgone
      nib_kept := fun _ => rfl
      rcs_kept := fun hk => absurd hk.symm Bool.false_ne_true }
  | nibAdd =>
    unfold Request.perform
    dsimp only
    by_cases hneg : (api.ftAdd addr pfxLen vainaNextHop pid 0 s.nib).1 < 0
    · rw [if_pos hneg, hadd _ _ _ _ _ _ hneg]
      exact truthful_refused _ s
    · rw [if_neg hneg]
      exact truthful_forwarding rfl rfl
  | nibDel => exact truthful_forwarding rfl rfl

/-- A datagram that does not parse changes nothing and gets no reply. -/
theorem vainaThread_rejected {r : Received} {buf : List UInt8} {e : Errno} (hbuf : r.buf = some buf)
    (hparse : parseMsg buf = .error e) (s : VainaServer ν) : vainaThread api pid r s = (s, []) := by
  unfold vainaThread
  rw [hbuf]
  dsimp only
  rw [hparse]
  split
  · rfl
  · split
    · rfl
    · rfl

/-- One that does parse is processed and answered. -/
theorem vainaThread_accepted (api : NibApi ν) (pid : Nat) {r : Received}
    (h : r.netif = pid ∨ r.netif = 0) {buf : List UInt8}
    {msg : VainaMsg} (hbuf : r.buf = some buf) (hparse : parseMsg buf = .ok msg)
    (s : VainaServer ν) : vainaThread api pid r s =
      ((processMsg api pid msg s).2, [[ackType (processMsg api pid msg s).1, msg.seqno]]) := by
  have hlen : buf.length ≠ 0 := by
    intro h0
    rw [List.length_eq_zero_iff.mp h0] at hparse
    cases hparse
  unfold vainaThread
  rw [if_neg (by rcases h with h | h <;> simp [h]), hbuf]
  dsimp only
  rw [if_neg hlen, hparse]
  rfl

/-- **The replies of the server are truthful**, whatever the datagram and the
forwarding table, and whatever calls the client set has seen. -/
theorem replies_truthful (api : NibApi ν) (pid : Nat) (hadd : FtAddKeeps api) (n : Nat)
    (calls : List RcsCall) (nib : ν) (r : Received) (buf : List UInt8)
    (hnetif : r.netif = pid ∨ r.netif = 0) (hbuf : r.buf = some buf) :
    (∀ e, parseMsg buf = .error e →
      vainaThread api pid r ⟨run rcsStep calls (rcsInit n), nib⟩ =
        (⟨run rcsStep calls (rcsInit n), nib⟩, [])) ∧
    (∀ msg, parseMsg buf = .ok msg →
      ∃ k ack s', buf.getD 0 0 = RequestKind.type k ∧
        vainaThread api pid r ⟨run rcsStep calls (rcsInit n), nib⟩ =
          (s', [[ack, buf.getD 1 0]]) ∧
        TruthfulReply (requestOf buf k) ⟨run rcsStep calls (rcsInit n), nib⟩ s' ack) := by
  refine ⟨fun e he => vainaThread_rejected hbuf he _, fun msg hmsg => ?_⟩
  rcases parseMsg_cases buf with ⟨k, v, htype, -, hparse, hseqno, hrequest⟩ | ⟨-, herror⟩
  · rw [hmsg] at hparse
    cases hparse
    have hthread := vainaThread_accepted api pid hnetif hbuf hmsg
      ⟨run rcsStep calls (rcsInit n), nib⟩
    rw [processMsg_request api pid hrequest, hseqno] at hthread
    exact ⟨k, _, _, htype, hthread,
      Request.perform_truthful hadd _ (rcsInv_run n calls)⟩
  · rw [hmsg] at herror
    cases herror

/-- A forwarding table with room for two entries. -/
def sampleApi : NibApi (List (Ipv6Addr × UInt8)) where
  ftAdd dst dstLen _ _ _ nib := if nib.length < 2 then (0, (dst, dstLen) :: nib) else (-1, nib)
  ftDel dst dstLen nib := nib.erase (dst, dstLen)

theorem sampleApi_keeps : FtAddKeeps sampleApi := by
  intro dst dstLen nextHop iface ltime nib hneg
  unfold sampleApi at hneg ⊢
  dsimp only at hneg ⊢
  split
  · rename_i hroom
    rw [if_pos hroom] at hneg
    exact absurd hneg (Int.lt_irrefl 0)
  · rfl

/-- A client that is added, and then deleted by a request. -/
theorem replies_truthful_rcs_del :
    ∃ k ack s', (Message.rcsDel 9 64 1#128).serialize.getD 0 0 = RequestKind.type k ∧
      vainaThread sampleApi 5 ⟨5, some (Message.rcsDel 9 64 1#128).serialize⟩
        ⟨run rcsStep [.add 1#128 64 1] (rcsInit 2), []⟩ =
          (s', [[ack, (Message.rcsDel 9 64 1#128).serialize.getD 1 0]]) ∧
      TruthfulReply (requestOf (Message.rcsDel 9 64 1#128).serialize k)
        ⟨run rcsStep [.add 1#128 64 1] (rcsInit 2), []⟩ s' ack :=
  (replies_truthful sampleApi 5 sampleApi_keeps 2 [.add 1#128 64 1] []
    ⟨5, some (Message.rcsDel 9 64 1#128).serialize⟩ _ (Or.inl rfl) rfl).2 _ rfl

end Turpial.Vaina
