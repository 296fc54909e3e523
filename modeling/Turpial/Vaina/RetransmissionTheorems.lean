/-
Turpial.Vaina.RetransmissionTheorems — what a refused `VAINA_MSG_RCS_ADD`
says about the client set.

The server takes every NULL of `aodvv2_rcs_add` for a full client set. But
`aodvv2_rcs_add` also returns NULL for a prefix that is in the set already,
so a client that sends its request again, because the acknowledgement was
lost, is told that there is no room.

§1 is one delivery, §2 the same datagram delivered over and over.
-/
import Turpial.Vaina.ReplyTheorems

namespace Turpial.Vaina

open Turpial.Lib Turpial.Aodvv2

/-- The client set holds the prefix. -/
def HoldsClient (p : ClientPrefix) (rcs : RouterClientSet) : Prop := ∃ e ∈ rcs, e.client? = some p

/-- Every slot of the client set is in use. -/
def ClientsFull (rcs : RouterClientSet) : Prop := ∀ e ∈ rcs, e.used = true

instance (rcs : RouterClientSet) : Decidable (ClientsFull rcs) :=
  inferInstanceAs (Decidable (∀ e ∈ rcs, e.used = true))

/-! ## §1 One delivery -/

/-- A well-formed datagram that asks for a client. -/
structure IsRcsAdd (pid : Nat) (r : Received) (buf : List UInt8) : Prop where
  netif : r.netif = pid ∨ r.netif = 0
  type : buf.getD 0 0 = vainaMsgRcsAdd
  length : 3 + sizeofIpv6Addr ≤ buf.length
  bytes : r.buf = some buf

/-- The prefix that a datagram asks for. -/
def prefixIn (buf : List UInt8) : ClientPrefix := ClientPrefix.of (addrOf buf) (buf.getD 2 0)

section Delivery

variable {ν : Type} {api : NibApi ν} {pid : Nat} {r : Received} {buf : List UInt8}

/-- In a set that holds its prefixes once, `aodvv2_rcs_add` finds room exactly
if there is a free slot. -/
theorem clientsFull_iff {n : Nat} {rcs : RouterClientSet} {set : BoundedSet ClientPrefix n}
    (h : RcsInv rcs set) : ClientsFull rcs ↔ ¬ set.elems.card < n := by
  rw [h.represents.card_lt_iff]
  constructor
  · rintro hfull ⟨e, he, hnone⟩
    rw [client?_eq_none (h.slots e he), hfull e he] at hnone
    cases hnone
  · intro hnone e he
    by_contra hunused
    exact hnone ⟨e, he, (client?_eq_none (h.slots e he)).mpr (Bool.eq_false_iff.mpr hunused)⟩

/-- The reply to a result that depends on a test. -/
theorem ackType_ite (b : Bool) (e : Errno) :
    ackType (if b then .ok () else .error e) = if b then vainaMsgAck else vainaMsgNack := by
  cases b with
  | true => rfl
  | false => rfl

/-- **One delivery** is answered by what `aodvv2_rcs_add` returns. -/
theorem vainaThread_rcsAdd (hr : IsRcsAdd pid r buf) (s : VainaServer ν) :
    vainaThread api pid r s =
      ({ s with rcs := (rcsAdd (addrOf buf) (buf.getD 2 0) 1 s.rcs).1 },
        [[if (rcsAdd (addrOf buf) (buf.getD 2 0) 1 s.rcs).2.isSome then vainaMsgAck
          else vainaMsgNack, buf.getD 1 0]]) := by
  rcases parseMsg_cases buf with ⟨k, v, htype, -, hparse, hseqno, hrequest⟩ | ⟨hshort | hkind, -⟩
  · obtain rfl : k = .rcsAdd := by
      have hsome := requestKind?_eq_some.mpr htype
      rw [hr.type] at hsome
      exact (Option.some.inj hsome).symm
    have hperform : Request.perform api pid (requestOf buf .rcsAdd) s =
        (if (rcsAdd (addrOf buf) (buf.getD 2 0) 1 s.rcs).2.isSome then .ok () else .error .enospc,
          { s with rcs := (rcsAdd (addrOf buf) (buf.getD 2 0) 1 s.rcs).1 }) := rfl
    rw [vainaThread_accepted api pid hr.netif hr.bytes hparse, hseqno,
      processMsg_request api pid hrequest, hperform, ackType_ite]
  · exact absurd hr.length (Nat.not_le_of_lt hshort)
  · rw [hr.type] at hkind
    cases hkind

/-- A request is refused and changes nothing, because the prefix is there
already or there is no room; or the prefix is added, and the request is
refused when it comes again. -/
theorem vainaThread_answers (api : NibApi ν) (hr : IsRcsAdd pid r buf) {n : Nat} {rcs : RouterClientSet}
    {set : BoundedSet ClientPrefix n} (h : RcsInv rcs set) (nib : ν) :
    vainaThread api pid r ⟨rcs, nib⟩ = (⟨rcs, nib⟩, [[vainaMsgNack, buf.getD 1 0]]) ∧
        (HoldsClient (prefixIn buf) rcs ∨ ClientsFull rcs) ∨
      ¬ HoldsClient (prefixIn buf) rcs ∧ ¬ ClientsFull rcs ∧
        ∃ rcs', vainaThread api pid r ⟨rcs, nib⟩ = (⟨rcs', nib⟩, [[vainaMsgAck, buf.getD 1 0]]) ∧
          vainaThread api pid r ⟨rcs', nib⟩ = (⟨rcs', nib⟩, [[vainaMsgNack, buf.getD 1 0]]) ∧
          HoldsClient (prefixIn buf) rcs' := by
  have hmem : HoldsClient (prefixIn buf) rcs ↔ prefixIn buf ∈ set := h.represents.mem_iff.symm
  have hfull := clientsFull_iff h
  rw [vainaThread_rcsAdd hr]
  have hout := h.add (addrOf buf) (buf.getD 2 0) 1
  dsimp only
  generalize rcsAdd (addrOf buf) (buf.getD 2 0) 1 rcs = result at hout ⊢
  cases hout with
  | refused hadmits =>
    refine Or.inl ⟨rfl, ?_⟩
    by_cases hholds : HoldsClient (prefixIn buf) rcs
    · exact Or.inl hholds
    · exact Or.inr (hfull.mpr fun hlt => hadmits ⟨fun hin => hholds (hmem.mpr hin), hlt⟩)
  | @added i e hadmits inv client hcost slot =>
    refine Or.inr ⟨fun hholds => hadmits.1 (hmem.mp hholds), fun hall => hfull.mp hall hadmits.2,
      rcs.set i e, rfl, ?_, e, List.mem_set slot e, client⟩
    -- The prefix is in the set now, so the next request for it is refused.
    have hin := inv.represents.mem_iff.mpr ⟨e, List.mem_set slot e, client⟩
    rw [vainaThread_rcsAdd hr]
    have hout' := inv.add (addrOf buf) (buf.getD 2 0) 1
    dsimp only
    generalize rcsAdd (addrOf buf) (buf.getD 2 0) 1 (rcs.set i e) = result at hout' ⊢
    cases hout' with
    | refused _ => rfl
    | added hadmits' => exact absurd hin hadmits'.1

end Delivery

/-! ## §2 The same datagram over and over -/

section Deliveries

variable {ν : Type} (api : NibApi ν) (pid : Nat) (r : Received)

/-- The server after `j` deliveries of a datagram. -/
def afterDeliveries (j : Nat) (s : VainaServer ν) : VainaServer ν :=
  run (fun r s => (vainaThread api pid r s).1) (List.replicate j r) s

/-- What delivery number `j`, counted from zero, is answered. -/
def replyTo (j : Nat) (s : VainaServer ν) : List (List UInt8) :=
  (vainaThread api pid r (afterDeliveries api pid r j s)).2

/-- `k` deliveries of a request for a client are answered as they should be. -/
structure AddAnswered (buf : List UInt8) (k : Nat) (s : VainaServer ν) : Prop where
  /-- A refusal is for lack of room. -/
  refused : ∀ j < k, replyTo api pid r j s = [[vainaMsgNack, buf.getD 1 0]] →
    ClientsFull (afterDeliveries api pid r j s).rcs ∧
      ¬ HoldsClient (prefixIn buf) (afterDeliveries api pid r j s).rcs
  /-- What is acknowledged once is acknowledged each time. -/
  repeated : replyTo api pid r 0 s = [[vainaMsgAck, buf.getD 1 0]] →
    ∀ j < k, replyTo api pid r j s = [[vainaMsgAck, buf.getD 1 0]]
  /-- All deliveries together leave the same set as one. -/
  same : ∀ j, 1 ≤ j → j ≤ k →
    (afterDeliveries api pid r j s).rcs = (afterDeliveries api pid r 1 s).rcs

variable {api pid r} {buf : List UInt8} {s : VainaServer ν}

theorem afterDeliveries_succ (j : Nat) :
    afterDeliveries api pid r (j + 1) s =
      (vainaThread api pid r (afterDeliveries api pid r j s)).1 := by
  unfold afterDeliveries
  rw [List.replicate_succ', run_append]
  rfl

/-- A server that a delivery leaves alone is left alone by all of them. -/
theorem afterDeliveries_of_unchanged (h : (vainaThread api pid r s).1 = s) (j : Nat) :
    afterDeliveries api pid r j s = s := by
  induction j with
  | zero => rfl
  | succ j ih => rw [afterDeliveries_succ, ih, h]

/-- A datagram that is refused is refused each time, which is right only in
a full set without the prefix. -/
theorem addAnswered_of_nack (h : vainaThread api pid r s = (s, [[vainaMsgNack, buf.getD 1 0]]))
    (k : Nat) : AddAnswered api pid r buf k s ↔
      k = 0 ∨ ClientsFull s.rcs ∧ ¬ HoldsClient (prefixIn buf) s.rcs := by
  have hafter : ∀ j, afterDeliveries api pid r j s = s := afterDeliveries_of_unchanged (by rw [h])
  have hreply : ∀ j, replyTo api pid r j s = [[vainaMsgNack, buf.getD 1 0]] := by
    intro j
    unfold replyTo
    rw [hafter, h]
  constructor
  · intro hanswered
    rcases Nat.eq_zero_or_pos k with rfl | hpos
    · exact Or.inl rfl
    · have hrefused := hanswered.refused 0 hpos (hreply 0)
      rw [hafter] at hrefused
      exact Or.inr hrefused
  · intro hright
    refine ⟨fun j hj _ => ?_, fun hack => ?_, fun j _ _ => by rw [hafter, hafter]⟩
    · rw [hafter]
      exact hright.resolve_left (Nat.ne_of_gt (Nat.zero_lt_of_lt hj))
    · rw [hreply] at hack
      cases hack

/-- A datagram that adds the prefix is refused from then on, which is wrong. -/
theorem addAnswered_of_ack {s' : VainaServer ν}
    (h : vainaThread api pid r s = (s', [[vainaMsgAck, buf.getD 1 0]]))
    (hagain : vainaThread api pid r s' = (s', [[vainaMsgNack, buf.getD 1 0]]))
    (hholds : HoldsClient (prefixIn buf) s'.rcs) (k : Nat) :
    AddAnswered api pid r buf k s ↔ k ≤ 1 := by
  have hone : afterDeliveries api pid r 1 s = s' := congrArg Prod.fst h
  constructor
  · intro hanswered
    by_contra hmore
    have hreply : replyTo api pid r 1 s = [[vainaMsgNack, buf.getD 1 0]] := by
      unfold replyTo
      rw [hone, hagain]
    have hrefused := hanswered.refused 1 (Nat.lt_of_not_le hmore) hreply
    rw [hone] at hrefused
    exact hrefused.2 hholds
  · intro hk
    have hzero : ∀ j < k, j = 0 := fun j hj => by omega
    have hreply : replyTo api pid r 0 s = [[vainaMsgAck, buf.getD 1 0]] := congrArg Prod.snd h
    refine ⟨fun j hj hnack => ?_, fun _ j hj => ?_, fun j hj hle => ?_⟩
    · rw [hzero j hj, hreply] at hnack
      cases hnack
    · rw [hzero j hj]
      exact hreply
    · rw [Nat.le_antisymm (Nat.le_trans hle hk) hj]

/-- **Requests to add a client are answered as they should be exactly if**
the client set does not hold the prefix, and has no free slot for it where
the request comes more than once. -/
theorem addAnswered_iff (api : NibApi ν) (pid : Nat) {r : Received} {buf : List UInt8}
    (hr : IsRcsAdd pid r buf) (n : Nat) (calls : List RcsCall) (nib : ν) (k : Nat) :
    AddAnswered api pid r buf k ⟨run rcsStep calls (rcsInit n), nib⟩ ↔
      k = 0 ∨ ¬ HoldsClient (prefixIn buf) (run rcsStep calls (rcsInit n)) ∧
        (k = 1 ∨ ClientsFull (run rcsStep calls (rcsInit n))) := by
  have hinv := rcsInv_run n calls
  generalize run rcsStep calls (rcsInit n) = rcs at hinv ⊢
  generalize run clientSetStep calls (BoundedSet.empty ClientPrefix n) = set at hinv
  rcases vainaThread_answers api hr hinv nib with
    ⟨hnack, hwhy⟩ | ⟨hnew, hroom, rcs', hack, hagain, hholds⟩
  · rw [addAnswered_of_nack hnack]
    refine or_congr_right ⟨fun h => ⟨h.2, Or.inr h.1⟩, fun h => ⟨hwhy.resolve_left h.1, h.1⟩⟩
  · rw [addAnswered_of_ack hack hagain hholds]
    constructor
    · intro hk
      rcases Nat.le_one_iff_eq_zero_or_eq_one.mp hk with h | h
      · exact Or.inl h
      · exact Or.inr ⟨hnew, Or.inl h⟩
    · rintro (h | ⟨-, h | h⟩)
      · exact Nat.le_one_iff_eq_zero_or_eq_one.mpr (Or.inl h)
      · exact Nat.le_of_eq h
      · exact absurd h hroom

end Deliveries

/-- One delivery to an empty set is answered as it should be. -/
theorem addAnswered_once :
    AddAnswered sampleApi 5 ⟨5, some (Message.rcsAdd 9 64 1#128).serialize⟩
        (Message.rcsAdd 9 64 1#128).serialize 1 ⟨run rcsStep [] (rcsInit 2), []⟩ ↔
      1 = 0 ∨ ¬ HoldsClient (prefixIn (Message.rcsAdd 9 64 1#128).serialize)
          (run rcsStep [] (rcsInit 2)) ∧ (1 = 1 ∨ ClientsFull (run rcsStep [] (rcsInit 2))) :=
  addAnswered_iff sampleApi 5 ⟨Or.inl rfl, rfl, by decide, rfl⟩ 2 [] [] 1

/-- The second delivery is refused, and one of the two slots is free. -/
theorem addAnswered_not_twice :
    ¬ AddAnswered sampleApi 5 ⟨5, some (Message.rcsAdd 9 64 1#128).serialize⟩
        (Message.rcsAdd 9 64 1#128).serialize 2 ⟨run rcsStep [] (rcsInit 2), []⟩ := by
  intro h
  exact absurd (h.refused 1 (by decide) (by decide +kernel)).1 (by decide +kernel)

end Turpial.Vaina
