/-
Turpial.Aodvv2.BufferTheorems — the packet buffer is a mailbox.

`aodvv2_buffer_dispatch` compares destinations and does not look at
`used`. That it passes no NULL and no stale packet rests on what a free
slot holds: `aodvv2_buffer_init` and `_pkt_del` leave the unspecified
address there, which no caller dispatches to. `SlotKept` is this invariant
(§1).

With it, the slots in use hold the packets that wait by the history of the
calls, each as often as it was accepted (§2), so that a dispatch passes the
packets accepted for its target since the target's last dispatch. §3 has
the whole contract.
-/
import Turpial.Aodvv2.Sets
import Turpial.Lib.Run
import Turpial.Lib.Slots
import Turpial.Lib.Mailbox

namespace Turpial.Aodvv2

open Turpial.Lib

/-! ## §1 The slots -/

/-- The packet of a slot in use, with its destination. -/
def BufferedPkt.held (e : BufferedPkt) : Option (Ipv6Addr × Nat) :=
  if e.used then e.pkt.map fun pkt => (e.dst, pkt) else none

/-- A slot is free and cleared, or in use with a packet for a specified address. -/
def SlotKept (e : BufferedPkt) : Prop :=
  e = {} ∨ ∃ dst pkt, dst ≠ ipv6AddrUnspecified ∧ e = ⟨true, some pkt, dst⟩

/-- The packets in the buffer, with their destinations. -/
def heldPackets (buf : PacketBuffer) : List (Ipv6Addr × Nat) := buf.filterMap (·.held)

@[simp] theorem held_free : ({} : BufferedPkt).held = none := rfl

@[simp] theorem held_used (pkt : Nat) (dst : Ipv6Addr) :
    (⟨true, some pkt, dst⟩ : BufferedPkt).held = some (dst, pkt) := rfl

theorem bufferInit_kept {n : Nat} : ∀ e ∈ bufferInit n, SlotKept e :=
  fun _ he => Or.inl (List.eq_of_mem_replicate he)

theorem heldPackets_init (n : Nat) : heldPackets (bufferInit n) = [] :=
  keys_of_free fun e he => by rw [List.eq_of_mem_replicate he, held_free]

/-! `aodvv2_buffer_pkt_add` -/

section Add

variable {dst : Ipv6Addr} {pkt : Nat} {buf : PacketBuffer}

/-- The packet goes into a free slot, and nothing else changes. -/
theorem bufferPktAdd_some {i : Nat} (h : (bufferPktAdd dst pkt buf).2 = some i) :
    ∃ e, buf[i]? = some e ∧ e.used = false ∧
      (bufferPktAdd dst pkt buf).1 = buf.set i ⟨true, some pkt, dst⟩ := by
  obtain ⟨e, he, hfree, heq⟩ := fillFree_some _ _ h
  exact ⟨e, he, by simpa using hfree, heq⟩

/-- A refused packet changes nothing, and every slot is in use. -/
theorem bufferPktAdd_none (h : (bufferPktAdd dst pkt buf).2 = none) :
    (bufferPktAdd dst pkt buf).1 = buf ∧ ∀ e ∈ buf, e.used = true := by
  obtain ⟨heq, hfull⟩ := fillFree_none _ _ h
  exact ⟨heq, fun e he => by simpa using hfull e he⟩

/-- What holds of every slot, and of one that is filled with the packet,
holds of every slot afterwards. -/
theorem bufferPktAdd_forall {P : BufferedPkt → Prop} (hfilled : P ⟨true, some pkt, dst⟩)
    (h : ∀ e ∈ buf, P e) : ∀ e ∈ (bufferPktAdd dst pkt buf).1, P e := by
  intro e he
  cases hadd : (bufferPktAdd dst pkt buf).2 with
  | none => exact h e ((bufferPktAdd_none hadd).1 ▸ he)
  | some i =>
    obtain ⟨-, -, -, heq⟩ := bufferPktAdd_some hadd
    rw [heq] at he
    rcases List.mem_or_eq_of_mem_set he with hmem | rfl
    · exact h e hmem
    · exact hfilled

theorem bufferPktAdd_kept (hdst : dst ≠ ipv6AddrUnspecified) (h : ∀ e ∈ buf, SlotKept e) :
    ∀ e ∈ (bufferPktAdd dst pkt buf).1, SlotKept e :=
  bufferPktAdd_forall (Or.inr ⟨dst, pkt, hdst, rfl⟩) h

/-- An accepted packet is one more in the buffer. -/
theorem heldPackets_add {i : Nat} (h : (bufferPktAdd dst pkt buf).2 = some i) :
    List.Perm (heldPackets (bufferPktAdd dst pkt buf).1) (heldPackets buf ++ [(dst, pkt)]) := by
  obtain ⟨e, he, hfree, heq⟩ := bufferPktAdd_some h
  have hnone : e.held = none := by
    unfold BufferedPkt.held
    rw [if_neg (by rw [hfree]; exact Bool.false_ne_true)]
  obtain ⟨rest, hbefore, hafter⟩ :=
    keys_set_perm BufferedPkt.held he (⟨true, some pkt, dst⟩ : BufferedPkt)
  rw [hnone, Option.toList_none, List.nil_append] at hbefore
  rw [held_used, Option.toList_some] at hafter
  rw [heq]
  exact hafter.trans (List.perm_append_comm.trans (hbefore.symm.append_right _))

end Add

/-! `aodvv2_buffer_dispatch` -/

section Dispatch

variable {targAddr : Ipv6Addr} {buf : PacketBuffer}

/-- A slot that is dispatched to a specified target is in use, and cleared. -/
theorem pktDel_of_matches {e : BufferedPkt} (h : SlotKept e)
    (htarg : e.dst ≠ ipv6AddrUnspecified) : pktDel e = {} := by
  rcases h with rfl | ⟨dst, pkt, -, rfl⟩
  · exact absurd rfl htarg
  · rfl

theorem bufferDispatch_getElem? (i : Nat) :
    (bufferDispatch targAddr buf).1[i]? =
      buf[i]?.map fun e => if e.dst == targAddr then pktDel e else e :=
  List.getElem?_map

theorem bufferDispatch_kept (htarg : targAddr ≠ ipv6AddrUnspecified) (h : ∀ e ∈ buf, SlotKept e) :
    ∀ e ∈ (bufferDispatch targAddr buf).1, SlotKept e ∧ e.dst ≠ targAddr := by
  intro e he
  obtain ⟨e₀, he₀, rfl⟩ := List.mem_map.mp he
  by_cases hdst : e₀.dst = targAddr
  · rw [if_pos (beq_iff_eq.mpr hdst), pktDel_of_matches (h e₀ he₀) (hdst ▸ htarg)]
    exact ⟨Or.inl rfl, fun heq => htarg heq.symm⟩
  · rw [if_neg (by rw [beq_iff_eq]; exact hdst)]
    exact ⟨h e₀ he₀, hdst⟩

/-- The packets handed to IPv6 are those the buffer holds for the target. -/
theorem bufferDispatch_passes (htarg : targAddr ≠ ipv6AddrUnspecified)
    (h : ∀ e ∈ buf, SlotKept e) :
    (bufferDispatch targAddr buf).2 =
      ((heldPackets buf).filter fun a => a.1 = targAddr).map fun a => some a.2 := by
  induction buf with
  | nil => rfl
  | cons e buf ih =>
    have hrest := ih fun e he => h e (List.mem_cons_of_mem _ he)
    have hslot := h e List.mem_cons_self
    unfold bufferDispatch heldPackets at hrest ⊢
    rcases hslot with rfl | ⟨dst, pkt, hdst, rfl⟩
    · rw [List.filter_cons_of_neg (by rw [beq_iff_eq]; exact fun heq => htarg heq.symm),
        List.filterMap_cons_none held_free]
      exact hrest
    · rw [List.filterMap_cons_some (held_used pkt dst)]
      by_cases heq : dst = targAddr
      · rw [List.filter_cons_of_pos (by rw [beq_iff_eq]; exact heq),
          List.filter_cons_of_pos (by rw [decide_eq_true_iff]; exact heq)]
        exact congrArg (some pkt :: ·) hrest
      · rw [List.filter_cons_of_neg (by rw [beq_iff_eq]; exact heq),
          List.filter_cons_of_neg (by rw [decide_eq_true_iff]; exact heq)]
        exact hrest

/-- The other packets stay. -/
theorem heldPackets_dispatch (h : ∀ e ∈ buf, SlotKept e) :
    heldPackets (bufferDispatch targAddr buf).1 =
      (heldPackets buf).filter fun a => !decide (a.1 = targAddr) := by
  unfold heldPackets bufferDispatch
  rw [List.filterMap_map, List.filter_filterMap]
  refine List.filterMap_congr fun e he => ?_
  rcases h e he with rfl | ⟨dst, pkt, hdst, rfl⟩
  · exact congrArg BufferedPkt.held (ite_self _)
  · by_cases heq : dst = targAddr
    · simp [heq, pktDel, Option.filter_some]
    · simp [heq, Option.filter_some]

end Dispatch

/-! ## §2 Runs -/

/-- A call on the buffer. -/
inductive BufferOp where
  | add (dst : Ipv6Addr) (pkt : Nat)
  | dispatch (targAddr : Ipv6Addr)
  deriving DecidableEq, Repr

/-- The address a call is about. -/
def BufferOp.addr : BufferOp → Ipv6Addr
  | .add dst _ => dst
  | .dispatch targAddr => targAddr

/-- The buffer after a call. -/
def bufferStep : BufferOp → PacketBuffer → PacketBuffer
  | .add dst pkt, buf => (bufferPktAdd dst pkt buf).1
  | .dispatch targAddr, buf => (bufferDispatch targAddr buf).1

/-- The buffer of `n` slots before call number `k`. -/
def bufferAt (n : Nat) (ops : List BufferOp) (k : Nat) : PacketBuffer :=
  run bufferStep (ops.take k) (bufferInit n)

/-- The packet that call number `k` puts into the buffer, if it accepts one. -/
def acceptedAt (n : Nat) (ops : List BufferOp) (k : Nat) : Option (Ipv6Addr × Nat) :=
  match ops[k]? with
  | some (.add dst pkt) => (bufferPktAdd dst pkt (bufferAt n ops k)).2.map fun _ => (dst, pkt)
  | _ => none

/-- A run of calls as the history of a mailbox: accepted packets are put
in, and a dispatch empties its target. -/
def bufferHistory (n : Nat) (ops : List BufferOp) : MailHistory Ipv6Addr Nat where
  put := acceptedAt n ops
  empties k targAddr := ops[k]? = some (.dispatch targAddr)

section Runs

variable {n : Nat} {ops : List BufferOp} {k : Nat}

theorem bufferAt_succ {op : BufferOp} (h : ops[k]? = some op) :
    bufferAt n ops (k + 1) = bufferStep op (bufferAt n ops k) := by
  unfold bufferAt
  rw [run_take_succ, h]
  rfl

theorem bufferAt_end (h : ops[k]? = none) : bufferAt n ops (k + 1) = bufferAt n ops k := by
  unfold bufferAt
  rw [run_take_succ, h]
  rfl

theorem acceptedAt_add {dst : Ipv6Addr} {pkt : Nat} (h : ops[k]? = some (.add dst pkt)) :
    acceptedAt n ops k = (bufferPktAdd dst pkt (bufferAt n ops k)).2.map fun _ => (dst, pkt) := by
  unfold acceptedAt
  rw [h]

theorem acceptedAt_dispatch {targAddr : Ipv6Addr} (h : ops[k]? = some (.dispatch targAddr)) :
    acceptedAt n ops k = none := by
  unfold acceptedAt
  rw [h]

theorem acceptedAt_end (h : ops[k]? = none) : acceptedAt n ops k = none := by
  unfold acceptedAt
  rw [h]

/-- Only a dispatch takes packets out. -/
theorem waiting_no_dispatch (h : ∀ targAddr, ops[k]? ≠ some (.dispatch targAddr)) :
    (bufferHistory n ops).waiting (k + 1) =
      (bufferHistory n ops).waiting k ++ (acceptedAt n ops k).toList := by
  rw [MailHistory.waiting_succ]
  congr 1
  refine List.filter_eq_self.mpr fun a _ => ?_
  rw [Bool.not_eq_true']
  exact decide_eq_false (h a.1)

theorem bufferHistory_empties {targAddr : Ipv6Addr} (h : ops[k]? = some (.dispatch targAddr))
    (a : Ipv6Addr) : (bufferHistory n ops).empties k a = decide (a = targAddr) := by
  refine decide_eq_decide.mpr ?_
  rw [h, Option.some.injEq, BufferOp.dispatch.injEq]
  exact eq_comm

theorem leaving_dispatch {targAddr : Ipv6Addr} (h : ops[k]? = some (.dispatch targAddr)) :
    (bufferHistory n ops).leaving k =
      ((bufferHistory n ops).waiting k).filter fun a => a.1 = targAddr := by
  rw [MailHistory.leaving_eq]
  simp only [bufferHistory_empties h]

theorem waiting_dispatch {targAddr : Ipv6Addr} (h : ops[k]? = some (.dispatch targAddr)) :
    (bufferHistory n ops).waiting (k + 1) =
      ((bufferHistory n ops).waiting k).filter fun a => !decide (a.1 = targAddr) := by
  have hput : (bufferHistory n ops).put k = none := acceptedAt_dispatch h
  rw [MailHistory.waiting_succ, hput, Option.toList_none, List.append_nil]
  simp only [bufferHistory_empties h]

/-- A free slot is cleared before every call, and the slots in use hold
the packets that wait, each as often as it was accepted. -/
theorem bufferAt_holds (hops : ∀ op ∈ ops, op.addr ≠ ipv6AddrUnspecified) (k : Nat) :
    (∀ e ∈ bufferAt n ops k, SlotKept e) ∧
      List.Perm (heldPackets (bufferAt n ops k)) ((bufferHistory n ops).waiting k) := by
  induction k with
  | zero =>
    refine ⟨bufferInit_kept, ?_⟩
    change List.Perm (heldPackets (bufferInit n)) _
    rw [heldPackets_init, MailHistory.waiting_zero]
  | succ k ih =>
    obtain ⟨hkept, hperm⟩ := ih
    cases hop : ops[k]? with
    | none =>
      rw [bufferAt_end hop, waiting_no_dispatch fun targAddr => by rw [hop]; exact nofun,
        acceptedAt_end hop, Option.toList_none, List.append_nil]
      exact ⟨hkept, hperm⟩
    | some op =>
      have haddr := hops op (List.mem_of_getElem? hop)
      rw [bufferAt_succ hop]
      cases op with
      | add dst pkt =>
        rw [waiting_no_dispatch fun targAddr => by rw [hop]; exact nofun, acceptedAt_add hop]
        refine ⟨bufferPktAdd_kept haddr hkept, ?_⟩
        change List.Perm (heldPackets (bufferPktAdd dst pkt (bufferAt n ops k)).1) _
        cases hadd : (bufferPktAdd dst pkt (bufferAt n ops k)).2 with
        | none =>
          rw [(bufferPktAdd_none hadd).1]
          exact hperm.trans (List.Perm.of_eq (List.append_nil _).symm)
        | some i => exact (heldPackets_add hadd).trans (hperm.append_right _)
      | dispatch targAddr =>
        refine ⟨fun e he => (bufferDispatch_kept haddr hkept e he).1, ?_⟩
        change List.Perm (heldPackets (bufferDispatch targAddr (bufferAt n ops k)).1) _
        rw [waiting_dispatch hop, heldPackets_dispatch hkept]
        exact hperm.filter _

end Runs

/-! ## §3 The contract of the buffer -/

/-- What a run of calls on a buffer of `n` slots keeps to. -/
structure BufferLaw (n : Nat) (ops : List BufferOp) : Prop where
  /-- A dispatch passes the packets that leave the buffer by the history of
  the calls, each as often as it was accepted, and they were accepted for
  its target. -/
  passes : ∀ k targAddr, ops[k]? = some (.dispatch targAddr) →
    List.Perm (bufferDispatch targAddr (bufferAt n ops k)).2
      (((bufferHistory n ops).leaving k).map fun a => some a.2)
  directed : ∀ k targAddr, ops[k]? = some (.dispatch targAddr) →
    ∀ a ∈ (bufferHistory n ops).leaving k, a.1 = targAddr
  /-- What call `j` accepted leaves once at most, and by the first later
  dispatch to its destination. -/
  once : ∀ j k k' a b, j < k → j < k' → (bufferHistory n ops).leavesAt k j = some a →
    (bufferHistory n ops).leavesAt k' j = some b → k = k'
  taken : ∀ j m dst pkt, acceptedAt n ops j = some (dst, pkt) → j < m →
    ops[m]? = some (.dispatch dst) →
    ∃ k, j < k ∧ k ≤ m ∧ (bufferHistory n ops).leavesAt k j = some (dst, pkt)
  /-- No dispatch passes NULL. -/
  not_null : ∀ k targAddr, ops[k]? = some (.dispatch targAddr) →
    none ∉ (bufferDispatch targAddr (bufferAt n ops k)).2
  /-- Afterwards no slot holds a packet for the target, and the slots for
  other destinations are as they were. -/
  cleared : ∀ k targAddr, ops[k]? = some (.dispatch targAddr) →
    ∀ e ∈ bufferAt n ops (k + 1), e.dst ≠ targAddr
  kept : ∀ k targAddr, ops[k]? = some (.dispatch targAddr) → ∀ (i : Nat) (e : BufferedPkt),
    (bufferAt n ops k)[i]? = some e → e.dst ≠ targAddr → (bufferAt n ops (k + 1))[i]? = some e
  /-- A refused packet changes nothing, and every slot holds a packet that waits. -/
  refused : ∀ k dst pkt, ops[k]? = some (.add dst pkt) →
    (bufferPktAdd dst pkt (bufferAt n ops k)).2 = none →
    bufferAt n ops (k + 1) = bufferAt n ops k ∧
      List.Perm ((bufferAt n ops k).map (·.held)) (((bufferHistory n ops).waiting k).map some) ∧
      ((bufferHistory n ops).waiting k).length = n

theorem bufferAt_length (n : Nat) (ops : List BufferOp) (k : Nat) :
    (bufferAt n ops k).length = n := by
  have hstep : ∀ op buf, List.length buf = n → (bufferStep op buf).length = n := by
    intro op buf h
    cases op with
    | add dst pkt => exact (fillFree_length _ _ buf).trans h
    | dispatch targAddr => exact (List.length_map _).trans h
  exact run_invariant_of_step hstep (ops.take k) List.length_replicate

/-- Slots that are all in use hold a packet each. -/
theorem held_of_full {buf : PacketBuffer} (hkept : ∀ e ∈ buf, SlotKept e)
    (hfull : ∀ e ∈ buf, e.used = true) : buf.map (·.held) = (heldPackets buf).map some := by
  induction buf with
  | nil => rfl
  | cons e buf ih =>
    have hrest := ih (fun e he => hkept e (List.mem_cons_of_mem _ he))
      (fun e he => hfull e (List.mem_cons_of_mem _ he))
    rcases hkept e List.mem_cons_self with rfl | ⟨dst, pkt, -, rfl⟩
    · cases hfull {} List.mem_cons_self
    · exact congrArg (some (dst, pkt) :: ·) hrest

/-- The buffer neither loses nor duplicates nor misdirects a packet. -/
theorem bufferLaw (n : Nat) (ops : List BufferOp)
    (hops : ∀ op ∈ ops, op.addr ≠ ipv6AddrUnspecified) : BufferLaw n ops := by
  have hspec : ∀ (k : Nat) (targAddr : Ipv6Addr), ops[k]? = some (.dispatch targAddr) →
      targAddr ≠ ipv6AddrUnspecified :=
    fun k targAddr hop => hops _ (List.mem_of_getElem? hop)
  have hpasses : ∀ k targAddr, ops[k]? = some (.dispatch targAddr) →
      List.Perm (bufferDispatch targAddr (bufferAt n ops k)).2
        (((bufferHistory n ops).leaving k).map fun a => some a.2) := by
    intro k targAddr hop
    obtain ⟨hkept, hperm⟩ := bufferAt_holds (n := n) hops k
    rw [bufferDispatch_passes (hspec k targAddr hop) hkept, leaving_dispatch hop]
    exact (hperm.filter _).map _
  refine ⟨hpasses, ?_, ?_, ?_, ?_, ?_, ?_, ?_⟩
  · intro k targAddr hop a ha
    rw [leaving_dispatch hop, List.mem_filter, decide_eq_true_iff] at ha
    exact ha.2
  · intro j k k' a b hjk hjk' ha hb
    exact MailHistory.leavesAt_unique hjk hjk' ha hb
  · intro j m dst pkt hput hjm hop
    exact MailHistory.exists_leavesAt hput hjm (decide_eq_true hop)
  · intro k targAddr hop hnull
    obtain ⟨pkt, -, heq⟩ := List.mem_map.mp ((hpasses k targAddr hop).mem_iff.mp hnull)
    cases heq
  · intro k targAddr hop e he
    rw [bufferAt_succ hop] at he
    exact (bufferDispatch_kept (hspec k targAddr hop) (bufferAt_holds hops k).1 e he).2
  · intro k targAddr hop i e hi hdst
    rw [bufferAt_succ hop]
    refine (bufferDispatch_getElem? i).trans ?_
    rw [hi]
    exact congrArg some (if_neg (by rw [beq_iff_eq]; exact hdst))
  · intro k dst pkt hop hnone
    obtain ⟨hsame, hfull⟩ := bufferPktAdd_none hnone
    obtain ⟨hkept, hperm⟩ := bufferAt_holds (n := n) hops k
    have hall := held_of_full hkept hfull
    have hmap := hperm.map some
    refine ⟨(bufferAt_succ hop).trans hsame, hall ▸ hmap, ?_⟩
    have hlen := congrArg List.length hall
    rw [List.length_map, List.length_map, bufferAt_length] at hlen
    rw [← hperm.length_eq, ← hlen]

/-- Two packets for one destination, one of them accepted twice, and one
for another destination that a full buffer refuses. -/
def bufferRun : List BufferOp :=
  [.add 1 7, .add 1 7, .add 1 8, .add 2 9, .dispatch 1, .add 2 9, .dispatch 1, .dispatch 2]

theorem bufferLaw_run : (∀ op ∈ bufferRun, op.addr ≠ ipv6AddrUnspecified) ∧
    BufferLaw 3 bufferRun :=
  have hops : ∀ op ∈ bufferRun, op.addr ≠ ipv6AddrUnspecified := by decide
  ⟨hops, bufferLaw 3 bufferRun hops⟩

end Turpial.Aodvv2
