/-
Turpial.Aodvv2.ReferenceTheorems — the references that the packet buffer
owns.

`aodvv2_buffer_pkt_add` takes a reference with `gnrc_pktbuf_hold`. A
dispatch gives it to `gnrc_netapi_dispatch_send`, which takes it over only
if it reaches a receiver; otherwise the caller still owns it, and
`_send_packet` releases it then. `aodvv2_buffer_dispatch` clears the slot
either way.

§1 has the calls on RIOT's packet buffer and what they do to the
references of the caller, §2 what one call of the packet buffer does, §3
the runs: references are conserved exactly if every packet that is
dispatched reaches a receiver.
-/
import Turpial.Aodvv2.BufferTheorems
import Turpial.Lib.Ledger

namespace Turpial.Aodvv2

open Turpial.Lib

/-! ## §1 References -/

/-- A call that moves a reference to a packet. -/
inductive PktbufCall where
  /-- `gnrc_pktbuf_hold(pkt, 1)` -/
  | hold (pkt : Nat)
  /-- `gnrc_pktbuf_release(pkt)` -/
  | release (pkt : Nat)
  /-- `gnrc_netapi_dispatch_send` with what it returns -/
  | dispatchSend (pkt : Option Nat) (res : Int)
  deriving DecidableEq, Repr

/-- What the caller owns of a packet after the call, less what it owned before. -/
def PktbufCall.taken (pkt : Nat) : PktbufCall → Int
  | .hold p => if p = pkt then 1 else 0
  | .release p => if p = pkt then -1 else 0
  | .dispatchSend p res => if p = some pkt ∧ 1 ≤ res then -1 else 0

/-- The call hands a reference to the packet over, or releases it. -/
def PktbufCall.Gives (pkt : Nat) (c : PktbufCall) : Prop := c.taken pkt = -1

instance (pkt : Nat) (c : PktbufCall) : Decidable (c.Gives pkt) :=
  inferInstanceAs (Decidable (_ = _))

/-- The references taken by several calls. -/
def refsTaken (pkt : Nat) (calls : List PktbufCall) : Int := (calls.map (·.taken pkt)).sum

/-- The end of `_send_packet`: dispatch, and release what reached nobody. -/
def sendPacketCalls (ip : Nat) (res : Int) : List PktbufCall :=
  .dispatchSend (some ip) res :: if res < 1 then [.release ip] else []

/-- The calls of `aodvv2_buffer_pkt_add`. -/
def bufferPktAddCalls (dst : Ipv6Addr) (pkt : Nat) (buf : PacketBuffer) : List PktbufCall :=
  match (bufferPktAdd dst pkt buf).2 with
  | none => []
  | some _ => [.hold pkt]

/-- The calls of one turn of the loop of `aodvv2_buffer_dispatch`. -/
def dispatchSlotCalls (targAddr : Ipv6Addr) (res : Int) (e : BufferedPkt) : List PktbufCall :=
  if e.dst == targAddr then [.dispatchSend e.pkt res] else []

/-- The calls of `aodvv2_buffer_dispatch` on the slots from number `i` on,
where `res` is what the call for each slot returns. -/
def bufferDispatchCalls (targAddr : Ipv6Addr) (res : Nat → Int) : Nat → PacketBuffer →
    List PktbufCall
  | _, [] => []
  | i, e :: buf =>
    dispatchSlotCalls targAddr (res i) e ++ bufferDispatchCalls targAddr res (i + 1) buf

/-- `_send_packet` keeps no reference, whether anybody was reached or not. -/
theorem refsTaken_sendPacket (ip : Nat) (res : Int) : refsTaken ip (sendPacketCalls ip res) = -1 := by
  unfold refsTaken sendPacketCalls
  by_cases hres : res < 1
  · have hnot : ¬ (some ip = some ip ∧ 1 ≤ res) := fun h => by omega
    rw [if_pos hres]
    change (PktbufCall.dispatchSend (some ip) res).taken ip +
      ((PktbufCall.release ip).taken ip + 0) = -1
    unfold PktbufCall.taken
    dsimp only
    rw [if_neg hnot, if_pos rfl]
    rfl
  · have hreached : some ip = some ip ∧ 1 ≤ res := ⟨rfl, by omega⟩
    rw [if_neg hres]
    change (PktbufCall.dispatchSend (some ip) res).taken ip + 0 = -1
    unfold PktbufCall.taken
    dsimp only
    rw [if_pos hreached]
    rfl

/-- What a call passes on to IPv6. -/
def PktbufCall.passed : PktbufCall → Option (Option Nat)
  | .dispatchSend pkt _ => some pkt
  | _ => none

/-- The packets that a dispatch passes on are those of its calls, in order. -/
theorem bufferDispatchCalls_passed (targAddr : Ipv6Addr) (res : Nat → Int) (i : Nat)
    (buf : PacketBuffer) :
    (bufferDispatchCalls targAddr res i buf).filterMap (·.passed) =
      (bufferDispatch targAddr buf).2 := by
  induction buf generalizing i with
  | nil => rfl
  | cons e buf ih =>
    have hrest := ih (i + 1)
    unfold bufferDispatch at hrest ⊢
    unfold bufferDispatchCalls dispatchSlotCalls
    rw [List.filterMap_append, hrest]
    by_cases hdst : e.dst = targAddr
    · rw [if_pos (beq_iff_eq.mpr hdst), List.filter_cons_of_pos (by rw [beq_iff_eq]; exact hdst)]
      rfl
    · rw [if_neg (by rw [beq_iff_eq]; exact hdst),
        List.filter_cons_of_neg (by rw [beq_iff_eq]; exact hdst)]
      rfl

/-! ## §2 The references of the buffer -/

/-- A slot holds a packet exactly while it is in use. -/
def SlotOwned (e : BufferedPkt) : Prop := e.used = e.pkt.isSome

/-- The slot is in use and holds the packet. -/
def BufferedPkt.holds (pkt : Nat) (e : BufferedPkt) : Bool := e.used && e.pkt == some pkt

/-- How many slots in use hold the packet. -/
def holding (pkt : Nat) (buf : PacketBuffer) : Int := (buf.countP (·.holds pkt) : Nat)

/-- The slot after a turn of the loop of `aodvv2_buffer_dispatch`. -/
def dispatchSlot (targAddr : Ipv6Addr) (e : BufferedPkt) : BufferedPkt :=
  if e.dst == targAddr then pktDel e else e

/-- The packet of the slot is dispatched and reaches nobody. -/
def SlotLoses (targAddr : Ipv6Addr) (res : Int) (pkt : Nat) (e : BufferedPkt) : Prop :=
  e.holds pkt = true ∧ e.dst = targAddr ∧ res < 1

instance (targAddr : Ipv6Addr) (res : Int) (pkt : Nat) (e : BufferedPkt) :
    Decidable (SlotLoses targAddr res pkt e) :=
  inferInstanceAs (Decidable (_ ∧ _))

/-- How many references to the packet are neither handed over nor released
when the slots from number `i` on are dispatched. -/
def lostRefs (targAddr : Ipv6Addr) (res : Nat → Int) (pkt : Nat) : Nat → PacketBuffer → Nat
  | _, [] => 0
  | i, e :: buf =>
    (if SlotLoses targAddr (res i) pkt e then 1 else 0) + lostRefs targAddr res pkt (i + 1) buf

theorem lostRefs_cons (targAddr : Ipv6Addr) (res : Nat → Int) (pkt i : Nat) (e : BufferedPkt)
    (buf : PacketBuffer) : lostRefs targAddr res pkt i (e :: buf) =
      (if SlotLoses targAddr (res i) pkt e then 1 else 0) +
        lostRefs targAddr res pkt (i + 1) buf := rfl

section Slots

variable (targAddr : Ipv6Addr) (pkt : Nat)

theorem bufferInit_owned {n : Nat} : ∀ e ∈ bufferInit n, SlotOwned e := by
  intro e he
  rw [List.eq_of_mem_replicate he]
  rfl

theorem dispatchSlot_owned {e : BufferedPkt} (h : SlotOwned e) :
    SlotOwned (dispatchSlot targAddr e) := by
  unfold dispatchSlot pktDel
  split
  · split
    · rfl
    · exact h
  · exact h

/-- A slot without a packet has no reference, and none is taken. -/
theorem dispatchSlot_refs_free (dst : Ipv6Addr) (res : Int) :
    (dispatchSlot targAddr ⟨false, none, dst⟩).holds pkt = false ∧
      ¬ SlotLoses targAddr res pkt ⟨false, none, dst⟩ ∧
      refsTaken pkt (dispatchSlotCalls targAddr res ⟨false, none, dst⟩) = 0 := by
  have hslot : dispatchSlot targAddr ⟨false, none, dst⟩ = ⟨false, none, dst⟩ := ite_self _
  refine ⟨by rw [hslot]; rfl, fun h => absurd h.1 Bool.false_ne_true, ?_⟩
  unfold dispatchSlotCalls
  split
  · rfl
  · rfl

/-- What a slot holds and what is lost of it is what it held and what was
taken of it. -/
theorem dispatchSlot_refs {e : BufferedPkt} (h : SlotOwned e) (res : Int) :
    (if (dispatchSlot targAddr e).holds pkt then 1 else 0 : Int) +
        (if SlotLoses targAddr res pkt e then 1 else 0) =
      (if e.holds pkt then 1 else 0) + refsTaken pkt (dispatchSlotCalls targAddr res e) := by
  obtain ⟨used, p, dst⟩ := e
  cases p with
  | none =>
    obtain rfl : used = false := h
    obtain ⟨hholds, hlost, htaken⟩ := dispatchSlot_refs_free targAddr pkt dst res
    rw [hholds, if_neg hlost, htaken]
    rfl
  | some p =>
    obtain rfl : used = true := h
    by_cases hp : p = pkt
    · subst hp
      by_cases hdst : dst = targAddr
      · by_cases hres : res < 1
        · simp [dispatchSlot, pktDel, BufferedPkt.holds, SlotLoses, dispatchSlotCalls, refsTaken,
            PktbufCall.taken, hdst, hres, Int.not_le.mpr hres]
        · simp [dispatchSlot, pktDel, BufferedPkt.holds, SlotLoses, dispatchSlotCalls, refsTaken,
            PktbufCall.taken, hdst, hres, Int.not_lt.mp hres]
      · simp [dispatchSlot, BufferedPkt.holds, SlotLoses, dispatchSlotCalls, refsTaken, hdst]
    · by_cases hdst : dst = targAddr
      · simp [dispatchSlot, pktDel, BufferedPkt.holds, SlotLoses, dispatchSlotCalls, refsTaken,
          PktbufCall.taken, hdst, hp]
      · simp [dispatchSlot, BufferedPkt.holds, SlotLoses, dispatchSlotCalls, refsTaken, hdst]

/-- A slot loses nothing exactly if its packet, when dispatched, reaches a receiver. -/
theorem slotLoses_never_iff {e : BufferedPkt} (h : SlotOwned e) (res : Int) :
    (∀ pkt, ¬ SlotLoses targAddr res pkt e) ↔ (e.used = true → e.dst = targAddr → 1 ≤ res) := by
  constructor
  · intro hnone hused hdst
    obtain ⟨p, hp⟩ := Option.isSome_iff_exists.mp (h.symm.trans hused)
    have hholds : e.holds p = true := by
      unfold BufferedPkt.holds
      rw [hused, hp, beq_self_eq_true]
      rfl
    exact Int.not_lt.mp fun hres => hnone p ⟨hholds, hdst, hres⟩
  · rintro hreach pkt ⟨hholds, hdst, hres⟩
    have hused := ((Bool.and_eq_true _ _).mp hholds).1
    exact absurd hres (Int.not_lt.mpr (hreach hused hdst))

end Slots

section Buffer

variable (targAddr : Ipv6Addr) (pkt : Nat) {buf : PacketBuffer}

theorem holding_cons (e : BufferedPkt) :
    holding pkt (e :: buf) = (if e.holds pkt then 1 else 0) + holding pkt buf := by
  unfold holding
  rw [List.countP_cons, Int.natCast_add, Int.add_comm]
  split
  · rfl
  · rfl

theorem holding_init (pkt n : Nat) : holding pkt (bufferInit n) = 0 := by
  unfold holding bufferInit
  rw [List.countP_replicate]
  rfl

theorem refsTaken_append (calls more : List PktbufCall) :
    refsTaken pkt (calls ++ more) = refsTaken pkt calls + refsTaken pkt more := by
  unfold refsTaken
  rw [List.map_append, List.sum_append]

/-- What a buffer holds and what is lost by a dispatch is what it held and
what was taken. -/
theorem bufferDispatch_refs (h : ∀ e ∈ buf, SlotOwned e) (res : Nat → Int) (i : Nat) :
    holding pkt (bufferDispatch targAddr buf).1 + lostRefs targAddr res pkt i buf =
      holding pkt buf + refsTaken pkt (bufferDispatchCalls targAddr res i buf) := by
  induction buf generalizing i with
  | nil => rfl
  | cons e buf ih =>
    have hslot := dispatchSlot_refs targAddr pkt (h e List.mem_cons_self) (res i)
    have hrest := ih (fun e he => h e (List.mem_cons_of_mem _ he)) (i + 1)
    have hcons : (bufferDispatch targAddr (e :: buf)).1 =
        dispatchSlot targAddr e :: (bufferDispatch targAddr buf).1 := rfl
    unfold lostRefs bufferDispatchCalls
    rw [hcons, holding_cons, holding_cons, refsTaken_append]
    push_cast
    omega

/-- No reference is lost exactly if every packet that is dispatched reaches
a receiver. -/
theorem lostRefs_eq_zero_iff (h : ∀ e ∈ buf, SlotOwned e) (res : Nat → Int) (i : Nat) :
    (∀ pkt, lostRefs targAddr res pkt i buf = 0) ↔
      ∀ j e, buf[j]? = some e → e.used = true → e.dst = targAddr → 1 ≤ res (i + j) := by
  induction buf generalizing i with
  | nil =>
    constructor
    · intro _ j e hj
      cases hj
    · intro _ pkt
      rfl
  | cons e buf ih =>
    have hslot := slotLoses_never_iff targAddr (h e List.mem_cons_self) (res i)
    have hrest := ih (fun e he => h e (List.mem_cons_of_mem _ he)) (i + 1)
    have hsplit : (∀ pkt, lostRefs targAddr res pkt i (e :: buf) = 0) ↔
        (∀ pkt, ¬ SlotLoses targAddr (res i) pkt e) ∧
          ∀ pkt, lostRefs targAddr res pkt (i + 1) buf = 0 := by
      rw [← forall_and]
      refine forall_congr' fun pkt => ?_
      rw [lostRefs_cons, Nat.add_eq_zero_iff]
      refine and_congr_left fun _ => ?_
      split
      · rename_i hloses
        exact ⟨fun h => absurd h Nat.one_ne_zero, fun h => absurd hloses h⟩
      · rename_i hkeeps
        exact ⟨fun _ => hkeeps, fun _ => rfl⟩
    rw [hsplit, hslot, hrest]
    constructor
    · rintro ⟨hhead, htail⟩ j f hj
      cases j with
      | zero =>
        cases hj
        exact hhead
      | succ j =>
        have := htail j f hj
        rwa [Nat.add_assoc, Nat.add_comm 1 j] at this
    · intro hall
      refine ⟨hall 0 e rfl, fun j f hj => ?_⟩
      rw [Nat.add_assoc, Nat.add_comm 1 j]
      exact hall (j + 1) f hj

theorem bufferPktAdd_owned (dst : Ipv6Addr) (p : Nat) (h : ∀ e ∈ buf, SlotOwned e) :
    ∀ e ∈ (bufferPktAdd dst p buf).1, SlotOwned e :=
  bufferPktAdd_forall rfl h

/-- An accepted packet is held once more, with a reference of its own. -/
theorem bufferPktAdd_refs (dst : Ipv6Addr) (p : Nat) :
    holding pkt (bufferPktAdd dst p buf).1 =
      holding pkt buf + refsTaken pkt (bufferPktAddCalls dst p buf) := by
  unfold bufferPktAddCalls
  cases hadd : (bufferPktAdd dst p buf).2 with
  | none =>
    rw [(bufferPktAdd_none hadd).1]
    exact (Int.add_zero _).symm
  | some i =>
    obtain ⟨e, he, hfree, heq⟩ := bufferPktAdd_some hadd
    obtain ⟨hlt, rfl⟩ := List.getElem?_eq_some_iff.mp he
    have hold : (buf[i]).holds pkt = false := by
      unfold BufferedPkt.holds
      rw [hfree]
      rfl
    have hnew : (⟨true, some p, dst⟩ : BufferedPkt).holds pkt = decide (p = pkt) := by
      unfold BufferedPkt.holds
      exact Bool.eq_iff_iff.mpr (by simp)
    have htaken : refsTaken pkt [.hold p] = if p = pkt then 1 else 0 := Int.add_zero _
    unfold holding
    rw [heq, List.countP_set hlt, hold, hnew, htaken]
    by_cases hp : p = pkt
    · simp [hp]
    · simp [hp]

end Buffer

/-! ## §3 Runs -/

/-- A call on the buffer, with what the calls for the slots return in a dispatch. -/
inductive PacketOp where
  | add (dst : Ipv6Addr) (pkt : Nat)
  | dispatch (targAddr : Ipv6Addr) (res : Nat → Int)

/-- The call without the results. -/
def PacketOp.op : PacketOp → BufferOp
  | .add dst pkt => .add dst pkt
  | .dispatch targAddr _ => .dispatch targAddr

/-- The buffer after a call. -/
def packetStep (c : PacketOp) (buf : PacketBuffer) : PacketBuffer := bufferStep c.op buf

/-- The calls that a call makes for one slot which it empties. -/
def PacketOp.slotCalls : PacketOp → Nat → BufferedPkt → List PktbufCall
  | .add .., _, _ => []
  | .dispatch targAddr res, i, e => dispatchSlotCalls targAddr (res i) e

/-- All the calls that a call makes. -/
def PacketOp.calls : PacketOp → PacketBuffer → List PktbufCall
  | .add dst pkt, buf => bufferPktAddCalls dst pkt buf
  | .dispatch targAddr res, buf => bufferDispatchCalls targAddr res 0 buf

/-- Every slot that the call empties has its reference handed over or released. -/
def EmptiesRightly (c : PacketOp) (buf : PacketBuffer) : Prop :=
  ∀ i e e' pkt, buf[i]? = some e → e.holds pkt = true → (packetStep c buf)[i]? = some e' →
    e'.used = false → ∃ call ∈ c.slotCalls i e, call.Gives pkt

/-- References are conserved in a run of calls on a buffer of `n` slots. -/
structure ReferencesConserved (n : Nat) (ops : List PacketOp) : Prop where
  emptied : Along packetStep EmptiesRightly ops (bufferInit n)
  owned : ∀ before, before <+: ops → ∀ pkt,
    entered packetStep (fun c buf => refsTaken pkt (c.calls buf)) before (bufferInit n) =
      holding pkt (run packetStep before (bufferInit n))

/-- Every packet that the call dispatches reaches a receiver. -/
def ReachesReceivers : PacketOp → PacketBuffer → Prop
  | .add .., _ => True
  | .dispatch targAddr res, buf =>
    ∀ i e, buf[i]? = some e → e.used = true → e.dst = targAddr → 1 ≤ res i

theorem packetStep_owned (c : PacketOp) {buf : PacketBuffer} (h : ∀ e ∈ buf, SlotOwned e) :
    ∀ e ∈ packetStep c buf, SlotOwned e := by
  cases c with
  | add dst pkt => exact bufferPktAdd_owned dst pkt h
  | dispatch targAddr res =>
    intro e he
    obtain ⟨e₀, he₀, rfl⟩ := List.mem_map.mp he
    exact dispatchSlot_owned targAddr (h e₀ he₀)

/-- A call accounts for the references to every packet exactly if all that
it dispatches reaches a receiver. -/
theorem packetStep_accounts_iff (c : PacketOp) {buf : PacketBuffer} (h : ∀ e ∈ buf, SlotOwned e) :
    (∀ pkt, Accounts packetStep (fun c buf => refsTaken pkt (c.calls buf)) (holding pkt) c buf) ↔
      ReachesReceivers c buf := by
  cases c with
  | add dst p => exact ⟨fun _ => trivial, fun _ pkt => bufferPktAdd_refs pkt dst p⟩
  | dispatch targAddr res =>
    have hzero := lostRefs_eq_zero_iff targAddr h res 0
    have hrefs : ∀ pkt, Accounts packetStep (fun c buf => refsTaken pkt (c.calls buf))
        (holding pkt) (.dispatch targAddr res) buf ↔ lostRefs targAddr res pkt 0 buf = 0 := by
      intro pkt
      have hbalance := bufferDispatch_refs targAddr pkt h res 0
      change holding pkt (bufferDispatch targAddr buf).1 =
        holding pkt buf + refsTaken pkt (bufferDispatchCalls targAddr res 0 buf) ↔ _
      omega
    simp only [Nat.zero_add] at hzero
    exact (forall_congr' hrefs).trans hzero

/-- A slot that is emptied is one that is dispatched. -/
theorem emptiesRightly_of_reaches {c : PacketOp} {buf : PacketBuffer}
    (hreach : ReachesReceivers c buf) : EmptiesRightly c buf := by
  intro i e e' pkt he hholds he' hfree
  obtain ⟨hused, hpkt⟩ := (Bool.and_eq_true _ _).mp hholds
  cases c with
  | add dst p =>
    change (bufferPktAdd dst p buf).1[i]? = some e' at he'
    cases hadd : (bufferPktAdd dst p buf).2 with
    | none =>
      rw [(bufferPktAdd_none hadd).1, he] at he'
      cases he'
      rw [hused] at hfree
      cases hfree
    | some j =>
      obtain ⟨-, -, -, heq⟩ := bufferPktAdd_some hadd
      rw [heq] at he'
      rcases getElem?_written_cases he' with ⟨rfl, rfl⟩ | ⟨-, hsame⟩
      · cases hfree
      · rw [he] at hsame
        cases hsame
        rw [hused] at hfree
        cases hfree
  | dispatch targAddr res =>
    have hslot : e' = dispatchSlot targAddr e := by
      have hmap := (bufferDispatch_getElem? i).symm.trans he'
      rw [he] at hmap
      exact (Option.some.inj hmap).symm
    have hdst : e.dst = targAddr := by
      by_contra hne
      rw [hslot, dispatchSlot, if_neg (by rw [beq_iff_eq]; exact hne), hused] at hfree
      cases hfree
    refine ⟨.dispatchSend e.pkt (res i), ?_, ?_⟩
    · change _ ∈ dispatchSlotCalls targAddr (res i) e
      unfold dispatchSlotCalls
      rw [if_pos (beq_iff_eq.mpr hdst)]
      exact List.mem_singleton_self _
    · exact if_pos ⟨beq_iff_eq.mp hpkt, hreach i e he hused hdst⟩

/-- **The references of the buffer are conserved throughout a run exactly
if every packet that is dispatched in it reaches a receiver.** -/
theorem references_conserved_iff (n : Nat) (ops : List PacketOp) :
    ReferencesConserved n ops ↔ Along packetStep ReachesReceivers ops (bufferInit n) := by
  have howned : (∀ before, before <+: ops → ∀ pkt,
      entered packetStep (fun c buf => refsTaken pkt (c.calls buf)) before (bufferInit n) =
        holding pkt (run packetStep before (bufferInit n))) ↔
      Along packetStep ReachesReceivers ops (bufferInit n) := by
    have hkeep : ∀ (c : PacketOp) (buf : PacketBuffer), (∀ e ∈ buf, SlotOwned e) →
        ∀ e ∈ packetStep c buf, SlotOwned e := fun c _ => packetStep_owned c
    have hcalls : ∀ (c : PacketOp) (buf : PacketBuffer), (∀ e ∈ buf, SlotOwned e) →
        ((∀ pkt, Accounts packetStep (fun c buf => refsTaken pkt (c.calls buf)) (holding pkt) c
          buf) ↔ ReachesReceivers c buf) := fun c _ => packetStep_accounts_iff c
    have hempty : ∀ pkt, holding pkt (bufferInit n) = 0 := fun pkt => holding_init pkt n
    rw [← along_congr hkeep hcalls ops bufferInit_owned, along_forall]
    simp only [← balanced_iff, hempty, Int.zero_add]
    exact ⟨fun h pkt before hbefore => (h before hbefore pkt).symm,
      fun h before hbefore pkt => (h pkt before hbefore).symm⟩
  constructor
  · exact fun h => howned.mp h.owned
  · intro h
    exact ⟨h.mono fun c buf => emptiesRightly_of_reaches, howned.mpr h⟩

/-- A buffered packet whose dispatch reaches nobody: the slot is empty, and
the reference is still the buffer's. -/
theorem references_not_conserved :
    ¬ ReferencesConserved 10 [.add 1 7, .dispatch 1 fun _ => 0] := by
  intro h
  have howned := h.owned [.add 1 7, .dispatch 1 fun _ => 0] (List.prefix_refl _) 7
  exact absurd howned (by decide)

end Turpial.Aodvv2
