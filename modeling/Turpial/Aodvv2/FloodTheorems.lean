/-
Turpial.Aodvv2.FloodTheorems — the traffic of a discovery comes to an end.

A message in a queue becomes one copy for each neighbour, and a copy that is
delivered becomes one message in a queue at most, with one hop less to go.
So what a message can still cause is a number that depends on its hop limit
and on the number of neighbours alone (`queueWeight`, `flightWeight`). The
weights of all queues and all copies are a potential that pays for every
transmission, delivery and loss, and only a new discovery adds to it
(`traffic_bounded`).
-/
import Turpial.Aodvv2.ReactionTheorems
import Turpial.Aodvv2.Network
import Mathlib.Algebra.Order.BigOperators.Group.Finset
import Mathlib.Order.Lattice.Nat
import Mathlib.Data.Finset.Lattice.Fold

namespace Turpial.Aodvv2

open Turpial.Lib Turpial.Rfc5444
open scoped BigOperators

/-! ## §1 Weights -/

/-- What a copy in flight can cause, with `d` neighbours to each router: its
delivery, and a message in the queue of the receiver. -/
def flightWeight (d : Nat) : Nat → Nat
  | 0 => 1
  | h + 1 => 2 + d * flightWeight d h

/-- What a message in a queue can cause: its transmission, and its copies. -/
def queueWeight (d h : Nat) : Nat := 1 + d * flightWeight d h

theorem flightWeight_succ (d h : Nat) : flightWeight d (h + 1) = 1 + queueWeight d h := by
  unfold queueWeight
  rw [← Nat.add_assoc]
  rfl

theorem flightWeight_pos (d h : Nat) : 1 ≤ flightWeight d h := by
  cases h with
  | zero => exact Nat.le_refl 1
  | succ h =>
    rw [flightWeight_succ]
    exact Nat.le_add_right _ _

/-- The weight of the queue of a router. -/
def Node.weight (d : Nat) (s : Node) : Nat :=
  (s.outbox.map fun o => queueWeight d o.pkt.msgHopLimit.toNat).sum

variable {ι : Type}

/-- The weight of the copies in flight. -/
def transitWeight (d : Nat) (ts : List (Transit ι)) : Nat :=
  (ts.map fun t => flightWeight d t.msg.hopLimit.toNat).sum

theorem transitWeight_append (d : Nat) (ts us : List (Transit ι)) :
    transitWeight d (ts ++ us) = transitWeight d ts + transitWeight d us := by
  unfold transitWeight
  rw [List.map_append, List.sum_append]

/-- Taking a copy out of the air takes its weight away. -/
theorem transitWeight_eraseIdx (d : Nat) {ts : List (Transit ι)} {k : Nat} {t : Transit ι}
    (h : ts[k]? = some t) :
    transitWeight d (ts.eraseIdx k) + flightWeight d t.msg.hopLimit.toNat = transitWeight d ts := by
  induction ts generalizing k with
  | nil => cases h
  | cons u ts ih =>
    unfold transitWeight at ih ⊢
    cases k with
    | zero =>
      cases h
      rw [List.eraseIdx_cons_zero, List.map_cons, List.sum_cons, Nat.add_comm]
    | succ k =>
      have hrest := ih h
      rw [List.eraseIdx_cons_succ, List.map_cons, List.map_cons, List.sum_cons, List.sum_cons]
      omega

/-- The copies of a message all have its hop limit. -/
theorem transitWeight_copies (d : Nat) (net : Network ι) (i : ι)
    (hd : (net.neighbours i).length ≤ d) (dst : Destination) (msg : WireMessage) :
    transitWeight d (net.copies i (dst, msg)) ≤ d * flightWeight d msg.hopLimit.toNat := by
  have hall : ∀ js : List ι, transitWeight d (js.map fun j => (⟨i, j, msg⟩ : Transit ι)) =
      js.length * flightWeight d msg.hopLimit.toNat := by
    intro js
    induction js with
    | nil =>
      rw [List.length_nil, Nat.zero_mul]
      rfl
    | cons j js ih =>
      unfold transitWeight at ih ⊢
      rw [List.map_cons, List.map_cons, List.sum_cons, ih, List.length_cons, Nat.succ_mul,
        Nat.add_comm]
  cases dst with
  | allManetRouters => exact Nat.le_trans (Nat.le_of_eq (hall _)) (Nat.mul_le_mul_right _ hd)
  | unicast a =>
    refine Nat.le_trans (Nat.le_of_eq (hall _)) (Nat.mul_le_mul_right _ (Nat.le_trans ?_ hd))
    exact List.length_filter_le _ _

/-! ## §2 One router -/

theorem written_hopLimit (c : SeqCounter) (o : Outgoing) :
    (o.written c).hopLimit = o.pkt.msgHopLimit := by
  cases o <;> rfl

/-- Receiving a message costs no more than its weight. -/
theorem receive_weight (d : Nat) (cfg : Conf) (now : Timex) (sender : Ipv6Addr)
    (msg : WireMessage) (s : Node) :
    1 + (receive cfg now sender msg.context s).weight d ≤
      s.weight d + flightWeight d msg.hopLimit.toNat := by
  obtain ⟨r, -, hreaction⟩ := receive_reaction cfg now sender msg.context s
  have hpos := flightWeight_pos d msg.hopLimit.toNat
  unfold Node.weight
  rcases hreaction.outbox with hsame | ⟨o, ho, -, hop, hhop, hone⟩
  · rw [hsame]
    omega
  · have hhop : msg.hopLimit = hop := Option.some.inj hhop
    rw [ho, List.map_append, List.sum_append, hhop, ← hone, flightWeight_succ, List.map_singleton,
      List.sum_singleton]
    omega

/-- Looking for a route posts one message at most, with the greatest hop limit. -/
theorem findRoute_weight (d : Nat) (cfg : Conf) (now : Timex) (origAddr targetAddr : Ipv6Addr)
    (stack : Message) (s : Node) :
    ((findRoute cfg now origAddr targetAddr stack s).getD s).weight d ≤
      s.weight d + queueWeight d (metricMax cfg metricHopCount).toNat := by
  unfold findRoute
  cases rcsIsClient origAddr s.router.rcs with
  | none => exact Nat.le_add_right _ _
  | some client =>
    unfold Node.weight
    change ((s.outbox ++ [Outgoing.rreq _]).map _).sum ≤ _
    rw [List.map_append, List.sum_append, List.map_singleton, List.sum_singleton]
    exact Nat.le_refl _

/-! ## §3 The network -/

variable [DecidableEq ι] [Fintype ι]

/-- The weight of everything that is still to be sent or delivered. -/
def NetState.potential (d : Nat) (s : NetState ι) : Nat :=
  ∑ i, (s.nodes i).weight d + transitWeight d s.inFlight

/-- One router after another: the queues of the others keep their weight. -/
theorem sum_weight_put (d : Nat) (s : NetState ι) (i : ι) (n : Node) :
    ∑ k, ((s.put i n).nodes k).weight d + (s.nodes i).weight d =
      ∑ k, (s.nodes k).weight d + n.weight d := by
  have hrest : ∑ k ∈ Finset.univ.erase i, ((s.put i n).nodes k).weight d =
      ∑ k ∈ Finset.univ.erase i, (s.nodes k).weight d := by
    refine Finset.sum_congr rfl fun k hk => ?_
    unfold NetState.put
    dsimp only
    rw [Function.update_of_ne (Finset.ne_of_mem_erase hk)]
  rw [← Finset.add_sum_erase _ _ (Finset.mem_univ i), hrest,
    ← Finset.add_sum_erase _ (fun k => (s.nodes k).weight d) (Finset.mem_univ i)]
  have hput : (s.put i n).nodes i = n := by
    unfold NetState.put
    exact Function.update_self ..
  rw [hput]
  omega

/-- The events that move a message: a transmission, a delivery or a loss. -/
def traffic : NetEvent ι → NetState ι → Nat
  | .transmit i, s => if (s.nodes i).outbox = [] then 0 else 1
  | .deliver k, s => if k < s.inFlight.length then 1 else 0
  | .lose k, s => if k < s.inFlight.length then 1 else 0
  | _, _ => 0

/-- What a discovery adds to the potential. -/
def discovery (cfg : Conf) (d : Nat) : NetEvent ι → NetState ι → Nat
  | .findRoute .., _ => queueWeight d (metricMax cfg metricHopCount).toNat
  | _, _ => 0

/-- The potential pays for every event. -/
theorem netStep_potential (cfg : Conf) (net : Network ι) {d : Nat}
    (hd : ∀ i, (net.neighbours i).length ≤ d) (ev : NetEvent ι) (s : NetState ι) :
    traffic ev s + (netStep cfg net ev s).potential d ≤ s.potential d + discovery cfg d ev s := by
  cases ev with
  | findRoute i origAddr targetAddr stack =>
    have hput := sum_weight_put d s i
      ((findRoute cfg (s.now i) origAddr targetAddr stack (s.nodes i)).getD (s.nodes i))
    have hfind := findRoute_weight d cfg (s.now i) origAddr targetAddr stack (s.nodes i)
    unfold NetState.potential traffic discovery netStep
    dsimp only
    rw [show ∀ n, (s.put i n).inFlight = s.inFlight from fun _ => rfl]
    omega
  | transmit i =>
    have hput := sum_weight_put d s i (transmit (s.nodes i)).2
    unfold NetState.potential traffic discovery netStep
    dsimp only
    rw [transitWeight_append]
    have hqueue : (transmit (s.nodes i)).2.weight d =
        ((s.nodes i).outbox.tail.map fun o => queueWeight d o.pkt.msgHopLimit.toNat).sum := by
      unfold Node.weight
      rw [(transmit_snd (s.nodes i)).2.2]
    have hweight : (s.nodes i).weight d =
        ((s.nodes i).outbox.map fun o => queueWeight d o.pkt.msgHopLimit.toNat).sum := rfl
    rw [transmit_fst]
    cases hout : (s.nodes i).outbox with
    | nil =>
      rw [hout] at hqueue hweight
      rw [if_pos rfl]
      have hnone : transitWeight d ((Option.map (net.copies i) (([] : List Outgoing).head?.map
          fun o => (o.destination, o.written (s.nodes i).router.seqnum))).getD []) = 0 := rfl
      rw [hnone]
      rw [List.tail_nil] at hqueue
      omega
    | cons o rest =>
      rw [hout] at hqueue hweight
      rw [if_neg (List.cons_ne_nil o rest)]
      have hcopies := transitWeight_copies d net i (hd i) o.destination
        (o.written (s.nodes i).router.seqnum)
      rw [written_hopLimit] at hcopies
      rw [List.map_cons, List.sum_cons] at hweight
      rw [List.tail_cons] at hqueue
      have hsome : (Option.map (net.copies i) ((o :: rest).head?.map
          fun o => (o.destination, o.written (s.nodes i).router.seqnum))).getD [] =
          net.copies i (o.destination, o.written (s.nodes i).router.seqnum) := rfl
      rw [hsome]
      unfold queueWeight at hweight hqueue
      omega
  | deliver k =>
    unfold traffic discovery netStep
    dsimp only
    cases ht : s.inFlight[k]? with
    | none =>
      rw [if_neg (Nat.not_lt.mpr (List.getElem?_eq_none_iff.mp ht))]
      exact Nat.le_of_eq (Nat.zero_add _)
    | some t =>
      rw [if_pos (List.getElem?_eq_some_iff.mp ht).1]
      have hput := sum_weight_put d s t.receiver (receive cfg (s.now t.receiver)
        (net.addr t.sender) t.msg.context (s.nodes t.receiver))
      have hreceive := receive_weight d cfg (s.now t.receiver) (net.addr t.sender) t.msg
        (s.nodes t.receiver)
      have herase := transitWeight_eraseIdx d ht
      unfold NetState.potential
      dsimp only
      omega
  | lose k =>
    unfold traffic discovery netStep NetState.potential
    dsimp only
    cases ht : s.inFlight[k]? with
    | none =>
      have hge := List.getElem?_eq_none_iff.mp ht
      rw [if_neg (Nat.not_lt.mpr hge), List.eraseIdx_of_length_le hge]
      exact Nat.le_of_eq (Nat.zero_add _)
    | some t =>
      rw [if_pos (List.getElem?_eq_some_iff.mp ht).1]
      have herase := transitWeight_eraseIdx d ht
      have hpos := flightWeight_pos d t.msg.hopLimit.toNat
      omega
  | tick i δ => exact Nat.le_of_eq (Nat.zero_add _)

/-- How many neighbours a router has at most. -/
def Network.degree (net : Network ι) : Nat := Finset.univ.sup fun i => (net.neighbours i).length

omit [DecidableEq ι] in
theorem Network.length_neighbours_le (net : Network ι) (i : ι) :
    (net.neighbours i).length ≤ net.degree :=
  Finset.le_sup (f := fun i => (net.neighbours i).length) (Finset.mem_univ i)

/-- The event starts a discovery. -/
def NetEvent.startsDiscovery : NetEvent ι → Bool
  | .findRoute .. => true
  | _ => false

/-- What one discovery can cause at most, in transmissions, deliveries and
losses. -/
def discoveryWeight (cfg : Conf) (net : Network ι) : Nat :=
  queueWeight net.degree (metricMax cfg metricHopCount).toNat

theorem totalCost_discovery (cfg : Conf) (net : Network ι) (evs : List (NetEvent ι))
    (s : NetState ι) : totalCost (netStep cfg net) (discovery cfg net.degree) evs s =
      evs.countP NetEvent.startsDiscovery * discoveryWeight cfg net := by
  induction evs generalizing s with
  | nil => exact (Nat.zero_mul _).symm
  | cons ev evs ih =>
    unfold totalCost
    rw [ih, List.countP_cons, Nat.add_mul, Nat.add_comm]
    congr 1
    cases ev <;> simp [discovery, discoveryWeight, NetEvent.startsDiscovery]

/-- **Traffic comes to an end.** From any state of the network, and however
its messages are delayed, reordered or lost, what is in the queues and in
flight and the discoveries that are started cause only so many
transmissions, deliveries and losses. -/
theorem traffic_bounded (cfg : Conf) (net : Network ι) (evs : List (NetEvent ι)) (s : NetState ι) :
    totalCost (netStep cfg net) traffic evs s +
        (run (netStep cfg net) evs s).potential net.degree ≤
      s.potential net.degree + evs.countP NetEvent.startsDiscovery * discoveryWeight cfg net := by
  rw [← totalCost_discovery cfg net evs s]
  exact totalCost_le (netStep_potential cfg net net.length_neighbours_le) evs s

omit [DecidableEq ι] in
/-- A network in which nothing was sent has no potential. -/
theorem potential_init (d : Nat) (sizes : ι → Sizes) (rcs : ι → RouterClientSet) :
    (NetState.init sizes rcs).potential d = 0 := by
  have hsum : ∑ i, ((NetState.init sizes rcs).nodes i).weight d = 0 :=
    Finset.sum_eq_zero fun _ _ => rfl
  unfold NetState.potential
  rw [hsum]
  rfl

omit [DecidableEq ι] in
/-- A potential of zero is silence: nothing is in a queue or in flight. -/
theorem potential_eq_zero_iff (d : Nat) (s : NetState ι) :
    s.potential d = 0 ↔ (∀ i, (s.nodes i).outbox = []) ∧ s.inFlight = [] := by
  unfold NetState.potential
  rw [Nat.add_eq_zero_iff, Finset.sum_eq_zero_iff]
  have hqueue : ∀ n : Node, n.weight d = 0 ↔ n.outbox = [] := by
    intro n
    unfold Node.weight
    cases n.outbox with
    | nil => simp
    | cons o rest => simp [queueWeight]
  have hflight : transitWeight d s.inFlight = 0 ↔ s.inFlight = [] := by
    unfold transitWeight
    cases s.inFlight with
    | nil => simp
    | cons t rest =>
      have hpos := flightWeight_pos d t.msg.hopLimit.toNat
      simp only [List.map_cons, List.sum_cons, reduceCtorEq, iff_false]
      omega
  rw [hflight]
  simp only [Finset.mem_univ, forall_const, hqueue]

end Turpial.Aodvv2
