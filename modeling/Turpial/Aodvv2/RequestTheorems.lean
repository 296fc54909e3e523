/-
Turpial.Aodvv2.RequestTheorems — route requests that fail half way.

`_route_info` puts the packet into the buffer first and looks for a route
then. `aodvv2_find_route` gives up if the originator is no client any more,
and `aodvv2_send_rreq` if there is no memory for the message or the thread
does not take it. `_route_info` does not look at what they return.

§1 is `Turpial.Aodvv2.Router` once more with these failures, §2 says when a
request that sends nothing leaves nothing behind.
-/
import Turpial.Aodvv2.Router
import Turpial.Aodvv2.ReferenceTheorems

namespace Turpial.Aodvv2

open Turpial.Lib

/-! ## §1 Requests that can fail -/

/-- What the steps after the buffering meet. -/
structure RequestSteps where
  /-- The client set that `aodvv2_find_route` looks into. It is another
  thread's to change in between. -/
  clients : RouterClientSet
  /-- `malloc` has memory for the message. -/
  malloc : Bool
  /-- What `msg_send` returns. -/
  msgSend : Int

/-- `aodvv2_send_rreq`, with its result. -/
def sendRreqTry (steps : RequestSteps) (pkt : Message) (s : Node) : Node × Int :=
  if steps.malloc = false then (s, -1)
  -- The copy of the message is not freed.
  else if steps.msgSend < 1 then (s, -1)
  else (sendRreq pkt s, 0)

/-- `aodvv2_find_route`, with its result. -/
def findRouteTry (cfg : Conf) (steps : RequestSteps) (now : Timex) (origAddr targetAddr : Ipv6Addr)
    (stack : Message) (s : Node) : Node × Int :=
  match rcsIsClient origAddr s.router.rcs with
  | none => (s, -1)
  | some client =>
    let pkt := findRoutePkt cfg client targetAddr (seqnumGet s.router.seqnum) stack
    sendRreqTry steps pkt { s with router := { s.router with
      seqnum := seqnumInc s.router.seqnum
      mcmsg := (mcmsgProcess cfg now pkt s.router.mcmsg).2 } }

/-- `_route_info` when the NIB asks for a route, with its calls on RIOT's
packet buffer. -/
def routeInfoTry (cfg : Conf) (steps : RequestSteps) (now : Timex) (src dst : Ipv6Addr) (pkt : Nat)
    (stack : Message) (s : Node) : Node × List PktbufCall :=
  match rcsIsClient src s.router.rcs with
  | none => (s, [])
  | some _ =>
    let added := bufferPktAdd dst pkt s.router.buffer
    match added.2 with
    | none => (s, bufferPktAddCalls dst pkt s.router.buffer)
    | some _ =>
      let s' := { s with router := { s.router with buffer := added.1, rcs := steps.clients } }
      ((findRouteTry cfg steps now src dst stack s').1,
        bufferPktAddCalls dst pkt s.router.buffer)

/-- The steps that a request takes all succeed. -/
structure StepsSucceed (steps : RequestSteps) (src : Ipv6Addr) : Prop where
  client : IsClient steps.clients src
  malloc : steps.malloc = true
  sent : 1 ≤ steps.msgSend

section Steps

variable {cfg : Conf} {steps : RequestSteps} {now : Timex} {src dst : Ipv6Addr} {pkt : Nat}
  {stack : Message} {s : Node}

/-- `aodvv2_send_rreq` queues the message or leaves the queue alone. -/
theorem sendRreqTry_outbox (m : Message) :
    (sendRreqTry steps m s).1.outbox =
      if steps.malloc = true ∧ 1 ≤ steps.msgSend then s.outbox ++ [.rreq m] else s.outbox := by
  unfold sendRreqTry
  by_cases hmalloc : steps.malloc = true
  · rw [if_neg (by simp [hmalloc])]
    by_cases hsent : steps.msgSend < 1
    · rw [if_pos hsent, if_neg fun h => absurd hsent (Int.not_lt.mpr h.2)]
    · rw [if_neg hsent, if_pos ⟨hmalloc, Int.not_lt.mp hsent⟩]
      rfl
  · rw [if_pos (Bool.eq_false_iff.mpr hmalloc), if_neg fun h => hmalloc h.1]

theorem sendRreqTry_buffer (m : Message) :
    (sendRreqTry steps m s).1.router.buffer = s.router.buffer := by
  unfold sendRreqTry
  split
  · rfl
  · split
    · rfl
    · rfl

/-- `aodvv2_find_route` does not touch the packet buffer. -/
theorem findRouteTry_buffer :
    (findRouteTry cfg steps now src dst stack s).1.router.buffer = s.router.buffer := by
  unfold findRouteTry
  cases rcsIsClient src s.router.rcs with
  | none => rfl
  | some client => exact sendRreqTry_buffer _

/-- `aodvv2_find_route` queues a message exactly if its steps succeed. -/
theorem findRouteTry_outbox_iff (cfg : Conf) (now : Timex) (src dst : Ipv6Addr) (stack : Message)
    {r : Node} (hrcs : r.router.rcs = steps.clients) :
    (findRouteTry cfg steps now src dst stack r).1.outbox = r.outbox ↔
      ¬ StepsSucceed steps src := by
  unfold findRouteTry
  rw [hrcs]
  cases hclient : rcsIsClient src steps.clients with
  | none =>
    refine ⟨fun _ h => ?_, fun _ => rfl⟩
    have hsome := h.client
    rw [IsClient, hclient] at hsome
    cases hsome
  | some client =>
    have hsome : IsClient steps.clients src := by
      rw [IsClient, hclient]
      rfl
    dsimp only
    rw [sendRreqTry_outbox]
    by_cases hsteps : steps.malloc = true ∧ 1 ≤ steps.msgSend
    · rw [if_pos hsteps]
      refine ⟨fun heq => ?_, fun h => absurd ⟨hsome, hsteps.1, hsteps.2⟩ h⟩
      exact absurd (List.append_right_eq_self.mp heq) (List.cons_ne_nil _ _)
    · rw [if_neg hsteps]
      exact ⟨fun _ h => hsteps ⟨h.malloc, h.sent⟩, fun _ => rfl⟩

/-- Where nothing fails, this is `routeInfo`. -/
theorem routeInfoTry_eq (hrcs : steps.clients = s.router.rcs) (hmalloc : steps.malloc = true)
    (hsent : 1 ≤ steps.msgSend) :
    (routeInfoTry cfg steps now src dst pkt stack s).1 = routeInfo cfg now src dst pkt stack s := by
  unfold routeInfoTry routeInfo
  cases hclient : rcsIsClient src s.router.rcs with
  | none => rfl
  | some client =>
    dsimp only
    cases (bufferPktAdd dst pkt s.router.buffer).2 with
    | none => rfl
    | some i =>
      dsimp only
      unfold findRouteTry findRoute sendRreqTry
      dsimp only
      rw [hrcs, hclient]
      dsimp only
      rw [if_neg (by simp [hmalloc]), if_neg (Int.not_lt.mpr hsent)]
      rfl

end Steps

/-! ## §2 What a failed request leaves -/

/-- If the request queues no message, then the packet buffer is as before
and no reference is kept. -/
def LeavesNothing (cfg : Conf) (steps : RequestSteps) (now : Timex) (src dst : Ipv6Addr) (pkt : Nat)
    (stack : Message) (s : Node) : Prop :=
  (routeInfoTry cfg steps now src dst pkt stack s).1.outbox = s.outbox →
    (routeInfoTry cfg steps now src dst pkt stack s).1.router.buffer = s.router.buffer ∧
      ∀ p, refsTaken p (routeInfoTry cfg steps now src dst pkt stack s).2 = 0

/-- **A route request that sends nothing leaves nothing behind exactly if**
the packet is not buffered in the first place, because it is not from a
client or every slot is in use, or the steps after the buffering succeed. -/
theorem leavesNothing_iff (cfg : Conf) (steps : RequestSteps) (now : Timex) (src dst : Ipv6Addr)
    (pkt : Nat) (stack : Message) (s : Node) :
    LeavesNothing cfg steps now src dst pkt stack s ↔
      ¬ IsClient s.router.rcs src ∨ (∀ e ∈ s.router.buffer, e.used = true) ∨
        StepsSucceed steps src := by
  unfold LeavesNothing routeInfoTry
  cases hclient : rcsIsClient src s.router.rcs with
  | none =>
    refine ⟨fun _ => Or.inl ?_, fun _ _ => ⟨rfl, fun _ => rfl⟩⟩
    rw [IsClient, hclient]
    exact Bool.false_ne_true
  | some client =>
    have hsome : IsClient s.router.rcs src := by
      rw [IsClient, hclient]
      rfl
    dsimp only
    cases hadd : (bufferPktAdd dst pkt s.router.buffer).2 with
    | none =>
      have hcalls : bufferPktAddCalls dst pkt s.router.buffer = [] := by
        unfold bufferPktAddCalls
        rw [hadd]
      dsimp only
      rw [hcalls]
      exact ⟨fun _ => Or.inr (Or.inl (bufferPktAdd_none hadd).2), fun _ _ => ⟨rfl, fun _ => rfl⟩⟩
    | some i =>
      obtain ⟨e, he, hfree, heq⟩ := bufferPktAdd_some hadd
      dsimp only
      rw [findRouteTry_buffer]
      have houtbox := findRouteTry_outbox_iff cfg now src dst stack (r := { s with
        router := { s.router with
          buffer := (bufferPktAdd dst pkt s.router.buffer).1
          rcs := steps.clients } }) rfl
      have hchanged : (bufferPktAdd dst pkt s.router.buffer).1 ≠ s.router.buffer := by
        intro hsame
        rw [heq] at hsame
        have hi := getElem?_written he (⟨true, some pkt, dst⟩ : BufferedPkt)
        rw [hsame, he] at hi
        cases hi
        cases hfree
      constructor
      · intro h
        refine Or.inr (Or.inr ?_)
        by_contra hfails
        exact hchanged (h (houtbox.mpr hfails)).1
      · rintro (hno | hfull | hsteps)
        · exact absurd hsome hno
        · rw [hfull e (List.mem_of_getElem? he)] at hfree
          cases hfree
        · exact fun hsilent => absurd hsteps (houtbox.mp hsilent)

/-- A router with one client and free slots. -/
def sampleAsker : Node where
  router := Router.init ⟨16, 10, 10⟩ [{ addr := 1#128, pfxLen := 128, cost := 1, used := true }]

/-- There is no memory for the message, and the packet stays in the buffer
with a reference of its own. -/
theorem leavesNothing_out_of_memory :
    ¬ LeavesNothing .default ⟨sampleAsker.router.rcs, false, 1⟩ 0 1#128 2#128 7 {} sampleAsker := by
  intro h
  have hsilent : (routeInfoTry .default ⟨sampleAsker.router.rcs, false, 1⟩ 0 1#128 2#128 7 {}
      sampleAsker).1.outbox = sampleAsker.outbox := by decide +kernel
  exact absurd ((h hsilent).2 7) (by decide +kernel)

end Turpial.Aodvv2
