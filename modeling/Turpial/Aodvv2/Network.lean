/-
Turpial.Aodvv2.Network — several routers and the messages between them.

Every router is a `Node` with a clock of its own. The thread of a router
takes a message from its queue and writes it; from then on a copy of it is
on its way to each neighbour that is to hear it, and every copy is
delivered or lost on its own, at any time and in any order.

`NextHop` is how the Local Route Sets together forward to a destination: it
reads off the entries that match, used or not and however old they are. A
lookup at any time returns the next hop of one of these
(`nextHop_of_lookup`).
-/
import Turpial.Lib.Acyclic
import Turpial.Aodvv2.RouteTheorems

namespace Turpial.Aodvv2

open Turpial.Lib

variable {ι : Type}

/-! ## Routers and messages on their way -/

/-- The address under which each router is heard, and who hears it. -/
structure Network (ι : Type) where
  addr : ι → Ipv6Addr
  addr_injective : Function.Injective addr
  addr_ne : ∀ i, addr i ≠ ipv6AddrUnspecified
  neighbours : ι → List ι

/-- A copy of a message on its way to one neighbour. -/
structure Transit (ι : Type) where
  sender : ι
  receiver : ι
  msg : WireMessage

/-- The routers, their clocks and what is on its way. -/
structure NetState (ι : Type) where
  nodes : ι → Node
  now : ι → Timex := fun _ => 0
  inFlight : List (Transit ι) := []

/-- Freshly initialised routers with their clients. -/
def NetState.init (sizes : ι → Sizes) (rcs : ι → RouterClientSet) : NetState ι where
  nodes i := Node.init (sizes i) (rcs i)

/-- What can happen in the network. -/
inductive NetEvent (ι : Type) where
  | findRoute (i : ι) (origAddr targetAddr : Ipv6Addr) (stack : Message)
  | transmit (i : ι)
  | deliver (k : Nat)
  | lose (k : Nat)
  | tick (i : ι) (d : Timex)

/-- The copies of a message that a router writes. -/
def Network.copies (net : Network ι) (i : ι) : Destination × WireMessage → List (Transit ι)
  | (.allManetRouters, msg) => (net.neighbours i).map fun j => ⟨i, j, msg⟩
  | (.unicast a, msg) =>
    ((net.neighbours i).filter fun j => net.addr j == a).map fun j => ⟨i, j, msg⟩

variable [DecidableEq ι]

/-- One router after a call of its own. -/
def NetState.put (s : NetState ι) (i : ι) (n : Node) : NetState ι :=
  { s with nodes := Function.update s.nodes i n }

/-- The network after it. A router whose callbacks run into a fault goes on
from where they stopped. So these runs are at least those of the routers: one
that halts at a fault takes part in no event from then on. -/
def netStep (cfg : Conf) (net : Network ι) : NetEvent ι → NetState ι → NetState ι
  | .findRoute i origAddr targetAddr stack, s =>
    s.put i ((findRoute cfg (s.now i) origAddr targetAddr stack (s.nodes i)).getD (s.nodes i))
  | .transmit i, s =>
    let sent := transmit (s.nodes i)
    { s.put i sent.2 with inFlight := s.inFlight ++ (sent.1.map (net.copies i)).getD [] }
  | .deliver k, s =>
    match s.inFlight[k]? with
    | none => s
    | some t =>
      { s.put t.receiver (receive cfg (s.now t.receiver) (net.addr t.sender) t.msg.context
          (s.nodes t.receiver)) with
        inFlight := s.inFlight.eraseIdx k }
  | .lose k, s => { s with inFlight := s.inFlight.eraseIdx k }
  | .tick i d, s => { s with now := Function.update s.now i (s.now i + d) }

/-! ## Forwarding -/

/-- An entry of the table for this destination leads to `hop`. -/
def Leads (lrs : RoutingTable) (a : Ipv6Addr) (t : RoutingMetric) (hop : Ipv6Addr)
    (metric : UInt8) : Prop :=
  ∃ e ∈ lrs, e.route.matchesDest a t = true ∧ e.route.nextHop = hop ∧ e.route.metric = metric

instance (lrs : RoutingTable) (a : Ipv6Addr) (t : RoutingMetric) (hop : Ipv6Addr)
    (metric : UInt8) : Decidable (Leads lrs a t hop metric) :=
  inferInstanceAs (Decidable (∃ e ∈ lrs, _))

omit [DecidableEq ι]

/-- Router `i` forwards to router `j` what is for `a`. -/
def NextHop (net : Network ι) (s : NetState ι) (a : Ipv6Addr) (t : RoutingMetric) (i j : ι) : Prop :=
  ∃ metric, Leads (s.nodes i).router.lrs a t (net.addr j) metric

/-- Following the next hops never comes back to a router that was visited. -/
def LoopFree (net : Network ι) (s : NetState ι) : Prop := ∀ a t, Acyclic (NextHop net s a t)

/-- The next hop that a lookup returns. -/
theorem nextHop_of_lookup {cfg : Conf} {now : Timex} {net : Network ι} {s : NetState ι}
    {a : Ipv6Addr} {t : RoutingMetric} {i j : ι}
    (h : (lrsGetNextHop cfg now a t (s.nodes i).router.lrs).2 = some (net.addr j)) :
    NextHop net s a t i j := by
  unfold lrsGetNextHop at h
  dsimp only at h
  obtain ⟨k, hk, hhop⟩ := Option.map_eq_some_iff.mp h
  obtain ⟨e, he, hmatch⟩ := lrsGetEntry_some hk
  have hroute : routeAt (lrsGetEntry cfg now a t (s.nodes i).router.lrs).1 k = e.route := by
    unfold routeAt
    rw [he]
    rfl
  rw [hroute] at hhop
  obtain ⟨e₀, he₀, hslot⟩ := (lrsGetEntry_aged cfg now a t _).mem (List.mem_of_getElem? he)
  rcases hslot.route with hsame | ⟨-, state, lastUsed, hblank, -⟩
  · exact ⟨_, e₀, he₀, (hsame.matchesDest a t).symm.trans hmatch, hsame.nextHop.symm.trans hhop, rfl⟩
  · rw [hblank] at hhop
    exact absurd hhop.symm (net.addr_ne j)

end Turpial.Aodvv2
