/-
Turpial.Aodvv2.MetricTheorems — the metrics of a node, on every input and
over whole runs.

The metric-limit test of the end callbacks is done in `int`. A record that
passes it is measured in hops and leaves room below the configured maximum
for two links: the update of its metric takes the first and the fill
function the second, both in eight bits (§2). The routes in the table keep
the bound because nothing else writes their metric (§3).

A run here is of the whole node: what can happen at a router, and besides
it the packets that ask for a route and the changes of the client set.
-/
import Turpial.Aodvv2.RouteTheorems

namespace Turpial.Aodvv2

open Turpial.Lib Turpial.Rfc5444

variable {cfg : Conf} {now : Timex}

/-! ## §1 Runs of a node -/

/-- What can happen at a node. -/
inductive NodeEvent where
  | routing (ev : RouterEvent)
  | routeInfo (now : Timex) (src dst : Ipv6Addr) (pkt : Nat) (stack : Message)
  | addClient (addr : Ipv6Addr) (pfxLen cost : UInt8)
  | delClient (addr : Ipv6Addr) (pfxLen : UInt8)

/-- The node after it. -/
def nodeStep (cfg : Conf) : NodeEvent → Node → Node
  | .routing ev, s => routerStep cfg ev s
  | .routeInfo now src dst pkt stack, s => routeInfo cfg now src dst pkt stack s
  | .addClient addr pfxLen cost, s =>
    { s with router := { s.router with rcs := (rcsAdd addr pfxLen cost s.router.rcs).1 } }
  | .delClient addr pfxLen, s =>
    { s with router := { s.router with rcs := rcsDel addr pfxLen s.router.rcs } }

/-- A packet that asks for a route changes neither route table. -/
theorem routeInfo_frame (cfg : Conf) (now : Timex) (src dst : Ipv6Addr) (pkt : Nat)
    (stack : Message) (s : Node) :
    (routeInfo cfg now src dst pkt stack s).router.lrs = s.router.lrs ∧
      (routeInfo cfg now src dst pkt stack s).router.nib = s.router.nib := by
  unfold routeInfo
  cases rcsIsClient src s.router.rcs with
  | none => exact ⟨rfl, rfl⟩
  | some client =>
    dsimp only
    cases (bufferPktAdd dst pkt s.router.buffer).2 with
    | none => exact ⟨rfl, rfl⟩
    | some i =>
      obtain ⟨hlrs, hnib, -⟩ := findRoute_frame cfg now src dst stack
        { s with router := { s.router with buffer := (bufferPktAdd dst pkt s.router.buffer).1 } }
      exact ⟨hlrs, hnib⟩

/-- Only a received message changes the Local Route Set, by the advert it brings. -/
theorem nodeStep_lrs (cfg : Conf) (ev : NodeEvent) (s : Node) :
    (nodeStep cfg ev s).router.lrs = s.router.lrs ∨
      ∃ now sender a taken t, AdvertSound cfg sender a ∧
        RouteUpdate cfg now a s.router.lrs s.router.nib taken t (nodeStep cfg ev s).router.nib ∧
        Aged cfg now t (nodeStep cfg ev s).router.lrs := by
  cases ev with
  | routeInfo now src dst pkt stack => exact Or.inl (routeInfo_frame cfg now src dst pkt stack s).1
  | addClient addr pfxLen cost => exact Or.inl rfl
  | delClient addr pfxLen => exact Or.inl rfl
  | routing ev =>
    cases ev with
    | findRoute now origAddr targetAddr stack =>
      exact Or.inl (findRoute_frame cfg now origAddr targetAddr stack s).1
    | transmit => exact Or.inl (transmit_frame s).1
    | receive now sender msg =>
      have hhandled := receive_handled cfg now sender msg s
      have hsound : ∀ a ∈ advert? cfg now sender msg s, AdvertSound cfg sender a :=
        fun a ha => advert?_sound ha
      generalize advert? cfg now sender msg s = adv at hhandled hsound
      cases hhandled with
      | quiet rcs lrs nib => exact Or.inl lrs
      | @updated a t rcs update aged => exact Or.inr ⟨now, sender, a, _, t, hsound a rfl, update, aged⟩

/-- An invariant of the Local Route Set that ageing keeps, and writing the
route of a sound advert into a free slot or over the route of its node. -/
theorem nodeRun_lrs {P : RoutingTable → Prop}
    (haged : ∀ now t t', P t → Aged cfg now t t' → P t')
    (hcreated : ∀ now sender a (t : RoutingTable) (i : Nat) (e : LrsEntry), P t →
      AdvertSound cfg sender a → (∀ e ∈ t, a.matches e = false) → t[i]? = some e →
      e.used = false → P (t.set i { route := a.route cfg now, used := true }))
    (himproved : ∀ now sender a (t : RoutingTable) (i : Nat) (e : LrsEntry), P t →
      AdvertSound cfg sender a → t[i]? = some e → a.matches e = true →
      P (t.set i { route := a.route cfg now, used := e.used }))
    (events : List NodeEvent) {s : Node} (hs : P s.router.lrs) :
    P (run (nodeStep cfg) events s).router.lrs := by
  suffices hstep : ∀ ev (s : Node), P s.router.lrs → P (nodeStep cfg ev s).router.lrs from
    run_invariant_of_step hstep events hs
  intro ev s hs
  rcases nodeStep_lrs cfg ev s with heq | ⟨now, sender, a, taken, t, hsound, hupdate, haged'⟩
  · rw [heq]
    exact hs
  · refine haged now t _ ?_ haged'
    generalize (nodeStep cfg ev s).router.nib = nib' at hupdate
    cases hupdate with
    | kept aged => exact haged now _ _ hs aged
    | full aged => exact haged now _ _ hs aged
    | created aged absent slot free =>
      exact hcreated now sender a _ _ _ (haged now _ _ hs aged) hsound absent slot free
    | improved aged slot present =>
      exact himproved now sender a _ _ _ (haged now _ _ hs aged) hsound slot present

/-! ## §2 One message -/

/-- The metric of a record, and what becomes of it on its way to the metric
of a route. -/
structure MetricSafe (cfg : Conf) (t : RoutingMetric) (metric routeMetric : UInt8) : Prop where
  metricType : t = metricHopCount
  updated : (metricUpdate t metric).toNat = metric.toNat + 1
  updated_le : (metricUpdate t metric).toNat + 1 ≤ cfg.metricHopCountMax.toNat
  written : routeMetric.toNat = metric.toNat + 2
  written_le : routeMetric.toNat ≤ cfg.metricHopCountMax.toNat

theorem metricSafe_of_below {t : RoutingMetric} {metric : UInt8}
    (h : metricLimitReached cfg t metric = false) :
    MetricSafe cfg t metric (metricUpdate t metric + metricLinkCost t) := by
  obtain ⟨ht, hone, hle⟩ := metricUpdate_sound h
  have hmax := cfg.metricHopCountMax.toNat_lt
  have hcost : (metricLinkCost t).toNat = 1 := by
    rw [ht]
    rfl
  have htwo : (metricUpdate t metric + metricLinkCost t).toNat = metric.toNat + 2 := by
    rw [UInt8.toNat_add, hone, hcost]
    exact Nat.mod_eq_of_lt (by omega)
  exact ⟨ht, hone, hle, htwo, by omega⟩

/-- The callbacks drop what fails their tests before they touch the node. -/
theorem cbRreqEndCallback_refused {s : Node} (h : ¬ RreqChecks cfg s.msgData) :
    cbRreqEndCallback cfg now false s = (.ok .dropPacket, s) := by
  have hout := cbRreqEndCallback_outcome cfg now s
  generalize cbRreqEndCallback cfg now false s = result at hout ⊢
  cases hout with
  | refused => rfl
  | _ => contradiction

theorem cbRrepEndCallback_refused {s : Node} (h : ¬ RrepChecks cfg s.msgData) :
    cbRrepEndCallback cfg now false s = (.ok .dropPacket, s) := by
  have hout := cbRrepEndCallback_outcome cfg now s
  generalize cbRrepEndCallback cfg now false s = result at hout ⊢
  cases hout with
  | refused => rfl
  | _ => contradiction

/-! ## §3 The routes of a node -/

/-- Every route that has an address is measured in hops, between one and
the maximum of them. -/
def MetricsBounded (cfg : Conf) (lrs : RoutingTable) : Prop :=
  ∀ e ∈ lrs, e.route.addr ≠ ipv6AddrUnspecified →
    e.route.metricType = metricHopCount ∧ 1 ≤ e.route.metric.toNat ∧
      e.route.metric.toNat ≤ cfg.metricHopCountMax.toNat

theorem MetricsBounded.aged {t t' : RoutingTable} (h : MetricsBounded cfg t)
    (haged : Aged cfg now t t') : MetricsBounded cfg t' := by
  intro e' he' haddr
  obtain ⟨e, he, hslot⟩ := haged.mem he'
  have hsame := hslot.same_of_addr haddr
  rw [hsame.metricType, hsame.metric]
  exact h e he (hsame.addr ▸ haddr)

theorem MetricsBounded.write {t : RoutingTable} (h : MetricsBounded cfg t) {sender : Ipv6Addr}
    {a : Advert} (hsound : AdvertSound cfg sender a) (i : Nat) (used : Bool) :
    MetricsBounded cfg (t.set i { route := a.route cfg now, used := used }) := by
  intro e he haddr
  rcases List.mem_or_eq_of_mem_set he with he | rfl
  · exact h e he haddr
  · have hmetric : (a.route cfg now).metric.toNat = a.node.metric.toNat + 1 := hsound.route_metric
    have hle := hsound.metric
    exact ⟨hsound.metricType, by rw [hmetric]; exact Nat.le_add_left 1 _, by rw [hmetric]; exact hle⟩

theorem metricsBounded_init (sizes : Sizes) (rcs : RouterClientSet) :
    MetricsBounded cfg (Node.init sizes rcs).router.lrs := by
  intro e he haddr
  rw [List.eq_of_mem_replicate he] at haddr
  exact absurd rfl haddr

/-- **Metrics never wrap, and only hop counts get in.** An RREQ or RREP
that fails the tests of its end callback is dropped at once; one that
passes them has a metric that is safe to count up; and in every state that
a node reaches the metrics of its routes are bounded. -/
theorem metrics_never_wrap (cfg : Conf) (sizes : Sizes) (rcs : RouterClientSet)
    (events : List NodeEvent) :
    (∀ now s,
      (¬ RreqChecks cfg s.msgData → cbRreqEndCallback cfg now false s = (.ok .dropPacket, s)) ∧
      (RreqChecks cfg s.msgData →
        MetricSafe cfg s.msgData.metricType s.msgData.origNode.metric
          (fillRoutingEntryRreq cfg (rreqRecord now s.msgData)
            (metricLinkCost s.msgData.metricType)).metric)) ∧
    (∀ now s,
      (¬ RrepChecks cfg s.msgData → cbRrepEndCallback cfg now false s = (.ok .dropPacket, s)) ∧
      (RrepChecks cfg s.msgData →
        MetricSafe cfg s.msgData.metricType s.msgData.targNode.metric
          (fillRoutingEntryRrep cfg (rrepRecord now s.msgData)
            (metricLinkCost s.msgData.metricType)).metric)) ∧
    MetricsBounded cfg (run (nodeStep cfg) events (Node.init sizes rcs)).router.lrs := by
  refine ⟨fun now s => ⟨cbRreqEndCallback_refused, fun h => metricSafe_of_below h.2.2.2.2⟩,
    fun now s => ⟨cbRrepEndCallback_refused, fun h => metricSafe_of_below h.2.2.2.2⟩, ?_⟩
  exact nodeRun_lrs (fun now t t' h haged => h.aged haged)
    (fun now sender a t i e h hsound _ _ _ => h.write hsound i true)
    (fun now sender a t i e h hsound _ _ => h.write hsound i e.used) events
    (metricsBounded_init sizes rcs)

end Turpial.Aodvv2
