/-
Turpial.Aodvv2.HandlerTheorems — what a message can do to a router.

§1 says once what each end callback can do: `RreqOutcome` and
`RrepOutcome` list the ways it ends with the node it leaves.

What a message tells the route tables is an `Advert`: a node, the
neighbour it was heard from and a metric type. `advert?` reads it off the
message and the node that receives it, and `RouteUpdate` lists what the
tables do with it (§2). §3 puts both together for a received message: it
leaves the tables alone when there is no advert, and otherwise updates
them with it. Everything the handlers post advertises that same node, or
a client of the router.
-/
import Turpial.Aodvv2.LrsTheorems
import Turpial.Aodvv2.ReaderTheorems
import Turpial.Aodvv2.Writer

namespace Turpial.Aodvv2

open Turpial.Lib Turpial.Rfc5444

variable {cfg : Conf} {now : Timex}

/-! ## §1 Outcomes of the end callbacks -/

/-- The tests of `_cb_rreq_end_callback` that look at the message alone. -/
def RreqChecks (cfg : Conf) (d : Message) : Prop :=
  d.origNode.addr ≠ ipv6AddrUnspecified ∧ d.origNode.seqnum ≠ 0 ∧
    d.targNode.addr ≠ ipv6AddrUnspecified ∧ d.msgHopLimit ≠ 0 ∧
    metricLimitReached cfg d.metricType d.origNode.metric = false

instance (cfg : Conf) (d : Message) : Decidable (RreqChecks cfg d) :=
  inferInstanceAs (Decidable (_ ∧ _))

/-- The same for `_cb_rrep_end_callback`, which does not look at the hop limit. -/
def RrepChecks (cfg : Conf) (d : Message) : Prop :=
  d.origNode.addr ≠ ipv6AddrUnspecified ∧ d.origNode.seqnum ≠ 0 ∧
    d.targNode.addr ≠ ipv6AddrUnspecified ∧ d.targNode.seqnum ≠ 0 ∧
    metricLimitReached cfg d.metricType d.targNode.metric = false

instance (cfg : Conf) (d : Message) : Decidable (RrepChecks cfg d) :=
  inferInstanceAs (Decidable (_ ∧ _))

/-- The record of an RREQ once its metric is updated. -/
def rreqRecord (now : Timex) (d : Message) : Message :=
  { d with origNode.metric := metricUpdate d.metricType d.origNode.metric, timestamp := now }

/-- The record of an RREP once its metric is updated. -/
def rrepRecord (now : Timex) (d : Message) : Message :=
  { d with targNode.metric := metricUpdate d.metricType d.targNode.metric, timestamp := now }

/-- The Multicast Message Set has seen it. -/
def Redundant (cfg : Conf) (now : Timex) (d : Message) (r : Router) : Prop :=
  (mcmsgProcess cfg now d r.mcmsg).1 = .redundant

instance (cfg : Conf) (now : Timex) (d : Message) (r : Router) :
    Decidable (Redundant cfg now d r) :=
  inferInstanceAs (Decidable (_ = _))

/-- The router that has recorded an RREQ. -/
def recordRreq (cfg : Conf) (now : Timex) (d : Message) (r : Router) : Router :=
  { r with mcmsg := (mcmsgProcess cfg now d r.mcmsg).2 }

/-- The route tables on an RREQ that is not redundant. -/
def rreqTables (cfg : Conf) (now : Timex) (d : Message) (r : Router) : Bool × Router :=
  updateRoute cfg now (rreqRecord now d) (rreqRecord now d).origNode
    (fillRoutingEntryRreq cfg (rreqRecord now d) (metricLinkCost d.metricType))
    (recordRreq cfg now d r)

/-- The route tables on an RREP. -/
def rrepTables (cfg : Conf) (now : Timex) (d : Message) (r : Router) : Bool × Router :=
  updateRoute cfg now (rrepRecord now d) (rrepRecord now d).targNode
    (fillRoutingEntryRrep cfg (rrepRecord now d) (metricLinkCost d.metricType)) r

/-- How `_cb_rreq_end_callback` ends on a message that was not dropped before. -/
inductive RreqOutcome (cfg : Conf) (now : Timex) (s : Node) : EndResult → Prop
  | refused (hchecks : ¬ RreqChecks cfg s.msgData) : RreqOutcome cfg now s (.ok .dropPacket, s)
  | redundant (hchecks : RreqChecks cfg s.msgData) (hseen : Redundant cfg now s.msgData s.router) :
      RreqOutcome cfg now s
        (.ok .dropPacket, { s with router := recordRreq cfg now s.msgData s.router })
  | noImprovement (hchecks : RreqChecks cfg s.msgData)
      (hseen : ¬ Redundant cfg now s.msgData s.router)
      (hkept : (rreqTables cfg now s.msgData s.router).1 = false) :
      RreqOutcome cfg now s
        (.ok .dropPacket, { s with
          router := (rreqTables cfg now s.msgData s.router).2
          msgData := rreqRecord now s.msgData })
  | answered (hchecks : RreqChecks cfg s.msgData) (hseen : ¬ Redundant cfg now s.msgData s.router)
      (hupdated : (rreqTables cfg now s.msgData s.router).1 = true)
      (hclient : IsClient s.router.rcs s.msgData.targNode.addr) :
      RreqOutcome cfg now s
        (.ok .okay, { s with
          router := (rreqTables cfg now s.msgData s.router).2
          msgData := { rreqRecord now s.msgData with targNode.metric := 0 }
          outbox := s.outbox ++
            [.rrep { rreqRecord now s.msgData with targNode.metric := 0 } s.msgData.sender] })
  | forwarded (hchecks : RreqChecks cfg s.msgData) (hseen : ¬ Redundant cfg now s.msgData s.router)
      (hupdated : (rreqTables cfg now s.msgData s.router).1 = true)
      (hclient : ¬ IsClient s.router.rcs s.msgData.targNode.addr) :
      RreqOutcome cfg now s
        (.ok .okay, { s with
          router := (rreqTables cfg now s.msgData s.router).2
          msgData := rreqRecord now s.msgData
          outbox := s.outbox ++ [.rreq (rreqRecord now s.msgData)] })

/-- The next hop towards OrigNode, looked up in the updated tables. -/
def rrepNextHop (cfg : Conf) (now : Timex) (s : Node) : RoutingTable × Option Ipv6Addr :=
  lrsGetNextHop cfg now s.msgData.origNode.addr s.msgData.metricType
    (rrepTables cfg now s.msgData s.router).2.lrs

/-- The node that has looked for the next hop of an RREP. -/
def rrepRelayNode (cfg : Conf) (now : Timex) (s : Node) : Node :=
  { s with
    router := { (rrepTables cfg now s.msgData s.router).2 with lrs := (rrepNextHop cfg now s).1 }
    msgData := rrepRecord now s.msgData }

/-- How `_cb_rrep_end_callback` ends on a message that was not dropped before. -/
inductive RrepOutcome (cfg : Conf) (now : Timex) (s : Node) : EndResult → Prop
  | refused (hchecks : ¬ RrepChecks cfg s.msgData) : RrepOutcome cfg now s (.ok .dropPacket, s)
  | noImprovement (hchecks : RrepChecks cfg s.msgData)
      (hkept : (rrepTables cfg now s.msgData s.router).1 = false) :
      RrepOutcome cfg now s
        (.ok .dropPacket, { s with
          router := (rrepTables cfg now s.msgData s.router).2
          msgData := rrepRecord now s.msgData })
  | arrived (hchecks : RrepChecks cfg s.msgData)
      (hupdated : (rrepTables cfg now s.msgData s.router).1 = true)
      (hclient : IsClient s.router.rcs s.msgData.origNode.addr) :
      RrepOutcome cfg now s
        (.ok .okay, { s with
          router := { (rrepTables cfg now s.msgData s.router).2 with
            buffer := (bufferDispatch s.msgData.targNode.addr s.router.buffer).1 }
          msgData := rrepRecord now s.msgData
          dispatched := s.dispatched ++
            (bufferDispatch s.msgData.targNode.addr s.router.buffer).2 })
  | relayed (hchecks : RrepChecks cfg s.msgData)
      (hupdated : (rrepTables cfg now s.msgData s.router).1 = true)
      (hclient : ¬ IsClient s.router.rcs s.msgData.origNode.addr)
      {hop : Ipv6Addr} (hhop : (rrepNextHop cfg now s).2 = some hop) :
      RrepOutcome cfg now s
        (.ok .okay, { rrepRelayNode cfg now s with
          outbox := s.outbox ++ [.rrep (rrepRecord now s.msgData) hop] })
  | noNextHop (hchecks : RrepChecks cfg s.msgData)
      (hupdated : (rrepTables cfg now s.msgData s.router).1 = true)
      (hclient : ¬ IsClient s.router.rcs s.msgData.origNode.addr)
      (hhop : (rrepNextHop cfg now s).2 = none) :
      RrepOutcome cfg now s (.error .nullDereference, rrepRelayNode cfg now s)

/-- Updating the routes leaves the other tables alone. -/
theorem updateRoute_frame (msg : Message) (node : NodeData) (route : LocalRoute) (r : Router) :
    (updateRoute cfg now msg node route r).2.rcs = r.rcs ∧
      (updateRoute cfg now msg node route r).2.mcmsg = r.mcmsg ∧
      (updateRoute cfg now msg node route r).2.buffer = r.buffer ∧
      (updateRoute cfg now msg node route r).2.seqnum = r.seqnum := by
  unfold updateRoute
  dsimp only
  split
  · exact ⟨rfl, rfl, rfl, rfl⟩
  · split
    · exact ⟨rfl, rfl, rfl, rfl⟩
    · split
      · exact ⟨rfl, rfl, rfl, rfl⟩
      · exact ⟨rfl, rfl, rfl, rfl⟩

theorem rreqTables_rcs (cfg : Conf) (now : Timex) (d : Message) (r : Router) :
    (rreqTables cfg now d r).2.rcs = r.rcs :=
  (updateRoute_frame _ _ _ _).1

theorem rrepTables_rcs (cfg : Conf) (now : Timex) (d : Message) (r : Router) :
    (rrepTables cfg now d r).2.rcs = r.rcs :=
  (updateRoute_frame _ _ _ _).1

theorem rrepTables_buffer (cfg : Conf) (now : Timex) (d : Message) (r : Router) :
    (rrepTables cfg now d r).2.buffer = r.buffer :=
  (updateRoute_frame _ _ _ _).2.2.1

theorem ipv6AddrIsUnspecified_iff {a : Ipv6Addr} :
    ipv6AddrIsUnspecified a = true ↔ a = ipv6AddrUnspecified := by
  simp [ipv6AddrIsUnspecified]

theorem cbRreqEndCallback_outcome (cfg : Conf) (now : Timex) (s : Node) :
    RreqOutcome cfg now s (cbRreqEndCallback cfg now false s) := by
  unfold cbRreqEndCallback
  dsimp only
  rw [if_neg Bool.false_ne_true]
  refine iteInduction (fun h => .refused fun hc => ?_) fun h₁ => ?_
  · simp [hc.1, hc.2.1, ipv6AddrIsUnspecified] at h
  refine iteInduction (fun h => .refused fun hc => ?_) fun h₂ => ?_
  · exact hc.2.2.1 (ipv6AddrIsUnspecified_iff.mp h)
  refine iteInduction (fun h => .refused fun hc => hc.2.2.2.1 h) fun h₃ => ?_
  refine iteInduction (fun h => .refused fun hc => ?_) fun h₄ => ?_
  · rw [hc.2.2.2.2] at h
    cases h
  have hchecks : RreqChecks cfg s.msgData := by
    simp only [Bool.or_eq_true, not_or, ipv6AddrIsUnspecified_iff, beq_iff_eq] at h₁ h₂
    exact ⟨h₁.1, h₁.2, h₂, h₃, by simpa using h₄⟩
  refine iteInduction (fun h => .redundant hchecks h) fun hseen => ?_
  change RreqOutcome cfg now s (if (!(rreqTables cfg now s.msgData s.router).1) = true then _ else _)
  refine iteInduction (fun h => .noImprovement hchecks hseen (by simpa using h)) fun hupdated => ?_
  have hupdated' : (rreqTables cfg now s.msgData s.router).1 = true := by simpa using hupdated
  have hrcs := rreqTables_rcs cfg now s.msgData s.router
  refine iteInduction (fun h => .answered hchecks hseen hupdated' ?_)
    fun h => .forwarded hchecks hseen hupdated' ?_
  · unfold IsClient
    rw [← hrcs]
    exact h
  · unfold IsClient
    rw [← hrcs]
    exact h

theorem cbRrepEndCallback_outcome (cfg : Conf) (now : Timex) (s : Node) :
    RrepOutcome cfg now s (cbRrepEndCallback cfg now false s) := by
  unfold cbRrepEndCallback
  dsimp only
  rw [if_neg Bool.false_ne_true]
  refine iteInduction (fun h => .refused fun hc => ?_) fun h₁ => ?_
  · simp [hc.1, hc.2.1, ipv6AddrIsUnspecified] at h
  refine iteInduction (fun h => .refused fun hc => ?_) fun h₂ => ?_
  · simp [hc.2.2.1, hc.2.2.2.1, ipv6AddrIsUnspecified] at h
  refine iteInduction (fun h => .refused fun hc => ?_) fun h₃ => ?_
  · rw [hc.2.2.2.2] at h
    cases h
  have hchecks : RrepChecks cfg s.msgData := by
    simp only [Bool.or_eq_true, not_or, ipv6AddrIsUnspecified_iff, beq_iff_eq] at h₁ h₂
    exact ⟨h₁.1, h₁.2, h₂.1, h₂.2, by simpa using h₃⟩
  change RrepOutcome cfg now s (if (!(rrepTables cfg now s.msgData s.router).1) = true then _ else _)
  refine iteInduction (fun h => .noImprovement hchecks (by simpa using h)) fun hupdated => ?_
  have hupdated' : (rrepTables cfg now s.msgData s.router).1 = true := by simpa using hupdated
  have hrcs := rrepTables_rcs cfg now s.msgData s.router
  have hbuffer := rrepTables_buffer cfg now s.msgData s.router
  refine iteInduction (fun h => ?_) fun h => ?_
  · have hclient : IsClient s.router.rcs s.msgData.origNode.addr := by
      unfold IsClient
      rw [← hrcs]
      exact h
    have harrived := RrepOutcome.arrived hchecks hupdated' hclient
    rw [← hbuffer] at harrived
    exact harrived
  · have hclient : ¬ IsClient s.router.rcs s.msgData.origNode.addr := by
      unfold IsClient
      rw [← hrcs]
      exact h
    change RrepOutcome cfg now s
      (returnRrep (rrepRecord now s.msgData) (rrepNextHop cfg now s).2 (rrepRelayNode cfg now s))
    cases hhop : (rrepNextHop cfg now s).2 with
    | none => exact .noNextHop hchecks hupdated' hclient hhop
    | some hop => exact .relayed hchecks hupdated' hclient hhop

/-! ## §2 Adverts and the route tables -/

/-- What a message tells the route tables. The metric of the node is the
one after the update by the receiving router. -/
structure Advert where
  node : NodeData
  sender : Ipv6Addr
  metricType : RoutingMetric
  deriving DecidableEq, Repr

/-- The route it gives. -/
def Advert.route (cfg : Conf) (now : Timex) (a : Advert) : LocalRoute :=
  fillRoutingEntry cfg { sender := a.sender, metricType := a.metricType, timestamp := now } a.node
    (metricLinkCost a.metricType)

/-- A slot holds a route for the advertised node. -/
def Advert.matches (a : Advert) (e : LrsEntry) : Bool :=
  e.route.matchesDest a.node.addr a.metricType

/-- The lookup finds a route for its node. -/
def Advert.knows (cfg : Conf) (now : Timex) (a : Advert) (lrs : RoutingTable) : Bool :=
  (lrsGetEntry cfg now a.node.addr a.metricType lrs).2.isSome

/-- The tables take an advert when the lookup finds no route for its node, or
one that it improves on. -/
def Advert.taken (cfg : Conf) (now : Timex) (a : Advert) (lrs : RoutingTable) : Bool :=
  match lrsGetEntry cfg now a.node.addr a.metricType lrs with
  | (_, none) => true
  | (t, some i) => offersImprovement (routeAt t i) a.node

/-- What the two route tables do with an advert, and whether they take it. -/
inductive RouteUpdate (cfg : Conf) (now : Timex) (a : Advert) (lrs : RoutingTable) (nib : Nib) :
    Bool → RoutingTable → Nib → Prop
  | kept {t : RoutingTable} (aged : Aged cfg now lrs t) : RouteUpdate cfg now a lrs nib false t nib
  | full {t : RoutingTable} (aged : Aged cfg now lrs t) (absent : ∀ e ∈ t, a.matches e = false)
      (full : ∀ e ∈ t, e.used = true) (unknown : a.knows cfg now lrs = false) :
      RouteUpdate cfg now a lrs nib true t (nibFtAdd a.node.addr a.node.pfxLen a.sender nib)
  | created {t : RoutingTable} {i : Nat} {e : LrsEntry} (aged : Aged cfg now lrs t)
      (absent : ∀ e ∈ t, a.matches e = false) (slot : t[i]? = some e) (free : e.used = false) :
      RouteUpdate cfg now a lrs nib true (t.set i { route := a.route cfg now, used := true })
        (nibFtAdd a.node.addr a.node.pfxLen a.sender nib)
  | improved {t : RoutingTable} {i : Nat} {e : LrsEntry} (aged : Aged cfg now lrs t)
      (slot : t[i]? = some e) (present : a.matches e = true)
      (offers : offersImprovement e.route a.node = true) (known : a.knows cfg now lrs = true) :
      RouteUpdate cfg now a lrs nib true (t.set i { route := a.route cfg now, used := e.used })
        (nibFtAdd a.node.addr a.node.pfxLen a.sender nib)

/-- The create branch. -/
theorem createRoute_update {a : Advert} {t nib} {lrs : RoutingTable} {r : Router}
    (haddr : a.node.addr ≠ ipv6AddrUnspecified) (haged : Aged cfg now lrs t)
    (hnone : ∀ e ∈ t, a.matches e = false) (hunknown : a.knows cfg now lrs = false)
    (hlrs : r.lrs = t) (hnib : r.nib = nib) :
    RouteUpdate cfg now a lrs nib true
      (createRoute cfg now (a.route cfg now) a.node a.sender r).lrs
      (createRoute cfg now (a.route cfg now) a.node a.sender r).nib := by
  subst hlrs hnib
  change RouteUpdate cfg now a lrs r.nib true (lrsAddEntry cfg now (a.route cfg now) r.lrs)
    (nibFtAdd a.node.addr a.node.pfxLen a.sender r.nib)
  obtain ⟨t, haged', hnone', ⟨hfull, heq⟩ | ⟨i, e, hslot, hfree, heq⟩⟩ :=
    lrsAddEntry_cases cfg now (a.route cfg now) haddr hnone
  · rw [heq]
    exact .full (haged.trans haged') hnone' hfull hunknown
  · rw [heq]
    exact .created (haged.trans haged') hnone' hslot hfree

/-- `updateRoute` takes the adverts it should, and does with them what
`RouteUpdate` lists. -/
theorem updateRoute_update (msg : Message) {a : Advert} {r : Router}
    (haddr : a.node.addr ≠ ipv6AddrUnspecified) (hsender : msg.sender = a.sender)
    (htype : msg.metricType = a.metricType) :
    (updateRoute cfg now msg a.node (a.route cfg now) r).1 = a.taken cfg now r.lrs ∧
    RouteUpdate cfg now a r.lrs r.nib (a.taken cfg now r.lrs)
      (updateRoute cfg now msg a.node (a.route cfg now) r).2.lrs
      (updateRoute cfg now msg a.node (a.route cfg now) r).2.nib := by
  have haged := lrsGetEntry_aged cfg now a.node.addr a.metricType r.lrs
  have hsome : ∀ i, (lrsGetEntry cfg now a.node.addr a.metricType r.lrs).2 = some i →
      ∃ e, (lrsGetEntry cfg now a.node.addr a.metricType r.lrs).1[i]? = some e ∧
        e.route.matchesDest a.node.addr a.metricType = true := fun i h => lrsGetEntry_some h
  have hnone : (lrsGetEntry cfg now a.node.addr a.metricType r.lrs).2 = none →
      ∀ e ∈ (lrsGetEntry cfg now a.node.addr a.metricType r.lrs).1, a.matches e = false :=
    lrsGetEntry_none
  have hknows : a.knows cfg now r.lrs =
      (lrsGetEntry cfg now a.node.addr a.metricType r.lrs).2.isSome := rfl
  unfold updateRoute Advert.taken
  rw [htype, hsender]
  generalize lrsGetEntry cfg now a.node.addr a.metricType r.lrs = found at haged hsome hnone hknows
  obtain ⟨t, _ | i⟩ := found
  · exact ⟨rfl, createRoute_update haddr haged (hnone rfl) hknows rfl rfl⟩
  · obtain ⟨e, he, hmatch⟩ := hsome i rfl
    have hroute : routeAt t i = e.route := by
      unfold routeAt
      rw [he]
      rfl
    dsimp only
    -- The lookup has compared the metric type already.
    rw [hroute, if_neg (not_not_intro (matchesDest_iff.mp hmatch).2)]
    cases hoffer : offersImprovement e.route a.node with
    | false => exact ⟨rfl, .kept haged⟩
    | true =>
      have himproved : RouteUpdate cfg now a r.lrs r.nib true _ _ :=
        .improved haged he hmatch hoffer hknows
      rw [← nibFtAdd_del] at himproved
      have hused : (t[i]?.getD {}).used = e.used := by
        rw [he]
        rfl
      rw [← hused] at himproved
      exact ⟨rfl, himproved⟩

/-- The advert in the record of an RREQ. -/
def rreqAdvert (d : Message) : Advert where
  node := { d.origNode with metric := metricUpdate d.metricType d.origNode.metric }
  sender := d.sender
  metricType := d.metricType

/-- The advert in the record of an RREP. -/
def rrepAdvert (d : Message) : Advert where
  node := { d.targNode with metric := metricUpdate d.metricType d.targNode.metric }
  sender := d.sender
  metricType := d.metricType

/-- The advert an RREQ brings to the route tables. -/
def rreqAdvert? (cfg : Conf) (now : Timex) (d : Message) (r : Router) : Option Advert :=
  if RreqChecks cfg d ∧ ¬ Redundant cfg now d r then some (rreqAdvert d) else none

/-- The advert an RREP brings to the route tables. -/
def rrepAdvert? (cfg : Conf) (d : Message) : Option Advert :=
  if RrepChecks cfg d then some (rrepAdvert d) else none

theorem rreqTables_update (now : Timex) (r : Router) {d : Message} (h : RreqChecks cfg d) :
    (rreqTables cfg now d r).1 = (rreqAdvert d).taken cfg now r.lrs ∧
    RouteUpdate cfg now (rreqAdvert d) r.lrs r.nib ((rreqAdvert d).taken cfg now r.lrs)
      (rreqTables cfg now d r).2.lrs (rreqTables cfg now d r).2.nib :=
  updateRoute_update (rreqRecord now d) (a := rreqAdvert d)
    (r := recordRreq cfg now d r) h.1 rfl rfl

theorem rrepTables_update (now : Timex) (r : Router) {d : Message} (h : RrepChecks cfg d) :
    (rrepTables cfg now d r).1 = (rrepAdvert d).taken cfg now r.lrs ∧
    RouteUpdate cfg now (rrepAdvert d) r.lrs r.nib ((rrepAdvert d).taken cfg now r.lrs)
      (rrepTables cfg now d r).2.lrs (rrepTables cfg now d r).2.nib :=
  updateRoute_update (rrepRecord now d) (a := rrepAdvert d) h.2.2.1 rfl rfl

/-! ## §3 Received messages -/

/-- The node and the metric that a posted message advertises. -/
def Outgoing.advertised : Outgoing → Ipv6Addr × UInt8
  | .rreq pkt => (pkt.origNode.addr, pkt.origNode.metric)
  | .rrep pkt _ => (pkt.targNode.addr, pkt.targNode.metric)

/-- What a message does to a node, by the advert it brings. -/
inductive Handled (cfg : Conf) (now : Timex) (s s' : Node) : Option Advert → Prop
  | quiet (rcs : s'.router.rcs = s.router.rcs) (lrs : s'.router.lrs = s.router.lrs)
      (nib : s'.router.nib = s.router.nib) (outbox : s'.outbox = s.outbox) :
      Handled cfg now s s' none
  | updated {a : Advert} {t : RoutingTable}
      (rcs : s'.router.rcs = s.router.rcs)
      (update : RouteUpdate cfg now a s.router.lrs s.router.nib (a.taken cfg now s.router.lrs) t
        s'.router.nib)
      (aged : Aged cfg now t s'.router.lrs)
      (posted : ∀ o ∈ s'.outbox, o ∈ s.outbox ∨
        a.taken cfg now s.router.lrs = true ∧ o.advertised = (a.node.addr, a.node.metric) ∨
        IsClient s.router.rcs o.advertised.1) : Handled cfg now s s' (some a)

theorem cbRreqEndCallback_handled (cfg : Conf) (now : Timex) (s : Node) :
    Handled cfg now s (cbRreqEndCallback cfg now false s).2
      (rreqAdvert? cfg now s.msgData s.router) := by
  have hout := cbRreqEndCallback_outcome cfg now s
  generalize cbRreqEndCallback cfg now false s = result at hout ⊢
  unfold rreqAdvert?
  cases hout with
  | refused hchecks =>
    rw [if_neg fun h => hchecks h.1]
    exact .quiet rfl rfl rfl rfl
  | redundant hchecks hseen =>
    rw [if_neg fun h => h.2 hseen]
    exact .quiet rfl rfl rfl rfl
  | noImprovement hchecks hseen hkept =>
    rw [if_pos ⟨hchecks, hseen⟩]
    exact .updated (rreqTables_rcs _ _ _ _) (rreqTables_update now s.router hchecks).2 (.refl _)
      fun o ho => Or.inl ho
  | answered hchecks hseen hupdated hclient =>
    rw [if_pos ⟨hchecks, hseen⟩]
    refine .updated (rreqTables_rcs _ _ _ _) (rreqTables_update now s.router hchecks).2 (.refl _)
      fun o ho => ?_
    rcases List.mem_append.mp ho with ho | ho
    · exact Or.inl ho
    · rw [List.mem_singleton.mp ho]
      exact Or.inr (Or.inr hclient)
  | forwarded hchecks hseen hupdated hclient =>
    have htaken := (rreqTables_update now s.router hchecks).1
    rw [if_pos ⟨hchecks, hseen⟩]
    refine .updated (rreqTables_rcs _ _ _ _) (rreqTables_update now s.router hchecks).2 (.refl _)
      fun o ho => ?_
    rcases List.mem_append.mp ho with ho | ho
    · exact Or.inl ho
    · rw [List.mem_singleton.mp ho]
      exact Or.inr (Or.inl ⟨htaken ▸ hupdated, rfl⟩)

theorem cbRrepEndCallback_handled (cfg : Conf) (now : Timex) (s : Node) :
    Handled cfg now s (cbRrepEndCallback cfg now false s).2 (rrepAdvert? cfg s.msgData) := by
  have hout := cbRrepEndCallback_outcome cfg now s
  generalize cbRrepEndCallback cfg now false s = result at hout ⊢
  have haged : Aged cfg now (rrepTables cfg now s.msgData s.router).2.lrs (rrepNextHop cfg now s).1 :=
    lrsGetEntry_aged _ _ _ _ _
  unfold rrepAdvert?
  cases hout with
  | refused hchecks =>
    rw [if_neg hchecks]
    exact .quiet rfl rfl rfl rfl
  | noImprovement hchecks hkept =>
    rw [if_pos hchecks]
    exact .updated (rrepTables_rcs _ _ _ _) (rrepTables_update now s.router hchecks).2 (.refl _)
      fun o ho => Or.inl ho
  | arrived hchecks hupdated hclient =>
    rw [if_pos hchecks]
    exact .updated (rrepTables_rcs _ _ _ _) (rrepTables_update now s.router hchecks).2 (.refl _)
      fun o ho => Or.inl ho
  | relayed hchecks hupdated hclient hhop =>
    have htaken := (rrepTables_update now s.router hchecks).1
    rw [if_pos hchecks]
    refine .updated (rrepTables_rcs _ _ _ _) (rrepTables_update now s.router hchecks).2 haged
      fun o ho => ?_
    rcases List.mem_append.mp ho with ho | ho
    · exact Or.inl ho
    · rw [List.mem_singleton.mp ho]
      exact Or.inr (Or.inl ⟨htaken ▸ hupdated, rfl⟩)
  | noNextHop hchecks hupdated hclient hhop =>
    rw [if_pos hchecks]
    exact .updated (rrepTables_rcs _ _ _ _) (rrepTables_update now s.router hchecks).2 haged
      fun o ho => Or.inl ho

/-- A message received from a neighbour. -/
def receive (cfg : Conf) (now : Timex) (sender : Ipv6Addr) (msg : MessageContext) (s : Node) :
    Node :=
  (consumeMessage cfg now msg (handlePacketPrepare sender s)).2

/-- The advert it brings to the route tables, if it is accepted. -/
def advert? (cfg : Conf) (now : Timex) (sender : Ipv6Addr) (msg : MessageContext) (s : Node) :
    Option Advert :=
  let d := { s.msgData with sender := sender }
  if msg.msgType = msgtypeRreq then
    match decodeMessage rreqCallbacks msg d with
    | (.ok .okay, st) => rreqAdvert? cfg now st.msgData s.router
    | _ => none
  else if msg.msgType = msgtypeRrep then
    match decodeMessage rrepCallbacks msg d with
    | (.ok .okay, st) => rrepAdvert? cfg st.msgData
    | _ => none
  else none

/-- What the record held before does not matter to the tables. -/
theorem Handled.of_msgData {s s' : Node} {d : Message} {a : Option Advert}
    (h : Handled cfg now { s with msgData := d } s' a) : Handled cfg now s s' a := by
  cases h with
  | quiet rcs lrs nib outbox => exact .quiet rcs lrs nib outbox
  | updated rcs update aged posted => exact .updated rcs update aged posted

/-- The consumer of one message type, given what its end callback does. -/
theorem consumeWith_handled (cbs : Callbacks) (adv : Message → Router → Option Advert)
    (hdrop : ∀ s, cbs.endCallback cfg now true s = (.ok .dropPacket, s))
    (hend : ∀ s, Handled cfg now s (cbs.endCallback cfg now false s).2 (adv s.msgData s.router))
    (msg : MessageContext) (s : Node) :
    Handled cfg now s (consumeWith cfg now cbs msg s).2
      (match decodeMessage cbs msg s.msgData with
        | (.ok .okay, st) => adv st.msgData s.router
        | _ => none) := by
  unfold consumeWith
  dsimp only
  generalize decodeMessage cbs msg s.msgData = decoded
  obtain ⟨r, st⟩ := decoded
  cases r with
  | error f => exact .quiet rfl rfl rfl rfl
  | ok r =>
    by_cases hr : r = .okay
    · subst hr
      have hhandled := (hend { s with msgData := st.msgData }).of_msgData
      dsimp only
      rw [show decide (Rfc5444Result.okay ≠ .okay) = false from rfl]
      generalize cbs.endCallback cfg now false { s with msgData := st.msgData } = ended at hhandled ⊢
      obtain ⟨e | e, s'⟩ := ended
      · exact hhandled
      · exact hhandled
    · dsimp only
      rw [decide_eq_true hr, hdrop]
      cases r with
      | okay => exact absurd rfl hr
      | _ => exact .quiet rfl rfl rfl rfl

/-- **What a received message does to a node.** -/
theorem receive_handled (cfg : Conf) (now : Timex) (sender : Ipv6Addr) (msg : MessageContext)
    (s : Node) :
    Handled cfg now s (receive cfg now sender msg s) (advert? cfg now sender msg s) := by
  have hrreq := consumeWith_handled rreqCallbacks (rreqAdvert? cfg now)
    (fun _ => rfl) (cbRreqEndCallback_handled cfg now) msg
    (handlePacketPrepare sender s)
  have hrrep := consumeWith_handled rrepCallbacks (fun d _ => rrepAdvert? cfg d)
    (fun _ => rfl) (cbRrepEndCallback_handled cfg now) msg
    (handlePacketPrepare sender s)
  unfold receive advert? consumeMessage
  dsimp only
  split
  · exact hrreq.of_msgData
  · split
    · exact hrrep.of_msgData
    · exact .quiet rfl rfl rfl rfl

/-- Nothing a neighbour sends changes the clients of a router. -/
theorem receive_rcs (cfg : Conf) (now : Timex) (sender : Ipv6Addr) (msg : MessageContext)
    (s : Node) : (receive cfg now sender msg s).router.rcs = s.router.rcs := by
  have h := receive_handled cfg now sender msg s
  generalize advert? cfg now sender msg s = a at h
  cases h with
  | quiet rcs => exact rcs
  | updated rcs => exact rcs

/-- What is known of every advert that reaches the route tables. -/
structure AdvertSound (cfg : Conf) (sender : Ipv6Addr) (a : Advert) : Prop where
  sender : a.sender = sender
  addr : a.node.addr ≠ ipv6AddrUnspecified
  metricType : a.metricType = metricHopCount
  metric : a.node.metric.toNat + 1 ≤ cfg.metricHopCountMax.toNat

theorem metricUpdate_sound {t : RoutingMetric} {metric : UInt8}
    (h : metricLimitReached cfg t metric = false) :
    t = metricHopCount ∧ (metricUpdate t metric).toNat = metric.toNat + 1 ∧
      (metricUpdate t metric).toNat + 1 ≤ cfg.metricHopCountMax.toNat := by
  obtain ⟨ht, hle⟩ := of_not_metricLimitReached h
  have hmax := cfg.metricHopCountMax.toNat_lt
  have hone : (metric + 1).toNat = metric.toNat + 1 := by
    rw [UInt8.toNat_add]
    exact Nat.mod_eq_of_lt (by change metric.toNat + 1 < 256; omega)
  subst ht
  refine ⟨rfl, hone, ?_⟩
  change (metric + 1).toNat + 1 ≤ _
  omega

/-! No address writes the fields that are not about a node. -/

/-- Those fields of the record. -/
def Message.header (d : Message) : UInt8 × Ipv6Addr × Ipv6Addr × Timex :=
  (d.msgHopLimit, d.sender, d.seqnortr, d.timestamp)

section Header

variable (src : Netaddr) (v : UInt8) (d : Message)

@[simp] theorem header_setOrigAddr : (d.setOrigAddr src).header = d.header := rfl

@[simp] theorem header_setOrigAddrRrep : (d.setOrigAddrRrep src).header = d.header := rfl

@[simp] theorem header_setTargAddr : (d.setTargAddr src).header = d.header := rfl

@[simp] theorem header_setOrigSeqnum : (d.setOrigSeqnum v).header = d.header := rfl

@[simp] theorem header_setTargSeqnum : (d.setTargSeqnum v).header = d.header := rfl

@[simp] theorem header_setMetricType : (d.setMetricType v).header = d.header := rfl

@[simp] theorem header_setMetric : (d.setMetric v).header = d.header := rfl

end Header

theorem rreqRules_header (cont : AddrContext) (d : Message) :
    (rreqRules.decode cont d).header = d.header := by
  unfold rreqRules
  obtain ⟨addr, idx, o, t, m⟩ := cont
  cases o <;> cases t <;> cases m <;> simp

theorem rrepRules_header (cont : AddrContext) (d : Message) :
    (rrepRules.decode cont d).header = d.header := by
  unfold rrepRules
  obtain ⟨addr, idx, o, t, m⟩ := cont
  cases o <;> cases t <;> cases m <;> simp

theorem rreqRules_sender (cont : AddrContext) (d : Message) :
    (rreqRules.decode cont d).sender = d.sender :=
  congrArg (fun h => h.2.1) (rreqRules_header cont d)

theorem rrepRules_sender (cont : AddrContext) (d : Message) :
    (rrepRules.decode cont d).sender = d.sender :=
  congrArg (fun h => h.2.1) (rrepRules_header cont d)

/-- The record behind an advert, by message type. -/
theorem advert?_some {sender : Ipv6Addr} {msg : MessageContext} {s : Node} {a : Advert}
    (h : advert? cfg now sender msg s = some a) :
    (∃ st, msg.msgType = msgtypeRreq ∧
      decodeMessage rreqCallbacks msg { s.msgData with sender := sender } = (.ok .okay, st) ∧
      RreqChecks cfg st.msgData ∧ a = rreqAdvert st.msgData) ∨
    (∃ st, msg.msgType = msgtypeRrep ∧
      decodeMessage rrepCallbacks msg { s.msgData with sender := sender } = (.ok .okay, st) ∧
      RrepChecks cfg st.msgData ∧ a = rrepAdvert st.msgData) := by
  unfold advert? at h
  dsimp only at h
  split at h
  · rename_i htype
    split at h
    · rename_i st hdec
      unfold rreqAdvert? at h
      split at h
      · rename_i hchecks
        exact Or.inl ⟨st, htype, hdec, hchecks.1, (Option.some.inj h).symm⟩
      · cases h
    · cases h
  · split at h
    · rename_i htype
      split at h
      · rename_i st hdec
        unfold rrepAdvert? at h
        split at h
        · rename_i hchecks
          exact Or.inr ⟨st, htype, hdec, hchecks, (Option.some.inj h).symm⟩
        · cases h
      · cases h
    · cases h

theorem rreqAdvert_sound {d : Message} (h : RreqChecks cfg d) :
    AdvertSound cfg d.sender (rreqAdvert d) := by
  obtain ⟨htype, -, hle⟩ := metricUpdate_sound h.2.2.2.2
  exact ⟨rfl, h.1, htype, hle⟩

theorem rrepAdvert_sound {d : Message} (h : RrepChecks cfg d) :
    AdvertSound cfg d.sender (rrepAdvert d) := by
  obtain ⟨htype, -, hle⟩ := metricUpdate_sound h.2.2.2.2
  exact ⟨rfl, h.2.2.1, htype, hle⟩

theorem advert?_sound {sender : Ipv6Addr} {msg : MessageContext} {s : Node} {a : Advert}
    (h : advert? cfg now sender msg s = some a) : AdvertSound cfg sender a := by
  rcases advert?_some h with ⟨st, -, hdec, hchecks, rfl⟩ | ⟨st, -, hdec, hchecks, rfl⟩
  · obtain ⟨hop, conts, -, hrec⟩ := decodeMessage_okay rreq_follows hdec
    have hsender : st.msgData.sender = sender := by
      rw [hrec]
      exact decodeAll_keeps Message.sender rreqRules_sender _ _
    exact hsender ▸ rreqAdvert_sound hchecks
  · obtain ⟨hop, conts, -, hrec⟩ := decodeMessage_okay rrep_follows hdec
    have hsender : st.msgData.sender = sender := by
      rw [hrec]
      exact decodeAll_keeps Message.sender rrepRules_sender _ _
    exact hsender ▸ rrepAdvert_sound hchecks

/-- The metric of the route is one more than the advertised one. -/
theorem AdvertSound.route_metric {sender : Ipv6Addr} {a : Advert} (h : AdvertSound cfg sender a) :
    (a.route cfg now).metric.toNat = a.node.metric.toNat + 1 := by
  have hmax := cfg.metricHopCountMax.toNat_lt
  have hmetric := h.metric
  change (a.node.metric + metricLinkCost a.metricType).toNat = _
  rw [h.metricType, UInt8.toNat_add]
  exact Nat.mod_eq_of_lt (by change a.node.metric.toNat + 1 < 256; omega)

end Turpial.Aodvv2
