/-
Turpial.Aodvv2.ImprovementTheorems — which route replaces which.

The rule is that a route gives way to information that is not older, and
that is newer, cheaper, or about a broken route. `offersImprovement`
compares the sequence numbers the other way round and asks for the metric
only when the route is broken, where it then refuses anyway; §1 says for
which routes the two agree.

§2 is the charge for the link a message came over. The end callback of an
RREQ adds it to the metric of the message, and the fill function once more
to the metric of the route. So no route has the metric that is forwarded,
and the message that brought a route always improves on it.
-/
import Turpial.Aodvv2.DiscoveryTheorems

namespace Turpial.Aodvv2

open Turpial.Lib

variable {cfg : Conf} {now : Timex}

/-! ## §1 The rule -/

/-- What a node says replaces a route: it is not older, and it is newer,
cheaper, or the route is broken. -/
def Replaces (route : LocalRoute) (node : NodeData) : Prop :=
  0 ≤ seqnumCmp route.seqnum node.seqnum ∧
    (0 < seqnumCmp route.seqnum node.seqnum ∨ node.metric < route.metric ∨ route.state = .broken)

instance (route : LocalRoute) (node : NodeData) : Decidable (Replaces route node) :=
  inferInstanceAs (Decidable (_ ∧ _))

/-- The answer of the code is that of the rule; so older information never
replaces a route, and at the same sequence number a usable route is only
replaced by a cheaper one. -/
structure FollowsRule (route : LocalRoute) (node : NodeData) : Prop where
  offers_iff : offersImprovement route node = true ↔ Replaces route node
  fresh : offersImprovement route node = true → ¬ seqnumCmp route.seqnum node.seqnum < 0
  cheaper : offersImprovement route node = true → node.seqnum = route.seqnum →
    route.state ≠ .broken → node.metric < route.metric

/-- Where the code and the rule agree: both take the information (it is as
new and cheaper, and the route not broken), or both leave it (it is older
and the route broken, or the numbers are half the number space apart). -/
def AgreesWithRule (route : LocalRoute) (node : NodeData) : Prop :=
  node.seqnum = route.seqnum ∧ route.state ≠ .broken ∧ node.metric < route.metric ∨
    seqnumCmp route.seqnum node.seqnum < 0 ∧ route.state = .broken ∨
    seqnumCmp route.seqnum node.seqnum = -32768

instance (route : LocalRoute) (node : NodeData) : Decidable (AgreesWithRule route node) :=
  inferInstanceAs (Decidable (_ ∨ _))

/-- **The replacement rule holds exactly** where the two slips of the code do
not show. -/
theorem followsRule_iff (route : LocalRoute) (node : NodeData) :
    FollowsRule route node ↔ AgreesWithRule route node := by
  have heq : node.seqnum = route.seqnum ↔ seqnumCmp route.seqnum node.seqnum = 0 := by
    rw [seqnumCmp_eq_zero_iff, eq_comm]
  unfold AgreesWithRule
  rw [heq]
  constructor
  · rintro ⟨hiff, -, -⟩
    rw [offersImprovement_eq_true_iff] at hiff
    unfold Replaces at hiff
    generalize seqnumCmp route.seqnum node.seqnum = c at hiff ⊢
    by_cases hbroken : route.state = .broken
    · by_cases hcheaper : node.metric < route.metric <;> simp [hbroken, hcheaper] at hiff ⊢ <;> omega
    · by_cases hcheaper : node.metric < route.metric <;> simp [hbroken, hcheaper] at hiff ⊢ <;> omega
  · intro h
    refine ⟨?_, ?_, ?_⟩
    · rw [offersImprovement_eq_true_iff]
      unfold Replaces
      generalize seqnumCmp route.seqnum node.seqnum = c at h ⊢
      rcases h with ⟨rfl, hstate, hmetric⟩ | ⟨hneg, hstate⟩ | rfl
      · simp [hstate, hmetric]
      · simp [hstate]
        omega
      · simp
    · intro hoffers
      rw [offersImprovement_eq_true_iff] at hoffers
      rcases h with ⟨hzero, -, -⟩ | ⟨-, hstate⟩ | hhalf
      · rw [hzero]
        exact Int.lt_irrefl 0
      · exact absurd hstate hoffers.2
      · exact absurd (Or.inr hhalf) hoffers.1
    · intro hoffers hseq hstate
      rw [heq] at hseq
      rcases h with ⟨-, -, hmetric⟩ | ⟨-, hbroken⟩ | hhalf
      · exact hmetric
      · exact absurd hbroken hstate
      · rw [hseq] at hhalf
        exact absurd hhalf (by decide)

/-- An Active route to `::1` over `::5`. -/
def sampleStored : LocalRoute where
  addr := 1#128
  pfxLen := 128
  seqnum := 7
  nextHop := 5#128
  expirationTime := 205000000
  metricType := metricHopCount
  metric := 3

/-- The same sequence number and a greater metric replace it. -/
theorem offersImprovement_breaks_rule :
    ¬ FollowsRule sampleStored { addr := 1#128, pfxLen := 128, seqnum := 7, metric := 5 } := by
  intro h
  exact absurd (h.cheaper rfl rfl (by decide)) (by decide)

/-! ## §2 The charge for a link -/

/-- After an advert that the tables take, a route to its node is the route
that it brought. -/
theorem RouteUpdate.stored {a : Advert} {lrs t : RoutingTable} {nib nib' : Nib}
    (h : RouteUpdate cfg now a lrs nib true t nib') {sender : Ipv6Addr}
    (hsound : AdvertSound cfg sender a) (hinv : MapInv lrs) {e : LrsEntry} (he : e ∈ t)
    (hmatch : a.matches e = true) : e.route = a.route cfg now := by
  cases h with
  | full aged absent =>
    rw [absent e he] at hmatch
    cases hmatch
  | created aged absent slot free =>
    rcases List.mem_or_eq_of_mem_set he with he | rfl
    · rw [absent e he] at hmatch
      cases hmatch
    · rfl
  | @improved t i f aged slot present =>
    obtain ⟨j, hj⟩ := List.getElem?_of_mem he
    rcases getElem?_written_cases hj with ⟨-, rfl⟩ | ⟨hij, hj⟩
    · rfl
    · -- The key is held once, so no other slot can match.
      exact absurd ((hinv.aged aged).distinct.unique hj slot
        ((Advert.matches_iff_key hsound).mp hmatch) ((Advert.matches_iff_key hsound).mp present)) hij

/-- The RREQ in the record is accepted and leaves a route to OrigNode in the
table. -/
structure LeavesRoute (cfg : Conf) (now : Timex) (s : Node) (e : LrsEntry) : Prop where
  accepted : (cbRreqEndCallback cfg now false s).1 = .ok .okay
  stored : e ∈ (cbRreqEndCallback cfg now false s).2.router.lrs
  dest : e.route.matchesDest s.msgData.origNode.addr s.msgData.metricType = true

instance (cfg : Conf) (now : Timex) (s : Node) (e : LrsEntry) :
    Decidable (LeavesRoute cfg now s e) :=
  decidable_of_iff ((cbRreqEndCallback cfg now false s).1 = .ok .okay ∧
      e ∈ (cbRreqEndCallback cfg now false s).2.router.lrs ∧
      e.route.matchesDest s.msgData.origNode.addr s.msgData.metricType = true)
    ⟨fun h => ⟨h.1, h.2.1, h.2.2⟩, fun h => ⟨h.accepted, h.stored, h.dest⟩⟩

/-- The messages that an end callback has posted. -/
def posted (s : Node) (result : EndResult) : List Outgoing :=
  result.2.outbox.drop s.outbox.length

/-- The link to the sender is charged once: the route has the metric from
the wire and one link cost, the RREQ that is forwarded has the same metric,
and the updated data of OrigNode does not improve on the route. -/
structure ChargedOnce (cfg : Conf) (now : Timex) (s : Node) (e : LrsEntry) : Prop where
  stored : e.route.metric.toNat =
    s.msgData.origNode.metric.toNat + (metricLinkCost s.msgData.metricType).toNat
  forwarded : ∀ pkt, Outgoing.rreq pkt ∈ posted s (cbRreqEndCallback cfg now false s) →
    pkt.origNode.metric = e.route.metric
  settled : offersImprovement e.route
    (cbRreqEndCallback cfg now false s).2.msgData.origNode = false

/-- The route that an accepted RREQ leaves, and what it forwards. -/
theorem LeavesRoute.route {s : Node} {e : LrsEntry} (h : LeavesRoute cfg now s e)
    (hinv : MapInv s.router.lrs) :
    RreqChecks cfg s.msgData ∧ e.route = (rreqAdvert s.msgData).route cfg now ∧
      (cbRreqEndCallback cfg now false s).2.msgData.origNode = (rreqAdvert s.msgData).node ∧
      ∀ pkt, Outgoing.rreq pkt ∈ posted s (cbRreqEndCallback cfg now false s) →
        pkt.origNode = (rreqAdvert s.msgData).node := by
  obtain ⟨haccepted, hstored, hdest⟩ := h
  have hout := cbRreqEndCallback_outcome cfg now s
  unfold posted
  generalize cbRreqEndCallback cfg now false s = result at haccepted hstored hout ⊢
  have hupdate : ∀ hchecks : RreqChecks cfg s.msgData,
      (rreqTables cfg now s.msgData s.router).1 = true →
      e ∈ (rreqTables cfg now s.msgData s.router).2.lrs →
      e.route = (rreqAdvert s.msgData).route cfg now := by
    intro hchecks htaken he
    obtain ⟨heq, hup⟩ := rreqTables_update now s.router hchecks
    rw [← heq, htaken] at hup
    exact hup.stored (rreqAdvert_sound hchecks) hinv he hdest
  cases hout with
  | refused => cases haccepted
  | redundant => cases haccepted
  | noImprovement => cases haccepted
  | answered hchecks hseen hupdated =>
    refine ⟨hchecks, hupdate hchecks hupdated hstored, rfl, fun pkt hpkt => ?_⟩
    simp at hpkt
  | forwarded hchecks hseen hupdated =>
    refine ⟨hchecks, hupdate hchecks hupdated hstored, rfl, fun pkt hpkt => ?_⟩
    simp only [List.drop_left, List.mem_singleton, Outgoing.rreq.injEq] at hpkt
    rw [hpkt]
    rfl

/-- An advert improves on the route that it has brought itself. -/
theorem Advert.offers_own_route (a : Advert) :
    offersImprovement (a.route cfg now) a.node = true := by
  have hzero : seqnumCmp (a.route cfg now).seqnum a.node.seqnum = 0 := seqnumCmp_self _
  rw [offersImprovement_eq_true_iff, hzero]
  exact ⟨by decide, fun h => nomatch h⟩

/-- **The link is charged twice, and a route does not settle**: whatever RREQ
leaves a route in a state that a node reaches, its metric is two above the
one on the wire, the one that is forwarded is one above it, and the same
data offers an improvement again. -/
theorem link_charged_twice (cfg : Conf) (sizes : Sizes) (rcs : RouterClientSet)
    (events : List NodeEvent) (now : Timex) (d : Message) (e : LrsEntry)
    (h : LeavesRoute cfg now
      { run (nodeStep cfg) events (Node.init sizes rcs) with msgData := d } e) :
    let s := { run (nodeStep cfg) events (Node.init sizes rcs) with msgData := d }
    ¬ ChargedOnce cfg now s e ∧
      e.route.metric.toNat = d.origNode.metric.toNat + 2 ∧ (metricLinkCost d.metricType).toNat = 1 ∧
      (∀ pkt, Outgoing.rreq pkt ∈ posted s (cbRreqEndCallback cfg now false s) →
        pkt.origNode.metric.toNat = d.origNode.metric.toNat + 1) ∧
      offersImprovement e.route (cbRreqEndCallback cfg now false s).2.msgData.origNode = true := by
  have hinv := nodeRun_mapInv cfg sizes rcs events
  obtain ⟨hchecks, hroute, hnode, hposted⟩ := h.route hinv
  intro s
  obtain ⟨htype, hupdated, -⟩ := metricUpdate_sound hchecks.2.2.2.2
  have hstored : e.route.metric.toNat = d.origNode.metric.toNat + 2 := by
    rw [hroute, (rreqAdvert_sound hchecks).route_metric]
    exact congrArg (· + 1) hupdated
  have hcost : (metricLinkCost d.metricType).toNat = 1 := by
    rw [show d.metricType = metricHopCount from htype]
    rfl
  have hoffers : offersImprovement e.route
      (cbRreqEndCallback cfg now false s).2.msgData.origNode = true := by
    rw [hnode, hroute]
    exact Advert.offers_own_route _
  refine ⟨fun hcharged => ?_, hstored, hcost, fun pkt hpkt => ?_, hoffers⟩
  · have hsettled := hcharged.settled
    rw [hoffers] at hsettled
    cases hsettled
  · rw [hposted pkt hpkt]
    exact hupdated

/-- An RREQ of `::7` for `::9`, heard from `::5` after three links. -/
def sampleHeard : Message where
  msgHopLimit := 20
  sender := 5#128
  metricType := metricHopCount
  origNode := { addr := 7#128, pfxLen := 128, metric := 3, seqnum := 1 }
  targNode := { addr := 9#128, pfxLen := 128 }

/-- The slot it fills in a router at rest. -/
def sampleHeardSlot : LrsEntry where
  route := (rreqAdvert sampleHeard).route .default 0
  used := true

theorem link_charged_twice_heard :
    sampleHeardSlot.route.metric.toNat = 5 :=
  (link_charged_twice .default ⟨2, 2, 0⟩ [] [] 0 sampleHeard sampleHeardSlot
    (by decide +kernel)).2.1

/-- The route is stored with metric 5, and the RREQ goes on with metric 4. -/
theorem link_not_charged_once :
    LeavesRoute .default 0 { Node.init ⟨2, 2, 0⟩ [] with msgData := sampleHeard } sampleHeardSlot ∧
      ¬ ChargedOnce .default 0 { Node.init ⟨2, 2, 0⟩ [] with msgData := sampleHeard }
        sampleHeardSlot := by
  refine ⟨by decide +kernel, fun h => ?_⟩
  exact absurd h.stored (by decide +kernel)

end Turpial.Aodvv2
