/-
Turpial.Aodvv2.RelayTheorems — the way back of an RREP.

An RREP that is not for a client goes on to the next hop that the Local
Route Set has for OrigNode. `_cb_rrep_end_callback` does not ask whether
there is one, nor whether it has expired: `aodvv2_send_rrep` is called
either way. So an RREP is relayed rightly exactly when a route to OrigNode
is in the set and in time.

§1 follows such a route through the update of the route to TargNode, which
comes first and may itself bring it (an RREP may name one node as both).
§2 is the lookup and the theorem.
-/
import Turpial.Aodvv2.CallTheorems
import Turpial.Aodvv2.ImprovementTheorems

namespace Turpial.Aodvv2

open Turpial.Lib

variable {cfg : Conf} {now : Timex}

/-! ## §1 Routes in time -/

/-- The slot holds a route to this destination that has not expired. -/
def InTime (now : Timex) (addr : Ipv6Addr) (ty : RoutingMetric) (e : LrsEntry) : Prop :=
  e.route.matchesDest addr ty = true ∧ now < e.route.expirationTime

instance (now : Timex) (addr : Ipv6Addr) (ty : RoutingMetric) (e : LrsEntry) :
    Decidable (InTime now addr ty e) :=
  inferInstanceAs (Decidable (_ ∧ _))

theorem SameRoute.expirationTime {r r' : LocalRoute} (h : SameRoute now r r') :
    r'.expirationTime = r.expirationTime := by
  obtain ⟨state, lastUsed, rfl, -⟩ := h
  rfl

/-- A route in time is not expunged. -/
theorem InTime.kept {addr : Ipv6Addr} {ty : RoutingMetric} {e : LrsEntry}
    (h : InTime now addr ty e) : ¬ Expunged cfg now e.route :=
  fun hexp => absurd hexp.2.2.1 (Nat.not_le.mpr h.2)

/-- Ageing neither brings nor takes a route in time. -/
theorem Aged.inTime_iff {t t' : RoutingTable} (h : Aged cfg now t t') {addr : Ipv6Addr}
    {ty : RoutingMetric} (haddr : addr ≠ ipv6AddrUnspecified) :
    (∃ e ∈ t', InTime now addr ty e) ↔ ∃ e ∈ t, InTime now addr ty e := by
  constructor
  · rintro ⟨e', he', hmatch, htime⟩
    obtain ⟨e, he, hslot⟩ := h.mem he'
    have hsame := hslot.same_of_addr (by rw [(matchesDest_iff.mp hmatch).1]; exact haddr)
    exact ⟨e, he, (hsame.matchesDest addr ty).symm.trans hmatch, hsame.expirationTime ▸ htime⟩
  · rintro ⟨e, he, hintime⟩
    obtain ⟨e', he', hslot⟩ := h.mem_of he
    have hsame := hslot.same hintime.kept
    exact ⟨e', he', (hsame.matchesDest addr ty).trans hintime.1,
      hsame.expirationTime.symm ▸ hintime.2⟩

/-- Writing a slot neither brings nor takes a route to another destination. -/
theorem inTime_set_iff {t : RoutingTable} {i : Nat} {e y : LrsEntry} {addr : Ipv6Addr}
    {ty : RoutingMetric} (he : t[i]? = some e) (hold : e.route.matchesDest addr ty = false)
    (hnew : y.route.matchesDest addr ty = false) :
    (∃ x ∈ t.set i y, InTime now addr ty x) ↔ ∃ x ∈ t, InTime now addr ty x := by
  constructor
  · rintro ⟨x, hx, hintime⟩
    rcases List.mem_or_eq_of_mem_set hx with hx | rfl
    · exact ⟨x, hx, hintime⟩
    · rw [hintime.1] at hnew
      cases hnew
  · rintro ⟨x, hx, hintime⟩
    obtain ⟨j, hj⟩ := List.getElem?_of_mem hx
    -- The slot of a route that matches is not the one that is written.
    have hij : i ≠ j := by
      rintro rfl
      rw [he] at hj
      cases hj
      rw [hintime.1] at hold
      cases hold
    exact ⟨x, List.mem_of_getElem? ((List.getElem?_set_ne hij).trans hj), hintime⟩

/-- The Local Route Set stays a map. -/
theorem RouteUpdate.mapInv {a : Advert} {lrs t : RoutingTable} {nib nib' : Nib} {taken : Bool}
    (h : RouteUpdate cfg now a lrs nib taken t nib') {sender : Ipv6Addr}
    (hsound : AdvertSound cfg sender a) (hinv : MapInv lrs) : MapInv t := by
  cases h with
  | kept aged => exact hinv.aged aged
  | full aged => exact hinv.aged aged
  | created aged absent slot free => exact (hinv.aged aged).created hsound absent slot free
  | improved aged slot present => exact (hinv.aged aged).improved hsound slot present

/-- The update of a route leaves the routes to other destinations. -/
theorem RouteUpdate.inTime_other {a : Advert} {lrs t : RoutingTable} {nib nib' : Nib}
    {taken : Bool} (h : RouteUpdate cfg now a lrs nib taken t nib') (hinv : MapInv lrs)
    {addr : Ipv6Addr} {ty : RoutingMetric} (haddr : addr ≠ ipv6AddrUnspecified)
    (hne : addr ≠ a.node.addr) :
    (∃ e ∈ t, InTime now addr ty e) ↔ ∃ e ∈ lrs, InTime now addr ty e := by
  have hbrought : ∀ used, ({ route := a.route cfg now, used := used } : LrsEntry).route.matchesDest
      addr ty = false := by
    intro used
    refine Bool.eq_false_iff.mpr fun hmatch => hne ?_
    exact (matchesDest_iff.mp hmatch).1.symm
  cases h with
  | kept aged => exact aged.inTime_iff haddr
  | full aged => exact aged.inTime_iff haddr
  | @created t i e aged absent slot free =>
    refine (inTime_set_iff slot (Bool.eq_false_iff.mpr fun hmatch => ?_) (hbrought true)).trans
      (aged.inTime_iff haddr)
    -- A free slot holds no address.
    have hblank := (hinv.aged aged).free e (List.mem_of_getElem? slot) free
    exact haddr ((matchesDest_iff.mp hmatch).1.symm.trans hblank)
  | @improved t i e aged slot present =>
    refine (inTime_set_iff slot (Bool.eq_false_iff.mpr fun hmatch => ?_) (hbrought e.used)).trans
      (aged.inTime_iff haddr)
    exact hne ((matchesDest_iff.mp hmatch).1.symm.trans (matchesDest_iff.mp present).1)

/-- The update stores the route when its node is known or a slot is free. -/
theorem RouteUpdate.exists_match_iff {a : Advert} {lrs t : RoutingTable} {nib nib' : Nib}
    (h : RouteUpdate cfg now a lrs nib true t nib') :
    (∃ e ∈ t, a.matches e = true) ↔
      a.knows cfg now lrs = true ∨ ∃ e ∈ lrs, e.used = false := by
  have hown : ∀ used, a.matches { route := a.route cfg now, used := used } = true :=
    fun _ => matchesDest_iff.mpr ⟨rfl, rfl⟩
  have hself : ∀ {t : RoutingTable} {i : Nat} {e y : LrsEntry}, t[i]? = some e → y ∈ t.set i y :=
    fun hi => List.mem_of_getElem? (getElem?_written hi _)
  cases h with
  | full aged absent full unknown =>
    constructor
    · rintro ⟨e, he, hmatch⟩
      rw [absent e he] at hmatch
      cases hmatch
    · rintro (hknows | ⟨e, he, hfree⟩)
      · rw [unknown] at hknows
        cases hknows
      · obtain ⟨e', he', hslot⟩ := aged.mem_of he
        rw [← hslot.used, full e' he'] at hfree
        cases hfree
  | created aged absent slot free =>
    refine ⟨fun _ => Or.inr ?_, fun _ => ⟨_, hself slot, hown true⟩⟩
    obtain ⟨e, he, hslot⟩ := aged.mem (List.mem_of_getElem? slot)
    exact ⟨e, he, hslot.used.symm.trans free⟩
  | @improved _ _ e aged slot present offers known =>
    exact ⟨fun _ => Or.inl known, fun _ => ⟨_, hself slot, hown e.used⟩⟩

/-! ## §2 Relayed replies -/

/-- The routes that the next hop of an RREP is looked up in: those after the
update of the route to TargNode. -/
def rrepRoutes (cfg : Conf) (now : Timex) (s : Node) : RoutingTable :=
  (rrepTables cfg now s.msgData s.router).2.lrs

/-- The slot holds a route to OrigNode that has not expired. -/
def ReverseRoute (now : Timex) (d : Message) (e : LrsEntry) : Prop :=
  InTime now d.origNode.addr d.metricType e

instance (now : Timex) (d : Message) (e : LrsEntry) : Decidable (ReverseRoute now d e) :=
  inferInstanceAs (Decidable (InTime _ _ _ _))

/-- `aodvv2_send_rrep` is called if and only if the Local Route Set has a
route to OrigNode that has not expired, with the next hop of such a route,
and never with NULL. -/
structure RelayedRightly (cfg : Conf) (now : Timex) (s : Node) (calls : List Call) : Prop where
  called_iff : (∃ pkt nextHop, Call.sendRrep pkt nextHop ∈ calls) ↔
    ∃ e ∈ rrepRoutes cfg now s, ReverseRoute now s.msgData e
  nextHop : ∀ pkt nextHop, Call.sendRrep pkt nextHop ∈ calls →
    ∃ e ∈ rrepRoutes cfg now s, ReverseRoute now s.msgData e ∧ nextHop = some e.route.nextHop
  not_null : ∀ pkt, Call.sendRrep pkt none ∉ calls

/-- When the way back is there: the router has a route to OrigNode that has
not expired, or OrigNode is TargNode itself and its route is stored now. -/
def HasWayBack (cfg : Conf) (now : Timex) (d : Message) (lrs : RoutingTable) : Prop :=
  d.origNode.addr ≠ d.targNode.addr ∧ (∃ e ∈ lrs, ReverseRoute now d e) ∨
    d.origNode.addr = d.targNode.addr ∧ 0 < cfg.validity ∧
      (KnowsTarg cfg now d lrs ∨ ∃ e ∈ lrs, e.used = false)

instance (cfg : Conf) (now : Timex) (d : Message) (lrs : RoutingTable) :
    Decidable (HasWayBack cfg now d lrs) :=
  inferInstanceAs (Decidable (_ ∨ _))

/-- A lookup finds a route in time, whatever else the table holds. -/
theorem lrsGetNextHop_inTime {t : RoutingTable} (hinv : MapInv t) {addr : Ipv6Addr}
    {ty : RoutingMetric} (haddr : addr ≠ ipv6AddrUnspecified) {e : LrsEntry} (he : e ∈ t)
    (h : InTime now addr ty e) : (lrsGetNextHop cfg now addr ty t).2 = some e.route.nextHop := by
  have haged := lrsGetEntry_aged cfg now addr ty t
  obtain ⟨i, hi⟩ := List.getElem?_of_mem he
  obtain ⟨e', he', hslot⟩ := haged.slot hi
  have hsame := hslot.same h.kept
  have hmatch' := (hsame.matchesDest addr ty).trans h.1
  unfold lrsGetNextHop
  dsimp only
  cases hfound : (lrsGetEntry cfg now addr ty t).2 with
  | none =>
    rw [lrsGetEntry_none hfound e' (List.mem_of_getElem? he')] at hmatch'
    cases hmatch'
  | some j =>
    obtain ⟨f, hf, hmatch⟩ := lrsGetEntry_some hfound
    -- The key is held once, so the slot that is found is the one in time.
    have hij := (hinv.aged haged).distinct.unique he' hf ((key?_of_matches haddr).mp hmatch')
      ((key?_of_matches haddr).mp hmatch)
    subst hij
    have hroute : routeAt (lrsGetEntry cfg now addr ty t).1 i = e'.route := by
      unfold routeAt
      rw [he']
      rfl
    rw [Option.map_some, hroute, hsame.nextHop]

/-- What is looked up after the update, by the state before it. -/
theorem reverseRoute_iff {s : Node} (hchecks : RrepChecks cfg s.msgData)
    (htaken : (rrepAdvert s.msgData).taken cfg now s.router.lrs = true)
    (hinv : MapInv s.router.lrs) :
    MapInv (rrepRoutes cfg now s) ∧
      ((∃ e ∈ rrepRoutes cfg now s, ReverseRoute now s.msgData e) ↔
        HasWayBack cfg now s.msgData s.router.lrs) := by
  obtain ⟨-, hupdate⟩ := rrepTables_update now s.router hchecks
  rw [htaken] at hupdate
  have hsound := rrepAdvert_sound hchecks
  refine ⟨hupdate.mapInv hsound hinv, ?_⟩
  unfold HasWayBack
  by_cases hsame : s.msgData.origNode.addr = s.msgData.targNode.addr
  · -- The route that is looked up is the one the RREP brought.
    have hknows : (rrepAdvert s.msgData).knows cfg now s.router.lrs = true ↔
        KnowsTarg cfg now s.msgData s.router.lrs :=
      lrsGetEntry_isSome_iff_knows hchecks.2.2.1 s.router.lrs
    have hexists := hupdate.exists_match_iff
    rw [hknows] at hexists
    have hmatches : ∀ e : LrsEntry, (rrepAdvert s.msgData).matches e =
        e.route.matchesDest s.msgData.origNode.addr s.msgData.metricType := by
      intro e
      rw [hsame]
      rfl
    constructor
    · rintro ⟨e, he, hmatch, htime⟩
      have hown := (hmatches e).trans hmatch
      rw [hupdate.stored hsound hinv he hown] at htime
      exact Or.inr ⟨hsame, Nat.lt_of_add_lt_add_left htime, hexists.mp ⟨e, he, hown⟩⟩
    · rintro (⟨hne, -⟩ | ⟨-, hvalid, hroom⟩)
      · exact absurd hsame hne
      · obtain ⟨e, he, hown⟩ := hexists.mpr hroom
        refine ⟨e, he, (hmatches e).symm.trans hown, ?_⟩
        rw [hupdate.stored hsound hinv he hown]
        exact Nat.lt_add_of_pos_right hvalid
  · refine (hupdate.inTime_other hinv hchecks.1 hsame).trans ?_
    constructor
    · intro h
      exact Or.inl ⟨hsame, h⟩
    · rintro (⟨-, h⟩ | ⟨heq, -⟩)
      · exact h
      · exact absurd heq hsame

/-- An RREP that is taken and is not for a client is handed on, whatever the
lookup of the next hop finds. -/
theorem sendRrep_called_iff {s : Node} (hchecks : RrepChecks cfg s.msgData)
    (htaken : (rrepAdvert s.msgData).taken cfg now s.router.lrs = true)
    (hclient : ¬ IsClient s.router.rcs s.msgData.origNode.addr) (pkt : Message)
    (nextHop : Option Ipv6Addr) :
    Call.sendRrep pkt nextHop ∈ (Traced.cbRrepEndCallback cfg now false { node := s }).2.calls ↔
      pkt = rrepRecord now s.msgData ∧ nextHop = (rrepNextHop cfg now s).2 := by
  have hupdated : (rrepTables cfg now s.msgData s.router).1 = true :=
    (rrepTables_update now s.router hchecks).1.trans htaken
  have hsends := rrep_sends cfg now s
  unfold rrepCall at hsends
  rw [if_pos ⟨hchecks, hupdated⟩, if_neg hclient] at hsends
  have hmem : Call.sendRrep pkt nextHop ∈
      (Traced.cbRrepEndCallback cfg now false { node := s }).2.calls.filter Call.sends ↔ _ :=
    List.mem_filter
  rw [hsends, List.mem_singleton, Call.sendRrep.injEq] at hmem
  exact ⟨fun h => hmem.mpr ⟨h, rfl⟩, fun h => (hmem.mp h).1⟩

/-- **RREPs are relayed along a valid reverse route exactly when** the way
back is there: in every state that a node reaches, for every RREP that it
accepts and that is not for a client. -/
theorem relayed_rightly_iff (cfg : Conf) (sizes : Sizes) (rcs : RouterClientSet)
    (events : List NodeEvent) (now : Timex) (d : Message) (hchecks : RrepChecks cfg d)
    (htaken : (rrepAdvert d).taken cfg now
      (run (nodeStep cfg) events (Node.init sizes rcs)).router.lrs = true)
    (hclient : ¬ IsClient (run (nodeStep cfg) events (Node.init sizes rcs)).router.rcs
      d.origNode.addr) :
    let s := { run (nodeStep cfg) events (Node.init sizes rcs) with msgData := d }
    RelayedRightly cfg now s (Traced.cbRrepEndCallback cfg now false { node := s }).2.calls ↔
      HasWayBack cfg now d s.router.lrs := by
  intro s
  have hinv : MapInv s.router.lrs := nodeRun_mapInv cfg sizes rcs events
  obtain ⟨hinv', hiff⟩ := @reverseRoute_iff cfg now s hchecks htaken hinv
  have hcalled := @sendRrep_called_iff cfg now s hchecks htaken hclient
  rw [← hiff]
  constructor
  · intro h
    exact h.called_iff.mp ⟨_, _, (hcalled _ _).mpr ⟨rfl, rfl⟩⟩
  · rintro ⟨e, he, htime⟩
    have hhop : (rrepNextHop cfg now s).2 = some e.route.nextHop :=
      lrsGetNextHop_inTime hinv' hchecks.1 he htime
    refine ⟨⟨fun _ => ⟨e, he, htime⟩, fun _ => ⟨_, _, (hcalled _ _).mpr ⟨rfl, rfl⟩⟩⟩, ?_, ?_⟩
    · intro pkt nextHop hcall
      exact ⟨e, he, htime, ((hcalled pkt nextHop).mp hcall).2.trans hhop⟩
    · intro pkt hcall
      have hnull := ((hcalled pkt none).mp hcall).2
      rw [hhop] at hnull
      cases hnull

/-- An RREP of `::3` for `::7`, from the neighbour `::6`. -/
def sampleReply : Message where
  msgHopLimit := 10
  sender := 6#128
  metricType := metricHopCount
  origNode := { addr := 7#128, pfxLen := 128, seqnum := 1 }
  targNode := { addr := 3#128, pfxLen := 128, seqnum := 1 }

/-- The router hears the RREQ of `::7` at time zero. -/
def sampleForward : List NodeEvent :=
  [.routing (.receive 0 5#128 (sampleRreqFor { addr := 7#128, pfxLen := 128, seqnum := 1 } 3#128))]

/-- One second later the RREP goes back to where the RREQ came from. -/
theorem relayed_rightly_back :
    let s := { run (nodeStep .default) sampleForward (Node.init ⟨2, 2, 0⟩ []) with
      msgData := sampleReply }
    RelayedRightly .default (timexSet 1 0) s
      (Traced.cbRrepEndCallback .default (timexSet 1 0) false { node := s }).2.calls :=
  (relayed_rightly_iff .default ⟨2, 2, 0⟩ [] sampleForward (timexSet 1 0) sampleReply
    (by decide +kernel) (by decide +kernel) (by decide +kernel)).mpr (by decide +kernel)

/-- A router that knows nobody takes the RREP, and hands a null pointer on. -/
theorem relayed_to_null :
    let s := { Node.init ⟨2, 2, 0⟩ [] with msgData := sampleReply }
    RrepChecks .default sampleReply ∧
      (rrepAdvert sampleReply).taken .default (timexSet 1 0) s.router.lrs = true ∧
      ¬ IsClient s.router.rcs sampleReply.origNode.addr ∧
      ¬ RelayedRightly .default (timexSet 1 0) s
        (Traced.cbRrepEndCallback .default (timexSet 1 0) false { node := s }).2.calls := by
  refine ⟨by decide +kernel, by decide +kernel, by decide +kernel, fun h => ?_⟩
  exact h.not_null (rrepRecord (timexSet 1 0) sampleReply) (by decide +kernel)

end Turpial.Aodvv2
