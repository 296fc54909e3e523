/-
Turpial.Aodvv2.LoopTheorems — when the routes of a network are free of loops.

Only a delivery changes where a router forwards to, and only by the advert
that its tables store: then the router forwards to the neighbour that the
message came from (§1, §2). Nothing in the handlers asks whether that
neighbour forwards to the router itself. A run is free of loops exactly as
long as no neighbour does at the time its message is stored (§3).

The condition looks at the next hops all the way. §4 has one that looks at
neighbours only: the metrics fall along every next hop, if an advert is
stored only from a neighbour whose route is cheaper than the new one, by a
router whose own dependents have costlier ones.
-/
import Turpial.Aodvv2.Network

namespace Turpial.Aodvv2

open Turpial.Lib Turpial.Rfc5444 Relation

variable {ι : Type} {cfg : Conf} {now : Timex}

/-! ## §1 One table -/

/-- The tables take the advert and have a slot for its route. -/
def Advert.Stored (cfg : Conf) (now : Timex) (a : Advert) (lrs : RoutingTable) : Prop :=
  a.taken cfg now lrs = true ∧ (a.knows cfg now lrs = true ∨ ∃ e ∈ lrs, e.used = false)

instance (cfg : Conf) (now : Timex) (a : Advert) (lrs : RoutingTable) :
    Decidable (a.Stored cfg now lrs) :=
  inferInstanceAs (Decidable (_ ∧ _))

/-- Ageing adds no next hop. -/
theorem Leads.of_aged {t t' : RoutingTable} (haged : Aged cfg now t t') {a hop : Ipv6Addr}
    {ty : RoutingMetric} {metric : UInt8} (hhop : hop ≠ ipv6AddrUnspecified)
    (h : Leads t' a ty hop metric) : Leads t a ty hop metric := by
  obtain ⟨e', he', hmatch, hnext, hmetric⟩ := h
  obtain ⟨e, he, hslot⟩ := haged.mem he'
  rcases hslot.route with hsame | ⟨-, state, lastUsed, hblank, -⟩
  · exact ⟨e, he, (hsame.matchesDest a ty).symm.trans hmatch, hsame.nextHop.symm.trans hnext,
      hsame.metric.symm.trans hmetric⟩
  · rw [hblank] at hnext
    exact absurd hnext.symm hhop

/-- Writing the route of an advert adds its next hop only. -/
theorem Leads.of_write {t : RoutingTable} {i : Nat} {adv : Advert} {used : Bool} {a hop : Ipv6Addr}
    {ty : RoutingMetric} {metric : UInt8}
    (h : Leads (t.set i { route := adv.route cfg now, used := used }) a ty hop metric) :
    Leads t a ty hop metric ∨ (a = adv.node.addr ∧ ty = adv.metricType ∧ hop = adv.sender ∧
      metric = (adv.route cfg now).metric) := by
  obtain ⟨e, he, hmatch, hnext, hmetric⟩ := h
  rcases List.mem_or_eq_of_mem_set he with he | rfl
  · exact Or.inl ⟨e, he, hmatch, hnext, hmetric⟩
  · obtain ⟨haddr, htype⟩ := matchesDest_iff.mp hmatch
    exact Or.inr ⟨haddr.symm, htype.symm, hnext.symm, hmetric.symm⟩

/-- The next hops after an update of the tables are those before it, and
that of an advert that was stored. -/
theorem RouteUpdate.leads {adv : Advert} {lrs t : RoutingTable} {nib nib' : Nib}
    (h : RouteUpdate cfg now adv lrs nib (adv.taken cfg now lrs) t nib') {a hop : Ipv6Addr}
    {ty : RoutingMetric} {metric : UInt8} (hhop : hop ≠ ipv6AddrUnspecified)
    (hleads : Leads t a ty hop metric) :
    Leads lrs a ty hop metric ∨ (adv.Stored cfg now lrs ∧ a = adv.node.addr ∧
      ty = adv.metricType ∧ hop = adv.sender ∧ metric = (adv.route cfg now).metric) := by
  generalize htaken : adv.taken cfg now lrs = taken at h
  cases h with
  | kept aged => exact Or.inl (hleads.of_aged aged hhop)
  | full aged => exact Or.inl (hleads.of_aged aged hhop)
  | created aged _ slot free =>
    rcases hleads.of_write with hleads | hnew
    · exact Or.inl (hleads.of_aged aged hhop)
    · obtain ⟨e, he, hslot⟩ := aged.mem (List.mem_of_getElem? slot)
      exact Or.inr ⟨⟨htaken, Or.inr ⟨e, he, hslot.used.symm.trans free⟩⟩, hnew⟩
  | improved aged _ _ _ known =>
    rcases hleads.of_write with hleads | hnew
    · exact Or.inl (hleads.of_aged aged hhop)
    · exact Or.inr ⟨⟨htaken, Or.inl known⟩, hnew⟩

/-- If routes have a lifetime, an advert that is stored is found there. -/
theorem RouteUpdate.leads_new {adv : Advert} {lrs t t' : RoutingTable} {nib nib' : Nib}
    (h : RouteUpdate cfg now adv lrs nib (adv.taken cfg now lrs) t nib')
    (hlife : 0 < cfg.validity) (hstored : adv.Stored cfg now lrs) (haged : Aged cfg now t t') :
    Leads t' adv.node.addr adv.metricType adv.sender (adv.route cfg now).metric := by
  obtain ⟨htaken, hroom⟩ := hstored
  rw [htaken] at h
  -- A slot that was just written is left alone by the ageing.
  have hwritten : ∀ {u : RoutingTable} {i : Nat} {e : LrsEntry} (used : Bool), u[i]? = some e →
      t = u.set i { route := adv.route cfg now, used := used } →
      Leads t' adv.node.addr adv.metricType adv.sender (adv.route cfg now).metric := by
    rintro u i e used hi rfl
    obtain ⟨e', he', hslot⟩ := haged.slot (getElem?_written hi _)
    have hsame := hslot.same (adv.route_kept hlife)
    exact ⟨e', List.mem_of_getElem? he',
      (hsame.matchesDest _ _).trans (matchesDest_iff.mpr ⟨rfl, rfl⟩), hsame.nextHop, hsame.metric⟩
  cases h with
  | full aged absent full unknown =>
    rcases hroom with hknown | ⟨e, he, hfree⟩
    · rw [unknown] at hknown
      cases hknown
    · obtain ⟨e', he', hslot⟩ := aged.mem_of he
      rw [← hslot.used, full e' he'] at hfree
      cases hfree
  | created _ _ slot _ => exact hwritten _ slot rfl
  | improved _ slot _ _ _ => exact hwritten _ slot rfl

/-- The next hops of a router after a message. -/
theorem receive_leads {sender : Ipv6Addr} {msg : MessageContext} {s : Node} {a hop : Ipv6Addr}
    {ty : RoutingMetric} {metric : UInt8} (hhop : hop ≠ ipv6AddrUnspecified)
    (hleads : Leads (receive cfg now sender msg s).router.lrs a ty hop metric) :
    Leads s.router.lrs a ty hop metric ∨ ∃ adv ∈ advert? cfg now sender msg s,
      adv.Stored cfg now s.router.lrs ∧ a = adv.node.addr ∧ ty = adv.metricType ∧ hop = sender ∧
        metric = (adv.route cfg now).metric := by
  have hhandled := receive_handled cfg now sender msg s
  have hsound : ∀ adv ∈ advert? cfg now sender msg s, adv.sender = sender :=
    fun adv h => (advert?_sound h).sender
  generalize advert? cfg now sender msg s = advert at hhandled hsound ⊢
  cases hhandled with
  | quiet _ lrs => exact Or.inl (lrs ▸ hleads)
  | @updated adv t _ update aged =>
    rcases update.leads hhop (hleads.of_aged aged hhop) with hold | ⟨hstored, ha, hty, rfl, hm⟩
    · exact Or.inl hold
    · exact Or.inr ⟨adv, rfl, hstored, ha, hty, hsound adv rfl, hm⟩

theorem receive_leads_new {sender : Ipv6Addr} {msg : MessageContext} {s : Node} {adv : Advert}
    (hlife : 0 < cfg.validity) (hadv : advert? cfg now sender msg s = some adv)
    (hstored : adv.Stored cfg now s.router.lrs) :
    Leads (receive cfg now sender msg s).router.lrs adv.node.addr adv.metricType sender
      (adv.route cfg now).metric := by
  have hhandled := receive_handled cfg now sender msg s
  have hsender := (advert?_sound hadv).sender
  rw [hadv] at hhandled
  cases hhandled with
  | updated _ update aged =>
    rw [← hsender] at aged ⊢
    exact update.leads_new hlife hstored aged

/-! ## §2 One step of the network -/

variable {net : Network ι}

/-- The event delivers `t`, and the tables of its receiver store the advert
that it brings. -/
def Stores (cfg : Conf) (net : Network ι) (ev : NetEvent ι) (s : NetState ι) (t : Transit ι)
    (adv : Advert) : Prop :=
  ∃ k, ev = .deliver k ∧ s.inFlight[k]? = some t ∧
    advert? cfg (s.now t.receiver) (net.addr t.sender) t.msg.context (s.nodes t.receiver) =
      some adv ∧
    adv.Stored cfg (s.now t.receiver) (s.nodes t.receiver).router.lrs

theorem Stores.unique {ev : NetEvent ι} {s : NetState ι} {t t' : Transit ι} {adv adv' : Advert}
    (h : Stores cfg net ev s t adv) (h' : Stores cfg net ev s t' adv') : t = t' ∧ adv = adv' := by
  obtain ⟨k, rfl, ht, hadv, -⟩ := h
  obtain ⟨k', hk, ht', hadv', -⟩ := h'
  cases hk
  rw [ht] at ht'
  cases ht'
  rw [hadv] at hadv'
  exact ⟨rfl, Option.some.inj hadv'⟩

variable [DecidableEq ι]

theorem NetState.put_nodes (s : NetState ι) (i j : ι) (n : Node) :
    (s.put i n).nodes j = if j = i then n else s.nodes j := Function.update_apply s.nodes i n j

/-- A router that keeps its Local Route Set adds no next hop. -/
theorem leads_of_put {s : NetState ι} {i j : ι} {n : Node} {a hop : Ipv6Addr} {ty : RoutingMetric}
    {metric : UInt8} (hsame : n.router.lrs = (s.nodes j).router.lrs)
    (h : Leads ((s.put j n).nodes i).router.lrs a ty hop metric) :
    Leads (s.nodes i).router.lrs a ty hop metric := by
  rw [NetState.put_nodes] at h
  split at h
  · rename_i hij
    rw [hsame] at h
    exact hij ▸ h
  · exact h

/-- What a step does to the next hops: a delivery whose advert is stored
adds one, and none is added otherwise. -/
theorem netStep_leads (ev : NetEvent ι) (s : NetState ι) {i : ι} {a hop : Ipv6Addr}
    {ty : RoutingMetric} {metric : UInt8} (hhop : hop ≠ ipv6AddrUnspecified)
    (hleads : Leads ((netStep cfg net ev s).nodes i).router.lrs a ty hop metric) :
    Leads (s.nodes i).router.lrs a ty hop metric ∨ ∃ t adv, Stores cfg net ev s t adv ∧
      i = t.receiver ∧ a = adv.node.addr ∧ ty = adv.metricType ∧ hop = net.addr t.sender ∧
        metric = (adv.route cfg (s.now t.receiver)).metric := by
  cases ev with
  | findRoute j origAddr targetAddr stack =>
    have hkeeps := (findRoute_frame cfg (s.now j) origAddr targetAddr stack (s.nodes j)).1
    exact Or.inl (leads_of_put hkeeps hleads)
  | transmit j =>
    have hkeeps := (transmit_frame (s.nodes j)).1
    exact Or.inl (leads_of_put hkeeps hleads)
  | deliver k =>
    unfold netStep at hleads
    dsimp only at hleads
    split at hleads
    · exact Or.inl hleads
    · rename_i t ht
      change Leads ((s.put t.receiver _).nodes i).router.lrs a ty hop metric at hleads
      rw [NetState.put_nodes] at hleads
      split at hleads
      · rename_i hij
        rcases receive_leads hhop hleads with hold | ⟨adv, hadv, hstored, hnew⟩
        · exact Or.inl (hij ▸ hold)
        · exact Or.inr ⟨t, adv, ⟨k, rfl, ht, hadv, hstored⟩, hij, hnew⟩
      · exact Or.inl hleads
  | lose k => exact Or.inl hleads
  | tick j d => exact Or.inl hleads

/-- The same for where routers forward to. -/
theorem netStep_nextHop {ev : NetEvent ι} {s : NetState ι} {a : Ipv6Addr} {ty : RoutingMetric}
    {i j : ι} (h : NextHop net (netStep cfg net ev s) a ty i j) :
    NextHop net s a ty i j ∨ ∃ t adv, Stores cfg net ev s t adv ∧ a = adv.node.addr ∧
      ty = adv.metricType ∧ i = t.receiver ∧ j = t.sender := by
  obtain ⟨metric, hleads⟩ := h
  rcases netStep_leads ev s (net.addr_ne j) hleads with hold | ⟨t, adv, hs, hi, ha, hty, hj, -⟩
  · exact Or.inl ⟨metric, hold⟩
  · exact Or.inr ⟨t, adv, hs, ha, hty, hi, net.addr_injective hj⟩

/-- The router that stores an advert is the only one that changes, and
forwards to the sender then. -/
theorem Stores.redirected {ev : NetEvent ι} {s : NetState ι} {t : Transit ι} {adv : Advert}
    (hlife : 0 < cfg.validity) (h : Stores cfg net ev s t adv) :
    Redirected (NextHop net s adv.node.addr adv.metricType)
      (NextHop net (netStep cfg net ev s) adv.node.addr adv.metricType) t.receiver t.sender where
  old i j hij := by
    rcases netStep_nextHop hij with hold | ⟨t', adv', h', -, -, hi, hj⟩
    · exact Or.inl hold
    · obtain ⟨rfl, rfl⟩ := h.unique h'
      exact Or.inr ⟨hi, hj⟩
  new := by
    obtain ⟨k, rfl, ht, hadv, hstored⟩ := h
    refine ⟨(adv.route cfg (s.now t.receiver)).metric, ?_⟩
    unfold netStep
    dsimp only
    rw [ht]
    change Leads ((s.put t.receiver _).nodes t.receiver).router.lrs _ _ _ _
    rw [NetState.put_nodes, if_pos rfl]
    exact receive_leads_new hlife hadv hstored
  others i j hi := by
    obtain ⟨k, rfl, ht, -⟩ := h
    rintro ⟨metric, hleads⟩
    refine ⟨metric, ?_⟩
    unfold netStep
    dsimp only
    rw [ht]
    change Leads ((s.put t.receiver _).nodes i).router.lrs _ _ _ _
    rw [NetState.put_nodes, if_neg hi]
    exact hleads

/-! ## §3 Runs without loops -/

/-- No advert is stored from a neighbour that forwards to the router itself,
at once or over others, what the advert is for. -/
def StepOpen (cfg : Conf) (net : Network ι) (ev : NetEvent ι) (s : NetState ι) : Prop :=
  ∀ t adv, Stores cfg net ev s t adv →
    ¬ ReflTransGen (NextHop net s adv.node.addr adv.metricType) t.sender t.receiver

theorem loopFree_step {ev : NetEvent ι} {s : NetState ι} (h : LoopFree net s)
    (hopen : StepOpen cfg net ev s) : LoopFree net (netStep cfg net ev s) := by
  intro a ty
  by_cases hstores : ∃ t adv, Stores cfg net ev s t adv ∧ a = adv.node.addr ∧ ty = adv.metricType
  · obtain ⟨t, adv, hs, rfl, rfl⟩ := hstores
    refine (h _ _).redirect (fun i j hij => ?_) (hopen t adv hs)
    rcases netStep_nextHop hij with hold | ⟨t', adv', hs', -, -, hi, hj⟩
    · exact Or.inl hold
    · obtain ⟨rfl, rfl⟩ := hs.unique hs'
      exact Or.inr ⟨hi, hj⟩
  · refine (h a ty).mono fun i j hij => ?_
    rcases netStep_nextHop hij with hold | ⟨t, adv, hs, ha, hty, -⟩
    · exact hold
    · exact absurd ⟨t, adv, hs, ha, hty⟩ hstores

/-- A step that closes no loop meets the condition. -/
theorem stepOpen_of_loopFree {ev : NetEvent ι} {s : NetState ι} (hlife : 0 < cfg.validity)
    (h : LoopFree net s) (hnext : LoopFree net (netStep cfg net ev s)) :
    StepOpen cfg net ev s := by
  intro t adv hs
  exact ((h _ _).redirect_iff (hs.redirected hlife)).mp (hnext _ _)

omit [DecidableEq ι] in
/-- No router has a next hop to begin with. -/
theorem init_no_leads (sizes : ι → Sizes) (rcs : ι → RouterClientSet) (i : ι) {a hop : Ipv6Addr}
    {ty : RoutingMetric} {metric : UInt8} (hhop : hop ≠ ipv6AddrUnspecified) :
    ¬ Leads ((NetState.init sizes rcs).nodes i).router.lrs a ty hop metric := by
  rintro ⟨e, he, -, hnext, -⟩
  rw [List.eq_of_mem_replicate he] at hnext
  exact hhop hnext.symm

omit [DecidableEq ι] in
theorem loopFree_init (net : Network ι) (sizes : ι → Sizes) (rcs : ι → RouterClientSet) :
    LoopFree net (NetState.init sizes rcs) := by
  have hnone : ∀ a ty i j, ¬ NextHop net (NetState.init sizes rcs) a ty i j :=
    fun a ty i j ⟨_, hleads⟩ => init_no_leads sizes rcs i (net.addr_ne j) hleads
  intro a ty i hloop
  obtain ⟨j, hij, -⟩ := TransGen.head'_iff.mp hloop
  exact hnone a ty i j hij

/-! ## §4 Metrics that fall -/

/-- An advert is stored only from a neighbour whose routes are cheaper than
the new one, while all routes that lead to the router are costlier. -/
def StepFalls (cfg : Conf) (net : Network ι) (ev : NetEvent ι) (s : NetState ι) : Prop :=
  ∀ t adv, Stores cfg net ev s t adv → t.sender ≠ t.receiver ∧
    (∀ hop metric, hop ≠ ipv6AddrUnspecified →
      Leads (s.nodes t.sender).router.lrs adv.node.addr adv.metricType hop metric →
        metric < (adv.route cfg (s.now t.receiver)).metric) ∧
    (∀ i metric,
      Leads (s.nodes i).router.lrs adv.node.addr adv.metricType (net.addr t.receiver) metric →
        (adv.route cfg (s.now t.receiver)).metric < metric)

/-- The metrics fall along every next hop. -/
def MetricsFall (net : Network ι) (s : NetState ι) : Prop :=
  ∀ a ty i j hop metric metric', hop ≠ ipv6AddrUnspecified →
    Leads (s.nodes i).router.lrs a ty (net.addr j) metric →
      Leads (s.nodes j).router.lrs a ty hop metric' → metric' < metric

theorem MetricsFall.step {ev : NetEvent ι} {s : NetState ι} (h : MetricsFall net s)
    (hfalls : StepFalls cfg net ev s) : MetricsFall net (netStep cfg net ev s) := by
  intro a ty i j hop metric metric' hhop hi hj
  rcases netStep_leads ev s (net.addr_ne j) hi with hi | ⟨t, adv, hs, rfl, rfl, rfl, hsender, rfl⟩
  · rcases netStep_leads ev s hhop hj with hj | ⟨t, adv, hs, rfl, rfl, rfl, -, rfl⟩
    · exact h a ty i j hop metric metric' hhop hi hj
    · exact (hfalls t adv hs).2.2 i metric hi
  · obtain rfl := net.addr_injective hsender
    obtain ⟨hne, hbelow, -⟩ := hfalls t adv hs
    rcases netStep_leads ev s hhop hj with hj | ⟨t', adv', hs', hreceiver, -⟩
    · exact hbelow hop metric' hhop hj
    · obtain ⟨rfl, rfl⟩ := hs.unique hs'
      exact absurd hreceiver hne

omit [DecidableEq ι] in
theorem MetricsFall.loopFree {s : NetState ι} (h : MetricsFall net s) : LoopFree net s := by
  intro a ty
  apply acyclic_of_descent fun i v => ∃ hop metric, hop ≠ ipv6AddrUnspecified ∧
    Leads (s.nodes i).router.lrs a ty hop metric ∧ metric.toNat = v
  rintro i j ⟨metric, hi⟩
  refine ⟨metric.toNat, ⟨net.addr j, metric, net.addr_ne j, hi, rfl⟩, ?_⟩
  rintro v ⟨hop, metric', hhop, hj, rfl⟩
  exact UInt8.lt_iff_toNat_lt.mp (h a ty i j hop metric metric' hhop hi hj)

omit [DecidableEq ι] in
theorem metricsFall_init (net : Network ι) (sizes : ι → Sizes) (rcs : ι → RouterClientSet) :
    MetricsFall net (NetState.init sizes rcs) :=
  fun _ _ i j _ _ _ _ hi => absurd hi (init_no_leads sizes rcs i (net.addr_ne j))

/-- **Loop freedom.** A run from initialised tables passes only through
states without a loop if every advert that is stored comes from a neighbour
that does not forward to the router, and, when routes have a lifetime, only
then. It is enough that metrics fall where adverts are stored. -/
theorem loopFree_along_iff (cfg : Conf) (net : Network ι) (sizes : ι → Sizes)
    (rcs : ι → RouterClientSet) (events : List (NetEvent ι)) :
    (Along (netStep cfg net) (StepOpen cfg net) events (NetState.init sizes rcs) →
      ∀ es, es <+: events → LoopFree net (run (netStep cfg net) es (NetState.init sizes rcs))) ∧
    (0 < cfg.validity →
      (∀ es, es <+: events → LoopFree net (run (netStep cfg net) es (NetState.init sizes rcs))) →
        Along (netStep cfg net) (StepOpen cfg net) events (NetState.init sizes rcs)) ∧
    (Along (netStep cfg net) (StepFalls cfg net) events (NetState.init sizes rcs) →
      ∀ es, es <+: events → LoopFree net (run (netStep cfg net) es (NetState.init sizes rcs))) := by
  have hinit := loopFree_init net sizes rcs
  have hopen : ∀ ev s, LoopFree net s → StepOpen cfg net ev s →
      LoopFree net (netStep cfg net ev s) := fun _ _ => loopFree_step
  have hfalls : ∀ ev s, MetricsFall net s → StepFalls cfg net ev s →
      MetricsFall net (netStep cfg net ev s) := fun _ _ => MetricsFall.step
  refine ⟨?_, fun hlife => ?_, ?_⟩
  · rintro h es ⟨rest, rfl⟩
    exact run_invariant hopen hinit h.of_append.1
  · have hstep : ∀ ev s, LoopFree net s →
        (StepOpen cfg net ev s ↔ LoopFree net (netStep cfg net ev s)) :=
      fun ev s hs => ⟨hopen ev s hs, stepOpen_of_loopFree hlife hs⟩
    exact (along_iff_invariant hstep events hinit).mpr
  · rintro h es ⟨rest, rfl⟩
    exact (run_invariant hfalls (metricsFall_init net sizes rcs) h.of_append.1).loopFree

/-! ## §5 Three routers in a line -/

/-- The clients of any two routers are different. -/
def ClientsDisjoint (rcs : ι → RouterClientSet) : Prop :=
  ∀ i j, i ≠ j → ∀ a, IsClient (rcs i) a → ¬ IsClient (rcs j) a

/-- Routers `::a`, `::b` and `::c`; the one in the middle hears both others. -/
def lineNetwork : Network (Fin 3) where
  addr i := BitVec.ofNat 128 (10 + i.val)
  addr_injective := by decide
  addr_ne := by decide
  neighbours i := if i = 1 then [0, 2] else [1]

/-- Only the first one has a client, `::1`. -/
def lineClients (i : Fin 3) : RouterClientSet :=
  if i = 0 then [{ addr := 1#128, pfxLen := 128, used := true }] else []

def lineInit : NetState (Fin 3) := NetState.init (fun _ => ⟨16, 16, 16⟩) lineClients

/-- The client looks for `::9`; the RREQ goes down the line. -/
def flood : List (NetEvent (Fin 3)) :=
  [.findRoute 0 1#128 9#128 {}, .transmit 0, .deliver 0]

/-- The middle router hears the copy that the last one sends on. -/
def echo : List (NetEvent (Fin 3)) := [.transmit 1, .deliver 1, .transmit 2, .deliver 1]

/-- Until the RREQ has reached the middle router, all is well: the sender of
the only copy forwards nowhere yet. -/
theorem loopFree_along_flood :
    LoopFree lineNetwork (run (netStep .default lineNetwork) flood lineInit) ∧
      Along (netStep .default lineNetwork) (StepOpen .default lineNetwork) flood lineInit ∧
      NextHop lineNetwork (run (netStep .default lineNetwork) flood lineInit) 1#128
        metricHopCount 1 0 := by
  obtain ⟨hopen, hconverse, hfalls⟩ := loopFree_along_iff .default lineNetwork
    (fun _ => ⟨16, 16, 16⟩) lineClients flood
  have hnone : ∀ i, ∀ e ∈ ((run (netStep .default lineNetwork)
      [.findRoute 0 1#128 9#128 {}, .transmit 0] lineInit).nodes i).router.lrs,
      e.route.nextHop = ipv6AddrUnspecified := by decide +kernel
  have hcopy : (run (netStep .default lineNetwork) [.findRoute 0 1#128 9#128 {}, .transmit 0]
      lineInit).inFlight[0]?.map (fun t => (t.sender, t.receiver)) = some (0, 1) := by
    decide +kernel
  have halong : Along (netStep .default lineNetwork) (StepFalls .default lineNetwork) flood
      lineInit := by
    refine ⟨?_, ?_, ?_, trivial⟩
    · rintro t adv ⟨k, hk, -⟩
      cases hk
    · rintro t adv ⟨k, hk, -⟩
      cases hk
    · rintro t adv ⟨k, hk, ht, -⟩
      cases hk
      have hends : some (t.sender, t.receiver) = some (0, 1) := by
        rw [← hcopy]
        exact congrArg (Option.map fun t => (t.sender, t.receiver)) ht.symm
      obtain ⟨hsender, hreceiver⟩ := Prod.mk.inj (Option.some.inj hends)
      refine ⟨?_, ?_, ?_⟩
      · rw [hsender, hreceiver]
        decide
      · rintro hop metric hhop ⟨e, he, -, hnext, -⟩
        exact absurd (hnext.symm.trans (hnone _ e he)) hhop
      · rintro i metric ⟨e, he, -, hnext, -⟩
        exact absurd (hnext.symm.trans (hnone _ e he)) (lineNetwork.addr_ne _)
  have hall := hfalls halong
  have hopens := hconverse (by decide) hall
  exact ⟨hopen hopens flood (List.prefix_refl _), hopens, 2, by decide +kernel⟩

/-- Then the copy that the last router sent on is stored by the middle one:
the two forward to each other what is for `::1`. -/
theorem line_has_loop : ClientsDisjoint lineClients ∧
    NextHop lineNetwork (run (netStep .default lineNetwork) (flood ++ echo) lineInit) 1#128
      metricHopCount 1 2 ∧
    NextHop lineNetwork (run (netStep .default lineNetwork) (flood ++ echo) lineInit) 1#128
      metricHopCount 2 1 ∧
    ¬ LoopFree lineNetwork (run (netStep .default lineNetwork) (flood ++ echo) lineInit) := by
  have hdisjoint : ClientsDisjoint lineClients := by
    intro i j hij a hi hj
    have hzero : ∀ k, IsClient (lineClients k) a → k = 0 := by
      intro k hk
      by_contra hne
      unfold lineClients at hk
      rw [if_neg hne] at hk
      exact Bool.false_ne_true hk
    exact hij ((hzero i hi).trans (hzero j hj).symm)
  have hthere : NextHop lineNetwork
      (run (netStep .default lineNetwork) (flood ++ echo) lineInit) 1#128 metricHopCount 1 2 :=
    ⟨4, by decide +kernel⟩
  have hback : NextHop lineNetwork
      (run (netStep .default lineNetwork) (flood ++ echo) lineInit) 1#128 metricHopCount 2 1 :=
    ⟨3, by decide +kernel⟩
  exact ⟨hdisjoint, hthere, hback, fun h => h _ _ 1 (.tail (.single hthere) hback)⟩

end Turpial.Aodvv2
