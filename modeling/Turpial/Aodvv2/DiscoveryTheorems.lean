/-
Turpial.Aodvv2.DiscoveryTheorems — whether an answered discovery completes.

An RREP for one of the router's clients ends a discovery: the router is to
route to TargNode through the neighbour it heard, and to send the packets
that wait for TargNode. `Answer` is what such an RREP has to bring, and
`Completed` what it is to leave.

It does for a node that the Local Route Set does not know. For a node that
is known the set hands the two sequence numbers to the comparison in the
wrong order, so a newer RREP is taken for an older one and dropped, and
what it leaves is what was there (§3).
-/
import Turpial.Aodvv2.MetricTheorems
import Turpial.Aodvv2.LrsRunTheorems

namespace Turpial.Aodvv2

open Turpial.Lib Turpial.Rfc5444

variable {cfg : Conf} {now : Timex}

/-! ## §1 The Local Route Set of a node -/

theorem Aged.key? {t t' : RoutingTable} (h : Aged cfg now t t') {i : Nat} {e' : LrsEntry}
    {k : Ipv6Addr × RoutingMetric} (he' : t'[i]? = some e') (hk : e'.key? = some k) :
    ∃ e, t[i]? = some e ∧ e.key? = some k ∧ e.used = e'.used ∧ SameRoute now e.route e'.route := by
  obtain ⟨e, he, hslot⟩ := h.2 i e' he'
  obtain ⟨hne, haddr, htype⟩ := key?_eq_some.mp hk
  have hsame := hslot.same_of_addr (by rw [haddr]; exact hne)
  exact ⟨e, he, key?_eq_some.mpr ⟨hne, hsame.addr ▸ haddr, hsame.metricType ▸ htype⟩,
    hslot.used.symm, hsame⟩

theorem MapInv.aged {t t' : RoutingTable} (h : MapInv t) (haged : Aged cfg now t t') :
    MapInv t' where
  distinct := distinctKeys_of_unique fun i j e e' k hi hj hk hk' => by
    obtain ⟨e₀, he₀, hk₀, -⟩ := haged.key? hi hk
    obtain ⟨e₁, he₁, hk₁, -⟩ := haged.key? hj hk'
    exact h.distinct.unique he₀ he₁ hk₀ hk₁
  free := h.free.aged haged

/-- The key of the route that an advert brings. -/
theorem Advert.route_key {sender : Ipv6Addr} {a : Advert} (h : AdvertSound cfg sender a)
    (used : Bool) :
    LrsEntry.key? { route := a.route cfg now, used := used } =
      some (a.node.addr, a.metricType) :=
  key?_eq_some.mpr ⟨h.addr, rfl, rfl⟩

theorem Advert.matches_iff_key {sender : Ipv6Addr} {a : Advert} (h : AdvertSound cfg sender a)
    {e : LrsEntry} : a.matches e = true ↔ e.key? = some (a.node.addr, a.metricType) :=
  key?_of_matches h.addr

theorem MapInv.created {t : RoutingTable} (h : MapInv t) {sender : Ipv6Addr} {a : Advert}
    (hsound : AdvertSound cfg sender a) (habsent : ∀ e ∈ t, a.matches e = false) {i : Nat}
    {e : LrsEntry} (he : t[i]? = some e) (hfree : e.used = false) :
    MapInv (t.set i { route := a.route cfg now, used := true }) where
  distinct := by
    have hnone : e.key? = none := key?_eq_none.mpr (h.free e (List.mem_of_getElem? he) hfree)
    refine (h.distinct.insert he hnone (Advert.route_key hsound true) fun z hz hk => ?_).1
    have hmatch := (Advert.matches_iff_key hsound).mpr hk
    rw [habsent z hz] at hmatch
    cases hmatch
  free := h.free.write i _

theorem MapInv.improved {t : RoutingTable} (h : MapInv t) {sender : Ipv6Addr} {a : Advert}
    (hsound : AdvertSound cfg sender a) {i : Nat} {e : LrsEntry} (he : t[i]? = some e)
    (hmatch : a.matches e = true) :
    MapInv (t.set i { route := a.route cfg now, used := e.used }) where
  distinct := by
    refine (h.distinct.rewrite he ?_).1
    rw [Advert.route_key hsound, (Advert.matches_iff_key hsound).mp hmatch]
  free := by
    rw [h.free.used (List.mem_of_getElem? he) hsound.addr hmatch]
    exact h.free.write i _

/-- In every state that a node reaches its Local Route Set is a map. -/
theorem nodeRun_mapInv (cfg : Conf) (sizes : Sizes) (rcs : RouterClientSet)
    (events : List NodeEvent) :
    MapInv (run (nodeStep cfg) events (Node.init sizes rcs)).router.lrs :=
  nodeRun_lrs (fun _ _ _ h haged => h.aged haged)
    (fun _ _ _ _ _ _ h hsound habsent he hfree => h.created hsound habsent he hfree)
    (fun _ _ _ _ _ _ h hsound he hmatch => h.improved hsound he hmatch) events
    (mapInv_init sizes.routingEntries)

/-! ## §2 Answers -/

/-- The slot holds a route to TargNode. -/
def LeadsToTarg (d : Message) (e : LrsEntry) : Prop :=
  e.route.matchesDest d.targNode.addr d.metricType = true

instance (d : Message) (e : LrsEntry) : Decidable (LeadsToTarg d e) :=
  inferInstanceAs (Decidable (_ = true))

/-- The RREP `d` ends a discovery of the router: it passes the tests of the
end callback, it is for a client, there is room for its route or one to
overwrite, and it is newer than what is stored. -/
structure Answer (cfg : Conf) (d : Message) (r : Router) : Prop where
  checks : RrepChecks cfg d
  client : IsClient r.rcs d.origNode.addr
  room : (∃ e ∈ r.lrs, e.used = false) ∨ ∃ e ∈ r.lrs, LeadsToTarg d e
  newer : ∀ e ∈ r.lrs, LeadsToTarg d e → 0 < seqnumCmp e.route.seqnum d.targNode.seqnum

/-- Both route tables lead to TargNode through the sender of `d`, and no
packet waits for it. -/
structure Completed (d : Message) (r : Router) : Prop where
  lrs : ∃ e ∈ r.lrs, e.used = true ∧ LeadsToTarg d e ∧ e.route.nextHop = d.sender
  nib : r.nib (prefixOf d.targNode.addr d.targNode.pfxLen.toNat) d.targNode.pfxLen =
    some d.sender
  buffer : ∀ b ∈ r.buffer, b.used = true → b.dst ≠ d.targNode.addr

instance (cfg : Conf) (d : Message) (r : Router) : Decidable (Answer cfg d r) :=
  decidable_of_iff (RrepChecks cfg d ∧ IsClient r.rcs d.origNode.addr ∧
      ((∃ e ∈ r.lrs, e.used = false) ∨ ∃ e ∈ r.lrs, LeadsToTarg d e) ∧
      ∀ e ∈ r.lrs, LeadsToTarg d e → 0 < seqnumCmp e.route.seqnum d.targNode.seqnum)
    ⟨fun h => ⟨h.1, h.2.1, h.2.2.1, h.2.2.2⟩, fun h => ⟨h.checks, h.client, h.room, h.newer⟩⟩

instance (d : Message) (r : Router) : Decidable (Completed d r) :=
  decidable_of_iff ((∃ e ∈ r.lrs, e.used = true ∧ LeadsToTarg d e ∧ e.route.nextHop = d.sender) ∧
      r.nib (prefixOf d.targNode.addr d.targNode.pfxLen.toNat) d.targNode.pfxLen = some d.sender ∧
      ∀ b ∈ r.buffer, b.used = true → b.dst ≠ d.targNode.addr)
    ⟨fun h => ⟨h.1, h.2.1, h.2.2⟩, fun h => ⟨h.lrs, h.nib, h.buffer⟩⟩

/-- A route to TargNode is known, and not past its lifetime. -/
def KnowsTarg (cfg : Conf) (now : Timex) (d : Message) (lrs : RoutingTable) : Prop :=
  ∃ e ∈ lrs, LeadsToTarg d e ∧ ¬ Expunged cfg now e.route

instance (cfg : Conf) (now : Timex) (d : Message) (lrs : RoutingTable) :
    Decidable (KnowsTarg cfg now d lrs) :=
  inferInstanceAs (Decidable (∃ e ∈ lrs, _))

/-- The condition: TargNode is new and a slot is free for it, or TargNode is
known and there is nothing to do. -/
def CompletesWhen (cfg : Conf) (now : Timex) (d : Message) (r : Router) : Prop :=
  ¬ KnowsTarg cfg now d r.lrs ∧ (∃ e ∈ r.lrs, e.used = false) ∨
    KnowsTarg cfg now d r.lrs ∧ Completed d r

instance (cfg : Conf) (now : Timex) (d : Message) (r : Router) :
    Decidable (CompletesWhen cfg now d r) :=
  inferInstanceAs (Decidable (_ ∨ _))

/-- The lookup finds what is known. -/
theorem lrsGetEntry_isSome_iff_knows {d : Message} (haddr : d.targNode.addr ≠ ipv6AddrUnspecified)
    (lrs : RoutingTable) :
    (lrsGetEntry cfg now d.targNode.addr d.metricType lrs).2.isSome = true ↔
      KnowsTarg cfg now d lrs := by
  rw [lookup_isSome_iff cfg now haddr]
  constructor
  · rintro ⟨e, he, hk⟩
    obtain ⟨hne, ha, -⟩ := key?_eq_some.mp hk
    have hkept : ¬ Expunged cfg now e.route := by
      intro hexp
      rw [resetEntryIfStale_expunged hexp] at ha
      exact hne ha.symm
    have hsame := (@AgedSlot.reset cfg now e).same hkept
    refine ⟨e, he, ?_, hkept⟩
    unfold LeadsToTarg
    rw [← hsame.matchesDest]
    exact (key?_of_matches haddr).mpr hk
  · rintro ⟨e, he, hleads, hkept⟩
    have hsame := (@AgedSlot.reset cfg now e).same hkept
    refine ⟨e, he, (key?_of_matches haddr).mp ?_⟩
    rw [hsame.matchesDest]
    exact hleads

theorem SameRoute.seqnum {r r' : LocalRoute} (h : SameRoute now r r') : r'.seqnum = r.seqnum := by
  obtain ⟨state, lastUsed, rfl, -⟩ := h
  rfl

/-- Newer information does not offer an improvement. -/
theorem offersImprovement_newer {route : LocalRoute} {node : NodeData}
    (h : 0 < seqnumCmp route.seqnum node.seqnum) : offersImprovement route node = false :=
  Bool.eq_false_iff.mpr fun hoffers => (offersImprovement_eq_true_iff.mp hoffers).1 (Or.inl h)

/-- After the dispatch no packet waits for the address. -/
theorem bufferDispatch_clears (targAddr : Ipv6Addr) (buf : PacketBuffer) :
    ∀ b ∈ (bufferDispatch targAddr buf).1, b.used = true → b.dst ≠ targAddr := by
  intro b hb hused
  obtain ⟨e, -, rfl⟩ := List.mem_map.mp hb
  by_cases hdst : e.dst = targAddr
  · exfalso
    rw [if_pos (by simpa using hdst)] at hused
    unfold pktDel at hused
    cases hu : e.used with
    | true =>
      rw [if_pos hu] at hused
      cases hused
    | false =>
      rw [hu, if_neg Bool.false_ne_true, hu] at hused
      cases hused
  · rw [if_neg (by simpa using hdst)]
    exact hdst

/-! ## §3 Discoveries that complete -/

/-- What the end callback writes into the record does not change the lookup. -/
theorem lrsGetEntry_rrepRecord (d : Message) (lrs : RoutingTable) :
    lrsGetEntry cfg now (rrepRecord now d).targNode.addr (rrepRecord now d).metricType lrs =
      lrsGetEntry cfg now d.targNode.addr d.metricType lrs := rfl

/-- The route tables on an RREP for a node that is not known. -/
theorem rrepTables_new {d : Message} {r : Router}
    (h : (lrsGetEntry cfg now d.targNode.addr d.metricType r.lrs).2 = none) :
    (rrepTables cfg now d r).1 = true ∧
      (rrepTables cfg now d r).2.lrs = lrsAddEntry cfg now ((rrepAdvert d).route cfg now)
        (lrsGetEntry cfg now d.targNode.addr d.metricType r.lrs).1 ∧
      (rrepTables cfg now d r).2.nib =
        nibFtAdd d.targNode.addr d.targNode.pfxLen d.sender r.nib := by
  unfold rrepTables updateRoute
  dsimp only
  rw [lrsGetEntry_rrepRecord, h]
  exact ⟨rfl, rfl, rfl⟩

/-- And for a node that is known with an older sequence number. -/
theorem rrepTables_known {d : Message} {r : Router}
    (haddr : d.targNode.addr ≠ ipv6AddrUnspecified)
    (h : (lrsGetEntry cfg now d.targNode.addr d.metricType r.lrs).2.isSome = true)
    (hnewer : ∀ e ∈ r.lrs, LeadsToTarg d e → 0 < seqnumCmp e.route.seqnum d.targNode.seqnum) :
    (rrepTables cfg now d r).1 = false ∧
      (rrepTables cfg now d r).2 =
        { r with lrs := (lrsGetEntry cfg now d.targNode.addr d.metricType r.lrs).1 } := by
  obtain ⟨i, hi⟩ := Option.isSome_iff_exists.mp h
  obtain ⟨e', he', hmatch⟩ := lrsGetEntry_some hi
  -- The route that is found is the stored one, aged.
  obtain ⟨e, he, hkey, -, hsame⟩ :=
    (lrsGetEntry_aged cfg now d.targNode.addr d.metricType r.lrs).key? he'
      ((key?_of_matches haddr).mp hmatch)
  have holder := hnewer e (List.mem_of_getElem? he) ((key?_of_matches haddr).mpr hkey)
  rw [← hsame.seqnum] at holder
  have hroute : routeAt (lrsGetEntry cfg now d.targNode.addr d.metricType r.lrs).1 i = e'.route := by
    unfold routeAt
    rw [he']
    rfl
  have hoffer : offersImprovement e'.route (rrepRecord now d).targNode = false :=
    offersImprovement_newer holder
  have htype : ¬ e'.route.metricType ≠ (rrepRecord now d).metricType :=
    not_not_intro (matchesDest_iff.mp hmatch).2
  unfold rrepTables updateRoute
  dsimp only
  rw [lrsGetEntry_rrepRecord, hi]
  dsimp only
  rw [hroute, if_neg htype, hoffer]
  exact ⟨rfl, rfl⟩

/-- For a node that is not known, the discovery completes exactly when the
Local Route Set has a free slot. -/
theorem completed_new_iff {s : Node} (hchecks : RrepChecks cfg s.msgData)
    (hclient : IsClient s.router.rcs s.msgData.origNode.addr)
    (hnew : ¬ KnowsTarg cfg now s.msgData s.router.lrs) :
    Completed s.msgData (cbRrepEndCallback cfg now false s).2.router ↔
      ∃ e ∈ s.router.lrs, e.used = false := by
  have haddr := hchecks.2.2.1
  have hnone : (lrsGetEntry cfg now s.msgData.targNode.addr s.msgData.metricType
      s.router.lrs).2 = none := by
    rw [← Option.not_isSome_iff_eq_none, lrsGetEntry_isSome_iff_knows haddr]
    exact hnew
  obtain ⟨htaken, hlrs, hnib⟩ := rrepTables_new hnone
  have haged := lrsGetEntry_aged cfg now s.msgData.targNode.addr s.msgData.metricType s.router.lrs
  have hmiss : ∀ e ∈ (lrsGetEntry cfg now s.msgData.targNode.addr s.msgData.metricType
      s.router.lrs).1, e.route.matchesDest s.msgData.targNode.addr s.msgData.metricType = false :=
    lrsGetEntry_none hnone
  obtain ⟨t, haged', habsent, hadded⟩ :=
    lrsAddEntry_cases cfg now ((rrepAdvert s.msgData).route cfg now) haddr hmiss
  have hout := cbRrepEndCallback_outcome cfg now s
  generalize cbRrepEndCallback cfg now false s = result at hout ⊢
  cases hout with
  | refused h => exact absurd hchecks h
  | noImprovement _ hkept =>
    rw [htaken] at hkept
    cases hkept
  | relayed _ _ h => exact absurd hclient h
  | noNextHop _ _ h => exact absurd hclient h
  | arrived =>
    constructor
    · rintro ⟨⟨e, he, -, hleads, -⟩, -, -⟩
      dsimp only at he
      rw [hlrs] at he
      rcases hadded with ⟨hfull, heq⟩ | ⟨i, f, hf, hfree, -⟩
      · rw [heq] at he
        exact absurd ((habsent e he).symm.trans hleads) Bool.false_ne_true
      · obtain ⟨f₀, hf₀, hslot⟩ := (haged.trans haged').mem (List.mem_of_getElem? hf)
        exact ⟨f₀, hf₀, hslot.used ▸ hfree⟩
    · rintro ⟨f₀, hf₀, hfree₀⟩
      refine ⟨?_, ?_, bufferDispatch_clears _ _⟩
      · dsimp only
        rw [hlrs]
        rcases hadded with ⟨hfull, -⟩ | ⟨i, f, hf, -, heq⟩
        · obtain ⟨f, hf, hslot⟩ := (haged.trans haged').mem_of hf₀
          rw [← hslot.used, hfull f hf] at hfree₀
          cases hfree₀
        · rw [heq]
          exact ⟨_, List.mem_of_getElem? (getElem?_written hf _), rfl,
            matchesDest_iff.mpr ⟨rfl, rfl⟩, rfl⟩
      · dsimp only
        rw [hnib]
        unfold nibFtAdd
        exact if_pos ⟨rfl, rfl⟩

/-- For a node that is known, a newer RREP leaves what was there. -/
theorem completed_known_iff {s : Node} (hchecks : RrepChecks cfg s.msgData)
    (hinv : MapInv s.router.lrs)
    (hnewer : ∀ e ∈ s.router.lrs, LeadsToTarg s.msgData e →
      0 < seqnumCmp e.route.seqnum s.msgData.targNode.seqnum)
    (hknows : KnowsTarg cfg now s.msgData s.router.lrs) :
    Completed s.msgData (cbRrepEndCallback cfg now false s).2.router ↔
      Completed s.msgData s.router := by
  have haddr := hchecks.2.2.1
  obtain ⟨hkept, htables⟩ := rrepTables_known haddr
    ((@lrsGetEntry_isSome_iff_knows cfg now _ haddr s.router.lrs).mpr hknows) hnewer
  have haged := lrsGetEntry_aged cfg now s.msgData.targNode.addr s.msgData.metricType s.router.lrs
  have hout := cbRrepEndCallback_outcome cfg now s
  generalize cbRrepEndCallback cfg now false s = result at hout ⊢
  cases hout with
  | refused h => exact absurd hchecks h
  | arrived _ h => rw [hkept] at h; cases h
  | relayed _ h => rw [hkept] at h; cases h
  | noNextHop _ h => rw [hkept] at h; cases h
  | noImprovement =>
    dsimp only
    rw [htables]
    constructor
    · rintro ⟨⟨e', he', hused, hleads, hhop⟩, hnib, hbuffer⟩
      obtain ⟨i, hi⟩ := List.getElem?_of_mem he'
      obtain ⟨e, he, hkey, huse, hsame⟩ := haged.key? hi ((key?_of_matches haddr).mp hleads)
      exact ⟨⟨e, List.mem_of_getElem? he, huse.trans hused, (key?_of_matches haddr).mpr hkey,
        hsame.nextHop ▸ hhop⟩, hnib, hbuffer⟩
    · rintro ⟨⟨e, he, hused, hleads, hhop⟩, hnib, hbuffer⟩
      -- The key is held once, so this is the slot that is known and not expunged.
      obtain ⟨f, hf, hleads', hexp⟩ := hknows
      obtain ⟨i, hi⟩ := List.getElem?_of_mem he
      obtain ⟨j, hj⟩ := List.getElem?_of_mem hf
      have hij := hinv.distinct.unique hi hj ((key?_of_matches haddr).mp hleads)
        ((key?_of_matches haddr).mp hleads')
      subst hij
      rw [hi] at hj
      cases hj
      obtain ⟨e', he', hslot⟩ := haged.slot hi
      have hsame := hslot.same hexp
      refine ⟨⟨e', List.mem_of_getElem? he', hslot.used.trans hused, ?_,
        hsame.nextHop.trans hhop⟩, hnib, hbuffer⟩
      unfold LeadsToTarg
      rw [hsame.matchesDest]
      exact hleads

/-- **An answered discovery completes exactly when** TargNode is new to the
Local Route Set and a slot is free for it, or everything is in place
already. -/
theorem discovery_completes_iff (cfg : Conf) (sizes : Sizes) (rcs : RouterClientSet)
    (events : List NodeEvent) (now : Timex) (d : Message)
    (hanswer : Answer cfg d (run (nodeStep cfg) events (Node.init sizes rcs)).router) :
    Completed d (cbRrepEndCallback cfg now false
        { run (nodeStep cfg) events (Node.init sizes rcs) with msgData := d }).2.router ↔
      CompletesWhen cfg now d (run (nodeStep cfg) events (Node.init sizes rcs)).router := by
  have hinv := nodeRun_mapInv cfg sizes rcs events
  generalize run (nodeStep cfg) events (Node.init sizes rcs) = s at hanswer hinv ⊢
  unfold CompletesWhen
  by_cases hknows : KnowsTarg cfg now d s.router.lrs
  · have hiff := completed_known_iff (s := { s with msgData := d }) hanswer.checks hinv
      hanswer.newer hknows
    rw [hiff]
    exact ⟨fun h => Or.inr ⟨hknows, h⟩, fun h => (h.resolve_left fun h => h.1 hknows).2⟩
  · have hiff := completed_new_iff (s := { s with msgData := d }) hanswer.checks hanswer.client
      hknows
    rw [hiff]
    exact ⟨fun h => Or.inl ⟨hknows, h⟩, fun h => (h.resolve_right fun h => hknows h.1).2⟩

/-- The client `::1` asks for `::2`, which the router may know from an RREQ. -/
def sampleAsking (known : Bool) : List NodeEvent :=
  (if known then
    [.routing (.receive 0 5#128 (sampleRreqFor { addr := 2#128, pfxLen := 128, seqnum := 1 } 3#128))]
  else []) ++ [.routeInfo 1 1#128 2#128 0 {}]

/-- The answer, from the neighbour `::6`. -/
def sampleAnswer : Message where
  msgHopLimit := 10
  sender := 6#128
  metricType := metricHopCount
  origNode := { addr := 1#128, pfxLen := 128, seqnum := 1 }
  targNode := { addr := 2#128, pfxLen := 128, seqnum := 2 }

/-- A first discovery completes. -/
theorem discovery_completes_first :
    Completed sampleAnswer (cbRrepEndCallback .default 2 false
      { run (nodeStep .default) (sampleAsking false) (Node.init ⟨2, 2, 2⟩ sampleClients) with
        msgData := sampleAnswer }).2.router :=
  (discovery_completes_iff .default ⟨2, 2, 2⟩ sampleClients (sampleAsking false) 2 sampleAnswer
    (by decide +kernel)).mpr (by decide +kernel)

/-- A newer answer for a node that is known is dropped, and the packet waits on. -/
theorem discovery_stranded_known :
    Answer .default sampleAnswer
        (run (nodeStep .default) (sampleAsking true) (Node.init ⟨2, 2, 2⟩ sampleClients)).router ∧
      ¬ Completed sampleAnswer (cbRrepEndCallback .default 2 false
        { run (nodeStep .default) (sampleAsking true) (Node.init ⟨2, 2, 2⟩ sampleClients) with
          msgData := sampleAnswer }).2.router := by
  decide +kernel

end Turpial.Aodvv2
