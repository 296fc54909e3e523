/-
Turpial.Aodvv2.RouteTheorems — the route tables of one router over whole
runs.

A run is any sequence of route discoveries, received messages and
transmissions of one router. Only received messages touch the route
tables, and only through an advert that the tables take, so both results
here are about what these adverts do.

§2: the Local Route Set and the forwarding table hold the same routes as
long as every advert that is taken finds its route under the prefix length
it has, or a free slot for a route that no other one shares its forwarding
entry with.

§3: a router has no route to a client of its own as long as none of the
adverts it takes is for one. Nothing else in the handlers sees to it.
-/
import Turpial.Lib.Run
import Turpial.Aodvv2.HandlerTheorems

namespace Turpial.Aodvv2

open Turpial.Lib Turpial.Rfc5444

variable {cfg : Conf} {now : Timex}

/-! ## §1 Runs of one router -/

/-- What can happen at a router. -/
inductive RouterEvent where
  | findRoute (now : Timex) (origAddr targetAddr : Ipv6Addr) (stack : Message)
  | receive (now : Timex) (sender : Ipv6Addr) (msg : MessageContext)
  | transmit

/-- The router after it. -/
def routerStep (cfg : Conf) : RouterEvent → Node → Node
  | .findRoute now origAddr targetAddr stack, s =>
    (findRoute cfg now origAddr targetAddr stack s).getD s
  | .receive now sender msg, s => receive cfg now sender msg s
  | .transmit, s => (transmit s).2

/-- A router at rest, with its clients. -/
def Node.init (sizes : Sizes) (rcs : RouterClientSet) : Node where
  router := Router.init sizes rcs

/-- Looking for a route leaves the route tables and the clients alone. -/
theorem findRoute_frame (cfg : Conf) (now : Timex) (origAddr targetAddr : Ipv6Addr)
    (stack : Message) (s : Node) :
    let s' := (findRoute cfg now origAddr targetAddr stack s).getD s
    s'.router.lrs = s.router.lrs ∧ s'.router.nib = s.router.nib ∧ s'.router.rcs = s.router.rcs := by
  unfold findRoute
  cases rcsIsClient origAddr s.router.rcs with
  | none => exact ⟨rfl, rfl, rfl⟩
  | some client => exact ⟨rfl, rfl, rfl⟩

/-- So does sending what is queued. -/
theorem transmit_frame (s : Node) :
    (transmit s).2.router.lrs = s.router.lrs ∧ (transmit s).2.router.nib = s.router.nib ∧
      (transmit s).2.router.rcs = s.router.rcs := by
  unfold transmit
  split
  · exact ⟨rfl, rfl, rfl⟩
  · exact ⟨rfl, rfl, rfl⟩
  · exact ⟨rfl, rfl, rfl⟩

/-! ## §2 The two route tables agree -/

/-- The key of the forwarding entry of a route. -/
def LocalRoute.nibKey (r : LocalRoute) : Ipv6Addr × UInt8 :=
  (prefixOf r.addr r.pfxLen.toNat, r.pfxLen)

/-- The key of the forwarding entry that an advert brings. -/
def Advert.nibKey (a : Advert) : Ipv6Addr × UInt8 :=
  (prefixOf a.node.addr a.node.pfxLen.toNat, a.node.pfxLen)

/-- Slot `i` of the Local Route Set has a route with this key and next hop. -/
def HoldsRoute (lrs : RoutingTable) (i : Nat) (key : Ipv6Addr × UInt8) (hop : Ipv6Addr) : Prop :=
  ∃ e, lrs[i]? = some e ∧ e.used = true ∧ e.route.nibKey = key ∧ e.route.nextHop = hop

/-- The forwarding table has exactly the routes of the Local Route Set, and
no two of these share an entry. -/
structure TablesAgree (lrs : RoutingTable) (nib : Nib) : Prop where
  same : ∀ key hop, nib key.1 key.2 = some hop ↔ ∃ i, HoldsRoute lrs i key hop
  single : ∀ i j key hop hop', HoldsRoute lrs i key hop → HoldsRoute lrs j key hop' → i = j

/-- Routes have a lifetime, and none in the table is past it. -/
def WithinLifetime (cfg : Conf) (now : Timex) (lrs : RoutingTable) : Prop :=
  0 < cfg.validity ∧ Kept cfg now lrs

instance (cfg : Conf) (now : Timex) (lrs : RoutingTable) : Decidable (WithinLifetime cfg now lrs) :=
  inferInstanceAs (Decidable (_ ∧ _))

theorem SameRoute.nibKey {r r' : LocalRoute} (h : SameRoute now r r') : r'.nibKey = r.nibKey := by
  unfold LocalRoute.nibKey
  rw [h.addr, h.pfxLen]

/-- Ageing within the lifetime keeps all routes where they are. -/
theorem Aged.holdsRoute_iff {t t' : RoutingTable} (h : Aged cfg now t t') (hkept : Kept cfg now t)
    (i : Nat) (key : Ipv6Addr × UInt8) (hop : Ipv6Addr) :
    HoldsRoute t' i key hop ↔ HoldsRoute t i key hop := by
  constructor
  · rintro ⟨e', he', hu, hkey, hhop⟩
    obtain ⟨e, he, hslot⟩ := h.2 i e' he'
    have hsame := hslot.same (hkept e (List.mem_of_getElem? he))
    exact ⟨e, he, hslot.used ▸ hu, hsame.nibKey ▸ hkey, hsame.nextHop ▸ hhop⟩
  · rintro ⟨e, he, hu, hkey, hhop⟩
    obtain ⟨e', he', hslot⟩ := h.slot he
    have hsame := hslot.same (hkept e (List.mem_of_getElem? he))
    exact ⟨e', he', hslot.used.trans hu, hsame.nibKey.trans hkey, hsame.nextHop.trans hhop⟩

theorem TablesAgree.aged {t t' : RoutingTable} {nib : Nib} (h : TablesAgree t nib)
    (haged : Aged cfg now t t') (hkept : Kept cfg now t) : TablesAgree t' nib where
  same key hop := by
    simp only [haged.holdsRoute_iff hkept]
    exact h.same key hop
  single i j key hop hop' hi hj :=
    h.single i j key hop hop' ((haged.holdsRoute_iff hkept _ _ _).mp hi)
      ((haged.holdsRoute_iff hkept _ _ _).mp hj)

theorem Kept.aged {t t' : RoutingTable} (h : Kept cfg now t) (haged : Aged cfg now t t') :
    Kept cfg now t' := by
  intro e' he' hexp
  obtain ⟨e, he, hslot⟩ := haged.mem he'
  exact h e he ((hslot.same (h e he)).expunged hexp)

/-- Writing one slot. -/
theorem holdsRoute_set {t : RoutingTable} {i : Nat} (hi : i < t.length) (route : LocalRoute)
    (j : Nat) (key : Ipv6Addr × UInt8) (hop : Ipv6Addr) :
    HoldsRoute (t.set i { route := route, used := true }) j key hop ↔
      i = j ∧ route.nibKey = key ∧ route.nextHop = hop ∨ i ≠ j ∧ HoldsRoute t j key hop := by
  unfold HoldsRoute
  by_cases hij : i = j
  · subst hij
    simp [List.getElem?_set_self hi]
  · simp [List.getElem?_set_ne hij, hij]

theorem nibFtAdd_apply (dst : Ipv6Addr) (dstLen : UInt8) (nextHop : Ipv6Addr) (nib : Nib)
    (key : Ipv6Addr × UInt8) :
    nibFtAdd dst dstLen nextHop nib key.1 key.2 =
      if (prefixOf dst dstLen.toNat, dstLen) = key then some nextHop else nib key.1 key.2 := by
  obtain ⟨p, len⟩ := key
  unfold nibFtAdd
  simp only [Prod.mk.injEq, eq_comm (a := p), eq_comm (a := len)]

/-- Writing a route into a slot and its forwarding entry into the NIB keeps
agreement, if the slot held no other route and no other slot this one. -/
theorem TablesAgree.write {t : RoutingTable} {nib : Nib} {i : Nat} {a : Advert}
    (h : TablesAgree t nib) (hi : i < t.length)
    (hold : ∀ key hop, HoldsRoute t i key hop → key = a.nibKey)
    (hother : ∀ j hop, HoldsRoute t j a.nibKey hop → j = i) :
    TablesAgree (t.set i { route := a.route cfg now, used := true })
      (nibFtAdd a.node.addr a.node.pfxLen a.sender nib) where
  same key hop := by
    rw [nibFtAdd_apply]
    simp only [holdsRoute_set hi]
    change (if a.nibKey = key then some a.sender else nib key.1 key.2) = some hop ↔
      ∃ j, i = j ∧ a.nibKey = key ∧ a.sender = hop ∨ i ≠ j ∧ HoldsRoute t j key hop
    by_cases hkey : a.nibKey = key
    · subst hkey
      rw [if_pos rfl, Option.some.injEq]
      constructor
      · intro hhop
        exact ⟨i, Or.inl ⟨rfl, rfl, hhop⟩⟩
      · rintro ⟨j, ⟨-, -, hhop⟩ | ⟨hij, hj⟩⟩
        · exact hhop
        · exact absurd (hother j hop hj).symm hij
    · rw [if_neg hkey, h.same key hop]
      constructor
      · rintro ⟨j, hj⟩
        refine ⟨j, Or.inr ⟨?_, hj⟩⟩
        rintro rfl
        exact hkey (hold key hop hj).symm
      · rintro ⟨j, ⟨-, heq, -⟩ | ⟨-, hj⟩⟩
        · exact absurd heq hkey
        · exact ⟨j, hj⟩
  single j k key hop hop' hj hk := by
    rw [holdsRoute_set hi] at hj hk
    rcases hj with ⟨rfl, hkey, -⟩ | ⟨hij, hj⟩
    · rcases hk with ⟨hik, -, -⟩ | ⟨hik, hk⟩
      · exact hik
      · subst hkey
        exact (hother k hop' hk).symm
    · rcases hk with ⟨rfl, hkey, -⟩ | ⟨hik, hk⟩
      · subst hkey
        exact hother j hop hj
      · exact h.single j k key hop hop' hj hk

/-- An advert fits the tables: its node is known under the same prefix
length, or it is new, there is room for it, and its forwarding entry is
not in use. -/
def Advert.Fits (a : Advert) (lrs : RoutingTable) : Prop :=
  (∀ e ∈ lrs, a.matches e = true → e.route.pfxLen = a.node.pfxLen) ∧
    ((∀ e ∈ lrs, a.matches e = false) →
      (∃ e ∈ lrs, e.used = false) ∧ ∀ e ∈ lrs, e.used = true → e.route.nibKey ≠ a.nibKey)

instance (a : Advert) (lrs : RoutingTable) : Decidable (a.Fits lrs) :=
  inferInstanceAs (Decidable (_ ∧ _))

theorem Advert.matches_aged {a : Advert} {e e' : LrsEntry} (h : SameRoute now e.route e'.route) :
    a.matches e' = a.matches e := h.matchesDest _ _

/-- Within the lifetime a node that is absent after ageing was absent before. -/
theorem Advert.absent_before {a : Advert} {t t' : RoutingTable} (haged : Aged cfg now t t')
    (hkept : Kept cfg now t) (habsent : ∀ e ∈ t', a.matches e = false) :
    ∀ e ∈ t, a.matches e = false := by
  intro e he
  obtain ⟨e', he', hslot⟩ := haged.mem_of he
  rw [← Advert.matches_aged (hslot.same (hkept e he))]
  exact habsent e' he'

/-- A slot with the address of an advert is in use. -/
theorem FreeSlotsBlank.used {t : RoutingTable} (h : FreeSlotsBlank t) {a : Advert} {e : LrsEntry}
    (he : e ∈ t) (haddr : a.node.addr ≠ ipv6AddrUnspecified) (hmatch : a.matches e = true) :
    e.used = true := by
  cases hu : e.used with
  | true => rfl
  | false =>
    have hblank := h e he hu
    rw [(matchesDest_iff.mp hmatch).1] at hblank
    exact absurd hblank haddr

/-- A fitting advert keeps the tables in agreement. -/
theorem RouteUpdate.agree {a : Advert} {lrs t : RoutingTable} {nib nib' : Nib} {taken : Bool}
    (h : RouteUpdate cfg now a lrs nib taken t nib') (haddr : a.node.addr ≠ ipv6AddrUnspecified)
    (hkept : Kept cfg now lrs) (hfits : taken = true → a.Fits lrs) (hblank : FreeSlotsBlank lrs)
    (hagree : TablesAgree lrs nib) : FreeSlotsBlank t ∧ TablesAgree t nib' := by
  cases h with
  | kept aged => exact ⟨hblank.aged aged, hagree.aged aged hkept⟩
  | full aged absent full =>
    obtain ⟨⟨e, he, hfree⟩, -⟩ := (hfits rfl).2 (Advert.absent_before aged hkept absent)
    obtain ⟨e', he', hslot⟩ := aged.mem_of he
    rw [← hslot.used, full e' he'] at hfree
    cases hfree
  | @created t i e aged absent slot free =>
    obtain ⟨-, hfresh⟩ := (hfits rfl).2 (Advert.absent_before aged hkept absent)
    have hi := (List.getElem?_eq_some_iff.mp slot).1
    refine ⟨(hblank.aged aged).write i _, (hagree.aged aged hkept).write hi ?_ ?_⟩
    · rintro key hop ⟨e', he', hu, -⟩
      rw [slot] at he'
      cases he'
      rw [free] at hu
      cases hu
    · intro j hop hj
      obtain ⟨e', he', hu, hkey, -⟩ := (aged.holdsRoute_iff hkept j _ hop).mp hj
      exact absurd hkey (hfresh e' (List.mem_of_getElem? he') hu)
  | @improved t i e aged slot present offers =>
    have hmem := List.mem_of_getElem? slot
    have hused := (hblank.aged aged).used hmem haddr present
    have hkey : e.route.nibKey = a.nibKey := by
      obtain ⟨e₀, he₀, hslot⟩ := aged.mem hmem
      have hsame := hslot.same (hkept e₀ he₀)
      have hlen := (hfits rfl).1 e₀ he₀ (by rw [← Advert.matches_aged hsame]; exact present)
      unfold LocalRoute.nibKey Advert.nibKey
      rw [(matchesDest_iff.mp present).1, hsame.pfxLen, hlen]
    have hi := (List.getElem?_eq_some_iff.mp slot).1
    have hagree' := hagree.aged aged hkept
    have hold : HoldsRoute t i a.nibKey e.route.nextHop := ⟨e, slot, hused, hkey, rfl⟩
    rw [hused]
    refine ⟨(hblank.aged aged).write i _, hagree'.write hi ?_ ?_⟩
    · rintro key hop ⟨e', he', -, hkey', -⟩
      rw [slot] at he'
      cases he'
      exact hkey'.symm.trans hkey
    · intro j hop hj
      exact hagree'.single j i _ hop _ hj hold

/-- A route that is written now is within its lifetime. -/
theorem Advert.route_kept (hlife : 0 < cfg.validity) (a : Advert) :
    ¬ Expunged cfg now (a.route cfg now) := by
  intro hexp
  have hle : now + cfg.validity ≤ now := hexp.2.2.1
  exact Nat.not_succ_le_self now (Nat.le_trans (Nat.add_le_add_left hlife now) hle)

theorem Kept.write {t : RoutingTable} (h : Kept cfg now t) (i : Nat) {e : LrsEntry}
    (he : ¬ Expunged cfg now e.route) : Kept cfg now (t.set i e) := by
  intro e' he'
  rcases List.mem_or_eq_of_mem_set he' with he' | rfl
  · exact h e' he'
  · exact he

theorem RouteUpdate.kept_after {a : Advert} {lrs t : RoutingTable} {nib nib' : Nib} {taken : Bool}
    (h : RouteUpdate cfg now a lrs nib taken t nib') (hlife : WithinLifetime cfg now lrs) :
    Kept cfg now t := by
  cases h with
  | kept aged => exact hlife.2.aged aged
  | full aged => exact hlife.2.aged aged
  | created aged => exact (hlife.2.aged aged).write _ (a.route_kept hlife.1)
  | improved aged => exact (hlife.2.aged aged).write _ (a.route_kept hlife.1)

/-- The two tables of a node, and its free slots. -/
def Node.TablesAgree (s : Node) : Prop :=
  FreeSlotsBlank s.router.lrs ∧ Aodvv2.TablesAgree s.router.lrs s.router.nib

theorem tablesAgree_init (sizes : Sizes) (rcs : RouterClientSet) :
    (Node.init sizes rcs).TablesAgree := by
  have hblank : ∀ e ∈ (Node.init sizes rcs).router.lrs, e = {} := fun e he =>
    List.eq_of_mem_replicate he
  have hnone : ∀ i key hop, ¬ HoldsRoute (Node.init sizes rcs).router.lrs i key hop := by
    rintro i key hop ⟨e, he, hu, -⟩
    rw [hblank e (List.mem_of_getElem? he)] at hu
    cases hu
  refine ⟨fun e he _ => by rw [hblank e he], fun key hop => ⟨fun h => ?_, ?_⟩, ?_⟩
  · cases h
  · rintro ⟨i, hi⟩
    exact absurd hi (hnone i key hop)
  · intro i j key hop hop' hi
    exact absurd hi (hnone i key hop)

/-- A step of a router within the lifetime of its routes. -/
def StepWithinLifetime (cfg : Conf) : RouterEvent → Node → Prop
  | .receive now _ _, s => WithinLifetime cfg now s.router.lrs
  | _, _ => True

/-- A step whose advert, if the tables take it, fits them. -/
def StepFits (cfg : Conf) : RouterEvent → Node → Prop
  | .receive now sender msg, s => ∀ a ∈ advert? cfg now sender msg s,
    a.taken cfg now s.router.lrs = true → a.Fits s.router.lrs
  | _, _ => True

instance (cfg : Conf) : ∀ ev s, Decidable (StepWithinLifetime cfg ev s)
  | .receive now _ _, s => inferInstanceAs (Decidable (WithinLifetime cfg now s.router.lrs))
  | .findRoute .., _ => inferInstanceAs (Decidable True)
  | .transmit, _ => inferInstanceAs (Decidable True)

instance (cfg : Conf) : ∀ ev s, Decidable (StepFits cfg ev s)
  | .receive now sender msg, s => inferInstanceAs (Decidable (∀ a ∈ advert? cfg now sender msg s,
      a.taken cfg now s.router.lrs = true → a.Fits s.router.lrs))
  | .findRoute .., _ => inferInstanceAs (Decidable True)
  | .transmit, _ => inferInstanceAs (Decidable True)

/-- What leaves both route tables alone leaves them in agreement. -/
theorem Node.TablesAgree.of_frame {s s' : Node} (h : s.TablesAgree)
    (hframe : s'.router.lrs = s.router.lrs ∧ s'.router.nib = s.router.nib ∧
      s'.router.rcs = s.router.rcs) : s'.TablesAgree := by
  obtain ⟨hlrs, hnib, -⟩ := hframe
  change FreeSlotsBlank _ ∧ Aodvv2.TablesAgree _ _
  rw [hlrs, hnib]
  exact h

theorem tablesAgree_step (cfg : Conf) (ev : RouterEvent) (s : Node) (h : s.TablesAgree)
    (hstep : StepWithinLifetime cfg ev s ∧ StepFits cfg ev s) :
    (routerStep cfg ev s).TablesAgree := by
  cases ev with
  | findRoute now origAddr targetAddr stack =>
    exact h.of_frame (findRoute_frame cfg now origAddr targetAddr stack s)
  | transmit => exact h.of_frame (transmit_frame s)
  | receive now sender msg =>
    obtain ⟨hlife, hfits⟩ := hstep
    have hhandled := receive_handled cfg now sender msg s
    have hsound : ∀ a ∈ advert? cfg now sender msg s, AdvertSound cfg sender a :=
      fun a ha => advert?_sound ha
    change ∀ a ∈ advert? cfg now sender msg s, _ at hfits
    change FreeSlotsBlank (receive cfg now sender msg s).router.lrs ∧
      Aodvv2.TablesAgree (receive cfg now sender msg s).router.lrs _
    generalize advert? cfg now sender msg s = adv at hhandled hfits hsound
    cases hhandled with
    | quiet rcs lrs nib =>
      rw [lrs]
      exact ⟨h.1, nib ▸ h.2⟩
    | @updated a t rcs update aged =>
      obtain ⟨hblank, hagree⟩ := update.agree (hsound a rfl).addr hlife.2 (hfits a rfl) h.1 h.2
      exact ⟨hblank.aged aged, hagree.aged aged (update.kept_after hlife)⟩

/-- **LRS and NIB agree** in every run within the lifetime of the routes
all of whose adverts fit the tables. -/
theorem tables_agree (cfg : Conf) (sizes : Sizes) (rcs : RouterClientSet)
    (events : List RouterEvent)
    (hlife : Along (routerStep cfg) (StepWithinLifetime cfg) events (Node.init sizes rcs))
    (hfits : Along (routerStep cfg) (StepFits cfg) events (Node.init sizes rcs)) :
    Aodvv2.TablesAgree (run (routerStep cfg) events (Node.init sizes rcs)).router.lrs
      (run (routerStep cfg) events (Node.init sizes rcs)).router.nib :=
  (run_invariant (fun ev s => tablesAgree_step cfg ev s) (tablesAgree_init sizes rcs)
    (hlife.and hfits)).2

/-- An RREQ as a neighbour sends it. -/
def sampleRreqFor (orig : NodeData) (targ : Ipv6Addr) : MessageContext :=
  (writerSendRreq {
    msgHopLimit := 20
    metricType := defaultMetric
    origNode := orig
    targNode := { addr := targ, pfxLen := 128 } }).context

/-- The node `2001:db8::` with a prefix length. -/
def sampleOrig (pfxLen : UInt8) : NodeData where
  addr := 0x20010db8#128 <<< 96
  pfxLen := pfxLen
  seqnum := 1

/-- Two discoveries of the same node, with one prefix length or with two. -/
def sampleDiscoveries (pfxLen pfxLen' : UInt8) : List RouterEvent :=
  [.receive 0 5#128 (sampleRreqFor (sampleOrig pfxLen) 2#128),
   .receive 1 6#128 (sampleRreqFor (sampleOrig pfxLen') 3#128)]

theorem tables_agree_one_length :
    Aodvv2.TablesAgree
      (run (routerStep .default) (sampleDiscoveries 64 64) (Node.init ⟨2, 2, 0⟩ [])).router.lrs
      (run (routerStep .default) (sampleDiscoveries 64 64) (Node.init ⟨2, 2, 0⟩ [])).router.nib :=
  tables_agree .default ⟨2, 2, 0⟩ [] (sampleDiscoveries 64 64) (by decide +kernel)
    (by decide +kernel)

/-- The second prefix length leaves the forwarding entry of the first behind. -/
theorem tables_disagree_two_lengths :
    Along (routerStep .default) (StepWithinLifetime .default) (sampleDiscoveries 128 64)
      (Node.init ⟨2, 2, 0⟩ []) ∧
    ¬ Aodvv2.TablesAgree
      (run (routerStep .default) (sampleDiscoveries 128 64) (Node.init ⟨2, 2, 0⟩ [])).router.lrs
      (run (routerStep .default) (sampleDiscoveries 128 64) (Node.init ⟨2, 2, 0⟩ [])).router.nib := by
  refine ⟨by decide +kernel, fun h => ?_⟩
  have hleft : (run (routerStep .default) (sampleDiscoveries 128 64)
      (Node.init ⟨2, 2, 0⟩ [])).router.nib (0x20010db8#128 <<< 96) 128 = some 5#128 := by
    decide +kernel
  have hgone : ∀ e ∈ (run (routerStep .default) (sampleDiscoveries 128 64)
      (Node.init ⟨2, 2, 0⟩ [])).router.lrs, e.route.nibKey ≠ (0x20010db8#128 <<< 96, 128) := by
    decide +kernel
  obtain ⟨i, e, he, -, hkey, -⟩ := (h.same (0x20010db8#128 <<< 96, 128) 5#128).mp hleft
  exact hgone e (List.mem_of_getElem? he) hkey

/-! ## §3 No route to an own client -/

/-- No route in either table leads to a client of the router. The handlers
never install a route to `::`, which is what an expunged slot holds. -/
structure Node.NoOwnRoute (s : Node) : Prop where
  lrs : ∀ e ∈ s.router.lrs, e.route.addr ≠ ipv6AddrUnspecified →
    ¬ IsClient s.router.rcs e.route.addr
  nib : ∀ p len hop, s.router.nib p len = some hop → ¬ IsClient s.router.rcs p

/-- An advert that would install a route to a client: the prefix that goes
to the forwarding table is a client's address, or the node is a client
and the Local Route Set has room for it. -/
def Advert.Own (a : Advert) (rcs : RouterClientSet) (lrs : RoutingTable) : Prop :=
  IsClient rcs a.nibKey.1 ∨ IsClient rcs a.node.addr ∧ ∃ e ∈ lrs, e.used = false

instance (a : Advert) (rcs : RouterClientSet) (lrs : RoutingTable) : Decidable (a.Own rcs lrs) :=
  inferInstanceAs (Decidable (_ ∨ _))

/-- A step that takes no such advert. -/
def StepForeign (cfg : Conf) : RouterEvent → Node → Prop
  | .receive now sender msg, s => ∀ a ∈ advert? cfg now sender msg s,
    a.taken cfg now s.router.lrs = true → ¬ a.Own s.router.rcs s.router.lrs
  | _, _ => True

instance (cfg : Conf) : ∀ ev s, Decidable (StepForeign cfg ev s)
  | .receive now sender msg, s => inferInstanceAs (Decidable (∀ a ∈ advert? cfg now sender msg s,
      a.taken cfg now s.router.lrs = true → ¬ a.Own s.router.rcs s.router.lrs))
  | .findRoute .., _ => inferInstanceAs (Decidable True)
  | .transmit, _ => inferInstanceAs (Decidable True)

/-- No slot leads to a client. -/
def NoOwnSlot (rcs : RouterClientSet) (lrs : RoutingTable) : Prop :=
  ∀ e ∈ lrs, e.route.addr ≠ ipv6AddrUnspecified → ¬ IsClient rcs e.route.addr

theorem NoOwnSlot.aged {rcs : RouterClientSet} {t t' : RoutingTable} (h : NoOwnSlot rcs t)
    (haged : Aged cfg now t t') : NoOwnSlot rcs t' := by
  intro e' he' haddr
  obtain ⟨e, he, hslot⟩ := haged.mem he'
  have hsame := hslot.same_of_addr haddr
  rw [hsame.addr] at haddr ⊢
  exact h e he haddr

theorem NoOwnSlot.write {rcs : RouterClientSet} {t : RoutingTable} (h : NoOwnSlot rcs t) (i : Nat)
    {e : LrsEntry} (he : ¬ IsClient rcs e.route.addr) : NoOwnSlot rcs (t.set i e) := by
  intro e' he' haddr
  rcases List.mem_or_eq_of_mem_set he' with he' | rfl
  · exact h e' he' haddr
  · exact he

/-- What an advert that is not for a client leaves. -/
theorem RouteUpdate.noOwn {a : Advert} {rcs : RouterClientSet} {lrs t : RoutingTable}
    {nib nib' : Nib} {taken : Bool} (h : RouteUpdate cfg now a lrs nib taken t nib')
    (haddr : a.node.addr ≠ ipv6AddrUnspecified) (hown : taken = true → ¬ a.Own rcs lrs)
    (hlrs : NoOwnSlot rcs lrs) (hnib : ∀ p len hop, nib p len = some hop → ¬ IsClient rcs p) :
    NoOwnSlot rcs t ∧ ∀ p len hop, nib' p len = some hop → ¬ IsClient rcs p := by
  have hadd : ¬ IsClient rcs a.nibKey.1 → ∀ p len hop,
      nibFtAdd a.node.addr a.node.pfxLen a.sender nib p len = some hop → ¬ IsClient rcs p := by
    intro hkey p len hop hp
    unfold nibFtAdd at hp
    split at hp
    · rename_i heq
      rw [heq.1]
      exact hkey
    · exact hnib p len hop hp
  cases h with
  | kept aged => exact ⟨hlrs.aged aged, hnib⟩
  | full aged => exact ⟨hlrs.aged aged, hadd fun hkey => hown rfl (Or.inl hkey)⟩
  | @created t i e aged absent slot free =>
    refine ⟨(hlrs.aged aged).write i fun hclient => ?_, hadd fun hkey => hown rfl (Or.inl hkey)⟩
    obtain ⟨e₀, he₀, hslot⟩ := aged.mem (List.mem_of_getElem? slot)
    exact hown rfl (Or.inr ⟨hclient, e₀, he₀, hslot.used ▸ free⟩)
  | @improved t i e aged slot present offers =>
    have heq : e.route.addr = a.node.addr := (matchesDest_iff.mp present).1
    have hold := hlrs.aged aged e (List.mem_of_getElem? slot) (heq ▸ haddr)
    rw [heq] at hold
    exact ⟨(hlrs.aged aged).write i hold, hadd fun hkey => hown rfl (Or.inl hkey)⟩

/-- And one that is for a client leaves a route to it. -/
theorem RouteUpdate.own {a : Advert} {rcs : RouterClientSet} {lrs t t' : RoutingTable}
    {nib nib' : Nib} (hlife : 0 < cfg.validity) (h : RouteUpdate cfg now a lrs nib true t nib')
    (haged : Aged cfg now t t') (haddr : a.node.addr ≠ ipv6AddrUnspecified)
    (hown : a.Own rcs lrs) (hlrs : NoOwnSlot rcs lrs) :
    ¬ (NoOwnSlot rcs t' ∧ ∀ p len hop, nib' p len = some hop → ¬ IsClient rcs p) := by
  rintro ⟨hlrs', hnib'⟩
  have hadd : nib' = nibFtAdd a.node.addr a.node.pfxLen a.sender nib := by cases h <;> rfl
  rcases hown with hkey | ⟨hclient, e₀, he₀, hfree₀⟩
  · refine hnib' a.nibKey.1 a.nibKey.2 a.sender ?_ hkey
    rw [hadd, nibFtAdd_apply]
    exact if_pos rfl
  · cases h with
    | full aged absent full =>
      obtain ⟨e', he', hslot⟩ := aged.mem_of he₀
      rw [← hslot.used, full e' he'] at hfree₀
      cases hfree₀
    | @created t i e aged absent slot free =>
      obtain ⟨e', he', hslot⟩ := haged.slot (getElem?_written slot _)
      have hsame := hslot.same (a.route_kept hlife)
      have heq : e'.route.addr = a.node.addr := hsame.addr
      refine hlrs' e' (List.mem_of_getElem? he') (heq ▸ haddr) ?_
      rw [heq]
      exact hclient
    | @improved t i e aged slot present offers =>
      have heq : e.route.addr = a.node.addr := (matchesDest_iff.mp present).1
      refine hlrs.aged aged e (List.mem_of_getElem? slot) (heq ▸ haddr) ?_
      rw [heq]
      exact hclient

theorem noOwnRoute_iff {s : Node} : s.NoOwnRoute ↔ NoOwnSlot s.router.rcs s.router.lrs ∧
    ∀ p len hop, s.router.nib p len = some hop → ¬ IsClient s.router.rcs p :=
  ⟨fun h => ⟨h.lrs, h.nib⟩, fun h => ⟨h.1, h.2⟩⟩

/-- What leaves both route tables and the client set alone adds no route. -/
theorem Node.NoOwnRoute.of_frame {s s' : Node} (h : s.NoOwnRoute)
    (hframe : s'.router.lrs = s.router.lrs ∧ s'.router.nib = s.router.nib ∧
      s'.router.rcs = s.router.rcs) : s'.NoOwnRoute := by
  obtain ⟨hlrs, hnib, hrcs⟩ := hframe
  rw [noOwnRoute_iff] at h ⊢
  rw [hlrs, hnib, hrcs]
  exact h

theorem noOwnRoute_init (sizes : Sizes) (rcs : RouterClientSet) :
    (Node.init sizes rcs).NoOwnRoute where
  lrs e he haddr := by
    rw [List.eq_of_mem_replicate he] at haddr
    exact absurd rfl haddr
  nib p len hop h := by cases h

/-- The step lemma, in both directions. -/
theorem noOwnRoute_step (cfg : Conf) (ev : RouterEvent) (s : Node) (h : s.NoOwnRoute) :
    (StepForeign cfg ev s → (routerStep cfg ev s).NoOwnRoute) ∧
      (0 < cfg.validity → (routerStep cfg ev s).NoOwnRoute → StepForeign cfg ev s) := by
  cases ev with
  | findRoute now origAddr targetAddr stack =>
    have hframe := findRoute_frame cfg now origAddr targetAddr stack s
    exact ⟨fun _ => h.of_frame hframe, fun _ _ => trivial⟩
  | transmit => exact ⟨fun _ => h.of_frame (transmit_frame s), fun _ _ => trivial⟩
  | receive now sender msg =>
    have hhandled := receive_handled cfg now sender msg s
    have hsound : ∀ a ∈ advert? cfg now sender msg s, AdvertSound cfg sender a :=
      fun a ha => advert?_sound ha
    have hrcs := receive_rcs cfg now sender msg s
    rw [noOwnRoute_iff] at h ⊢
    unfold routerStep StepForeign
    dsimp only
    rw [hrcs]
    generalize advert? cfg now sender msg s = adv at hhandled hsound ⊢
    cases hhandled with
    | quiet rcs lrs nib =>
      rw [lrs, nib]
      exact ⟨fun _ => h, fun _ _ a ha => by cases ha⟩
    | @updated a t rcs update aged =>
      have haddr := (hsound a rfl).addr
      constructor
      · intro hforeign
        obtain ⟨hlrs, hnib⟩ := update.noOwn haddr (hforeign a rfl) h.1 h.2
        exact ⟨hlrs.aged aged, hnib⟩
      · intro hlife hafter b hb htaken hown
        cases hb
        rw [htaken] at update
        exact update.own hlife aged haddr hown h.1 hafter

/-- **A router never routes to itself** in any run none of whose adverts is
for a client, and (as routes have a lifetime) in no other run. -/
theorem never_routes_to_own_client (cfg : Conf) (sizes : Sizes) (rcs : RouterClientSet)
    (events : List RouterEvent) :
    (Along (routerStep cfg) (StepForeign cfg) events (Node.init sizes rcs) →
      ∀ pre, pre <+: events → (run (routerStep cfg) pre (Node.init sizes rcs)).NoOwnRoute) ∧
    (0 < cfg.validity →
      (∀ pre, pre <+: events → (run (routerStep cfg) pre (Node.init sizes rcs)).NoOwnRoute) →
      Along (routerStep cfg) (StepForeign cfg) events (Node.init sizes rcs)) := by
  have hinit := noOwnRoute_init sizes rcs
  constructor
  · rintro h pre ⟨rest, rfl⟩
    exact run_invariant (fun ev s hs hp => (noOwnRoute_step cfg ev s hs).1 hp) hinit h.of_append.1
  · intro hlife h
    refine (along_iff_invariant (fun ev s hs => ?_) events hinit).mpr h
    exact ⟨(noOwnRoute_step cfg ev s hs).1, (noOwnRoute_step cfg ev s hs).2 hlife⟩

/-- A client `::1` looks for `::2`, and a neighbour's copy of the RREQ comes
back with a metric. -/
def sampleEcho (metric : UInt8) : List RouterEvent :=
  [.findRoute 0 1#128 2#128 {},
   .transmit,
   .receive 1 5#128 (sampleRreqFor { addr := 1#128, pfxLen := 128, metric := metric, seqnum := 1 }
     2#128)]

/-- The client set of the router. -/
def sampleClients : RouterClientSet := [{ addr := 1#128, pfxLen := 128, cost := 1, used := true }]

/-- A neighbour that looks for the client. -/
def sampleForeign : RouterEvent :=
  .receive 2 5#128 (sampleRreqFor { addr := 7#128, pfxLen := 128, seqnum := 1 } 1#128)

/-- A copy at the original metric is dropped, and the RREQ of another node
for the client gives a route to that node only. -/
theorem never_routes_to_own_client_flood :
    Along (routerStep .default) (StepForeign .default) (sampleEcho 0 ++ [sampleForeign])
      (Node.init ⟨2, 2, 0⟩ sampleClients) ∧
    ∀ pre, pre <+: sampleEcho 0 ++ [sampleForeign] →
      (run (routerStep .default) pre (Node.init ⟨2, 2, 0⟩ sampleClients)).NoOwnRoute := by
  have halong : Along (routerStep .default) (StepForeign .default)
      (sampleEcho 0 ++ [sampleForeign]) (Node.init ⟨2, 2, 0⟩ sampleClients) := by decide +kernel
  exact ⟨halong, (never_routes_to_own_client .default ⟨2, 2, 0⟩ sampleClients
    (sampleEcho 0 ++ [sampleForeign])).1 halong⟩

/-- The neighbour's rebroadcast has metric 1: the router takes it and routes
its own client to the neighbour. -/
theorem routes_to_own_client_echo :
    ¬ (run (routerStep .default) (sampleEcho 1) (Node.init ⟨2, 2, 0⟩ sampleClients)).NoOwnRoute := by
  intro h
  have hroute : (run (routerStep .default) (sampleEcho 1)
      (Node.init ⟨2, 2, 0⟩ sampleClients)).router.nib 1#128 128 = some 5#128 := by decide +kernel
  have hclient : IsClient (run (routerStep .default) (sampleEcho 1)
      (Node.init ⟨2, 2, 0⟩ sampleClients)).router.rcs 1#128 := by decide +kernel
  exact h.nib _ _ _ hroute hclient

end Turpial.Aodvv2
