/-
Turpial.Aodvv2.LrsTheorems — what a walk over the Local Route Set leaves.

Every lookup ages the slots it passes, so no operation of the set leaves
the table alone. `Aged` is the relation between a table and the table
after any number of walks at one instant: slot by slot the same route, or
a blank one where the route was expunged. The lookup and
`aodvv2_lrs_add_entry` are described in terms of it, once.
-/
import Turpial.Aodvv2.Lrs

namespace Turpial.Aodvv2

open Turpial.Lib

variable {cfg : Conf} {now : Timex}

/-! ## §1 Ageing a table -/

/-- A slot before and after walks at one instant. -/
structure AgedSlot (cfg : Conf) (now : Timex) (e e' : LrsEntry) : Prop where
  used : e'.used = e.used
  route : SameRoute now e.route e'.route ∨
    Expunged cfg now e.route ∧ SameRoute now {} e'.route

theorem AgedSlot.refl (e : LrsEntry) : AgedSlot cfg now e e := ⟨rfl, Or.inl (SameRoute.refl now _)⟩

theorem AgedSlot.reset (e : LrsEntry) : AgedSlot cfg now e (resetEntryIfStale cfg now e) := by
  obtain ⟨hused, hroute | ⟨hexp, hzero⟩⟩ := resetEntryIfStale_cases cfg now e
  · exact ⟨hused, Or.inl hroute⟩
  · exact ⟨hused, Or.inr ⟨hexp, hzero ▸ SameRoute.refl now _⟩⟩

/-- A blank route has no expiration time and is not expunged again. -/
theorem SameRoute.blank_not_expunged {r : LocalRoute} (h : SameRoute now {} r) :
    ¬ Expunged cfg now r := by
  obtain ⟨state, lastUsed, rfl, -⟩ := h
  exact fun he => he.1 rfl

theorem AgedSlot.trans {e₁ e₂ e₃ : LrsEntry} (h₁ : AgedSlot cfg now e₁ e₂)
    (h₂ : AgedSlot cfg now e₂ e₃) : AgedSlot cfg now e₁ e₃ := by
  refine ⟨h₂.used.trans h₁.used, ?_⟩
  rcases h₁.route with hsame | ⟨hexp, hblank⟩
  · rcases h₂.route with hsame' | ⟨hexp', hblank'⟩
    · exact Or.inl (hsame.trans hsame')
    · exact Or.inr ⟨hsame.expunged hexp', hblank'⟩
  · rcases h₂.route with hsame' | ⟨hexp', -⟩
    · exact Or.inr ⟨hexp, hblank.trans hsame'⟩
    · exact absurd hexp' hblank.blank_not_expunged

/-- A table before and after walks at one instant. -/
def Aged (cfg : Conf) (now : Timex) (t t' : RoutingTable) : Prop :=
  t'.length = t.length ∧
    ∀ (i : Nat) (e' : LrsEntry), t'[i]? = some e' → ∃ e, t[i]? = some e ∧ AgedSlot cfg now e e'

theorem Aged.refl (t : RoutingTable) : Aged cfg now t t := ⟨rfl, fun _ e he => ⟨e, he, .refl e⟩⟩

theorem Aged.trans {t₁ t₂ t₃ : RoutingTable} (h₁ : Aged cfg now t₁ t₂) (h₂ : Aged cfg now t₂ t₃) :
    Aged cfg now t₁ t₃ := by
  refine ⟨h₂.1.trans h₁.1, fun i e₃ he₃ => ?_⟩
  obtain ⟨e₂, he₂, hslot₂⟩ := h₂.2 i e₃ he₃
  obtain ⟨e₁, he₁, hslot₁⟩ := h₁.2 i e₂ he₂
  exact ⟨e₁, he₁, hslot₁.trans hslot₂⟩

/-- Every slot that was there is still there. -/
theorem Aged.slot {t t' : RoutingTable} (h : Aged cfg now t t') {i : Nat} {e : LrsEntry}
    (he : t[i]? = some e) : ∃ e', t'[i]? = some e' ∧ AgedSlot cfg now e e' := by
  have hi : i < t'.length := by
    rw [h.1]
    exact (List.getElem?_eq_some_iff.mp he).1
  obtain ⟨e₀, he₀, hslot⟩ := h.2 i t'[i] (List.getElem?_eq_getElem hi)
  rw [he] at he₀
  cases he₀
  exact ⟨_, List.getElem?_eq_getElem hi, hslot⟩

theorem Aged.mem {t t' : RoutingTable} (h : Aged cfg now t t') {e' : LrsEntry} (he' : e' ∈ t') :
    ∃ e ∈ t, AgedSlot cfg now e e' := by
  obtain ⟨i, hi⟩ := List.getElem?_of_mem he'
  obtain ⟨e, he, hslot⟩ := h.2 i e' hi
  exact ⟨e, List.mem_of_getElem? he, hslot⟩

theorem Aged.mem_of {t t' : RoutingTable} (h : Aged cfg now t t') {e : LrsEntry} (he : e ∈ t) :
    ∃ e' ∈ t', AgedSlot cfg now e e' := by
  obtain ⟨i, hi⟩ := List.getElem?_of_mem he
  obtain ⟨e', he', hslot⟩ := h.slot hi
  exact ⟨e', List.mem_of_getElem? he', hslot⟩

/-- Nothing in the table is expunged at this instant. -/
def Kept (cfg : Conf) (now : Timex) (t : RoutingTable) : Prop :=
  ∀ e ∈ t, ¬ Expunged cfg now e.route

instance (cfg : Conf) (now : Timex) (t : RoutingTable) : Decidable (Kept cfg now t) :=
  inferInstanceAs (Decidable (∀ e ∈ t, ¬ Expunged cfg now e.route))

/-- Then every slot keeps its route. -/
theorem AgedSlot.same {e e' : LrsEntry} (h : AgedSlot cfg now e e')
    (hkept : ¬ Expunged cfg now e.route) : SameRoute now e.route e'.route :=
  h.route.resolve_right fun hexp => hkept hexp.1

/-- An address that an aged slot still has was there before. -/
theorem AgedSlot.same_of_addr {e e' : LrsEntry} (h : AgedSlot cfg now e e')
    (haddr : e'.route.addr ≠ ipv6AddrUnspecified) : SameRoute now e.route e'.route := by
  rcases h.route with hsame | ⟨-, state, lastUsed, hblank, -⟩
  · exact hsame
  · rw [hblank] at haddr
    exact absurd rfl haddr

/-! Ageing leaves everything else of a route alone. -/

section SameRoute

variable {r r' : LocalRoute}

theorem SameRoute.addr (h : SameRoute now r r') : r'.addr = r.addr := by
  obtain ⟨state, lastUsed, rfl, -⟩ := h; rfl

theorem SameRoute.pfxLen (h : SameRoute now r r') : r'.pfxLen = r.pfxLen := by
  obtain ⟨state, lastUsed, rfl, -⟩ := h; rfl

theorem SameRoute.nextHop (h : SameRoute now r r') : r'.nextHop = r.nextHop := by
  obtain ⟨state, lastUsed, rfl, -⟩ := h; rfl

theorem SameRoute.metric (h : SameRoute now r r') : r'.metric = r.metric := by
  obtain ⟨state, lastUsed, rfl, -⟩ := h; rfl

theorem SameRoute.metricType (h : SameRoute now r r') : r'.metricType = r.metricType := by
  obtain ⟨state, lastUsed, rfl, -⟩ := h; rfl

theorem SameRoute.matchesDest (h : SameRoute now r r') (addr : Ipv6Addr) (t : RoutingMetric) :
    r'.matchesDest addr t = r.matchesDest addr t := by
  unfold LocalRoute.matchesDest
  rw [h.addr, h.metricType]

end SameRoute

theorem matchesDest_iff {r : LocalRoute} {addr : Ipv6Addr} {t : RoutingMetric} :
    r.matchesDest addr t = true ↔ r.addr = addr ∧ r.metricType = t := by
  simp [LocalRoute.matchesDest]

/-- Slots that are not used hold nothing. -/
def FreeSlotsBlank (lrs : RoutingTable) : Prop :=
  ∀ e ∈ lrs, e.used = false → e.route.addr = ipv6AddrUnspecified

theorem FreeSlotsBlank.aged {t t' : RoutingTable} (h : FreeSlotsBlank t)
    (haged : Aged cfg now t t') : FreeSlotsBlank t' := by
  intro e' he' hfree
  obtain ⟨e, he, hslot⟩ := haged.mem he'
  have hblank := h e he (hslot.used ▸ hfree)
  rcases hslot.route with hsame | ⟨-, hzero⟩
  · rw [hsame.addr, hblank]
  · exact hzero.addr

theorem FreeSlotsBlank.write {t : RoutingTable} (h : FreeSlotsBlank t) (i : Nat)
    (route : LocalRoute) : FreeSlotsBlank (t.set i { route := route, used := true }) := by
  intro e he hfree
  rcases List.mem_or_eq_of_mem_set he with he | rfl
  · exact h e he hfree
  · cases hfree

/-! ## §2 Lookups -/

theorem lrsGetEntry_aged (cfg : Conf) (now : Timex) (addr : Ipv6Addr) (t : RoutingMetric)
    (table : RoutingTable) : Aged cfg now table (lrsGetEntry cfg now addr t table).1 := by
  refine ⟨scan_length _ _ table, fun i e' he' => ?_⟩
  obtain ⟨e, he, rfl | rfl⟩ := scan_getElem? _ _ he'
  · exact ⟨e, he, .reset e⟩
  · exact ⟨e', he, .refl e'⟩

/-- The slot that is found matches. -/
theorem lrsGetEntry_some {addr : Ipv6Addr} {t : RoutingMetric} {table : RoutingTable} {i : Nat}
    (h : (lrsGetEntry cfg now addr t table).2 = some i) :
    ∃ e, (lrsGetEntry cfg now addr t table).1[i]? = some e ∧ e.route.matchesDest addr t = true := by
  obtain ⟨x, -, hhit, hat, -⟩ := scan_some _ _ h
  exact ⟨_, hat, hhit⟩

/-- If none is found, none matches. -/
theorem lrsGetEntry_none {addr : Ipv6Addr} {t : RoutingMetric} {table : RoutingTable}
    (h : (lrsGetEntry cfg now addr t table).2 = none) :
    ∀ e ∈ (lrsGetEntry cfg now addr t table).1, e.route.matchesDest addr t = false := by
  intro e he
  obtain ⟨i, hi⟩ := List.getElem?_of_mem he
  obtain ⟨x, hx, -⟩ := scan_getElem? _ _ hi
  obtain ⟨hat, hhit⟩ := scan_none _ _ h i x hx
  have heq : some e = some (resetEntryIfStale cfg now x) := hi.symm.trans hat
  cases heq
  exact hhit

/-- A route that no slot has cannot turn up by ageing. -/
theorem Aged.no_match {t t' : RoutingTable} (h : Aged cfg now t t') {addr : Ipv6Addr}
    {ty : RoutingMetric} (haddr : addr ≠ ipv6AddrUnspecified)
    (hnone : ∀ e ∈ t, e.route.matchesDest addr ty = false) :
    ∀ e' ∈ t', e'.route.matchesDest addr ty = false := by
  intro e' he'
  obtain ⟨e, he, hslot⟩ := h.mem he'
  cases hm : e'.route.matchesDest addr ty with
  | false => rfl
  | true =>
    have haddr' : e'.route.addr ≠ ipv6AddrUnspecified := by
      rw [(matchesDest_iff.mp hm).1]
      exact haddr
    have hsame := hslot.same_of_addr haddr'
    rw [hsame.matchesDest, hnone e he] at hm
    cases hm

/-! ## §3 Adding a route -/

/-- Adding a route that no slot has fills a free slot, if there is one. -/
theorem lrsAddEntry_cases (cfg : Conf) (now : Timex) (route : LocalRoute) {table : RoutingTable}
    (haddr : route.addr ≠ ipv6AddrUnspecified)
    (hnone : ∀ e ∈ table, e.route.matchesDest route.addr route.metricType = false) :
    ∃ t, Aged cfg now table t ∧
      (∀ e ∈ t, e.route.matchesDest route.addr route.metricType = false) ∧
      ((∀ e ∈ t, e.used = true) ∧ lrsAddEntry cfg now route table = t ∨
        ∃ i e, t[i]? = some e ∧ e.used = false ∧
          lrsAddEntry cfg now route table = t.set i { route := route, used := true }) := by
  have haged := lrsGetEntry_aged cfg now route.addr route.metricType table
  have hnone' := haged.no_match haddr hnone
  refine ⟨_, haged, hnone', ?_⟩
  unfold lrsAddEntry
  dsimp only
  cases hfound : (lrsGetEntry cfg now route.addr route.metricType table).2 with
  | some i =>
    obtain ⟨e, he, hmatch⟩ := lrsGetEntry_some hfound
    rw [hnone' e (List.mem_of_getElem? he)] at hmatch
    cases hmatch
  | none =>
    dsimp only
    cases hfree : (fillFree (fun e : LrsEntry => !e.used)
        (fun _ => { route := route, used := true })
        (lrsGetEntry cfg now route.addr route.metricType table).1).2 with
    | none =>
      obtain ⟨heq, hall⟩ := fillFree_none _ _ hfree
      exact Or.inl ⟨fun e he => by simpa using hall e he, heq⟩
    | some i =>
      obtain ⟨e, he, hfree, heq⟩ := fillFree_some _ _ hfree
      exact Or.inr ⟨i, e, he, by simpa using hfree, heq⟩

/-! ## §4 Improving a route -/

/-- What offers an improvement: information that is not newer, whatever its
metric, over any route that is not broken. -/
theorem offersImprovement_eq_true_iff {route : LocalRoute} {node : NodeData} :
    offersImprovement route node = true ↔
      ¬ (0 < seqnumCmp route.seqnum node.seqnum ∨
        seqnumCmp route.seqnum node.seqnum = -32768) ∧ route.state ≠ .broken := by
  rw [← seqnumCmp_neg_iff]
  unfold offersImprovement
  split
  · rename_i hneg
    exact ⟨fun h => absurd h Bool.false_ne_true, fun h => absurd hneg h.1⟩
  rename_i hneg
  split
  · rename_i hcost
    exact ⟨fun h => absurd h Bool.false_ne_true, fun h => absurd h.2 hcost.2⟩
  split
  · rename_i hbroken
    exact ⟨fun h => absurd h Bool.false_ne_true, fun h => absurd h.2 hbroken⟩
  · rename_i hbroken
    exact ⟨fun _ => ⟨hneg, not_not.mp hbroken⟩, fun _ => rfl⟩

end Turpial.Aodvv2
