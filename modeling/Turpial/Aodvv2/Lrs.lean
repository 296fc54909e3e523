/-
Turpial.Aodvv2.Lrs — the Local Route Set (`aodvv2_lrs.c`).

The set is a fixed table. `lrsGetEntry` walks it, ages every slot it
passes, and stops at the first slot whose address and metric type match.
Three points of the source are kept as they are:

* the walk does not look at `used`, so a slot that is not used can match;
* ageing zeroes an expunged route but leaves the slot's `used` flag set;
* `aodvv2_lrs_add_entry` says nothing when the table is full.

`offersImprovement` passes the two sequence numbers to `seqnumCmp` in the
order of the source, the stored one second. Both fill functions are
`fillRoutingEntry` at one node of the message.
-/
import Turpial.Aodvv2.Message
import Turpial.Lib.Table

namespace Turpial.Aodvv2

open Turpial.Lib

/-! ## The set -/

/-- `enum aodvv2_routing_state`. -/
inductive RoutingState where
  | active
  | idle
  | expired
  | broken
  | timed
  deriving DecidableEq, Repr

/-- `aodvv2_local_route_t`. The defaults are the zeroed record. -/
structure LocalRoute where
  addr : Ipv6Addr := ipv6AddrUnspecified
  pfxLen : UInt8 := 0
  seqnum : SeqNum := 0
  nextHop : Ipv6Addr := ipv6AddrUnspecified
  lastUsed : Timex := 0
  expirationTime : Timex := 0
  metricType : RoutingMetric := 0
  metric : UInt8 := 0
  state : RoutingState := .active
  deriving DecidableEq, Repr

/-- `lrs_entry_t`. -/
structure LrsEntry where
  route : LocalRoute := {}
  used : Bool := false
  deriving DecidableEq, Repr

/-- The static `routing_table`. -/
abbrev RoutingTable := List LrsEntry

/-- `aodvv2_lrs_init`, for a table of `n` slots. -/
def lrsInit (n : Nat) : RoutingTable := List.replicate n {}

/-- The transition from Active to Idle in `_reset_entry_if_stale`. -/
def idleIfUnused (cfg : Conf) (now : Timex) (route : LocalRoute) : LocalRoute :=
  if route.state = .active ∧ now - cfg.activeInterval > route.lastUsed then
    { route with state := .idle, lastUsed := now }
  else route

/-- `_reset_entry_if_stale` of the Local Route Set. The tests read the
state and the time of last use from before the transitions. The subtractions
are those of the naturals: `timex_sub` wraps around only for a route last used
after `now` (`resetEntryIfStale?_eq`), and a table filled at the times of its
clock has none (`TableLife`). -/
def resetEntryIfStale (cfg : Conf) (now : Timex) (e : LrsEntry) : LrsEntry :=
  if e.route.expirationTime = 0 then e
  else if now < cfg.activeInterval then e
  else
    let route := idleIfUnused cfg now e.route
    if now < e.route.expirationTime then { e with route := route }
    else
      let route :=
        if e.route.state = .idle ∧ e.route.expirationTime ≤ now then
          { route with state := .expired, lastUsed := now }
        else route
      if now - e.route.lastUsed ≥ cfg.maxSeqnumLifetime then { e with route := {} }
      else { e with route := route }

/-- The test of `aodvv2_lrs_get_entry`. -/
def LocalRoute.matchesDest (route : LocalRoute) (addr : Ipv6Addr) (t : RoutingMetric) : Bool :=
  route.addr == addr && route.metricType == t

/-- `aodvv2_lrs_get_entry`: the aged table and the slot that matches. -/
def lrsGetEntry (cfg : Conf) (now : Timex) (addr : Ipv6Addr) (t : RoutingMetric)
    (table : RoutingTable) : RoutingTable × Option Nat :=
  scan (fun _ => resetEntryIfStale cfg now) (fun _ e => e.route.matchesDest addr t) table

/-- The route the pointer returned by `aodvv2_lrs_get_entry` points at. -/
def routeAt (table : RoutingTable) (i : Nat) : LocalRoute := (table[i]?.getD {}).route

/-- `aodvv2_lrs_get_next_hop`. -/
def lrsGetNextHop (cfg : Conf) (now : Timex) (dest : Ipv6Addr) (t : RoutingMetric)
    (table : RoutingTable) : RoutingTable × Option Ipv6Addr :=
  let found := lrsGetEntry cfg now dest t table
  (found.1, found.2.map fun i => (routeAt found.1 i).nextHop)

/-- `aodvv2_lrs_add_entry`. -/
def lrsAddEntry (cfg : Conf) (now : Timex) (entry : LocalRoute) (table : RoutingTable) :
    RoutingTable :=
  let found := lrsGetEntry cfg now entry.addr entry.metricType table
  match found.2 with
  | some _ => found.1
  | none => (fillFree (fun e => !e.used) (fun _ => { route := entry, used := true }) found.1).1

/-- `aodvv2_lrs_delete_entry`. -/
def lrsDeleteEntry (cfg : Conf) (now : Timex) (addr : Ipv6Addr) (t : RoutingMetric)
    (table : RoutingTable) : RoutingTable :=
  let found := scan (fun _ => resetEntryIfStale cfg now)
    (fun _ e => e.used && e.route.matchesDest addr t) table
  match found.2 with
  | none => found.1
  | some i => found.1.set i {}

/-- `aodvv2_lrs_offers_improvement`. -/
def offersImprovement (route : LocalRoute) (node : NodeData) : Bool :=
  -- The callee's parameters are (existing, received).
  if seqnumCmp node.seqnum route.seqnum < 0 then false
  else if node.metric ≥ route.metric ∧ ¬ route.state ≠ .broken then false
  else if ¬ route.state ≠ .broken then false
  else true

/-- What both fill functions write, for the node the route leads to. -/
def fillRoutingEntry (cfg : Conf) (msg : Message) (node : NodeData) (linkCost : UInt8) :
    LocalRoute where
  addr := node.addr
  pfxLen := node.pfxLen
  seqnum := node.seqnum
  nextHop := msg.sender
  lastUsed := msg.timestamp
  expirationTime := msg.timestamp + cfg.validity
  metricType := msg.metricType
  metric := node.metric + linkCost
  state := .active

/-- `aodvv2_lrs_fill_routing_entry_rreq`. Every field is written, so the
old route does not matter. -/
def fillRoutingEntryRreq (cfg : Conf) (msg : Message) (linkCost : UInt8) : LocalRoute :=
  fillRoutingEntry cfg msg msg.origNode linkCost

/-- `aodvv2_lrs_fill_routing_entry_rrep`. -/
def fillRoutingEntryRrep (cfg : Conf) (msg : Message) (linkCost : UInt8) : LocalRoute :=
  fillRoutingEntry cfg msg msg.targNode linkCost

/-! ## Ageing -/

/-- The conditions under which ageing zeroes a route. -/
def Expunged (cfg : Conf) (now : Timex) (route : LocalRoute) : Prop :=
  route.expirationTime ≠ 0 ∧ cfg.activeInterval ≤ now ∧ route.expirationTime ≤ now ∧
    cfg.maxSeqnumLifetime ≤ now - route.lastUsed

instance (cfg : Conf) (now : Timex) (route : LocalRoute) : Decidable (Expunged cfg now route) :=
  inferInstanceAs (Decidable (_ ∧ _))

/-- The same route, but for the two fields that ageing may rewrite. -/
def SameRoute (now : Timex) (r r' : LocalRoute) : Prop :=
  ∃ state lastUsed, r' = { r with state := state, lastUsed := lastUsed } ∧
    (lastUsed = r.lastUsed ∨ lastUsed = now)

theorem SameRoute.refl (now : Timex) (r : LocalRoute) : SameRoute now r r :=
  ⟨r.state, r.lastUsed, rfl, Or.inl rfl⟩

theorem SameRoute.trans {now : Timex} {r₁ r₂ r₃ : LocalRoute} (h₁ : SameRoute now r₁ r₂)
    (h₂ : SameRoute now r₂ r₃) : SameRoute now r₁ r₃ := by
  obtain ⟨st₁, lu₁, rfl, hu₁⟩ := h₁
  obtain ⟨st₂, lu₂, rfl, hu₂⟩ := h₂
  exact ⟨st₂, lu₂, rfl, hu₂.elim (fun h => h ▸ hu₁) Or.inr⟩

/-- Rewriting the two fields never makes a route older. -/
theorem SameRoute.expunged {cfg : Conf} {now : Timex} {r r' : LocalRoute}
    (h : SameRoute now r r') (he : Expunged cfg now r') : Expunged cfg now r := by
  obtain ⟨state, lastUsed, rfl, hu⟩ := h
  obtain ⟨hexp, hact, hle, hlife⟩ := he
  refine ⟨hexp, hact, hle, ?_⟩
  change cfg.maxSeqnumLifetime ≤ now - lastUsed at hlife
  rcases hu with rfl | rfl
  · exact hlife
  · rw [Nat.sub_self] at hlife
    exact Nat.le_trans hlife (Nat.zero_le _)

theorem idleIfUnused_of_not_active {cfg : Conf} {now : Timex} {r : LocalRoute}
    (h : r.state ≠ .active) : idleIfUnused cfg now r = r := by
  unfold idleIfUnused
  rw [if_neg fun hc => h hc.1]

/-- Ageing keeps a route, but for its state and time of last use, or
zeroes it; `used` is never touched. -/
theorem resetEntryIfStale_cases (cfg : Conf) (now : Timex) (e : LrsEntry) :
    (resetEntryIfStale cfg now e).used = e.used ∧
      (SameRoute now e.route (resetEntryIfStale cfg now e).route ∨
        Expunged cfg now e.route ∧ (resetEntryIfStale cfg now e).route = {}) := by
  unfold resetEntryIfStale idleIfUnused
  dsimp only
  by_cases h0 : e.route.expirationTime = 0
  · rw [if_pos h0]
    exact ⟨rfl, Or.inl (SameRoute.refl now _)⟩
  rw [if_neg h0]
  by_cases h1 : now < cfg.activeInterval
  · rw [if_pos h1]
    exact ⟨rfl, Or.inl (SameRoute.refl now _)⟩
  rw [if_neg h1]
  by_cases h2 : now < e.route.expirationTime
  · rw [if_pos h2]
    refine ⟨rfl, Or.inl ?_⟩
    dsimp only
    split
    · exact ⟨.idle, now, rfl, Or.inr rfl⟩
    · exact SameRoute.refl now _
  rw [if_neg h2]
  by_cases h3 : now - e.route.lastUsed ≥ cfg.maxSeqnumLifetime
  · rw [if_pos h3]
    exact ⟨rfl, Or.inr ⟨⟨h0, Nat.le_of_not_lt h1, Nat.le_of_not_lt h2, h3⟩, rfl⟩⟩
  rw [if_neg h3]
  refine ⟨rfl, Or.inl ?_⟩
  dsimp only
  split
  · split
    · exact ⟨.expired, now, rfl, Or.inr rfl⟩
    · exact ⟨.expired, now, rfl, Or.inr rfl⟩
  · split
    · exact ⟨.idle, now, rfl, Or.inr rfl⟩
    · exact SameRoute.refl now _

@[simp] theorem resetEntryIfStale_used (cfg : Conf) (now : Timex) (e : LrsEntry) :
    (resetEntryIfStale cfg now e).used = e.used :=
  (resetEntryIfStale_cases cfg now e).1

/-- An expunged route is zeroed. -/
theorem resetEntryIfStale_expunged {cfg : Conf} {now : Timex} {e : LrsEntry}
    (h : Expunged cfg now e.route) : (resetEntryIfStale cfg now e).route = {} := by
  obtain ⟨hexp, hact, hle, hlife⟩ := h
  unfold resetEntryIfStale
  dsimp only
  rw [if_neg hexp, if_neg (Nat.not_lt_of_le hact), if_neg (Nat.not_lt_of_le hle), if_pos hlife]

/-- A zeroed slot stays zeroed. -/
@[simp] theorem resetEntryIfStale_zero (cfg : Conf) (now : Timex) (used : Bool) :
    resetEntryIfStale cfg now { route := {}, used := used } = { route := {}, used := used } := by
  unfold resetEntryIfStale
  rw [if_pos rfl]

end Turpial.Aodvv2
