/-
Turpial.Aodvv2.LrsPassTheorems — whether one pass of
`_reset_entry_if_stale` is enough.

A pass tests the state that the route had before it, so a route takes at
most one transition in it. An Active route that is found past its
expiration time therefore becomes Idle, or stays Active, and only a second
pass makes it Expired. `MissedByPass` is that route, and the only one that a
pass does not settle (§1).

A table without such routes answers a lookup in the same way however many
lookups came just before it, because what these have touched already does
not change again (§2).
-/
import Turpial.Aodvv2.LrsLifeTheorems

namespace Turpial.Aodvv2

open Turpial.Lib

variable {cfg : Conf} {now : Timex}

/-! ## §1 One pass over a route -/

/-- The pass at this time settles the route: past its expiration time it is
Expired or expunged, and a second pass changes nothing. -/
structure Settled (cfg : Conf) (now : Timex) (e : LrsEntry) : Prop where
  expired : e.route.expirationTime ≤ now →
    (resetEntryIfStale cfg now e).route.state = .expired ∨ ¬ (resetEntryIfStale cfg now e).Holds
  again : resetEntryIfStale cfg now (resetEntryIfStale cfg now e) = resetEntryIfStale cfg now e

/-- A route past its expiration time that the pass leaves as something else:
an Active one that was last used within MAX_SEQNUM_LIFETIME, or one whose
expiration time is zero, which is never aged. -/
def MissedByPass (cfg : Conf) (now : Timex) (r : LocalRoute) : Prop :=
  r.expirationTime ≤ now ∧ r ≠ {} ∧ r.state ≠ .expired ∧
    (r.expirationTime = 0 ∨ r.state = .active ∧ now - r.lastUsed < cfg.maxSeqnumLifetime)

instance (cfg : Conf) (now : Timex) (r : LocalRoute) : Decidable (MissedByPass cfg now r) :=
  inferInstanceAs (Decidable (_ ∧ _))

/-- The states that the set gives to a route. -/
def LocalRoute.Ages (r : LocalRoute) : Prop :=
  r.state = .active ∨ r.state = .idle ∨ r.state = .expired

instance (r : LocalRoute) : Decidable r.Ages := inferInstanceAs (Decidable (_ ∨ _))

/-! What the pass does in each situation. -/

section Pass

variable {e : LrsEntry}

theorem pass_never_aged (h : e.route.expirationTime = 0) : resetEntryIfStale cfg now e = e := by
  unfold resetEntryIfStale
  rw [if_pos h]

theorem pass_before_expiration (hfilled : e.route.expirationTime ≠ 0)
    (hact : cfg.activeInterval ≤ now) (h : now < e.route.expirationTime) :
    resetEntryIfStale cfg now e = { e with route := idleIfUnused cfg now e.route } := by
  unfold resetEntryIfStale
  rw [if_neg hfilled, if_neg (Nat.not_lt.mpr hact)]
  dsimp only
  rw [if_pos h]

theorem pass_old (hfilled : e.route.expirationTime ≠ 0) (hact : cfg.activeInterval ≤ now)
    (h : e.route.expirationTime ≤ now) (hold : cfg.maxSeqnumLifetime ≤ now - e.route.lastUsed) :
    resetEntryIfStale cfg now e = { e with route := {} } := by
  have hroute : (resetEntryIfStale cfg now e).route = {} :=
    resetEntryIfStale_expunged ⟨hfilled, hact, h, hold⟩
  have hused := resetEntryIfStale_used cfg now e
  generalize resetEntryIfStale cfg now e = e' at hroute hused ⊢
  obtain ⟨r, u⟩ := e'
  cases hroute
  cases hused
  rfl

theorem pass_expired (hfilled : e.route.expirationTime ≠ 0) (hact : cfg.activeInterval ≤ now)
    (h : e.route.expirationTime ≤ now) (hrecent : now - e.route.lastUsed < cfg.maxSeqnumLifetime) :
    resetEntryIfStale cfg now e =
      ⟨if e.route.state = .idle then { e.route with state := .expired, lastUsed := now }
        else idleIfUnused cfg now e.route, e.used⟩ := by
  unfold resetEntryIfStale
  rw [if_neg hfilled, if_neg (Nat.not_lt.mpr hact)]
  dsimp only
  rw [if_neg (Nat.not_lt.mpr h), if_neg (Nat.not_le.mpr hrecent)]
  by_cases hidle : e.route.state = .idle
  · rw [if_pos ⟨hidle, h⟩, if_pos hidle]
    rw [idleIfUnused_of_not_active (by rw [hidle]; exact nofun)]
  · rw [if_neg fun hc => hidle hc.1, if_neg hidle]

theorem idleIfUnused_state (r : LocalRoute) (h : r.state = .active) :
    (idleIfUnused cfg now r).state ≠ .expired ∧ (idleIfUnused cfg now r).expirationTime =
      r.expirationTime := by
  unfold idleIfUnused
  split
  · exact ⟨(fun hne => nomatch hne), rfl⟩
  · rw [h]
    exact ⟨(fun hne => nomatch hne), rfl⟩

end Pass

/-- Before the expiration time one pass is enough for any route. -/
theorem settled_before_expiration (hact : cfg.activeInterval ≤ now) {e : LrsEntry}
    (h : now < e.route.expirationTime) : Settled cfg now e := by
  refine ⟨fun hle => absurd h (Nat.not_lt.mpr hle), ?_⟩
  have hfilled : e.route.expirationTime ≠ 0 := Nat.ne_of_gt (Nat.lt_of_le_of_lt (Nat.zero_le _) h)
  rw [pass_before_expiration hfilled hact h]
  have hexp : (idleIfUnused cfg now e.route).expirationTime = e.route.expirationTime := by
    unfold idleIfUnused
    split
    · rfl
    · rfl
  have hagain : idleIfUnused cfg now (idleIfUnused cfg now e.route) =
      idleIfUnused cfg now e.route := by
    by_cases hidle : e.route.state = .active ∧ now - cfg.activeInterval > e.route.lastUsed
    · refine idleIfUnused_of_not_active ?_
      unfold idleIfUnused
      rw [if_pos hidle]
      exact fun hstate => nomatch hstate
    · have hkept : idleIfUnused cfg now e.route = e.route := if_neg hidle
      rw [hkept, hkept]
  rw [pass_before_expiration (by rw [hexp]; exact hfilled) hact (by rw [hexp]; exact h), hagain]

/-- Past it, one pass is enough for the routes that are not left behind. -/
theorem settled_of_not_missed (hact : cfg.activeInterval ≤ now) {e : LrsEntry}
    (hstate : e.route.Ages) (h : ¬ MissedByPass cfg now e.route) : Settled cfg now e := by
  by_cases hexp : now < e.route.expirationTime
  · exact settled_before_expiration hact hexp
  have hle := Nat.le_of_not_lt hexp
  by_cases hholds : e.route = {}
  · have hpass : resetEntryIfStale cfg now e = e :=
      pass_never_aged (by rw [hholds])
    exact ⟨fun _ => Or.inr (by rw [hpass]; exact not_not_intro hholds), by rw [hpass, hpass]⟩
  by_cases hfilled : e.route.expirationTime = 0
  · have hpass : resetEntryIfStale cfg now e = e := pass_never_aged hfilled
    have hexpired : e.route.state = .expired :=
      Decidable.byContradiction fun hne => h ⟨hle, hholds, hne, Or.inl hfilled⟩
    exact ⟨fun _ => Or.inl (by rw [hpass]; exact hexpired), by rw [hpass, hpass]⟩
  by_cases hold : cfg.maxSeqnumLifetime ≤ now - e.route.lastUsed
  · have hpass := pass_old hfilled hact hle hold
    exact ⟨fun _ => Or.inr (by rw [hpass]; exact not_not_intro rfl),
      by rw [hpass]; exact resetEntryIfStale_zero cfg now e.used⟩
  have hrecent := Nat.lt_of_not_le hold
  have hnotActive : e.route.state ≠ .active := by
    intro hactive
    refine h ⟨hle, hholds, ?_, Or.inr ⟨hactive, hrecent⟩⟩
    rw [hactive]
    exact fun hne => nomatch hne
  have hpass := pass_expired hfilled hact hle hrecent
  rw [idleIfUnused_of_not_active hnotActive] at hpass
  rcases hstate with hactive | hidle | hexpired
  · exact absurd hactive hnotActive
  · -- The route becomes Expired now, and nothing happens to it at once.
    rw [if_pos hidle] at hpass
    have hlife : 0 < cfg.maxSeqnumLifetime := Nat.lt_of_le_of_lt (Nat.zero_le _) hrecent
    have hdone : ({ e.route with state := .expired, lastUsed := now } : LocalRoute).state ≠
        .active := fun hne => nomatch hne
    have hsecond := pass_expired (e := ⟨{ e.route with state := .expired, lastUsed := now }, e.used⟩)
      hfilled hact hle (by change now - now < _; rw [Nat.sub_self]; exact hlife)
    rw [if_neg (fun hne => nomatch hne), idleIfUnused_of_not_active hdone] at hsecond
    exact ⟨fun _ => Or.inl (by rw [hpass]), by rw [hpass]; exact hsecond⟩
  · rw [if_neg (by rw [hexpired]; exact fun hne => nomatch hne)] at hpass
    have hkept : resetEntryIfStale cfg now e = e := hpass
    exact ⟨fun _ => Or.inl (by rw [hkept]; exact hexpired), by rw [hkept, hkept]⟩

/-- A route that is left behind is neither Expired nor expunged. -/
theorem not_settled_of_missed (hact : cfg.activeInterval ≤ now) {e : LrsEntry}
    (h : MissedByPass cfg now e.route) : ¬ Settled cfg now e := by
  obtain ⟨hle, hholds, hne, hwhy⟩ := h
  intro hsettled
  have hexpired := hsettled.expired hle
  by_cases hfilled : e.route.expirationTime = 0
  · rw [pass_never_aged hfilled] at hexpired
    exact hexpired.elim hne fun hgone => hgone hholds
  · obtain ⟨hactive, hrecent⟩ := hwhy.resolve_left hfilled
    rw [pass_expired hfilled hact hle hrecent, if_neg (by rw [hactive]; exact fun h => nomatch h)]
      at hexpired
    obtain ⟨hstate, hexp⟩ := @idleIfUnused_state cfg now e.route hactive
    rcases hexpired with hexpired | hgone
    · exact hstate hexpired
    · refine hgone fun hblank => hfilled ?_
      have hzero := congrArg LocalRoute.expirationTime hblank
      exact hexp.symm.trans hzero

/-! ## §2 Lookups at one instant -/

/-- Each slot is as it was, or a pass has gone over it. -/
structure Swept (cfg : Conf) (now : Timex) (t t' : RoutingTable) : Prop where
  length : t'.length = t.length
  slot : ∀ (i : Nat) (e e' : LrsEntry), t[i]? = some e → t'[i]? = some e' →
    e' = e ∨ e' = resetEntryIfStale cfg now e

/-- A lookup sweeps the slots up to the one it stops at. -/
theorem lrsGetEntry_swept (cfg : Conf) (now : Timex) (addr : Ipv6Addr) (ty : RoutingMetric)
    (t : RoutingTable) : Swept cfg now t (lrsGetEntry cfg now addr ty t).1 where
  length := scan_length _ _ t
  slot i e e' he he' := by
    obtain ⟨e₀, he₀, h⟩ := scan_getElem? _ _ he'
    rw [he] at he₀
    cases he₀
    exact h.symm

/-- A table of routes that one pass settles. -/
def AllSettled (cfg : Conf) (now : Timex) (t : RoutingTable) : Prop :=
  ∀ e ∈ t, resetEntryIfStale cfg now (resetEntryIfStale cfg now e) = resetEntryIfStale cfg now e

/-- Sweeping a slot again changes nothing more. -/
theorem Swept.reset {t t' : RoutingTable} (h : Swept cfg now t t') (hsettled : AllSettled cfg now t)
    {i : Nat} {e e' : LrsEntry} (he : t[i]? = some e) (he' : t'[i]? = some e') :
    resetEntryIfStale cfg now e' = resetEntryIfStale cfg now e := by
  rcases h.slot i e e' he he' with rfl | rfl
  · rfl
  · exact hsettled e (List.mem_of_getElem? he)

/-- The lookups of these destinations, one after the other. -/
def lookups (cfg : Conf) (now : Timex) (dests : List (Ipv6Addr × RoutingMetric))
    (t : RoutingTable) : RoutingTable :=
  run (fun d t => (lrsGetEntry cfg now d.1 d.2 t).1) dests t

theorem lookups_swept (cfg : Conf) (now : Timex) (dests : List (Ipv6Addr × RoutingMetric))
    {t : RoutingTable} (hsettled : AllSettled cfg now t) :
    Swept cfg now t (lookups cfg now dests t) := by
  refine run_invariant_of_step (fun d t' hswept => ?_) dests ⟨rfl, fun i e e' he he' => ?_⟩
  · have hstep := lrsGetEntry_swept cfg now d.1 d.2 t'
    refine ⟨hstep.length.trans hswept.length, fun i e e' he he' => ?_⟩
    have hi : i < t'.length := by
      rw [← hstep.length]
      exact (List.getElem?_eq_some_iff.mp he').1
    have hmid := List.getElem?_eq_getElem hi
    rcases hstep.slot i _ e' hmid he' with rfl | rfl
    · exact hswept.slot i e _ he hmid
    · exact Or.inr (hswept.reset hsettled he hmid)
  · rw [he] at he'
    exact Or.inl (Option.some.inj he').symm

/-- The slot that a lookup finds, and the route in it. -/
def lookupResult (cfg : Conf) (now : Timex) (addr : Ipv6Addr) (ty : RoutingMetric)
    (t : RoutingTable) : Option (Nat × LocalRoute) :=
  (lrsGetEntry cfg now addr ty t).2.map fun i => (i, routeAt (lrsGetEntry cfg now addr ty t).1 i)

theorem lookupResult_swept {t t' : RoutingTable} (h : Swept cfg now t t')
    (hsettled : AllSettled cfg now t) (addr : Ipv6Addr) (ty : RoutingMetric) :
    lookupResult cfg now addr ty t' = lookupResult cfg now addr ty t := by
  obtain ⟨hstop, hslot⟩ := scan_congr (fun _ => resetEntryIfStale cfg now)
    (fun _ e => e.route.matchesDest addr ty) h.length
    fun i e e' he he' => h.reset hsettled he he'
  unfold lookupResult routeAt lrsGetEntry
  rw [hstop]
  cases hfound : (scan (fun _ => resetEntryIfStale cfg now)
      (fun _ e => e.route.matchesDest addr ty) t).2 with
  | none => rfl
  | some i => rw [Option.map_some, Option.map_some, hslot i hfound]

/-- **The staleness pass is settled by the clock** exactly for the routes
that are not left behind; and a table without such routes answers a lookup
in the same way after any lookups at the same time. -/
theorem pass_settles_iff (cfg : Conf) (now : Timex) (hact : cfg.activeInterval ≤ now) :
    (∀ e : LrsEntry, e.route.Ages → (Settled cfg now e ↔ ¬ MissedByPass cfg now e.route)) ∧
    ∀ t : RoutingTable, (∀ e ∈ t, e.route.Ages ∧ ¬ MissedByPass cfg now e.route) →
      ∀ dests addr ty, lookupResult cfg now addr ty (lookups cfg now dests t) =
        lookupResult cfg now addr ty t := by
  refine ⟨fun e hstate => ⟨fun h hleft => not_settled_of_missed hact hleft h,
    settled_of_not_missed hact hstate⟩, fun t ht dests addr ty => ?_⟩
  have hsettled : AllSettled cfg now t := fun e he =>
    (settled_of_not_missed hact (ht e he).1 (ht e he).2).again
  exact lookupResult_swept (lookups_swept cfg now dests hsettled) hsettled addr ty

/-- A route to `::1` that was filled at time zero and is Idle. -/
def sampleIdle : LrsEntry where
  route := { (sampleRoute 1#128 0).1 with state := .idle }
  used := true

theorem pass_settles_idle : Settled .default (timexSet 205 0) sampleIdle :=
  ((pass_settles_iff .default (timexSet 205 0) (by decide)).1 sampleIdle (by decide)).mpr
    (by decide +kernel)

/-- The set after a route to `::1` was added at time zero. -/
def sampleSilence : List LrsOp := [.add 0 (sampleRoute 1#128 0)]

/-- At its expiration time the pass makes it Idle, and only a second pass
makes it Expired. -/
theorem pass_leaves_active_route :
    Along (lrsTick .default) (Timely .default) sampleSilence (.init 1) ∧
      ∃ e ∈ (run (lrsTick .default) sampleSilence (.init 1)).table,
        e.route.Ages ∧ ¬ Settled .default (timexSet 205 0) e := by
  refine ⟨by decide +kernel, { route := (sampleRoute 1#128 0).1, used := true },
    by decide +kernel, by decide +kernel, fun h => ?_⟩
  exact absurd (h.expired (by decide +kernel)) (by decide +kernel)

end Turpial.Aodvv2
