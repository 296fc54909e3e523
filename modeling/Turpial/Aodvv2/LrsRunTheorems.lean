/-
Turpial.Aodvv2.LrsRunTheorems — runs of Local Route Set operations.

An operation walks the set, ageing the slots it reaches, and then writes at
most one slot. `LrsEffect` says so once, with the slot it writes; the rest
of this module reads off it (§1).

§2: in every run the set is a map from addresses and metric types to
routes, whatever the times of the operations. An operation on one key
leaves the routes of the others to the ageing.

§3: the `used` flag of a slot says whether it holds a route only as long as
nothing is expunged, because the ageing zeroes the route and leaves the
flag. Such a slot is lost for good.
-/
import Turpial.Aodvv2.LrsTheorems
import Turpial.Lib.Run
import Turpial.Lib.Slots

namespace Turpial.Aodvv2

open Turpial.Lib

variable {cfg : Conf} {now : Timex}

/-! ## §1 Operations -/

/-- A record that was filled in. The zeroed one is what an empty slot holds. -/
abbrev FilledRoute := { r : LocalRoute // r ≠ {} }

/-- An operation of the set and its time. `refill` is what the handlers do
with the pointer that `aodvv2_lrs_get_entry` returned: they overwrite the
route under its own key. -/
inductive LrsOp where
  | lookup (now : Timex) (addr : Ipv6Addr) (t : RoutingMetric)
  | add (now : Timex) (entry : FilledRoute)
  | refill (now : Timex) (entry : FilledRoute)
  | delete (now : Timex) (addr : Ipv6Addr) (t : RoutingMetric)

/-- The time of the operation. -/
def LrsOp.time : LrsOp → Timex
  | .lookup now .. => now
  | .add now _ => now
  | .refill now _ => now
  | .delete now .. => now

/-- The key it works on. -/
def LrsOp.key : LrsOp → Ipv6Addr × RoutingMetric
  | .lookup _ addr t => (addr, t)
  | .add _ entry => (entry.1.addr, entry.1.metricType)
  | .refill _ entry => (entry.1.addr, entry.1.metricType)
  | .delete _ addr t => (addr, t)

/-- What stops its walk. -/
def LrsOp.hits : LrsOp → LrsEntry → Bool
  | .lookup _ addr t, e => e.route.matchesDest addr t
  | .add _ entry, e => e.route.matchesDest entry.1.addr entry.1.metricType
  | .refill _ entry, e => e.route.matchesDest entry.1.addr entry.1.metricType
  | .delete _ addr t, e => e.used && e.route.matchesDest addr t

/-- Overwriting the route of a key through the returned pointer. -/
def lrsRefill (cfg : Conf) (now : Timex) (entry : LocalRoute) (table : RoutingTable) :
    RoutingTable :=
  let found := lrsGetEntry cfg now entry.addr entry.metricType table
  match found.2 with
  | none => found.1
  | some i => found.1.set i { found.1[i]?.getD {} with route := entry }

/-- The set after an operation. -/
def lrsStep (cfg : Conf) : LrsOp → RoutingTable → RoutingTable
  | .lookup now addr t, table => (lrsGetEntry cfg now addr t table).1
  | .add now entry, table => lrsAddEntry cfg now entry.1 table
  | .refill now entry, table => lrsRefill cfg now entry.1 table
  | .delete now addr t, table => lrsDeleteEntry cfg now addr t table

/-- The walk of an operation. -/
def lrsWalk (cfg : Conf) (op : LrsOp) (table : RoutingTable) : RoutingTable × Option Nat :=
  scan (fun _ => resetEntryIfStale cfg op.time) (fun _ e => op.hits e) table

/-- The walk reaches a slot when none before it stops it. -/
def Reached (cfg : Conf) (op : LrsOp) (table : RoutingTable) (i : Nat) : Prop :=
  ∀ e ∈ table.take i, op.hits (resetEntryIfStale cfg op.time e) = false

instance (cfg : Conf) (op : LrsOp) (table : RoutingTable) (i : Nat) :
    Decidable (Reached cfg op table i) :=
  inferInstanceAs (Decidable (∀ e ∈ table.take i, _))

theorem reached_of_getElem? {op : LrsOp} {t : RoutingTable} {i : Nat}
    (h : ∀ j < i, ∀ e, t[j]? = some e → op.hits (resetEntryIfStale cfg op.time e) = false) :
    Reached cfg op t i := by
  intro e he
  obtain ⟨j, hj⟩ := List.getElem?_of_mem he
  rw [List.getElem?_take] at hj
  split at hj
  · rename_i hlt
    exact h j hlt e hj
  · cases hj

theorem Reached.getElem? {op : LrsOp} {t : RoutingTable} {i : Nat} (h : Reached cfg op t i) {j : Nat}
    (hj : j < i) {e : LrsEntry} (he : t[j]? = some e) :
    op.hits (resetEntryIfStale cfg op.time e) = false := by
  refine h e (List.mem_of_getElem? (i := j) ?_)
  rw [List.getElem?_take, if_pos hj, he]

/-- The slot that an operation writes, apart from the ageing. -/
def writtenSlot (cfg : Conf) : LrsOp → RoutingTable → Option Nat
  | .lookup .., _ => none
  | .add now entry, table =>
    let walked := lrsWalk cfg (.add now entry) table
    match walked.2 with
    | some _ => none
    | none => (fillFree (fun e => !e.used) (fun _ => { route := entry.1, used := true }) walked.1).2
  | .refill now entry, table => (lrsWalk cfg (.refill now entry) table).2
  | .delete now addr t, table => (lrsWalk cfg (.delete now addr t) table).2

/-- A table and the table after a walk: the slots that were reached are
aged, and the others as they were. -/
structure Walked (cfg : Conf) (op : LrsOp) (t w : RoutingTable) : Prop where
  length : w.length = t.length
  reached : ∀ (i : Nat) (e : LrsEntry), t[i]? = some e → Reached cfg op t i →
    w[i]? = some (resetEntryIfStale cfg op.time e)
  slot : ∀ (i : Nat) (e' : LrsEntry), w[i]? = some e' → ∃ e, t[i]? = some e ∧
    (e' = e ∨ e' = resetEntryIfStale cfg op.time e ∧ Reached cfg op t i)

theorem lrsWalk_walked (cfg : Conf) (op : LrsOp) (t : RoutingTable) :
    Walked cfg op t (lrsWalk cfg op t).1 := by
  refine ⟨scan_length _ _ t, fun i e he hreached => ?_, fun i e' he' => ?_⟩
  · exact scan_touched _ _ he fun j hj z hz => hreached.getElem? hj hz
  · obtain ⟨e, he, heq | ⟨heq, hreached⟩⟩ := scan_reached _ _ he'
    · exact ⟨e, he, Or.inl heq⟩
    · exact ⟨e, he, Or.inr ⟨heq, reached_of_getElem? hreached⟩⟩

/-- The slot a walk stops at was reached, and stops it. -/
theorem lrsWalk_some (cfg : Conf) (op : LrsOp) (t : RoutingTable) {i : Nat}
    (h : (lrsWalk cfg op t).2 = some i) :
    ∃ e, (lrsWalk cfg op t).1[i]? = some e ∧ Reached cfg op t i ∧ op.hits e = true := by
  obtain ⟨x, -, hhit, hat, hbefore, -⟩ := scan_some _ _ h
  exact ⟨_, hat, reached_of_getElem? fun j hj e he => (hbefore j e hj he).2, hhit⟩

/-- Otherwise no slot would have. -/
theorem lrsWalk_none (cfg : Conf) (op : LrsOp) (t : RoutingTable) (h : (lrsWalk cfg op t).2 = none) :
    ∀ e ∈ (lrsWalk cfg op t).1, op.hits e = false := by
  intro e he
  obtain ⟨i, hi⟩ := List.getElem?_of_mem he
  obtain ⟨x, hx, -⟩ := scan_getElem? _ _ hi
  obtain ⟨hat, hhit⟩ := scan_none _ _ h i x hx
  have heq : some e = some (resetEntryIfStale cfg op.time x) := hi.symm.trans hat
  cases heq
  exact hhit

/-- What an operation does: a walk, and one slot written at most. -/
inductive LrsEffect (cfg : Conf) (op : LrsOp) (t : RoutingTable) :
    Option Nat → RoutingTable → Prop
  | walked {w : RoutingTable} (walk : Walked cfg op t w) : LrsEffect cfg op t none w
  | added {w : RoutingTable} {i : Nat} {e : LrsEntry} {entry : FilledRoute}
      (op_eq : op = .add op.time entry) (walk : Walked cfg op t w)
      (absent : ∀ e ∈ w, op.hits e = false) (slot : w[i]? = some e) (free : e.used = false) :
      LrsEffect cfg op t (some i) (w.set i { route := entry.1, used := true })
  | refilled {w : RoutingTable} {i : Nat} {e : LrsEntry} {entry : FilledRoute}
      (op_eq : op = .refill op.time entry) (walk : Walked cfg op t w) (slot : w[i]? = some e)
      (reached : Reached cfg op t i) (hit : op.hits e = true) :
      LrsEffect cfg op t (some i) (w.set i { e with route := entry.1 })
  | deleted {w : RoutingTable} {i : Nat} {e : LrsEntry} {addr : Ipv6Addr} {ty : RoutingMetric}
      (op_eq : op = .delete op.time addr ty) (walk : Walked cfg op t w) (slot : w[i]? = some e)
      (reached : Reached cfg op t i) (hit : op.hits e = true) :
      LrsEffect cfg op t (some i) (w.set i {})

/-- The step lemma. -/
theorem lrsStep_effect (cfg : Conf) (op : LrsOp) (t : RoutingTable) :
    LrsEffect cfg op t (writtenSlot cfg op t) (lrsStep cfg op t) := by
  have hwalk := lrsWalk_walked cfg op t
  cases op with
  | lookup now addr ty => exact .walked hwalk
  | add now entry =>
    have hnone := lrsWalk_none cfg (.add now entry) t
    have hlookup : lrsGetEntry cfg now entry.1.addr entry.1.metricType t =
        lrsWalk cfg (.add now entry) t := rfl
    unfold writtenSlot lrsStep lrsAddEntry
    dsimp only
    rw [hlookup]
    generalize lrsWalk cfg (.add now entry) t = walked at hwalk hnone
    obtain ⟨w, _ | i⟩ := walked
    · dsimp only
      cases hfree : (fillFree (fun e : LrsEntry => !e.used)
          (fun _ => { route := entry.1, used := true }) w).2 with
      | none =>
        rw [(fillFree_none _ _ hfree).1]
        exact .walked hwalk
      | some i =>
        obtain ⟨e, he, hfree, heq⟩ := fillFree_some _ _ hfree
        rw [heq]
        exact .added rfl hwalk (hnone rfl) he (by simpa using hfree)
    · exact .walked hwalk
  | refill now entry =>
    have hsome := fun i => @lrsWalk_some cfg (.refill now entry) t i
    have hlookup : lrsGetEntry cfg now entry.1.addr entry.1.metricType t =
        lrsWalk cfg (.refill now entry) t := rfl
    unfold writtenSlot lrsStep lrsRefill
    dsimp only
    rw [hlookup]
    generalize lrsWalk cfg (.refill now entry) t = walked at hwalk hsome
    obtain ⟨w, _ | i⟩ := walked
    · exact .walked hwalk
    · obtain ⟨e, he, hreached, hhit⟩ := hsome i rfl
      dsimp only at he ⊢
      rw [he]
      exact .refilled rfl hwalk he hreached hhit
  | delete now addr ty =>
    have hsome := fun i => @lrsWalk_some cfg (.delete now addr ty) t i
    have hlookup : scan (fun _ => resetEntryIfStale cfg now)
        (fun _ e => e.used && e.route.matchesDest addr ty) t =
        lrsWalk cfg (.delete now addr ty) t := rfl
    unfold writtenSlot lrsStep lrsDeleteEntry
    dsimp only
    rw [hlookup]
    generalize lrsWalk cfg (.delete now addr ty) t = walked at hwalk hsome
    obtain ⟨w, _ | i⟩ := walked
    · exact .walked hwalk
    · obtain ⟨e, he, hreached, hhit⟩ := hsome i rfl
      exact .deleted rfl hwalk he hreached hhit

/-! ## §2 The set is a map -/

/-- The key a slot holds. The unspecified address is not one. -/
def LrsEntry.key? (e : LrsEntry) : Option (Ipv6Addr × RoutingMetric) :=
  if e.route.addr = ipv6AddrUnspecified then none else some (e.route.addr, e.route.metricType)

theorem key?_eq_some {e : LrsEntry} {k : Ipv6Addr × RoutingMetric} :
    e.key? = some k ↔
      k.1 ≠ ipv6AddrUnspecified ∧ e.route.addr = k.1 ∧ e.route.metricType = k.2 := by
  obtain ⟨a, t⟩ := k
  unfold LrsEntry.key?
  constructor
  · intro h
    split at h
    · cases h
    · rename_i haddr
      cases h
      exact ⟨haddr, rfl, rfl⟩
  · rintro ⟨hne, rfl, rfl⟩
    rw [if_neg hne]

theorem key?_eq_none {e : LrsEntry} : e.key? = none ↔ e.route.addr = ipv6AddrUnspecified := by
  unfold LrsEntry.key?
  split
  · rename_i h
    exact ⟨fun _ => h, fun _ => rfl⟩
  · rename_i h
    exact ⟨fun hsome => (nomatch hsome), fun heq => absurd heq h⟩

theorem key?_of_matches {e : LrsEntry} {addr : Ipv6Addr} {t : RoutingMetric}
    (haddr : addr ≠ ipv6AddrUnspecified) :
    e.route.matchesDest addr t = true ↔ e.key? = some (addr, t) := by
  rw [matchesDest_iff, key?_eq_some]
  exact ⟨fun h => ⟨haddr, h⟩, fun h => h.2⟩

theorem Walked.aged {op : LrsOp} {t w : RoutingTable} (h : Walked cfg op t w) :
    Aged cfg op.time t w := by
  refine ⟨h.length, fun i e' he' => ?_⟩
  obtain ⟨e, he, rfl | ⟨rfl, -⟩⟩ := h.slot i e' he'
  · exact ⟨_, he, .refl _⟩
  · exact ⟨e, he, .reset e⟩

/-- A walk gives a slot no new key. -/
theorem Walked.key {op : LrsOp} {t w : RoutingTable} (h : Walked cfg op t w) {i : Nat}
    {e' : LrsEntry} {k : Ipv6Addr × RoutingMetric} (he' : w[i]? = some e')
    (hk : e'.key? = some k) : ∃ e, t[i]? = some e ∧ e.key? = some k := by
  obtain ⟨e, he, hslot⟩ := h.aged.2 i e' he'
  obtain ⟨hne, haddr, htype⟩ := key?_eq_some.mp hk
  have hsame := hslot.same_of_addr (by rw [haddr]; exact hne)
  exact ⟨e, he, key?_eq_some.mpr ⟨hne, hsame.addr ▸ haddr, hsame.metricType ▸ htype⟩⟩

/-- No key is held twice, and a slot that is not used holds none. -/
structure MapInv (t : RoutingTable) : Prop where
  distinct : DistinctKeys LrsEntry.key? t
  free : FreeSlotsBlank t

theorem MapInv.walked {op : LrsOp} {t w : RoutingTable} (h : MapInv t) (hw : Walked cfg op t w) :
    MapInv w where
  distinct := distinctKeys_of_unique fun i j e e' k hi hj hk hk' => by
    obtain ⟨e₀, he₀, hk₀⟩ := hw.key hi hk
    obtain ⟨e₁, he₁, hk₁⟩ := hw.key hj hk'
    exact h.distinct.unique he₀ he₁ hk₀ hk₁
  free := h.free.aged hw.aged

theorem mapInv_init (n : Nat) : MapInv (lrsInit n) := by
  have hblank : ∀ e ∈ lrsInit n, e = {} := fun e he => List.eq_of_mem_replicate he
  refine ⟨?_, fun e he _ => by rw [hblank e he]⟩
  unfold DistinctKeys
  rw [keys_of_free fun e he => by rw [hblank e he]; rfl]
  exact List.nodup_nil

/-- What one operation keeps. -/
theorem MapInv.step (cfg : Conf) (op : LrsOp) (t : RoutingTable) (h : MapInv t) :
    MapInv (lrsStep cfg op t) := by
  have heffect := lrsStep_effect cfg op t
  generalize lrsStep cfg op t = t', writtenSlot cfg op t = written at heffect
  cases heffect with
  | walked walk => exact h.walked walk
  | @added w i e entry op_eq walk absent slot free =>
    have hw := h.walked walk
    have hnone : e.key? = none := key?_eq_none.mpr (hw.free e (List.mem_of_getElem? slot) free)
    refine ⟨?_, hw.free.write i _⟩
    cases hkey : LrsEntry.key? { route := entry.1, used := true } with
    | none => exact (hw.distinct.rewrite slot (hkey.trans hnone.symm)).1
    | some k =>
      refine (hw.distinct.insert slot hnone hkey fun z hz hk => ?_).1
      obtain ⟨hne, haddr, htype⟩ := key?_eq_some.mp hkey
      have hmiss := absent z hz
      rw [op_eq] at hmiss
      have hhit : z.route.matchesDest entry.1.addr entry.1.metricType = true := by
        obtain ⟨-, ha, ht⟩ := key?_eq_some.mp hk
        exact matchesDest_iff.mpr ⟨ha.trans haddr.symm, ht.trans htype.symm⟩
      exact absurd (hhit.symm.trans hmiss) (by decide)
  | @refilled w i e entry op_eq walk slot reached hit =>
    have hw := h.walked walk
    rw [op_eq] at hit
    obtain ⟨haddr, htype⟩ := matchesDest_iff.mp hit
    have hkey : LrsEntry.key? { e with route := entry.1 } = e.key? := by
      unfold LrsEntry.key?
      rw [haddr, htype]
    refine ⟨(hw.distinct.rewrite slot hkey).1, fun e' he' hfree => ?_⟩
    rcases List.mem_or_eq_of_mem_set he' with he' | rfl
    · exact hw.free e' he' hfree
    · have hblank := hw.free e (List.mem_of_getElem? slot) hfree
      exact haddr.symm.trans hblank
  | @deleted w i e addr ty op_eq walk slot reached hit =>
    have hw := h.walked walk
    refine ⟨?_, fun e' he' hfree => ?_⟩
    · cases hkey : e.key? with
      | none => exact (hw.distinct.rewrite slot (hkey ▸ rfl)).1
      | some k => exact (hw.distinct.erase slot hkey rfl).1
    · rcases List.mem_or_eq_of_mem_set he' with he' | rfl
      · exact hw.free e' he' hfree
      · rfl

/-- It finds one exactly when a slot has the key once it is aged. -/
theorem lookup_isSome_iff (cfg : Conf) (now : Timex) {addr : Ipv6Addr}
    (haddr : addr ≠ ipv6AddrUnspecified) (ty : RoutingMetric) (t : RoutingTable) :
    (lrsGetEntry cfg now addr ty t).2.isSome = true ↔
      ∃ e ∈ t, (resetEntryIfStale cfg now e).key? = some (addr, ty) := by
  constructor
  · intro hsome
    obtain ⟨i, hi⟩ := Option.isSome_iff_exists.mp hsome
    obtain ⟨e, he, hhit, -⟩ := scan_some _ _ hi
    exact ⟨e, List.mem_of_getElem? he, (key?_of_matches haddr).mp hhit⟩
  · rintro ⟨e, he, hk⟩
    obtain ⟨i, hi⟩ := List.getElem?_of_mem he
    obtain ⟨j, hj, -⟩ := scan_hits (fun _ => resetEntryIfStale cfg now)
      (fun _ e => e.route.matchesDest addr ty) hi ((key?_of_matches haddr).mpr hk)
    exact Option.isSome_iff_exists.mpr ⟨j, hj⟩

/-- The slot holds a route: it has one that was neither deleted nor expunged. -/
def LrsEntry.Holds (e : LrsEntry) : Prop := e.route ≠ {}

instance (e : LrsEntry) : Decidable e.Holds := inferInstanceAs (Decidable (¬ _))

/-- A slot is marked used exactly when it holds a route. -/
def SlotsInStep (t : RoutingTable) : Prop := ∀ e ∈ t, e.used = true ↔ e.Holds

instance (t : RoutingTable) : Decidable (SlotsInStep t) :=
  inferInstanceAs (Decidable (∀ e ∈ t, _))

/-- The operation overwrites the slot that stops its walk. -/
def LrsOp.overwrites : LrsOp → Bool
  | .refill .. => true
  | _ => false

/-- Nothing that an operation reaches is past its lifetime, and a slot that
it overwrites is in use. -/
def StepClean (cfg : Conf) (op : LrsOp) (t : RoutingTable) : Prop :=
  ∀ (i : Nat) (hi : i < t.length), Reached cfg op t i →
    ¬ Expunged cfg op.time t[i].route ∧
      (op.overwrites = true → op.hits t[i] = true → t[i].used = true)

instance (cfg : Conf) : ∀ op t, Decidable (StepClean cfg op t) := fun op t =>
  inferInstanceAs (Decidable (∀ (i : Nat) (_ : i < t.length), Reached cfg op t i → _))

theorem StepClean.at {op : LrsOp} {t : RoutingTable} (h : StepClean cfg op t) {i : Nat}
    {e : LrsEntry} (he : t[i]? = some e) (hreached : Reached cfg op t i) :
    ¬ Expunged cfg op.time e.route ∧
      (op.overwrites = true → op.hits e = true → e.used = true) := by
  obtain ⟨hi, rfl⟩ := List.getElem?_eq_some_iff.mp he
  exact h i hi hreached

/-- Ageing that expunges nothing leaves empty slots empty and the others not. -/
theorem resetEntryIfStale_holds {e : LrsEntry} (h : ¬ Expunged cfg now e.route) :
    (resetEntryIfStale cfg now e).Holds ↔ e.Holds := by
  unfold LrsEntry.Holds
  by_cases hzero : e.route.expirationTime = 0
  · have hsame : resetEntryIfStale cfg now e = e := by
      unfold resetEntryIfStale
      rw [if_pos hzero]
    rw [hsame]
  · have hsame := (resetEntryIfStale_cases cfg now e).2.resolve_right fun hexp => h hexp.1
    obtain ⟨state, lastUsed, hroute, -⟩ := hsame
    have hne : e.route ≠ {} := by
      intro heq
      rw [heq] at hzero
      exact hzero rfl
    have hne' : (resetEntryIfStale cfg now e).route ≠ {} := by
      intro heq
      rw [hroute] at heq
      exact hzero (congrArg LocalRoute.expirationTime heq)
    exact ⟨fun _ => hne, fun _ => hne'⟩

/-- A clean walk keeps the flags in step. -/
theorem SlotsInStep.walked {op : LrsOp} {t w : RoutingTable} (h : SlotsInStep t)
    (hclean : StepClean cfg op t) (hw : Walked cfg op t w) : SlotsInStep w := by
  intro e' he'
  obtain ⟨i, hi⟩ := List.getElem?_of_mem he'
  obtain ⟨e, he, rfl | ⟨rfl, hreached⟩⟩ := hw.slot i e' hi
  · exact h _ (List.mem_of_getElem? he)
  · rw [resetEntryIfStale_used, resetEntryIfStale_holds (hclean.at he hreached).1]
    exact h e (List.mem_of_getElem? he)

theorem SlotsInStep.set {t : RoutingTable} (h : SlotsInStep t) (i : Nat) {e : LrsEntry}
    (he : e.used = true ↔ e.Holds) : SlotsInStep (t.set i e) := by
  intro e' he'
  rcases List.mem_or_eq_of_mem_set he' with he' | rfl
  · exact h e' he'
  · exact he

/-- A clean step keeps them in step. -/
theorem SlotsInStep.step (cfg : Conf) (op : LrsOp) (t : RoutingTable) (h : SlotsInStep t)
    (hclean : StepClean cfg op t) : SlotsInStep (lrsStep cfg op t) := by
  have heffect := lrsStep_effect cfg op t
  generalize lrsStep cfg op t = t', writtenSlot cfg op t = written at heffect
  cases heffect with
  | walked walk => exact h.walked hclean walk
  | @added w i e entry op_eq walk absent slot free =>
    exact (h.walked hclean walk).set i ⟨fun _ => entry.2, fun _ => rfl⟩
  | @refilled w i e entry op_eq walk slot reached hit =>
    refine (h.walked hclean walk).set i ⟨fun _ => entry.2, fun _ => ?_⟩
    obtain ⟨e₀, he₀, hslot⟩ := walk.aged.2 i e slot
    obtain ⟨hkept, hused⟩ := hclean.at he₀ reached
    have hsame := hslot.same hkept
    refine hslot.used.trans (hused (by rw [op_eq]; rfl) ?_)
    rw [op_eq] at hit ⊢
    change e.route.matchesDest entry.1.addr entry.1.metricType = true at hit
    rw [hsame.matchesDest] at hit
    exact hit
  | deleted op_eq walk slot reached hit =>
    exact (h.walked hclean walk).set _
      ⟨fun hu => absurd hu Bool.false_ne_true, fun hne => absurd rfl hne⟩

/-- A route over one hop to a node, filled at a time. -/
def sampleRoute (addr : Ipv6Addr) (now : Timex) : FilledRoute :=
  ⟨fillRoutingEntry .default { sender := 9#128, metricType := metricHopCount, timestamp := now }
    { addr := addr, pfxLen := 128, metric := 1, seqnum := 1 } 1,
    fun h => absurd (congrArg LocalRoute.metric h) (show (1 + 1 : UInt8) ≠ 0 by decide)⟩

/-- A route that is added, refilled in time and deleted. -/
def sampleLrsRun : List LrsOp :=
  [.add 0 (sampleRoute 1#128 0), .lookup (timexSet 20 0) 2#128 metricHopCount,
   .refill (timexSet 30 0) (sampleRoute 1#128 (timexSet 30 0)),
   .delete (timexSet 40 0) 1#128 metricHopCount]

end Turpial.Aodvv2
