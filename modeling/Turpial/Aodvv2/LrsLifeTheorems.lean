/-
Turpial.Aodvv2.LrsLifeTheorems — the life of a route.

Time enters here: `LrsState` is a table and the time of the last operation,
and a run is timely when the times do not decrease and every route that is
written was filled at that time.

`AgeStep` lists the four things one pass of `_reset_entry_if_stale` can do
to a route (§1). Everything else follows slot by slot: a slot that no
operation writes only takes age steps (`slot_run`), so whatever these keep,
the slot keeps (§2).
-/
import Turpial.Aodvv2.LrsRunTheorems

namespace Turpial.Aodvv2

open Turpial.Lib

variable {cfg : Conf}

/-! ## §1 One pass -/

/-- `timex_sub`, where it does not underflow. -/
def timexSub? (a b : Timex) : Option Timex := if b ≤ a then some (a - b) else none

/-- The test for the transition to Idle. `&&` does not subtract unless the
route is Active. -/
def idleTest? (cfg : Conf) (now : Timex) (route : LocalRoute) : Option Bool :=
  if route.state = .active then
    (timexSub? now cfg.activeInterval).map fun since => decide (since > route.lastUsed)
  else some false

/-- `_reset_entry_if_stale` with both subtractions checked. -/
def resetEntryIfStale? (cfg : Conf) (now : Timex) (e : LrsEntry) : Option LrsEntry :=
  if e.route.expirationTime = 0 then some e
  else if now < cfg.activeInterval then some e
  else
    (idleTest? cfg now e.route).bind fun idle =>
      let route := if idle then { e.route with state := .idle, lastUsed := now } else e.route
      if now < e.route.expirationTime then some { e with route := route }
      else
        let route :=
          if e.route.state = .idle ∧ e.route.expirationTime ≤ now then
            { route with state := .expired, lastUsed := now }
          else route
        (timexSub? now e.route.lastUsed).map fun age =>
          if age ≥ cfg.maxSeqnumLifetime then { e with route := {} } else { e with route := route }

/-- Neither subtraction underflows on a route that was last used in the past. -/
theorem resetEntryIfStale?_eq {now : Timex} {e : LrsEntry} (h : e.route.lastUsed ≤ now) :
    resetEntryIfStale? cfg now e = some (resetEntryIfStale cfg now e) := by
  unfold resetEntryIfStale? resetEntryIfStale
  by_cases hfilled : e.route.expirationTime = 0
  · rw [if_pos hfilled, if_pos hfilled]
  rw [if_neg hfilled, if_neg hfilled]
  by_cases hactive : now < cfg.activeInterval
  · rw [if_pos hactive, if_pos hactive]
  rw [if_neg hactive, if_neg hactive]
  have hidle : idleTest? cfg now e.route = some (decide (e.route.state = .active ∧
      now - cfg.activeInterval > e.route.lastUsed)) := by
    unfold idleTest? timexSub?
    rw [if_pos (Nat.le_of_not_lt hactive)]
    by_cases hstate : e.route.state = .active
    · simp [hstate]
    · simp [hstate]
  have hage : timexSub? now e.route.lastUsed = some (now - e.route.lastUsed) := by
    unfold timexSub?
    rw [if_pos h]
  rw [hidle, hage]
  unfold idleIfUnused
  simp only [Option.bind_some, Option.map_some, decide_eq_true_eq]
  by_cases hexp : now < e.route.expirationTime
  · rw [if_pos hexp, if_pos hexp]
  · rw [if_neg hexp, if_neg hexp]

/-- What one pass can do to a route. -/
inductive AgeStep (cfg : Conf) (now : Timex) (r : LocalRoute) : LocalRoute → Prop
  | kept : AgeStep cfg now r r
  | idled (filled : r.expirationTime ≠ 0) (state : r.state = .active) :
      AgeStep cfg now r { r with state := .idle, lastUsed := now }
  | expired (filled : r.expirationTime ≠ 0) (state : r.state = .idle) :
      AgeStep cfg now r { r with state := .expired, lastUsed := now }
  | expunged (old : Expunged cfg now r) : AgeStep cfg now r {}

theorem resetEntryIfStale_ageStep (cfg : Conf) (now : Timex) (e : LrsEntry) :
    AgeStep cfg now e.route (resetEntryIfStale cfg now e).route := by
  unfold resetEntryIfStale
  by_cases hfilled : e.route.expirationTime = 0
  · rw [if_pos hfilled]
    exact .kept
  rw [if_neg hfilled]
  by_cases hactive : now < cfg.activeInterval
  · rw [if_pos hactive]
    exact .kept
  rw [if_neg hactive]
  dsimp only
  have hidled : AgeStep cfg now e.route (idleIfUnused cfg now e.route) := by
    unfold idleIfUnused
    split
    · rename_i hidle
      exact .idled hfilled hidle.1
    · exact .kept
  by_cases hexpired : now < e.route.expirationTime
  · rw [if_pos hexpired]
    exact hidled
  rw [if_neg hexpired]
  by_cases hlife : now - e.route.lastUsed ≥ cfg.maxSeqnumLifetime
  · rw [if_pos hlife]
    exact .expunged ⟨hfilled, Nat.le_of_not_lt hactive, Nat.le_of_not_lt hexpired, hlife⟩
  rw [if_neg hlife]
  by_cases hstate : e.route.state = .idle
  · -- The state that is tested is the one from before.
    have hkept : idleIfUnused cfg now e.route = e.route :=
      idleIfUnused_of_not_active (by rw [hstate]; exact nofun)
    rw [if_pos ⟨hstate, Nat.le_of_not_lt hexpired⟩, hkept]
    exact .expired hfilled hstate
  · rw [if_neg fun h => hstate h.1]
    exact hidled

/-- How far along its life a route is; the zeroed record is the end of it. -/
def LocalRoute.stage (r : LocalRoute) : Nat :=
  if r = {} then 3
  else
    match r.state with
    | .active => 0
    | .idle => 1
    | _ => 2

theorem stage_le (r : LocalRoute) : r.stage ≤ 3 := by
  unfold LocalRoute.stage
  split
  · exact Nat.le_refl 3
  · split <;> decide

theorem stage_eq_three_iff {r : LocalRoute} : r.stage = 3 ↔ r = {} := by
  unfold LocalRoute.stage
  constructor
  · intro h
    split at h
    · rename_i heq
      exact heq
    · split at h <;> cases h
  · intro h
    rw [if_pos h]

/-- A later moment of the same life: further along, and the same route as
long as it is there. -/
structure Later (r r' : LocalRoute) : Prop where
  stage : r.stage ≤ r'.stage
  same : r' ≠ {} → ∃ state lastUsed, r' = { r with state := state, lastUsed := lastUsed }

theorem Later.refl (r : LocalRoute) : Later r r := ⟨Nat.le_refl _, fun _ => ⟨_, _, rfl⟩⟩

theorem Later.trans {r₁ r₂ r₃ : LocalRoute} (h₁ : Later r₁ r₂) (h₂ : Later r₂ r₃) :
    Later r₁ r₃ := by
  refine ⟨Nat.le_trans h₁.stage h₂.stage, fun hne => ?_⟩
  have hne₂ : r₂ ≠ {} := by
    intro heq
    have hle := h₂.stage
    rw [stage_eq_three_iff.mpr heq] at hle
    exact hne (stage_eq_three_iff.mp (Nat.le_antisymm (stage_le r₃) hle))
  obtain ⟨st₁, lu₁, rfl⟩ := h₁.same hne₂
  obtain ⟨st₂, lu₂, rfl⟩ := h₂.same hne
  exact ⟨st₂, lu₂, rfl⟩

/-- A pass only moves a route forward. -/
theorem AgeStep.later {now : Timex} {r r' : LocalRoute} (h : AgeStep cfg now r r') :
    Later r r' := by
  have hne : r.expirationTime ≠ 0 → r ≠ {} := by
    rintro hexp rfl
    exact hexp rfl
  cases h with
  | kept => exact Later.refl r
  | idled filled state =>
    refine ⟨?_, fun _ => ⟨_, _, rfl⟩⟩
    have hstage : r.stage = 0 := by
      unfold LocalRoute.stage
      rw [if_neg (hne filled), state]
    rw [hstage]
    exact Nat.zero_le _
  | expired filled state =>
    refine ⟨?_, fun _ => ⟨_, _, rfl⟩⟩
    have hstage : r.stage = 1 := by
      unfold LocalRoute.stage
      rw [if_neg (hne filled), state]
    have hstage' : LocalRoute.stage { r with state := .expired, lastUsed := now } = 2 := by
      unfold LocalRoute.stage
      rw [if_neg]
      exact fun heq => filled (congrArg LocalRoute.expirationTime heq)
    rw [hstage, hstage']
    decide
  | expunged old =>
    refine ⟨?_, fun hne => absurd rfl hne⟩
    rw [stage_eq_three_iff.mpr rfl]
    exact stage_le r

/-! ## §2 Timely runs -/

/-- The set and the time of the last operation on it. -/
structure LrsState where
  table : RoutingTable
  clock : Timex

/-- The initialised set, at time zero. -/
def LrsState.init (n : Nat) : LrsState := ⟨lrsInit n, 0⟩

/-- An operation at its time. -/
def lrsTick (cfg : Conf) (op : LrsOp) (s : LrsState) : LrsState :=
  ⟨lrsStep cfg op s.table, op.time⟩

/-- The route was filled at this time. -/
def FilledAt (cfg : Conf) (now : Timex) (r : LocalRoute) : Prop :=
  r.lastUsed = now ∧ r.expirationTime = now + cfg.validity ∧ r.state = .active

instance (cfg : Conf) (now : Timex) (r : LocalRoute) : Decidable (FilledAt cfg now r) :=
  inferInstanceAs (Decidable (_ ∧ _))

theorem fillRoutingEntry_filledAt (cfg : Conf) (msg : Message) (node : NodeData) (linkCost : UInt8) :
    FilledAt cfg msg.timestamp (fillRoutingEntry cfg msg node linkCost) :=
  ⟨rfl, rfl, rfl⟩

/-- The route that an operation writes. -/
def LrsOp.entry? : LrsOp → Option LocalRoute
  | .add _ entry => some entry.1
  | .refill _ entry => some entry.1
  | _ => none

/-- The time does not decrease, and a route that is written was filled now. -/
def Timely (cfg : Conf) (op : LrsOp) (s : LrsState) : Prop :=
  s.clock ≤ op.time ∧ ∀ r ∈ op.entry?, FilledAt cfg op.time r

instance (cfg : Conf) : ∀ op s, Decidable (Timely cfg op s) := fun op s =>
  inferInstanceAs (Decidable (s.clock ≤ op.time ∧ ∀ r ∈ op.entry?, FilledAt cfg op.time r))

/-- No operation of the run writes the slot. -/
def Unwritten (cfg : Conf) (i : Nat) (ops : List LrsOp) (s : LrsState) : Prop :=
  Along (lrsTick cfg) (fun op s => writtenSlot cfg op s.table ≠ some i) ops s

/-- The operation fills the slot. -/
def Fills (cfg : Conf) (op : LrsOp) (s : LrsState) (i : Nat) : Prop :=
  writtenSlot cfg op s.table = some i ∧ op.entry?.isSome = true

/-- A slot that an operation does not write takes an age step. -/
theorem slot_unwritten {op : LrsOp} {t : RoutingTable} {i : Nat} {e : LrsEntry}
    (hw : writtenSlot cfg op t ≠ some i) (he : t[i]? = some e) :
    ∃ e', (lrsStep cfg op t)[i]? = some e' ∧ AgeStep cfg op.time e.route e'.route := by
  have hwalk : ∀ w, Walked cfg op t w →
      ∃ e', w[i]? = some e' ∧ AgeStep cfg op.time e.route e'.route := by
    intro w hw
    obtain ⟨e', he', -⟩ := hw.aged.slot he
    obtain ⟨e₀, he₀, hslot⟩ := hw.slot i e' he'
    rw [he] at he₀
    cases he₀
    rcases hslot with rfl | ⟨rfl, -⟩
    · exact ⟨_, he', .kept⟩
    · exact ⟨_, he', resetEntryIfStale_ageStep cfg op.time e⟩
  have heffect := lrsStep_effect cfg op t
  generalize lrsStep cfg op t = t', writtenSlot cfg op t = written at heffect hw
  have hother : ∀ (j : Nat) (w : RoutingTable) (e₁ : LrsEntry), Walked cfg op t w → some j ≠ some i →
      ∃ e', (w.set j e₁)[i]? = some e' ∧ AgeStep cfg op.time e.route e'.route := by
    intro j w e₁ hwalked hne
    obtain ⟨e', he', hage⟩ := hwalk w hwalked
    refine ⟨e', ?_, hage⟩
    rw [List.getElem?_set_ne (fun heq => hne (congrArg some heq)), he']
  cases heffect with
  | walked walk => exact hwalk _ walk
  | added op_eq walk => exact hother _ _ _ walk hw
  | refilled op_eq walk => exact hother _ _ _ walk hw
  | deleted op_eq walk => exact hother _ _ _ walk hw

/-- A slot that is filled holds the route of the operation. -/
theorem slot_filled {op : LrsOp} {s : LrsState} {i : Nat} (h : Fills cfg op s i) :
    ∃ e, (lrsStep cfg op s.table)[i]? = some e ∧ some e.route = op.entry? ∧ e.Holds := by
  obtain ⟨hw, hentry⟩ := h
  have heffect := lrsStep_effect cfg op s.table
  rw [hw] at heffect
  generalize lrsStep cfg op s.table = t' at heffect
  cases heffect with
  | @added w _ e entry op_eq walk absent slot free =>
    refine ⟨_, getElem?_written slot _, ?_, entry.2⟩
    rw [op_eq]
    rfl
  | @refilled w _ e entry op_eq walk slot reached hit =>
    refine ⟨_, getElem?_written slot _, ?_, entry.2⟩
    rw [op_eq]
    rfl
  | deleted op_eq walk =>
    rw [op_eq] at hentry
    cases hentry

/-- **The induction rule for a slot.** What age steps keep as time passes, a
slot keeps over a timely run that does not write it. -/
theorem slot_run {P : Timex → LocalRoute → Prop}
    (hage : ∀ clock now r r', P clock r → clock ≤ now → AgeStep cfg now r r' → P now r')
    {ops : List LrsOp} {s : LrsState} (hrun : Along (lrsTick cfg) (Timely cfg) ops s) {i : Nat}
    (hw : Unwritten cfg i ops s) {e : LrsEntry} (he : s.table[i]? = some e) (h : P s.clock e.route) :
    ∃ e', (run (lrsTick cfg) ops s).table[i]? = some e' ∧
      P (run (lrsTick cfg) ops s).clock e'.route := by
  induction ops generalizing s e with
  | nil => exact ⟨e, he, h⟩
  | cons op ops ih =>
    obtain ⟨⟨htime, -⟩, hrest⟩ := hrun
    obtain ⟨hnow, hwrest⟩ := hw
    obtain ⟨e', he', hstep⟩ := slot_unwritten hnow he
    exact ih hrest hwrest he' (hage _ _ _ _ h htime hstep)

/-- What is known of every slot. -/
structure SlotLife (clock : Timex) (r : LocalRoute) : Prop where
  lastUsed : r.lastUsed ≤ clock
  state : r.state = .active ∨ r.state = .idle ∨ r.state = .expired

theorem SlotLife.age {clock now : Timex} {r r' : LocalRoute} (h : SlotLife clock r)
    (htime : clock ≤ now) (hage : AgeStep cfg now r r') : SlotLife now r' := by
  cases hage with
  | kept => exact ⟨Nat.le_trans h.lastUsed htime, h.state⟩
  | idled => exact ⟨Nat.le_refl now, Or.inr (Or.inl rfl)⟩
  | expired => exact ⟨Nat.le_refl now, Or.inr (Or.inr rfl)⟩
  | expunged => exact ⟨Nat.zero_le now, Or.inl rfl⟩

/-- Every slot of the set is that way. -/
def TableLife (s : LrsState) : Prop := ∀ e ∈ s.table, SlotLife s.clock e.route

theorem tableLife_init (n : Nat) : TableLife (.init n) := by
  intro e he
  rw [List.eq_of_mem_replicate he]
  exact ⟨Nat.le_refl 0, Or.inl rfl⟩

theorem TableLife.step (cfg : Conf) (op : LrsOp) (s : LrsState) (h : TableLife s)
    (htimely : Timely cfg op s) : TableLife (lrsTick cfg op s) := by
  obtain ⟨htime, hfilled⟩ := htimely
  have hwalk : ∀ w, Walked cfg op s.table w → ∀ e ∈ w, SlotLife op.time e.route := by
    intro w hw e he
    obtain ⟨i, hi⟩ := List.getElem?_of_mem he
    obtain ⟨e₀, he₀, rfl | ⟨rfl, -⟩⟩ := hw.slot i e hi
    · have hkept : AgeStep cfg op.time e.route e.route := .kept
      exact (h _ (List.mem_of_getElem? he₀)).age htime hkept
    · exact (h _ (List.mem_of_getElem? he₀)).age htime (resetEntryIfStale_ageStep cfg op.time e₀)
  have hset : ∀ w, Walked cfg op s.table w → ∀ (i : Nat) (e : LrsEntry), SlotLife op.time e.route →
      ∀ e' ∈ w.set i e, SlotLife op.time e'.route := by
    intro w hw i e he e' he'
    rcases List.mem_or_eq_of_mem_set he' with he' | rfl
    · exact hwalk w hw e' he'
    · exact he
  have hentry : ∀ r ∈ op.entry?, SlotLife op.time r := by
    intro r hr
    obtain ⟨hused, -, hstate⟩ := hfilled r hr
    exact ⟨Nat.le_of_eq hused, Or.inl hstate⟩
  have heffect := lrsStep_effect cfg op s.table
  change ∀ e ∈ lrsStep cfg op s.table, SlotLife op.time e.route
  generalize lrsStep cfg op s.table = t', writtenSlot cfg op s.table = written at heffect
  cases heffect with
  | walked walk => exact hwalk _ walk
  | @added w i e entry op_eq walk =>
    exact hset _ walk _ _ (hentry entry.1 (by rw [op_eq]; exact rfl))
  | @refilled w i e entry op_eq walk =>
    exact hset _ walk _ _ (hentry entry.1 (by rw [op_eq]; exact rfl))
  | deleted op_eq walk => exact hset _ walk _ _ ⟨Nat.zero_le _, Or.inl rfl⟩

/-- A slot since it was filled at `T`: the route is there and was last used
since, or it was expunged in due time. -/
def Since (cfg : Conf) (T : Timex) (clock : Timex) (r : LocalRoute) : Prop :=
  T ≤ clock ∧ (r.expirationTime = T + cfg.validity ∧ T ≤ r.lastUsed ∧ r ≠ {} ∨
    r = {} ∧ T + cfg.validity ≤ clock ∧ T + cfg.maxSeqnumLifetime ≤ clock)

theorem Since.age {T clock now : Timex} {r r' : LocalRoute} (h : Since cfg T clock r)
    (htime : clock ≤ now) (hage : AgeStep cfg now r r') : Since cfg T now r' := by
  obtain ⟨hT, ⟨hexp, hused, hne⟩ | ⟨rfl, hvalid, hseq⟩⟩ := h
  · have hnow := Nat.le_trans hT htime
    refine ⟨hnow, ?_⟩
    cases hage with
    | kept => exact Or.inl ⟨hexp, hused, hne⟩
    | idled filled =>
      exact Or.inl ⟨hexp, hnow, fun heq => filled (congrArg LocalRoute.expirationTime heq)⟩
    | expired filled =>
      exact Or.inl ⟨hexp, hnow, fun heq => filled (congrArg LocalRoute.expirationTime heq)⟩
    | expunged old =>
      obtain ⟨-, -, hle, hlife⟩ := old
      refine Or.inr ⟨rfl, hexp ▸ hle, ?_⟩
      have hsub : cfg.maxSeqnumLifetime ≤ now - T := Nat.le_trans hlife (Nat.sub_le_sub_left hused now)
      rw [Nat.add_comm]
      exact Nat.add_le_of_le_sub hnow hsub
  · refine ⟨Nat.le_trans hT htime, Or.inr ⟨?_, Nat.le_trans hvalid htime, Nat.le_trans hseq htime⟩⟩
    cases hage with
    | kept => rfl
    | idled filled => exact absurd rfl filled
    | expired filled => exact absurd rfl filled
    | expunged => rfl

/-- The life cycle of the routes in a state. -/
structure LifeCycle (cfg : Conf) (s : LrsState) : Prop where
  lastUsed : ∀ e ∈ s.table, e.route.lastUsed ≤ s.clock
  /-- No pass underflows, whenever it comes. -/
  noUnderflow : ∀ e ∈ s.table, ∀ now, s.clock ≤ now →
    resetEntryIfStale? cfg now e = some (resetEntryIfStale cfg now e)
  state : ∀ e ∈ s.table,
    e.route.state = .active ∨ e.route.state = .idle ∨ e.route.state = .expired
  /-- Until the slot is written again its route only moves forward. -/
  forward : ∀ ops, Along (lrsTick cfg) (Timely cfg) ops s → ∀ i, Unwritten cfg i ops s →
    ∀ e e', s.table[i]? = some e → (run (lrsTick cfg) ops s).table[i]? = some e' →
      Later e.route e'.route
  /-- And a route that is filled now is not expunged too early. -/
  lifetime : ∀ op ops i, Timely cfg op s → Fills cfg op s i →
    Along (lrsTick cfg) (Timely cfg) ops (lrsTick cfg op s) →
    Unwritten cfg i ops (lrsTick cfg op s) →
    ∀ e, (run (lrsTick cfg) ops (lrsTick cfg op s)).table[i]? = some e → ¬ e.Holds →
      op.time + cfg.validity ≤ (run (lrsTick cfg) ops (lrsTick cfg op s)).clock ∧
      op.time + cfg.maxSeqnumLifetime ≤ (run (lrsTick cfg) ops (lrsTick cfg op s)).clock

theorem TableLife.lifeCycle {s : LrsState} (h : TableLife s) : LifeCycle cfg s where
  lastUsed e he := (h e he).lastUsed
  noUnderflow e he now hnow := resetEntryIfStale?_eq (Nat.le_trans (h e he).lastUsed hnow)
  state e he := (h e he).state
  forward ops hrun i hw e e' he he' := by
    obtain ⟨e₁, he₁, hlater⟩ := slot_run (P := fun _ r => Later e.route r)
      (fun _ _ _ _ hr _ hage => hr.trans hage.later) hrun hw he (Later.refl _)
    rw [he'] at he₁
    cases he₁
    exact hlater
  lifetime op ops i htimely hfills hrun hw e he hgone := by
    obtain ⟨e₀, he₀, hentry, hholds⟩ := slot_filled hfills
    obtain ⟨hused, hexp, -⟩ := htimely.2 e₀.route (by rw [← hentry]; exact rfl)
    have hsince : Since cfg op.time (lrsTick cfg op s).clock e₀.route :=
      ⟨Nat.le_refl _, Or.inl ⟨hexp, Nat.le_of_eq hused.symm, hholds⟩⟩
    obtain ⟨e₁, he₁, -, ⟨-, -, hne⟩ | ⟨-, hvalid, hseq⟩⟩ :=
      slot_run (P := Since cfg op.time) (fun _ _ _ _ hr ht hage => hr.age ht hage) hrun hw he₀ hsince
    · rw [he] at he₁
      cases he₁
      exact absurd hne hgone
    · exact ⟨hvalid, hseq⟩

/-- **The life cycle of local routes** in every state of every timely run. -/
theorem lrs_lifeCycle (cfg : Conf) (n : Nat) (ops : List LrsOp)
    (h : Along (lrsTick cfg) (Timely cfg) ops (.init n)) :
    LifeCycle cfg (run (lrsTick cfg) ops (.init n)) :=
  TableLife.lifeCycle (run_invariant (TableLife.step cfg) (tableLife_init n) h)

theorem lrs_lifeCycle_sample :
    LifeCycle .default (run (lrsTick .default) sampleLrsRun (.init 1)) :=
  lrs_lifeCycle .default 1 sampleLrsRun (by decide +kernel)

end Turpial.Aodvv2
