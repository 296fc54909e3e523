/-
Turpial.Aodvv2.McMsg — the Multicast Message Set (`aodvv2_mcmsg.c`), the
table that decides whether a received RREQ is redundant.

`mcmsgProcess` keeps the order of the source: expire slots on the way to
the first comparable entry, refresh that entry's timing, reject what is
older or repeats the recorded metric, record the new pair, and only then
look for a compatible entry that is no worse. The second walk skips the
entry it has just written (`entry == comparable`) and stops early, so
slots behind the stop are not expired.

Two points of the source are kept because the theorems turn on them.
`_add` fills every field of a slot except `seqnortr`, so a slot keeps the
`seqnortr` it had; and at equal sequence numbers the redundancy test is
an EQUALITY of metrics.

`mcmsgProcess_ok_iff` states the verdict without the walks:
`McmsgAdmits` is a predicate on the set, the time and the message.
-/
import Turpial.Aodvv2.Message
import Turpial.Lib.Table
import Turpial.Lib.Run

namespace Turpial.Aodvv2

open Turpial.Lib

/-! ## The set -/

/-- `aodvv2_mcmsg_t`, less the two fields no function reads
(`targ_seqnum`, `netif`). -/
structure Mcmsg where
  origPrefix : Ipv6Addr := ipv6AddrUnspecified
  origPfxLen : UInt8 := 0
  targPrefix : Ipv6Addr := ipv6AddrUnspecified
  origSeqnum : SeqNum := 0
  metricType : RoutingMetric := 0
  metric : UInt8 := 0
  timestamp : Timex := 0
  removalTime : Timex := 0
  seqnortr : Ipv6Addr := ipv6AddrUnspecified
  deriving DecidableEq, Repr

/-- `internal_entry_t` of `aodvv2_mcmsg.c`. -/
structure McmsgEntry where
  data : Mcmsg := {}
  used : Bool := false
  deriving DecidableEq, Repr

/-- The static `_entries`. -/
abbrev McmsgSet := List McmsgEntry

/-- `aodvv2_mcmsg_init`, for a set of `n` slots. -/
def mcmsgInit (n : Nat) : McmsgSet := List.replicate n {}

/-- `AODVV2_MCMSG_REDUNDANT` and `AODVV2_MCMSG_OK`. -/
inductive McmsgVerdict where
  | redundant
  | ok
  deriving DecidableEq, Repr

/-- `_reset_entry_if_stale` of the McMsg set. -/
def mcmsgResetEntryIfStale (now : Timex) (entry : McmsgEntry) : McmsgEntry :=
  if !entry.used then entry
  else if now > entry.data.removalTime then { data := {}, used := false }
  else entry

/-- `_is_compatible_mcmsg`. -/
def isCompatibleMcmsg (lhs rhs : Mcmsg) : Bool :=
  lhs.origPrefix == rhs.origPrefix && lhs.origPfxLen == rhs.origPfxLen &&
    lhs.targPrefix == rhs.targPrefix && lhs.metricType == rhs.metricType

/-- `_is_compatible`. -/
def isCompatible (entry : Mcmsg) (msg : Message) : Bool :=
  entry.origPrefix == msg.origNode.addr && entry.origPfxLen == msg.origNode.pfxLen &&
    entry.targPrefix == msg.targNode.addr && entry.metricType == msg.metricType

/-- `_is_comparable`. -/
def isComparable (entry : Mcmsg) (msg : Message) : Bool :=
  if ipv6AddrIsUnspecified entry.seqnortr && ipv6AddrIsUnspecified msg.seqnortr then
    isCompatible entry msg
  else isCompatible entry msg && entry.seqnortr == msg.seqnortr

/-- `_find_comparable_entry`. -/
def findComparableEntry (now : Timex) (msg : Message) (set : McmsgSet) :
    McmsgSet × Option Nat :=
  scan (fun _ => mcmsgResetEntryIfStale now)
    (fun _ entry => entry.used && isComparable entry.data msg) set

/-- What `_add` writes into a slot. `seqnortr` is not among it. -/
def mcmsgFill (cfg : Conf) (now : Timex) (msg : Message) (entry : McmsgEntry) : McmsgEntry where
  used := true
  data := { entry.data with
    origPrefix := msg.origNode.addr
    origPfxLen := msg.origNode.pfxLen
    targPrefix := msg.targNode.addr
    metricType := msg.metricType
    metric := msg.origNode.metric
    origSeqnum := msg.origNode.seqnum
    timestamp := now
    removalTime := now + cfg.maxSeqnumLifetime }

/-- `_add`. -/
def mcmsgAdd (cfg : Conf) (now : Timex) (msg : Message) (set : McmsgSet) :
    McmsgSet × Option Nat :=
  fillFree (fun entry => !entry.used) (mcmsgFill cfg now msg) set

/-- The timing update of a comparable entry. -/
def mcmsgTouch (cfg : Conf) (now : Timex) (entry : McmsgEntry) : McmsgEntry :=
  { entry with data := { entry.data with
      timestamp := now
      removalTime := now + cfg.maxSeqnumLifetime } }

/-- The sequence number and metric update of a comparable entry. -/
def mcmsgRecord (msg : Message) (entry : McmsgEntry) : McmsgEntry :=
  { entry with data := { entry.data with
      origSeqnum := msg.origNode.seqnum
      metric := msg.origNode.metric } }

/-- The last loop of `aodvv2_mcmsg_process`: find a compatible entry other
than the comparable one (slot `i`, now holding `updated`) that is no worse. -/
def mcmsgCheckCompatible (now : Timex) (i : Nat) (updated : McmsgEntry) (set : McmsgSet) :
    McmsgSet × Option Nat :=
  scan (fun j entry => if j = i then entry else mcmsgResetEntryIfStale now entry)
    (fun j entry => j != i && entry.used && isCompatibleMcmsg updated.data entry.data &&
      decide (entry.data.metric ≤ updated.data.metric)) set

/-- `aodvv2_mcmsg_process`. -/
def mcmsgProcess (cfg : Conf) (now : Timex) (msg : Message) (set : McmsgSet) :
    McmsgVerdict × McmsgSet :=
  let found := findComparableEntry now msg set
  match found.2 with
  | none => (.ok, (mcmsgAdd cfg now msg found.1).1)
  | some i =>
    let comparable := mcmsgTouch cfg now (found.1[i]?.getD {})
    let seqcmp := seqnumCmp comparable.data.origSeqnum msg.origNode.seqnum
    if seqcmp < 0 then (.redundant, found.1.set i comparable)
    else if seqcmp = 0 ∧ comparable.data.metric = msg.origNode.metric then
      (.redundant, found.1.set i comparable)
    else
      let updated := mcmsgRecord msg comparable
      let checked := mcmsgCheckCompatible now i updated (found.1.set i updated)
      match checked.2 with
      | some _ => (.redundant, checked.1)
      | none => (.ok, checked.1)

/-! ## Small facts -/

/-- A used entry whose removal time has not passed. -/
def McmsgEntry.Live (now : Timex) (e : McmsgEntry) : Prop :=
  e.used = true ∧ now ≤ e.data.removalTime

instance (now : Timex) (e : McmsgEntry) : Decidable (e.Live now) :=
  inferInstanceAs (Decidable (_ ∧ _))

theorem mcmsgReset_live {now : Timex} {e : McmsgEntry} (h : e.Live now) :
    mcmsgResetEntryIfStale now e = e := by
  unfold mcmsgResetEntryIfStale
  rw [if_neg (by simp [h.1]), if_neg (Nat.not_lt.mpr h.2)]

/-- Resetting leaves an entry used exactly when it is live. -/
theorem mcmsgReset_used_iff {now : Timex} {e : McmsgEntry} :
    (mcmsgResetEntryIfStale now e).used = true ↔ e.Live now := by
  unfold mcmsgResetEntryIfStale McmsgEntry.Live
  cases hu : e.used with
  | false => simp [hu]
  | true =>
    by_cases hs : now > e.data.removalTime
    · simp [hs]
    · simp [hs, hu, Nat.le_of_not_lt hs]

/-- A reset slot is the slot itself or the zeroed one. -/
theorem mcmsgReset_cases (now : Timex) (e : McmsgEntry) :
    mcmsgResetEntryIfStale now e = e ∨
      (¬ e.Live now ∧ mcmsgResetEntryIfStale now e = {}) := by
  unfold mcmsgResetEntryIfStale
  split
  · exact Or.inl rfl
  · split
    · rename_i hs
      exact Or.inr ⟨fun hl => Nat.not_lt.mpr hl.2 hs, rfl⟩
    · exact Or.inl rfl

/-- Comparable entries are compatible. -/
theorem isCompatible_of_isComparable {e : Mcmsg} {msg : Message}
    (h : isComparable e msg = true) : isCompatible e msg = true := by
  unfold isComparable at h
  split at h
  · exact h
  · exact (Bool.and_eq_true _ _ ▸ h).1

/-- Comparability, spelled out: same class and same `seqnortr`. -/
theorem isComparable_iff {e : Mcmsg} {msg : Message} :
    isComparable e msg = true ↔ isCompatible e msg = true ∧ e.seqnortr = msg.seqnortr := by
  unfold isComparable ipv6AddrIsUnspecified
  split
  · rename_i h
    simp only [Bool.and_eq_true, beq_iff_eq] at h
    simp [h.1, h.2]
  · simp

/-- Compatibility with an entry of the message's class is compatibility
with the message. -/
theorem isCompatibleMcmsg_iff {e f : Mcmsg} {msg : Message} (h : isCompatible e msg = true) :
    isCompatibleMcmsg e f = true ↔ isCompatible f msg = true := by
  simp only [isCompatible, isCompatibleMcmsg, Bool.and_eq_true, beq_iff_eq] at h ⊢
  obtain ⟨⟨⟨h1, h2⟩, h3⟩, h4⟩ := h
  rw [h1, h2, h3, h4]
  constructor <;> rintro ⟨⟨⟨g1, g2⟩, g3⟩, g4⟩ <;> exact ⟨⟨⟨g1.symm, g2.symm⟩, g3.symm⟩, g4.symm⟩

@[simp] theorem isCompatible_touch (cfg : Conf) (now : Timex) (e : McmsgEntry) (msg : Message) :
    isCompatible (mcmsgTouch cfg now e).data msg = isCompatible e.data msg := rfl

@[simp] theorem isCompatible_record (msg' : Message) (e : McmsgEntry) (msg : Message) :
    isCompatible (mcmsgRecord msg' e).data msg = isCompatible e.data msg := rfl

@[simp] theorem mcmsgTouch_used (cfg : Conf) (now : Timex) (e : McmsgEntry) :
    (mcmsgTouch cfg now e).used = e.used := rfl

@[simp] theorem mcmsgRecord_used (msg : Message) (e : McmsgEntry) :
    (mcmsgRecord msg e).used = e.used := rfl

/-! ## The first comparable entry -/

/-- Slot `i` holds `e`, the first live entry comparable with the message. -/
structure FirstComparable (now : Timex) (msg : Message) (set : McmsgSet) (i : Nat)
    (e : McmsgEntry) : Prop where
  at_slot : set[i]? = some e
  live : e.Live now
  comparable : isComparable e.data msg = true
  first : ∀ j e', j < i → set[j]? = some e' → e'.Live now → isComparable e'.data msg = false

/-- There is only one first entry. -/
theorem FirstComparable.unique {now : Timex} {msg : Message} {set : McmsgSet} {i j : Nat}
    {e f : McmsgEntry} (he : FirstComparable now msg set i e)
    (hf : FirstComparable now msg set j f) : i = j ∧ e = f := by
  have hij : i = j := by
    rcases Nat.lt_trichotomy i j with h | h | h
    · have := hf.first i e h he.at_slot he.live
      rw [he.comparable] at this
      cases this
    · exact h
    · have := he.first j f h hf.at_slot hf.live
      rw [hf.comparable] at this
      cases this
  subst hij
  have := he.at_slot.symm.trans hf.at_slot
  exact ⟨rfl, Option.some.inj this⟩

/-- A slot that `findComparableEntry` stops at once touched. -/
theorem findComparable_hit_iff {now : Timex} {msg : Message} {e : McmsgEntry} :
    ((mcmsgResetEntryIfStale now e).used &&
        isComparable (mcmsgResetEntryIfStale now e).data msg) = true ↔
      e.Live now ∧ isComparable e.data msg = true := by
  rw [Bool.and_eq_true, mcmsgReset_used_iff]
  constructor
  · rintro ⟨hl, hc⟩
    rw [mcmsgReset_live hl] at hc
    exact ⟨hl, hc⟩
  · rintro ⟨hl, hc⟩
    rw [mcmsgReset_live hl]
    exact ⟨hl, hc⟩

/-- `findComparableEntry` returns the first live comparable entry, and the
pointer it returns reads the entry as it was. -/
theorem findComparable_some {now : Timex} {msg : Message} {set : McmsgSet} {i : Nat}
    (h : (findComparableEntry now msg set).2 = some i) :
    ∃ e, FirstComparable now msg set i e ∧ (findComparableEntry now msg set).1[i]? = some e := by
  obtain ⟨e, he, hhit, hat, hbefore, -⟩ := scan_some _ _ h
  obtain ⟨hlive, hcomp⟩ := findComparable_hit_iff.mp hhit
  refine ⟨e, ⟨he, hlive, hcomp, ?_⟩, ?_⟩
  · intro j e' hj he' hlive'
    have := (hbefore j e' hj he').2
    rw [Bool.eq_false_iff]
    intro hc
    rw [findComparable_hit_iff.mpr ⟨hlive', hc⟩] at this
    cases this
  · rw [mcmsgReset_live hlive] at hat
    exact hat

/-- It returns nothing exactly when no live entry is comparable. -/
theorem findComparable_none {now : Timex} {msg : Message} {set : McmsgSet}
    (h : (findComparableEntry now msg set).2 = none) :
    ∀ e ∈ set, e.Live now → isComparable e.data msg = false := by
  intro e he hlive
  obtain ⟨i, hi⟩ := List.mem_iff_getElem?.mp he
  have := (scan_none _ _ h i e hi).2
  rw [Bool.eq_false_iff]
  intro hc
  rw [findComparable_hit_iff.mpr ⟨hlive, hc⟩] at this
  cases this

theorem findComparable_eq_some_iff {now : Timex} {msg : Message} {set : McmsgSet} {i : Nat} :
    (findComparableEntry now msg set).2 = some i ↔ ∃ e, FirstComparable now msg set i e := by
  constructor
  · intro h
    obtain ⟨e, he, -⟩ := findComparable_some h
    exact ⟨e, he⟩
  · rintro ⟨e, he⟩
    cases h : (findComparableEntry now msg set).2 with
    | none =>
      have := findComparable_none h e (List.mem_of_getElem? he.at_slot) he.live
      rw [he.comparable] at this
      cases this
    | some j =>
      obtain ⟨f, hf, -⟩ := findComparable_some h
      rw [(he.unique hf).1]

/-- A live comparable entry means there is a first one, at its slot or before. -/
theorem exists_firstComparable {now : Timex} {msg : Message} {set : McmsgSet} {i : Nat}
    {e : McmsgEntry} (hi : set[i]? = some e) (hlive : e.Live now)
    (hcomp : isComparable e.data msg = true) :
    ∃ f g, FirstComparable now msg set f g ∧ f ≤ i := by
  obtain ⟨j, hj, hji⟩ := scan_hits (fun _ => mcmsgResetEntryIfStale now)
    (fun _ entry => entry.used && isComparable entry.data msg) hi
    (findComparable_hit_iff.mpr ⟨hlive, hcomp⟩)
  obtain ⟨g, hg⟩ := findComparable_eq_some_iff.mp hj
  exact ⟨j, g, hg, hji⟩

/-- A live entry survives the walk unchanged. -/
theorem findComparable_live {now : Timex} {msg : Message} {set : McmsgSet} {i : Nat}
    {e : McmsgEntry} (hi : set[i]? = some e) (hlive : e.Live now) :
    (findComparableEntry now msg set).1[i]? = some e := by
  have hlt : i < set.length := (List.getElem?_eq_some_iff.mp hi).1
  have hlt' : i < (findComparableEntry now msg set).1.length := by
    simpa [findComparableEntry] using hlt
  have hat : (findComparableEntry now msg set).1[i]? =
      some (findComparableEntry now msg set).1[i] := List.getElem?_eq_getElem hlt'
  obtain ⟨x, hx, hy⟩ := scan_getElem? (fun _ => mcmsgResetEntryIfStale now)
    (fun _ entry => entry.used && isComparable entry.data msg) hat
  rw [hi] at hx
  cases hx
  rw [List.getElem?_eq_getElem hlt']
  rcases hy with hy | hy
  · rw [hy, mcmsgReset_live hlive]
  · rw [hy]

/-- Every slot after the walk is as before, or a stale slot that was zeroed. -/
theorem findComparable_slot {now : Timex} {msg : Message} {set : McmsgSet} {i : Nat}
    {e : McmsgEntry} (hi : (findComparableEntry now msg set).1[i]? = some e) :
    set[i]? = some e ∨ ∃ x, set[i]? = some x ∧ ¬ x.Live now ∧ e = {} := by
  obtain ⟨x, hx, hy⟩ := scan_getElem? _ _ hi
  rcases hy with rfl | rfl
  · rcases mcmsgReset_cases now x with h | ⟨hdead, h⟩
    · rw [h]
      exact Or.inl hx
    · exact Or.inr ⟨x, hx, hdead, h⟩
  · exact Or.inl hx

/-! ## The verdict -/

/-- What an entry records of the RREQs of its class, and what an RREQ
brings: OrigSeqNum and metric. -/
abbrev RreqRecord := SeqNum × UInt8

def Mcmsg.record (e : Mcmsg) : RreqRecord := (e.origSeqnum, e.metric)

def Message.origRecord (msg : Message) : RreqRecord := (msg.origNode.seqnum, msg.origNode.metric)

/-- `r'` beats `r`: a newer sequence number, or the same one at a smaller
metric. Serial-number comparison is not transitive, so this is a relation
between two records and not an order. -/
def Beats (r r' : RreqRecord) : Prop :=
  0 < seqnumCmp r.1 r'.1 ∨ (r.1 = r'.1 ∧ r'.2 < r.2)

instance (r r' : RreqRecord) : Decidable (Beats r r') := inferInstanceAs (Decidable (_ ∨ _))

/-- The test the code makes against the comparable entry: not older, and
not the same sequence number at the SAME metric. -/
def PassesEntry (e : Mcmsg) (msg : Message) : Prop :=
  0 < seqnumCmp e.origSeqnum msg.origNode.seqnum ∨
    (e.origSeqnum = msg.origNode.seqnum ∧ e.metric ≠ msg.origNode.metric)

instance (e : Mcmsg) (msg : Message) : Decidable (PassesEntry e msg) :=
  inferInstanceAs (Decidable (_ ∨ _))

/-- Every live entry of the message's class other than slot `i` is costlier. -/
def OthersCostlier (now : Timex) (msg : Message) (set : McmsgSet) (i : Nat) : Prop :=
  ∀ j e, j ≠ i → set[j]? = some e → e.Live now → isCompatible e.data msg = true →
    msg.origNode.metric < e.data.metric

/-- What the set lets through, as a predicate on the set, the time and the
message. -/
def McmsgAdmits (now : Timex) (msg : Message) (set : McmsgSet) : Prop :=
  ∀ i e, FirstComparable now msg set i e →
    PassesEntry e.data msg ∧ OthersCostlier now msg set i

/-- The two early returns, negated. -/
theorem passesEntry_iff {e : Mcmsg} {msg : Message} :
    PassesEntry e msg ↔
      ¬ seqnumCmp e.origSeqnum msg.origNode.seqnum < 0 ∧
      ¬ (seqnumCmp e.origSeqnum msg.origNode.seqnum = 0 ∧ e.metric = msg.origNode.metric) := by
  unfold PassesEntry
  rw [← seqnumCmp_eq_zero_iff]
  by_cases hm : e.metric = msg.origNode.metric <;> simp only [hm, ne_eq, not_true_eq_false,
    not_false_eq_true, and_true, and_false, or_false] <;> omega

/-- A slot that the last loop stops at once touched. -/
theorem mcmsgCheckCompatible_hit_iff {now : Timex} {msg : Message} {i j : Nat}
    {upd g : McmsgEntry} (hcls : isCompatible upd.data msg = true)
    (hmet : upd.data.metric = msg.origNode.metric) :
    let touched := if j = i then g else mcmsgResetEntryIfStale now g
    (j != i && touched.used && isCompatibleMcmsg upd.data touched.data &&
        decide (touched.data.metric ≤ upd.data.metric)) = true ↔
      j ≠ i ∧ g.Live now ∧ isCompatible g.data msg = true ∧
        g.data.metric ≤ msg.origNode.metric := by
  intro touched
  by_cases hj : j = i
  · simp [hj]
  · have ht : touched = mcmsgResetEntryIfStale now g := if_neg hj
    simp only [Bool.and_eq_true, bne_iff_ne, decide_eq_true_eq, ht, mcmsgReset_used_iff, hmet,
      and_assoc]
    constructor
    · rintro ⟨-, hlive, hcomp, hle⟩
      rw [mcmsgReset_live hlive] at hcomp hle
      exact ⟨hj, hlive, (isCompatibleMcmsg_iff hcls).mp hcomp, hle⟩
    · rintro ⟨-, hlive, hcomp, hle⟩
      rw [mcmsgReset_live hlive]
      exact ⟨hj, hlive, (isCompatibleMcmsg_iff hcls).mpr hcomp, hle⟩

/-- The last loop rejects exactly when some other live entry of the class
is no worse than the message. -/
theorem mcmsgCheckCompatible_none_iff {now : Timex} {msg : Message} {set : McmsgSet} {i : Nat}
    {upd : McmsgEntry} (hcls : isCompatible upd.data msg = true)
    (hmet : upd.data.metric = msg.origNode.metric) :
    (mcmsgCheckCompatible now i upd ((findComparableEntry now msg set).1.set i upd)).2 = none ↔
      OthersCostlier now msg set i := by
  constructor
  · intro h j g hj hg hlive hcomp
    have hg' : ((findComparableEntry now msg set).1.set i upd)[j]? = some g := by
      rw [List.getElem?_set_ne (Ne.symm hj)]
      exact findComparable_live hg hlive
    have hno := (scan_none _ _ h j g hg').2
    rw [Bool.eq_false_iff] at hno
    refine UInt8.not_le.mp fun hle => hno ?_
    exact (mcmsgCheckCompatible_hit_iff hcls hmet).mpr ⟨hj, hlive, hcomp, hle⟩
  · intro h
    cases hc : (mcmsgCheckCompatible now i upd
      ((findComparableEntry now msg set).1.set i upd)).2 with
    | none => rfl
    | some j =>
      obtain ⟨g, hg, hhit, -⟩ := scan_some _ _ hc
      obtain ⟨hj, hlive, hcomp, hle⟩ := (mcmsgCheckCompatible_hit_iff hcls hmet).mp hhit
      rw [List.getElem?_set_ne (Ne.symm hj)] at hg
      have hg' : set[j]? = some g := by
        rcases findComparable_slot hg with h' | ⟨x, -, -, rfl⟩
        · exact h'
        · simp [McmsgEntry.Live] at hlive
      exact absurd hle (UInt8.not_le.mpr (h j g hj hg' hlive hcomp))

/-- The entry that a passing message leaves in the comparable slot. -/
def mcmsgUpdated (cfg : Conf) (now : Timex) (msg : Message) (e : McmsgEntry) : McmsgEntry :=
  mcmsgRecord msg (mcmsgTouch cfg now e)

/-- Everything `mcmsgProcess` can do: add a message of a new class,
refuse one that does not pass the comparable entry, or record one that
does and let the other entries of the class decide. -/
theorem mcmsgProcess_cases (cfg : Conf) (now : Timex) (msg : Message) (set : McmsgSet) :
    let found := findComparableEntry now msg set
    ((∀ i e, ¬ FirstComparable now msg set i e) ∧
      mcmsgProcess cfg now msg set = (.ok, (mcmsgAdd cfg now msg found.1).1)) ∨
    ∃ i e, FirstComparable now msg set i e ∧
      ((¬ PassesEntry e.data msg ∧
          mcmsgProcess cfg now msg set =
            (.redundant, found.1.set i (mcmsgTouch cfg now e))) ∨
        (PassesEntry e.data msg ∧ ¬ OthersCostlier now msg set i ∧
          mcmsgProcess cfg now msg set =
            (.redundant, (mcmsgCheckCompatible now i (mcmsgUpdated cfg now msg e)
              (found.1.set i (mcmsgUpdated cfg now msg e))).1)) ∨
        (PassesEntry e.data msg ∧ OthersCostlier now msg set i ∧
          mcmsgProcess cfg now msg set =
            (.ok, (mcmsgCheckCompatible now i (mcmsgUpdated cfg now msg e)
              (found.1.set i (mcmsgUpdated cfg now msg e))).1))) := by
  intro found
  cases hf : found.2 with
  | none =>
    refine Or.inl ⟨fun i e he => ?_, by simp only [mcmsgProcess, found, hf]⟩
    rw [show found.2 = some i from findComparable_eq_some_iff.mpr ⟨e, he⟩] at hf
    cases hf
  | some i =>
    obtain ⟨e, he, hat⟩ := findComparable_some hf
    refine Or.inr ⟨i, e, he, ?_⟩
    have hget : found.1[i]?.getD {} = e := by rw [show found.1[i]? = some e from hat]; rfl
    by_cases hp : PassesEntry e.data msg
    · obtain ⟨hlt, heq⟩ := passesEntry_iff.mp hp
      have hcls : isCompatible (mcmsgUpdated cfg now msg e).data msg = true :=
        isCompatible_of_isComparable he.comparable
      have hiff := @mcmsgCheckCompatible_none_iff now msg set i _ hcls rfl
      refine Or.inr ?_
      cases hc : (mcmsgCheckCompatible now i (mcmsgUpdated cfg now msg e)
          (found.1.set i (mcmsgUpdated cfg now msg e))).2 with
      | none =>
        refine Or.inr ⟨hp, hiff.mp hc, ?_⟩
        simp only [mcmsgUpdated] at hc
        simp only [mcmsgProcess, found, hf, hget, mcmsgUpdated, mcmsgTouch] at hc ⊢
        rw [if_neg hlt, if_neg heq, hc]
      | some j =>
        refine Or.inl ⟨hp, fun ho => ?_, ?_⟩
        · rw [hiff.mpr ho] at hc
          cases hc
        · simp only [mcmsgUpdated] at hc
          simp only [mcmsgProcess, found, hf, hget, mcmsgUpdated, mcmsgTouch] at hc ⊢
          rw [if_neg hlt, if_neg heq, hc]
    · refine Or.inl ⟨hp, ?_⟩
      rw [passesEntry_iff, not_and_or, not_not, not_not] at hp
      simp only [mcmsgProcess, found, hf, hget, mcmsgTouch] at hp ⊢
      by_cases hlt : seqnumCmp e.data.origSeqnum msg.origNode.seqnum < 0
      · rw [if_pos hlt]
      · rw [if_neg hlt, if_pos (hp.resolve_left hlt)]

/-- The verdict is OK exactly for the messages the set admits. -/
theorem mcmsgProcess_ok_iff (cfg : Conf) (now : Timex) (msg : Message) (set : McmsgSet) :
    (mcmsgProcess cfg now msg set).1 = .ok ↔ McmsgAdmits now msg set := by
  rcases mcmsgProcess_cases cfg now msg set with ⟨hno, h⟩ | ⟨i, e, he, h⟩
  · rw [h]
    exact ⟨fun _ i e he => absurd he (hno i e), fun _ => rfl⟩
  · have hadm : McmsgAdmits now msg set ↔ PassesEntry e.data msg ∧ OthersCostlier now msg set i := by
      constructor
      · intro h'
        exact h' i e he
      · intro h' j f hf
        obtain ⟨rfl, rfl⟩ := he.unique hf
        exact h'
    rw [hadm]
    rcases h with ⟨hp, h⟩ | ⟨hp, ho, h⟩ | ⟨hp, ho, h⟩ <;> rw [h] <;> simp [*]

end Turpial.Aodvv2
