/-
Turpial.Aodvv2.McMsgLeaseTheorems — how long the Multicast Message Set
remembers, and how much.

For messages without a SeqNoRtr, comparability is equality of class, and
the set keeps a lease for each class it has recorded. Expiry is lazy: a
walk that finds its class early leaves the slots behind it alone, so slots
whose lease has ended may stay in use for any length of time. None of this
shows in the leases: §2 proves that a call renews the lease of the
message's class in a bounded number of leases, whatever was cleared on the
way. §3 reads the promises about single entries off that.
-/
import Turpial.Lib.Lease
import Turpial.Aodvv2.McMsgTheorems

namespace Turpial.Aodvv2

open Turpial.Lib

/-! ## §1 Classes and entries -/

/-- OrigPrefix, OrigPrefixLength, TargPrefix and MetricType. -/
abbrev McmsgClass := Ipv6Addr × UInt8 × Ipv6Addr × RoutingMetric

def Mcmsg.class (e : Mcmsg) : McmsgClass :=
  (e.origPrefix, e.origPfxLen, e.targPrefix, e.metricType)

def Message.class (msg : Message) : McmsgClass :=
  (msg.origNode.addr, msg.origNode.pfxLen, msg.targNode.addr, msg.metricType)

/-- The class that a slot records. -/
def McmsgEntry.key (e : McmsgEntry) : Option McmsgClass :=
  if e.used then some e.data.class else none

/-- The time until which it does. -/
def McmsgEntry.till (e : McmsgEntry) : Timex := e.data.removalTime

theorem isCompatible_iff_class {e : Mcmsg} {msg : Message} :
    isCompatible e msg = true ↔ e.class = msg.class := by
  simp only [isCompatible, Mcmsg.class, Message.class, Bool.and_eq_true, beq_iff_eq, Prod.mk.injEq,
    and_assoc]

/-- A slot holds the lease of a class exactly when its entry is live. -/
theorem heldKey_iff_live {now : Timex} {e : McmsgEntry} {c : McmsgClass} :
    heldKey McmsgEntry.key McmsgEntry.till now e = some c ↔ e.Live now ∧ e.data.class = c := by
  rw [heldKey_eq_some]
  unfold McmsgEntry.key McmsgEntry.till McmsgEntry.Live
  cases e.used <;> simp [and_comm]

theorem heldKey_none_iff {now : Timex} {e : McmsgEntry} :
    heldKey McmsgEntry.key McmsgEntry.till now e = none ↔ ¬ e.Live now := by
  rw [Option.eq_none_iff_forall_ne_some]
  constructor
  · intro h hlive
    exact h e.data.class (heldKey_iff_live.mpr ⟨hlive, rfl⟩)
  · intro h c hc
    exact h (heldKey_iff_live.mp hc).1

/-- Without a SeqNoRtr on either side, comparable means of one class. -/
theorem isComparable_iff_class {set : McmsgSet} (hno : NoSeqnortr set) {e : McmsgEntry}
    (he : e ∈ set) {msg : Message} (hmsg : msg.seqnortr = ipv6AddrUnspecified) :
    isComparable e.data msg = true ↔ e.data.class = msg.class := by
  rw [isComparable_iff, isCompatible_iff_class, hno e he, hmsg]
  exact and_iff_left rfl

/-- No unexpired entry is comparable with the message. -/
def NoComparable (now : Timex) (msg : Message) (set : McmsgSet) : Prop :=
  ∀ e ∈ set, e.Live now → isComparable e.data msg = false

instance (now : Timex) (msg : Message) (set : McmsgSet) : Decidable (NoComparable now msg set) :=
  inferInstanceAs (Decidable (∀ e ∈ set, _))

theorem noComparable_iff {now : Timex} {msg : Message} {set : McmsgSet} :
    NoComparable now msg set ↔ ∀ i e, ¬ FirstComparable now msg set i e := by
  constructor
  · intro h i e he
    have hcomp := h e (List.mem_of_getElem? he.at_slot) he.live
    rw [he.comparable] at hcomp
    cases hcomp
  · intro h e he hlive
    obtain ⟨i, hi⟩ := List.getElem?_of_mem he
    rw [Bool.eq_false_iff]
    intro hcomp
    obtain ⟨j, g, hg, -⟩ := exists_firstComparable hi hlive hcomp
    exact h j g hg

/-! ## §2 The set keeps a bounded number of leases -/

/-- What every call keeps: the set tracks the leases `m`, and no entry
outlasts a lifetime. -/
structure McmsgInv (cfg : Conf) (n : Nat) (now : Timex) (set : McmsgSet)
    (m : Leases McmsgClass) : Prop where
  size : set.length = n
  noSeqnortr : NoSeqnortr set
  tracks : Tracks McmsgEntry.key McmsgEntry.till now set m
  fresh : ∀ e ∈ set, e.used = true → e.data.removalTime ≤ now + cfg.maxSeqnumLifetime

theorem mcmsgInv_init (cfg : Conf) (n : Nat) (now : Timex) :
    McmsgInv cfg n now (mcmsgInit n) (fun _ => none) where
  size := List.length_replicate
  noSeqnortr := noSeqnortr_init n
  tracks := tracks_none fun e he => by
    rw [List.eq_of_mem_replicate he]
    rfl
  fresh := by
    intro e he hused
    rw [List.eq_of_mem_replicate he] at hused
    cases hused

theorem McmsgInv.later {cfg : Conf} {n : Nat} {now now' : Timex} {set : McmsgSet}
    {m : Leases McmsgClass} (h : McmsgInv cfg n now set m) (hle : now ≤ now') :
    McmsgInv cfg n now' set m where
  size := h.size
  noSeqnortr := h.noSeqnortr
  tracks := h.tracks.later hle
  fresh := fun e he hused => (h.fresh e he hused).trans (Nat.add_le_add_right hle _)

section Sweeps

variable {now : Timex} {set : McmsgSet} {m : Leases McmsgClass}

theorem heldKey_zeroed : heldKey McmsgEntry.key McmsgEntry.till now {} = none :=
  heldKey_none_iff.mpr fun h => nomatch h.1

/-- The first walk clears slots without a lease. -/
theorem findComparable_tracks {msg : Message}
    (h : Tracks McmsgEntry.key McmsgEntry.till now set m) :
    Tracks McmsgEntry.key McmsgEntry.till now (findComparableEntry now msg set).1 m := by
  apply h.swept
  · intro i e hi
    rcases findComparable_slot hi with hi | ⟨-, -, -, rfl⟩
    · exact Or.inl hi
    · exact Or.inr heldKey_zeroed
  · intro i e c hi hc
    exact findComparable_live hi (heldKey_iff_live.mp hc).1

/-- And so does the last one. -/
theorem mcmsgCheckCompatible_tracks {i : Nat} {upd : McmsgEntry}
    (h : Tracks McmsgEntry.key McmsgEntry.till now set m) :
    Tracks McmsgEntry.key McmsgEntry.till now (mcmsgCheckCompatible now i upd set).1 m := by
  apply h.swept
  · intro k e hk
    rcases mcmsgCheckCompatible_slot_cases hk with hk | ⟨-, rfl⟩
    · exact Or.inl hk
    · exact Or.inr heldKey_zeroed
  · intro k e c hk hc
    exact mcmsgCheckCompatible_slot hk (Or.inr (heldKey_iff_live.mp hc).1)

end Sweeps

/-- A walk that finds nothing has cleared every slot without a lease. -/
theorem findComparable_swept {now : Timex} {msg : Message} {set : McmsgSet}
    (hnone : (findComparableEntry now msg set).2 = none) {i : Nat} {e : McmsgEntry}
    (hi : set[i]? = some e) :
    ∃ e', (findComparableEntry now msg set).1[i]? = some e' ∧ (e'.used = true ↔ e.Live now) :=
  ⟨mcmsgResetEntryIfStale now e, (scan_none _ _ hnone i e hi).1, mcmsgReset_used_iff⟩

/-- The slots it left in use hold leases. -/
theorem findComparable_used {now : Timex} {msg : Message} {set : McmsgSet}
    (hnone : (findComparableEntry now msg set).2 = none) {e : McmsgEntry}
    (he : e ∈ (findComparableEntry now msg set).1) (hused : e.used = true) : e.Live now := by
  obtain ⟨i, hi⟩ := List.getElem?_of_mem he
  obtain ⟨x, hx, -⟩ := scan_getElem? _ _ hi
  obtain ⟨e', he', hiff⟩ := findComparable_swept hnone hx
  rw [hi, Option.some.injEq] at he'
  subst he'
  have hlive := hiff.mp hused
  have hkept : some e = some x := hi.symm.trans (findComparable_live hx hlive)
  cases hkept
  exact hlive

theorem mcmsgStep_length (cfg : Conf) (l : Timex × Message) (set : McmsgSet) :
    (mcmsgStep cfg l set).length = set.length := by
  unfold mcmsgStep
  rcases mcmsgProcess_cases cfg l.1 l.2 set with
    ⟨-, h⟩ | ⟨i, e, -, ⟨-, h⟩ | ⟨-, -, h⟩ | ⟨-, -, h⟩⟩ <;>
    rw [h] <;> simp [mcmsgAdd, mcmsgCheckCompatible, findComparableEntry]

/-! What a call writes ends a lifetime from now. (The removal time is read
off first: comparing the ends as they stand unfolds the lifetime.) -/

theorem till_of_removalTime {e : McmsgEntry} {t : Timex} (h : e.data.removalTime = t) :
    e.till = t := h

theorem mcmsgFill_till (cfg : Conf) (now : Timex) (msg : Message) (e : McmsgEntry) :
    (mcmsgFill cfg now msg e).till = now + cfg.maxSeqnumLifetime :=
  till_of_removalTime rfl

theorem mcmsgTouch_till (cfg : Conf) (now : Timex) (e : McmsgEntry) :
    (mcmsgTouch cfg now e).till = now + cfg.maxSeqnumLifetime :=
  till_of_removalTime rfl

theorem mcmsgUpdated_till (cfg : Conf) (now : Timex) (msg : Message) (e : McmsgEntry) :
    (mcmsgUpdated cfg now msg e).till = now + cfg.maxSeqnumLifetime :=
  till_of_removalTime rfl

/-- A call renews the lease of its class, if there is room for it. -/
theorem mcmsgStep_tracks (cfg : Conf) {l : Timex × Message} {set : McmsgSet}
    {m : Leases McmsgClass} (hno : NoSeqnortr set) (hmsg : l.2.seqnortr = ipv6AddrUnspecified)
    (h : Tracks McmsgEntry.key McmsgEntry.till l.1 set m) :
    Tracks McmsgEntry.key McmsgEntry.till l.1 (mcmsgStep cfg l set)
      (m.renew set.length l.1 (l.1 + cfg.maxSeqnumLifetime) l.2.class) := by
  obtain ⟨now, msg⟩ := l
  dsimp only at hmsg h ⊢
  have hfound := @findComparable_tracks _ _ _ msg h
  have hlength : (findComparableEntry now msg set).1.length = set.length := by
    simp [findComparableEntry]
  rw [← hlength]
  unfold mcmsgStep
  rcases mcmsgProcess_cases cfg now msg set with ⟨hfirst, heq⟩ | ⟨i, e, he, heq⟩
  · have hnone : (findComparableEntry now msg set).2 = none := by
      cases hr : (findComparableEntry now msg set).2 with
      | none => rfl
      | some i =>
        obtain ⟨e, he⟩ := findComparable_eq_some_iff.mp hr
        exact absurd he (hfirst i e)
    have hnew : msg.class ∉ m.held now := by
      rw [h.mem_held_iff]
      rintro ⟨e, he, hkey⟩
      obtain ⟨hlive, hclass⟩ := heldKey_iff_live.mp hkey
      have hcomp := noComparable_iff.mpr hfirst e he hlive
      rw [(isComparable_iff_class hno he hmsg).mpr hclass] at hcomp
      cases hcomp
    rw [heq]
    unfold mcmsgAdd
    cases hadd : (fillFree (fun entry => !entry.used) (mcmsgFill cfg now msg)
        (findComparableEntry now msg set).1).2 with
    | none =>
      obtain ⟨hsame, hfull⟩ := fillFree_none _ _ hadd
      rw [hsame, hfound.full _ hnew]
      · exact hfound
      · intro e he hkey
        have hused : e.used = true := by simpa using hfull e he
        exact heldKey_none_iff.mp hkey (findComparable_used hnone he hused)
    | some j =>
      obtain ⟨x, hx, hfree, hset⟩ := fillFree_some _ _ hadd
      rw [hset, ← mcmsgFill_till cfg now msg x]
      refine hfound.write hx rfl (Or.inr ⟨heldKey_none_iff.mpr fun hlive => ?_, hnew⟩)
      rw [hlive.1] at hfree
      cases hfree
  · have hat := @findComparable_live _ msg _ _ _ he.at_slot he.live
    have hclass : e.data.class = msg.class :=
      (isComparable_iff_class hno (List.mem_of_getElem? he.at_slot) hmsg).mp he.comparable
    have hheld : heldKey McmsgEntry.key McmsgEntry.till now e = some msg.class :=
      heldKey_iff_live.mpr ⟨he.live, hclass⟩
    have htouch : (mcmsgTouch cfg now e).key = some msg.class := by
      rw [← hclass]
      exact if_pos he.live.1
    have hupdated : (mcmsgUpdated cfg now msg e).key = some msg.class := htouch
    rcases heq with ⟨-, heq⟩ | ⟨-, -, heq⟩ | ⟨-, -, heq⟩ <;> rw [heq]
    · rw [← mcmsgTouch_till cfg now e]
      exact hfound.write hat htouch (Or.inl hheld)
    · rw [← mcmsgUpdated_till cfg now msg e]
      exact mcmsgCheckCompatible_tracks (hfound.write hat hupdated (Or.inl hheld))
    · rw [← mcmsgUpdated_till cfg now msg e]
      exact mcmsgCheckCompatible_tracks (hfound.write hat hupdated (Or.inl hheld))

/-- A call puts the end of a lease a lifetime ahead, or leaves it. -/
theorem mcmsgStep_fresh (cfg : Conf) {l : Timex × Message} {set : McmsgSet}
    (h : ∀ e ∈ set, e.used = true → e.data.removalTime ≤ l.1 + cfg.maxSeqnumLifetime) :
    ∀ e ∈ mcmsgStep cfg l set, e.used = true →
      e.data.removalTime ≤ l.1 + cfg.maxSeqnumLifetime := by
  intro e he hused
  obtain ⟨k, hk⟩ := List.getElem?_of_mem he
  rcases mcmsgProcess_slot_cases cfg l.1 l.2 hk with hk | rfl | ⟨-, x, -, -, rfl⟩ |
      ⟨f, -, rfl | rfl⟩
  · exact h e (List.mem_of_getElem? hk) hused
  · cases hused
  · exact Nat.le_refl _
  · exact Nat.le_refl _
  · exact Nat.le_refl _

/-- The step of the leases that a call corresponds to. -/
noncomputable def leaseStep (cfg : Conf) (n : Nat) (l : Timex × Message)
    (m : Leases McmsgClass) : Leases McmsgClass :=
  m.renew n l.1 (l.1 + cfg.maxSeqnumLifetime) l.2.class

theorem McmsgInv.step {cfg : Conf} {n : Nat} {l : Timex × Message} {set : McmsgSet}
    {m : Leases McmsgClass} (h : McmsgInv cfg n l.1 set m)
    (hmsg : l.2.seqnortr = ipv6AddrUnspecified) :
    McmsgInv cfg n l.1 (mcmsgStep cfg l set) (leaseStep cfg n l m) where
  size := (mcmsgStep_length cfg l set).trans h.size
  noSeqnortr := mcmsgStep_noSeqnortr cfg l h.noSeqnortr
  tracks := by
    have htracks := mcmsgStep_tracks cfg h.noSeqnortr hmsg h.tracks
    rw [h.size] at htracks
    exact htracks
  fresh := mcmsgStep_fresh cfg h.fresh

/-- The times of the messages do not decrease. -/
def InOrder (ls : List (Timex × Message)) : Prop := ls.Pairwise fun l l' => l.1 ≤ l'.1

instance (ls : List (Timex × Message)) : Decidable (InOrder ls) :=
  inferInstanceAs (Decidable (ls.Pairwise _))

/-- No message carries a SeqNoRtr. -/
def WithoutSeqnortr (ls : List (Timex × Message)) : Prop :=
  ∀ l ∈ ls, l.2.seqnortr = ipv6AddrUnspecified

instance (ls : List (Timex × Message)) : Decidable (WithoutSeqnortr ls) :=
  inferInstanceAs (Decidable (∀ l ∈ ls, _))

/-- Whole runs keep the invariant, up to any time they have reached. -/
theorem mcmsgInv_run {cfg : Conf} {n : Nat} (ls : List (Timex × Message)) {now later : Timex}
    {set : McmsgSet} {m : Leases McmsgClass} (h : McmsgInv cfg n now set m)
    (hplain : WithoutSeqnortr ls) (horder : InOrder ls) (hstart : ∀ l ∈ ls, now ≤ l.1)
    (hend : ∀ l ∈ ls, l.1 ≤ later) (hle : now ≤ later) :
    McmsgInv cfg n later (run (mcmsgStep cfg) ls set) (run (leaseStep cfg n) ls m) := by
  induction ls generalizing now set m with
  | nil => exact h.later hle
  | cons l ls ih =>
    obtain ⟨hfirst, hrest⟩ := List.pairwise_cons.mp horder
    have hstep := (h.later (hstart l List.mem_cons_self)).step (hplain l List.mem_cons_self)
    exact ih hstep (fun l' hl' => hplain l' (List.mem_cons_of_mem _ hl')) hrest hfirst
      (fun l' hl' => hend l' (List.mem_cons_of_mem _ hl')) (hend l List.mem_cons_self)

/-! ## §3 Retention and capacity -/

/-- The number of unexpired entries. -/
def liveCount (now : Timex) (set : McmsgSet) : Nat :=
  set.countP fun e => decide (e.Live now)

theorem liveCount_lt_iff {now : Timex} {set : McmsgSet} :
    liveCount now set < set.length ↔ ∃ e ∈ set, ¬ e.Live now := by
  have hle : liveCount now set ≤ set.length := List.countP_le_length
  have heq : liveCount now set = set.length ↔ ∀ e ∈ set, e.Live now := by
    simp [liveCount]
  constructor
  · intro hlt
    by_contra hall
    push Not at hall
    exact Nat.ne_of_lt hlt (heq.mpr hall)
  · rintro ⟨e, he, hdead⟩
    exact Nat.lt_of_le_of_ne hle fun hfull => hdead (heq.mp hfull e he)

/-- An unexpired entry records the message just processed. -/
structure RecordOf (cfg : Conf) (now : Timex) (msg : Message) (e : McmsgEntry) : Prop where
  live : e.Live now
  comparable : isComparable e.data msg = true
  record : e.data.record = msg.origRecord
  removal : e.data.removalTime = now + cfg.maxSeqnumLifetime

/-- What a call does to the unexpired entry `e`, now `e'`: nothing, unless
the message is comparable with it. Then the entry is moved to a removal
time one lifetime ahead. -/
structure Keeps (cfg : Conf) (now : Timex) (msg : Message) (e e' : McmsgEntry) : Prop where
  live : e'.Live now
  sameClass : SameClass e.data e'.data
  untouched : isComparable e.data msg = false → e' = e
  moved : isComparable e.data msg = true → e'.data.removalTime = now + cfg.maxSeqnumLifetime

/-- What the set promises of one call. -/
structure Retains (cfg : Conf) (n : Nat) (now : Timex) (msg : Message) (set : McmsgSet) :
    Prop where
  admitted : NoComparable now msg set → (mcmsgProcess cfg now msg set).1 = .ok
  recorded : NoComparable now msg set →
    ((∃ e ∈ mcmsgStep cfg (now, msg) set, RecordOf cfg now msg e) ↔ liveCount now set < n)
  kept : ∀ (i : Nat) (e : McmsgEntry), set[i]? = some e → e.Live now →
    ∃ e', (mcmsgStep cfg (now, msg) set)[i]? = some e' ∧ Keeps cfg now msg e e'

theorem admitted_of_noComparable (cfg : Conf) {now : Timex} {msg : Message} {set : McmsgSet}
    (h : NoComparable now msg set) : (mcmsgProcess cfg now msg set).1 = .ok := by
  rw [mcmsgProcess_ok_iff]
  intro i e he
  exact absurd he (noComparable_iff.mp h i e)

/-- A message of a new class is recorded exactly when some entry is not live. -/
theorem recorded_iff (cfg : Conf) {now : Timex} {msg : Message} {set : McmsgSet}
    (hno : NoSeqnortr set) (hmsg : msg.seqnortr = ipv6AddrUnspecified)
    (h : NoComparable now msg set) :
    (∃ e ∈ mcmsgStep cfg (now, msg) set, RecordOf cfg now msg e) ↔
      ∃ e ∈ set, ¬ e.Live now := by
  constructor
  · rintro ⟨e, he, hrec⟩
    obtain ⟨k, hk⟩ := List.getElem?_of_mem he
    rcases mcmsgProcess_slot_cases cfg now msg hk with hk | rfl | ⟨-, x, hx, hfree, -⟩ |
        ⟨f, hf, -⟩
    · have hcomp := h e (List.mem_of_getElem? hk) hrec.live
      rw [hrec.comparable] at hcomp
      cases hcomp
    · exact absurd hrec.live fun h => nomatch h.1
    · -- The free slot was free before the walk, or was cleared by it.
      rcases findComparable_slot hx with hx | ⟨y, hy, hdead, -⟩
      · refine ⟨x, List.mem_of_getElem? hx, fun hlive => ?_⟩
        rw [hlive.1] at hfree
        cases hfree
      · exact ⟨y, List.mem_of_getElem? hy, hdead⟩
    · exact absurd hf (noComparable_iff.mp h k f)
  · rintro ⟨e, he, hdead⟩
    have hnone : (findComparableEntry now msg set).2 = none := by
      cases hr : (findComparableEntry now msg set).2 with
      | none => rfl
      | some i =>
        obtain ⟨f, hf⟩ := findComparable_eq_some_iff.mp hr
        exact absurd hf (noComparable_iff.mp h i f)
    obtain ⟨i, hi⟩ := List.getElem?_of_mem he
    obtain ⟨e', he', hiff⟩ := findComparable_swept hnone hi
    have hfree : (!e'.used) = true := by
      rw [Bool.not_eq_true', Bool.eq_false_iff]
      exact fun hused => hdead (hiff.mp hused)
    obtain ⟨j, hj⟩ := fillFree_of_free (fun entry : McmsgEntry => !entry.used)
      (mcmsgFill cfg now msg) (List.mem_of_getElem? he') hfree
    obtain ⟨f, hf, hused, hcomp, hrec, hremoval⟩ :=
      (holdsOnce_of_records hno hmsg ⟨hnone, hj⟩).entry
    refine ⟨f, List.mem_of_getElem? hf, ⟨hused, ?_⟩, hcomp, hrec, hremoval⟩
    rw [hremoval]
    exact Nat.le_add_right _ _

/-- An unexpired comparable entry is the one the message is judged by. -/
theorem firstComparable_of_class {now : Timex} {msg : Message} {set : McmsgSet}
    {m : Leases McmsgClass} (hno : NoSeqnortr set)
    (hmsg : msg.seqnortr = ipv6AddrUnspecified)
    (htracks : Tracks McmsgEntry.key McmsgEntry.till now set m) {i : Nat} {e : McmsgEntry}
    (hi : set[i]? = some e) (hlive : e.Live now) (hcomp : isComparable e.data msg = true) :
    FirstComparable now msg set i e := by
  obtain ⟨j, f, hf, -⟩ := exists_firstComparable hi hlive hcomp
  have hclass : ∀ {k g}, set[k]? = some g → g.Live now → isComparable g.data msg = true →
      heldKey McmsgEntry.key McmsgEntry.till now g = some msg.class := fun hk hg hc =>
    heldKey_iff_live.mpr ⟨hg, (isComparable_iff_class hno (List.mem_of_getElem? hk) hmsg).mp hc⟩
  have hij : i = j := htracks.distinct.unique hi hf.at_slot (hclass hi hlive hcomp)
    (hclass hf.at_slot hf.live hf.comparable)
  subst hij
  have heq : e = f := Option.some.inj (hi.symm.trans hf.at_slot)
  rw [heq]
  exact hf

/-- What a call does to an unexpired entry. -/
theorem mcmsgStep_keeps (cfg : Conf) {now : Timex} {msg : Message} {set : McmsgSet}
    {m : Leases McmsgClass} (hno : NoSeqnortr set)
    (hmsg : msg.seqnortr = ipv6AddrUnspecified)
    (htracks : Tracks McmsgEntry.key McmsgEntry.till now set m) {i : Nat} {e : McmsgEntry}
    (hi : set[i]? = some e) (hlive : e.Live now) :
    ∃ e', (mcmsgStep cfg (now, msg) set)[i]? = some e' ∧ Keeps cfg now msg e e' := by
  obtain ⟨e', he', hcase⟩ := mcmsgProcess_live_slot cfg msg hi hlive
  refine ⟨e', he', ?_⟩
  rcases hcase with ⟨rfl, hother⟩ | ⟨hfirst, hcase⟩
  · have hnot : ¬ isComparable e'.data msg = true := fun hcomp =>
      hother (firstComparable_of_class hno hmsg htracks hi hlive hcomp)
    exact ⟨hlive, ⟨by simp [isCompatibleMcmsg], rfl⟩, fun _ => rfl, fun hcomp => absurd hcomp hnot⟩
  · -- The entry is touched, and perhaps records the message as well.
    have hcomp := hfirst.comparable
    have hahead : now ≤ now + cfg.maxSeqnumLifetime := Nat.le_add_right _ _
    have hnot : isComparable e.data msg = false → e' = e := fun hc => by
      rw [hcomp] at hc
      cases hc
    rcases hcase with ⟨-, rfl⟩ | ⟨-, rfl⟩
    · exact ⟨⟨hlive.1, hahead⟩, ⟨by simp [isCompatibleMcmsg, mcmsgTouch], rfl⟩, hnot,
        fun _ => rfl⟩
    · exact ⟨⟨hlive.1, hahead⟩,
        ⟨by simp [isCompatibleMcmsg, mcmsgUpdated, mcmsgRecord, mcmsgTouch], rfl⟩, hnot,
        fun _ => rfl⟩

theorem McmsgInv.retains {cfg : Conf} {n : Nat} {now : Timex} {msg : Message} {set : McmsgSet}
    {m : Leases McmsgClass} (h : McmsgInv cfg n now set m)
    (hmsg : msg.seqnortr = ipv6AddrUnspecified) : Retains cfg n now msg set where
  admitted := admitted_of_noComparable cfg
  recorded := by
    intro hnew
    rw [recorded_iff cfg h.noSeqnortr hmsg hnew, ← liveCount_lt_iff, h.size]
  kept := fun _ _ hi hlive => mcmsgStep_keeps cfg h.noSeqnortr hmsg h.tracks hi hlive

theorem SameClass.trans {a b c : Mcmsg} (hab : SameClass a b) (hbc : SameClass b c) :
    SameClass a c := by
  simp only [SameClass, isCompatibleMcmsg, Bool.and_eq_true, beq_iff_eq] at hab hbc ⊢
  obtain ⟨⟨⟨⟨h₁, h₂⟩, h₃⟩, h₄⟩, h₅⟩ := hab
  rw [h₁, h₂, h₃, h₄, h₅]
  exact hbc

/-- An entry stays in its slot up to its removal time, and only comparable
messages change it. -/
theorem mcmsgRun_keeps {cfg : Conf} {n : Nat} (ls : List (Timex × Message)) {now : Timex}
    {set : McmsgSet} {m : Leases McmsgClass} (h : McmsgInv cfg n now set m)
    (hplain : WithoutSeqnortr ls) (horder : InOrder ls) (hstart : ∀ l ∈ ls, now ≤ l.1)
    {i : Nat} {e : McmsgEntry} (hi : set[i]? = some e) (hused : e.used = true)
    (htimes : ∀ l ∈ ls, l.1 ≤ e.data.removalTime) :
    ∃ e', (run (mcmsgStep cfg) ls set)[i]? = some e' ∧ e'.used = true ∧
      SameClass e.data e'.data ∧ e.data.removalTime ≤ e'.data.removalTime ∧
      ((∀ l ∈ ls, isComparable e.data l.2 = false) → e' = e) := by
  induction ls generalizing now set m e with
  | nil =>
    exact ⟨e, hi, hused, ⟨by simp [isCompatibleMcmsg], rfl⟩, Nat.le_refl _, fun _ => rfl⟩
  | cons l ls ih =>
    obtain ⟨hfirst, hrest⟩ := List.pairwise_cons.mp horder
    have hinv := h.later (hstart l List.mem_cons_self)
    have hmsg := hplain l List.mem_cons_self
    obtain ⟨e₁, he₁, hkeeps⟩ := mcmsgStep_keeps cfg hinv.noSeqnortr hmsg hinv.tracks hi
      ⟨hused, htimes l List.mem_cons_self⟩
    -- A comparable message moves the removal time, but never back.
    have hremoval : e.data.removalTime ≤ e₁.data.removalTime := by
      cases hcomp : isComparable e.data l.2 with
      | false => rw [hkeeps.untouched hcomp]
      | true =>
        rw [hkeeps.moved hcomp]
        exact hinv.fresh e (List.mem_of_getElem? hi) hused
    obtain ⟨e₂, he₂, hused₂, hclass₂, hremoval₂, hsame₂⟩ := ih (hinv.step hmsg)
      (fun l' hl' => hplain l' (List.mem_cons_of_mem _ hl')) hrest hfirst he₁ hkeeps.live.1
      (fun l' hl' => (htimes l' (List.mem_cons_of_mem _ hl')).trans hremoval)
    refine ⟨e₂, he₂, hused₂, hkeeps.sameClass.trans hclass₂, hremoval.trans hremoval₂, ?_⟩
    intro hother
    have heq := hkeeps.untouched (hother l List.mem_cons_self)
    rw [hsame₂ fun l' hl' => by rw [heq]; exact hother l' (List.mem_cons_of_mem _ hl'), heq]

/-- **Retention and capacity of the McMsg set.** In every run of messages
without a SeqNoRtr at non-decreasing times, every call keeps the promises
of `Retains`; an entry stays in its slot at least up to the removal time
it has at any point of the run, and unchanged unless a comparable message
arrives; and the unexpired entries are the leases of a bounded set of
leases in which each call renews the one of its class. -/
theorem mcmsg_retains (cfg : Conf) (n : Nat) (ls : List (Timex × Message))
    (hplain : WithoutSeqnortr ls) (horder : InOrder ls) :
    (∀ ms now msg rest, ls = ms ++ (now, msg) :: rest →
      Retains cfg n now msg (run (mcmsgStep cfg) ms (mcmsgInit n))) ∧
    (∀ (ms rest : List (Timex × Message)) (i : Nat) (e : McmsgEntry), ls = ms ++ rest →
      (run (mcmsgStep cfg) ms (mcmsgInit n))[i]? = some e → e.used = true →
      (∀ l ∈ rest, l.1 ≤ e.data.removalTime) →
        ∃ e', (run (mcmsgStep cfg) ls (mcmsgInit n))[i]? = some e' ∧ e'.used = true ∧
          SameClass e.data e'.data ∧
          ((∀ l ∈ rest, isComparable e.data l.2 = false) → e' = e)) ∧
    (∀ now, (∀ l ∈ ls, l.1 ≤ now) →
      Tracks McmsgEntry.key McmsgEntry.till now (run (mcmsgStep cfg) ls (mcmsgInit n))
        (run (leaseStep cfg n) ls fun _ => none)) := by
  -- The run up to any point keeps the invariant up to the time of what follows.
  have hinv : ∀ ms rest now, ls = ms ++ rest → (∀ l ∈ ms, l.1 ≤ now) →
      McmsgInv cfg n now (run (mcmsgStep cfg) ms (mcmsgInit n))
        (run (leaseStep cfg n) ms fun _ => none) := by
    rintro ms rest now rfl hend
    exact mcmsgInv_run ms (mcmsgInv_init cfg n 0)
      (fun l hl => hplain l (List.mem_append_left rest hl)) (List.pairwise_append.mp horder).1
      (fun l _ => Nat.zero_le _) hend (Nat.zero_le _)
  refine ⟨?_, ?_, ?_⟩
  · intro ms now msg rest heq
    have hend : ∀ l ∈ ms, l.1 ≤ now := fun l hl =>
      (List.pairwise_append.mp (heq ▸ horder)).2.2 l hl (now, msg) List.mem_cons_self
    exact (hinv ms _ now heq hend).retains
      (hplain (now, msg) (by rw [heq]; exact List.mem_append_right ms List.mem_cons_self))
  · intro ms rest i e heq hi hused htimes
    have hplain' : WithoutSeqnortr rest := fun l hl =>
      hplain l (by rw [heq]; exact List.mem_append_right ms hl)
    obtain ⟨-, horder', hbefore⟩ := List.pairwise_append.mp (heq ▸ horder)
    rw [heq, run_append]
    cases rest with
    | nil => exact ⟨e, hi, hused, ⟨by simp [isCompatibleMcmsg], rfl⟩, fun _ => rfl⟩
    | cons l rest =>
      have hstart : ∀ l' ∈ l :: rest, l.1 ≤ l'.1 := by
        intro l' hl'
        rcases List.mem_cons.mp hl' with rfl | hl'
        · exact Nat.le_refl _
        · exact (List.pairwise_cons.mp horder').1 l' hl'
      obtain ⟨e', he', hused', hclass, -, hsame⟩ := mcmsgRun_keeps (l :: rest)
        (hinv ms _ l.1 heq fun l' hl' => hbefore l' hl' l List.mem_cons_self)
        hplain' horder' hstart hi hused htimes
      exact ⟨e', he', hused', hclass, hsame⟩
  · intro now hend
    exact (hinv ls [] now (List.append_nil ls).symm hend).tracks

/-- An RREQ for another target at 5 s, in a set of one slot that records a
flood: the flood stays, and stays as it is. -/
theorem mcmsg_retains_flood :
    let second : Message := { floodRreq 0 with targNode := { addr := 3#128, pfxLen := 128 } }
    let e : McmsgEntry := mcmsgFill Conf.default 0 (floodRreq 0) {}
    let set := run (mcmsgStep Conf.default) [(0, floodRreq 0)] (mcmsgInit 1)
    Retains Conf.default 1 (timexSet 5 0) second set ∧
      ∃ e', (mcmsgStep Conf.default (timexSet 5 0, second) set)[0]? = some e' ∧ e' = e := by
  intro second e set
  obtain ⟨hretains, hkeeps, -⟩ := mcmsg_retains Conf.default 1
    [(0, floodRreq 0), (timexSet 5 0, second)] (by decide) (by decide)
  obtain ⟨e', he', -, -, hsame⟩ := hkeeps [(0, floodRreq 0)] [(timexSet 5 0, second)] 0 e rfl
    (by decide +kernel) rfl (by decide +kernel)
  exact ⟨hretains [(0, floodRreq 0)] _ second [] rfl, e', he', hsame (by decide +kernel)⟩

end Turpial.Aodvv2
