/-
Turpial.Aodvv2.McMsgTheorems — what the Multicast Message Set guarantees
over whole runs, and where it does not.

A run is a list of `(time, message)` pairs fed to `aodvv2_mcmsg_process`
from the initialised set. §1 says what one call does to a slot. §2 is the
order of admitted RREQs: an entry's recorded sequence number and metric
are only ever replaced by better ones, EXCEPT that an RREQ which repeats
the recorded sequence number at a larger metric is let through and
overwrites the record — the source compares metrics for equality under a
comment that says "no worse". §3 is recognition of recorded RREQs, which
works for messages without a SeqNoRtr and for no others, because `_add`
does not store it.
-/
import Turpial.Aodvv2.McMsg

namespace Turpial.Aodvv2

open Turpial.Lib

/-- One call of `aodvv2_mcmsg_process`, as a step on the set. -/
def mcmsgStep (cfg : Conf) (l : Timex × Message) (set : McmsgSet) : McmsgSet :=
  (mcmsgProcess cfg l.1 l.2 set).2

/-! ## §1 One call, slot by slot -/

/-- A walk of the last loop leaves a live entry, and the entry it skips, alone. -/
theorem mcmsgCheckCompatible_slot {now : Timex} {i k : Nat} {upd e : McmsgEntry}
    {set : McmsgSet} (hk : set[k]? = some e) (hsame : k = i ∨ e.Live now) :
    (mcmsgCheckCompatible now i upd set).1[k]? = some e := by
  have hlt : k < (mcmsgCheckCompatible now i upd set).1.length := by
    simpa [mcmsgCheckCompatible] using (List.getElem?_eq_some_iff.mp hk).1
  have hat : (mcmsgCheckCompatible now i upd set).1[k]? =
      some (mcmsgCheckCompatible now i upd set).1[k] := List.getElem?_eq_getElem hlt
  obtain ⟨x, hx, hy⟩ := scan_getElem?
    (fun j entry => if j = i then entry else mcmsgResetEntryIfStale now entry)
    (fun j entry => j != i && entry.used && isCompatibleMcmsg upd.data entry.data &&
      decide (entry.data.metric ≤ upd.data.metric)) hat
  rw [hk] at hx
  cases hx
  rw [List.getElem?_eq_getElem hlt]
  rcases hy with hy | hy
  · by_cases hki : k = i
    · rw [hy, if_pos hki]
    · rw [hy, if_neg hki, mcmsgReset_live (hsame.resolve_left hki)]
  · rw [hy]

/-- A slot after the last loop is as before it, or was stale and is zeroed. -/
theorem mcmsgCheckCompatible_slot_cases {now : Timex} {i k : Nat} {upd e : McmsgEntry}
    {set : McmsgSet} (hk : (mcmsgCheckCompatible now i upd set).1[k]? = some e) :
    set[k]? = some e ∨ (k ≠ i ∧ e = {}) := by
  obtain ⟨x, hx, hy⟩ := scan_getElem? _ _ hk
  rcases hy with hy | rfl
  · by_cases hki : k = i
    · rw [hy, if_pos hki]
      exact Or.inl hx
    · rw [if_neg hki] at hy
      rcases mcmsgReset_cases now x with h | ⟨-, h⟩
      · rw [hy, h]
        exact Or.inl hx
      · exact Or.inr ⟨hki, by rw [hy, h]⟩
  · exact Or.inl hx

/-- What one call does to a slot that holds a live entry. -/
theorem mcmsgProcess_live_slot (cfg : Conf) {now : Timex} (msg : Message) {set : McmsgSet}
    {k : Nat} {e : McmsgEntry} (hk : set[k]? = some e) (hlive : e.Live now) :
    ∃ e', (mcmsgProcess cfg now msg set).2[k]? = some e' ∧
      ((e' = e ∧ ¬ FirstComparable now msg set k e) ∨
        (FirstComparable now msg set k e ∧
          ((¬ PassesEntry e.data msg ∧ e' = mcmsgTouch cfg now e) ∨
            (PassesEntry e.data msg ∧ e' = mcmsgUpdated cfg now msg e)))) := by
  have hfound := @findComparable_live now msg set k e hk hlive
  have hklt := (List.getElem?_eq_some_iff.mp hfound).1
  rcases mcmsgProcess_cases cfg now msg set with ⟨hno, h⟩ | ⟨i, f, hf, h⟩
  · rw [h]
    refine ⟨e, ?_, Or.inl ⟨rfl, hno k e⟩⟩
    cases hadd : (mcmsgAdd cfg now msg (findComparableEntry now msg set).1).2 with
    | none => rw [mcmsgAdd, (fillFree_none _ _ hadd).1, hfound]
    | some j =>
      obtain ⟨x, hx, hfree, heq⟩ := fillFree_some _ _ hadd
      have hjk : j ≠ k := by
        rintro rfl
        rw [hfound] at hx
        cases hx
        simp [hlive.1] at hfree
      rw [mcmsgAdd, heq, List.getElem?_set_ne hjk, hfound]
  · by_cases hik : i = k
    · subst hik
      have hef : f = e := Option.some.inj (hf.at_slot.symm.trans hk)
      subst hef
      rcases h with ⟨hp, h⟩ | ⟨hp, -, h⟩ | ⟨hp, -, h⟩ <;> rw [h]
      · exact ⟨_, List.getElem?_set_self hklt, Or.inr ⟨hf, Or.inl ⟨hp, rfl⟩⟩⟩
      · exact ⟨_, mcmsgCheckCompatible_slot (List.getElem?_set_self hklt) (Or.inl rfl),
          Or.inr ⟨hf, Or.inr ⟨hp, rfl⟩⟩⟩
      · exact ⟨_, mcmsgCheckCompatible_slot (List.getElem?_set_self hklt) (Or.inl rfl),
          Or.inr ⟨hf, Or.inr ⟨hp, rfl⟩⟩⟩
    · have hne : ¬ FirstComparable now msg set k e := fun hk' => hik (hf.unique hk').1
      refine ⟨e, ?_, Or.inl ⟨rfl, hne⟩⟩
      have hset : ∀ u : McmsgEntry,
          ((findComparableEntry now msg set).1.set i u)[k]? = some e := by
        intro u
        rw [List.getElem?_set_ne hik, hfound]
      rcases h with ⟨-, h⟩ | ⟨-, -, h⟩ | ⟨-, -, h⟩ <;> rw [h]
      · exact hset _
      · exact mcmsgCheckCompatible_slot (hset _) (Or.inr hlive)
      · exact mcmsgCheckCompatible_slot (hset _) (Or.inr hlive)

/-! ## §2 Only better RREQs are admitted, but for one case -/

/-- The promise made for one call and one live entry `e`, comparable with
the message, in slot `i`: the verdict is OK only for a message that beats
`e`, and a message that does not is redundant and leaves what `e` records
as it is. -/
def VerdictKeepsOrder (cfg : Conf) (now : Timex) (msg : Message) (set : McmsgSet) (i : Nat)
    (e : McmsgEntry) : Prop :=
  ((mcmsgProcess cfg now msg set).1 = .ok → Beats e.data.record msg.origRecord) ∧
  (¬ Beats e.data.record msg.origRecord →
    (mcmsgProcess cfg now msg set).1 = .redundant ∧
      ∃ e', (mcmsgProcess cfg now msg set).2[i]? = some e' ∧
        e'.data.record = e.data.record)

/-- The message repeats the recorded sequence number at a larger metric. -/
def RepeatsAtLargerMetric (e : Mcmsg) (msg : Message) : Prop :=
  e.origSeqnum = msg.origNode.seqnum ∧ e.metric < msg.origNode.metric

instance (e : Mcmsg) (msg : Message) : Decidable (RepeatsAtLargerMetric e msg) :=
  inferInstanceAs (Decidable (_ ∧ _))

/-- Where the promise fails for the entry `e` of slot `i`. Either `e` is
the entry the message is judged by and the message repeats its sequence
number at a larger metric; or `e` is newer than the message but stands
behind another comparable entry that the message does pass, and all
entries of the class are costlier than the message. -/
def OrderBroken (now : Timex) (msg : Message) (set : McmsgSet) (i : Nat) (e : McmsgEntry) :
    Prop :=
  (FirstComparable now msg set i e ∧ RepeatsAtLargerMetric e.data msg) ∨
  (seqnumCmp e.data.origSeqnum msg.origNode.seqnum < 0 ∧
    ∃ j f, j ≠ i ∧ FirstComparable now msg set j f ∧ PassesEntry f.data msg ∧
      OthersCostlier now msg set j)

/-- Passing the equality test without beating the record is repeating the
sequence number at a larger metric. -/
theorem repeats_of_passes {e : Mcmsg} {msg : Message} (hp : PassesEntry e msg)
    (hb : ¬ Beats e.record msg.origRecord) : RepeatsAtLargerMetric e msg := by
  simp only [Beats, Mcmsg.record, Message.origRecord, not_or, not_and] at hb
  obtain ⟨hnew, hsame⟩ := hb
  rcases hp with hp | ⟨hseq, hmet⟩
  · exact absurd hp hnew
  · refine ⟨hseq, ?_⟩
    rcases UInt8.lt_or_lt_of_ne hmet with h | h
    · exact h
    · exact absurd h (hsame hseq)

theorem passes_of_repeats {e : Mcmsg} {msg : Message} (h : RepeatsAtLargerMetric e msg) :
    PassesEntry e msg ∧ ¬ Beats e.record msg.origRecord := by
  obtain ⟨hseq, hmet⟩ := h
  refine ⟨Or.inr ⟨hseq, UInt8.ne_of_lt hmet⟩, ?_⟩
  rintro (h | ⟨-, h⟩)
  · simp [Mcmsg.record, Message.origRecord, hseq] at h
  · exact absurd h (UInt8.not_lt.mpr (UInt8.le_of_lt hmet))

/-- The entry the message is judged by: the promise fails exactly when the
message repeats its sequence number at a larger metric. -/
theorem verdictKeepsOrder_first (cfg : Conf) {now : Timex} {msg : Message} {set : McmsgSet}
    {i : Nat} {e : McmsgEntry} (he : FirstComparable now msg set i e) :
    VerdictKeepsOrder cfg now msg set i e ↔ ¬ RepeatsAtLargerMetric e.data msg := by
  obtain ⟨e', hat, hcase⟩ := mcmsgProcess_live_slot cfg msg he.at_slot he.live
  constructor
  · rintro ⟨-, hkeep⟩ hrep
    obtain ⟨hp, hb⟩ := passes_of_repeats hrep
    obtain ⟨-, e'', hat', hrec⟩ := hkeep hb
    rw [hat] at hat'
    cases hat'
    rcases hcase with ⟨-, hne⟩ | ⟨-, ⟨hnp, -⟩ | ⟨-, rfl⟩⟩
    · exact hne he
    · exact hnp hp
    · have hmet : msg.origNode.metric = e.data.metric := congrArg Prod.snd hrec
      exact absurd hrep.2 (by rw [hmet]; exact UInt8.lt_irrefl _)
  · intro hrep
    refine ⟨fun hok => ?_, fun hb => ?_⟩
    · have hp := ((mcmsgProcess_ok_iff cfg now msg set).mp hok i e he).1
      exact Classical.byContradiction fun hb => hrep (repeats_of_passes hp hb)
    · have hnp : ¬ PassesEntry e.data msg := fun hp => hrep (repeats_of_passes hp hb)
      refine ⟨?_, e', hat, ?_⟩
      · cases hv : (mcmsgProcess cfg now msg set).1 with
        | redundant => rfl
        | ok => exact absurd ((mcmsgProcess_ok_iff cfg now msg set).mp hv i e he).1 hnp
      · rcases hcase with ⟨rfl, -⟩ | ⟨-, ⟨-, rfl⟩ | ⟨hp, -⟩⟩
        · rfl
        · rfl
        · exact absurd hp hnp

/-- Any other comparable entry `e`: it is never written, so the promise
fails exactly when the message is admitted although `e` is newer. -/
theorem verdictKeepsOrder_other (cfg : Conf) {now : Timex} {msg : Message} {set : McmsgSet}
    {i j : Nat} {e f : McmsgEntry} (hi : set[i]? = some e) (hlive : e.Live now)
    (hcomp : isComparable e.data msg = true) (hf : FirstComparable now msg set j f)
    (hji : j ≠ i) :
    VerdictKeepsOrder cfg now msg set i e ↔
      ¬ (seqnumCmp e.data.origSeqnum msg.origNode.seqnum < 0 ∧
        PassesEntry f.data msg ∧ OthersCostlier now msg set j) := by
  have hadm : (mcmsgProcess cfg now msg set).1 = .ok ↔
      PassesEntry f.data msg ∧ OthersCostlier now msg set j := by
    rw [mcmsgProcess_ok_iff]
    refine ⟨fun h => h j f hf, fun h k g hg => ?_⟩
    obtain ⟨rfl, rfl⟩ := hf.unique hg
    exact h
  constructor
  · rintro ⟨hok, -⟩ ⟨hold, hadmits⟩
    rcases hok (hadm.mpr hadmits) with h | ⟨h, -⟩
    · simp only [Mcmsg.record, Message.origRecord] at h
      omega
    · rw [show e.data.origSeqnum = msg.origNode.seqnum from h, seqnumCmp_self] at hold
      omega
  · intro hno
    -- An admitted message is cheaper than `e`, so only `e`'s age matters.
    have hbeats : (mcmsgProcess cfg now msg set).1 = .ok →
        Beats e.data.record msg.origRecord := by
      intro hok
      obtain ⟨hp, hoth⟩ := hadm.mp hok
      have hcheap := hoth i e (Ne.symm hji) hi hlive (isCompatible_of_isComparable hcomp)
      have hage : ¬ seqnumCmp e.data.origSeqnum msg.origNode.seqnum < 0 :=
        fun h => hno ⟨h, hp, hoth⟩
      by_cases hz : seqnumCmp e.data.origSeqnum msg.origNode.seqnum = 0
      · exact Or.inr ⟨seqnumCmp_eq_zero_iff.mp hz, hcheap⟩
      · exact Or.inl (by simp only [Mcmsg.record, Message.origRecord]; omega)
    refine ⟨hbeats, fun hb => ?_⟩
    obtain ⟨e', hat, hcase⟩ := mcmsgProcess_live_slot cfg msg hi hlive
    refine ⟨?_, e', hat, ?_⟩
    · cases hv : (mcmsgProcess cfg now msg set).1 with
      | redundant => rfl
      | ok => exact absurd (hbeats hv) hb
    · rcases hcase with ⟨rfl, -⟩ | ⟨hfirst, -⟩
      · rfl
      · exact absurd (hf.unique hfirst).1 hji

/-- The promise of one call, for every live comparable entry. -/
theorem verdictKeepsOrder_iff (cfg : Conf) {now : Timex} {msg : Message} {set : McmsgSet}
    {i : Nat} {e : McmsgEntry} (hi : set[i]? = some e) (hlive : e.Live now)
    (hcomp : isComparable e.data msg = true) :
    VerdictKeepsOrder cfg now msg set i e ↔ ¬ OrderBroken now msg set i e := by
  obtain ⟨j, f, hf, -⟩ := exists_firstComparable hi hlive hcomp
  by_cases hji : j = i
  · subst hji
    have hef : e = f := Option.some.inj (hi.symm.trans hf.at_slot)
    subst hef
    rw [verdictKeepsOrder_first cfg hf, not_iff_not]
    refine ⟨fun h => Or.inl ⟨hf, h⟩, ?_⟩
    rintro (⟨-, h⟩ | ⟨-, k, g, hk, hg, -⟩)
    · exact h
    · exact absurd (hg.unique hf).1 hk
  · rw [verdictKeepsOrder_other cfg hi hlive hcomp hf hji, not_iff_not]
    constructor
    · rintro ⟨hold, hp, hoth⟩
      exact Or.inr ⟨hold, j, f, hji, hf, hp, hoth⟩
    · rintro (⟨hfirst, -⟩ | ⟨hold, k, g, -, hg, hp, hoth⟩)
      · exact absurd (hf.unique hfirst).1 hji
      · obtain ⟨rfl, rfl⟩ := hf.unique hg
        exact ⟨hold, hp, hoth⟩

/-- The step condition under which no record is ever overwritten by a
worse one. -/
def NoRepeatAtLargerMetric (l : Timex × Message) (set : McmsgSet) : Prop :=
  ∀ i e, FirstComparable l.1 l.2 set i e → ¬ RepeatsAtLargerMetric e.data l.2

/-- Slot `i` holds an entry that has not expired at the time of the step. -/
def SlotLives (i : Nat) (l : Timex × Message) (set : McmsgSet) : Prop :=
  ∃ e, set[i]? = some e ∧ e.Live l.1

/-- Two entries of one comparable class. -/
def SameClass (e f : Mcmsg) : Prop := isCompatibleMcmsg e f = true ∧ e.seqnortr = f.seqnortr

/-- One step replaces the record of a live entry by a better one, or not at all. -/
theorem mcmsgStep_record (cfg : Conf) {l : Timex × Message} {set : McmsgSet} {i : Nat}
    {e : McmsgEntry} (hi : set[i]? = some e) (hlive : e.Live l.1)
    (hno : NoRepeatAtLargerMetric l set) :
    ∃ e', (mcmsgStep cfg l set)[i]? = some e' ∧ SameClass e.data e'.data ∧
      (e'.data.record = e.data.record ∨ Beats e.data.record e'.data.record) := by
  obtain ⟨e', hat, hcase⟩ := mcmsgProcess_live_slot cfg l.2 hi hlive
  refine ⟨e', hat, ?_⟩
  rcases hcase with ⟨rfl, -⟩ | ⟨hf, ⟨-, rfl⟩ | ⟨hp, rfl⟩⟩
  · exact ⟨⟨by simp [isCompatibleMcmsg], rfl⟩, Or.inl rfl⟩
  · exact ⟨⟨by simp [isCompatibleMcmsg, mcmsgTouch], rfl⟩, Or.inl rfl⟩
  · refine ⟨⟨by simp [isCompatibleMcmsg, mcmsgUpdated, mcmsgRecord, mcmsgTouch], rfl⟩, Or.inr ?_⟩
    exact Classical.byContradiction fun hb => hno i e hf (repeats_of_passes hp hb)

/-- Along a run in which no RREQ repeats a recorded sequence number at a
larger metric, the record of an entry that stays alive goes through a
chain of strict improvements. -/
theorem mcmsgRun_record (cfg : Conf) {i : Nat} (ls : List (Timex × Message)) {set : McmsgSet}
    {e : McmsgEntry} (hi : set[i]? = some e)
    (hno : Along (mcmsgStep cfg) NoRepeatAtLargerMetric ls set)
    (hlive : Along (mcmsgStep cfg) (SlotLives i) ls set) :
    ∃ e', (run (mcmsgStep cfg) ls set)[i]? = some e' ∧ SameClass e.data e'.data ∧
      Relation.ReflTransGen Beats e.data.record e'.data.record := by
  induction ls generalizing set e with
  | nil => exact ⟨e, hi, ⟨by simp [isCompatibleMcmsg], rfl⟩, .refl⟩
  | cons l ls ih =>
    obtain ⟨⟨f, hf, hfl⟩, hrest⟩ := hlive
    have hef : f = e := Option.some.inj (hf.symm.trans hi)
    subst hef
    obtain ⟨e₁, h₁, hcls₁, hrec₁⟩ := mcmsgStep_record cfg hi hfl hno.1
    obtain ⟨e₂, h₂, hcls₂, hrec₂⟩ := ih h₁ hno.2 hrest
    refine ⟨e₂, h₂, ?_, ?_⟩
    · simp only [SameClass, isCompatibleMcmsg, Bool.and_eq_true, beq_iff_eq] at hcls₁ hcls₂ ⊢
      obtain ⟨⟨⟨⟨a1, a2⟩, a3⟩, a4⟩, a5⟩ := hcls₁
      rw [a1, a2, a3, a4, a5]
      exact hcls₂
    · rcases hrec₁ with heq | hb
      · rw [← heq]
        exact hrec₂
      · exact .head hb hrec₂

/-- **Admitted RREQs beat the record.** For one call, the promise holds of
a live comparable entry exactly when it is not broken in one of the two
ways of `OrderBroken`; and along every run whose RREQs do not repeat a
recorded sequence number at a larger metric, what a living entry records
never gets worse. -/
theorem mcmsgProcess_keeps_order (cfg : Conf) (n : Nat) :
    (∀ (ls : List (Timex × Message)) (now : Timex) (msg : Message) (i : Nat) (e : McmsgEntry),
      let set := run (mcmsgStep cfg) ls (mcmsgInit n)
      set[i]? = some e → e.Live now → isComparable e.data msg = true →
        (VerdictKeepsOrder cfg now msg set i e ↔ ¬ OrderBroken now msg set i e)) ∧
    (∀ (ls ms : List (Timex × Message)) (i : Nat) (e : McmsgEntry),
      let set := run (mcmsgStep cfg) ls (mcmsgInit n)
      Along (mcmsgStep cfg) NoRepeatAtLargerMetric (ls ++ ms) (mcmsgInit n) →
      set[i]? = some e → Along (mcmsgStep cfg) (SlotLives i) ms set →
        ∃ e', (run (mcmsgStep cfg) (ls ++ ms) (mcmsgInit n))[i]? = some e' ∧
          SameClass e.data e'.data ∧
          Relation.ReflTransGen Beats e.data.record e'.data.record) := by
  constructor
  · intro ls now msg i e set hi hlive hcomp
    exact verdictKeepsOrder_iff cfg hi hlive hcomp
  · intro ls ms i e set hno hi hlive
    rw [run_append]
    exact mcmsgRun_record cfg ms hi hno.of_append.2 hlive

/-- The RREQ of a first flood, and its copy one hop further on. -/
def floodRreq (metric : UInt8) : Message where
  msgHopLimit := 10
  metricType := metricHopCount
  origNode := { addr := 1#128, pfxLen := 128, metric := metric, seqnum := 1 }
  targNode := { addr := 2#128, pfxLen := 128 }

/-- A costlier copy followed by the cheaper one: the verdict on the second
keeps its promise, and the record improves. -/
theorem mcmsgProcess_keeps_order_flood :
    let e : McmsgEntry := mcmsgFill Conf.default 0 (floodRreq 1) {}
    VerdictKeepsOrder Conf.default 0 (floodRreq 0)
        (run (mcmsgStep Conf.default) [(0, floodRreq 1)] (mcmsgInit 1)) 0 e ∧
      ∃ e', (run (mcmsgStep Conf.default) ([(0, floodRreq 1)] ++ [(0, floodRreq 0)])
          (mcmsgInit 1))[0]? = some e' ∧
        SameClass e.data e'.data ∧ Relation.ReflTransGen Beats e.data.record e'.data.record := by
  intro e
  have hi : (run (mcmsgStep Conf.default) [(0, floodRreq 1)] (mcmsgInit 1))[0]? = some e := by
    decide +kernel
  have hlive : e.Live 0 := by decide +kernel
  have hcomp : isComparable e.data (floodRreq 0) = true := by decide +kernel
  have hnorep : ¬ RepeatsAtLargerMetric e.data (floodRreq 0) := by decide +kernel
  have hfirst : ∀ {i f}, FirstComparable 0 (floodRreq 0)
      (run (mcmsgStep Conf.default) [(0, floodRreq 1)] (mcmsgInit 1)) i f → i = 0 ∧ f = e := by
    intro i f hf
    exact hf.unique ⟨hi, hlive, hcomp, fun j _ hj => absurd hj (by omega)⟩
  obtain ⟨hverdict, hrecord⟩ := mcmsgProcess_keeps_order Conf.default 1
  refine ⟨(hverdict _ 0 (floodRreq 0) 0 e hi hlive hcomp).mpr ?_, ?_⟩
  · rintro (⟨-, h⟩ | ⟨-, j, f, hj, hf, -⟩)
    · exact hnorep h
    · exact hj (hfirst hf).1
  · refine hrecord [(0, floodRreq 1)] [(0, floodRreq 0)] 0 e ⟨?_, ?_, trivial⟩ hi
      ⟨⟨e, hi, hlive⟩, trivial⟩
    · intro i f hf
      have hmem : f ∈ mcmsgInit 1 := List.mem_of_getElem? hf.at_slot
      have hdead := hf.live.1
      rw [List.eq_of_mem_replicate hmem] at hdead
      cases hdead
    · intro i f hf
      rw [(hfirst hf).2]
      exact hnorep

/-- The copy is let through and overwrites the better record. -/
theorem mcmsgProcess_admits_costlier_copy :
    let set := run (mcmsgStep Conf.default) [(0, floodRreq 0)] (mcmsgInit 1)
    let e : McmsgEntry := mcmsgFill Conf.default 0 (floodRreq 0) {}
    set[0]? = some e ∧ e.Live 0 ∧ isComparable e.data (floodRreq 1) = true ∧
      ¬ VerdictKeepsOrder Conf.default 0 (floodRreq 1) set 0 e := by
  intro set e
  have hi : set[0]? = some e := by decide +kernel
  have hlive : e.Live 0 := by decide +kernel
  have hcomp : isComparable e.data (floodRreq 1) = true := by decide +kernel
  refine ⟨hi, hlive, hcomp, ?_⟩
  rw [verdictKeepsOrder_first Conf.default ⟨hi, hlive, hcomp, fun j _ hj => absurd hj (by omega)⟩,
    not_not]
  exact ⟨by decide +kernel, by decide +kernel⟩

/-! ## §3 Recorded RREQs are recognised again -/

/-- The call finds no comparable entry and records the message in slot `j`. -/
def Records (cfg : Conf) (now : Timex) (msg : Message) (set : McmsgSet) (j : Nat) : Prop :=
  (findComparableEntry now msg set).2 = none ∧
    (mcmsgAdd cfg now msg (findComparableEntry now msg set).1).2 = some j

/-- A step with a message of another class, before the removal time `t`. -/
def OtherClassUntil (t : Timex) (msg : Message) (l : Timex × Message) : Prop :=
  l.1 ≤ t ∧ ∀ e : Mcmsg, isCompatible e msg = true → isCompatible e l.2 = false

/-- The message just recorded at time `now` is recognised: processed again
up to the removal time of its entry, with messages of other classes in
between, it is redundant. -/
def RecognisedAgain (cfg : Conf) (now : Timex) (msg : Message) (set : McmsgSet) : Prop :=
  ∀ (ms : List (Timex × Message)) (later : Timex),
    (∀ l ∈ ms, OtherClassUntil (now + cfg.maxSeqnumLifetime) msg l) →
    later ≤ now + cfg.maxSeqnumLifetime →
      (mcmsgProcess cfg later msg (run (mcmsgStep cfg) ms (mcmsgStep cfg (now, msg) set))).1
        = .redundant

/-- No slot stores a SeqNoRtr. -/
def NoSeqnortr (set : McmsgSet) : Prop :=
  ∀ e ∈ set, e.data.seqnortr = ipv6AddrUnspecified

/-- Everything a slot can hold after a call: what it held, a zeroed entry,
the message added to a free slot, or the comparable entry updated. -/
theorem mcmsgProcess_slot_cases (cfg : Conf) (now : Timex) (msg : Message) {set : McmsgSet}
    {k : Nat} {e : McmsgEntry} (hk : (mcmsgProcess cfg now msg set).2[k]? = some e) :
    set[k]? = some e ∨ e = {} ∨
      (Records cfg now msg set k ∧
        ∃ x, (findComparableEntry now msg set).1[k]? = some x ∧ x.used = false ∧
          e = mcmsgFill cfg now msg x) ∨
      (∃ f, FirstComparable now msg set k f ∧
        (e = mcmsgTouch cfg now f ∨ e = mcmsgUpdated cfg now msg f)) := by
  have hwalk : ∀ {g}, (findComparableEntry now msg set).1[k]? = some g →
      set[k]? = some g ∨ g = {} := by
    intro g hg
    rcases findComparable_slot hg with h | ⟨x, -, -, h⟩
    · exact Or.inl h
    · exact Or.inr h
  have hset : ∀ {i f u}, FirstComparable now msg set i f →
      (u = mcmsgTouch cfg now f ∨ u = mcmsgUpdated cfg now msg f) →
      ((findComparableEntry now msg set).1.set i u)[k]? = some e →
      set[k]? = some e ∨ e = {} ∨ ∃ f, FirstComparable now msg set k f ∧
        (e = mcmsgTouch cfg now f ∨ e = mcmsgUpdated cfg now msg f) := by
    intro i f u hf hu hk
    rcases getElem?_written_cases hk with ⟨rfl, rfl⟩ | ⟨-, hk⟩
    · exact Or.inr (Or.inr ⟨f, hf, hu⟩)
    · rcases hwalk hk with h | h
      · exact Or.inl h
      · exact Or.inr (Or.inl h)
  rcases mcmsgProcess_cases cfg now msg set with ⟨hno, h⟩ | ⟨i, f, hf, h⟩
  · rw [h] at hk
    have hnone : (findComparableEntry now msg set).2 = none := by
      cases hr : (findComparableEntry now msg set).2 with
      | none => rfl
      | some i =>
        obtain ⟨e', he'⟩ := findComparable_eq_some_iff.mp hr
        exact absurd he' (hno i e')
    cases hadd : (mcmsgAdd cfg now msg (findComparableEntry now msg set).1).2 with
    | none =>
      rw [mcmsgAdd, (fillFree_none _ _ hadd).1] at hk
      rcases hwalk hk with h' | h'
      · exact Or.inl h'
      · exact Or.inr (Or.inl h')
    | some j =>
      obtain ⟨x, hx, hfree, heq⟩ := fillFree_some _ _ hadd
      rw [mcmsgAdd, heq] at hk
      rcases getElem?_written_cases hk with ⟨rfl, rfl⟩ | ⟨-, hk⟩
      · exact Or.inr (Or.inr (Or.inl ⟨⟨hnone, hadd⟩, x, hx, by simpa using hfree, rfl⟩))
      · rcases hwalk hk with h' | h'
        · exact Or.inl h'
        · exact Or.inr (Or.inl h')
  · have hfin : set[k]? = some e ∨ e = {} ∨ ∃ f, FirstComparable now msg set k f ∧
        (e = mcmsgTouch cfg now f ∨ e = mcmsgUpdated cfg now msg f) := by
      rcases h with ⟨-, h⟩ | ⟨-, -, h⟩ | ⟨-, -, h⟩
      · rw [h] at hk
        exact hset hf (Or.inl rfl) hk
      all_goals
        rw [h] at hk
        rcases mcmsgCheckCompatible_slot_cases hk with hk | ⟨-, hz⟩
        · exact hset hf (Or.inr rfl) hk
        · exact Or.inr (Or.inl hz)
    rcases hfin with h' | h' | h'
    · exact Or.inl h'
    · exact Or.inr (Or.inl h')
    · exact Or.inr (Or.inr (Or.inr h'))

/-- No call ever stores a SeqNoRtr. -/
theorem mcmsgStep_noSeqnortr (cfg : Conf) (l : Timex × Message) {set : McmsgSet}
    (h : NoSeqnortr set) : NoSeqnortr (mcmsgStep cfg l set) := by
  intro e he
  obtain ⟨k, hk⟩ := List.mem_iff_getElem?.mp he
  rcases mcmsgProcess_slot_cases cfg l.1 l.2 hk with h' | rfl | ⟨-, x, hx, -, rfl⟩ |
      ⟨f, hf, rfl | rfl⟩
  · exact h e (List.mem_of_getElem? h')
  · rfl
  · rcases findComparable_slot hx with h' | ⟨-, -, -, rfl⟩
    · exact h x (List.mem_of_getElem? h')
    · rfl
  · exact h f (List.mem_of_getElem? hf.at_slot)
  · exact h f (List.mem_of_getElem? hf.at_slot)

theorem noSeqnortr_init (n : Nat) : NoSeqnortr (mcmsgInit n) := by
  intro e he
  rw [List.eq_of_mem_replicate he]

theorem mcmsgRun_noSeqnortr (cfg : Conf) (n : Nat) (ls : List (Timex × Message)) :
    NoSeqnortr (run (mcmsgStep cfg) ls (mcmsgInit n)) :=
  run_invariant_of_step (fun l _ h => mcmsgStep_noSeqnortr cfg l h) ls (noSeqnortr_init n)

/-- The set records the message in slot `j` and in no other used slot. -/
structure HoldsOnce (cfg : Conf) (now : Timex) (msg : Message) (j : Nat) (set : McmsgSet) :
    Prop where
  entry : ∃ e, set[j]? = some e ∧ e.used = true ∧ isComparable e.data msg = true ∧
    e.data.record = msg.origRecord ∧ e.data.removalTime = now + cfg.maxSeqnumLifetime
  only : ∀ i e, i ≠ j → set[i]? = some e → e.used = true → isCompatible e.data msg = false

/-- Recording a message without a SeqNoRtr makes it the only one of its class. -/
theorem holdsOnce_of_records {cfg : Conf} {now : Timex} {msg : Message} {set : McmsgSet}
    {j : Nat} (hno : NoSeqnortr set) (hmsg : msg.seqnortr = ipv6AddrUnspecified)
    (h : Records cfg now msg set j) :
    HoldsOnce cfg now msg j (mcmsgStep cfg (now, msg) set) := by
  obtain ⟨hnone, hadd⟩ := h
  obtain ⟨x, hx, hfree, heq⟩ := fillFree_some _ _ hadd
  have hstep : mcmsgStep cfg (now, msg) set =
      (findComparableEntry now msg set).1.set j (mcmsgFill cfg now msg x) := by
    simp only [mcmsgStep, mcmsgProcess, hnone]
    rw [mcmsgAdd, heq]
  have hxno : x.data.seqnortr = ipv6AddrUnspecified := by
    rcases findComparable_slot hx with h' | ⟨-, -, -, rfl⟩
    · exact hno x (List.mem_of_getElem? h')
    · rfl
  constructor
  · refine ⟨mcmsgFill cfg now msg x, ?_, rfl, ?_, rfl, rfl⟩
    · rw [hstep, getElem?_written hx]
    · rw [isComparable_iff]
      exact ⟨by simp [isCompatible, mcmsgFill], by rw [hmsg]; exact hxno⟩
  · intro i e hij hi hused
    rw [hstep, List.getElem?_set_ne (Ne.symm hij)] at hi
    -- The walk found nothing, so every used slot it left is live and not comparable.
    have hsrc : set[i]? = some e := by
      rcases findComparable_slot hi with h' | ⟨-, -, -, rfl⟩
      · exact h'
      · cases hused
    have hi' := scan_none _ _ hnone i e hsrc
    have hlive : e.Live now := by
      rw [← mcmsgReset_used_iff]
      have : mcmsgResetEntryIfStale now e = e := by
        have hres : (findComparableEntry now msg set).1[i]? =
            some (mcmsgResetEntryIfStale now e) := hi'.1
        exact Option.some.inj (hres.symm.trans hi)
      rw [this]
      exact hused
    have hcomp := findComparable_none hnone e (List.mem_of_getElem? hsrc) hlive
    rw [Bool.eq_false_iff] at hcomp ⊢
    intro hc
    exact hcomp (isComparable_iff.mpr ⟨hc, by
      rw [hmsg]
      exact hno e (List.mem_of_getElem? hsrc)⟩)

/-- A message of another class keeps the recorded one. -/
theorem holdsOnce_step {cfg : Conf} {now : Timex} {msg : Message} {j : Nat} {set : McmsgSet}
    {l : Timex × Message} (h : HoldsOnce cfg now msg j set)
    (hl : OtherClassUntil (now + cfg.maxSeqnumLifetime) msg l) :
    HoldsOnce cfg now msg j (mcmsgStep cfg l set) := by
  obtain ⟨⟨e, hj, hused, hcomp, hrec, hrem⟩, honly⟩ := h
  have hlive : e.Live l.1 := ⟨hused, by rw [hrem]; exact hl.1⟩
  have hother := hl.2 e.data (isCompatible_of_isComparable hcomp)
  constructor
  · obtain ⟨e', hat, hcase⟩ := mcmsgProcess_live_slot cfg l.2 hj hlive
    rcases hcase with ⟨rfl, -⟩ | ⟨hf, -⟩
    · exact ⟨e', hat, hused, hcomp, hrec, hrem⟩
    · rw [isCompatible_of_isComparable hf.comparable] at hother
      cases hother
  · intro i f hij hi hfused
    rw [Bool.eq_false_iff]
    intro hc
    rcases mcmsgProcess_slot_cases cfg l.1 l.2 hi with h' | rfl | ⟨-, x, -, -, rfl⟩ |
        ⟨g, hg, rfl | rfl⟩
    · rw [honly i f hij h' hfused] at hc
      cases hc
    · cases hfused
    · have := hl.2 _ hc
      simp [isCompatible, mcmsgFill] at this
    · rw [isCompatible_touch, honly i g hij hg.at_slot hg.live.1] at hc
      cases hc
    · rw [mcmsgUpdated, isCompatible_record, isCompatible_touch,
        honly i g hij hg.at_slot hg.live.1] at hc
      cases hc

/-- A message recorded once is redundant until its removal time. -/
theorem redundant_of_holdsOnce {cfg : Conf} {now later : Timex} {msg : Message} {j : Nat}
    {set : McmsgSet} (h : HoldsOnce cfg now msg j set)
    (hle : later ≤ now + cfg.maxSeqnumLifetime) :
    (mcmsgProcess cfg later msg set).1 = .redundant := by
  obtain ⟨⟨e, hj, hused, hcomp, hrec, hrem⟩, honly⟩ := h
  have hfirst : FirstComparable later msg set j e := by
    refine ⟨hj, ⟨hused, by rw [hrem]; exact hle⟩, hcomp, fun i e' hi hat hlive => ?_⟩
    rw [Bool.eq_false_iff]
    intro hc
    have := honly i e' (Nat.ne_of_lt hi) hat hlive.1
    rw [isCompatible_of_isComparable hc] at this
    cases this
  cases hv : (mcmsgProcess cfg later msg set).1 with
  | redundant => rfl
  | ok =>
    have hp := ((mcmsgProcess_ok_iff cfg later msg set).mp hv j e hfirst).1
    simp only [Mcmsg.record, Message.origRecord, Prod.mk.injEq] at hrec
    rcases hp with hp | ⟨-, hp⟩
    · rw [hrec.1, seqnumCmp_self] at hp
      omega
    · exact absurd hrec.2 hp

/-- In a set that stores no SeqNoRtr, an RREQ that carries one is
comparable with nothing. -/
theorem ok_of_seqnortr (cfg : Conf) (now : Timex) {msg : Message} {set : McmsgSet}
    (hno : NoSeqnortr set) (hmsg : msg.seqnortr ≠ ipv6AddrUnspecified) :
    (mcmsgProcess cfg now msg set).1 = .ok := by
  rw [mcmsgProcess_ok_iff]
  intro i e he
  have := (isComparable_iff.mp he.comparable).2
  rw [hno e (List.mem_of_getElem? he.at_slot)] at this
  exact absurd this.symm hmsg

/-- Where a call stores what the message says: the slot it is added to, or
the comparable entry it passes. -/
def mcmsgWritten (cfg : Conf) (now : Timex) (msg : Message) (set : McmsgSet) : Option Nat :=
  let found := findComparableEntry now msg set
  match found.2 with
  | none => (mcmsgAdd cfg now msg found.1).2
  | some i => if PassesEntry (found.1[i]?.getD {}).data msg then some i else none

/-- The set together with the SeqNoRtr of the message each slot records. -/
abbrev TracedSet := McmsgSet × (Nat → Ipv6Addr)

def mcmsgTracedStep (cfg : Conf) (l : Timex × Message) (s : TracedSet) : TracedSet :=
  (mcmsgStep cfg l s.1,
    fun i => if mcmsgWritten cfg l.1 l.2 s.1 = some i then l.2.seqnortr else s.2 i)

/-- No two used entries agree on class and on the SeqNoRtr of the messages
they record. -/
def NoTwoAgree (s : TracedSet) : Prop :=
  ∀ (i j : Nat) (e f : McmsgEntry), i ≠ j → s.1[i]? = some e → s.1[j]? = some f →
    e.used = true → f.used = true → isCompatibleMcmsg e.data f.data = true → s.2 i ≠ s.2 j

/-- No two used entries are of one class. -/
def OnePerClass (set : McmsgSet) : Prop :=
  ∀ (i j : Nat) (e f : McmsgEntry), i ≠ j → set[i]? = some e → set[j]? = some f →
    e.used = true → f.used = true → isCompatibleMcmsg e.data f.data = false

/-- A used slot after a call: the class it had, or the message just recorded. -/
theorem mcmsgStep_used_slot (cfg : Conf) (l : Timex × Message) {set : McmsgSet} {k : Nat}
    {e : McmsgEntry} (hk : (mcmsgStep cfg l set)[k]? = some e) (hused : e.used = true) :
    (∃ f, set[k]? = some f ∧ f.used = true ∧
        ∀ g : Mcmsg, isCompatibleMcmsg e.data g = isCompatibleMcmsg f.data g ∧
          isCompatibleMcmsg g e.data = isCompatibleMcmsg g f.data) ∨
      (Records cfg l.1 l.2 set k ∧ isCompatible e.data l.2 = true) := by
  rcases mcmsgProcess_slot_cases cfg l.1 l.2 hk with h' | rfl | ⟨hr, x, -, -, rfl⟩ |
      ⟨f, hf, rfl | rfl⟩
  · exact Or.inl ⟨e, h', hused, fun g => ⟨rfl, rfl⟩⟩
  · cases hused
  · exact Or.inr ⟨hr, by simp [isCompatible, mcmsgFill]⟩
  · exact Or.inl ⟨f, hf.at_slot, hf.live.1, fun g => ⟨rfl, rfl⟩⟩
  · exact Or.inl ⟨f, hf.at_slot, hf.live.1, fun g => ⟨rfl, rfl⟩⟩

theorem mcmsgStep_onePerClass (cfg : Conf) {l : Timex × Message} {set : McmsgSet}
    (hno : NoSeqnortr set) (hone : OnePerClass set)
    (hl : l.2.seqnortr = ipv6AddrUnspecified) : OnePerClass (mcmsgStep cfg l set) := by
  have hcomm : ∀ a b : Mcmsg, isCompatibleMcmsg a b = isCompatibleMcmsg b a := by
    intro a b
    simp only [isCompatibleMcmsg, Bool.beq_comm]
  intro i j e f hij hi hj hue huf
  rcases mcmsgStep_used_slot cfg l hi hue with ⟨e₀, he₀, hu₀, hcls⟩ | ⟨hr, hcls⟩
  · rcases mcmsgStep_used_slot cfg l hj huf with ⟨f₀, hf₀, hv₀, hcls'⟩ | ⟨hr', hcls'⟩
    · rw [(hcls _).1, (hcls' _).2]
      exact hone i j e₀ f₀ hij he₀ hf₀ hu₀ hv₀
    · have honly := (holdsOnce_of_records hno hl hr').only i e hij hi hue
      rw [Bool.eq_false_iff] at honly ⊢
      intro hc
      rw [hcomm] at hc
      exact honly ((isCompatibleMcmsg_iff hcls').mp hc)
  · have honly := (holdsOnce_of_records hno hl hr).only j f (Ne.symm hij) hj huf
    rw [Bool.eq_false_iff] at honly ⊢
    intro hc
    exact honly ((isCompatibleMcmsg_iff hcls).mp hc)

/-- What a run of messages without a SeqNoRtr keeps. -/
theorem mcmsgTracedRun_onePerClass (cfg : Conf) (n : Nat) (ls : List (Timex × Message))
    (hls : ∀ l ∈ ls, l.2.seqnortr = ipv6AddrUnspecified) (trace : Nat → Ipv6Addr) :
    OnePerClass (run (mcmsgTracedStep cfg) ls (mcmsgInit n, trace)).1 := by
  suffices h : ∀ s : TracedSet, NoSeqnortr s.1 ∧ OnePerClass s.1 →
      OnePerClass (run (mcmsgTracedStep cfg) ls s).1 by
    refine h _ ⟨noSeqnortr_init n, ?_⟩
    intro i j e f _ hi _ hue
    rw [List.eq_of_mem_replicate (List.mem_of_getElem? hi)] at hue
    cases hue
  induction ls with
  | nil => exact fun s h => h.2
  | cons l ls ih =>
    intro s h
    refine ih (fun l' hl' => hls l' (List.mem_cons_of_mem _ hl')) _ ⟨?_, ?_⟩
    · exact mcmsgStep_noSeqnortr cfg l h.1
    · exact mcmsgStep_onePerClass cfg h.1 h.2 (hls l List.mem_cons_self)

/-- **Recorded RREQs are recognised exactly when they carry no SeqNoRtr.**
In every reachable set a recorded message is recognised again if and only
if its SeqNoRtr is unspecified; and in every run of such messages no two
used entries agree on class and SeqNoRtr. -/
theorem mcmsg_recognises_iff (cfg : Conf) (n : Nat) :
    (∀ (ls : List (Timex × Message)) (now : Timex) (msg : Message) (j : Nat),
      Records cfg now msg (run (mcmsgStep cfg) ls (mcmsgInit n)) j →
        (RecognisedAgain cfg now msg (run (mcmsgStep cfg) ls (mcmsgInit n)) ↔
          msg.seqnortr = ipv6AddrUnspecified)) ∧
    (∀ (ls : List (Timex × Message)) (trace : Nat → Ipv6Addr),
      (∀ l ∈ ls, l.2.seqnortr = ipv6AddrUnspecified) →
        NoTwoAgree (run (mcmsgTracedStep cfg) ls (mcmsgInit n, trace))) := by
  constructor
  · intro ls now msg j hrec
    have hno := mcmsgRun_noSeqnortr cfg n ls
    constructor
    · intro h
      refine Classical.byContradiction fun hmsg => ?_
      have hagain := h [] now (by simp) (Nat.le_add_right _ _)
      rw [run_nil, ok_of_seqnortr cfg now (mcmsgStep_noSeqnortr cfg _ hno) hmsg] at hagain
      cases hagain
    · intro hmsg ms later hms hlater
      have hkeep : ∀ (ms : List (Timex × Message)) (set : McmsgSet),
          (∀ l ∈ ms, OtherClassUntil (now + cfg.maxSeqnumLifetime) msg l) →
          HoldsOnce cfg now msg j set → HoldsOnce cfg now msg j (run (mcmsgStep cfg) ms set) := by
        intro ms
        induction ms with
        | nil => exact fun set _ h => h
        | cons l ms ih =>
          intro set hms h
          exact ih _ (fun l' hl' => hms l' (List.mem_cons_of_mem _ hl'))
            (holdsOnce_step h (hms l List.mem_cons_self))
      exact redundant_of_holdsOnce (hkeep ms _ hms (holdsOnce_of_records hno hmsg hrec)) hlater
  · intro ls trace hls i j e f hij hi hj hue huf hc
    have := mcmsgTracedRun_onePerClass cfg n ls hls trace i j e f hij hi hj hue huf
    rw [hc] at this
    cases this

/-- A message recorded next to one of another class is recognised, and two
floods and a copy of each leave one entry of either class. -/
theorem mcmsg_recognises_flood :
    let other : Message := { floodRreq 0 with targNode := { addr := 3#128, pfxLen := 128 } }
    RecognisedAgain Conf.default 0 (floodRreq 0)
        (run (mcmsgStep Conf.default) [(0, other)] (mcmsgInit 2)) ∧
      NoTwoAgree (run (mcmsgTracedStep Conf.default)
        [(0, other), (0, floodRreq 0), (1, other), (1, floodRreq 0)]
        (mcmsgInit 2, fun _ => ipv6AddrUnspecified)) := by
  intro other
  obtain ⟨hagain, htwo⟩ := mcmsg_recognises_iff Conf.default 2
  have hrec : Records Conf.default 0 (floodRreq 0)
      (run (mcmsgStep Conf.default) [(0, other)] (mcmsgInit 2)) 1 :=
    ⟨by decide +kernel, by decide +kernel⟩
  exact ⟨(hagain [(0, other)] 0 (floodRreq 0) 1 hrec).mpr rfl,
    htwo _ _ (by simp [other, floodRreq])⟩

/-- A message with a SeqNoRtr is recorded, admitted again, and recorded a
second time. -/
theorem mcmsg_forgets_seqnortr :
    let msg : Message := { floodRreq 0 with seqnortr := 7#128 }
    Records Conf.default 0 msg (mcmsgInit 2) 0 ∧
      ¬ RecognisedAgain Conf.default 0 msg (mcmsgInit 2) ∧
      ¬ NoTwoAgree (run (mcmsgTracedStep Conf.default) [(0, msg), (0, msg)]
        (mcmsgInit 2, fun _ => ipv6AddrUnspecified)) := by
  intro msg
  refine ⟨⟨by decide +kernel, by decide +kernel⟩, fun h => ?_, fun h => ?_⟩
  · exact absurd (h [] 0 (by simp) (Nat.zero_le _)) (by decide +kernel)
  · exact h 0 1 (mcmsgFill Conf.default 0 msg {}) (mcmsgFill Conf.default 0 msg {}) (by omega)
      (by decide +kernel) (by decide +kernel) rfl rfl (by decide +kernel) (by decide +kernel)

end Turpial.Aodvv2
