/-
Turpial.Aodvv2.SeqnumThreads — threads that take sequence numbers at the
same time (`aodvv2_seqnum.c`).

An originator calls `aodvv2_seqnum_get` and then `aodvv2_seqnum_inc`. Each
operation on the counter is indivisible, but there are two or three of
them: the load, the `fetch_add`, and, when the old value was 65535 or more,
the store of 1. So another thread can load in between. Before the
`fetch_add` it gets the number that was just taken; before the store it
gets 65536, which is 0 as a `uint16_t`.

`LoadsAlone` says that it does not. In a run along it the numbers are
1, 2, …, 65535, 1, 2, … in this order (`SeqInv`), and the first load that
breaks it is the first number that is not fresh (§2).
-/
import Turpial.Aodvv2.Message
import Turpial.Lib.Run
import Turpial.Lib.Threads

namespace Turpial.Aodvv2

open Turpial.Lib

/-! ## §1 The threads -/

/-- Where a thread is: between two originations, behind the load, or behind
a `fetch_add` that has to be followed by the store. -/
inductive SeqPhase where
  | idle
  | got
  | wrapping
  deriving DecidableEq, Repr

/-- The counter, and what was obtained from `aodvv2_seqnum_get` so far. -/
structure SeqShared where
  counter : SeqCounter
  obtained : List SeqNum := []
  deriving DecidableEq, Repr

/-- The next operation of a thread on the counter. -/
def seqNext : SeqPhase → SeqShared → SeqPhase × SeqShared
  | .idle, m => (.got, { m with obtained := m.obtained ++ [seqnumGet m.counter] })
  | .got, m => (if m.counter ≥ 65535 then .wrapping else .idle, { m with counter := m.counter + 1 })
  | .wrapping, m => (.idle, { m with counter := 1 })

variable {ι : Type} [DecidableEq ι]

/-- Threads that originate messages. -/
abbrev SeqThreads (ι : Type) := Threads ι SeqPhase SeqShared

/-- The turn of a thread. -/
def seqStep (i : ι) (s : SeqThreads ι) : SeqThreads ι := s.act seqNext i

/-- The threads after `aodvv2_seqnum_init`. -/
def seqInit (ι : Type) : SeqThreads ι := Threads.start .idle { counter := seqnumInit }

/-- A thread that is not interrupted takes the number of the counter and
increments it, as `seqnumGet` and `seqnumInc` do. -/
theorem seqStep_uninterrupted {i : ι} {s : SeqThreads ι} (h : s.phase i = .idle) :
    ∃ turns, run seqStep (List.replicate turns i) s =
      { phase := s.phase
        shared := { counter := seqnumInc s.shared.counter
                    obtained := s.shared.obtained ++ [seqnumGet s.shared.counter] } } := by
  have hback : Function.update s.phase i SeqPhase.idle = s.phase := by
    rw [← h]
    exact Function.update_eq_self i s.phase
  unfold seqnumInc
  by_cases hwrap : s.shared.counter ≥ 65535
  · refine ⟨3, ?_⟩
    rw [if_pos hwrap]
    simp [seqStep, Threads.act, seqNext, h, hwrap, hback]
  · refine ⟨2, ?_⟩
    rw [if_neg hwrap]
    simp [seqStep, Threads.act, seqNext, h, hwrap, hback]

/-! ## §2 Fresh numbers -/

/-- No number is 0, and among 65535 in a row none comes twice. -/
structure FreshNumbers (obtained : List SeqNum) : Prop where
  nonzero : (0 : SeqNum) ∉ obtained
  distinct : ∀ (a b : Nat) (x y : SeqNum), a < b → b < a + 65535 → obtained[a]? = some x →
    obtained[b]? = some y → x ≠ y

/-- A thread loads the counter only when no other thread is under way. -/
def LoadsAlone (i : ι) (s : SeqThreads ι) : Prop :=
  s.phase i = .idle → s.Others (· = .idle) i

/-- The number of origination `k`: 1 to 65535, over and over. -/
def seqnumOf (k : Nat) : SeqNum := UInt16.ofNat (k % 65535 + 1)

theorem seqnumOf_toNat (k : Nat) : (seqnumOf k).toNat = k % 65535 + 1 := by
  unfold seqnumOf
  rw [UInt16.toNat_ofNat']
  exact Nat.mod_eq_of_lt (by omega)

theorem freshNumbers_cycle (n : Nat) : FreshNumbers ((List.range n).map seqnumOf) where
  nonzero h := by
    obtain ⟨k, -, hk⟩ := List.mem_map.mp h
    have hpos := seqnumOf_toNat k
    rw [hk] at hpos
    cases hpos
  distinct a b x y hab hba hx hy hxy := by
    have hat : ∀ {k : Nat} {z : SeqNum}, ((List.range n).map seqnumOf)[k]? = some z →
        z = seqnumOf k := by
      intro k z hz
      rw [List.getElem?_map] at hz
      obtain ⟨m, hm, rfl⟩ := Option.map_eq_some_iff.mp hz
      obtain ⟨-, rfl⟩ := List.getElem?_eq_some_iff.mp hm
      rw [List.getElem_range]
    have heq : (seqnumOf a).toNat = (seqnumOf b).toNat := by rw [← hat hx, ← hat hy, hxy]
    rw [seqnumOf_toNat, seqnumOf_toNat] at heq
    omega

/-- The counter after `n` originations, for the phase of the thread that is
under way. -/
def CounterAt (n : Nat) (c : SeqCounter) : SeqPhase → Prop
  | .idle => c.toNat = n % 65535 + 1
  | .got => ∃ m, n = m + 1 ∧ c.toNat = m % 65535 + 1
  | .wrapping => n % 65535 = 0 ∧ c.toNat = 65536

/-- The numbers come in order, and at most one thread is under way. -/
structure SeqInv (s : SeqThreads ι) : Prop where
  obtained : s.shared.obtained = (List.range s.shared.obtained.length).map seqnumOf
  alone : ∀ i, s.phase i ≠ .idle → s.Others (· = .idle) i
  counter : ∀ i, s.Others (· = .idle) i →
    CounterAt s.shared.obtained.length s.shared.counter (s.phase i)

omit [DecidableEq ι] in
theorem seqInv_init : SeqInv (seqInit ι) := ⟨rfl, fun _ h => absurd rfl h, fun _ _ => rfl⟩

omit [DecidableEq ι] in
theorem SeqInv.fresh {s : SeqThreads ι} (h : SeqInv s) : FreshNumbers s.shared.obtained := by
  rw [h.obtained]
  exact freshNumbers_cycle _

/-- A counter below the wrap is read as it is. -/
theorem seqnumGet_of_toNat {c : SeqCounter} {k : Nat} (h : c.toNat = k % 65535 + 1) :
    seqnumGet c = seqnumOf k := by
  have hget : (seqnumGet c).toNat = c.toNat % 2 ^ 16 := UInt32.toNat_toUInt16 c
  refine UInt16.toNat_inj.mp ?_
  rw [hget, seqnumOf_toNat, h]
  exact Nat.mod_eq_of_lt (by omega)

/-- The counter after an operation of the thread that is under way. -/
theorem CounterAt.next {n : Nat} {m : SeqShared} {p : SeqPhase} (hn : m.obtained.length = n)
    (h : CounterAt n m.counter p) :
    CounterAt (seqNext p m).2.obtained.length (seqNext p m).2.counter (seqNext p m).1 := by
  cases p with
  | idle =>
    refine ⟨n, ?_, h⟩
    change (m.obtained ++ [_]).length = n + 1
    rw [List.length_append, List.length_singleton, hn]
  | got =>
    obtain ⟨k, hk, hcounter⟩ := h
    have hone : (m.counter + 1).toNat = k % 65535 + 2 := by
      rw [UInt32.toNat_add, hcounter]
      change (k % 65535 + 1 + 1) % 2 ^ 32 = k % 65535 + 2
      exact Nat.mod_eq_of_lt (by omega)
    have hwrap : m.counter ≥ 65535 ↔ 65535 ≤ k % 65535 + 1 := by
      rw [← hcounter]
      exact UInt32.le_iff_toNat_le
    change CounterAt m.obtained.length (m.counter + 1)
      (if m.counter ≥ 65535 then .wrapping else .idle)
    by_cases hlast : m.counter ≥ 65535
    · rw [if_pos hlast]
      have hle := hwrap.mp hlast
      change m.obtained.length % 65535 = 0 ∧ (m.counter + 1).toNat = 65536
      rw [hone, hn, hk]
      omega
    · rw [if_neg hlast]
      have hlt : ¬ 65535 ≤ k % 65535 + 1 := fun hle => hlast (hwrap.mpr hle)
      change (m.counter + 1).toNat = m.obtained.length % 65535 + 1
      rw [hone, hn, hk]
      omega
  | wrapping =>
    obtain ⟨hlast, -⟩ := h
    change (1 : SeqCounter).toNat = m.obtained.length % 65535 + 1
    rw [hn, hlast]
    rfl

/-- The numbers after an operation of the thread that is under way. -/
theorem obtained_next {m : SeqShared} {p : SeqPhase}
    (h : m.obtained = (List.range m.obtained.length).map seqnumOf)
    (hcounter : CounterAt m.obtained.length m.counter p) :
    (seqNext p m).2.obtained =
      (List.range (seqNext p m).2.obtained.length).map seqnumOf := by
  cases p with
  | idle =>
    change m.obtained ++ [_] = (List.range (m.obtained ++ [_]).length).map seqnumOf
    rw [List.length_append, List.length_singleton, List.range_succ, List.map_append, ← h,
      seqnumGet_of_toNat hcounter]
    rfl
  | got => exact h
  | wrapping => exact h

/-- A step that loads alone keeps the numbers in order. -/
theorem SeqInv.step {i : ι} {s : SeqThreads ι} (h : SeqInv s) (halone : LoadsAlone i s) :
    SeqInv (seqStep i s) := by
  have hothers : s.Others (· = .idle) i := by
    by_cases hi : s.phase i = .idle
    · exact halone hi
    · exact h.alone i hi
  have hothers' : (seqStep i s).Others (· = .idle) i := Threads.others_act.mpr hothers
  have hcounter := h.counter i hothers
  have hcounter' : CounterAt (seqStep i s).shared.obtained.length (seqStep i s).shared.counter
      ((seqStep i s).phase i) := by
    unfold seqStep
    rw [Threads.act_phase_self, Threads.act_shared]
    exact hcounter.next rfl
  refine ⟨obtained_next h.obtained hcounter, fun j hj => ?_, fun j hj => ?_⟩
  · have hij : j = i := Decidable.byContradiction fun hne => hj (hothers' j hne)
    rw [hij]
    exact hothers'
  · by_cases hij : j = i
    · rw [hij]
      exact hcounter'
    · -- Then all threads are at rest, and `i` is as good as `j`.
      rw [hothers' j hij, ← hj i (Ne.symm hij)]
      exact hcounter'

/-- A load behind one of another thread gets the number that one got. -/
theorem not_fresh_of_got {m : SeqShared}
    (h : m.obtained = (List.range m.obtained.length).map seqnumOf)
    (hcounter : CounterAt m.obtained.length m.counter .got) :
    ¬ FreshNumbers (m.obtained ++ [seqnumGet m.counter]) := by
  obtain ⟨k, hk, hvalue⟩ := hcounter
  have hlast : (m.obtained ++ [seqnumGet m.counter])[k]? = some (seqnumOf k) := by
    rw [List.getElem?_append_left (by omega), h, List.getElem?_map,
      List.getElem?_range (by omega)]
    rfl
  have hnew : (m.obtained ++ [seqnumGet m.counter])[k + 1]? = some (seqnumOf k) := by
    rw [← hk, List.getElem?_append_right (Nat.le_refl _), Nat.sub_self, seqnumGet_of_toNat hvalue]
    rfl
  intro hfresh
  exact hfresh.distinct k (k + 1) _ _ (Nat.lt_succ_self k) (by omega) hlast hnew rfl

/-- A load between the `fetch_add` and the store of another thread gets 0. -/
theorem not_fresh_of_wrapping {m : SeqShared}
    (hcounter : CounterAt m.obtained.length m.counter .wrapping) :
    ¬ FreshNumbers (m.obtained ++ [seqnumGet m.counter]) := by
  have hget : (seqnumGet m.counter).toNat = m.counter.toNat % 2 ^ 16 := UInt32.toNat_toUInt16 _
  rw [hcounter.2] at hget
  have hzero : seqnumGet m.counter = 0 := UInt16.toNat_inj.mp hget
  intro hfresh
  refine hfresh.nonzero ?_
  rw [hzero]
  exact List.mem_append_right _ (List.mem_singleton.mpr rfl)

/-- A load while another thread is under way gets a number that is not fresh. -/
theorem SeqInv.not_fresh {i : ι} {s : SeqThreads ι} (h : SeqInv s) (halone : ¬ LoadsAlone i s) :
    ¬ FreshNumbers (seqStep i s).shared.obtained := by
  obtain ⟨hidle, hothers⟩ := Classical.not_imp.mp halone
  obtain ⟨j, hne, hj⟩ : ∃ j, j ≠ i ∧ s.phase j ≠ .idle := by
    by_contra hnone
    exact hothers fun j hne => by_contra fun hj => hnone ⟨j, hne, hj⟩
  have hmore : (seqStep i s).shared.obtained =
      s.shared.obtained ++ [seqnumGet s.shared.counter] := by
    unfold seqStep
    rw [Threads.act_shared, hidle]
    rfl
  have hcounter := h.counter j (h.alone j hj)
  rw [hmore]
  cases hphase : s.phase j with
  | idle => exact absurd hphase hj
  | got =>
    rw [hphase] at hcounter
    exact not_fresh_of_got h.obtained hcounter
  | wrapping =>
    rw [hphase] at hcounter
    exact not_fresh_of_wrapping hcounter

/-- **Sequence numbers stay fresh exactly** in the interleavings in which a
thread loads the counter only when no other is under way. -/
theorem seqnums_fresh_iff (turns : List ι) :
    Along seqStep LoadsAlone turns (seqInit ι) ↔
      ∀ before, before <+: turns →
        FreshNumbers (run seqStep before (seqInit ι)).shared.obtained := by
  have hgood : ∀ s : SeqThreads ι, SeqInv s → FreshNumbers s.shared.obtained :=
    fun _ h => h.fresh
  have hstep : ∀ (i : ι) (s : SeqThreads ι), SeqInv s → LoadsAlone i s →
      True ∧ SeqInv (seqStep i s) := fun _ _ h halone => ⟨trivial, h.step halone⟩
  have hback : ∀ (i : ι) (s : SeqThreads ι), SeqInv s → True →
      FreshNumbers (seqStep i s).shared.obtained → LoadsAlone i s :=
    fun _ _ h _ hfresh => by_contra fun halone => h.not_fresh halone hfresh
  rw [along_iff_good hgood hstep hback turns seqInv_init]
  exact and_iff_left (along_true turns _)

/-- Two threads that load one after the other originate with the same number. -/
theorem seqnum_taken_twice :
    ¬ FreshNumbers (run seqStep [0, 1] (seqInit Nat)).shared.obtained := by
  intro h
  exact h.distinct 0 1 1 1 Nat.one_pos (by decide) rfl rfl rfl

end Turpial.Aodvv2
