/-
Turpial.Aodvv2.RcsThreads — callers of the Router Client Set at the same
time (`aodvv2_rcs.c`).

`aodvv2_rcs_add` and `aodvv2_rcs_del` look the prefix up under the lock,
release it, and take it again to write. What was found can be out of date by
then: another caller has added the same prefix, or has deleted the entry and
given its slot to another client.

`StillDecided` says that the lookup, made once more at the moment of the
write, would come to the same decision. That is exactly what keeps the set
consistent (`rcs_consistent_iff`).
-/
import Turpial.Aodvv2.RcsTheorems
import Turpial.Lib.Threads

namespace Turpial.Aodvv2

open Turpial.Lib

/-! ## §1 The callers -/

/-- Where a caller is: between two calls, or between the two sections of one,
with what it has decided in the first. -/
inductive RcsPhase where
  | idle
  | adding (addr : Ipv6Addr) (pfxLen cost : UInt8)
  | deleting (addr : Ipv6Addr) (pfxLen : UInt8) (slot : Nat)
  deriving DecidableEq, Repr

/-- What a call decides in its first section. -/
def rcsLookup : RcsCall → RouterClientSet → RcsPhase
  | .add addr pfxLen cost, rcs =>
    match rcsMatches addr (clampPfxLen pfxLen) rcs with
    | some _ => .idle
    | none => .adding addr pfxLen cost
  | .del addr pfxLen, rcs =>
    match rcsMatches addr pfxLen rcs with
    | none => .idle
    | some slot => .deleting addr pfxLen slot
  | .matches .., _ => .idle
  | .isClient .., _ => .idle

/-- The next section of a caller; between two calls it starts `call`. -/
def rcsNext (call : RcsCall) : RcsPhase → RouterClientSet → RcsPhase × RouterClientSet
  | .idle, rcs => (rcsLookup call rcs, rcs)
  | .adding addr pfxLen cost, rcs => (.idle, (rcsFill addr pfxLen cost rcs).1)
  | .deleting _ _ slot, rcs => (.idle, rcs.set slot {})

variable {ι : Type} [DecidableEq ι]

/-- Callers of the client set. -/
abbrev RcsCallers (ι : Type) := Threads ι RcsPhase RouterClientSet

/-- The turn of a caller, with the call it starts if it is in none. -/
def rcsTurn (turn : ι × RcsCall) (s : RcsCallers ι) : RcsCallers ι :=
  s.act (rcsNext turn.2) turn.1

/-- The callers after `aodvv2_rcs_init`, for a set of `n` slots. -/
def rcsCallers (ι : Type) (n : Nat) : RcsCallers ι := Threads.start .idle (rcsInit n)

/-- A call that is not interrupted does what the call does. -/
theorem rcsTurn_uninterrupted {i : ι} {s : RcsCallers ι} (h : s.phase i = .idle)
    (call : RcsCall) : ∃ turns, run rcsTurn (List.replicate turns (i, call)) s =
      { phase := s.phase
        shared := rcsStep call s.shared } := by
  have hback : Function.update s.phase i RcsPhase.idle = s.phase := by
    rw [← h]
    exact Function.update_eq_self i s.phase
  cases call with
  | add addr pfxLen cost =>
    cases hfound : rcsMatches addr (clampPfxLen pfxLen) s.shared with
    | some slot =>
      refine ⟨1, ?_⟩
      simp [rcsTurn, Threads.act, rcsNext, rcsLookup, rcsStep, rcsAdd, h, hfound, hback]
    | none =>
      refine ⟨2, ?_⟩
      simp [rcsTurn, Threads.act, rcsNext, rcsLookup, rcsStep, rcsAdd, h, hfound, hback]
  | del addr pfxLen =>
    cases hfound : rcsMatches addr pfxLen s.shared with
    | none =>
      refine ⟨1, ?_⟩
      simp [rcsTurn, Threads.act, rcsNext, rcsLookup, rcsStep, rcsDel, h, hfound, hback]
    | some slot =>
      refine ⟨2, ?_⟩
      simp [rcsTurn, Threads.act, rcsNext, rcsLookup, rcsStep, rcsDel, h, hfound, hback]
  | «matches» => exact ⟨0, rfl⟩
  | isClient => exact ⟨0, rfl⟩

/-! ## §2 Consistency -/

/-- No two used entries have the same prefix and prefix length. -/
def NoDuplicates (rcs : RouterClientSet) : Prop :=
  ∀ (i j : Nat) (e f : RcsEntry), rcs[i]? = some e → rcs[j]? = some f → e.used = true →
    f.used = true → e.pfxLen = f.pfxLen →
    prefixOf e.addr e.pfxLen.toNat = prefixOf f.addr f.pfxLen.toNat → i = j

/-- A caller that clears a slot clears the prefix it was called with. With
`freeToo` that is asked of a slot that is free already, too. -/
def ClearsOwn (freeToo : Bool) : RcsPhase → RouterClientSet → Prop
  | .deleting addr pfxLen slot, rcs => ∀ e, rcs[slot]? = some e →
    e.used = true ∨ freeToo = true → e.client? = some (ClientPrefix.of addr pfxLen)
  | _, _ => True

/-- The lookup of a caller that is about to write would find the same now. -/
def StillDecided (freeToo : Bool) : RcsPhase → RouterClientSet → Prop
  | .idle, _ => True
  | .adding addr pfxLen _, rcs =>
    (∃ e ∈ rcs, e.used = false) → rcsMatches addr pfxLen rcs = none
  | .deleting addr pfxLen slot, rcs => ∀ e, rcs[slot]? = some e →
    e.used = true ∨ freeToo = true → rcsMatches addr pfxLen rcs = some slot

/-- The slots are well formed, and no prefix is in two of them. -/
structure ClientTable (rcs : RouterClientSet) : Prop where
  slots : ClientSlots rcs
  distinct : DistinctKeys RcsEntry.client? rcs

theorem clientTable_init (n : Nat) : ClientTable (rcsInit n) :=
  ⟨(rcsInv_init n).slots, (rcsInv_init n).represents.distinct⟩

section Sections

variable {rcs : RouterClientSet} {addr : Ipv6Addr} {pfxLen : UInt8} {freeToo : Bool}

/-- Well-formed entries with the same prefix are found under the same key. -/
theorem ClientTable.noDuplicates (h : ClientTable rcs) : NoDuplicates rcs := by
  intro i j e f hi hj he hf hlen hbits
  obtain ⟨p, hp⟩ := (h.slots e (List.mem_of_getElem? hi)).1 he
  obtain ⟨q, hq⟩ := (h.slots f (List.mem_of_getElem? hj)).1 hf
  obtain ⟨-, hpaddr, hplen⟩ := client?_eq_some.mp hp
  obtain ⟨-, hqaddr, hqlen⟩ := client?_eq_some.mp hq
  have hsame : p = q := by
    rw [ClientPrefix.ext_iff']
    rw [hpaddr, hplen, hqaddr, hqlen, hostBitsZero_iff.mp p.host, hostBitsZero_iff.mp q.host]
      at hbits
    exact ⟨hbits, by rw [← hplen, hlen, hqlen]⟩
  exact h.distinct.unique hi hj hp (hsame ▸ hq)

/-- The lookup finds the slot that holds the prefix. -/
theorem ClientTable.matches_eq (h : ClientTable rcs) {i : Nat} {e : RcsEntry}
    (hi : rcs[i]? = some e) (he : e.client? = some (ClientPrefix.of addr pfxLen)) :
    rcsMatches addr pfxLen rcs = some i := by
  cases hfound : rcsMatches addr pfxLen rcs with
  | none => exact absurd he (rcsMatches_none h.slots hfound e (List.mem_of_getElem? hi))
  | some j =>
    obtain ⟨f, hj, hf⟩ := rcsMatches_some h.slots hfound
    rw [h.distinct.unique hj hi hf he]

/-- Two slots with one prefix are duplicates. -/
theorem duplicates_of_client {i j : Nat} {e f : RcsEntry} {p : ClientPrefix}
    (hi : rcs[i]? = some e) (hj : rcs[j]? = some f) (he : e.client? = some p)
    (hf : f.client? = some p) (hij : i ≠ j) : ¬ NoDuplicates rcs := by
  obtain ⟨heused, headdr, helen⟩ := client?_eq_some.mp he
  obtain ⟨hfused, hfaddr, hflen⟩ := client?_eq_some.mp hf
  intro hno
  refine hij (hno i j e f hi hj heused hfused ?_ ?_)
  · rw [helen, hflen]
  · rw [headdr, helen, hfaddr, hflen]

/-- A section that is still rightly decided keeps the table. -/
theorem ClientTable.next (h : ClientTable rcs) (call : RcsCall) {p : RcsPhase}
    (hdecided : StillDecided freeToo p rcs) :
    ClearsOwn freeToo p rcs ∧ ClientTable (rcsNext call p rcs).2 := by
  cases p with
  | idle => exact ⟨trivial, h⟩
  | adding addr pfxLen cost =>
    refine ⟨trivial, ?_⟩
    change ClientTable (rcsFill addr pfxLen cost rcs).1
    have hout := rcsFill_outcome h.slots addr pfxLen cost
    generalize rcsFill addr pfxLen cost rcs = result at hout
    cases hout with
    | full => exact h
    | @filled i e e' hslot hfree client =>
      have hmem := List.mem_of_getElem? hslot
      have hnew := rcsMatches_none h.slots (hdecided ⟨e, hmem, hfree⟩)
      have hnone := (client?_eq_none (h.slots e hmem)).mpr hfree
      exact ⟨h.slots.set i (wellFormed_of_client client),
        (h.distinct.insert hslot hnone client hnew).1⟩
  | deleting addr pfxLen slot =>
    refine ⟨fun e he hcounts => ?_, h.slots.set slot blank_wellFormed, h.distinct.clear slot rfl⟩
    obtain ⟨f, hf, hclient⟩ := rcsMatches_some h.slots (hdecided e he hcounts)
    rw [he] at hf
    cases hf
    exact hclient

/-- A section that is not makes a duplicate or clears another prefix. -/
theorem ClientTable.decided (h : ClientTable rcs) (call : RcsCall) {p : RcsPhase}
    (hown : ClearsOwn freeToo p rcs) (hno : NoDuplicates (rcsNext call p rcs).2) :
    StillDecided freeToo p rcs := by
  cases p with
  | idle => trivial
  | adding addr pfxLen cost =>
    rintro ⟨free, hmem, hfree⟩
    cases hfound : rcsMatches addr pfxLen rcs with
    | none => rfl
    | some j =>
      obtain ⟨f, hj, hf⟩ := rcsMatches_some h.slots hfound
      change NoDuplicates (rcsFill addr pfxLen cost rcs).1 at hno
      have hout := rcsFill_outcome h.slots addr pfxLen cost
      generalize rcsFill addr pfxLen cost rcs = result at hno hout
      cases hout with
      | full hused =>
        rw [hused free hmem] at hfree
        cases hfree
      | @filled i e e' hslot hunused client =>
        -- The prefix that was added in between is in another slot than the free one.
        have hij : i ≠ j := by
          rintro rfl
          rw [hslot] at hj
          cases hj
          rw [(client?_eq_some.mp hf).1] at hunused
          cases hunused
        have hi : (rcs.set i e')[i]? = some e' := getElem?_written hslot e'
        have hj' : (rcs.set i e')[j]? = some f := by
          rw [List.getElem?_set_ne hij]
          exact hj
        exact absurd hno (duplicates_of_client hi hj' client hf hij)
  | deleting addr pfxLen slot =>
    exact fun e he hcounts => h.matches_eq he (hown e he hcounts)

end Sections

/-! ## §3 Runs -/

/-- **The Router Client Set stays consistent exactly** in the interleavings
in which every writing section is still rightly decided. -/
theorem rcs_consistent_iff (n : Nat) (freeToo : Bool) (turns : List (ι × RcsCall)) :
    Along rcsTurn (fun turn s => StillDecided freeToo (s.phase turn.1) s.shared) turns
        (rcsCallers ι n) ↔
      (∀ before, before <+: turns → NoDuplicates (run rcsTurn before (rcsCallers ι n)).shared) ∧
        Along rcsTurn (fun turn s => ClearsOwn freeToo (s.phase turn.1) s.shared) turns
          (rcsCallers ι n) := by
  have hgood : ∀ s : RcsCallers ι, ClientTable s.shared → NoDuplicates s.shared :=
    fun _ h => h.noDuplicates
  have hstep : ∀ (turn : ι × RcsCall) (s : RcsCallers ι), ClientTable s.shared →
      StillDecided freeToo (s.phase turn.1) s.shared →
      ClearsOwn freeToo (s.phase turn.1) s.shared ∧ ClientTable (rcsTurn turn s).shared :=
    fun turn _ h hdecided => h.next turn.2 hdecided
  have hback : ∀ (turn : ι × RcsCall) (s : RcsCallers ι), ClientTable s.shared →
      ClearsOwn freeToo (s.phase turn.1) s.shared → NoDuplicates (rcsTurn turn s).shared →
      StillDecided freeToo (s.phase turn.1) s.shared :=
    fun turn _ h hown hno => h.decided turn.2 hown hno
  exact along_iff_good hgood hstep hback turns (clientTable_init n)

/-- Two callers that add one prefix at the same time both add it, and one
that deletes a prefix at the same time as another deletes the client that
was given its slot. -/
theorem rcs_races :
    ¬ NoDuplicates (run rcsTurn [(0, .add 1 128 1), (1, .add 1 128 1), (0, .add 1 128 1),
      (1, .add 1 128 1)] (rcsCallers Nat 2)).shared ∧
    ¬ Along rcsTurn (fun turn s => ClearsOwn false (s.phase turn.1) s.shared)
      ([(0, .add 1 128 1), (0, .add 1 128 1), (0, .del 1 128), (1, .del 1 128), (1, .del 1 128),
        (1, .add 2 128 1), (1, .add 2 128 1)] ++ [(0, .del 1 128)]) (rcsCallers Nat 2) := by
  refine ⟨fun hno => ?_, fun hown => ?_⟩
  · exact absurd (hno 0 1 _ _ rfl rfl rfl rfl rfl rfl) Nat.zero_ne_one
  · have hlast := hown.last { addr := 2, pfxLen := 128, cost := 1, used := true } rfl (Or.inl rfl)
    exact absurd hlast (by decide)

end Turpial.Aodvv2
