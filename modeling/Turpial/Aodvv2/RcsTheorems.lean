/-
Turpial.Aodvv2.RcsTheorems — the Router Client Set is a bounded set of
prefixes.

No operation of the set states what it relies on: unused slots are all
zero, so that copying the first bits of an address into one is masking it,
and the stored prefixes are pairwise distinct, so that finding and deleting
the first match is finding and deleting the prefix. `ClientSlots` is that
invariant, and `ClientPrefix` a prefix that cannot have host bits or an
overlong length.

The abstract set is `BoundedSet ClientPrefix n`. A run of calls is related
to the run of insertions and deletions on it, and in every state reached
each call answers what the set says.
-/
import Turpial.Aodvv2.Sets
import Turpial.Lib.Run
import Turpial.Lib.Slots

namespace Turpial.Aodvv2

open Turpial.Lib

/-! ## §1 Prefixes -/

/-- A prefix: at most 128 bits, and nothing behind them. -/
structure ClientPrefix where
  addr : Ipv6Addr
  len : UInt8
  len_le : len.toNat ≤ 128
  host : HostBitsZero addr len.toNat
  deriving DecidableEq

/-- The prefix of an address; lengths above 128 act as 128. -/
def ClientPrefix.of (addr : Ipv6Addr) (pfxLen : UInt8) : ClientPrefix where
  addr := prefixOf addr (clampPfxLen pfxLen).toNat
  len := clampPfxLen pfxLen
  len_le := clampPfxLen_le pfxLen
  host := hostBitsZero_prefixOf _ _

/-- The prefix covers an address. -/
def ClientPrefix.Covers (p : ClientPrefix) (addr : Ipv6Addr) : Prop :=
  prefixOf addr p.len.toNat = p.addr

theorem ClientPrefix.ext_iff' {p q : ClientPrefix} : p = q ↔ p.addr = q.addr ∧ p.len = q.len := by
  obtain ⟨a, l, _, _⟩ := p
  obtain ⟨b, m, _, _⟩ := q
  simp

@[simp] theorem ClientPrefix.of_clampPfxLen (addr : Ipv6Addr) (pfxLen : UInt8) :
    ClientPrefix.of addr (clampPfxLen pfxLen) = ClientPrefix.of addr pfxLen := by
  simp [ClientPrefix.of]

/-- The prefix a slot holds. -/
def RcsEntry.client? (e : RcsEntry) : Option ClientPrefix :=
  if h : e.used = true ∧ e.pfxLen.toNat ≤ 128 ∧ HostBitsZero e.addr e.pfxLen.toNat then
    some ⟨e.addr, e.pfxLen, h.2.1, h.2.2⟩
  else none

theorem client?_eq_some {e : RcsEntry} {p : ClientPrefix} :
    e.client? = some p ↔ e.used = true ∧ e.addr = p.addr ∧ e.pfxLen = p.len := by
  unfold RcsEntry.client?
  constructor
  · intro h
    split at h
    · rename_i hused
      cases h
      exact ⟨hused.1, rfl, rfl⟩
    · cases h
  · rintro ⟨hu, ha, hl⟩
    have hall : e.used = true ∧ e.pfxLen.toNat ≤ 128 ∧ HostBitsZero e.addr e.pfxLen.toNat :=
      ⟨hu, by rw [hl]; exact p.len_le, by rw [ha, hl]; exact p.host⟩
    rw [dif_pos hall, Option.some.injEq, ClientPrefix.ext_iff']
    exact ⟨ha, hl⟩

/-! ## §2 The invariant -/

/-- A used slot holds a prefix, and an unused one is all zero. -/
def RcsEntry.WellFormed (e : RcsEntry) : Prop :=
  (e.used = true → ∃ p, e.client? = some p) ∧ (e.used = false → e = {})

/-- Every slot of the set is well formed. -/
def ClientSlots (rcs : RouterClientSet) : Prop := ∀ e ∈ rcs, e.WellFormed

theorem blank_wellFormed : RcsEntry.WellFormed {} :=
  ⟨fun h => absurd h Bool.false_ne_true, fun _ => rfl⟩

theorem client?_eq_none {e : RcsEntry} (h : e.WellFormed) : e.client? = none ↔ e.used = false := by
  constructor
  · intro hnone
    cases hu : e.used with
    | false => rfl
    | true =>
      obtain ⟨p, hp⟩ := h.1 hu
      rw [hnone] at hp
      cases hp
  · intro hu
    unfold RcsEntry.client?
    rw [dif_neg (by simp [hu])]

theorem ClientSlots.set {rcs : RouterClientSet} (h : ClientSlots rcs) (i : Nat) {e : RcsEntry}
    (he : e.WellFormed) : ClientSlots (rcs.set i e) := by
  intro e' he'
  rcases List.mem_or_eq_of_mem_set he' with he' | rfl
  · exact h e' he'
  · exact he

/-- The prefix comparison of the code is the one of prefixes. -/
theorem covers_iff {e : RcsEntry} {p : ClientPrefix} (hp : e.client? = some p) (addr : Ipv6Addr) :
    e.covers addr = true ↔ p.Covers addr := by
  obtain ⟨-, ha, hl⟩ := client?_eq_some.mp hp
  unfold RcsEntry.covers ClientPrefix.Covers
  rw [decide_eq_true_iff, ge_iff_le, ha, hl, le_ipv6AddrMatchPrefix_iff p.len_le,
    hostBitsZero_iff.mp p.host]
  exact eq_comm

/-- The test of `aodvv2_rcs_matches`. -/
theorem matches_iff {e : RcsEntry} (h : e.WellFormed) (addr : Ipv6Addr) (pfxLen : UInt8) :
    (e.used && e.pfxLen == clampPfxLen pfxLen && e.covers addr) = true ↔
      e.client? = some (ClientPrefix.of addr pfxLen) := by
  rw [Bool.and_eq_true, Bool.and_eq_true, beq_iff_eq]
  constructor
  · rintro ⟨⟨hu, hl⟩, hcovers⟩
    obtain ⟨p, hp⟩ := h.1 hu
    have hlen : p.len = clampPfxLen pfxLen := (client?_eq_some.mp hp).2.2.symm.trans hl
    rw [covers_iff hp] at hcovers
    rw [hp, Option.some.injEq, ClientPrefix.ext_iff']
    refine ⟨?_, hlen⟩
    change p.addr = prefixOf addr (clampPfxLen pfxLen).toNat
    rw [← hlen]
    exact hcovers.symm
  · intro hp
    obtain ⟨hu, -, hl⟩ := client?_eq_some.mp hp
    exact ⟨⟨hu, hl⟩, (covers_iff hp addr).mpr rfl⟩

/-! ## §3 The operations -/

section Operations

variable {n : Nat} {rcs : RouterClientSet} {s : BoundedSet ClientPrefix n}

/-- What the table and the set have to do with each other. -/
structure RcsInv (rcs : RouterClientSet) (s : BoundedSet ClientPrefix n) : Prop where
  slots : ClientSlots rcs
  represents : Represents RcsEntry.client? rcs s

theorem rcsInv_init (n : Nat) : RcsInv (rcsInit n) (BoundedSet.empty ClientPrefix n) := by
  have hblank : ∀ e ∈ rcsInit n, e = {} := fun e he => List.eq_of_mem_replicate he
  have hlen : (rcsInit n).length = n := List.length_replicate
  refine ⟨fun e he => hblank e he ▸ blank_wellFormed, ?_⟩
  have h : Represents RcsEntry.client? (rcsInit n) (BoundedSet.empty _ (rcsInit n).length) :=
    represents_empty fun e he => hblank e he ▸ rfl
  rw [hlen] at h
  exact h

/-- A slot that matches holds the prefix that was asked for. -/
theorem rcsMatches_some (h : ClientSlots rcs) {addr : Ipv6Addr} {pfxLen : UInt8} {i : Nat}
    (hi : rcsMatches addr pfxLen rcs = some i) :
    ∃ e, rcs[i]? = some e ∧ e.client? = some (ClientPrefix.of addr pfxLen) := by
  obtain ⟨e, he, hhit, -⟩ := scan_some _ _ hi
  exact ⟨e, he, (matches_iff (h e (List.mem_of_getElem? he)) addr pfxLen).mp hhit⟩

/-- If none matches, none holds it. -/
theorem rcsMatches_none (h : ClientSlots rcs) {addr : Ipv6Addr} {pfxLen : UInt8}
    (hnone : rcsMatches addr pfxLen rcs = none) :
    ∀ e ∈ rcs, e.client? ≠ some (ClientPrefix.of addr pfxLen) := by
  intro e he hclient
  obtain ⟨i, hi⟩ := List.getElem?_of_mem he
  have hmiss := (scan_none _ _ hnone i e hi).2
  rw [(matches_iff (h e he) addr pfxLen).mpr hclient] at hmiss
  cases hmiss

/-- `aodvv2_rcs_matches` finds the prefixes of the set. -/
theorem RcsInv.matches_isSome_iff (h : RcsInv rcs s) (addr : Ipv6Addr) (pfxLen : UInt8) :
    (rcsMatches addr pfxLen rcs).isSome = true ↔ ClientPrefix.of addr pfxLen ∈ s := by
  rw [h.represents.mem_iff]
  cases hfound : rcsMatches addr pfxLen rcs with
  | some i =>
    obtain ⟨e, he, hclient⟩ := rcsMatches_some h.slots hfound
    exact ⟨fun _ => ⟨e, List.mem_of_getElem? he, hclient⟩, fun _ => rfl⟩
  | none =>
    refine ⟨fun hsome => absurd hsome Bool.false_ne_true, ?_⟩
    rintro ⟨e, he, hclient⟩
    exact absurd hclient (rcsMatches_none h.slots hfound e he)

/-- `aodvv2_rcs_is_client` finds a prefix that covers the address, if there is one. -/
theorem RcsInv.isClient_isSome_iff (h : RcsInv rcs s) (addr : Ipv6Addr) :
    (rcsIsClient addr rcs).isSome = true ↔ ∃ p ∈ s, p.Covers addr := by
  constructor
  · intro hsome
    obtain ⟨e, he⟩ := Option.isSome_iff_exists.mp hsome
    obtain ⟨hmem, hu, hcovers⟩ := rcsIsClient_some he
    obtain ⟨p, hp⟩ := (h.slots e hmem).1 hu
    exact ⟨p, h.represents.mem_iff.mpr ⟨e, hmem, hp⟩, (covers_iff hp addr).mp hcovers⟩
  · rintro ⟨p, hp, hcovers⟩
    obtain ⟨e, hmem, hclient⟩ := h.represents.mem_iff.mp hp
    exact isClient_of_mem hmem (client?_eq_some.mp hclient).1 ((covers_iff hclient addr).mpr hcovers)

/-- The entry that `aodvv2_rcs_is_client` returns holds such a prefix. -/
theorem RcsInv.isClient_some (h : RcsInv rcs s) {addr : Ipv6Addr} {e : RcsEntry}
    (he : rcsIsClient addr rcs = some e) :
    ∃ p ∈ s, e.client? = some p ∧ p.Covers addr := by
  obtain ⟨hmem, hu, hcovers⟩ := rcsIsClient_some he
  obtain ⟨p, hp⟩ := (h.slots e hmem).1 hu
  exact ⟨p, h.represents.mem_iff.mpr ⟨e, hmem, hp⟩, hp, (covers_iff hp addr).mp hcovers⟩

/-- How the section that takes a free slot ends. -/
inductive FillOutcome (p : ClientPrefix) (cost : UInt8) (rcs : RouterClientSet) :
    RouterClientSet × Option Nat → Prop
  | full (hused : ∀ e ∈ rcs, e.used = true) : FillOutcome p cost rcs (rcs, none)
  | filled {i : Nat} {e e' : RcsEntry} (hslot : rcs[i]? = some e) (hfree : e.used = false)
      (client : e'.client? = some p) (hcost : e'.cost = cost) :
      FillOutcome p cost rcs (rcs.set i e', some i)

theorem rcsFill_outcome (h : ClientSlots rcs) (addr : Ipv6Addr) (pfxLen cost : UInt8) :
    FillOutcome (ClientPrefix.of addr pfxLen) cost rcs (rcsFill addr pfxLen cost rcs) := by
  unfold rcsFill
  generalize hfill : (fun e : RcsEntry =>
    ({ addr := ipv6AddrInitPrefix e.addr addr (clampPfxLen pfxLen).toNat
       pfxLen := clampPfxLen pfxLen
       cost := cost
       used := true } : RcsEntry)) = fill
  cases hfound : (fillFree (fun e : RcsEntry => !e.used) fill rcs).2 with
  | none =>
    obtain ⟨heq, hall⟩ := fillFree_none _ _ hfound
    rw [← Prod.mk.eta (p := fillFree _ _ rcs), heq, hfound]
    exact .full fun e he => by simpa using hall e he
  | some i =>
    obtain ⟨e, he, hunused, heq⟩ := fillFree_some _ _ hfound
    have hfree : e.used = false := by simpa using hunused
    have hblank : e = {} := (h e (List.mem_of_getElem? he)).2 hfree
    -- The slot is all zero, so the copy of the first bits is the prefix.
    have hclient : (fill e).client? = some (ClientPrefix.of addr pfxLen) := by
      rw [client?_eq_some, ← hfill, hblank]
      exact ⟨rfl, ipv6AddrInitPrefix_unspecified _ _, rfl⟩
    rw [← Prod.mk.eta (p := fillFree _ _ rcs), heq, hfound]
    exact .filled he hfree hclient (by rw [← hfill])

/-- A slot that holds a client is well formed. -/
theorem wellFormed_of_client {e : RcsEntry} {p : ClientPrefix} (h : e.client? = some p) :
    e.WellFormed :=
  ⟨fun _ => ⟨p, h⟩, fun hu => by rw [(client?_eq_some.mp h).1] at hu; cases hu⟩

/-- How `aodvv2_rcs_add` ends. -/
inductive AddOutcome (s : BoundedSet ClientPrefix n) (p : ClientPrefix) (cost : UInt8)
    (rcs : RouterClientSet) : RouterClientSet × Option Nat → Prop
  | refused (hadmits : ¬ s.Admits p) : AddOutcome s p cost rcs (rcs, none)
  | added {i : Nat} {e : RcsEntry} (hadmits : s.Admits p) (inv : RcsInv (rcs.set i e) (s.add p))
      (client : e.client? = some p) (hcost : e.cost = cost) (slot : i < rcs.length) :
      AddOutcome s p cost rcs (rcs.set i e, some i)

theorem RcsInv.add (h : RcsInv rcs s) (addr : Ipv6Addr) (pfxLen cost : UInt8) :
    AddOutcome s (ClientPrefix.of addr pfxLen) cost rcs (rcsAdd addr pfxLen cost rcs) := by
  unfold rcsAdd
  cases hfound : rcsMatches addr (clampPfxLen pfxLen) rcs with
  | some i =>
    refine .refused fun hadmits => hadmits.1 ?_
    have hmem := (h.matches_isSome_iff addr (clampPfxLen pfxLen)).mp (by rw [hfound]; rfl)
    rw [ClientPrefix.of_clampPfxLen] at hmem
    exact hmem
  | none =>
    have hnew := rcsMatches_none h.slots hfound
    rw [ClientPrefix.of_clampPfxLen] at hnew
    have hout := rcsFill_outcome h.slots addr pfxLen cost
    generalize rcsFill addr pfxLen cost rcs = result at hout
    cases hout with
    | full hused =>
      refine .refused ?_
      rintro ⟨-, hlt⟩
      obtain ⟨e, he, hnone⟩ := h.represents.card_lt_iff.mp hlt
      rw [client?_eq_none (h.slots e he), hused e he] at hnone
      cases hnone
    | @filled i e e' hslot hfree client hcost =>
      have hnone : e.client? = none :=
        (client?_eq_none (h.slots e (List.mem_of_getElem? hslot))).mpr hfree
      have hnotin : ClientPrefix.of addr pfxLen ∉ s := by
        rw [h.represents.mem_iff]
        rintro ⟨e', he', hc⟩
        exact hnew e' he' hc
      obtain ⟨hadmits, hrepresents⟩ := h.represents.fill hslot hnone client hnotin
      exact .added hadmits ⟨h.slots.set i (wellFormed_of_client client), hrepresents⟩ client hcost
        (List.getElem?_eq_some_iff.mp hslot).1

/-- `aodvv2_rcs_del` removes the prefix. -/
theorem RcsInv.del (h : RcsInv rcs s) (addr : Ipv6Addr) (pfxLen : UInt8) :
    RcsInv (rcsDel addr pfxLen rcs) (s.del (ClientPrefix.of addr pfxLen)) := by
  unfold rcsDel
  cases hfound : rcsMatches addr pfxLen rcs with
  | none =>
    refine ⟨h.slots, h.represents.absent ?_⟩
    rw [← h.matches_isSome_iff, hfound]
    exact Bool.false_ne_true
  | some i =>
    obtain ⟨e, he, hclient⟩ := rcsMatches_some h.slots hfound
    exact ⟨h.slots.set i blank_wellFormed, h.represents.free he hclient rfl⟩

end Operations

/-! ## §4 Runs -/

/-- A call of the client set. -/
inductive RcsCall where
  | add (addr : Ipv6Addr) (pfxLen cost : UInt8)
  | del (addr : Ipv6Addr) (pfxLen : UInt8)
  | matches (addr : Ipv6Addr) (pfxLen : UInt8)
  | isClient (addr : Ipv6Addr)

/-- The table after it. -/
def rcsStep : RcsCall → RouterClientSet → RouterClientSet
  | .add addr pfxLen cost, rcs => (rcsAdd addr pfxLen cost rcs).1
  | .del addr pfxLen, rcs => rcsDel addr pfxLen rcs
  | .matches .., rcs => rcs
  | .isClient .., rcs => rcs

/-- The set after it. -/
def clientSetStep {n : Nat} : RcsCall → BoundedSet ClientPrefix n → BoundedSet ClientPrefix n
  | .add addr pfxLen _, s => s.add (ClientPrefix.of addr pfxLen)
  | .del addr pfxLen, s => s.del (ClientPrefix.of addr pfxLen)
  | .matches .., s => s
  | .isClient .., s => s

theorem RcsInv.step {n : Nat} (call : RcsCall) (rcs : RouterClientSet)
    (s : BoundedSet ClientPrefix n) (h : RcsInv rcs s) :
    RcsInv (rcsStep call rcs) (clientSetStep call s) := by
  cases call with
  | add addr pfxLen cost =>
    have hout := h.add addr pfxLen cost
    change RcsInv (rcsAdd addr pfxLen cost rcs).1 (s.add (ClientPrefix.of addr pfxLen))
    generalize rcsAdd addr pfxLen cost rcs = result at hout
    cases hout with
    | refused hadmits =>
      rw [BoundedSet.add_of_not_admits hadmits]
      exact h
    | added hadmits inv => exact inv
  | del addr pfxLen => exact h.del addr pfxLen
  | «matches» => exact h
  | isClient => exact h

theorem rcsInv_run (n : Nat) (calls : List RcsCall) :
    RcsInv (run rcsStep calls (rcsInit n))
      (run clientSetStep calls (BoundedSet.empty ClientPrefix n)) :=
  run_simulation RcsInv.step calls (rcsInv_init n)

/-- The table is the set, and every call answers what the set says. -/
structure RefinesSet {n : Nat} (rcs : RouterClientSet) (s : BoundedSet ClientPrefix n) : Prop where
  /-- The used slots hold the prefixes of the set, each once. -/
  represents : Represents RcsEntry.client? rcs s
  used : ∀ e ∈ rcs, e.used = true → ∃ p ∈ s, e.client? = some p
  /-- Adding succeeds exactly when the set admits the prefix. -/
  add_iff : ∀ addr pfxLen cost, (rcsAdd addr pfxLen cost rcs).2.isSome = true ↔
    s.Admits (ClientPrefix.of addr pfxLen)
  add_some : ∀ addr pfxLen cost, s.Admits (ClientPrefix.of addr pfxLen) →
    ∃ i e, rcsAdd addr pfxLen cost rcs = (rcs.set i e, some i) ∧ i < rcs.length ∧
      e.client? = some (ClientPrefix.of addr pfxLen) ∧ e.cost = cost ∧
      Represents RcsEntry.client? (rcs.set i e) (s.add (ClientPrefix.of addr pfxLen))
  add_none : ∀ addr pfxLen cost, ¬ s.Admits (ClientPrefix.of addr pfxLen) →
    rcsAdd addr pfxLen cost rcs = (rcs, none)
  /-- Deleting removes the prefix and nothing else. -/
  del : ∀ addr pfxLen, Represents RcsEntry.client? (rcsDel addr pfxLen rcs)
    (s.del (ClientPrefix.of addr pfxLen))
  matches_iff : ∀ addr pfxLen, (rcsMatches addr pfxLen rcs).isSome = true ↔
    ClientPrefix.of addr pfxLen ∈ s
  isClient_iff : ∀ addr, (rcsIsClient addr rcs).isSome = true ↔ ∃ p ∈ s, p.Covers addr
  isClient_some : ∀ addr e, rcsIsClient addr rcs = some e →
    ∃ p ∈ s, e.client? = some p ∧ p.Covers addr

theorem RcsInv.refinesSet {n : Nat} {rcs : RouterClientSet} {s : BoundedSet ClientPrefix n}
    (h : RcsInv rcs s) : RefinesSet rcs s where
  represents := h.represents
  used e he hu := by
    obtain ⟨p, hp⟩ := (h.slots e he).1 hu
    exact ⟨p, h.represents.mem_iff.mpr ⟨e, he, hp⟩, hp⟩
  add_iff addr pfxLen cost := by
    have hout := h.add addr pfxLen cost
    generalize rcsAdd addr pfxLen cost rcs = result at hout
    cases hout with
    | refused hadmits =>
      exact ⟨fun hsome => absurd hsome Bool.false_ne_true, fun ha => absurd ha hadmits⟩
    | added hadmits => exact ⟨fun _ => hadmits, fun _ => rfl⟩
  add_some addr pfxLen cost hadmits := by
    have hout := h.add addr pfxLen cost
    generalize rcsAdd addr pfxLen cost rcs = result at hout
    cases hout with
    | refused hnot => exact absurd hadmits hnot
    | @added i e _ inv client hcost slot => exact ⟨i, e, rfl, slot, client, hcost, inv.represents⟩
  add_none addr pfxLen cost hnot := by
    have hout := h.add addr pfxLen cost
    generalize rcsAdd addr pfxLen cost rcs = result at hout ⊢
    cases hout with
    | refused => rfl
    | added hadmits => exact absurd hadmits hnot
  del addr pfxLen := (h.del addr pfxLen).represents
  matches_iff := h.matches_isSome_iff
  isClient_iff := h.isClient_isSome_iff
  isClient_some _ _ := h.isClient_some

/-- **The Router Client Set refines a bounded set of prefixes**, in every
state that calls can lead to. -/
theorem rcs_refinesSet (n : Nat) (calls : List RcsCall) :
    RefinesSet (run rcsStep calls (rcsInit n))
      (run clientSetStep calls (BoundedSet.empty ClientPrefix n)) :=
  (rcsInv_run n calls).refinesSet

end Turpial.Aodvv2
