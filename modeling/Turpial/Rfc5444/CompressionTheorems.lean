/-
Turpial.Rfc5444.CompressionTheorems — what the division into address blocks
guarantees, and when there is one.

§1 is the choice of a head length. §2 is what a session says about the
addresses so far (`SessionOk`): its block ends with the last address, all
addresses of the block share the head, and they share the prefix length
unless the block is marked as having several. One address keeps it
(`compress_sessionOk`).

§3 carries this along the addresses to the marks, and §4 from the marks to
the blocks: they cover the addresses without gap or overlap, and what each
of them leaves out is the same for all its addresses (`blocksOf_division`).

§5 is about success. What the writer reckons for every address in a block of
its own is a bound on its estimate for the longest head, so a message with
room for that is never too long (`blocksOf_ok_iff`); what is left is the read
behind the end of `acs`, on two neighbours with the same bytes.
-/
import Turpial.Rfc5444.Compression

namespace Turpial.Rfc5444

open Turpial.Lib

variable {n : Nat}

/-! ## §1 The best head -/

/-- The best head is cheapest among those from the common head on. -/
theorem bestHead_spec (acs : Sessions n) (common : Fin (n + 1)) :
    common ≤ bestHead acs common ∧
      ∀ i, common < i → (acs (bestHead acs common)).total ≤ (acs i).total := by
  have hfold : ∀ (is : List (Fin (n + 1))) (best : Fin (n + 1)), common ≤ best →
      let r := is.foldl
        (fun best i => if common < i ∧ (acs i).total < (acs best).total then i else best) best
      common ≤ r ∧ (acs r).total ≤ (acs best).total ∧
        ∀ i ∈ is, common < i → (acs r).total ≤ (acs i).total := by
    intro is
    induction is with
    | nil => exact fun best hb => ⟨hb, Int.le_refl _, by simp⟩
    | cons i is ih =>
      intro best hb
      rw [List.foldl_cons]
      split
      · rename_i hi
        obtain ⟨hle, hbest, hall⟩ := ih i (Fin.le_of_lt hi.1)
        refine ⟨hle, by omega, fun j hj hc => ?_⟩
        rcases List.mem_cons.mp hj with rfl | hj
        · exact hbest
        · exact hall j hj hc
      · rename_i hi
        obtain ⟨hle, hbest, hall⟩ := ih best hb
        refine ⟨hle, hbest, fun j hj hc => ?_⟩
        rcases List.mem_cons.mp hj with rfl | hj
        · have : ¬ (acs j).total < (acs best).total := fun hlt => hi ⟨hc, hlt⟩
          omega
        · exact hall j hj hc
  obtain ⟨hle, -, hall⟩ := hfold (List.finRange (n + 1)) common (Fin.le_refl _)
  exact ⟨hle, fun i hi => hall i (List.mem_finRange i) hi⟩

/-- An address without a mark gets that of the best head. -/
theorem closeAddrblock_mark (acs : Sessions n) (common : Fin (n + 1)) :
    (closeAddrblock acs none common).1 =
      some ⟨(acs (bestHead acs common)).ptr, (acs (bestHead acs common)).multiplen,
        (bestHead acs common).val⟩ := by
  unfold closeAddrblock
  simp

/-- Closing only touches totals. -/
theorem closeAddrblock_session (acs : Sessions n) (mark : Option BlockMark)
    (common i : Fin (n + 1)) :
    ((closeAddrblock acs mark common).2 i).ptr = (acs i).ptr ∧
      ((closeAddrblock acs mark common).2 i).multiplen = (acs i).multiplen := by
  unfold closeAddrblock
  dsimp only
  split <;> exact ⟨rfl, rfl⟩

/-- The longest head never gets dearer by closing. -/
theorem closeAddrblock_total_le (acs : Sessions n) (mark : Option BlockMark)
    (common : Fin (n + 1)) :
    ((closeAddrblock acs mark common).2 (Fin.last n)).total ≤ (acs (Fin.last n)).total := by
  unfold closeAddrblock
  dsimp only
  split
  · rename_i hlt
    exact (bestHead_spec acs common).2 _ hlt
  · exact Int.le_refl _

/-! ## §2 Sessions -/

/-- The addresses of a block share the head, and the prefix length unless
every address has its own. -/
structure BlockValid (members : List (WriterAddress n)) (headlen : Nat) (multiple : Bool) : Prop where
  head : ∀ a ∈ members, ∀ b ∈ members, a.addr.take headlen = b.addr.take headlen
  prefixLens : multiple = false → ∀ a ∈ members, ∀ b ∈ members, a.prefixLen = b.prefixLen

theorem BlockValid.single (a : WriterAddress n) (headlen : Nat) (multiple : Bool) :
    BlockValid [a] headlen multiple where
  head := by
    intro x hx y hy
    rw [List.mem_singleton.mp hx, List.mem_singleton.mp hy]
  prefixLens := by
    intro _ x hx y hy
    rw [List.mem_singleton.mp hx, List.mem_singleton.mp hy]

/-- A block goes on with an address that agrees with one of its own. -/
theorem BlockValid.append {members : List (WriterAddress n)} {headlen : Nat}
    {multiple multiple' : Bool} {l a : WriterAddress n} (h : BlockValid members headlen multiple)
    (hl : l ∈ members) (hhead : l.addr.take headlen = a.addr.take headlen)
    (hmulti : multiple' = false → multiple = false ∧ l.prefixLen = a.prefixLen) :
    BlockValid (members ++ [a]) headlen multiple' := by
  have hto : ∀ x ∈ members ++ [a], x.addr.take headlen = l.addr.take headlen := by
    intro x hx
    rcases List.mem_append.mp hx with hx | hx
    · exact h.head x hx l hl
    · rw [List.mem_singleton.mp hx, hhead]
  refine ⟨fun x hx y hy => (hto x hx).trans (hto y hy).symm, fun hm => ?_⟩
  obtain ⟨hm, hp⟩ := hmulti hm
  have hto' : ∀ x ∈ members ++ [a], x.prefixLen = l.prefixLen := by
    intro x hx
    rcases List.mem_append.mp hx with hx | hx
    · exact h.prefixLens hm x hx l hl
    · rw [List.mem_singleton.mp hx, hp]
  exact fun x hx y hy => (hto' x hx).trans (hto' y hy).symm

/-- What a session with head length `i` says about the addresses so far. -/
structure SessionOk (done : List (WriterAddress n)) (i : Nat) (s : CompressSession) : Prop where
  ptr_lt : s.ptr < done.length
  valid : BlockValid (done.drop s.ptr) i s.multiplen

theorem getLast_mem_drop {α : Type} {xs : List α} {x : α} {p : Nat} (h : xs.getLast? = some x)
    (hp : p < xs.length) : x ∈ xs.drop p := by
  have hlast : (xs.drop p).getLast? = some x := by
    rw [List.getLast?_drop, if_neg (by omega), h]
  exact List.mem_of_getLast? hlast

/-- `same_prefixlen` is 1 exactly when the prefix length changes. -/
theorem nextSamePrefixlen_eq_one {same : Nat} {l addr : WriterAddress n} (h : 1 ≤ same) :
    nextSamePrefixlen same (some l) addr = 1 ↔ l.prefixLen ≠ addr.prefixLen := by
  unfold nextSamePrefixlen
  dsimp only
  split
  · rename_i heq
    exact ⟨fun h1 => absurd h1 (by omega), fun hne => absurd heq hne⟩
  · rename_i hne
    exact ⟨fun _ => hne, fun _ => rfl⟩

theorem one_le_nextSamePrefixlen {same : Nat} (h : 1 ≤ same) (last : Option (WriterAddress n))
    (addr : WriterAddress n) : 1 ≤ nextSamePrefixlen same last addr := by
  unfold nextSamePrefixlen
  split
  · exact h
  · split <;> omega

/-- Addresses that share `commonHead` bytes share every shorter head. -/
theorem take_eq_of_le_commonHead {l addr : WriterAddress n} {i : Nat} (hi : i ≤ n + 1)
    (h : i ≤ commonHead (some l) addr) : l.addr.take i = addr.addr.take i := by
  apply (le_commonLen_iff _ _).mp h
  · rw [l.length_addr]
    exact hi
  · rw [addr.length_addr]
    exact hi

/-- One address keeps what a session says, whether the block goes on or
starts anew. -/
theorem compress_sessionOk {done : List (WriterAddress n)} {last : Option (WriterAddress n)}
    {addr : WriterAddress n} {same : Nat} (hlast : done.getLast? = last) (hsame : 1 ≤ same)
    {base : Int} {i : Fin (n + 1)} {s : CompressSession}
    (hs : last.isSome → SessionOk done i s) :
    SessionOk (done ++ [addr]) i
      (s.compress base (nextSamePrefixlen same last addr) (commonHead last addr) i done.length last
        addr) := by
  unfold CompressSession.compress
  dsimp only
  cases hc : s.closes base (nextSamePrefixlen same last addr) (commonHead last addr) i done.length
      last addr with
  | true =>
    refine ⟨by simp, ?_⟩
    simp only [if_true, List.drop_left]
    exact BlockValid.single addr _ _
  | false =>
    unfold CompressSession.closes at hc
    rw [Bool.or_eq_false_iff, Bool.or_eq_false_iff] at hc
    obtain ⟨⟨hnone, hcommon⟩, -⟩ := hc
    cases last with
    | none => cases hnone
    | some l =>
      obtain ⟨hptr, hvalid⟩ := hs rfl
      refine ⟨?_, ?_⟩
      · simp only [Bool.false_eq_true, if_false, List.length_append, List.length_singleton]
        omega
      · simp only [Bool.false_eq_true, if_false]
        rw [List.drop_append_of_le_length (Nat.le_of_lt hptr)]
        apply hvalid.append (getLast_mem_drop hlast hptr)
        · apply take_eq_of_le_commonHead (Nat.le_of_lt i.isLt)
          exact Nat.le_of_not_lt (of_decide_eq_false hcommon)
        · intro hm
          rw [Bool.or_eq_false_iff] at hm
          refine ⟨hm.1, ?_⟩
          have hne := (not_congr (nextSamePrefixlen_eq_one hsame)).mp (of_decide_eq_false hm.2)
          exact not_not.mp hne

/-! ## §3 Marks -/

/-- The mark of address `j` describes a block that ends there. -/
structure MarkOk (addrs : List (WriterAddress n)) (j : Nat) (mark : BlockMark) : Prop where
  start_le : mark.start ≤ j
  headlen_le : mark.headlen ≤ n
  valid : BlockValid ((addrs.take (j + 1)).drop mark.start) mark.headlen mark.multiplePrefixlen

/-- Every address has such a mark. -/
structure MarksOk (addrs : List (WriterAddress n)) (marks : List (Option BlockMark)) : Prop where
  length : marks.length = addrs.length
  marked : ∀ j < addrs.length, ∃ mark, marks[j]? = some (some mark) ∧ MarkOk addrs j mark

/-- No address has the same bytes as its neighbour. -/
def NeighboursDiffer (addrs : List (WriterAddress n)) : Prop :=
  addrs.IsChain fun a b => a.addr ≠ b.addr

/-- Neighbours that differ have a common head within `acs`. -/
theorem commonHead_lt_iff (l addr : WriterAddress n) :
    commonHead (some l) addr < n + 1 ↔ l.addr ≠ addr.addr := by
  rw [← commonLen_lt_iff_ne (l.length_addr.trans addr.length_addr.symm), l.length_addr]
  rfl

/-- Marks of a list are marks of a longer one. -/
theorem MarkOk.append {addrs rest : List (WriterAddress n)} {j : Nat} {mark : BlockMark}
    (h : MarkOk addrs j mark) (hj : j < addrs.length) : MarkOk (addrs ++ rest) j mark where
  start_le := h.start_le
  headlen_le := h.headlen_le
  valid := by
    rw [List.take_append_of_le_length hj]
    exact h.valid

/-- The mark that closing gives the last address. -/
theorem closeAddrblock_markOk {done : List (WriterAddress n)} {acs : Sessions n}
    (hacs : ∀ i : Fin (n + 1), SessionOk done i (acs i)) (hdone : done ≠ []) (common : Fin (n + 1)) :
    ∃ mark, (closeAddrblock acs none common).1 = some mark ∧ MarkOk done (done.length - 1) mark := by
  have hpos := List.length_pos_iff.mpr hdone
  refine ⟨_, closeAddrblock_mark acs common, ?_⟩
  obtain ⟨hptr, hvalid⟩ := hacs (bestHead acs common)
  refine ⟨by simp only; omega, Nat.le_of_lt_succ (bestHead acs common).isLt, ?_⟩
  rw [Nat.sub_add_cancel hpos, List.take_length]
  exact hvalid

/-- The mark of the address at the end of `done` completes the marks. -/
theorem MarksOk.snoc {done : List (WriterAddress n)} {l : WriterAddress n}
    {marks : List (Option BlockMark)} {mark : BlockMark} (h : MarksOk done marks)
    (hmark : MarkOk (done ++ [l]) done.length mark) :
    MarksOk (done ++ [l]) (marks ++ [some mark]) where
  length := by
    rw [List.length_append, List.length_append, h.length]
    rfl
  marked := by
    intro j hj
    rw [List.length_append, List.length_singleton] at hj
    by_cases hlt : j < done.length
    · obtain ⟨m, hm, hok⟩ := h.marked j hlt
      refine ⟨m, ?_, hok.append hlt⟩
      rw [List.getElem?_append_left (by rw [h.length]; exact hlt), hm]
    · have heq : j = done.length := by omega
      refine ⟨mark, ?_, by rw [heq]; exact hmark⟩
      rw [heq, ← h.length, List.getElem?_concat_length]

theorem getLast?_snoc {α : Type} (xs : List α) (x : α) : (xs ++ [x]).getLast? = some x := by
  simp

/-- The session behind an address whose neighbour has other bytes. -/
def compressed (acs : Sessions n) (same k : Nat) (l addr : WriterAddress n)
    (common : Fin (n + 1)) : Sessions n := fun i =>
  ((closeAddrblock acs none common).2 i).compress
    ((closeAddrblock acs none common).2 (Fin.last n)).total (nextSamePrefixlen same (some l) addr)
    common i k (some l) addr

theorem compressAddress_some (acs : Sessions n) (same k : Nat) {l addr : WriterAddress n}
    (hlt : commonHead (some l) addr < n + 1) :
    compressAddress acs same k (some l) addr =
      .ok ((closeAddrblock acs none ⟨_, hlt⟩).1, compressed acs same k l addr ⟨_, hlt⟩,
        nextSamePrefixlen same (some l) addr) := by
  unfold compressAddress closeLast
  dsimp only
  rw [dif_pos hlt]
  rfl

/-- One address: the sessions stay right, and the address before gets a
mark. -/
theorem compressAddress_ok {before : List (WriterAddress n)} {l addr : WriterAddress n}
    {acs : Sessions n} {same : Nat} (hsame : 1 ≤ same)
    (hacs : ∀ i : Fin (n + 1), SessionOk (before ++ [l]) i (acs i)) (hne : l.addr ≠ addr.addr) :
    ∃ mark acs' same', compressAddress acs same (before.length + 1) (some l) addr =
        .ok (some mark, acs', same') ∧ MarkOk (before ++ [l]) before.length mark ∧ 1 ≤ same' ∧
      ∀ i : Fin (n + 1), SessionOk (before ++ [l] ++ [addr]) i (acs' i) := by
  have hlt := (commonHead_lt_iff l addr).mpr hne
  obtain ⟨mark, hmark, hok⟩ := closeAddrblock_markOk hacs (by simp) ⟨_, hlt⟩
  rw [List.length_append, List.length_singleton, Nat.add_sub_cancel] at hok
  refine ⟨mark, compressed acs same (before.length + 1) l addr ⟨_, hlt⟩,
    nextSamePrefixlen same (some l) addr, ?_, hok,
    one_le_nextSamePrefixlen hsame (some l) addr, fun i => ?_⟩
  · rw [compressAddress_some acs same _ hlt, hmark]
  · have hstep := @compress_sessionOk n (before ++ [l]) (some l) addr same (getLast?_snoc _ _) hsame
      ((closeAddrblock acs none ⟨_, hlt⟩).2 (Fin.last n)).total i
      ((closeAddrblock acs none ⟨_, hlt⟩).2 i) fun _ => by
        obtain ⟨hptr, hmulti⟩ := closeAddrblock_session acs none ⟨_, hlt⟩ i
        obtain ⟨hlt', hvalid⟩ := hacs i
        exact ⟨by rw [hptr]; exact hlt', by rw [hptr, hmulti]; exact hvalid⟩
    rw [List.length_append, List.length_singleton] at hstep
    exact hstep

/-- Adding the cost of an address only touches totals. -/
theorem SessionOk.addCurrent {done : List (WriterAddress n)} {acs : Sessions n}
    (h : ∀ i : Fin (n + 1), SessionOk done i (acs i)) (i : Fin (n + 1)) :
    SessionOk done i (addCurrent acs i) := ⟨(h i).ptr_lt, (h i).valid⟩

/-- Behind the first address: when the loop gets through, every address has
its mark. -/
theorem divide_marksOk {max : Int} {rest before : List (WriterAddress n)} {l : WriterAddress n}
    {acs : Sessions n} {same : Nat} {marks marks' : List (Option BlockMark)} (hsame : 1 ≤ same)
    (hacs : ∀ i : Fin (n + 1), SessionOk (before ++ [l]) i (acs i)) (hmarks : MarksOk before marks)
    (hdiff : NeighboursDiffer (l :: rest))
    (h : divide max (before.length + 1) (some l) same acs marks rest = .ok marks') :
    MarksOk (before ++ [l] ++ rest) marks' := by
  induction rest generalizing before l acs same marks with
  | nil =>
    obtain ⟨mark, hmark, hok⟩ := closeAddrblock_markOk hacs (by simp) 0
    rw [List.length_append, List.length_singleton, Nat.add_sub_cancel] at hok
    unfold divide at h
    rw [if_pos (Option.isSome_some : (some l).isSome = true), hmark] at h
    cases h
    rw [List.append_nil]
    exact hmarks.snoc hok
  | cons addr rest ih =>
    obtain ⟨hne, hdiff⟩ := List.isChain_cons_cons.mp hdiff
    obtain ⟨mark, acs', same', hcomp, hok, hsame', hacs'⟩ := compressAddress_ok hsame hacs hne
    unfold divide at h
    rw [hcomp] at h
    dsimp only at h
    split at h
    · rw [if_pos (Option.isSome_some : (some l).isSome = true),
        show before.length + 1 = (before ++ [l]).length by simp] at h
      have hrest := ih hsame' (SessionOk.addCurrent hacs') (hmarks.snoc hok) hdiff h
      rw [List.append_assoc, List.singleton_append] at hrest
      exact hrest
    · cases h

/-- **Every address of a message that gets through has a valid mark.** -/
theorem marksOf_marksOk {max : Int} {addrs : List (WriterAddress n)}
    {marks : List (Option BlockMark)} (hdiff : NeighboursDiffer addrs)
    (h : marksOf max addrs = .ok marks) : MarksOk addrs marks := by
  unfold marksOf at h
  cases addrs with
  | nil =>
    unfold divide at h
    cases h
    exact ⟨rfl, fun j hj => absurd hj (Nat.not_lt_zero j)⟩
  | cons addr rest =>
    unfold divide compressAddress closeLast at h
    dsimp only [Except.map] at h
    split at h
    · refine @divide_marksOk _ _ _ [] _ _ _ _ _ ?_ (SessionOk.addCurrent fun i => ?_)
        ⟨rfl, fun j hj => absurd hj (Nat.not_lt_zero j)⟩ hdiff h
      · exact Nat.le_refl 1
      · exact compress_sessionOk (show ([] : List (WriterAddress n)).getLast? = none from rfl)
          (Nat.le_refl 1) (fun hs => by cases hs)
    · cases h

/-! ## §4 Blocks -/

/-- The blocks cover the addresses from `start` on, one after the other, and
each of them is valid. -/
def Division (addrs : List (WriterAddress n)) : (start : Nat) → List Block → Prop
  | start, [] => start = addrs.length
  | start, block :: blocks =>
    block.start = start ∧ start ≤ block.stop ∧ block.headlen ≤ n ∧
      BlockValid (block.members addrs) block.headlen block.multiplePrefixlen ∧
      Division addrs (block.stop + 1) blocks

theorem Division.le {addrs : List (WriterAddress n)} {start : Nat} {blocks : List Block}
    (h : Division addrs start blocks) : start ≤ addrs.length := by
  induction blocks generalizing start with
  | nil => exact Nat.le_of_eq h
  | cons block blocks ih =>
    obtain ⟨-, hle, -, -, hrest⟩ := h
    have := ih hrest
    omega

/-- Every block of a division has addresses, and is valid. -/
theorem Division.block {addrs : List (WriterAddress n)} {start : Nat} {blocks : List Block}
    (h : Division addrs start blocks) {block : Block} (hblock : block ∈ blocks) :
    (block.start ≤ block.stop ∧ block.stop < addrs.length) ∧ block.headlen ≤ n ∧
      BlockValid (block.members addrs) block.headlen block.multiplePrefixlen := by
  induction blocks generalizing start with
  | nil => cases hblock
  | cons b blocks ih =>
    obtain ⟨rfl, hle, hhead, hvalid, hrest⟩ := h
    rcases List.mem_cons.mp hblock with rfl | hblock
    · exact ⟨⟨hle, hrest.le⟩, hhead, hvalid⟩
    · exact ih hrest hblock

/-- The addresses up to the end of a block, from its start on, are its
members. -/
theorem Block.members_eq {block : Block} (addrs : List (WriterAddress n))
    (h : block.start ≤ block.stop) :
    block.members addrs = (addrs.take (block.stop + 1)).drop block.start := by
  unfold Block.members
  rw [List.drop_take, show block.stop + 1 - block.start = block.stop - block.start + 1 by omega]

theorem Block.length_members {block : Block} {addrs : List (WriterAddress n)}
    (h : block.start ≤ block.stop) (hlt : block.stop < addrs.length) :
    (block.members addrs).length = block.stop - block.start + 1 := by
  rw [Block.members_eq addrs h, List.length_drop, List.length_take]
  omega

/-- The blocks of a division together have the addresses, in order. -/
theorem Division.members {addrs : List (WriterAddress n)} {start : Nat} {blocks : List Block}
    (h : Division addrs start blocks) :
    blocks.flatMap (·.members addrs) = addrs.drop start := by
  induction blocks generalizing start with
  | nil =>
    rw [show start = addrs.length from h, List.drop_length]
    rfl
  | cons block blocks ih =>
    obtain ⟨rfl, hle, -, -, hrest⟩ := h
    rw [List.flatMap_cons, ih hrest]
    unfold Block.members
    conv_rhs => rw [← List.take_append_drop (block.stop - block.start + 1) (addrs.drop block.start)]
    rw [List.drop_drop, show block.start + (block.stop - block.start + 1) = block.stop + 1 by omega]

/-- Reading valid marks from an address back to the first one gives the
blocks up to it. -/
theorem blocksTo_division {addrs : List (WriterAddress n)} {marks : List (Option BlockMark)}
    (hmarks : MarksOk addrs marks) {fuel addr : Nat} {later : List Block} (hf : addr < fuel)
    (hlt : addr < addrs.length) (hlater : Division addrs (addr + 1) later) :
    ∃ blocks, blocksTo marks fuel addr later = .ok blocks ∧ Division addrs 0 blocks := by
  induction fuel generalizing addr later with
  | zero => exact absurd hf (Nat.not_lt_zero addr)
  | succ fuel ih =>
    obtain ⟨mark, hmark, hle, hhead, hvalid⟩ := hmarks.marked addr hlt
    have hcons : Division addrs mark.start
        (⟨mark.start, addr, mark.multiplePrefixlen, mark.headlen⟩ :: later) := by
      refine ⟨rfl, hle, hhead, ?_, hlater⟩
      rw [Block.members_eq addrs hle]
      exact hvalid
    unfold blocksTo
    simp only [hmark, Option.join_some]
    split
    · rename_i hzero
      rw [hzero] at hcons
      exact ⟨_, by rw [hzero], hcons⟩
    · rename_i hzero
      rw [← Nat.sub_add_cancel (Nat.pos_of_ne_zero hzero)] at hcons
      have hblock := @ih (mark.start - 1) _ (by omega) (by omega) hcons
      rw [Nat.sub_add_cancel (Nat.pos_of_ne_zero hzero)] at hblock
      exact hblock

/-- **The division.** The blocks of a message cover its addresses in order,
and the addresses of each block agree in the head it leaves out and, unless
it lists them, in the prefix length. -/
theorem blocksOf_division {max : Int} {addrs : List (WriterAddress n)} {blocks : List Block}
    (hne : addrs ≠ []) (hdiff : NeighboursDiffer addrs) (h : blocksOf max addrs = .ok blocks) :
    Division addrs 0 blocks := by
  unfold blocksOf at h
  split at h
  · cases h
  · rename_i marks hmarks
    have hok := marksOf_marksOk hdiff hmarks
    have hpos := List.length_pos_iff.mpr hne
    have hlen := hok.length
    obtain ⟨blocks', hblocks, hdiv⟩ := @blocksTo_division _ _ _ hok marks.length
      (marks.length - 1) [] (by omega) (by omega)
      (show marks.length - 1 + 1 = addrs.length by omega)
    rw [hblocks] at h
    cases h
    exact hdiv

/-! ## §5 Success -/

/-- What the writer reckons for the addresses in blocks of their own
(`new_cost`). Such a block is shorter: it has no head length, and its TLVs
have no index. -/
def separateEstimate (addrs : List (WriterAddress n)) : Nat := (addrs.map (·.newCost n)).sum

/-- The longest head costs at most a new block for the address. -/
theorem compress_last_le (s : CompressSession) (same common k : Nat)
    (last : Option (WriterAddress n)) (addr : WriterAddress n) :
    (s.compress s.total same common n k last addr).total +
        (s.compress s.total same common n k last addr).current ≤ s.total + addr.newCost n := by
  unfold CompressSession.compress
  dsimp only
  cases hc : s.closes s.total same common n k last addr with
  | true =>
    simp only [if_true]
    exact Int.le_refl _
  | false =>
    unfold CompressSession.closes at hc
    rw [Bool.or_eq_false_iff] at hc
    have hle := of_decide_eq_false hc.2
    simp only [Bool.false_eq_true, if_false]
    omega

theorem compressed_last_le (acs : Sessions n) (same k : Nat) (l addr : WriterAddress n)
    (common : Fin (n + 1)) :
    (compressed acs same k l addr common (Fin.last n)).total +
        (compressed acs same k l addr common (Fin.last n)).current ≤
      (acs (Fin.last n)).total + addr.newCost n := by
  have hclose := closeAddrblock_total_le acs none common
  have hstep := compress_last_le ((closeAddrblock acs none common).2 (Fin.last n))
    (nextSamePrefixlen same (some l) addr) common k (some l) addr
  unfold compressed
  simp only [Fin.val_last]
  omega

/-- Neighbours with the same bytes reach behind the end of `acs`. -/
theorem compressAddress_same (acs : Sessions n) (same k : Nat) {l addr : WriterAddress n}
    (hlen : maxAddrlen ≤ n + 1) (heq : l.addr = addr.addr) :
    compressAddress acs same k (some l) addr = .error .bufferOverflow := by
  have hnot : ¬ commonHead (some l) addr < n + 1 := fun h => (commonHead_lt_iff l addr).mp h heq
  unfold compressAddress closeLast
  dsimp only
  rw [dif_neg hnot, if_neg (Nat.not_lt.mpr hlen)]
  rfl

/-- With room for what is reckoned without compression, only two neighbours
with the same bytes can stop the loop. -/
theorem divide_cases {max : Int} {rest : List (WriterAddress n)} {k same : Nat}
    {l : WriterAddress n} {acs : Sessions n} {marks : List (Option BlockMark)}
    (hroom : (acs (Fin.last n)).total + separateEstimate rest ≤ max) (hk : k + rest.length ≤ 255) :
    (NeighboursDiffer (l :: rest) → ∃ marks', divide max k (some l) same acs marks rest = .ok marks') ∧
      (maxAddrlen ≤ n + 1 → ¬ NeighboursDiffer (l :: rest) →
        divide max k (some l) same acs marks rest = .error (.fault .bufferOverflow)) := by
  induction rest generalizing k same l acs marks with
  | nil =>
    refine ⟨fun _ => ⟨_, rfl⟩, fun _ hnot => absurd (List.IsChain.singleton l) hnot⟩
  | cons addr rest ih =>
    rw [NeighboursDiffer, List.isChain_cons_cons]
    by_cases heq : l.addr = addr.addr
    · refine ⟨fun h => absurd heq h.1, fun hlen _ => ?_⟩
      unfold divide
      rw [compressAddress_same acs same k hlen heq]
    · have hlt := (commonHead_lt_iff l addr).mpr heq
      have hlast := compressed_last_le acs same k l addr ⟨_, hlt⟩
      have hcost : separateEstimate (addr :: rest) = addr.newCost n + separateEstimate rest := by
        unfold separateEstimate
        rw [List.map_cons, List.sum_cons]
      rw [hcost] at hroom
      rw [List.length_cons] at hk
      have hfits : Fits (compressed acs same k l addr ⟨_, hlt⟩) max k :=
        ⟨Fin.last n, by push_cast at hroom; omega, by omega⟩
      obtain ⟨hok, hfault⟩ := @ih (k + 1) (nextSamePrefixlen same (some l) addr) addr
        (addCurrent (compressed acs same k l addr ⟨_, hlt⟩))
        (marks ++ [(closeAddrblock acs none ⟨_, hlt⟩).1])
        (by unfold addCurrent; push_cast at hroom; dsimp only; omega) (by omega)
      unfold divide
      rw [compressAddress_some acs same k hlt]
      dsimp only
      rw [if_pos hfits, if_pos (Option.isSome_some : (some l).isSome = true)]
      exact ⟨fun h => hok h.2, fun hlen hnot => hfault hlen fun h => hnot ⟨heq, h⟩⟩

theorem marksOf_cases {max : Int} {addrs : List (WriterAddress n)}
    (hroom : separateEstimate addrs ≤ max) (hlen : addrs.length ≤ 255) :
    (NeighboursDiffer addrs → ∃ marks, marksOf max addrs = .ok marks) ∧
      (maxAddrlen ≤ n + 1 → ¬ NeighboursDiffer addrs →
        marksOf max addrs = .error (.fault .bufferOverflow)) := by
  cases addrs with
  | nil => exact ⟨fun _ => ⟨[], rfl⟩, fun _ hnot => absurd List.IsChain.nil hnot⟩
  | cons addr rest =>
    have hcost : separateEstimate (addr :: rest) = addr.newCost n + separateEstimate rest := by
      unfold separateEstimate
      rw [List.map_cons, List.sum_cons]
    rw [hcost] at hroom
    rw [List.length_cons] at hlen
    -- The first address opens a block with every head length.
    have hlast : (CompressSession.compress {} 0 1 (commonHead none addr) n 0 none addr).total +
        (CompressSession.compress {} 0 1 (commonHead none addr) n 0 none addr).current ≤
          0 + addr.newCost n := compress_last_le {} 1 (commonHead none addr) 0 none addr
    unfold marksOf divide compressAddress closeLast
    dsimp only [Except.map]
    rw [if_pos ⟨Fin.last n, by
      push_cast at hroom
      simp only [nextSamePrefixlen, Fin.val_last]
      omega, by omega⟩]
    refine divide_cases ?_ (by omega)
    push_cast at hroom
    simp only [addCurrent, nextSamePrefixlen, Fin.val_last]
    omega

/-- **When there is a division.** Addresses with room for what the writer
reckons for blocks of their own are divided exactly when no two neighbours
have the same bytes. With addresses of full length the writer otherwise reads
behind the end of its compression sessions. -/
theorem blocksOf_ok_iff {max : Int} {addrs : List (WriterAddress n)}
    (hroom : separateEstimate addrs ≤ max) (hlen : addrs.length ≤ 255) (hn : n + 1 = maxAddrlen) :
    ((∃ blocks, blocksOf max addrs = .ok blocks) ↔ NeighboursDiffer addrs) ∧
      (¬ NeighboursDiffer addrs → blocksOf max addrs = .error (.fault .bufferOverflow)) := by
  obtain ⟨hok, hfault⟩ := marksOf_cases hroom hlen
  have herr : ¬ NeighboursDiffer addrs → blocksOf max addrs = .error (.fault .bufferOverflow) := by
    intro hnot
    unfold blocksOf
    rw [hfault (Nat.le_of_eq hn.symm) hnot]
  refine ⟨⟨fun ⟨blocks, h⟩ => ?_, fun hdiff => ?_⟩, herr⟩
  · by_contra hnot
    rw [herr hnot] at h
    cases h
  · obtain ⟨marks, hmarks⟩ := hok hdiff
    unfold blocksOf
    rw [hmarks]
    dsimp only
    cases addrs with
    | nil =>
      cases hmarks
      exact ⟨[], rfl⟩
    | cons addr rest =>
      have hmok := marksOf_marksOk hdiff hmarks
      have hlen := hmok.length
      rw [List.length_cons] at hlen
      obtain ⟨blocks, hblocks, -⟩ := @blocksTo_division _ _ _ hmok marks.length
        (marks.length - 1) [] (by omega)
        (by rw [List.length_cons]; omega) (show marks.length - 1 + 1 = (addr :: rest).length by
          rw [List.length_cons]; omega)
      rw [hblocks]
      exact ⟨blocks, rfl⟩

end Turpial.Rfc5444
