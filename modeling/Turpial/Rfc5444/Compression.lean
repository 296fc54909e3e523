/-
Turpial.Rfc5444.Compression — how the writer divides the addresses of a
message into address blocks (`rfc5444_msg_generator.c`,
`rfc5444_writer.h`).

The addresses of one block share a head of `i` bytes. The writer follows
every head length `i` at once: `acs i` is the block that the last address
is in if its head is `i` bytes long, with an estimate of the bytes written
so far. When the next address does not share that head, or a block of its
own is cheaper, the block of `acs i` starts anew. Behind every address the
cheapest open block is noted (`BlockMark`), and the blocks of the message
are read off the notes from the last address backwards (`blocksTo`).

Translation notes.

* An address is `n + 1` bytes long; `n` is what the message header holds.
  The index of an address is its place in the list.
* Costs are `Int`. The source adds the difference of two unsigned indexes
  to a signed cost, the wrong way round, so a cost can go down.
* `acs` has 16 entries. With addresses of 16 bytes `acs[addrlen]` is
  behind its end; with shorter ones it is an entry that stays zeroed, and
  the block start it holds is the null pointer.
* The message creators of this repository add every address as mandatory.
  A message that is too long is then an error and never fragmented, and
  no address is written twice.
-/
import Turpial.Rfc5444.Context
import Turpial.Lib.CommonPrefix
import Mathlib.Logic.Function.Basic
import Mathlib.Data.List.FinRange

namespace Turpial.Rfc5444

open Turpial.Lib

/-! ## What is written -/

/-- `struct rfc5444_writer_addrtlv`, with the fields of its TLV type. -/
structure WriterAddrtlv where
  type : UInt8
  exttype : UInt8 := 0
  value : List UInt8
  deriving DecidableEq, Repr

/-- `_get_fulltype`. -/
def WriterAddrtlv.fullType (tlv : WriterAddrtlv) : Nat :=
  tlv.type.toNat * 256 + tlv.exttype.toNat

/-- The order of `_addrtlv_tree`, for TLVs added without `allow_dup`. -/
def TlvsSorted (tlvs : List WriterAddrtlv) : Prop :=
  tlvs.Pairwise fun t u => t.fullType < u.fullType

instance (tlvs : List WriterAddrtlv) : Decidable (TlvsSorted tlvs) :=
  inferInstanceAs (Decidable (List.Pairwise _ _))

/-- `rfc5444_writer_add_addrtlv` without `allow_dup`: an address that has a
TLV of the type keeps what it has. -/
def insertAddrtlv (tlv : WriterAddrtlv) : List WriterAddrtlv → List WriterAddrtlv
  | [] => [tlv]
  | t :: tlvs =>
    if tlv.fullType < t.fullType then tlv :: t :: tlvs
    else if tlv.fullType = t.fullType then t :: tlvs
    else t :: insertAddrtlv tlv tlvs

theorem mem_insertAddrtlv {tlv t : WriterAddrtlv} {tlvs : List WriterAddrtlv}
    (h : t ∈ insertAddrtlv tlv tlvs) : t = tlv ∨ t ∈ tlvs := by
  induction tlvs with
  | nil => exact Or.inl (List.mem_singleton.mp h)
  | cons u tlvs ih =>
    unfold insertAddrtlv at h
    split at h
    · exact List.mem_cons.mp h
    · split at h
      · exact Or.inr h
      · rcases List.mem_cons.mp h with rfl | h
        · exact Or.inr List.mem_cons_self
        · exact (ih h).imp_right (List.mem_cons_of_mem u)

theorem TlvsSorted.insert {tlvs : List WriterAddrtlv} (h : TlvsSorted tlvs) (tlv : WriterAddrtlv) :
    TlvsSorted (insertAddrtlv tlv tlvs) := by
  induction tlvs with
  | nil => exact List.pairwise_singleton _ _
  | cons t tlvs ih =>
    obtain ⟨hhead, hrest⟩ := List.pairwise_cons.mp h
    unfold insertAddrtlv
    split
    · rename_i hlt
      refine List.pairwise_cons.mpr ⟨fun u hu => ?_, h⟩
      rcases List.mem_cons.mp hu with rfl | hu
      · exact hlt
      · exact Nat.lt_trans hlt (hhead u hu)
    · split
      · exact h
      · refine List.pairwise_cons.mpr ⟨fun u hu => ?_, ih hrest⟩
        rcases mem_insertAddrtlv hu with rfl | hu
        · omega
        · exact hhead u hu

/-- The TLVs of an address after they were added one after the other. -/
def addrtlvTree (tlvs : List WriterAddrtlv) : List WriterAddrtlv :=
  tlvs.foldl (fun tree tlv => insertAddrtlv tlv tree) []

theorem addrtlvTree_sorted (tlvs : List WriterAddrtlv) : TlvsSorted (addrtlvTree tlvs) := by
  have hfold : ∀ (tlvs tree : List WriterAddrtlv), TlvsSorted tree →
      TlvsSorted (tlvs.foldl (fun tree tlv => insertAddrtlv tlv tree) tree) := by
    intro tlvs
    induction tlvs with
    | nil => exact fun _ h => h
    | cons tlv tlvs ih => exact fun tree h => ih _ (h.insert tlv)
  exact hfold tlvs [] List.Pairwise.nil

/-- `struct rfc5444_writer_address`. -/
structure WriterAddress (n : Nat) where
  addr : List UInt8
  prefixLen : UInt8
  tlvs : List WriterAddrtlv := []
  length_addr : addr.length = n + 1
  sorted : TlvsSorted tlvs

variable {n : Nat}

/-! ## The compression session -/

/-- `RFC5444_MAX_ADDRLEN`, the number of entries of `acs`. -/
def maxAddrlen : Nat := 16

/-- `_tlvblock_count[i]` and `_tlvblock_multi[i]` of a TLV type. -/
structure TlvCount where
  count : Nat := 0
  multi : Bool := false
  deriving DecidableEq, Repr

/-- `struct _rfc5444_internal_addr_compress_session`, with the counters that
the TLV types keep for the same head length, by full type. -/
structure CompressSession where
  ptr : Nat := 0
  total : Int := 0
  current : Int := 0
  multiplen : Bool := false
  closed : Bool := false
  tlvblock : Nat → TlvCount := fun _ => {}

/-- `acs`, by head length. -/
abbrev Sessions (n : Nat) := Fin (n + 1) → CompressSession

/-- `_block_start`, `_block_multiple_prefixlen` and `_block_headlen` of the
last address of a block. -/
structure BlockMark where
  start : Nat
  multiplePrefixlen : Bool
  headlen : Nat
  deriving DecidableEq, Repr

/-- The head length that `_close_addrblock` chooses: the first of the
cheapest from `commonHead` on. -/
def bestHead (acs : Sessions n) (commonHead : Fin (n + 1)) : Fin (n + 1) :=
  (List.finRange (n + 1)).foldl
    (fun best i => if commonHead < i ∧ (acs i).total < (acs best).total then i else best) commonHead

/-- `_close_addrblock` for a common head within `acs`: the mark of
`last_addr`, and the session. -/
def closeAddrblock (acs : Sessions n) (mark : Option BlockMark) (commonHead : Fin (n + 1)) :
    Option BlockMark × Sessions n :=
  let best := bestHead acs commonHead
  let size := (acs best).total
  (if (acs best).closed = false ∨ mark = none then
      some ⟨(acs best).ptr, (acs best).multiplen, best.val⟩
    else mark,
    fun i => if commonHead < i then { acs i with total := size } else acs i)

/-! ## Costs -/

/-- The TLV of the same full type at the address before. -/
def lastTlv (last : Option (WriterAddress n)) (tlv : WriterAddrtlv) : Option WriterAddrtlv :=
  last.bind fun a => a.tlvs.find? fun t => t.fullType == tlv.fullType

/-- `_same_length`. -/
def sameLength (last : Option (WriterAddress n)) (tlv : WriterAddrtlv) : Bool :=
  (lastTlv last tlv).any fun t => t.value.length == tlv.value.length

/-- `_same_value`. -/
def sameValue (last : Option (WriterAddress n)) (tlv : WriterAddrtlv) : Bool :=
  (lastTlv last tlv).any fun t => t.value == tlv.value

/-- Cost of a TLV of its own. -/
def WriterAddrtlv.cost (tlv : WriterAddrtlv) : Nat :=
  2 + (if tlv.exttype > 0 then 1 else 0) + 2 + (if tlv.value.length > 255 then 1 else 0) +
    (if tlv.value.length > 0 then 1 else 0) + tlv.value.length

/-- `special_prefixlen`. -/
def WriterAddress.specialPrefixlen (addr : WriterAddress n) : Bool :=
  decide (addr.prefixLen.toNat ≠ (n + 1) * 8)

/-- `new_cost` for head length `i`. -/
def WriterAddress.newCost (addr : WriterAddress n) (i : Nat) : Nat :=
  2 + (if i > 0 then 1 else 0) + (n + 1) + (if addr.specialPrefixlen then 1 else 0) + 2 +
    (addr.tlvs.map WriterAddrtlv.cost).sum

/-- What a TLV adds to `continue_cost` when the block goes on. -/
def CompressSession.continueTlv (s : CompressSession) (last : Option (WriterAddress n))
    (tlv : WriterAddrtlv) : Int :=
  if sameLength last tlv = false then tlv.cost
  else if (s.tlvblock tlv.fullType).multi then tlv.value.length
  else if sameValue last tlv = false then tlv.value.length * (s.tlvblock tlv.fullType).count
  else 0

/-- `continue_cost` for head length `i`, at address `k`. -/
def CompressSession.continueCost (s : CompressSession) (samePrefixlen i k : Nat)
    (last : Option (WriterAddress n)) (addr : WriterAddress n) : Int :=
  ((n + 1 : Nat) - i : Int) +
    (if s.multiplen then 1 else if samePrefixlen = 1 then (s.ptr - k + 1 : Int) else 0) +
    (addr.tlvs.map (s.continueTlv last)).sum

/-! ## One address -/

/-- The end of `_compress_address`: the counters of the TLV types. -/
def CompressSession.countTlvs (s : CompressSession) (closed : Bool)
    (last : Option (WriterAddress n)) (addr : WriterAddress n) : Nat → TlvCount :=
  addr.tlvs.foldl (fun counts tlv =>
    Function.update counts tlv.fullType
      (if closed ∨ sameLength last tlv = false then { count := 1, multi := false }
      else {
        count := (counts tlv.fullType).count + 1
        multi := (counts tlv.fullType).multi || !sameValue last tlv })) s.tlvblock

/-- The block of head length `i` does not go on with this address. -/
def CompressSession.closes (s : CompressSession) (base : Int) (samePrefixlen commonHead i k : Nat)
    (last : Option (WriterAddress n)) (addr : WriterAddress n) : Bool :=
  last.isNone || decide (commonHead < i) ||
    decide (s.total + s.continueCost samePrefixlen i k last addr > base + addr.newCost i)

/-- One round of the loop over the head lengths in `_compress_address`;
`base` is `acs[addrlen - 1].total`. -/
def CompressSession.compress (s : CompressSession) (base : Int) (samePrefixlen commonHead i k : Nat)
    (last : Option (WriterAddress n)) (addr : WriterAddress n) : CompressSession :=
  let closed := s.closes base samePrefixlen commonHead i k last addr
  { ptr := if closed then k else s.ptr
    total := if closed then base else s.total
    current := if closed then addr.newCost i else s.continueCost samePrefixlen i k last addr
    multiplen := if closed then false else s.multiplen || decide (samePrefixlen = 1)
    closed := if last.isSome then closed else s.closed
    tlvblock := s.countTlvs closed last addr }

/-- `same_prefixlen` after an address. -/
def nextSamePrefixlen (samePrefixlen : Nat) (last : Option (WriterAddress n))
    (addr : WriterAddress n) : Nat :=
  match last with
  | none => samePrefixlen
  | some last => if last.prefixLen = addr.prefixLen then samePrefixlen + 1 else 1

/-- `common_head`. -/
def commonHead (last : Option (WriterAddress n)) (addr : WriterAddress n) : Nat :=
  match last with
  | none => 0
  | some last => commonLen last.addr addr.addr

/-- `_close_addrblock` as `_compress_address` calls it. The session of a
head as long as the address is the one behind the others. -/
def closeLast (acs : Sessions n) (last : Option (WriterAddress n)) (addr : WriterAddress n) :
    Except Fault (Option BlockMark × Sessions n) :=
  match last with
  | none => .ok (none, acs)
  | some _ =>
    if h : commonHead last addr < n + 1 then .ok (closeAddrblock acs none ⟨commonHead last addr, h⟩)
    else if n + 1 < maxAddrlen then .ok (none, acs)
    else .error .bufferOverflow

/-- `_compress_address` for address `k`: the mark of the address before, the
session, and `same_prefixlen`. -/
def compressAddress (acs : Sessions n) (samePrefixlen k : Nat) (last : Option (WriterAddress n))
    (addr : WriterAddress n) : Except Fault (Option BlockMark × Sessions n × Nat) :=
  (closeLast acs last addr).map fun closed =>
    let same := nextSamePrefixlen samePrefixlen last addr
    (closed.1,
      fun i => (closed.2 i).compress (closed.2 (Fin.last n)).total same (commonHead last addr) i k
        last addr,
      same)

/-! ## All addresses -/

/-- Why no message is created. -/
inductive CreateError where
  | mtuTooSmall
  | fault (f : Fault)
  deriving DecidableEq, Repr

/-- `best_head != -1`: with one of the head lengths the message fits, and the
block is not longer than its number of addresses can say. -/
def Fits (acs : Sessions n) (max : Int) (k : Nat) : Prop :=
  ∃ i, (acs i).total + (acs i).current < max + 1 ∧ k - (acs i).ptr ≤ 254

instance (acs : Sessions n) (max : Int) (k : Nat) : Decidable (Fits acs max k) :=
  inferInstanceAs (Decidable (∃ _, _))

/-- The cost of the address is added to the total. -/
def addCurrent (acs : Sessions n) : Sessions n := fun i =>
  { acs i with total := (acs i).total + (acs i).current, current := 0 }

/-- The loop of `rfc5444_writer_create_message` over the addresses, and
`_close_addrblock` behind it: the mark of every address. -/
def divide (max : Int) : (k : Nat) → (last : Option (WriterAddress n)) → (samePrefixlen : Nat) →
    Sessions n → List (Option BlockMark) → List (WriterAddress n) →
    Except CreateError (List (Option BlockMark))
  | _, last, _, acs, marks, [] =>
    .ok (if last.isSome then marks ++ [(closeAddrblock acs none 0).1] else marks)
  | k, last, samePrefixlen, acs, marks, addr :: rest =>
    match compressAddress acs samePrefixlen k last addr with
    | .error f => .error (.fault f)
    | .ok (mark, acs, samePrefixlen) =>
      if Fits acs max k then
        divide max (k + 1) (some addr) samePrefixlen (addCurrent acs)
          (if last.isSome then marks ++ [mark] else marks) rest
      else .error .mtuTooSmall

/-- The marks of the addresses of a message. -/
def marksOf (max : Int) (addrs : List (WriterAddress n)) :
    Except CreateError (List (Option BlockMark)) :=
  divide max 0 none 1 (fun _ => {}) [] addrs

/-! ## Blocks -/

/-- An address block: its first and last address, and how it is written. -/
structure Block where
  start : Nat
  stop : Nat
  multiplePrefixlen : Bool
  headlen : Nat
  deriving DecidableEq, Repr

/-- The addresses of a block. -/
def Block.members (block : Block) (addrs : List (WriterAddress n)) : List (WriterAddress n) :=
  (addrs.drop block.start).take (block.stop - block.start + 1)

/-- The loop of `_finalize_message_fragment` that makes the marks point
forward, from the last address back to the first. An address takes one
round at most. -/
def blocksTo (marks : List (Option BlockMark)) :
    (fuel : Nat) → (addr : Nat) → List Block → Except Fault (List Block)
  | 0, _, later => .ok later
  | fuel + 1, addr, later =>
    match marks[addr]?.join with
    | none => .error .nullDereference
    | some mark =>
      let later := ⟨mark.start, addr, mark.multiplePrefixlen, mark.headlen⟩ :: later
      if mark.start = 0 then .ok later else blocksTo marks fuel (mark.start - 1) later

/-- The address blocks of a message, in order. -/
def blocksOf (max : Int) (addrs : List (WriterAddress n)) : Except CreateError (List Block) :=
  match marksOf max addrs with
  | .error e => .error e
  | .ok marks =>
    match blocksTo marks marks.length (marks.length - 1) [] with
    | .error f => .error (.fault f)
    | .ok blocks => .ok blocks

end Turpial.Rfc5444
