/-
Turpial.Rfc5444.BlockTheorems — an address block, written and read back.

The addresses of a block share their head and tail, so each of them is the
head, its own mid part and the tail (`WriterAddress.addr_eq`). §1 is what
the head, the tail and the prefix lengths become in the reader, field by
field; §2 puts them together (`consumes_parseAddrblock`), and §3 assembles
an address from them again: every address comes back with its bytes, its
prefix length and its TLVs (`addrContext_written`).
-/
import Turpial.Rfc5444.TlvTheorems

namespace Turpial.Rfc5444

open Turpial.Lib

variable {n : Nat} {buf : List UInt8} {eob start : Nat}

/-! ## §1 Head, tail and prefix lengths -/

/-- The tail is no longer than what the addresses share with the first. -/
theorem tailLen_spec (headLen : Nat) (first : WriterAddress n) (addrs : List (WriterAddress n)) :
    tailLen headLen first addrs ≤ n - headLen ∧ ∀ a ∈ addrs,
      tailLen headLen first addrs ≤ commonLen first.addr.reverse a.addr.reverse := by
  have hfold : ∀ (addrs : List (WriterAddress n)) (t : Nat),
      let r := addrs.foldl
        (fun tail a => min tail (commonLen first.addr.reverse a.addr.reverse)) t
      r ≤ t ∧ ∀ a ∈ addrs, r ≤ commonLen first.addr.reverse a.addr.reverse := by
    intro addrs
    induction addrs with
    | nil => exact fun t => ⟨Nat.le_refl _, by simp⟩
    | cons a addrs ih =>
      intro t
      obtain ⟨hle, hall⟩ := ih (min t (commonLen first.addr.reverse a.addr.reverse))
      refine ⟨Nat.le_trans hle (Nat.min_le_left _ _), fun b hb => ?_⟩
      rcases List.mem_cons.mp hb with rfl | hb
      · exact Nat.le_trans hle (Nat.min_le_right _ _)
      · exact hall b hb
  exact hfold addrs (n - headLen)

/-- What the addresses of a block have in common: `headLen` bytes at the
front and `tailLen` bytes at the end, and at least one byte between them. -/
structure Shares (headLen tailLen : Nat) (first : WriterAddress n)
    (addrs : List (WriterAddress n)) : Prop where
  room : headLen + tailLen ≤ n
  head : ∀ a ∈ addrs, a.addr.take headLen = first.addr.take headLen
  tail : ∀ a ∈ addrs, a.addr.drop (n + 1 - tailLen) = first.addr.drop (n + 1 - tailLen)

/-- The mid part of an address. -/
def WriterAddress.mid (a : WriterAddress n) (headLen tailLen : Nat) : List UInt8 :=
  (a.addr.drop headLen).take (n + 1 - headLen - tailLen)

theorem WriterAddress.length_mid (a : WriterAddress n) {headLen tailLen : Nat} :
    (a.mid headLen tailLen).length = n + 1 - headLen - tailLen := by
  unfold WriterAddress.mid
  rw [List.length_take, List.length_drop, a.length_addr]
  omega

/-- An address is the head, its mid part and the tail. -/
theorem Shares.addr_eq {headLen tailLen : Nat} {first a : WriterAddress n}
    {addrs : List (WriterAddress n)} (h : Shares headLen tailLen first addrs) (ha : a ∈ addrs) :
    first.addr.take headLen ++ a.mid headLen tailLen ++ first.addr.drop (n + 1 - tailLen) =
      a.addr := by
  have hroom := h.room
  rw [← h.head a ha, ← h.tail a ha]
  unfold WriterAddress.mid
  rw [List.append_assoc]
  conv_rhs => rw [← List.take_append_drop headLen a.addr,
    ← List.take_append_drop (n + 1 - headLen - tailLen) (a.addr.drop headLen), List.drop_drop]
  rw [show headLen + (n + 1 - headLen - tailLen) = n + 1 - tailLen by omega]

/-- The head and the tail that the writer chooses for a valid block. -/
theorem BlockValid.shares {first : WriterAddress n} {rest : List (WriterAddress n)} {headlen : Nat}
    {multiple : Bool} (h : BlockValid (first :: rest) headlen multiple) (hlen : headlen ≤ n) :
    Shares (if rest = [] then 0 else headlen)
      (if rest = [] then 0 else tailLen (if rest = [] then 0 else headlen) first (first :: rest))
      first (first :: rest) := by
  by_cases hrest : rest = []
  · simp only [if_pos hrest]
    exact ⟨Nat.zero_le n, fun a _ => by simp, fun a _ => by
      rw [Nat.sub_zero, ← a.length_addr, List.drop_length, a.length_addr, ← first.length_addr,
        List.drop_length]⟩
  · simp only [if_neg hrest]
    obtain ⟨hle, hall⟩ := tailLen_spec headlen first (first :: rest)
    refine ⟨by omega, fun a ha => h.head a ha first List.mem_cons_self, fun a ha => ?_⟩
    have hdrop := drop_eq_of_le_commonLen_reverse (first.length_addr.trans a.length_addr.symm)
      (hall a ha)
    rw [first.length_addr, a.length_addr] at hdrop
    exact hdrop.symm

/-- The flags of an address block say what was written. -/
theorem addrFlags_fields : ∀ h ∈ [(0 : UInt8), 0x80], ∀ t ∈ [(0 : UInt8), 0x20, 0x40],
    ∀ p ∈ [(0 : UInt8), 0x10, 0x08],
      (h ||| t ||| p) &&& 0x80 = h ∧ (h ||| t ||| p) &&& 0x60 = t ∧ (h ||| t ||| p) &&& 0x18 = p := by
  decide +kernel

theorem writeFlags_fields (headLen tailLen : Nat) (multiple : Bool) (first : WriterAddress n)
    (addrs : List (WriterAddress n)) :
    let flags := (writeHead headLen first).1 ||| (writeTail tailLen first).1 |||
      (writePrefixlens multiple first addrs).1
    flags &&& 0x80 = (writeHead headLen first).1 ∧ flags &&& 0x60 = (writeTail tailLen first).1 ∧
      flags &&& 0x18 = (writePrefixlens multiple first addrs).1 := by
  apply addrFlags_fields
  · unfold writeHead
    split <;> simp
  · unfold writeTail
    dsimp only
    split
    · simp
    · split <;> simp
  · unfold writePrefixlens
    split
    · simp
    · split <;> simp

theorem copyAt_nil (dst : List UInt8) (pos : Nat) : copyAt dst pos [] = dst := by
  unfold copyAt
  rw [List.append_nil, List.length_nil, Nat.add_zero, List.take_append_drop]

/-- A copy leaves what is before it. -/
theorem take_copyAt {dst : List UInt8} {pos k : Nat} (src : List UInt8) (hk : k ≤ pos)
    (hpos : pos ≤ dst.length) : (copyAt dst pos src).take k = dst.take k := by
  unfold copyAt
  rw [List.append_assoc, List.take_append_of_le_length (by rw [List.length_take]; omega),
    List.take_take, Nat.min_eq_left hk]

/-- A copy is where it was made. -/
theorem drop_copyAt {dst : List UInt8} {pos : Nat} (src : List UInt8) (hpos : pos ≤ dst.length) :
    ((copyAt dst pos src).drop pos).take src.length = src := by
  have hlen : (dst.take pos).length = pos := by
    rw [List.length_take]
    omega
  unfold copyAt
  rw [List.append_assoc, List.drop_left' hlen, List.take_left]

/-- Behind the head the buffer is zero. -/
theorem drop_replicate_zero {head : List UInt8} {pos k : Nat} (hpos : head.length ≤ pos)
    (hk : pos + k ≤ 16) :
    ((head ++ List.replicate (16 - head.length) (0 : UInt8)).drop pos).take k =
      List.replicate k 0 := by
  rw [List.drop_append, List.drop_eq_nil_of_le hpos, List.nil_append, List.drop_replicate,
    List.take_replicate, Nat.min_eq_left (by omega)]

/-- The head is copied to the front, and the mid part is shorter by it. -/
theorem consumes_parseAddrHead {addrLen flags : UInt8} {headLen : Nat} {first : WriterAddress n}
    {block : AddrBlock} (haddr : addrLen.toNat = n + 1) (hn : n + 1 ≤ 16) (hlen : headLen ≤ n)
    (hstart : block.midStart = 0) (hflags : flags &&& 0x80 = (writeHead headLen first).1) :
    Consumes buf eob (parseAddrHead buf eob addrLen flags block) start (writeHead headLen first).2
      (· = { block with
        midStart := UInt8.ofNat headLen
        midLen := block.midLen - UInt8.ofNat headLen
        addr := copyAt block.addr 0 (first.addr.take headLen) }) := by
  unfold parseAddrHead
  rw [hflags]
  unfold writeHead
  by_cases hzero : headLen = 0
  · rw [if_pos hzero]
    refine consumes_pure ?_
    subst hzero
    rw [List.take_zero, copyAt_nil]
    change block = { block with midStart := 0, midLen := block.midLen - 0 }
    rw [UInt8.sub_zero, ← hstart]
  · rw [if_neg hzero]
    have hhead : (first.addr.take headLen).length = headLen := by
      rw [List.length_take, first.length_addr]
      omega
    refine consumes_of_hasAt fun hat hle => ?_
    have hval : (UInt8.ofNat headLen).toNat = headLen := ofNat_toNat_lt (by omega)
    refine Consumes.byte fun m hm => ?_
    subst hm
    refine (consumes_stopIf _ ?_).bind_nil fun _ _ => ?_
    · rw [UInt8.lt_iff_toNat_lt, ge_iff_le, ge_iff_le, UInt8.le_iff_toNat_le, UInt8.le_iff_toNat_le,
        hval, haddr]
      change ¬ (headLen < 1 ∨ 16 ≤ headLen ∨ n + 1 ≤ headLen)
      omega
    refine consumes_position.bind_nil fun p hp => ?_
    subst hp
    refine (consumes_stopIf _ ?_).bind_nil fun _ _ => ?_
    · rw [hval]
      simp only [List.length_cons, hhead] at hle
      simp only [List.length_singleton]
      omega
    refine (consumes_advance (hhead.trans hval.symm)).bind_pure fun _ _ => consumes_pure ?_
    have hbytes := hat.tail.bytesFrom
    rw [hhead] at hbytes
    rw [hval, hbytes]

/-- The tail is where it belongs, and the mid part is shorter by it. -/
theorem consumes_parseAddrTail {addrLen flags : UInt8} {headLen tailLen : Nat}
    {first : WriterAddress n} {block : AddrBlock} (haddr : addrLen.toNat = n + 1) (hn : n + 1 ≤ 16)
    (hroom : headLen + tailLen ≤ n)
    (hbuf : block.addr = first.addr.take headLen ++ List.replicate (16 - headLen) 0)
    (hflags : flags &&& 0x60 = (writeTail tailLen first).1) :
    Consumes buf eob (parseAddrTail buf eob addrLen flags block) start (writeTail tailLen first).2
      fun new => ∃ addr, new = { block with
          midLen := block.midLen - UInt8.ofNat tailLen
          addr := addr } ∧
        addr.take headLen = first.addr.take headLen ∧
        (addr.drop (n + 1 - tailLen)).take tailLen = first.addr.drop (n + 1 - tailLen) := by
  have hlen := first.length_addr
  have hhead : (first.addr.take headLen).length = headLen := by
    rw [List.length_take, hlen]
    omega
  have htake : block.addr.take headLen = first.addr.take headLen := by
    rw [hbuf, List.take_left' hhead]
  have htail : (first.addr.drop (n + 1 - tailLen)).length = tailLen := by
    rw [List.length_drop, hlen]
    omega
  have hval : (UInt8.ofNat tailLen).toNat = tailLen := ofNat_toNat_lt (by omega)
  unfold parseAddrTail
  dsimp only
  rw [hflags]
  unfold writeTail
  dsimp only
  by_cases hzero : tailLen = 0
  · rw [if_pos hzero]
    refine (consumes_stopIf _ (by simp)).bind_nil fun _ _ => consumes_pure ⟨block.addr, ?_, htake, ?_⟩
    · subst hzero
      change block = { block with midLen := block.midLen - 0 }
      rw [UInt8.sub_zero]
    · rw [List.eq_nil_of_length_eq_zero (htail.trans hzero), hzero, List.take_zero]
  · rw [if_neg hzero]
    by_cases hzeros : (first.addr.drop (n + 1 - tailLen)).all (· == 0) = true
    · rw [if_pos hzeros]
      refine (consumes_getU8 _).bind_pure fun t ht => consumes_pure ⟨block.addr, ?_, htake, ?_⟩
      · rw [ht]
      · -- The buffer is zero behind the head.
        have hrep : first.addr.drop (n + 1 - tailLen) = List.replicate tailLen 0 := by
          rw [List.all_eq_true] at hzeros
          exact List.eq_replicate_iff.mpr ⟨htail, fun b hb => beq_iff_eq.mp (hzeros b hb)⟩
        have hzero := @drop_replicate_zero (first.addr.take headLen) (n + 1 - tailLen) tailLen
          (by omega) (by omega)
        rw [hhead] at hzero
        rw [hrep, hbuf]
        exact hzero
    · rw [if_neg hzeros]
      refine consumes_of_hasAt fun hat hle => ?_
      refine Consumes.byte fun t ht => ?_
      subst ht
      refine (consumes_stopIf _ ?_).bind_nil fun _ _ => ?_
      · rw [UInt8.lt_iff_toNat_lt, ge_iff_le, ge_iff_le, UInt8.le_iff_toNat_le,
          UInt8.le_iff_toNat_le, hval, haddr]
        change ¬ (tailLen < 1 ∨ 16 ≤ tailLen ∨ n + 1 ≤ tailLen)
        omega
      refine consumes_position.bind_nil fun p hp => ?_
      subst hp
      refine (consumes_stopIf _ ?_).bind_nil fun _ _ => ?_
      · rw [hval]
        simp only [List.length_cons, htail] at hle
        simp only [List.length_singleton]
        omega
      refine (consumes_advance (htail.trans hval.symm)).bind_pure fun _ _ => consumes_pure ?_
      have hbytes := hat.tail.bytesFrom
      rw [htail] at hbytes
      have hblock : block.addr.length = 16 := by
        rw [hbuf, List.length_append, hhead, List.length_replicate]
        omega
      have hpos : (addrLen - UInt8.ofNat tailLen).toNat = n + 1 - tailLen := by
        rw [UInt8.toNat_sub_of_le _ _ (by rw [UInt8.le_iff_toNat_le, hval, haddr]; omega), hval, haddr]
      rw [hval, hbytes, hpos]
      refine ⟨_, rfl, (take_copyAt _ (by omega) (by omega)).trans htake, ?_⟩
      have hcopy := @drop_copyAt block.addr (n + 1 - tailLen)
        (first.addr.drop (n + 1 - tailLen)) (by omega)
      rw [htail] at hcopy
      exact hcopy

/-- The prefix length of an address of a block, as the reader looks it up. -/
def AddrBlock.prefixLenAt (buf : List UInt8) (block : AddrBlock) (i : Nat) : UInt8 :=
  match block.prefixes with
  | some start => byteAt buf (start + i)
  | none => block.prefixlen

/-- Every address gets its prefix length. -/
theorem consumes_parseAddrPrefixes {addrLen flags : UInt8} {multiple : Bool}
    {first : WriterAddress n} {addrs : List (WriterAddress n)} {block : AddrBlock}
    (haddr : addrLen.toNat = n + 1) (hn : n + 1 ≤ 16) (hcount : block.numAddr.toNat = addrs.length)
    (hnone : block.prefixes = none)
    (hsame : multiple = false → ∀ a ∈ addrs, a.prefixLen = first.prefixLen)
    (hflags : flags &&& 0x18 = (writePrefixlens multiple first addrs).1) :
    Consumes buf eob (parseAddrPrefixes buf addrLen flags block) start
      (writePrefixlens multiple first addrs).2
      fun new => ∃ prefixes prefixlen,
        new = { block with prefixes := prefixes, prefixlen := prefixlen } ∧
        ∀ i (a : WriterAddress n), addrs[i]? = some a → new.prefixLenAt buf i = a.prefixLen := by
  unfold parseAddrPrefixes
  dsimp only
  rw [hflags]
  unfold writePrefixlens
  cases multiple with
  | true =>
    refine consumes_of_hasAt fun hat _ => ?_
    simp only [if_true] at hat ⊢
    refine consumes_position.bind_nil fun p hp => ?_
    subst hp
    have hlen : (addrs.map WriterAddress.prefixLen).length = block.numAddr.toNat := by
      rw [List.length_map, hcount]
    refine (consumes_advance hlen).bind_pure fun _ _ =>
      consumes_pure ⟨some p, block.prefixlen, rfl, ?_⟩
    intro i a ha
    have hi := (List.getElem?_eq_some_iff.mp ha).1
    have hbyte := hat.byteAt (i := i) (by rw [List.length_map]; exact hi)
    change byteAt buf (p + i) = a.prefixLen
    rw [hbyte, List.getElem_map, (List.getElem?_eq_some_iff.mp ha).2]
  | false =>
    have hall : ∀ i (a : WriterAddress n), addrs[i]? = some a → a.prefixLen = first.prefixLen :=
      fun i a ha => hsame rfl a (List.mem_of_getElem? ha)
    simp only [Bool.false_eq_true, if_false]
    by_cases hspecial : first.specialPrefixlen = true
    · rw [if_pos hspecial]
      refine consumes_of_hasAt fun hat _ => ?_
      refine consumes_position.bind_nil fun p hp => ?_
      subst hp
      refine (consumes_advance rfl).bind_pure fun _ _ => consumes_pure
        ⟨none, first.prefixLen, ?_, fun i a ha => ?_⟩
      · rw [hat.head, ← hnone]
      · unfold AddrBlock.prefixLenAt
        rw [hnone, hall i a ha]
        exact hat.head
    · rw [if_neg hspecial]
      refine consumes_pure ⟨none, addrLen * 8, by rw [← hnone], fun i a ha => ?_⟩
      unfold AddrBlock.prefixLenAt
      rw [hnone, hall i a ha]
      unfold WriterAddress.specialPrefixlen at hspecial
      rw [decide_eq_true_eq, not_not] at hspecial
      apply UInt8.toNat_inj.mp
      rw [hspecial, UInt8.toNat_mul, haddr]
      exact Nat.mod_eq_of_lt (by simp; omega)

/-! ## §2 Address blocks -/

/-- The reader's address block for addresses that share a head and a tail. -/
structure AddrBlockOf (buf : List UInt8) (headLen tailLen : Nat) (first : WriterAddress n)
    (addrs : List (WriterAddress n)) (block : AddrBlock) : Prop where
  numAddr : block.numAddr = UInt8.ofNat addrs.length
  midStart : block.midStart = UInt8.ofNat headLen
  midLen : block.midLen = UInt8.ofNat (n + 1 - headLen - tailLen)
  head : block.addr.take headLen = first.addr.take headLen
  tail : (block.addr.drop (n + 1 - tailLen)).take tailLen = first.addr.drop (n + 1 - tailLen)
  mids : HasAt buf block.midSrc (addrs.flatMap (·.mid headLen tailLen))
  prefixLens : ∀ i (a : WriterAddress n), addrs[i]? = some a → block.prefixLenAt buf i = a.prefixLen

/-- An address block without its TLVs. -/
def addrblockBytes (multiple : Bool) (headLen tailLen : Nat) (first : WriterAddress n)
    (addrs : List (WriterAddress n)) : List UInt8 :=
  UInt8.ofNat addrs.length :: ((writeHead headLen first).1 ||| (writeTail tailLen first).1 |||
    (writePrefixlens multiple first addrs).1) ::
      ((writeHead headLen first).2 ++ ((writeTail tailLen first).2 ++
        (addrs.flatMap (·.mid headLen tailLen) ++ (writePrefixlens multiple first addrs).2)))

theorem length_flatMap_mid (addrs : List (WriterAddress n)) (headLen tailLen : Nat) :
    (addrs.flatMap (·.mid headLen tailLen)).length = (n + 1 - headLen - tailLen) * addrs.length := by
  induction addrs with
  | nil => rfl
  | cons a addrs ih =>
    rw [List.flatMap_cons, List.length_append, a.length_mid, ih, List.length_cons, Nat.mul_succ,
      Nat.add_comm]

/-- **An address block is read back** as it was written. -/
theorem consumes_parseAddrblock {addrLen : UInt8} {multiple : Bool} {headLen tailLen : Nat}
    {first : WriterAddress n} {addrs : List (WriterAddress n)} (haddr : addrLen.toNat = n + 1)
    (hn : n + 1 ≤ 16) (hne : addrs ≠ []) (hlen : addrs.length ≤ 255)
    (hshare : Shares headLen tailLen first addrs)
    (hsame : multiple = false → ∀ a ∈ addrs, a.prefixLen = first.prefixLen) :
    Consumes buf eob (parseAddrblock buf eob addrLen) start
      (addrblockBytes multiple headLen tailLen first addrs)
      (AddrBlockOf buf headLen tailLen first addrs) := by
  have hroom := hshare.room
  have hpos := List.length_pos_iff.mpr hne
  have hcount : (UInt8.ofNat addrs.length).toNat = addrs.length := ofNat_toNat_lt (by omega)
  obtain ⟨hfh, hft, hfp⟩ := writeFlags_fields headLen tailLen multiple first addrs
  have hmid : addrLen - UInt8.ofNat headLen - UInt8.ofNat tailLen =
      UInt8.ofNat (n + 1 - headLen - tailLen) := by
    have hhead : UInt8.ofNat headLen ≤ addrLen := by
      rw [UInt8.le_iff_toNat_le, ofNat_toNat_lt (by omega), haddr]
      omega
    have h₁ : (addrLen - UInt8.ofNat headLen).toNat = n + 1 - headLen := by
      rw [UInt8.toNat_sub_of_le _ _ hhead, haddr, ofNat_toNat_lt (by omega)]
    have htail : UInt8.ofNat tailLen ≤ addrLen - UInt8.ofNat headLen := by
      rw [UInt8.le_iff_toNat_le, ofNat_toNat_lt (by omega), h₁]
      omega
    apply UInt8.toNat_inj.mp
    rw [UInt8.toNat_sub_of_le _ _ htail, h₁, ofNat_toNat_lt (by omega), ofNat_toNat_lt (by omega)]
  refine consumes_of_hasAt fun hat hle => ?_
  unfold addrblockBytes at hat hle ⊢
  simp only [List.length_cons, List.length_append, length_flatMap_mid] at hle
  unfold parseAddrblock
  refine Consumes.byte fun num hnum => ?_
  subst hnum
  refine (consumes_stopIf _ ?_).bind_nil fun _ _ => ?_
  · rw [← UInt8.toNat_inj, hcount]
    exact Nat.ne_of_gt hpos
  refine Consumes.byte fun flags hflags => ?_
  subst hflags
  refine Consumes.bind (consumes_parseAddrHead haddr hn (by omega) rfl hfh) fun block hblock => ?_
  subst hblock
  refine Consumes.bind (consumes_parseAddrTail haddr hn hroom ?_ hft) fun block hblock => ?_
  · unfold copyAt
    rw [List.take_zero, List.nil_append, List.length_take, first.length_addr, Nat.zero_add,
      Nat.min_eq_left (by omega), List.drop_replicate]
  obtain ⟨addr, rfl, hhead, htail⟩ := hblock
  refine consumes_position.bind_nil fun p hp => ?_
  subst hp
  refine Consumes.bind (consumes_advance ?_) fun _ _ => ?_
  · rw [hmid, length_flatMap_mid, ofNat_toNat_lt (by omega), hcount]
  refine consumes_position.bind_nil fun p hp => ?_
  subst hp
  refine (consumes_stopIf _ ?_).bind_nil fun _ _ => ?_
  · simp only [List.length_singleton, length_flatMap_mid]
    omega
  refine Consumes.bind_pure (consumes_parseAddrPrefixes haddr hn hcount rfl hsame hfp)
    fun block hblock => ?_
  obtain ⟨prefixes, prefixlen, rfl, hplen⟩ := hblock
  refine consumes_position.bind_nil fun p hp => ?_
  subst hp
  refine (consumes_stopIf _ ?_).bind_nil fun _ _ => ?_
  · simp only [List.length_singleton, length_flatMap_mid]
    omega
  refine consumes_checkResult.bind_nil fun _ _ => consumes_pure ?_
  refine ⟨rfl, rfl, hmid, hhead, htail, ?_, hplen⟩
  have hmids := (show HasAt _ _ ([_, _] ++ _) from hat).right.right.right.left
  rw [List.length_cons, List.length_singleton] at hmids
  simp only [List.length_singleton]
  exact hmids

/-! ## §3 Addresses -/

/-- The first TLV of a type that an address is given. -/
def WriterAddress.tlv (a : WriterAddress n) (type : UInt8) : Option WriterAddrtlv :=
  a.tlvs.find? fun t => t.type == type

/-- The context of an address is what was written about it. -/
structure ContextOf (buf : List UInt8) (a : WriterAddress n) (cont : AddrContext) : Prop where
  addr : cont.addr = netaddrFromBinaryPrefix a.addr (UInt8.ofNat (n + 1)) a.prefixLen
  origSeqnum : EntryHolds buf cont.origSeqnum (a.tlv msgtlvOrigseqnum)
  targSeqnum : EntryHolds buf cont.targSeqnum (a.tlv msgtlvTargseqnum)
  metric : EntryHolds buf cont.metric (a.tlv msgtlvMetric)

/-- All of these addresses are there, with what was written about them. -/
def ContextsOf (buf : List UInt8) (addrs : List (WriterAddress n)) (conts : List AddrResult) :
    Prop :=
  ∃ cs, conts = cs.map .ok ∧ List.Forall₂ (ContextOf buf) addrs cs

/-- Between the head and the tail, the mid part makes up the address. -/
theorem AddrBlockOf.assembled {headLen tailLen : Nat} {first a : WriterAddress n}
    {addrs : List (WriterAddress n)} {block : AddrBlock}
    (h : AddrBlockOf buf headLen tailLen first addrs block)
    (hshare : Shares headLen tailLen first addrs) (ha : a ∈ addrs) :
    (copyAt block.addr headLen (a.mid headLen tailLen)).take (n + 1) = a.addr := by
  have hroom := hshare.room
  have hhead : (first.addr.take headLen).length = headLen := by
    rw [List.length_take, first.length_addr]
    omega
  have hfront : (first.addr.take headLen ++ a.mid headLen tailLen).length = n + 1 - tailLen := by
    rw [List.length_append, hhead, a.length_mid]
    omega
  unfold copyAt
  rw [h.head, a.length_mid, show headLen + (n + 1 - headLen - tailLen) = n + 1 - tailLen by omega,
    List.take_append, hfront, List.take_of_length_le (by omega),
    show n + 1 - (n + 1 - tailLen) = tailLen by omega, h.tail]
  exact hshare.addr_eq ha

/-- **An address of a block is read back**, with its prefix length and its
TLVs. -/
theorem addrContext_written {headLen tailLen : Nat} {first a : WriterAddress n}
    {addrs : List (WriterAddress n)} {block : AddrBlock} {tlvblock : List TlvEntry}
    (h : AddrBlockOf buf headLen tailLen first addrs block)
    (hshare : Shares headLen tailLen first addrs) (htlvs : TlvblockOf buf (blockRuns addrs) tlvblock)
    (hn : n + 1 ≤ 16) (hlen : addrs.length ≤ 255) {j : Nat} (hj : addrs[j]? = some a) :
    ∃ cont, addrContext buf (UInt8.ofNat (n + 1)) { block with tlvblock } (UInt8.ofNat j) = .ok cont ∧
      ContextOf buf a cont := by
  have ha := List.mem_of_getElem? hj
  have hjlt := (List.getElem?_eq_some_iff.mp hj).1
  have hroom := hshare.room
  have hjnat : (UInt8.ofNat j).toNat = j := ofNat_toNat_lt (by omega)
  have hstart : block.midStart.toNat = headLen := by
    rw [h.midStart, ofNat_toNat_lt (by omega)]
  have hmid : block.midLen.toNat = n + 1 - headLen - tailLen := by
    rw [h.midLen, ofNat_toNat_lt (by omega)]
  have hlenn : (UInt8.ofNat (n + 1)).toNat = n + 1 := ofNat_toNat_lt (by omega)
  have hbytes := (h.mids.flatMap (fun b _ => b.length_mid) hj).bytesFrom
  rw [a.length_mid] at hbytes
  have haddr := h.assembled hshare ha
  unfold addrContext
  rw [if_neg (by rw [hstart, hmid]; omega)]
  refine ⟨_, rfl, ?_, consumerEntryTlv_written htlvs hlen hj _,
    consumerEntryTlv_written htlvs hlen hj _, consumerEntryTlv_written htlvs hlen hj _⟩
  dsimp only
  rw [hjnat, hstart, hmid, hbytes]
  change netaddrFromBinaryPrefix _ _ (block.prefixLenAt buf j) = _
  rw [h.prefixLens j a hj]
  unfold netaddrFromBinaryPrefix
  rw [hlenn, haddr, ← a.length_addr, List.take_length]

/-- What is there for every place is there as a list. -/
theorem forall₂_of_range {ε α β : Type} {R : α → β → Prop} {xs : List α} {f : Nat → Except ε β}
    (h : ∀ j x, xs[j]? = some x → ∃ y, f j = .ok y ∧ R x y) :
    ∃ ys, (List.range xs.length).map f = ys.map .ok ∧ List.Forall₂ R xs ys := by
  induction xs generalizing f with
  | nil => exact ⟨[], rfl, List.Forall₂.nil⟩
  | cons x xs ih =>
    obtain ⟨y, hy, hR⟩ := h 0 x rfl
    obtain ⟨ys, hys, hall⟩ := ih (f := fun j => f (j + 1)) fun j z hz => h (j + 1) z hz
    refine ⟨y :: ys, ?_, List.Forall₂.cons hR hall⟩
    rw [List.length_cons, List.range_succ_eq_map, List.map_cons, List.map_map, List.map_cons, hy]
    exact congrArg _ hys

/-- The addresses of a block are read back, in order. -/
theorem blockContexts_written {headLen tailLen : Nat} {first : WriterAddress n}
    {addrs : List (WriterAddress n)} {block : AddrBlock} {tlvblock : List TlvEntry}
    (h : AddrBlockOf buf headLen tailLen first addrs block)
    (hshare : Shares headLen tailLen first addrs) (htlvs : TlvblockOf buf (blockRuns addrs) tlvblock)
    (hn : n + 1 ≤ 16) (hlen : addrs.length ≤ 255) :
    ContextsOf buf addrs (blockContexts buf (UInt8.ofNat (n + 1)) { block with tlvblock }) := by
  unfold blockContexts
  rw [h.numAddr, ofNat_toNat_lt (by omega)]
  exact forall₂_of_range fun j a ha => addrContext_written h hshare htlvs hn hlen ha

end Turpial.Rfc5444
