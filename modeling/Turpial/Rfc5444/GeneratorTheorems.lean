/-
Turpial.Rfc5444.GeneratorTheorems — a message from the writer to the reader.

§1 bounds what the writer writes: the blocks of a message are never longer
than what the writer reckons for its addresses in blocks of their own
(`writeAddresses_length_le`), which is at most a few bytes more than these
blocks take (`separateEstimate_eq`). So a message with room for that overruns
no buffer, and it is written exactly when no two neighbours have the same
bytes (`createMessage_cases`).

§2 reads the blocks of a message back, §3 the message (`consumes_parseMessage`)
and §4 the packet it is sent in (`holdsMessage_messageBytes`). The round trip
follows (`createMessage_roundTrip`), and when there is one
(`sendMessage_roundTrip_iff`).
-/
import Turpial.Rfc5444.BlockTheorems
import Mathlib.Algebra.Order.BigOperators.Group.List
import Mathlib.Algebra.Order.Ring.Nat

namespace Turpial.Rfc5444

open Turpial.Lib

variable {n : Nat}

/-! ## §1 Sizes -/

/-- Lists that are shorter piece by piece are shorter. -/
theorem length_flatMap_le {ι α : Type} {items : List ι} {enc : ι → List α} {cost : ι → Nat}
    (h : ∀ item ∈ items, (enc item).length ≤ cost item) :
    (items.flatMap enc).length ≤ (items.map cost).sum := by
  rw [List.length_flatMap]
  exact List.sum_le_sum h

theorem sum_map_flatMap {ι κ : Type} (items : List ι) (f : ι → List κ) (cost : κ → Nat) :
    ((items.flatMap f).map cost).sum = (items.map fun item => ((f item).map cost).sum).sum := by
  induction items with
  | nil => rfl
  | cons item items ih =>
    rw [List.flatMap_cons, List.map_append, List.sum_append, ih, List.map_cons, List.sum_cons]

theorem lengthField_length_le {t l : Nat} (h : t ≤ l) :
    (lengthField t).2.length ≤ (if l > 255 then 1 else 0) + (if l > 0 then 1 else 0) := by
  unfold lengthField
  split
  · rw [if_pos (by omega), if_pos (by omega)]
    exact Nat.le_refl _
  · split
    · rw [if_pos (by omega : l > 0), List.length_singleton]
      exact Nat.le_add_left _ _
    · exact Nat.zero_le _

theorem lengthField_length_le_two (t : Nat) : (lengthField t).2.length ≤ 2 := by
  unfold lengthField
  split
  · exact Nat.le_refl _
  · split <;> simp

theorem TlvRun.extField_length (run : TlvRun) :
    run.extField.2.length = if run.exttype > 0 then 1 else 0 := by
  unfold TlvRun.extField
  by_cases h : run.exttype = 0
  · rw [if_neg (not_not.mpr h), if_neg (by rw [h]; decide)]
    rfl
  · rw [if_pos h, if_pos (UInt8.pos_iff_ne_zero.mpr h)]
    rfl

theorem TlvRun.indexFields_length (run : TlvRun) (stop : Nat) :
    (run.indexFields stop).2.length ≤ if run.more = [] then 1 else 2 := by
  unfold TlvRun.indexFields
  by_cases hmore : run.more = []
  · have hlast : run.first = run.last := by
      unfold TlvRun.last
      rw [hmore]
      rfl
    rw [if_pos hmore, if_pos hlast]
    split <;> simp
  · rw [if_neg hmore]
    split
    · simp
    · split <;> simp

theorem TlvRun.valueBytes_length (run : TlvRun) :
    run.valueBytes.length ≤ (run.values.map List.length).sum := by
  unfold TlvRun.valueBytes TlvRun.values
  split
  · split
    · simp
    · rw [List.length_flatten]
  · exact Nat.zero_le _

/-- A run takes no more than its TLVs would one by one. -/
theorem TlvRun.length_le (run : TlvRun) (stop : Nat) :
    (writeAddresstlv stop run).length ≤ (run.entries.map (·.2.cost)).sum := by
  have hcosts : run.entries.map (·.2.cost) = run.values.map fun v => (run.tlv v).cost := by
    unfold TlvRun.entries
    apply List.ext_getElem
    · simp
    · intro i h₁ h₂
      simp
  have hbytes := run.valueBytes_length
  have hindex := run.indexFields_length stop
  rw [hcosts]
  unfold writeAddresstlv
  simp only [List.length_cons, List.length_append, run.extField_length]
  unfold TlvRun.values at hbytes ⊢
  cases hmore : run.more with
  | nil =>
    rw [hmore] at hbytes
    rw [if_pos hmore] at hindex
    have htotal : run.totalLen ≤ run.value.length := by
      unfold TlvRun.totalLen TlvRun.last
      rw [hmore]
      split
      · exact Nat.le_refl _
      · exact Nat.le_trans (Nat.mod_le _ _) (by simp)
    have hfield := lengthField_length_le htotal
    simp only [List.map_cons, List.map_nil, List.sum_cons, List.sum_nil] at hbytes ⊢
    unfold WriterAddrtlv.cost TlvRun.tlv
    dsimp only
    omega
  | cons v more =>
    rw [hmore] at hbytes
    rw [if_neg (by rw [hmore]; exact List.cons_ne_nil v more)] at hindex
    have hfield := lengthField_length_le_two run.totalLen
    have hcost : ∀ w, 4 + (if run.exttype > 0 then 1 else 0) + w.length ≤ (run.tlv w).cost := by
      intro w
      unfold WriterAddrtlv.cost TlvRun.tlv
      dsimp only
      omega
    have hrest : (more.map List.length).sum ≤ (more.map fun w => (run.tlv w).cost).sum :=
      List.sum_le_sum fun w _ => Nat.le_trans (Nat.le_add_left _ _) (hcost w)
    have h₁ := hcost run.value
    have h₂ := hcost v
    simp only [List.map_cons, List.sum_cons] at hbytes ⊢
    omega

/-- The TLVs of a block take no more than they cost. -/
theorem writeAddresstlvs_length_le (addrs : List (WriterAddress n)) :
    (writeAddresstlvs addrs).length ≤
      (addrs.map fun a => (a.tlvs.map WriterAddrtlv.cost).sum).sum := by
  have hentries : ∀ (j : Nat) (addrs : List (WriterAddress n)),
      ((addrEntries j addrs).map (·.2.cost)).sum =
        (addrs.map fun a => (a.tlvs.map WriterAddrtlv.cost).sum).sum := by
    intro j addrs
    induction addrs generalizing j with
    | nil => rfl
    | cons a addrs ih =>
      rw [addrEntries_cons, List.map_append, List.sum_append, ih, List.map_map, List.map_cons,
        List.sum_cons]
      rfl
  unfold writeAddresstlvs
  refine Nat.le_trans (length_flatMap_le fun run _ => run.length_le _) ?_
  rw [← sum_map_flatMap, ((blockRuns_entries addrs).map _).sum_nat, hentries]

/-- The parts of an address block, as the reader takes them. -/
theorem writeMembers_eq (multiple : Bool) (headlen : Nat) (first : WriterAddress n)
    (rest : List (WriterAddress n)) :
    let headLen := if rest = [] then 0 else headlen
    let tailLen := if rest = [] then 0 else tailLen headLen first (first :: rest)
    writeMembers multiple headlen first rest =
      addrblockBytes multiple headLen tailLen first (first :: rest) ++
        (bytesOfU16BE (writeAddresstlvs (first :: rest)).length ++
          writeAddresstlvs (first :: rest)) := by
  unfold writeMembers addrblockBytes WriterAddress.mid
  simp only [List.append_assoc, List.cons_append, List.nil_append]

theorem writeHead_length (headLen : Nat) (first : WriterAddress n) (h : headLen ≤ n) :
    (writeHead headLen first).2.length ≤ 1 + headLen := by
  unfold writeHead
  split
  · exact Nat.zero_le _
  · rw [List.length_cons, List.length_take, first.length_addr]
    omega

theorem writeTail_length (tailLen : Nat) (first : WriterAddress n) (h : tailLen ≤ n) :
    (writeTail tailLen first).2.length ≤ 1 + tailLen := by
  unfold writeTail
  dsimp only
  split
  · exact Nat.zero_le _
  · split
    · exact Nat.le_add_right _ _
    · rw [List.length_cons, List.length_drop, first.length_addr]
      omega

theorem writePrefixlens_length (multiple : Bool) (first : WriterAddress n)
    {addrs : List (WriterAddress n)} (h : addrs ≠ []) :
    (writePrefixlens multiple first addrs).2.length ≤ addrs.length := by
  have hpos := List.length_pos_iff.mpr h
  unfold writePrefixlens
  split
  · rw [List.length_map]
  · split
    · exact hpos
    · exact Nat.zero_le _

/-- What is reckoned for an address in a block of its own, apart from its
TLVs. -/
theorem WriterAddress.le_newCost (a : WriterAddress n) (hn : 1 ≤ n) :
    n + 6 + (a.tlvs.map WriterAddrtlv.cost).sum ≤ a.newCost n := by
  unfold WriterAddress.newCost
  rw [if_pos (Nat.lt_of_lt_of_le Nat.zero_lt_one hn)]
  omega

/-- Head, tail and mid parts of several addresses. -/
theorem shared_bytes_le {h t r : Nat} (hroom : h + t ≤ n) (hr : 1 ≤ r) :
    h + t + (n + 1 - h - t) * (r + 1) + 7 + r ≤ (r + 1) * (n + 6) := by
  have hmid : (n + 1 - h - t) * r ≤ (n + 1) * r := Nat.mul_le_mul_right r (by omega)
  rw [Nat.add_mul, Nat.one_mul] at hmid
  rw [Nat.mul_add_one, Nat.add_mul, Nat.mul_add, Nat.one_mul, Nat.mul_comm r n]
  omega

/-- A block takes no more than is reckoned for its addresses in blocks of
their own. -/
theorem writeMembers_length_le {multiple : Bool} {headlen : Nat} (first : WriterAddress n)
    (rest : List (WriterAddress n)) (hn : 1 ≤ n) (hlen : headlen ≤ n)
    (hvalid : BlockValid (first :: rest) headlen multiple) :
    (writeMembers multiple headlen first rest).length ≤
      ((first :: rest).map (·.newCost n)).sum := by
  have hroom := (hvalid.shares hlen).room
  have htlvs := writeAddresstlvs_length_le (first :: rest)
  have hsum : ∀ addrs : List (WriterAddress n),
      addrs.length * (n + 6) + (addrs.map fun a => (a.tlvs.map WriterAddrtlv.cost).sum).sum ≤
        (addrs.map (·.newCost n)).sum := by
    intro addrs
    induction addrs with
    | nil => simp
    | cons a addrs ih =>
      have ha := a.le_newCost hn
      rw [List.length_cons, List.map_cons, List.map_cons, List.sum_cons, List.sum_cons, Nat.succ_mul]
      omega
  have hpre := writePrefixlens_length multiple first (List.cons_ne_nil first rest)
  refine Nat.le_trans ?_ (hsum (first :: rest))
  rw [writeMembers_eq]
  unfold addrblockBytes
  simp only [List.length_cons, List.length_append, length_flatMap_mid, bytesOfU16BE,
    List.length_nil] at hpre ⊢
  by_cases hrest : rest = []
  · simp only [if_pos hrest]
    have hhead : (writeHead 0 first).2.length = 0 := rfl
    have htail : (writeTail 0 first).2.length = 0 := rfl
    rw [hhead, htail, show rest.length = 0 by rw [hrest]; rfl] at *
    omega
  · simp only [if_neg hrest] at hroom ⊢
    have hhead := writeHead_length headlen first hlen
    have htail := writeTail_length (tailLen headlen first (first :: rest)) first (by omega)
    have hbytes := shared_bytes_le hroom (List.length_pos_iff.mpr hrest)
    omega

/-- **The size of a message.** The blocks of a message are no longer than what
the writer reckons for its addresses in blocks of their own. -/
theorem writeAddresses_length_le {addrs : List (WriterAddress n)} {blocks : List Block}
    (hn : 1 ≤ n) (h : Division addrs 0 blocks) :
    (writeAddresses addrs blocks).length ≤ separateEstimate addrs := by
  have hblock : ∀ block ∈ blocks, (writeAddrblock addrs block).length ≤
      ((block.members addrs).map (·.newCost n)).sum := by
    intro block hblock
    obtain ⟨-, hheadlen, hvalid⟩ := h.block hblock
    unfold writeAddrblock
    split
    · exact Nat.zero_le _
    · rename_i first rest hmembers
      rw [hmembers] at hvalid ⊢
      exact writeMembers_length_le first rest hn hheadlen hvalid
  unfold separateEstimate
  conv_rhs => rw [show addrs = addrs.drop 0 from rfl, ← h.members]
  rw [sum_map_flatMap]
  exact length_flatMap_le hblock

/-- The addresses, each in a block of its own. -/
def writeSeparately (addrs : List (WriterAddress n)) : List UInt8 :=
  addrs.flatMap fun a => writeMembers false 0 a []

/-- In a block with one address every TLV is written on its own. -/
theorem blockRuns_singleton (a : WriterAddress n) :
    blockRuns [a] = a.tlvs.map fun tlv => tlv.run 0 := by
  have hplace : ∀ (before : List WriterAddrtlv) (tlv : WriterAddrtlv),
      (∀ t ∈ before, t.fullType < tlv.fullType) →
      placeTlv 0 (none : Option (WriterAddress n)) tlv (before.map fun t => t.run 0) =
        ([], (before ++ [tlv]).map fun t => t.run 0) := by
    intro before tlv hbefore
    induction before with
    | nil => rfl
    | cons t before ih =>
      have hne : (t.run 0).fullType ≠ tlv.fullType := Nat.ne_of_lt (hbefore t List.mem_cons_self)
      rw [List.map_cons, placeTlv, if_neg hne, ih fun u hu => hbefore u (List.mem_cons_of_mem t hu)]
      rfl
  have hfold : ∀ (rest before : List WriterAddrtlv), TlvsSorted (before ++ rest) →
      rest.foldl (addTlv 0 (none : Option (WriterAddress n))) ⟨[], before.map fun t => t.run 0⟩ =
        ⟨[], (before ++ rest).map fun t => t.run 0⟩ := by
    intro rest
    induction rest with
    | nil =>
      intro before _
      rw [List.append_nil]
      rfl
    | cons tlv rest ih =>
      intro before hsorted
      obtain ⟨-, -, hcross⟩ := List.pairwise_append.mp hsorted
      rw [List.append_cons] at hsorted ⊢
      rw [List.foldl_cons, addTlv, hplace before tlv fun t ht => hcross t ht tlv List.mem_cons_self]
      exact ih _ hsorted
  have hall := hfold a.tlvs [] a.sorted
  change (let s := a.tlvs.foldl (addTlv 0 none) {}; s.written ++ s.active) = _
  dsimp only
  rw [show ({} : TlvRuns) = ⟨[], ([] : List WriterAddrtlv).map fun t => t.run 0⟩ from rfl, hall]
  rfl

/-- There it has no index fields. -/
theorem WriterAddrtlv.cost_eq (tlv : WriterAddrtlv) :
    tlv.cost = (writeAddresstlv 0 (tlv.run 0)).length + 2 := by
  have hindex : ((tlv.run 0).indexFields 0).2 = [] := rfl
  have htotal : (tlv.run 0).totalLen = tlv.value.length := rfl
  have hbytes : (tlv.run 0).valueBytes.length = tlv.value.length := by
    unfold TlvRun.valueBytes
    split
    · rfl
    · rename_i hzero
      exact (Nat.eq_zero_of_not_pos hzero).symm
  have hfield : (lengthField tlv.value.length).2.length =
      (if tlv.value.length > 255 then 1 else 0) + (if tlv.value.length > 0 then 1 else 0) := by
    unfold lengthField
    split
    · rw [if_pos (by omega)]
      rfl
    · split <;> rfl
  unfold writeAddresstlv WriterAddrtlv.cost
  simp only [List.length_cons, List.length_append, TlvRun.extField_length, hindex, htotal, hbytes,
    hfield, List.length_nil]
  change _ = (if tlv.exttype > 0 then 1 else 0) + _ + 1 + 1 + 2
  omega

/-- What is reckoned for a block of its own, and what it takes. -/
theorem WriterAddress.newCost_eq (a : WriterAddress n) (hn : 1 ≤ n) :
    a.newCost n = (writeMembers false 0 a []).length + 1 + 2 * a.tlvs.length := by
  have htlvs : (a.tlvs.map WriterAddrtlv.cost).sum =
      (writeAddresstlvs [a]).length + 2 * a.tlvs.length := by
    unfold writeAddresstlvs
    rw [blockRuns_singleton, List.flatMap_map, List.length_flatMap,
      show [a].length - 1 = 0 from rfl]
    induction a.tlvs with
    | nil => rfl
    | cons tlv tlvs ih =>
      rw [List.map_cons, List.map_cons, List.sum_cons, List.sum_cons, ih, tlv.cost_eq,
        List.length_cons]
      omega
  have hprefix : (writePrefixlens false a [a]).2.length = if a.specialPrefixlen then 1 else 0 := by
    unfold writePrefixlens
    rw [if_neg Bool.false_ne_true]
    split <;> rfl
  have hlength : (writeMembers false 0 a []).length =
      2 + (n + 1) + (if a.specialPrefixlen then 1 else 0) + 2 + (writeAddresstlvs [a]).length := by
    unfold writeMembers
    simp only [if_true, List.length_append, hprefix, List.flatMap_singleton, List.drop_zero,
      Nat.sub_zero, List.length_take, a.length_addr, Nat.min_self]
    rfl
  unfold WriterAddress.newCost
  rw [if_pos (Nat.lt_of_lt_of_le Nat.zero_lt_one hn), htlvs, hlength]
  omega

/-- The estimate for an address has a byte for a head length, and two for the
index of each TLV, that its own block does not have. -/
theorem separateEstimate_eq (hn : 1 ≤ n) (addrs : List (WriterAddress n)) :
    separateEstimate addrs =
      (writeSeparately addrs).length + addrs.length + 2 * (addrs.map (·.tlvs.length)).sum := by
  induction addrs with
  | nil => rfl
  | cons a addrs ih =>
    have ha := a.newCost_eq hn
    unfold separateEstimate writeSeparately at ih ⊢
    rw [List.flatMap_cons, List.length_append, List.map_cons, List.map_cons, List.sum_cons,
      List.sum_cons, List.length_cons, ih, ha]
    omega

theorem writeMsgheader_length (header : WriterHeader n) (addrSize : Nat) :
    (writeMsgheader header addrSize).length = header.size := by
  have hfield : ∀ (flag : UInt8) (field : Option (List UInt8)),
      (headerField flag field).2.length = (field.map List.length).getD 0 := by
    intro flag field
    cases field <;> rfl
  unfold writeMsgheader WriterHeader.fields WriterHeader.size bytesOfU16BE
  simp only [List.length_append, List.length_cons, List.length_nil, List.flatMap_cons,
    List.flatMap_nil, hfield, Option.map_map]
  cases header.origAddr <;> cases header.hopLimit <;> cases header.hopCount <;>
    cases header.seqno <;> simp <;> omega

/-- A message with its address blocks. -/
def messageBytes (header : WriterHeader n) (addrs : List (WriterAddress n)) (blocks : List Block) :
    List UInt8 :=
  writeMsgheader header (writeAddresses addrs blocks).length ++ writeAddresses addrs blocks

/-- What the writer reckons for the addresses of a message in blocks of their
own is in the room they have. The message itself may be shorter. -/
def HasRoom (msgSize packetSize : Nat) (header : WriterHeader n) (addrs : List (WriterAddress n)) :
    Prop :=
  (separateEstimate addrs : Int) ≤ maxAddrSize msgSize packetSize header ∧ addrs.length ≤ 255

theorem HasRoom.length_le {msgSize packetSize : Nat} {header : WriterHeader n}
    {addrs : List (WriterAddress n)} {blocks : List Block} (hn : 1 ≤ n)
    (h : HasRoom msgSize packetSize header addrs) (hdiv : Division addrs 0 blocks) :
    (messageBytes header addrs blocks).length ≤ min msgSize (packetSize - 3) := by
  have hbytes := writeAddresses_length_le hn hdiv
  have hroom := h.1
  unfold maxAddrSize at hroom
  unfold messageBytes
  rw [List.length_append, writeMsgheader_length]
  omega

/-- **When a message is written.** Addresses of full length that have room by
the estimate of the writer are written exactly when no two neighbours have
the same bytes. Otherwise the writer reads behind its compression sessions. -/
theorem createMessage_cases {msgSize packetSize : Nat} {header : WriterHeader n}
    {addrs : List (WriterAddress n)} (hn : n + 1 = maxAddrlen) (hmsg : msgSize ≤ maxMessageSize)
    (h : HasRoom msgSize packetSize header addrs) :
    (NeighboursDiffer addrs → ∃ blocks, Division addrs 0 blocks ∧
      createMessage msgSize packetSize header addrs = .ok (messageBytes header addrs blocks)) ∧
    (¬ NeighboursDiffer addrs →
      createMessage msgSize packetSize header addrs = .error (.fault .bufferOverflow)) := by
  have hn1 : 1 ≤ n := by
    unfold maxAddrlen at hn
    omega
  have hstore : ∀ blocks, Division addrs 0 blocks →
      storeMessage msgSize (messageBytes header addrs blocks) =
        .ok (messageBytes header addrs blocks) := by
    intro blocks hdiv
    have hle := h.length_le hn1 hdiv
    unfold storeMessage
    rw [if_neg (by omega)]
  cases addrs with
  | nil =>
    refine ⟨fun _ => ⟨[], rfl, ?_⟩, fun hnot => absurd List.IsChain.nil hnot⟩
    have hs := hstore [] rfl
    unfold messageBytes writeAddresses at hs ⊢
    rw [List.flatMap_nil, List.append_nil] at hs ⊢
    exact hs
  | cons addr rest =>
    obtain ⟨hok, hfault⟩ := blocksOf_ok_iff h.1 h.2 hn
    unfold createMessage
    constructor
    · intro hdiff
      obtain ⟨blocks, hblocks⟩ := hok.mpr hdiff
      have hdiv := blocksOf_division (List.cons_ne_nil addr rest) hdiff hblocks
      refine ⟨blocks, hdiv, ?_⟩
      simp only [hblocks]
      exact hstore blocks hdiv
    · intro hnot
      simp only [hfault hnot]

/-- What a message that was created looks like. -/
theorem createMessage_ok {msgSize packetSize : Nat} {header : WriterHeader n}
    {addrs : List (WriterAddress n)} {msg : List UInt8} (hdiff : NeighboursDiffer addrs)
    (h : createMessage msgSize packetSize header addrs = .ok msg) :
    msg.length ≤ maxMessageSize ∧
      ∃ blocks, Division addrs 0 blocks ∧ msg = messageBytes header addrs blocks := by
  have hstore : ∀ bytes, storeMessage msgSize bytes = .ok msg →
      msg.length ≤ maxMessageSize ∧ msg = bytes := by
    intro bytes hb
    unfold storeMessage at hb
    split at hb
    · cases hb
    · cases hb
      exact ⟨by omega, rfl⟩
  unfold createMessage at h
  cases addrs with
  | nil =>
    obtain ⟨hle, hmsg⟩ := hstore _ h
    refine ⟨hle, [], rfl, hmsg.trans ?_⟩
    unfold messageBytes writeAddresses
    rw [List.flatMap_nil, List.append_nil]
    rfl
  | cons addr rest =>
    dsimp only at h
    split at h
    · cases h
    · rename_i blocks hblocks
      obtain ⟨hle, hmsg⟩ := hstore _ h
      exact ⟨hle, blocks, blocksOf_division (List.cons_ne_nil addr rest) hdiff hblocks, hmsg⟩

/-- **What compression keeps.** A message that is created has its addresses in
blocks, each of them once and in order, and every block leaves out only what
its addresses share. It is longer than with a block for each address by at
most a head length for each of them and two index bytes for each TLV. -/
theorem createMessage_compresses {msgSize packetSize : Nat} {header : WriterHeader n}
    {addrs : List (WriterAddress n)} {msg : List UInt8} (hn : 1 ≤ n)
    (hdiff : NeighboursDiffer addrs)
    (h : createMessage msgSize packetSize header addrs = .ok msg) :
    ∃ blocks : List Block, msg = messageBytes header addrs blocks ∧
      blocks.flatMap (·.members addrs) = addrs ∧
      (∀ block ∈ blocks, BlockValid (block.members addrs) block.headlen block.multiplePrefixlen) ∧
      msg.length ≤ maxMessageSize ∧
      msg.length ≤ header.size + (writeSeparately addrs).length + addrs.length +
        2 * (addrs.map (·.tlvs.length)).sum := by
  obtain ⟨hsize, blocks, hdiv, rfl⟩ := createMessage_ok hdiff h
  have hbytes := writeAddresses_length_le hn hdiv
  have hestimate := separateEstimate_eq hn addrs
  refine ⟨blocks, rfl, hdiv.members, fun block hblock => (hdiv.block hblock).2.2, hsize, ?_⟩
  unfold messageBytes
  rw [List.length_append, writeMsgheader_length]
  omega

/-- A host of a /64 network, with a TLV. -/
def sampleHost (host : UInt8) (tlv : WriterAddrtlv) : WriterAddress 15 where
  addr := [0x20, 0x01, 0x0d, 0xb8, 0, 0, 0, 0, 0, 0, 0, 0, 0, 0, 0, host]
  prefixLen := 128
  tlvs := [tlv]
  length_addr := rfl
  sorted := List.pairwise_singleton _ tlv

/-- Two hosts, the one with a sequence number and the other with a metric. -/
def sampleAddrs : List (WriterAddress 15) :=
  [sampleHost 1 ⟨msgtlvOrigseqnum, 0, [0, 7]⟩, sampleHost 2 ⟨msgtlvMetric, 0, [3]⟩]

def sampleHeader : WriterHeader 15 where
  msgType := 10
  hopLimit := some 20

theorem sampleAddrs_differ : NeighboursDiffer sampleAddrs := by
  unfold NeighboursDiffer sampleAddrs
  simp [sampleHost]

/-- The two hosts share 15 of their 16 bytes. -/
def sampleMessage : List UInt8 := messageBytes sampleHeader sampleAddrs [⟨0, 1, false, 15⟩]

theorem sampleMessage_created :
    createMessage 128 128 sampleHeader sampleAddrs = .ok sampleMessage := by decide +kernel

theorem sampleMessage_compresses :
    ∃ blocks : List Block, sampleMessage = messageBytes sampleHeader sampleAddrs blocks ∧
      blocks.flatMap (·.members sampleAddrs) = sampleAddrs ∧
      (∀ block ∈ blocks,
        BlockValid (block.members sampleAddrs) block.headlen block.multiplePrefixlen) ∧
      sampleMessage.length ≤ maxMessageSize ∧
      sampleMessage.length ≤ sampleHeader.size + (writeSeparately sampleAddrs).length +
        sampleAddrs.length + 2 * (sampleAddrs.map (·.tlvs.length)).sum :=
  createMessage_compresses (by decide) sampleAddrs_differ sampleMessage_created

/-! ## §2 The blocks in the reader -/

variable {buf : List UInt8} {eob start : Nat}

theorem ContextsOf.append {xs ys : List (WriterAddress n)} {cs ds : List AddrResult}
    (h : ContextsOf buf xs cs) (h' : ContextsOf buf ys ds) :
    ContextsOf buf (xs ++ ys) (cs ++ ds) := by
  obtain ⟨cs, rfl, hcs⟩ := h
  obtain ⟨ds, rfl, hds⟩ := h'
  exact ⟨cs ++ ds, List.map_append.symm, List.rel_append hcs hds⟩

theorem Consumes.within {α : Type} {eob' : Nat} {parse : Parse α} {bytes : List UInt8}
    {Q : α → Prop} (h : Consumes buf eob' parse start bytes Q)
    (hle : start + bytes.length ≤ eob') : Consumes buf eob parse start bytes Q :=
  fun hat _ => h hat hle

/-- **An address block is read back** with its TLVs, behind the blocks before
it. -/
theorem consumes_parseAddrblockInto {addrs before : List (WriterAddress n)} {block : Block}
    {blocks : List AddrBlock} (hn : n + 1 ≤ 16) (hlen : addrs.length ≤ 255)
    (hle : block.start ≤ block.stop) (hlt : block.stop < addrs.length) (hheadlen : block.headlen ≤ n)
    (hvalid : BlockValid (block.members addrs) block.headlen block.multiplePrefixlen)
    (hsize : (writeAddrblock addrs block).length < 65536)
    (h : ContextsOf buf before (blocks.flatMap (blockContexts buf (UInt8.ofNat (n + 1))))) :
    Consumes buf eob (parseAddrblockInto buf eob (UInt8.ofNat (n + 1)) blocks) start
      (writeAddrblock addrs block) fun new => ContextsOf buf (before ++ block.members addrs)
        (new.flatMap (blockContexts buf (UInt8.ofNat (n + 1)))) := by
  have hcount := Block.length_members hle hlt
  have haddr : (UInt8.ofNat (n + 1)).toNat = n + 1 := ofNat_toNat_lt (by omega)
  unfold writeAddrblock at hsize ⊢
  cases hmembers : block.members addrs with
  | nil =>
    rw [hmembers] at hcount
    exact absurd hcount (by simp)
  | cons first rest =>
    rw [hmembers] at hcount hvalid
    simp only [hmembers] at hsize ⊢
    have hshare := hvalid.shares hheadlen
    have hsame : block.multiplePrefixlen = false →
        ∀ a ∈ first :: rest, a.prefixLen = first.prefixLen :=
      fun hm a ha => hvalid.prefixLens hm a ha first List.mem_cons_self
    rw [writeMembers_eq] at hsize ⊢
    simp only [List.length_append] at hsize
    unfold parseAddrblockInto
    refine Consumes.bind (consumes_parseAddrblock haddr hn (List.cons_ne_nil first rest)
      (by omega) hshare hsame) fun b hb => ?_
    have htlvblock : ∀ start, Consumes buf eob (parseTlvblock buf eob b.numAddr) start
        (bytesOfU16BE (writeAddresstlvs (first :: rest)).length ++ writeAddresstlvs (first :: rest))
        (TlvblockOf buf (blockRuns (first :: rest))) := by
      intro start
      rw [hb.numAddr]
      exact consumes_parseTlvblock (by omega) (by omega)
    refine (htlvblock _).bind_pure fun tlvblock htlvs => consumes_pure ?_
    rw [List.flatMap_append, List.flatMap_singleton]
    exact h.append (blockContexts_written hb hshare htlvs hn (by omega))

/-! ## §3 The message in the reader -/

/-- The flags of a message header say how long its addresses are, and which
fields follow. -/
theorem headerFlags_fields : ∀ l ∈ List.range 16, ∀ o ∈ [(0 : UInt8), 0x80],
    ∀ h ∈ [(0 : UInt8), 0x40], ∀ c ∈ [(0 : UInt8), 0x20], ∀ s ∈ [(0 : UInt8), 0x10],
      let flags := UInt8.ofNat l ||| o ||| h ||| c ||| s
      flags &&& 0x0f = UInt8.ofNat l ∧ flags &&& 0x80 = o ∧ flags &&& 0x40 = h ∧
        flags &&& 0x20 = c ∧ flags &&& 0x10 = s := by
  decide +kernel

theorem headerField_flag (flag : UInt8) (field : Option (List UInt8)) :
    (headerField flag field).1 ∈ [0, flag] := by
  cases field <;> simp [headerField]

/-- A field is there when its flag is. -/
theorem headerField_present {flag : UInt8} (h : flag ≠ 0) (field : Option (List UInt8)) :
    decide ((headerField flag field).1 ≠ 0) = field.isSome := by
  cases field with
  | none => rfl
  | some bytes => exact decide_eq_true h

theorem consumes_skipOrigAddr {field : Option (List UInt8)} {addrLen : UInt8}
    (h : ∀ bytes ∈ field, bytes.length = addrLen.toNat) :
    Consumes buf eob (skipOrigAddr eob field.isSome addrLen) start (headerField 0x80 field).2
      fun _ => True := by
  cases field with
  | none => exact consumes_pure trivial
  | some bytes =>
    refine consumes_of_hasAt fun _ hle => ?_
    refine consumes_position.bind_nil fun p hp => ?_
    subst hp
    have hlen := h bytes rfl
    refine (consumes_stopIf _ ?_).bind_nil fun _ _ => consumes_advance hlen
    rw [← hlen]
    exact Nat.not_lt.mpr hle

theorem consumes_skipField {flag : UInt8} {field : Option (List UInt8)} {k : Nat}
    (h : ∀ bytes ∈ field, bytes.length = k) :
    Consumes buf eob (skipField buf eob field.isSome k) start (headerField flag field).2
      fun _ => True := by
  have hall : ∀ (xs : List Nat) (bytes : List UInt8) (start : Nat), bytes.length = xs.length →
      Consumes buf eob (xs.forM fun _ => discard (getU8 buf eob)) start bytes fun _ => True := by
    intro xs
    induction xs with
    | nil =>
      intro bytes start hlen
      rw [List.eq_nil_of_length_eq_zero hlen]
      exact consumes_pure trivial
    | cons x xs ih =>
      intro bytes start hlen
      cases bytes with
      | nil => cases hlen
      | cons b bytes =>
        have hfirst : Consumes buf eob (discard (getU8 buf eob)) start [b] fun _ => True :=
          (consumes_getU8 b).bind_pure fun _ _ => consumes_pure trivial
        exact hfirst.bind fun _ _ => ih bytes _ (Nat.succ.inj hlen)
  cases field with
  | none => exact consumes_pure trivial
  | some bytes => exact hall _ bytes start (by rw [List.length_range]; exact h bytes rfl)

theorem consumes_hopLimit {field : Option UInt8} :
    Consumes buf eob (getU8If (field.map ([·])).isSome buf eob) start
      (headerField 0x40 (field.map ([·]))).2
      fun v => (if (field.map ([·])).isSome then some v else none) = field := by
  cases field with
  | none => exact consumes_pure rfl
  | some v => exact (consumes_getU8 v).mono fun _ h => congrArg some h

/-- A message is what was written about it. -/
structure MessageOf (buf : List UInt8) (header : WriterHeader n) (addrs : List (WriterAddress n))
    (msg : MessageContext) : Prop where
  msgType : msg.msgType = header.msgType
  hopLimit : msg.hopLimit = header.hopLimit
  addrs : ContextsOf buf addrs msg.addrs

theorem consumes_moveTo (p : Nat) : Consumes buf eob (moveTo p) p [] fun _ => True :=
  fun _ _ => ⟨(), rfl, trivial⟩

/-- The bytes of a message, in the order in which the reader takes them. -/
theorem messageBytes_eq (header : WriterHeader n) (addrs : List (WriterAddress n))
    (blocks : List Block) :
    messageBytes header addrs blocks =
      header.msgType :: (UInt8.ofNat n ||| (headerField 0x80 (header.origAddr.map (·.toList))).1 |||
        (headerField 0x40 (header.hopLimit.map ([·]))).1 |||
        (headerField 0x20 (header.hopCount.map ([·]))).1 |||
        (headerField 0x10 (header.seqno.map fun s => bytesOfU16BE s.toNat)).1) ::
      (bytesOfU16BE (messageBytes header addrs blocks).length ++
        ((headerField 0x80 (header.origAddr.map (·.toList))).2 ++
          ((headerField 0x40 (header.hopLimit.map ([·]))).2 ++
            ((headerField 0x20 (header.hopCount.map ([·]))).2 ++
              ((headerField 0x10 (header.seqno.map fun s => bytesOfU16BE s.toNat)).2 ++
                (bytesOfU16BE 0 ++ writeAddresses addrs blocks)))))) := by
  have hlen : (messageBytes header addrs blocks).length =
      header.size + (writeAddresses addrs blocks).length := by
    unfold messageBytes
    rw [List.length_append, writeMsgheader_length]
  rw [hlen]
  unfold messageBytes writeMsgheader WriterHeader.fields
  simp only [List.map_cons, List.map_nil, List.foldl_cons, List.foldl_nil, List.flatMap_cons,
    List.flatMap_nil, List.append_nil, List.append_assoc, List.cons_append, List.nil_append]

/-- The message TLV block and the address blocks, up to the end of the message. -/
theorem consumes_messageBody {α : Type} {addrs : List (WriterAddress n)} {blocks : List Block}
    {stopAt : Nat} {f : List AddrBlock → α} {Q : α → Prop} (hn : n + 1 ≤ 16)
    (hlen : addrs.length ≤ 255) (hdiv : Division addrs 0 blocks)
    (hstop : start + (2 + (writeAddresses addrs blocks).length) = stopAt)
    (hsize : (writeAddresses addrs blocks).length < 65536)
    (hQ : ∀ bs, ContextsOf buf addrs (bs.flatMap (blockContexts buf (UInt8.ofNat (n + 1)))) →
      Q (f bs)) :
    Consumes buf eob (do
        let _ ← parseTlvblock buf stopAt 0
        let ptr ← position
        let bs ← loopWhile (fun c => decide (c.ptr < stopAt))
          (parseAddrblockInto buf stopAt (UInt8.ofNat (n + 1))) (stopAt - ptr) []
        moveTo stopAt
        pure (f bs)) start (bytesOfU16BE 0 ++ writeAddresses addrs blocks) Q := by
  have htlvs : Consumes buf stopAt (parseTlvblock buf stopAt 0) start (bytesOfU16BE 0)
      (TlvblockOf buf (blockRuns ([] : List (WriterAddress n)))) := by
    have hnil : writeAddresstlvs ([] : List (WriterAddress n)) = [] := rfl
    have hempty := @consumes_parseTlvblock n buf stopAt start [] (Nat.zero_le _)
      (by rw [hnil, List.length_nil]; exact Nat.zero_lt_succ _)
    rw [hnil, List.append_nil] at hempty
    exact hempty
  have hne : ∀ block ∈ blocks, writeAddrblock addrs block ≠ [] := by
    intro block hblock hnil
    obtain ⟨⟨hle, hlt⟩, -, -⟩ := hdiv.block hblock
    have hcount := Block.length_members hle hlt
    unfold writeAddrblock at hnil
    split at hnil
    · rename_i hmembers
      rw [hmembers] at hcount
      exact absurd hcount (by simp)
    · rw [writeMembers_eq] at hnil
      exact absurd hnil (by simp [addrblockBytes])
  refine Consumes.bind (htlvs.within ?_) fun _ _ => ?_
  · rw [← hstop]
    exact Nat.add_le_add_left (Nat.le_add_right _ _) _
  refine consumes_position.bind_nil fun ptr hptr => ?_
  subst hptr
  have hend : start + (bytesOfU16BE 0).length + (writeAddresses addrs blocks).length = stopAt := by
    rw [← hstop, ← Nat.add_assoc]
    rfl
  have hloop := @consumes_loop _ _ buf stopAt (start + (bytesOfU16BE 0).length)
    (parseAddrblockInto buf stopAt (UInt8.ofNat (n + 1))) blocks (writeAddrblock addrs)
    (fun done bs => ContextsOf buf (done.flatMap (·.members addrs))
      (bs.flatMap (blockContexts buf (UInt8.ofNat (n + 1))))) [] []
    (stopAt - (start + (bytesOfU16BE 0).length)) ?_ hne ⟨[], rfl, List.Forall₂.nil⟩
    (by
      have := length_le_flatMap hne
      change _ ≤ (writeAddresses addrs blocks).length at this
      omega)
  · change Consumes _ _ (loopWhile (fun c => decide (c.ptr < _ + (writeAddresses addrs blocks).length))
      _ _ _) _ (writeAddresses addrs blocks) _ at hloop
    rw [hend, List.nil_append, hdiv.members, List.drop_zero] at hloop
    refine Consumes.bind_pure (hloop.within (Nat.le_of_eq hend)) fun bs hbs => ?_
    rw [hend]
    exact (consumes_moveTo stopAt).bind_nil fun _ _ => consumes_pure (hQ bs hbs)
  · intro done block start bs hblock hbs
    obtain ⟨⟨hle, hlt⟩, hheadlen, hvalid⟩ := hdiv.block hblock
    have hpiece := length_le_of_mem_flatMap (writeAddrblock addrs) hblock
    rw [List.flatMap_append, List.flatMap_singleton]
    exact consumes_parseAddrblockInto hn hlen hle hlt hheadlen hvalid
      (Nat.lt_of_le_of_lt hpiece hsize) hbs

/-- **A message is read back** as it was written. -/
theorem consumes_parseMessage {header : WriterHeader n} {addrs : List (WriterAddress n)}
    {blocks : List Block} (hn : n + 1 ≤ 16) (hlen : addrs.length ≤ 255)
    (hdiv : Division addrs 0 blocks) (hsize : (messageBytes header addrs blocks).length < 65536) :
    Consumes buf eob (parseMessage buf eob) start (messageBytes header addrs blocks)
      (MessageOf buf header addrs) := by
  obtain ⟨hl, ho, hh, hc, hs⟩ := headerFlags_fields n (List.mem_range.mpr hn)
    _ (headerField_flag 0x80 (header.origAddr.map (·.toList)))
    _ (headerField_flag 0x40 (header.hopLimit.map ([·])))
    _ (headerField_flag 0x20 (header.hopCount.map ([·])))
    _ (headerField_flag 0x10 (header.seqno.map fun s => bytesOfU16BE s.toNat))
  refine consumes_of_hasAt fun _ hle => ?_
  generalize htotal : (messageBytes header addrs blocks).length = total at hsize hle
  have hbytes := messageBytes_eq header addrs blocks
  rw [htotal] at hbytes
  have hlength := congrArg List.length hbytes
  rw [htotal] at hlength
  simp only [List.length_cons, List.length_append] at hlength
  rw [hbytes]
  unfold parseMessage
  refine consumes_position.bind_nil fun p hp => ?_
  subst hp
  refine Consumes.byte fun msgType htype => ?_
  refine Consumes.byte fun flags hflags => ?_
  refine Consumes.bind (consumes_getU16 hsize) fun size hsize => ?_
  subst htype hflags hsize
  simp only [hl, ho, hh, hc, hs, headerField_present (by decide : (0x80 : UInt8) ≠ 0),
    headerField_present (by decide : (0x40 : UInt8) ≠ 0),
    headerField_present (by decide : (0x20 : UInt8) ≠ 0),
    headerField_present (by decide : (0x10 : UInt8) ≠ 0)]
  have hlenn : UInt8.ofNat n + 1 = UInt8.ofNat (n + 1) := by rw [UInt8.ofNat_add]; rfl
  rw [hlenn]
  refine Consumes.bind (consumes_skipOrigAddr ?_) fun _ _ => ?_
  · intro bytes hb
    obtain ⟨v, -, rfl⟩ := Option.map_eq_some_iff.mp hb
    rw [Vector.length_toList, ofNat_toNat_lt (by omega)]
  refine Consumes.bind consumes_hopLimit fun hop hhop => ?_
  refine Consumes.bind (consumes_skipField ?_) fun _ _ => ?_
  · intro bytes hb
    obtain ⟨v, -, rfl⟩ := Option.map_eq_some_iff.mp hb
    rfl
  refine Consumes.bind (consumes_skipField ?_) fun _ _ => ?_
  · intro bytes hb
    obtain ⟨v, -, rfl⟩ := Option.map_eq_some_iff.mp hb
    rfl
  refine (consumes_stopIf _ (Nat.not_lt.mpr hle)).bind_nil fun _ _ => ?_
  refine consumes_checkResult.bind_nil fun _ _ => ?_
  rw [hhop]
  refine consumes_messageBody hn hlen hdiv ?_ (by omega) fun bs hbs => ⟨rfl, rfl, hbs⟩
  simp only [List.length_singleton]
  have h0 : (bytesOfU16BE 0).length = 2 := rfl
  omega

/-! ## §4 The packet -/

theorem consumes_parsePacketHeader : Consumes buf buf.length (parsePacketHeader buf) start [0]
    fun _ => True := by
  unfold parsePacketHeader
  refine (consumes_getU8 0).bind_pure fun first hfirst => ?_
  subst hfirst
  refine (consumes_stopIf _ (by decide)).bind_nil fun _ _ => ?_
  exact Consumes.bind_nil (Q := fun _ => True) (consumes_pure trivial) fun _ _ =>
    consumes_checkResult.bind_nil fun _ _ => consumes_pure trivial

/-- A packet holds one message, with what was written about it: its consumers
are called with that message and with nothing else. -/
def HoldsMessage (header : WriterHeader n) (addrs : List (WriterAddress n))
    (packet : List UInt8) : Prop :=
  ∃ msg, MessageOf packet header addrs msg ∧ ∀ (σ : Type) (consumer : Consumer σ) (s : σ),
    handlePacket consumer packet s = afterMessage (consumer msg s) fun s => (.ok (), s)

/-- A message is handled from its packet as it was written. -/
theorem holdsMessage_messageBytes {header : WriterHeader n} {addrs : List (WriterAddress n)}
    {blocks : List Block} (hn : n + 1 ≤ 16) (hlen : addrs.length ≤ 255)
    (hdiv : Division addrs 0 blocks) (hsize : (messageBytes header addrs blocks).length < 65535) :
    HoldsMessage header addrs (flushPacket (messageBytes header addrs blocks)) := by
  generalize hbytes : messageBytes header addrs blocks = bytes at hsize ⊢
  have hpos : 0 < bytes.length := by
    rw [← hbytes, messageBytes_eq]
    exact Nat.zero_lt_succ _
  have hlength : (flushPacket bytes).length = 1 + bytes.length := by
    unfold flushPacket
    rw [List.length_cons, Nat.add_comm]
  have hat : HasAt (flushPacket bytes) 0 ([0] ++ bytes) := List.prefix_refl _
  obtain ⟨_, hheader, -⟩ := consumes_parsePacketHeader hat.left
    (by rw [hlength]; exact Nat.le_add_right _ _)
  have hparse := @consumes_parseMessage n (flushPacket bytes) (flushPacket bytes).length 1 header
    addrs blocks hn hlen hdiv (by rw [hbytes]; omega)
  rw [hbytes] at hparse
  obtain ⟨msg, hrun, hmsg⟩ := hparse hat.right (Nat.le_of_eq hlength.symm)
  refine ⟨msg, hmsg, fun σ consumer s => ?_⟩
  unfold handlePacket
  rw [if_neg (by omega), hheader]
  change handleMessages consumer _ _ 1 s = _
  rw [hlength, Nat.add_comm 1, handleMessages_succ, hlength, if_pos (by omega)]
  rw [← hlength, hrun]
  dsimp only
  congr 1
  funext s'
  rw [← hlength]
  cases bytes.length with
  | zero => rfl
  | succ k => rw [handleMessages_succ, if_neg (Nat.lt_irrefl _)]

/-- What is sent for addresses that have room. -/
theorem sendMessage_cases {msgSize packetSize : Nat} {header : WriterHeader n}
    {addrs : List (WriterAddress n)} (hn : n + 1 = maxAddrlen) (hmsg : msgSize ≤ maxMessageSize)
    (hpacket : 3 ≤ packetSize) (h : HasRoom msgSize packetSize header addrs) :
    (NeighboursDiffer addrs → ∃ packet, sendMessage msgSize packetSize header addrs = .ok packet ∧
      packet.length ≤ packetSize ∧ HoldsMessage header addrs packet) ∧
    (¬ NeighboursDiffer addrs →
      sendMessage msgSize packetSize header addrs = .error .bufferOverflow) := by
  obtain ⟨hok, hfault⟩ := createMessage_cases hn hmsg h
  unfold sendMessage
  constructor
  · intro hdiff
    obtain ⟨blocks, hdiv, hcreated⟩ := hok hdiff
    have hle := h.length_le (by unfold maxAddrlen at hn; omega) hdiv
    have hflush : (flushPacket (messageBytes header addrs blocks)).length =
        (messageBytes header addrs blocks).length + 1 := rfl
    have hsize : msgSize < 65535 := Nat.lt_of_le_of_lt hmsg (by decide)
    refine ⟨flushPacket (messageBytes header addrs blocks), ?_, by omega,
      holdsMessage_messageBytes (Nat.le_of_eq hn) h.2 hdiv (by omega)⟩
    rw [hcreated]
    dsimp only
    rw [if_neg (by omega)]
  · intro hnot
    rw [hfault hnot]

/-- **The round trip.** A message that is created is read back from its
packet: its header, its addresses with their prefix lengths, and at each
address its TLVs of the types that the consumers ask for. -/
theorem createMessage_roundTrip {msgSize packetSize : Nat} {header : WriterHeader n}
    {addrs : List (WriterAddress n)} {msg : List UInt8} (hn : n + 1 ≤ 16)
    (hlen : addrs.length ≤ 255) (hdiff : NeighboursDiffer addrs)
    (h : createMessage msgSize packetSize header addrs = .ok msg) :
    HoldsMessage header addrs (flushPacket msg) := by
  obtain ⟨hsize, blocks, hdiv, rfl⟩ := createMessage_ok hdiff h
  exact holdsMessage_messageBytes hn hlen hdiv (Nat.lt_of_le_of_lt hsize (by decide))

theorem sampleMessage_roundTrip :
    HoldsMessage sampleHeader sampleAddrs (flushPacket sampleMessage) :=
  createMessage_roundTrip (by decide) (by decide) sampleAddrs_differ sampleMessage_created

/-- **When a message arrives.** Addresses of full length that have room by the
estimate of the writer are sent and read back exactly when no two neighbours
have the same bytes, and nothing is written behind a buffer. Otherwise the
writer reads behind its compression sessions. -/
theorem sendMessage_roundTrip_iff {msgSize packetSize : Nat} {header : WriterHeader n}
    {addrs : List (WriterAddress n)} (hn : n + 1 = maxAddrlen) (hmsg : msgSize ≤ maxMessageSize)
    (hpacket : 3 ≤ packetSize) (h : HasRoom msgSize packetSize header addrs) :
    ((∃ packet, sendMessage msgSize packetSize header addrs = .ok packet ∧
        packet.length ≤ packetSize ∧ HoldsMessage header addrs packet) ↔ NeighboursDiffer addrs) ∧
      (¬ NeighboursDiffer addrs →
        sendMessage msgSize packetSize header addrs = .error .bufferOverflow) := by
  obtain ⟨hok, hfault⟩ := sendMessage_cases hn hmsg hpacket h
  refine ⟨⟨fun ⟨packet, hsent, _⟩ => ?_, hok⟩, hfault⟩
  by_contra hnot
  rw [hfault hnot] at hsent
  cases hsent

theorem sampleAddrs_sent :
    ((∃ packet, sendMessage 128 128 sampleHeader sampleAddrs = .ok packet ∧
        packet.length ≤ 128 ∧ HoldsMessage sampleHeader sampleAddrs packet) ↔
      NeighboursDiffer sampleAddrs) ∧
    (¬ NeighboursDiffer sampleAddrs →
      sendMessage 128 128 sampleHeader sampleAddrs = .error .bufferOverflow) :=
  sendMessage_roundTrip_iff rfl (by decide) (by decide) ⟨by decide, by decide⟩

end Turpial.Rfc5444
