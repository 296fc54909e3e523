/-
Turpial.Rfc5444.Generator — the vendored RFC 5444 writer, from the addresses
of a message to the bytes of the packets it sends
(`rfc5444_msg_generator.c`, `rfc5444_pkt_generator.c`).

The source writes through a pointer and comes back to set flags and
lengths. Here every function returns the bytes between the pointer it is
given and the one it leaves, flags included.

`TlvRuns` is the state of `_write_addresstlvs`. A TLV type is active from
its first TLV in the block on; its list holds TLVs of addresses in a row
with values of one length (`TlvRun`). When the next TLV does not continue
the list, the list is written and starts anew.

The messages of this repository have no message TLVs, no post-processors
and one target, and the packets have no sequence number and no TLVs.
-/
import Turpial.Rfc5444.Compression
import Turpial.Rfc5444.Reader

namespace Turpial.Rfc5444

open Turpial.Lib

variable {n : Nat}

/-! ## Address TLVs -/

/-- `_current_tlv_list` and `_same_value` of a TLV type: the value of the
first TLV, and the values of the TLVs behind it. `first` is the place of
the first address in its block. -/
structure TlvRun where
  type : UInt8
  exttype : UInt8
  first : Nat
  value : List UInt8
  more : List (List UInt8) := []
  sameValue : Bool := true
  deriving DecidableEq, Repr

/-- `_full_type`. -/
def TlvRun.fullType (run : TlvRun) : Nat := run.type.toNat * 256 + run.exttype.toNat

/-- The place of the address of the last TLV. -/
def TlvRun.last (run : TlvRun) : Nat := run.first + run.more.length

/-- All values, in order. -/
def TlvRun.values (run : TlvRun) : List (List UInt8) := run.value :: run.more

/-- The high and the low byte of a 16-bit number. -/
def bytesOfU16BE (v : Nat) : List UInt8 := [UInt8.ofNat (v / 256), UInt8.ofNat v]

/-- The index fields of a TLV in a block whose last address is at `stop`,
with their flag. -/
def TlvRun.indexFields (run : TlvRun) (stop : Nat) : UInt8 × List UInt8 :=
  if run.first = 0 ∧ run.last = stop then (0, [])
  else if run.first = run.last then (0x40, [UInt8.ofNat run.first])
  else (0x20, [UInt8.ofNat run.first, UInt8.ofNat run.last])

/-- `total_len`, a `uint16_t`. -/
def TlvRun.totalLen (run : TlvRun) : Nat :=
  if run.sameValue then run.value.length
  else run.value.length * (run.last - run.first + 1) % 65536

/-- The length field of a TLV, with its flags. -/
def lengthField (totalLen : Nat) : UInt8 × List UInt8 :=
  if totalLen > 255 then (0x18, bytesOfU16BE totalLen)
  else if totalLen > 0 then (0x10, [UInt8.ofNat totalLen])
  else (0, [])

/-- The type extension, with its flag. -/
def TlvRun.extField (run : TlvRun) : UInt8 × List UInt8 :=
  if run.exttype ≠ 0 then (0x80, [run.exttype]) else (0, [])

/-- The flag of a TLV with a value for every address. -/
def TlvRun.multiFlag (run : TlvRun) : UInt8 := if run.sameValue then 0 else 0x04

/-- `*flag`, when the TLV is written. -/
def TlvRun.flags (run : TlvRun) (stop : Nat) : UInt8 :=
  run.extField.1 ||| (run.indexFields stop).1 ||| run.multiFlag ||| (lengthField run.totalLen).1

/-- The value bytes of a TLV. -/
def TlvRun.valueBytes (run : TlvRun) : List UInt8 :=
  if run.value.length > 0 then
    if run.sameValue then run.value else run.values.flatten
  else []

/-- `_write_addresstlv`. -/
def writeAddresstlv (stop : Nat) (run : TlvRun) : List UInt8 :=
  run.type :: run.flags stop :: (run.extField.2 ++ ((run.indexFields stop).2 ++
    ((lengthField run.totalLen).2 ++ run.valueBytes)))

/-- The TLVs written so far, and the lists of the active TLV types in the
order in which they became active. -/
structure TlvRuns where
  written : List TlvRun := []
  active : List TlvRun := []
  deriving DecidableEq, Repr

/-- The list of a TLV type that begins with this TLV. -/
def WriterAddrtlv.run (tlv : WriterAddrtlv) (j : Nat) : TlvRun where
  type := tlv.type
  exttype := tlv.exttype
  first := j
  value := tlv.value

/-- The body of the inner loop of `_write_addresstlvs`, on the active TLV
types: a TLV of the address at place `j`, behind the address `last`. What
is written on the way comes first. -/
def placeTlv (j : Nat) (last : Option (WriterAddress n)) (tlv : WriterAddrtlv) :
    List TlvRun → List TlvRun × List TlvRun
  | [] => ([], [tlv.run j])
  | run :: active =>
    if run.fullType = tlv.fullType then
      if run.last + 1 ≠ j ∨ (run.more.getLastD run.value).length ≠ tlv.value.length then
        ([run], tlv.run j :: active)
      else
        ([], { run with
          more := run.more ++ [tlv.value]
          sameValue := run.sameValue && sameValue last tlv } :: active)
    else
      let placed := placeTlv j last tlv active
      (placed.1, run :: placed.2)

/-- The same on the whole state. -/
def addTlv (j : Nat) (last : Option (WriterAddress n)) (s : TlvRuns) (tlv : WriterAddrtlv) :
    TlvRuns :=
  let placed := placeTlv j last tlv s.active
  { written := s.written ++ placed.1, active := placed.2 }

/-- The outer loop of `_write_addresstlvs`, from place `j` on. -/
def collectTlvs : (j : Nat) → (last : Option (WriterAddress n)) → TlvRuns →
    List (WriterAddress n) → TlvRuns
  | _, _, s, [] => s
  | j, last, s, addr :: rest =>
    collectTlvs (j + 1) (some addr) (addr.tlvs.foldl (addTlv j last) s) rest

/-- The TLVs of a block in the order in which they are written. -/
def blockRuns (addrs : List (WriterAddress n)) : List TlvRun :=
  let s := collectTlvs 0 none {} addrs
  s.written ++ s.active

/-- `_write_addresstlvs`. -/
def writeAddresstlvs (addrs : List (WriterAddress n)) : List UInt8 :=
  (blockRuns addrs).flatMap (writeAddresstlv (addrs.length - 1))

/-! ## Address blocks -/

/-- The loop over the addresses of a block that shortens the tail to what
all of them share with the first. -/
def tailLen (headLen : Nat) (first : WriterAddress n) (addrs : List (WriterAddress n)) : Nat :=
  addrs.foldl (fun tail a => min tail (commonLen first.addr.reverse a.addr.reverse)) (n - headLen)

/-- The head of an address block, with its flag. -/
def writeHead (headLen : Nat) (first : WriterAddress n) : UInt8 × List UInt8 :=
  if headLen = 0 then (0, []) else (0x80, UInt8.ofNat headLen :: first.addr.take headLen)

/-- The tail of an address block, with its flag. -/
def writeTail (tailLen : Nat) (first : WriterAddress n) : UInt8 × List UInt8 :=
  if tailLen = 0 then (0, [])
  else
    let tail := first.addr.drop (n + 1 - tailLen)
    if tail.all (· == 0) then (0x20, [UInt8.ofNat tailLen])
    else (0x40, UInt8.ofNat tailLen :: tail)

/-- The prefix lengths of an address block, with their flag. -/
def writePrefixlens (multiple : Bool) (first : WriterAddress n) (addrs : List (WriterAddress n)) :
    UInt8 × List UInt8 :=
  if multiple then (0x08, addrs.map (·.prefixLen))
  else if first.specialPrefixlen then (0x10, [first.prefixLen])
  else (0, [])

/-- An address block and its TLV block, for its addresses `first :: rest`.
Only blocks of several addresses have a head and a tail. -/
def writeMembers (multiple : Bool) (headlen : Nat) (first : WriterAddress n)
    (rest : List (WriterAddress n)) : List UInt8 :=
  let addrs := first :: rest
  let headLen := if rest = [] then 0 else headlen
  let tailLen := if rest = [] then 0 else tailLen headLen first addrs
  let midLen := n + 1 - headLen - tailLen
  let head := writeHead headLen first
  let tail := writeTail tailLen first
  let prefixlens := writePrefixlens multiple first addrs
  let tlvs := writeAddresstlvs addrs
  [UInt8.ofNat addrs.length, head.1 ||| tail.1 ||| prefixlens.1] ++ head.2 ++ tail.2 ++
    addrs.flatMap (fun a => (a.addr.drop headLen).take midLen) ++ prefixlens.2 ++
    bytesOfU16BE tlvs.length ++ tlvs

/-- One round of the loop of `_write_addresses`. -/
def writeAddrblock (addrs : List (WriterAddress n)) (block : Block) : List UInt8 :=
  match block.members addrs with
  | [] => []
  | first :: rest => writeMembers block.multiplePrefixlen block.headlen first rest

/-- `_write_addresses`. -/
def writeAddresses (addrs : List (WriterAddress n)) (blocks : List Block) : List UInt8 :=
  blocks.flatMap (writeAddrblock addrs)

/-! ## Messages -/

/-- The header fields that the message creator sets, if it has them. -/
structure WriterHeader (n : Nat) where
  msgType : UInt8
  origAddr : Option (Vector UInt8 (n + 1)) := none
  hopLimit : Option UInt8 := none
  hopCount : Option UInt8 := none
  seqno : Option UInt16 := none

/-- A header field with its flag. -/
def headerField (flag : UInt8) (field : Option (List UInt8)) : UInt8 × List UInt8 :=
  match field with
  | none => (0, [])
  | some bytes => (flag, bytes)

/-- The optional fields, in order, with their flags. -/
def WriterHeader.fields (header : WriterHeader n) : List (UInt8 × List UInt8) :=
  [headerField 0x80 (header.origAddr.map (·.toList)),
    headerField 0x40 (header.hopLimit.map ([·])),
    headerField 0x20 (header.hopCount.map ([·])),
    headerField 0x10 (header.seqno.map fun s => bytesOfU16BE s.toNat)]

/-- `writer->_msg.header`, as `rfc5444_writer_set_msg_header` computes it. -/
def WriterHeader.size (header : WriterHeader n) : Nat :=
  6 + (if header.origAddr.isSome then n + 1 else 0) + (if header.hopLimit.isSome then 1 else 0) +
    (if header.hopCount.isSome then 1 else 0) + (if header.seqno.isSome then 2 else 0)

/-- `_write_msgheader`, for address blocks of a size and no message TLVs. -/
def writeMsgheader (header : WriterHeader n) (addrSize : Nat) : List UInt8 :=
  [header.msgType, (header.fields.map (·.1)).foldl (· ||| ·) (UInt8.ofNat n)] ++
    bytesOfU16BE (header.size + addrSize) ++ header.fields.flatMap (·.2) ++ bytesOfU16BE 0

/-- What is left for the addresses, with a message buffer of `msgSize` bytes
and a packet buffer of `packetSize`. -/
def maxAddrSize (msgSize packetSize : Nat) (header : WriterHeader n) : Int :=
  (min msgSize (packetSize - 3) : Nat) - header.size

/-- `RFC5444_MAX_MESSAGE_SIZE`, the size of `_msg_buffer`. -/
def maxMessageSize : Nat := 1225

/-- A message goes through the message buffer of the writer and through
`_msg_buffer`; neither write is checked. -/
def storeMessage (msgSize : Nat) (msg : List UInt8) : Except CreateError (List UInt8) :=
  if msg.length > msgSize ∨ msg.length > maxMessageSize then .error (.fault .bufferOverflow)
  else .ok msg

/-- `rfc5444_writer_create_message` for one target, up to the message that
`_finalize_message_fragment` copies into the packet. -/
def createMessage (msgSize packetSize : Nat) (header : WriterHeader n)
    (addrs : List (WriterAddress n)) : Except CreateError (List UInt8) :=
  match addrs with
  | [] => storeMessage msgSize (writeMsgheader header 0)
  | _ =>
    match blocksOf (maxAddrSize msgSize packetSize header) addrs with
    | .error e => .error e
    | .ok blocks =>
      let bytes := writeAddresses addrs blocks
      storeMessage msgSize (writeMsgheader header bytes.length ++ bytes)

/-! ## Packets -/

/-- `rfc5444_writer_flush` of a packet that holds these messages. -/
def flushPacket (messages : List UInt8) : List UInt8 := 0 :: messages

/-- The packet sent when a message is created for a flushed target and the
target is flushed behind it. The packet is begun before the message is
known, so it goes out empty when there is none. A message that does not fit
is copied into the packet buffer all the same. -/
def sendMessage (msgSize packetSize : Nat) (header : WriterHeader n)
    (addrs : List (WriterAddress n)) : Except Fault (List UInt8) :=
  match createMessage msgSize packetSize header addrs with
  | .ok msg => if 3 + msg.length > packetSize then .error .bufferOverflow else .ok (flushPacket msg)
  | .error .mtuTooSmall => .ok (flushPacket [])
  | .error (.fault f) => .error f

end Turpial.Rfc5444
