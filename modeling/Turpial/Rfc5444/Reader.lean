/-
Turpial.Rfc5444.Reader — the vendored RFC 5444 reader, from the bytes of a
packet to the contexts its consumers are called with (`rfc5444_reader.c`).

`Parse` is a cursor over the packet in a monad that can stop. The cursor
carries the `result` variable of the source: a read past the end sets it,
every later read returns 0, and the function checks it when it is done.

What the development turns on is kept literally:

* `_parse_tlv` works on ONE entry that is reused for all TLVs of a block.
  A TLV without a value resets `_value` and leaves `single_value` at what
  an earlier TLV of the block set it to.
* Index ranges are not required to be in order, so the number of values of
  a multi-value TLV can be 0, and the length is divided by it.
* The mid part of an address is as long as an 8-bit subtraction says, and
  is copied into a 16-byte buffer.

The parallel walk of `_schedule_tlvblock` over two sorted lists is written
as its outcome: each consumer entry is left with the first TLV of its type
that covers the address. No consumer of this repository asks for a match
on the type extension, a length check or a mandatory TLV.
-/
import Turpial.Rfc5444.Context
import Turpial.Lib.Loop

namespace Turpial.Rfc5444

open Turpial.Lib

/-! ## Reading bytes -/

/-- The pointer into the packet and the `result` variable. -/
structure Cursor where
  ptr : Nat
  result : Rfc5444Result := .okay
  deriving DecidableEq, Repr

/-- A parsing step. -/
abbrev Parse (α : Type) := StateT Cursor (Except Stop) α

/-- The byte at an offset of the packet. -/
def byteAt (buf : List UInt8) (i : Nat) : UInt8 := buf[i]?.getD 0

/-- Return an error, or stop with a fault. -/
def stop {α : Type} (s : Stop) : Parse α := fun _ => .error s

/-- `if (p) return …;` -/
def stopIf (p : Prop) [Decidable p] (s : Stop) : Parse Unit := fun c =>
  if p then .error s else .ok ((), c)

/-- `return result` with whatever the reads left in it. -/
def checkResult : Parse Unit := fun c =>
  if c.result = .okay then .ok ((), c) else .error (.result c.result)

/-- `*ptr`. -/
def position : Parse Nat := fun c => .ok (c.ptr, c)

/-- `*ptr = p`. -/
def moveTo (p : Nat) : Parse Unit := fun c => .ok ((), { c with ptr := p })

/-- `*ptr += n`. -/
def advance (n : Nat) : Parse Unit := fun c => .ok ((), { c with ptr := c.ptr + n })

/-- `_rfc5444_get_u8`. -/
def getU8 (buf : List UInt8) (eob : Nat) : Parse UInt8 := fun c =>
  if c.result ≠ .okay then .ok (0, c)
  else if c.ptr ≥ eob then .ok (0, { c with result := .endOfBuffer })
  else .ok (byteAt buf c.ptr, { c with ptr := c.ptr + 1 })

/-- `_rfc5444_get_u16`. -/
def getU16 (buf : List UInt8) (eob : Nat) : Parse Nat := do
  let high ← getU8 buf eob
  let low ← getU8 buf eob
  return high.toNat * 256 + low.toNat

/-- `if (present) x = _rfc5444_get_u8(…); else x = 0;` -/
def getU8If (present : Bool) (buf : List UInt8) (eob : Nat) : Parse UInt8 :=
  if present then getU8 buf eob else return 0

/-! ## TLV blocks -/

/-- The end of `_parse_tlv`, from the copy of the value pointer on. -/
def parseTlvValue (buf : List UInt8) (entry : TlvEntry) : Parse TlvEntry :=
  if entry.length = 0 then return { entry with value := none }
  else do
    let start ← position
    advance entry.length
    let count := entry.index2 - entry.index1 + 1
    if entry.multivalue = false ∨ count = 1 then
      return { entry with
        value := some start
        multivalue := false
        singleValue := some ⟨start, byteAt buf start⟩ }
    else do
      stopIf (count = 0) (.fault .divisionByZero)
      stopIf (entry.length % count.toNat ≠ 0) (.result .badTlvLength)
      return { entry with value := some start, length := entry.length / count.toNat }

/-- The index fields of a TLV, as `_parse_tlv` reads them. -/
def parseTlvIndex (buf : List UInt8) (eob : Nat) (flags addrCount : UInt8) :
    Parse (UInt8 × UInt8) :=
  let masked := flags &&& 0x60
  if masked = 0 then return (0, addrCount - 1)
  else if masked = 0x40 then do
    let index ← getU8 buf eob
    return (index, index)
  else if masked = 0x20 then do
    let index1 ← getU8 buf eob
    let index2 ← getU8 buf eob
    return (index1, index2)
  else stop (.result .badTlvIdxflags)

/-- The length field of a TLV, as `_parse_tlv` reads it. -/
def parseTlvLength (buf : List UInt8) (eob : Nat) (flags : UInt8) : Parse Nat :=
  let masked := flags &&& 0x18
  if masked = 0 then return 0
  else if masked = 0x10 then do
    let length ← getU8 buf eob
    return length.toNat
  else if masked = 0x18 then getU16 buf eob
  else stop (.result .badTlvValueflags)

/-- `_parse_tlv` on the entry that the block reuses. -/
def parseTlv (buf : List UInt8) (eob : Nat) (addrCount : UInt8) (entry : TlvEntry) :
    Parse TlvEntry := do
  let type ← getU8 buf eob
  let flags ← getU8 buf eob
  let typeExt ← getU8If (decide (flags &&& 0x80 ≠ 0)) buf eob
  let index ← parseTlvIndex buf eob flags addrCount
  stopIf (addrCount > 0 ∧ (index.1 ≥ addrCount ∨ index.2 ≥ addrCount)) (.result .badTlvIndex)
  let length ← parseTlvLength buf eob flags
  let multivalue := decide (flags &&& 0x04 ≠ 0)
  let ptr ← position
  stopIf (ptr + length > eob) (.result .endOfBuffer)
  checkResult
  parseTlvValue buf { entry with
    type, flags, typeExt, index1 := index.1, index2 := index.2, length, multivalue }

/-- `avl_insert` into a block: sorted by `_order`, and an entry whose order
is there already goes right behind the first one that has it. -/
def avlInsert (new : TlvEntry) : List TlvEntry → List TlvEntry
  | [] => [new]
  | tlv :: block =>
    if new.order < tlv.order then new :: tlv :: block
    else if new.order = tlv.order then tlv :: new :: block
    else tlv :: avlInsert new block

/-- The body of the loop of `_parse_tlvblock`: the entry it reuses, and the
block so far. -/
def parseTlvInto (buf : List UInt8) (eob : Nat) (addrCount : UInt8)
    (s : TlvEntry × List TlvEntry) : Parse (TlvEntry × List TlvEntry) := do
  let entry ← parseTlv buf eob addrCount s.1
  return (entry, avlInsert entry s.2)

/-- `_parse_tlvblock`. Every TLV takes at least one of the `length` bytes. -/
def parseTlvblock (buf : List UInt8) (eob : Nat) (addrCount : UInt8) : Parse (List TlvEntry) := do
  let start ← position
  let length ← getU16 buf eob
  let stopAt := start + 2 + length
  stopIf (stopAt > eob) (.result .endOfBuffer)
  let s ← loopWhile (fun c => decide (c.ptr < stopAt)) (parseTlvInto buf eob addrCount)
    length ({}, [])
  return s.2

/-! ## Address blocks -/

/-- `struct rfc5444_reader_addrblock_entry`. -/
structure AddrBlock where
  numAddr : UInt8
  midStart : UInt8 := 0
  midLen : UInt8 := 0
  prefixes : Option Nat := none
  midSrc : Nat := 0
  addr : List UInt8 := List.replicate 16 0
  prefixlen : UInt8 := 0
  tlvblock : List TlvEntry := []
  deriving DecidableEq, Repr

/-- `memcpy(&dst[pos], src, n)` within the destination. -/
def copyAt (dst : List UInt8) (pos : Nat) (src : List UInt8) : List UInt8 :=
  dst.take pos ++ src ++ dst.drop (pos + src.length)

/-- `n` bytes of the packet from an offset on. -/
def bytesFrom (buf : List UInt8) (start n : Nat) : List UInt8 :=
  (List.range n).map fun i => byteAt buf (start + i)

/-- The head of the addresses, in `_parse_addrblock`. -/
def parseAddrHead (buf : List UInt8) (eob : Nat) (addrLen flags : UInt8) (block : AddrBlock) :
    Parse AddrBlock :=
  if flags &&& 0x80 = 0 then return block
  else do
    let midStart ← getU8 buf eob
    stopIf (midStart < 1 ∨ midStart ≥ 16 ∨ midStart ≥ addrLen) (.result .badAddrHeadLength)
    let ptr ← position
    stopIf (ptr + midStart.toNat > eob) (.result .endOfBuffer)
    advance midStart.toNat
    return { block with
      midStart := midStart
      addr := copyAt block.addr 0 (bytesFrom buf ptr midStart.toNat)
      midLen := block.midLen - midStart }

/-- The tail of the addresses, in `_parse_addrblock`. -/
def parseAddrTail (buf : List UInt8) (eob : Nat) (addrLen flags : UInt8) (block : AddrBlock) :
    Parse AddrBlock :=
  let masked := flags &&& 0x60
  if masked = 0x20 then do
    let tailLen ← getU8 buf eob
    return { block with midLen := block.midLen - tailLen }
  else if masked = 0x40 then do
    let tailLen ← getU8 buf eob
    stopIf (tailLen < 1 ∨ tailLen ≥ 16 ∨ tailLen ≥ addrLen) (.result .badAddrTailLength)
    let ptr ← position
    stopIf (ptr + tailLen.toNat > eob) (.result .endOfBuffer)
    advance tailLen.toNat
    return { block with
      addr := copyAt block.addr (addrLen - tailLen).toNat (bytesFrom buf ptr tailLen.toNat)
      midLen := block.midLen - tailLen }
  else do
    stopIf (masked ≠ 0) (.result .badMsgTailflags)
    return block

/-- The prefix lengths, in `_parse_addrblock`. -/
def parseAddrPrefixes (buf : List UInt8) (addrLen flags : UInt8) (block : AddrBlock) :
    Parse AddrBlock :=
  let masked := flags &&& 0x18
  if masked = 0 then return { block with prefixlen := addrLen * 8 }
  else if masked = 0x10 then do
    let ptr ← position
    advance 1
    return { block with prefixlen := byteAt buf ptr }
  else if masked = 0x08 then do
    let ptr ← position
    advance block.numAddr.toNat
    return { block with prefixes := some ptr }
  else stop (.result .badMsgPrefixflags)

/-- `_parse_addrblock`. -/
def parseAddrblock (buf : List UInt8) (eob : Nat) (addrLen : UInt8) : Parse AddrBlock := do
  let numAddr ← getU8 buf eob
  stopIf (numAddr = 0) (.result .emptyAddrblock)
  let flags ← getU8 buf eob
  let block ← parseAddrHead buf eob addrLen flags { numAddr, midLen := addrLen }
  let block ← parseAddrTail buf eob addrLen flags block
  let midSrc ← position
  let block := { block with midSrc }
  advance (block.midLen.toNat * block.numAddr.toNat)
  let ptr ← position
  stopIf (ptr > eob) (.result .endOfBuffer)
  let block ← parseAddrPrefixes buf addrLen flags block
  let ptr ← position
  stopIf (ptr > eob) (.result .endOfBuffer)
  checkResult
  return block

/-- The body of the loop of `_handle_message` over address blocks and their
TLV blocks. -/
def parseAddrblockInto (buf : List UInt8) (eob : Nat) (addrLen : UInt8) (blocks : List AddrBlock) :
    Parse (List AddrBlock) := do
  let block ← parseAddrblock buf eob addrLen
  let tlvblock ← parseTlvblock buf eob block.numAddr
  return blocks ++ [{ block with tlvblock }]

/-! ## Scheduling -/

/-- The address type that a length selects. -/
def addrTypeOfLen (len : UInt8) : AddrType :=
  if len = 4 then .inet
  else if len = 6 then .mac48
  else if len = 8 then .eui64
  else if len = 16 then .inet6
  else .unspec

/-- The 16 bytes of `_addr` as one vector. -/
def addrOfBytes (bytes : List UInt8) : Ipv6Addr :=
  let whole : Ipv6Addr :=
    (bytes.take 16).foldl (fun acc b => acc <<< (8 : Nat) ||| b.toBitVec.setWidth 128) 0#128
  whole <<< (8 * (16 - bytes.length))

/-- `netaddr_from_binary_prefix` with the type taken from the length. -/
def netaddrFromBinaryPrefix (bytes : List UInt8) (len prefixLen : UInt8) : Netaddr where
  addr := addrOfBytes (bytes.take len.toNat)
  type := addrTypeOfLen len
  prefixLen := if prefixLen = 255 then len <<< 3 else prefixLen

/-- What `_schedule_tlvblock` leaves in the consumer entry of a type: the
first TLV of the block that has the type and covers the address. The
single value of a multi-value TLV is set on the way. -/
def consumerEntryTlv (buf : List UInt8) (block : List TlvEntry) (idx type : UInt8) :
    Option TlvEntry :=
  (block.find? fun tlv => tlv.type == type && decide (tlv.index1 ≤ idx ∧ idx ≤ tlv.index2)).map
    fun tlv =>
      if tlv.multivalue then
        { tlv with singleValue := tlv.value.map fun start =>
            ⟨start + tlv.valueOffset idx, byteAt buf (start + tlv.valueOffset idx)⟩ }
      else tlv

/-- `RFC5444_MSGTLV_ORIGSEQNUM`. -/
def msgtlvOrigseqnum : UInt8 := 0

/-- `RFC5444_MSGTLV_TARGSEQNUM`. -/
def msgtlvTargseqnum : UInt8 := 1

/-- `RFC5444_MSGTLV_METRIC`. -/
def msgtlvMetric : UInt8 := 3

/-- One round of the loop of `schedule_msgaddr_consumer`, up to the
callback: assemble address `i` and fill the consumer entries. -/
def addrContext (buf : List UInt8) (addrLen : UInt8) (block : AddrBlock) (i : UInt8) : AddrResult :=
  if block.midStart.toNat + block.midLen.toNat > 16 then .error .bufferOverflow
  else
    let mid := bytesFrom buf (block.midSrc + block.midLen.toNat * i.toNat) block.midLen.toNat
    let plen := match block.prefixes with
      | some start => byteAt buf (start + i.toNat)
      | none => block.prefixlen
    let tlv := consumerEntryTlv buf block.tlvblock i
    .ok {
      addr := netaddrFromBinaryPrefix (copyAt block.addr block.midStart.toNat mid) addrLen plen
      addrIndex := i
      origSeqnum := tlv msgtlvOrigseqnum
      targSeqnum := tlv msgtlvTargseqnum
      metric := tlv msgtlvMetric }

/-- The addresses of a block, in order. -/
def blockContexts (buf : List UInt8) (addrLen : UInt8) (block : AddrBlock) : List AddrResult :=
  (List.range block.numAddr.toNat).map fun i => addrContext buf addrLen block (UInt8.ofNat i)

/-! ## Messages and packets -/

/-- The originator address of a message, which no consumer looks at. -/
def skipOrigAddr (eob : Nat) (present : Bool) (addrLen : UInt8) : Parse Unit :=
  if present then do
    let ptr ← position
    stopIf (ptr + addrLen.toNat > eob) (.result .endOfBuffer)
    advance addrLen.toNat
  else return ()

/-- The other optional header fields that only move the pointer. -/
def skipField (buf : List UInt8) (eob : Nat) (present : Bool) (bytes : Nat) : Parse Unit :=
  if present then (List.range bytes).forM fun _ => discard (getU8 buf eob)
  else return ()

/-- The parsing half of `_handle_message`; leaves the pointer at the end of
the message. -/
def parseMessage (buf : List UInt8) (eob : Nat) : Parse MessageContext := do
  let start ← position
  let msgType ← getU8 buf eob
  let flags ← getU8 buf eob
  let size ← getU16 buf eob
  let addrLen := (flags &&& 0x0f) + 1
  skipOrigAddr eob (decide (flags &&& 0x80 ≠ 0)) addrLen
  let hasHoplimit := decide (flags &&& 0x40 ≠ 0)
  let hoplimit ← getU8If hasHoplimit buf eob
  skipField buf eob (decide (flags &&& 0x20 ≠ 0)) 1
  skipField buf eob (decide (flags &&& 0x10 ≠ 0)) 2
  let stopAt := start + size
  stopIf (stopAt > eob) (.result .endOfBuffer)
  checkResult
  let _ ← parseTlvblock buf stopAt 0
  let ptr ← position
  let blocks ← loopWhile (fun c => decide (c.ptr < stopAt))
    (parseAddrblockInto buf stopAt addrLen) (stopAt - ptr) []
  moveTo stopAt
  return {
    msgType
    hopLimit := if hasHoplimit then some hoplimit else none
    addrs := blocks.flatMap (blockContexts buf addrLen) }

/-- The consumers of a message, as one function on their state. -/
abbrev Consumer (σ : Type) := MessageContext → σ → Except Fault Rfc5444Result × σ

/-- The message loop of `rfc5444_reader_handle_packet`. A message takes at
least one byte. -/
def handleMessages {σ : Type} (consumer : Consumer σ) (buf : List UInt8) :
    Nat → Nat → σ → Except Stop Unit × σ
  | 0, _, s => (.ok (), s)
  | fuel + 1, ptr, s =>
    if ptr < buf.length then
      match parseMessage buf buf.length { ptr } with
      | .error e => (.error e, s)
      | .ok (msg, c) =>
        match consumer msg s with
        | (.ok .okay, s) => handleMessages consumer buf fuel c.ptr s
        | (.ok r, s) => (.error (.result r), s)
        | (.error f, s) => (.error (.fault f), s)
    else (.ok (), s)

/-- The packet header and the packet TLV block. -/
def parsePacketHeader (buf : List UInt8) : Parse Unit := do
  let first ← getU8 buf buf.length
  stopIf (first >>> 4 ≠ 0) (.result .unsupportedVersion)
  skipField buf buf.length (decide (first &&& 0x08 ≠ 0)) 2
  checkResult
  if first &&& 0x04 ≠ 0 then discard (parseTlvblock buf buf.length 0)
  else return ()

/-- `rfc5444_reader_handle_packet`. -/
def handlePacket {σ : Type} (consumer : Consumer σ) (buf : List UInt8) (s : σ) :
    Except Stop Unit × σ :=
  if buf.length > 65535 then (.error (.result .tooLarge), s)
  else
    match parsePacketHeader buf { ptr := 0 } with
    | .error e => (.error e, s)
    | .ok (_, c) => handleMessages consumer buf buf.length c.ptr s

end Turpial.Rfc5444
