/-
Turpial.Rfc5444.ReaderTheorems — what the reader guarantees about the
contexts it builds, and what a run of it depends on.

§1 is progress: `Advances n p` says that a successful `p` moves the
pointer by at least `n` bytes. It composes along `>>=`, so each parsing
function has one line of it.

§2 is the one guarantee about TLV values. `TlvEntry.Parsed` is what
`_parse_tlv` leaves in an entry whatever the reused entry held before, and
`consumerEntryTlv_owns` concludes: `single_value` points into the TLV's own
bytes exactly when the TLV has a length.

§3 says that the loops never run out of fuel.

§4: parsing never looks at the state of the consumers, so handling a
packet is running the consumers on its messages (`handlePacket_eq`).
-/
import Turpial.Rfc5444.Reader

namespace Turpial.Rfc5444

open Turpial.Lib

variable {α β : Type}

/-! ## §1 Progress -/

/-- A successful run never moves the pointer back, never clears an error,
and moves the pointer by `n` bytes unless a read has failed. -/
def Advances (n : Nat) (p : Parse α) : Prop :=
  ∀ c a c', p c = .ok (a, c') → c.ptr ≤ c'.ptr ∧
    (c'.result = .okay → c.result = .okay ∧ c.ptr + n ≤ c'.ptr)

theorem Advances.bind {m n : Nat} {p : Parse α} {f : α → Parse β} (hp : Advances m p)
    (hf : ∀ a, Advances n (f a)) : Advances (m + n) (p >>= f) := by
  intro c b c' h
  obtain ⟨a, c₁, h₁, h₂⟩ := bind_ok h
  obtain ⟨hle₁, hres₁⟩ := hp c a c₁ h₁
  obtain ⟨hle₂, hres₂⟩ := hf a c₁ b c' h₂
  refine ⟨Nat.le_trans hle₁ hle₂, fun hok => ?_⟩
  obtain ⟨hok₁, hn₂⟩ := hres₂ hok
  obtain ⟨hok₀, hn₁⟩ := hres₁ hok₁
  exact ⟨hok₀, by omega⟩

/-- The same when nothing is known of the second part. -/
theorem Advances.seq {n : Nat} {p : Parse α} {f : α → Parse β} (hp : Advances n p)
    (hf : ∀ a, Advances 0 (f a)) : Advances n (p >>= f) := hp.bind hf

theorem Advances.mono {m n : Nat} {p : Parse α} (h : Advances n p) (hmn : m ≤ n) :
    Advances m p := by
  intro c a c' hp
  obtain ⟨hle, hres⟩ := h c a c' hp
  exact ⟨hle, fun hok => ⟨(hres hok).1, by have := (hres hok).2; omega⟩⟩

theorem advances_pure (a : α) : Advances 0 (pure a : Parse α) := by
  intro c b c' h
  obtain ⟨-, rfl⟩ := pure_ok.mp h
  exact ⟨Nat.le_refl _, fun hok => ⟨hok, Nat.le_refl _⟩⟩

theorem advances_stop (n : Nat) (s : Stop) : Advances n (stop s : Parse α) := by
  intro c a c' h
  cases h

theorem advances_ite {n : Nat} {p : Prop} [Decidable p] {x y : Parse α} (hx : Advances n x)
    (hy : Advances n y) : Advances n (if p then x else y) := by
  split
  · exact hx
  · exact hy

theorem advances_stopIf (p : Prop) [Decidable p] (s : Stop) : Advances 0 (stopIf p s) := by
  intro c a c' h
  unfold stopIf at h
  split at h
  · cases h
  · cases h
    exact ⟨Nat.le_refl _, fun hok => ⟨hok, Nat.le_refl _⟩⟩

theorem advances_discard {n : Nat} {p : Parse α} (hp : Advances n p) :
    Advances n (discard p) := by
  have : discard p = p >>= fun _ => pure () := rfl
  rw [this]
  exact hp.seq fun _ => advances_pure _

theorem advances_position : Advances 0 position := by
  intro c a c' h
  cases h
  exact ⟨Nat.le_refl _, fun hok => ⟨hok, Nat.le_refl _⟩⟩

theorem advances_advance (n : Nat) : Advances n (advance n) := by
  intro c a c' h
  cases h
  exact ⟨Nat.le_add_right _ _, fun hok => ⟨hok, Nat.le_refl _⟩⟩

theorem advances_checkResult : Advances 0 checkResult := by
  intro c a c' h
  unfold checkResult at h
  split at h
  · cases h
    exact ⟨Nat.le_refl _, fun hok => ⟨hok, Nat.le_refl _⟩⟩
  · cases h

theorem advances_getU8 (buf : List UInt8) (eob : Nat) : Advances 1 (getU8 buf eob) := by
  intro c a c' h
  unfold getU8 at h
  split at h
  · rename_i hres
    cases h
    exact ⟨Nat.le_refl _, fun hok => absurd hok hres⟩
  · rename_i hres
    split at h
    · cases h
      exact ⟨Nat.le_refl _, fun hok => by cases hok⟩
    · cases h
      exact ⟨Nat.le_succ _, fun hok => ⟨hok, Nat.le_refl _⟩⟩

theorem advances_getU16 (buf : List UInt8) (eob : Nat) : Advances 2 (getU16 buf eob) :=
  (advances_getU8 buf eob).bind fun _ => (advances_getU8 buf eob).bind fun _ => advances_pure _

theorem advances_getU8If (present : Bool) (buf : List UInt8) (eob : Nat) :
    Advances 0 (getU8If present buf eob) :=
  advances_ite ((advances_getU8 buf eob).mono (Nat.zero_le 1)) (advances_pure _)

theorem advances_parseTlvValue (buf : List UInt8) (entry : TlvEntry) :
    Advances 0 (parseTlvValue buf entry) := by
  unfold parseTlvValue
  apply advances_ite (advances_pure _)
  apply advances_position.seq
  intro start
  apply ((advances_advance entry.length).mono (Nat.zero_le _)).seq
  intro _
  exact advances_ite (advances_pure _)
    ((advances_stopIf _ _).seq fun _ => (advances_stopIf _ _).seq fun _ => advances_pure _)

theorem advances_parseTlvIndex (buf : List UInt8) (eob : Nat) (flags addrCount : UInt8) :
    Advances 0 (parseTlvIndex buf eob flags addrCount) := by
  have h8 := (advances_getU8 buf eob).mono (Nat.zero_le 1)
  unfold parseTlvIndex
  apply advances_ite (advances_pure _)
  apply advances_ite (h8.seq fun _ => advances_pure _)
  exact advances_ite (h8.seq fun _ => h8.seq fun _ => advances_pure _) (advances_stop _ _)

theorem advances_parseTlvLength (buf : List UInt8) (eob : Nat) (flags : UInt8) :
    Advances 0 (parseTlvLength buf eob flags) := by
  have h8 := (advances_getU8 buf eob).mono (Nat.zero_le 1)
  unfold parseTlvLength
  apply advances_ite (advances_pure _)
  apply advances_ite (h8.seq fun _ => advances_pure _)
  exact advances_ite ((advances_getU16 buf eob).mono (Nat.zero_le _)) (advances_stop _ _)

/-- A TLV takes at least its type and its flags. -/
theorem advances_parseTlv (buf : List UInt8) (eob : Nat) (addrCount : UInt8) (entry : TlvEntry) :
    Advances 2 (parseTlv buf eob addrCount entry) := by
  have h8 := advances_getU8 buf eob
  unfold parseTlv
  refine h8.bind fun type => h8.seq fun flags => ?_
  refine (advances_getU8If _ buf eob).seq fun typeExt => ?_
  refine (advances_parseTlvIndex buf eob flags addrCount).seq fun index => ?_
  refine (advances_stopIf _ _).seq fun _ => ?_
  refine (advances_parseTlvLength buf eob flags).seq fun length => ?_
  refine advances_position.seq fun ptr => (advances_stopIf _ _).seq fun _ => ?_
  exact advances_checkResult.seq fun _ => advances_parseTlvValue buf _

theorem advances_parseTlvInto (buf : List UInt8) (eob : Nat) (addrCount : UInt8)
    (s : TlvEntry × List TlvEntry) : Advances 2 (parseTlvInto buf eob addrCount s) :=
  (advances_parseTlv buf eob addrCount s.1).seq fun _ => advances_pure _

/-- A loop of steps that move the pointer forward moves it forward. -/
theorem advances_loopWhile {cond : Cursor → Bool} {body : α → Parse α}
    (hbody : ∀ a, Advances 0 (body a)) (fuel : Nat) (a : α) :
    Advances 0 (loopWhile cond body fuel a) := by
  induction fuel generalizing a with
  | zero => exact advances_pure a
  | succ fuel ih =>
    intro c b c' h
    rw [loopWhile_succ] at h
    split at h
    · exact ((hbody a).seq fun b => ih b) c b c' h
    · cases h
      exact ⟨Nat.le_refl _, fun hok => ⟨hok, Nat.le_refl _⟩⟩

theorem advances_parseTlvblock (buf : List UInt8) (eob : Nat) (addrCount : UInt8) :
    Advances 0 (parseTlvblock buf eob addrCount) := by
  unfold parseTlvblock
  refine advances_position.seq fun start => ?_
  refine ((advances_getU16 buf eob).mono (Nat.zero_le _)).seq fun length => ?_
  refine (advances_stopIf _ _).seq fun _ => ?_
  refine Advances.seq ?_ fun _ => advances_pure _
  exact advances_loopWhile
    (fun s => (advances_parseTlvInto buf eob addrCount s).mono (Nat.zero_le _)) _ _

theorem advances_parseAddrHead (buf : List UInt8) (eob : Nat) (addrLen flags : UInt8)
    (block : AddrBlock) : Advances 0 (parseAddrHead buf eob addrLen flags block) := by
  unfold parseAddrHead
  apply advances_ite (advances_pure _)
  refine ((advances_getU8 buf eob).mono (Nat.zero_le _)).seq fun midStart => ?_
  refine (advances_stopIf _ _).seq fun _ => advances_position.seq fun ptr => ?_
  refine (advances_stopIf _ _).seq fun _ => ?_
  exact ((advances_advance _).mono (Nat.zero_le _)).seq fun _ => advances_pure _

theorem advances_parseAddrTail (buf : List UInt8) (eob : Nat) (addrLen flags : UInt8)
    (block : AddrBlock) : Advances 0 (parseAddrTail buf eob addrLen flags block) := by
  have h8 := (advances_getU8 buf eob).mono (Nat.zero_le 1)
  unfold parseAddrTail
  apply advances_ite (h8.seq fun _ => advances_pure _)
  refine advances_ite (h8.seq fun tailLen => ?_)
    ((advances_stopIf _ _).seq fun _ => advances_pure _)
  refine (advances_stopIf _ _).seq fun _ => advances_position.seq fun ptr => ?_
  refine (advances_stopIf _ _).seq fun _ => ?_
  exact ((advances_advance _).mono (Nat.zero_le _)).seq fun _ => advances_pure _

theorem advances_parseAddrPrefixes (buf : List UInt8) (addrLen flags : UInt8)
    (block : AddrBlock) : Advances 0 (parseAddrPrefixes buf addrLen flags block) := by
  unfold parseAddrPrefixes
  apply advances_ite (advances_pure _)
  apply advances_ite
  · refine advances_position.seq fun ptr => ?_
    exact ((advances_advance 1).mono (Nat.zero_le _)).seq fun _ => advances_pure _
  apply advances_ite
  · refine advances_position.seq fun ptr => ?_
    exact ((advances_advance _).mono (Nat.zero_le _)).seq fun _ => advances_pure _
  · exact advances_stop _ _

theorem advances_skipOrigAddr (eob : Nat) (present : Bool) (addrLen : UInt8) :
    Advances 0 (skipOrigAddr eob present addrLen) := by
  unfold skipOrigAddr
  refine advances_ite ?_ (advances_pure _)
  refine advances_position.seq fun ptr => (advances_stopIf _ _).seq fun _ => ?_
  exact (advances_advance _).mono (Nat.zero_le _)

theorem advances_skipField (buf : List UInt8) (eob : Nat) (present : Bool) (bytes : Nat) :
    Advances 0 (skipField buf eob present bytes) := by
  have hall : ∀ xs : List Nat, Advances 0 (xs.forM fun _ => discard (getU8 buf eob)) := by
    intro xs
    induction xs with
    | nil => exact advances_pure _
    | cons x xs ih =>
      change Advances 0 (discard (getU8 buf eob) >>= fun _ => xs.forM _)
      exact ((advances_discard (advances_getU8 buf eob)).mono (Nat.zero_le _)).seq fun _ => ih
  exact advances_ite (hall _) (advances_pure _)

/-- An address block takes at least its number of addresses and its flags. -/
theorem advances_parseAddrblock (buf : List UInt8) (eob : Nat) (addrLen : UInt8) :
    Advances 2 (parseAddrblock buf eob addrLen) := by
  have h8 := advances_getU8 buf eob
  unfold parseAddrblock
  refine h8.bind fun numAddr => (advances_stopIf _ _).bind fun _ => h8.seq fun flags => ?_
  refine (advances_parseAddrHead buf eob addrLen flags _).seq fun block => ?_
  refine (advances_parseAddrTail buf eob addrLen flags block).seq fun block => ?_
  refine advances_position.seq fun midSrc => ?_
  refine ((advances_advance _).mono (Nat.zero_le _)).seq fun _ => ?_
  refine advances_position.seq fun ptr => (advances_stopIf _ _).seq fun _ => ?_
  refine (advances_parseAddrPrefixes buf addrLen flags _).seq fun block => ?_
  refine advances_position.seq fun ptr => (advances_stopIf _ _).seq fun _ => ?_
  exact advances_checkResult.seq fun _ => advances_pure _

/-- A successful `checkResult` at the end means that no read has failed. -/
theorem checkResult_ok {c c' : Cursor} {a : Unit} (h : checkResult c = .ok (a, c')) :
    c' = c ∧ c.result = .okay := by
  unfold checkResult at h
  split at h
  · cases h
    exact ⟨rfl, by assumption⟩
  · cases h

theorem stopIf_ok {p : Prop} [Decidable p] {s : Stop} {c c' : Cursor} {a : Unit}
    (h : stopIf p s c = .ok (a, c')) : ¬ p ∧ c' = c := by
  unfold stopIf at h
  split at h
  · cases h
  · cases h
    exact ⟨by assumption, rfl⟩

/-! ## §2 Values of TLVs -/

/-- What `_parse_tlv` leaves in an entry: without a length there is no
value, and the value of a TLV that is not multi-value is its single value. -/
structure TlvEntry.Parsed (tlv : TlvEntry) : Prop where
  empty : tlv.length = 0 → tlv.value = none
  filled : tlv.length ≠ 0 → ∃ start, tlv.value = some start ∧
    (tlv.multivalue = false → ∃ b, tlv.singleValue = some ⟨start, b⟩)

/-- It does so whatever the reused entry held. -/
theorem parseTlvValue_ok {buf : List UInt8} {entry tlv : TlvEntry} {c c' : Cursor}
    (h : parseTlvValue buf entry c = .ok (tlv, c')) : tlv.Parsed ∧ c'.result = c.result := by
  unfold parseTlvValue at h
  split at h
  · rename_i hlen
    obtain ⟨rfl, rfl⟩ := pure_ok.mp h
    exact ⟨⟨fun _ => rfl, fun hne => absurd hlen hne⟩, rfl⟩
  · rename_i hlen
    obtain ⟨start, c₁, h₁, h⟩ := bind_ok h
    cases h₁
    obtain ⟨_, c₂, h₂, h⟩ := bind_ok h
    cases h₂
    dsimp only at h
    split at h
    · obtain ⟨rfl, rfl⟩ := pure_ok.mp h
      exact ⟨⟨fun h0 => absurd h0 hlen, fun _ => ⟨c.ptr, rfl, fun _ => ⟨_, rfl⟩⟩⟩, rfl⟩
    · rename_i hmulti
      obtain ⟨_, c₃, h₃, h⟩ := bind_ok h
      obtain ⟨hcount, rfl⟩ := stopIf_ok h₃
      obtain ⟨_, c₄, h₄, h⟩ := bind_ok h
      obtain ⟨hmod, rfl⟩ := stopIf_ok h₄
      obtain ⟨rfl, rfl⟩ := pure_ok.mp h
      rw [not_or, Bool.not_eq_false] at hmulti
      rw [not_not] at hmod
      refine ⟨⟨fun h0 => ?_, fun _ => ⟨c.ptr, rfl, fun hfalse => ?_⟩⟩, rfl⟩
      · -- The length is a nonzero multiple of the count.
        have hdiv := Nat.div_add_mod entry.length (entry.index2 - entry.index1 + 1).toNat
        rw [hmod] at hdiv
        rw [show entry.length / (entry.index2 - entry.index1 + 1).toNat = 0 from h0] at hdiv
        exact absurd hdiv.symm (by simpa using hlen)
      · rw [show entry.multivalue = false from hfalse] at hmulti
        cases hmulti.1

/-- A parsed TLV has checked its reads. -/
theorem parseTlv_ok {buf : List UInt8} {eob : Nat} {addrCount : UInt8} {entry tlv : TlvEntry}
    {c c' : Cursor} (h : parseTlv buf eob addrCount entry c = .ok (tlv, c')) :
    tlv.Parsed ∧ c.ptr + 2 ≤ c'.ptr := by
  have hadv := (advances_parseTlv buf eob addrCount entry c tlv c' h).2
  unfold parseTlv at h
  obtain ⟨_, _, -, h⟩ := bind_ok h
  obtain ⟨_, _, -, h⟩ := bind_ok h
  obtain ⟨_, _, -, h⟩ := bind_ok h
  obtain ⟨_, _, -, h⟩ := bind_ok h
  obtain ⟨_, _, -, h⟩ := bind_ok h
  obtain ⟨_, _, -, h⟩ := bind_ok h
  obtain ⟨_, _, -, h⟩ := bind_ok h
  obtain ⟨_, _, -, h⟩ := bind_ok h
  obtain ⟨_, c₁, hcheck, h⟩ := bind_ok h
  have hokay : c₁.result = .okay := by rw [(checkResult_ok hcheck).1, (checkResult_ok hcheck).2]
  obtain ⟨hparsed, hres⟩ := parseTlvValue_ok h
  exact ⟨hparsed, (hadv (hres.trans hokay)).2⟩

@[simp] theorem mem_avlInsert {new tlv : TlvEntry} {block : List TlvEntry} :
    tlv ∈ avlInsert new block ↔ tlv = new ∨ tlv ∈ block := by
  induction block with
  | nil => simp [avlInsert]
  | cons head block ih =>
    unfold avlInsert
    split
    · simp
    · split
      · simp only [List.mem_cons]
        exact or_left_comm
      · simp only [List.mem_cons, ih]
        exact or_left_comm

/-- Every entry of a TLV block has been parsed. -/
theorem parseTlvblock_parsed {buf : List UInt8} {eob : Nat} {addrCount : UInt8}
    {block : List TlvEntry} {c c' : Cursor}
    (h : parseTlvblock buf eob addrCount c = .ok (block, c')) :
    c.ptr + 2 ≤ eob ∧ ∀ tlv ∈ block, tlv.Parsed := by
  unfold parseTlvblock at h
  obtain ⟨_, c₁, h₁, h⟩ := bind_ok h
  cases h₁
  obtain ⟨length, c₂, -, h⟩ := bind_ok h
  obtain ⟨_, c₃, h₃, h⟩ := bind_ok h
  obtain ⟨s, c₄, hloop, h⟩ := bind_ok h
  obtain ⟨rfl, rfl⟩ := pure_ok.mp h
  have hend := (stopIf_ok h₃).1
  refine ⟨by omega, ?_⟩
  refine @loopWhile_invariant _ _ _ _ _ (fun s => ∀ tlv ∈ s.2, tlv.Parsed) ?_ _ _ _ _ _ (by simp) hloop
  intro s s' k k' hs hbody
  obtain ⟨entry, k₁, htlv, hbody⟩ := bind_ok hbody
  obtain ⟨rfl, rfl⟩ := pure_ok.mp hbody
  intro tlv hmem
  rcases mem_avlInsert.mp hmem with rfl | hmem
  · exact (parseTlv_ok htlv).1
  · exact hs tlv hmem

/-- The TLVs of a context. -/
def AddrContext.tlvs (cont : AddrContext) : List TlvEntry :=
  cont.origSeqnum.toList ++ cont.targSeqnum.toList ++ cont.metric.toList

/-- In every TLV of the context, `single_value` points into the TLV's own
bytes exactly when the TLV has a length. -/
def AddrContext.ValuesOwned (cont : AddrContext) : Prop :=
  ∀ tlv ∈ cont.tlvs, tlv.OwnsSingleValue cont.addrIndex ↔ tlv.length ≠ 0

/-- What the schedule leaves in a consumer entry. -/
theorem consumerEntryTlv_owns {buf : List UInt8} {block : List TlvEntry} {idx type : UInt8}
    {tlv : TlvEntry} (hblock : ∀ tlv ∈ block, tlv.Parsed)
    (h : consumerEntryTlv buf block idx type = some tlv) :
    tlv.OwnsSingleValue idx ↔ tlv.length ≠ 0 := by
  obtain ⟨src, hfind, htlv⟩ := Option.map_eq_some_iff.mp h
  have hparsed := hblock src (List.mem_of_find?_eq_some hfind)
  constructor
  · rintro ⟨start, ptr, -, -, hle, hlt⟩
    omega
  · intro hlen
    split at htlv
    · subst htlv
      obtain ⟨start, hvalue, -⟩ := hparsed.filled hlen
      refine ⟨start, ⟨start + src.valueOffset idx, byteAt buf (start + src.valueOffset idx)⟩,
        hvalue, ?_, Nat.le_refl _, ?_⟩
      · rw [hvalue]
        rfl
      · change start + src.valueOffset idx < start + src.valueOffset idx + src.length
        change src.length ≠ 0 at hlen
        omega
    · rename_i hmulti
      subst htlv
      obtain ⟨start, hvalue, hsingle⟩ := hparsed.filled hlen
      obtain ⟨b, hb⟩ := hsingle (by simpa using hmulti)
      have hoff : src.valueOffset idx = 0 := by
        unfold TlvEntry.valueOffset
        rw [if_neg hmulti]
      exact ⟨start, ⟨start, b⟩, hvalue, hb, by rw [hoff]; exact Nat.le_refl _, by
        rw [hoff]
        change start < start + 0 + src.length
        omega⟩

/-- Every context of a block has its values owned. -/
theorem addrContext_owned {buf : List UInt8} {addrLen : UInt8} {block : AddrBlock} {i : UInt8}
    {cont : AddrContext} (hblock : ∀ tlv ∈ block.tlvblock, tlv.Parsed)
    (h : addrContext buf addrLen block i = .ok cont) : cont.ValuesOwned := by
  unfold addrContext at h
  split at h
  · cases h
  · cases h
    intro tlv hmem
    simp only [AddrContext.tlvs, List.mem_append, Option.mem_toList] at hmem
    rcases hmem with (hmem | hmem) | hmem
    · exact consumerEntryTlv_owns hblock hmem
    · exact consumerEntryTlv_owns hblock hmem
    · exact consumerEntryTlv_owns hblock hmem

/-- Every address that the reader hands to a consumer has its values owned. -/
theorem parseMessage_owned {buf : List UInt8} {eob : Nat} {msg : MessageContext} {c c' : Cursor}
    (h : parseMessage buf eob c = .ok (msg, c')) {cont : AddrContext}
    (hcont : .ok cont ∈ msg.addrs) : cont.ValuesOwned := by
  unfold parseMessage at h
  obtain ⟨_, _, -, h⟩ := bind_ok h
  obtain ⟨_, _, -, h⟩ := bind_ok h
  obtain ⟨_, _, -, h⟩ := bind_ok h
  obtain ⟨_, _, -, h⟩ := bind_ok h
  obtain ⟨_, _, -, h⟩ := bind_ok h
  obtain ⟨_, _, -, h⟩ := bind_ok h
  obtain ⟨_, _, -, h⟩ := bind_ok h
  obtain ⟨_, _, -, h⟩ := bind_ok h
  obtain ⟨_, _, -, h⟩ := bind_ok h
  obtain ⟨_, _, -, h⟩ := bind_ok h
  obtain ⟨_, _, -, h⟩ := bind_ok h
  obtain ⟨_, _, -, h⟩ := bind_ok h
  obtain ⟨blocks, _, hloop, h⟩ := bind_ok h
  obtain ⟨_, _, -, h⟩ := bind_ok h
  obtain ⟨rfl, -⟩ := pure_ok.mp h
  have hblocks : ∀ block ∈ blocks, ∀ tlv ∈ block.tlvblock, tlv.Parsed := by
    refine @loopWhile_invariant _ _ _ _ _
      (fun blocks => ∀ block ∈ blocks, ∀ tlv ∈ block.tlvblock, tlv.Parsed) ?_ _ _ _ _ _
      (by simp) hloop
    intro blocks blocks' k k' hs hbody
    obtain ⟨block, _, -, hbody⟩ := bind_ok hbody
    obtain ⟨tlvblock, _, htlv, hbody⟩ := bind_ok hbody
    obtain ⟨rfl, rfl⟩ := pure_ok.mp hbody
    intro b hb
    rcases List.mem_append.mp hb with hb | hb
    · exact hs b hb
    · rw [List.mem_singleton.mp hb]
      exact (parseTlvblock_parsed htlv).2
  obtain ⟨block, hblock, hmem⟩ := List.mem_flatMap.mp hcont
  obtain ⟨i, -, hi⟩ := List.mem_map.mp hmem
  exact addrContext_owned (hblocks block hblock) hi

/-! ## §3 Fuel -/

/-- How the reader goes on after one message. -/
def afterMessage {σ : Type} (r : Except Fault Rfc5444Result × σ)
    (next : σ → Except Stop Unit × σ) : Except Stop Unit × σ :=
  match r with
  | (.ok .okay, s) => next s
  | (.ok r, s) => (.error (.result r), s)
  | (.error f, s) => (.error (.fault f), s)

theorem handleMessages_succ {σ : Type} (consumer : Consumer σ) (buf : List UInt8)
    (fuel ptr : Nat) (s : σ) :
    handleMessages consumer buf (fuel + 1) ptr s =
      if ptr < buf.length then
        match parseMessage buf buf.length { ptr } with
        | .error e => (.error e, s)
        | .ok (msg, c) => afterMessage (consumer msg s) (handleMessages consumer buf fuel c.ptr)
      else (.ok (), s) := rfl

theorem parseAddrblock_ptr {buf : List UInt8} {eob : Nat} {addrLen : UInt8} {block : AddrBlock}
    {c c' : Cursor} (h : parseAddrblock buf eob addrLen c = .ok (block, c')) :
    c.ptr + 2 ≤ c'.ptr := by
  have hadv := (advances_parseAddrblock buf eob addrLen c block c' h).2
  unfold parseAddrblock at h
  obtain ⟨_, _, -, h⟩ := bind_ok h
  obtain ⟨_, _, -, h⟩ := bind_ok h
  obtain ⟨_, _, -, h⟩ := bind_ok h
  obtain ⟨_, _, -, h⟩ := bind_ok h
  obtain ⟨_, _, -, h⟩ := bind_ok h
  obtain ⟨_, _, -, h⟩ := bind_ok h
  obtain ⟨_, _, -, h⟩ := bind_ok h
  obtain ⟨_, _, -, h⟩ := bind_ok h
  obtain ⟨_, _, -, h⟩ := bind_ok h
  obtain ⟨_, _, -, h⟩ := bind_ok h
  obtain ⟨_, _, -, h⟩ := bind_ok h
  obtain ⟨_, _, -, h⟩ := bind_ok h
  obtain ⟨_, c₁, hcheck, h⟩ := bind_ok h
  have hokay : c₁.result = .okay := by rw [(checkResult_ok hcheck).1, (checkResult_ok hcheck).2]
  have hc : c₁ = c' := (pure_ok.mp h).2
  rw [hc] at hokay
  exact (hadv hokay).2

/-- The condition of both loops, and the bytes left before its bound. -/
theorem lowers_of_ptr {stopAt : Nat} {body : α → Parse α}
    (h : ∀ a a' c c', body a c = .ok (a', c') → c.ptr < c'.ptr) :
    Lowers (fun c : Cursor => decide (c.ptr < stopAt)) body (fun c => stopAt - c.ptr) := by
  intro a a' c c' hcond hbody
  have hlt := h a a' c c' hbody
  rw [decide_eq_true_eq] at hcond
  change stopAt - c'.ptr < stopAt - c.ptr
  omega

/-- With fuel for the bytes up to the bound, more fuel makes no difference,
and a loop that succeeds has come to the bound. -/
theorem loop_fuel {stopAt : Nat} {body : α → Parse α}
    (h : ∀ a a' c c', body a c = .ok (a', c') → c.ptr < c'.ptr) {fuel : Nat} (a : α)
    (c : Cursor) (hf : stopAt - c.ptr ≤ fuel) :
    (∀ fuel', stopAt - c.ptr ≤ fuel' →
      loopWhile (fun c => decide (c.ptr < stopAt)) body fuel' a c =
        loopWhile (fun c => decide (c.ptr < stopAt)) body fuel a c) ∧
    ∀ a' c', loopWhile (fun c => decide (c.ptr < stopAt)) body fuel a c = .ok (a', c') →
      stopAt ≤ c'.ptr := by
  have hzero : ∀ c : Cursor, stopAt - c.ptr = 0 → decide (c.ptr < stopAt) = false :=
    fun c h0 => decide_eq_false (by omega)
  refine ⟨fun fuel' hf' => loopWhile_fuel (lowers_of_ptr h) hzero hf' hf, fun a' c' hloop => ?_⟩
  have hdone := loopWhile_done (lowers_of_ptr h) hzero hf hloop
  exact Nat.le_of_not_lt (of_decide_eq_false hdone)

/-- Both loops of the reader move the pointer in every round. -/
theorem parseTlvInto_ptr {buf : List UInt8} {eob : Nat} {addrCount : UInt8}
    {s s' : TlvEntry × List TlvEntry} {c c' : Cursor}
    (h : parseTlvInto buf eob addrCount s c = .ok (s', c')) : c.ptr < c'.ptr := by
  obtain ⟨entry, c₁, htlv, h⟩ := bind_ok h
  obtain ⟨-, rfl⟩ := pure_ok.mp h
  have := (parseTlv_ok htlv).2
  omega

theorem parseAddrblockInto_ptr {buf : List UInt8} {eob : Nat} {addrLen : UInt8}
    {blocks blocks' : List AddrBlock} {c c' : Cursor}
    (h : parseAddrblockInto buf eob addrLen blocks c = .ok (blocks', c')) : c.ptr < c'.ptr := by
  obtain ⟨block, c₁, hblock, h⟩ := bind_ok h
  obtain ⟨tlvblock, c₂, htlv, h⟩ := bind_ok h
  obtain ⟨-, rfl⟩ := pure_ok.mp h
  have h₁ := parseAddrblock_ptr hblock
  have h₂ := (advances_parseTlvblock buf eob block.numAddr c₁ tlvblock c₂ htlv).1
  omega

/-- The loop over the TLVs of a block runs to the end of the block. -/
theorem parseTlvs_fuel (buf : List UInt8) (eob : Nat) (addrCount : UInt8) {stopAt fuel : Nat}
    (s : TlvEntry × List TlvEntry) (c : Cursor) (hf : stopAt - c.ptr ≤ fuel) :
    (∀ fuel', stopAt - c.ptr ≤ fuel' →
      loopWhile (fun c => decide (c.ptr < stopAt)) (parseTlvInto buf eob addrCount) fuel' s c =
        loopWhile (fun c => decide (c.ptr < stopAt)) (parseTlvInto buf eob addrCount) fuel s c) ∧
    ∀ s' c', loopWhile (fun c => decide (c.ptr < stopAt)) (parseTlvInto buf eob addrCount) fuel s c =
      .ok (s', c') → stopAt ≤ c'.ptr :=
  loop_fuel (fun _ _ _ _ => parseTlvInto_ptr) s c hf

/-- The loop over the address blocks runs to the end of the message. -/
theorem parseAddrblocks_fuel (buf : List UInt8) (eob : Nat) (addrLen : UInt8) {stopAt fuel : Nat}
    (blocks : List AddrBlock) (c : Cursor) (hf : stopAt - c.ptr ≤ fuel) :
    (∀ fuel', stopAt - c.ptr ≤ fuel' →
      loopWhile (fun c => decide (c.ptr < stopAt)) (parseAddrblockInto buf eob addrLen) fuel' blocks
          c =
        loopWhile (fun c => decide (c.ptr < stopAt)) (parseAddrblockInto buf eob addrLen) fuel blocks
          c) ∧
    ∀ blocks' c', loopWhile (fun c => decide (c.ptr < stopAt)) (parseAddrblockInto buf eob addrLen)
      fuel blocks c = .ok (blocks', c') → stopAt ≤ c'.ptr :=
  loop_fuel (fun _ _ _ _ => parseAddrblockInto_ptr) blocks c hf

/-- A message ends behind its start. -/
theorem parseMessage_ptr {buf : List UInt8} {eob : Nat} {msg : MessageContext} {c c' : Cursor}
    (h : parseMessage buf eob c = .ok (msg, c')) : c.ptr < c'.ptr := by
  unfold parseMessage at h
  obtain ⟨start, c₀, h₀, h⟩ := bind_ok h
  cases h₀
  obtain ⟨msgType, c₁, h₁, h⟩ := bind_ok h
  obtain ⟨flags, c₂, h₂, h⟩ := bind_ok h
  obtain ⟨size, c₃, h₃, h⟩ := bind_ok h
  obtain ⟨_, c₄, h₄, h⟩ := bind_ok h
  obtain ⟨_, c₅, h₅, h⟩ := bind_ok h
  obtain ⟨_, c₆, h₆, h⟩ := bind_ok h
  obtain ⟨_, c₇, h₇, h⟩ := bind_ok h
  obtain ⟨_, c₈, h₈, h⟩ := bind_ok h
  obtain ⟨_, c₉, h₉, h⟩ := bind_ok h
  obtain ⟨_, c₁₀, htlv, h⟩ := bind_ok h
  obtain ⟨_, _, -, h⟩ := bind_ok h
  obtain ⟨_, _, -, h⟩ := bind_ok h
  obtain ⟨_, c₁₁, hmove, h⟩ := bind_ok h
  cases hmove
  obtain ⟨-, rfl⟩ := pure_ok.mp h
  -- The message TLV block lies behind the header and before the end.
  have hend := (parseTlvblock_parsed htlv).1
  have p₁ := (advances_getU8 buf eob _ _ _ h₁).1
  have p₂ := (advances_getU8 buf eob _ _ _ h₂).1
  have p₃ := (advances_getU16 buf eob _ _ _ h₃).1
  have p₄ := (advances_skipOrigAddr eob _ _ _ _ _ h₄).1
  have p₅ := (advances_getU8If _ buf eob _ _ _ h₅).1
  have p₆ := (advances_skipField buf eob _ _ _ _ _ h₆).1
  have p₇ := (advances_skipField buf eob _ _ _ _ _ h₇).1
  have p₈ := congrArg Cursor.ptr (stopIf_ok h₈).2
  have p₉ := congrArg Cursor.ptr (checkResult_ok h₉).1
  change c.ptr < c.ptr + size
  omega

/-- Any fuel that covers the rest of the packet gives the message loop the
same result. -/
theorem handleMessages_fuel {σ : Type} (consumer : Consumer σ) (buf : List UInt8)
    {fuel fuel' ptr : Nat} (s : σ) (hf : buf.length - ptr ≤ fuel)
    (hf' : buf.length - ptr ≤ fuel') :
    handleMessages consumer buf fuel ptr s = handleMessages consumer buf fuel' ptr s := by
  induction fuel generalizing fuel' ptr s with
  | zero =>
    cases fuel' with
    | zero => rfl
    | succ fuel' =>
      rw [handleMessages_succ, if_neg (by omega)]
      rfl
  | succ fuel ih =>
    cases fuel' with
    | zero =>
      rw [handleMessages_succ, if_neg (by omega)]
      rfl
    | succ fuel' =>
      rw [handleMessages_succ, handleMessages_succ]
      split
      · cases hparse : parseMessage buf buf.length { ptr } with
        | error e => rfl
        | ok p =>
          obtain ⟨msg, c⟩ := p
          have hlt := parseMessage_ptr hparse
          change ptr < c.ptr at hlt
          change afterMessage _ _ = afterMessage _ _
          congr 1
          funext s
          exact ih s (by omega) (by omega)
      · rfl

/-! ## §4 Messages of a packet -/

/-- The messages from an offset on, as far as they parse. -/
def messagesFrom (buf : List UInt8) : Nat → Nat → List MessageContext
  | 0, _ => []
  | fuel + 1, ptr =>
    if ptr < buf.length then
      match parseMessage buf buf.length { ptr } with
      | .error _ => []
      | .ok (msg, c) => msg :: messagesFrom buf fuel c.ptr
    else []

/-- The messages of a packet: what its consumers are called with, as long
as they return OKAY. -/
def messages (buf : List UInt8) : List MessageContext :=
  if buf.length > 65535 then []
  else
    match parsePacketHeader buf { ptr := 0 } with
    | .error _ => []
    | .ok (_, c) => messagesFrom buf buf.length c.ptr

/-- Every address of every message has its values owned. -/
theorem messages_owned {buf : List UInt8} {msg : MessageContext} (hmsg : msg ∈ messages buf)
    {cont : AddrContext} (hcont : .ok cont ∈ msg.addrs) : cont.ValuesOwned := by
  have hfrom : ∀ fuel ptr, msg ∈ messagesFrom buf fuel ptr → cont.ValuesOwned := by
    intro fuel
    induction fuel with
    | zero =>
      intro ptr h
      cases h
    | succ fuel ih =>
      intro ptr h
      unfold messagesFrom at h
      split at h
      · split at h
        · cases h
        · rename_i m c hparse
          rcases List.mem_cons.mp h with rfl | h
          · exact parseMessage_owned hparse hcont
          · exact ih c.ptr h
      · cases h
  unfold messages at hmsg
  split at hmsg
  · cases hmsg
  · split at hmsg
    · cases hmsg
    · exact hfrom _ _ hmsg

/-- The consumers on a list of messages, until one does not return OKAY;
`rest` is the result when all do. -/
def consumeAll {σ : Type} (consumer : Consumer σ) (rest : Except Stop Unit) :
    List MessageContext → σ → Except Stop Unit × σ
  | [], s => (rest, s)
  | msg :: msgs, s => afterMessage (consumer msg s) (consumeAll consumer rest msgs)

/-- What every message preserves, a packet preserves. -/
theorem consumeAll_preserves {σ : Type} {consumer : Consumer σ} {R : σ → σ → Prop}
    (hrefl : ∀ s, R s s) (htrans : ∀ s₁ s₂ s₃, R s₁ s₂ → R s₂ s₃ → R s₁ s₃)
    (hstep : ∀ msg s, R s (consumer msg s).2) (rest : Except Stop Unit)
    (msgs : List MessageContext) (s : σ) : R s (consumeAll consumer rest msgs s).2 := by
  induction msgs generalizing s with
  | nil => exact hrefl s
  | cons msg msgs ih =>
    have hmsg := hstep msg s
    unfold consumeAll afterMessage
    split <;> rename_i hrun <;> rw [hrun] at hmsg
    · exact htrans _ _ _ hmsg (ih _)
    · exact hmsg
    · exact hmsg

/-- A packet is handled by its messages; what it holds behind them decides
the result, but nothing else. -/
theorem handlePacket_eq (buf : List UInt8) :
    ∃ rest : Except Stop Unit, ∀ {σ : Type} (consumer : Consumer σ) (s : σ),
      handlePacket consumer buf s = consumeAll consumer rest (messages buf) s := by
  have hfrom : ∀ fuel ptr, ∃ rest : Except Stop Unit, ∀ {σ : Type} (consumer : Consumer σ) (s : σ),
      handleMessages consumer buf fuel ptr s =
        consumeAll consumer rest (messagesFrom buf fuel ptr) s := by
    intro fuel
    induction fuel with
    | zero => exact fun ptr => ⟨.ok (), fun consumer s => rfl⟩
    | succ fuel ih =>
      intro ptr
      unfold messagesFrom
      by_cases hlt : ptr < buf.length
      · rw [if_pos hlt]
        cases hparse : parseMessage buf buf.length { ptr } with
        | error e =>
          refine ⟨.error e, fun consumer s => ?_⟩
          rw [handleMessages_succ, if_pos hlt, hparse]
          rfl
        | ok p =>
          obtain ⟨msg, c⟩ := p
          obtain ⟨rest, hrest⟩ := ih c.ptr
          refine ⟨rest, fun consumer s => ?_⟩
          rw [handleMessages_succ, if_pos hlt, hparse]
          change afterMessage _ _ = afterMessage _ _
          congr 1
          funext s
          exact hrest consumer s
      · rw [if_neg hlt]
        refine ⟨.ok (), fun consumer s => ?_⟩
        rw [handleMessages_succ, if_neg hlt]
        rfl
  unfold messages handlePacket
  by_cases hlen : buf.length > 65535
  · rw [if_pos hlen]
    refine ⟨.error (.result .tooLarge), fun consumer s => ?_⟩
    rw [if_pos hlen]
    rfl
  · rw [if_neg hlen]
    cases hhdr : parsePacketHeader buf { ptr := 0 } with
    | error e =>
      refine ⟨.error e, fun consumer s => ?_⟩
      rw [if_neg hlen]
      rfl
    | ok p =>
      obtain ⟨_, c⟩ := p
      obtain ⟨rest, hrest⟩ := hfrom buf.length c.ptr
      refine ⟨rest, fun consumer s => ?_⟩
      rw [if_neg hlen]
      exact hrest consumer s

end Turpial.Rfc5444
