/-
Turpial.Rfc5444.TlvTheorems — the TLVs of an address block, written and read
back.

§1 is what `_write_addresstlvs` makes of the TLVs of the addresses. Each of
them ends up in exactly one of the runs that are written, at the place of
its address (`blockRuns_entries`), and a run that is written as one value
has that value everywhere (`blockRuns_ok`).

§2 reads one run back (`consumes_parseTlv`), whatever entry the reader
reuses, and §3 a whole TLV block. The block is sorted by type, so the first
TLV of a type that covers an address is the first one the address was given
(`consumerEntryTlv_written`).
-/
import Turpial.Rfc5444.Generator
import Turpial.Rfc5444.CompressionTheorems
import Turpial.Rfc5444.Consumes
import Turpial.Rfc5444.ReaderTheorems

namespace Turpial.Rfc5444

open Turpial.Lib

variable {n : Nat}

/-! ## §1 Runs -/

theorem fullType_inj {t u e f : UInt8} (h : t.toNat * 256 + e.toNat = u.toNat * 256 + f.toNat) :
    t = u ∧ e = f := by
  have he := e.toNat_lt
  have hf := f.toNat_lt
  have ht : t.toNat = u.toNat := by omega
  exact ⟨UInt8.toNat_inj.mp ht, UInt8.toNat_inj.mp (by omega)⟩

/-- One value of a run as a TLV. -/
def TlvRun.tlv (run : TlvRun) (value : List UInt8) : WriterAddrtlv where
  type := run.type
  exttype := run.exttype
  value := value

/-- The TLVs that a run stands for, with the places of their addresses. -/
def TlvRun.entries (run : TlvRun) : List (Nat × WriterAddrtlv) :=
  run.values.mapIdx fun i v => (run.first + i, run.tlv v)

/-- The TLVs of addresses, with the places of the addresses. -/
def addrEntries : (j : Nat) → List (WriterAddress n) → List (Nat × WriterAddrtlv)
  | _, [] => []
  | j, addr :: rest => addr.tlvs.map (j, ·) ++ addrEntries (j + 1) rest

theorem mem_addrEntries {j i : Nat} {addrs : List (WriterAddress n)} {tlv : WriterAddrtlv} :
    (i, tlv) ∈ addrEntries j addrs ↔ j ≤ i ∧ ∃ a, addrs[i - j]? = some a ∧ tlv ∈ a.tlvs := by
  induction addrs generalizing j with
  | nil => simp [addrEntries]
  | cons addr rest ih =>
    unfold addrEntries
    rw [List.mem_append, ih]
    constructor
    · rintro (h | ⟨hle, a, ha, htlv⟩)
      · obtain ⟨t, ht, heq⟩ := List.mem_map.mp h
        obtain ⟨rfl, rfl⟩ := Prod.mk.injEq .. ▸ heq
        exact ⟨Nat.le_refl _, addr, by rw [Nat.sub_self]; rfl, ht⟩
      · refine ⟨by omega, a, ?_, htlv⟩
        rw [show i - j = i - (j + 1) + 1 by omega, List.getElem?_cons_succ]
        exact ha
    · rintro ⟨hle, a, ha, htlv⟩
      by_cases heq : i = j
      · rw [heq, Nat.sub_self] at ha
        cases ha
        exact Or.inl (List.mem_map.mpr ⟨tlv, htlv, by rw [heq]⟩)
      · refine Or.inr ⟨by omega, a, ?_, htlv⟩
        rw [show i - j = i - (j + 1) + 1 by omega, List.getElem?_cons_succ] at ha
        exact ha

theorem addrEntries_cons (j : Nat) (addr : WriterAddress n) (rest : List (WriterAddress n)) :
    addrEntries j (addr :: rest) = addr.tlvs.map (j, ·) ++ addrEntries (j + 1) rest := rfl

theorem addrEntries_append (j : Nat) (xs ys : List (WriterAddress n)) :
    addrEntries j (xs ++ ys) = addrEntries j xs ++ addrEntries (j + xs.length) ys := by
  induction xs generalizing j with
  | nil => rfl
  | cons x xs ih =>
    rw [List.cons_append, addrEntries_cons, addrEntries_cons, ih, List.append_assoc,
      List.length_cons, Nat.add_assoc, Nat.add_comm 1]

/-- The value of the last TLV of a run. -/
def TlvRun.lastValue (run : TlvRun) : List UInt8 := run.more.getLastD run.value

theorem TlvRun.last_mem_entries (run : TlvRun) : (run.last, run.tlv run.lastValue) ∈ run.entries := by
  unfold TlvRun.entries TlvRun.last TlvRun.lastValue TlvRun.values
  refine List.mem_mapIdx.mpr ⟨run.more.length, by simp, ?_⟩
  congr 2
  cases hmore : run.more using List.reverseRecOn with
  | nil => rfl
  | append_singleton xs x => simp

/-- A run that is continued has one TLV more. -/
theorem TlvRun.entries_extend (run : TlvRun) (value : List UInt8) (same : Bool) :
    TlvRun.entries { run with more := run.more ++ [value], sameValue := same } =
      run.entries ++ [(run.last + 1, run.tlv value)] := by
  unfold TlvRun.entries TlvRun.values TlvRun.last TlvRun.tlv
  rw [← List.cons_append, List.mapIdx_append]
  simp [Nat.add_assoc]

theorem WriterAddrtlv.run_entries (tlv : WriterAddrtlv) (j : Nat) :
    (tlv.run j).entries = [(j, tlv)] := rfl

/-- Placing a TLV adds it at its address, and nothing else. -/
theorem placeTlv_entries (j : Nat) (last : Option (WriterAddress n)) (tlv : WriterAddrtlv)
    (active : List TlvRun) :
    (((placeTlv j last tlv active).1 ++ (placeTlv j last tlv active).2).flatMap
      TlvRun.entries).Perm ((j, tlv) :: active.flatMap TlvRun.entries) := by
  induction active with
  | nil => exact List.Perm.refl _
  | cons run active ih =>
    unfold placeTlv
    split
    · rename_i htype
      split
      · -- The run is written, and the TLV starts one of its own.
        rw [List.singleton_append, List.flatMap_cons, List.flatMap_cons, tlv.run_entries,
          List.flatMap_cons, List.singleton_append]
        exact List.perm_middle
      · rename_i hends
        rw [not_or, not_not] at hends
        have hsame : run.tlv tlv.value = tlv := by
          obtain ⟨ht, he⟩ := fullType_inj htype
          unfold TlvRun.tlv
          rw [ht, he]
        rw [List.nil_append, List.flatMap_cons, TlvRun.entries_extend, hends.1, hsame,
          List.append_assoc, List.flatMap_cons, List.singleton_append]
        exact List.perm_middle
    · dsimp only
      rw [List.flatMap_append, List.flatMap_cons, List.flatMap_cons]
      rw [List.flatMap_append] at ih
      refine (List.perm_append_comm_assoc _ _ _).trans ?_
      exact (ih.append_left run.entries).trans List.perm_middle

/-- All runs of the state. -/
def TlvRuns.all (s : TlvRuns) : List TlvRun := s.written ++ s.active

theorem addTlv_entries (j : Nat) (last : Option (WriterAddress n)) (s : TlvRuns)
    (tlv : WriterAddrtlv) :
    ((addTlv j last s tlv).all.flatMap TlvRun.entries).Perm
      (s.all.flatMap TlvRun.entries ++ [(j, tlv)]) := by
  unfold addTlv TlvRuns.all
  dsimp only
  rw [List.append_assoc, List.flatMap_append, @List.flatMap_append _ _ s.written,
    List.append_assoc]
  refine ((placeTlv_entries j last tlv s.active).append_left _).trans ?_
  exact List.Perm.append_left _ (@List.perm_append_comm _ [(j, tlv)] _)

/-- A run that is written as one value has it everywhere, and all values of a
run are of one length. -/
structure TlvRun.Ok (run : TlvRun) : Prop where
  lengths : ∀ v ∈ run.more, v.length = run.value.length
  same : run.sameValue = true → ∀ v ∈ run.more, v = run.value

theorem WriterAddrtlv.run_ok (tlv : WriterAddrtlv) (j : Nat) : (tlv.run j).Ok where
  lengths := by simp [WriterAddrtlv.run]
  same := by simp [WriterAddrtlv.run]

theorem TlvRun.lastValue_mem (run : TlvRun) :
    run.lastValue = run.value ∨ run.lastValue ∈ run.more := by
  unfold TlvRun.lastValue
  cases hmore : run.more using List.reverseRecOn with
  | nil => exact Or.inl rfl
  | append_singleton xs x => simp

/-- Continuing a run with a value of the length of its last one. -/
theorem TlvRun.Ok.extend {run : TlvRun} (h : run.Ok) {value : List UInt8} {same : Bool}
    (hlen : run.lastValue.length = value.length) (hsame : same = true → value = run.lastValue) :
    TlvRun.Ok { run with more := run.more ++ [value], sameValue := run.sameValue && same } where
  lengths := by
    intro v hv
    rcases List.mem_append.mp hv with hv | hv
    · exact h.lengths v hv
    · rw [List.mem_singleton.mp hv, ← hlen]
      rcases run.lastValue_mem with hl | hl
      · rw [hl]
      · exact h.lengths _ hl
  same := by
    intro hs v hv
    obtain ⟨hrun, hs⟩ := Bool.and_eq_true_iff.mp hs
    rcases List.mem_append.mp hv with hv | hv
    · exact h.same hrun v hv
    · rw [List.mem_singleton.mp hv, hsame hs]
      rcases run.lastValue_mem with hl | hl
      · exact hl
      · exact h.same hrun _ hl

/-- The last value of the runs that go on is the one at the address before. -/
def Continues (j : Nat) (last : Option (WriterAddress n)) (tlv : WriterAddrtlv) (run : TlvRun) :
    Prop :=
  run.fullType = tlv.fullType → run.last + 1 = j → sameValue last tlv = true →
    tlv.value = run.lastValue

theorem placeTlv_ok {j : Nat} {last : Option (WriterAddress n)} {tlv : WriterAddrtlv}
    {active : List TlvRun} (h : ∀ run ∈ active, run.Ok ∧ Continues j last tlv run) :
    ∀ run ∈ (placeTlv j last tlv active).1 ++ (placeTlv j last tlv active).2, run.Ok := by
  induction active with
  | nil =>
    intro run hrun
    rw [List.mem_singleton.mp hrun]
    exact tlv.run_ok j
  | cons head active ih =>
    obtain ⟨hhead, hcont⟩ := h head List.mem_cons_self
    have hrest : ∀ run ∈ active, run.Ok ∧ Continues j last tlv run :=
      fun run hrun => h run (List.mem_cons_of_mem head hrun)
    unfold placeTlv
    split
    · rename_i htype
      split
      · intro run hrun
        rcases List.mem_cons.mp hrun with rfl | hrun
        · exact hhead
        · rcases List.mem_cons.mp hrun with rfl | hrun
          · exact tlv.run_ok j
          · exact (hrest run hrun).1
      · rename_i hends
        rw [not_or, not_not, not_not] at hends
        intro run hrun
        rcases List.mem_cons.mp hrun with rfl | hrun
        · exact hhead.extend hends.2 (hcont htype hends.1)
        · exact (hrest run hrun).1
    · intro run hrun
      dsimp only at hrun
      rcases List.mem_append.mp hrun with hrun | hrun
      · exact ih hrest run (List.mem_append_left _ hrun)
      · rcases List.mem_cons.mp hrun with rfl | hrun
        · exact hhead
        · exact ih hrest run (List.mem_append_right _ hrun)

/-- TLVs of one address with one full type are the same. -/
theorem TlvsSorted.eq {tlvs : List WriterAddrtlv} (h : TlvsSorted tlvs) {t u : WriterAddrtlv}
    (ht : t ∈ tlvs) (hu : u ∈ tlvs) (htype : t.fullType = u.fullType) : t = u := by
  induction tlvs with
  | nil => cases ht
  | cons head tlvs ih =>
    obtain ⟨hhead, hrest⟩ := List.pairwise_cons.mp h
    rcases List.mem_cons.mp ht with rfl | ht' <;> rcases List.mem_cons.mp hu with rfl | hu'
    · rfl
    · exact absurd htype (Nat.ne_of_lt (hhead u hu'))
    · exact absurd htype.symm (Nat.ne_of_lt (hhead t ht'))
    · exact ih hrest ht' hu'

/-- The runs behind the addresses `done` and some TLVs of the next one. -/
structure RunsOk (done : List (WriterAddress n)) (part : List WriterAddrtlv) (s : TlvRuns) :
    Prop where
  entries : (s.all.flatMap TlvRun.entries).Perm
    (addrEntries 0 done ++ part.map (done.length, ·))
  ok : ∀ run ∈ s.all, run.Ok

/-- A run that ends at the address before carries one of its TLVs. -/
theorem RunsOk.continues {done : List (WriterAddress n)} {part : List WriterAddrtlv} {s : TlvRuns}
    (h : RunsOk done part s) (tlv : WriterAddrtlv) {run : TlvRun} (hrun : run ∈ s.all) :
    Continues done.length done.getLast? tlv run := by
  intro htype hlast hsame
  unfold sameValue lastTlv at hsame
  cases hl : done.getLast? with
  | none =>
    rw [hl] at hsame
    cases hsame
  | some l =>
    rw [hl, Option.bind_some] at hsame
    obtain ⟨t, ht, hval⟩ := (Option.any_eq_true _ _).mp hsame
    have hmem : (run.last, run.tlv run.lastValue) ∈ s.all.flatMap TlvRun.entries :=
      List.mem_flatMap.mpr ⟨run, hrun, run.last_mem_entries⟩
    rcases List.mem_append.mp (h.entries.subset hmem) with hdone | hpart
    · obtain ⟨-, a, ha, htlv⟩ := mem_addrEntries.mp hdone
      have hal : a = l := by
        rw [List.getLast?_eq_getElem?, ← hlast, Nat.add_sub_cancel] at hl
        rw [Nat.sub_zero, hl] at ha
        exact (Option.some.inj ha).symm
      rw [hal] at htlv
      have htt : t.fullType = (run.tlv run.lastValue).fullType := by
        have := List.find?_some ht
        rw [beq_iff_eq] at this
        exact this.trans htype.symm
      have heq := l.sorted.eq (List.mem_of_find?_eq_some ht) htlv htt
      rw [beq_iff_eq] at hval
      rw [← hval, heq]
      rfl
    · obtain ⟨t', -, heq⟩ := List.mem_map.mp hpart
      have hidx : done.length = run.last := congrArg Prod.fst heq
      omega

theorem RunsOk.addTlv {done : List (WriterAddress n)} {part : List WriterAddrtlv} {s : TlvRuns}
    (h : RunsOk done part s) (tlv : WriterAddrtlv) :
    RunsOk done (part ++ [tlv]) (addTlv done.length done.getLast? s tlv) where
  entries := by
    refine (addTlv_entries done.length done.getLast? s tlv).trans ?_
    rw [List.map_append, ← List.append_assoc]
    exact h.entries.append_right _
  ok := by
    intro run hrun
    unfold TlvRuns.all Rfc5444.addTlv at hrun
    dsimp only at hrun
    rw [List.append_assoc] at hrun
    rcases List.mem_append.mp hrun with hrun | hrun
    · exact h.ok run (List.mem_append_left _ hrun)
    · refine placeTlv_ok (fun run hrun => ?_) run hrun
      exact ⟨h.ok run (List.mem_append_right _ hrun),
        h.continues tlv (List.mem_append_right _ hrun)⟩

/-- All TLVs of one address. -/
theorem RunsOk.addAddress {done : List (WriterAddress n)} {s : TlvRuns} (h : RunsOk done [] s)
    (addr : WriterAddress n) :
    RunsOk (done ++ [addr]) []
      (addr.tlvs.foldl (Rfc5444.addTlv done.length done.getLast?) s) := by
  have hfold : ∀ (tlvs part : List WriterAddrtlv) (s : TlvRuns), RunsOk done part s →
      RunsOk done (part ++ tlvs) (tlvs.foldl (Rfc5444.addTlv done.length done.getLast?) s) := by
    intro tlvs
    induction tlvs with
    | nil =>
      intro part s hs
      rw [List.append_nil]
      exact hs
    | cons tlv tlvs ih =>
      intro part s hs
      have hrest := ih (part ++ [tlv]) _ (hs.addTlv tlv)
      rw [List.append_assoc, List.singleton_append] at hrest
      exact hrest
  obtain ⟨hentries, hok⟩ := hfold addr.tlvs [] s h
  refine ⟨?_, hok⟩
  rw [addrEntries_append, Nat.zero_add, addrEntries_cons, List.append_assoc]
  exact hentries.trans (by rw [List.nil_append]; simp [addrEntries])

theorem collectTlvs_ok {done rest : List (WriterAddress n)} {s : TlvRuns} (h : RunsOk done [] s) :
    RunsOk (done ++ rest) [] (collectTlvs done.length done.getLast? s rest) := by
  induction rest generalizing done s with
  | nil =>
    rw [List.append_nil]
    exact h
  | cons addr rest ih =>
    have hrest := ih (h.addAddress addr)
    rw [List.append_assoc, List.singleton_append, List.length_append, List.length_singleton,
      getLast?_snoc] at hrest
    exact hrest

theorem blockRuns_runsOk (addrs : List (WriterAddress n)) :
    RunsOk addrs [] (collectTlvs 0 none {} addrs) :=
  @collectTlvs_ok _ [] addrs {} ⟨List.Perm.refl _, fun run hrun => by cases hrun⟩

/-- **The runs of a block carry the TLVs of its addresses**, each once and
at its address. -/
theorem blockRuns_entries (addrs : List (WriterAddress n)) :
    ((blockRuns addrs).flatMap TlvRun.entries).Perm (addrEntries 0 addrs) := by
  have h := (blockRuns_runsOk addrs).entries
  rw [List.map_nil, List.append_nil] at h
  exact h

theorem blockRuns_ok (addrs : List (WriterAddress n)) : ∀ run ∈ blockRuns addrs, run.Ok :=
  (blockRuns_runsOk addrs).ok

/-! ## §2 Reading a TLV -/

variable {buf : List UInt8} {eob start stop : Nat}

theorem ofNat_toNat_lt {v : Nat} (h : v < 256) : (UInt8.ofNat v).toNat = v := by
  rw [UInt8.toNat_ofNat']
  exact Nat.mod_eq_of_lt h

/-- A 16-bit number is read as it was written. -/
theorem consumes_getU16 {v : Nat} (h : v < 65536) :
    Consumes buf eob (getU16 buf eob) start (bytesOfU16BE v) (· = v) := by
  have hv : (UInt8.ofNat (v / 256)).toNat * 256 + (UInt8.ofNat v).toNat = v := by
    rw [ofNat_toNat_lt (by omega), UInt8.toNat_ofNat']
    omega
  refine Consumes.byte fun high hhigh => ?_
  refine (consumes_getU8 (UInt8.ofNat v)).bind_pure fun low hlow => consumes_pure ?_
  rw [hhigh, hlow]
  exact hv

/-- The flags of a TLV say what was written: every field has bits of its own. -/
theorem flags_fields : ∀ e ∈ [(0 : UInt8), 0x80], ∀ i ∈ [(0 : UInt8), 0x40, 0x20],
    ∀ m ∈ [(0 : UInt8), 0x04], ∀ l ∈ [(0 : UInt8), 0x10, 0x18],
      (e ||| i ||| m ||| l) &&& 0x80 = e ∧ (e ||| i ||| m ||| l) &&& 0x60 = i ∧
        (e ||| i ||| m ||| l) &&& 0x04 = m ∧ (e ||| i ||| m ||| l) &&& 0x18 = l := by
  decide +kernel

theorem TlvRun.flags_fields (run : TlvRun) (stop : Nat) :
    run.flags stop &&& 0x80 = run.extField.1 ∧ run.flags stop &&& 0x60 = (run.indexFields stop).1 ∧
      run.flags stop &&& 0x04 = run.multiFlag ∧
        run.flags stop &&& 0x18 = (lengthField run.totalLen).1 := by
  apply Rfc5444.flags_fields
  · unfold TlvRun.extField
    split <;> simp
  · unfold TlvRun.indexFields
    split
    · simp
    · split <;> simp
  · unfold TlvRun.multiFlag
    split <;> simp
  · unfold lengthField
    split
    · simp
    · split <;> simp

/-- The index fields are read as the range of the run. -/
theorem consumes_parseTlvIndex {run : TlvRun} {flags : UInt8}
    (hflags : flags &&& 0x60 = (run.indexFields stop).1) :
    Consumes buf eob (parseTlvIndex buf eob flags (UInt8.ofNat (stop + 1))) start
      (run.indexFields stop).2 (· = (UInt8.ofNat run.first, UInt8.ofNat run.last)) := by
  unfold parseTlvIndex
  dsimp only
  rw [hflags]
  unfold TlvRun.indexFields
  split
  · rename_i hall
    refine consumes_pure ?_
    rw [hall.1, hall.2]
    congr 1
    rw [UInt8.ofNat_add]
    exact UInt8.add_sub_cancel _ _
  · split
    · rename_i hsingle
      refine (consumes_getU8 _).bind_pure fun index hindex => consumes_pure ?_
      rw [hindex, ← hsingle]
    · refine Consumes.byte fun index1 hindex1 => ?_
      refine (consumes_getU8 _).bind_pure fun index2 hindex2 => consumes_pure ?_
      rw [hindex1, hindex2]

/-- The length field is read as the length. -/
theorem consumes_parseTlvLength {length : Nat} {flags : UInt8} (h : length < 65536)
    (hflags : flags &&& 0x18 = (lengthField length).1) :
    Consumes buf eob (parseTlvLength buf eob flags) start (lengthField length).2 (· = length) := by
  unfold parseTlvLength
  dsimp only
  rw [hflags]
  unfold lengthField
  split
  · exact consumes_getU16 h
  · split
    · refine (consumes_getU8 _).bind_pure fun v hv => consumes_pure ?_
      rw [hv]
      exact ofNat_toNat_lt (by omega)
    · exact consumes_pure (by omega)

/-- An entry of the reader that holds a run. A run with one value has it at
`singleValue`; otherwise the values follow each other from `value` on. -/
structure TlvEntry.OfRun (buf : List UInt8) (run : TlvRun) (tlv : TlvEntry) : Prop where
  type : tlv.type = run.type
  typeExt : tlv.typeExt = run.exttype
  index1 : tlv.index1 = UInt8.ofNat run.first
  index2 : tlv.index2 = UInt8.ofNat run.last
  length : tlv.length = run.value.length
  single : tlv.multivalue = false → run.value ≠ [] → (∀ v ∈ run.more, v = run.value) ∧
    ∃ p, tlv.singleValue = some ⟨p, byteAt buf p⟩ ∧ HasAt buf p run.value
  multi : tlv.multivalue = true → run.value ≠ [] →
    ∃ p, tlv.value = some p ∧ HasAt buf p run.values.flatten

theorem TlvRun.Ok.length_flatten {run : TlvRun} (h : run.Ok) :
    run.values.flatten.length = run.value.length * (run.more.length + 1) := by
  have hall : ∀ vs : List (List UInt8), (∀ v ∈ vs, v.length = run.value.length) →
      vs.flatten.length = run.value.length * vs.length := by
    intro vs
    induction vs with
    | nil => exact fun _ => by simp
    | cons v vs ih =>
      intro hvs
      rw [List.flatten_cons, List.length_append, hvs v List.mem_cons_self,
        ih fun w hw => hvs w (List.mem_cons_of_mem v hw), List.length_cons, Nat.mul_succ, Nat.add_comm]
  refine hall run.values fun v hv => ?_
  rcases List.mem_cons.mp hv with rfl | hv
  · rfl
  · exact h.lengths v hv

theorem TlvRun.length_eq (run : TlvRun) : run.last - run.first + 1 = run.more.length + 1 := by
  unfold TlvRun.last
  omega

/-- The length field holds the number of value bytes, as long as 16 bits do. -/
theorem TlvRun.Ok.totalLen {run : TlvRun} (h : run.Ok) (hlt : run.valueBytes.length < 65536) :
    run.totalLen = run.valueBytes.length := by
  unfold TlvRun.totalLen
  unfold TlvRun.valueBytes at hlt ⊢
  rw [run.length_eq]
  by_cases hpos : run.value.length > 0
  · rw [if_pos hpos] at hlt ⊢
    split
    · rfl
    · rename_i hsame
      rw [if_neg hsame, h.length_flatten] at hlt
      rw [h.length_flatten]
      exact Nat.mod_eq_of_lt hlt
  · have hzero : run.value.length = 0 := by omega
    rw [if_neg hpos]
    split
    · exact hzero
    · rw [hzero, Nat.zero_mul]
      rfl

theorem TlvRun.valueBytes_eq_nil {run : TlvRun} (h : run.valueBytes.length = 0) : run.value = [] := by
  unfold TlvRun.valueBytes at h
  by_contra hne
  have hpos := List.length_pos_iff.mpr hne
  rw [if_pos hpos] at h
  split at h
  · omega
  · unfold TlvRun.values at h
    rw [List.flatten_cons, List.length_append] at h
    omega

/-- The number of values, as `_parse_tlv` counts them. -/
theorem TlvRun.count_toNat {run : TlvRun} (h : run.last < 255) :
    (UInt8.ofNat run.last - UInt8.ofNat run.first + 1).toNat = run.more.length + 1 := by
  have hsub : UInt8.ofNat run.last - UInt8.ofNat run.first = UInt8.ofNat run.more.length := by
    unfold TlvRun.last
    rw [UInt8.ofNat_add, UInt8.add_comm]
    exact UInt8.add_sub_cancel _ _
  unfold TlvRun.last at h
  rw [hsub, UInt8.toNat_add, ofNat_toNat_lt (by omega)]
  exact Nat.mod_eq_of_lt (by simp; omega)

/-- The value of a TLV is read from its value bytes. -/
theorem consumes_parseTlvValue {run : TlvRun} {entry : TlvEntry} (h : run.Ok)
    (hlast : run.last < 255) (hi1 : entry.index1 = UInt8.ofNat run.first)
    (hi2 : entry.index2 = UInt8.ofNat run.last) (hlen : entry.length = run.valueBytes.length)
    (hmulti : entry.multivalue = !run.sameValue) (htype : entry.type = run.type)
    (hext : entry.typeExt = run.exttype) :
    Consumes buf eob (parseTlvValue buf entry) start run.valueBytes (TlvEntry.OfRun buf run) := by
  refine consumes_of_hasAt fun hat _ => ?_
  unfold parseTlvValue
  split
  · rename_i hzero
    have hnil := TlvRun.valueBytes_eq_nil (hlen.symm.trans hzero)
    have hbytes : run.valueBytes = [] := List.eq_nil_of_length_eq_zero (hlen.symm.trans hzero)
    rw [hbytes]
    refine consumes_pure ⟨htype, hext, hi1, hi2, ?_, ?_, ?_⟩
    · rw [hnil]
      exact hzero
    · exact fun _ hne => absurd hnil hne
    · exact fun _ hne => absurd hnil hne
  · rename_i hpos
    have hvalue : run.value.length > 0 := by
      refine Nat.pos_of_ne_zero fun h0 => hpos ?_
      unfold TlvRun.valueBytes at hlen
      rw [hlen, if_neg (by omega)]
      rfl
    have hcount : (entry.index2 - entry.index1 + 1).toNat = run.more.length + 1 := by
      rw [hi1, hi2]
      exact TlvRun.count_toNat hlast
    have hone : entry.index2 - entry.index1 + 1 = 1 ↔ run.more = [] := by
      rw [← UInt8.toNat_inj, hcount, ← List.length_eq_zero_iff]
      simp
    unfold TlvRun.valueBytes at hat hlen ⊢
    rw [if_pos hvalue] at hat hlen ⊢
    refine consumes_position.bind_nil fun p hp => ?_
    subst hp
    refine Consumes.bind_pure (consumes_advance hlen.symm) fun _ _ => ?_
    dsimp only
    by_cases hsingle : entry.multivalue = false ∨ entry.index2 - entry.index1 + 1 = 1
    · rw [if_pos hsingle]
      -- One value: the bytes are those of the first TLV.
      have hall : (∀ v ∈ run.more, v = run.value) ∧
          (if run.sameValue = true then run.value else run.values.flatten) = run.value := by
        rcases hsingle with hfalse | hcnt
        · rw [hmulti, Bool.not_eq_false'] at hfalse
          exact ⟨h.same hfalse, if_pos hfalse⟩
        · have hnil := hone.mp hcnt
          refine ⟨by rw [hnil]; simp, ?_⟩
          unfold TlvRun.values
          rw [hnil]
          simp
      rw [hall.2] at hat hlen
      exact consumes_pure ⟨htype, hext, hi1, hi2, hlen, fun _ _ => ⟨hall.1, p, rfl, hat⟩,
        fun hm => by cases hm⟩
    · rw [if_neg hsingle]
      rw [not_or, Bool.not_eq_false] at hsingle
      have hsame : ¬ run.sameValue = true := by
        intro hs
        rw [hmulti, hs] at hsingle
        cases hsingle.1
      rw [if_neg hsame] at hat hlen
      rw [h.length_flatten] at hlen
      have hne : ¬ (entry.index2 - entry.index1 + 1 = 0) := by
        rw [← UInt8.toNat_inj, hcount]
        exact Nat.succ_ne_zero _
      refine (consumes_stopIf _ hne).bind_nil fun _ _ => ?_
      refine (consumes_stopIf _ ?_).bind_nil fun _ _ => consumes_pure ?_
      · rw [hcount, hlen, Nat.mul_mod_left]
        simp
      · refine ⟨htype, hext, hi1, hi2, ?_, fun hm => ?_, fun _ _ => ⟨p, rfl, hat⟩⟩
        · rw [hcount, hlen, Nat.mul_div_cancel _ (Nat.succ_pos _)]
        · rw [show entry.multivalue = false from hm] at hsingle
          cases hsingle.1

/-- **A run is read back as it was written**, whatever entry is reused. -/
theorem consumes_parseTlv {run : TlvRun} (entry : TlvEntry) (h : run.Ok) (hlast : run.last ≤ stop)
    (hstop : stop < 255) (hlen : run.valueBytes.length < 65536) :
    Consumes buf eob (parseTlv buf eob (UInt8.ofNat (stop + 1)) entry) start
      (writeAddresstlv stop run) (TlvEntry.OfRun buf run) := by
  obtain ⟨hfe, hfi, hfm, hfl⟩ := run.flags_fields stop
  have htotal := h.totalLen hlen
  refine consumes_of_hasAt fun _ hle => ?_
  unfold writeAddresstlv at hle
  simp only [List.length_cons, List.length_append] at hle
  unfold parseTlv
  refine Consumes.byte fun type htype => ?_
  refine Consumes.byte fun flags hflags => ?_
  subst htype hflags
  refine Consumes.bind (Q := (· = run.exttype)) (consumes_getU8If ?_) fun ext hext => ?_
  · rw [hfe]
    unfold TlvRun.extField
    split
    · exact Or.inl ⟨rfl, rfl⟩
    · rename_i hzero
      exact Or.inr ⟨rfl, rfl, not_not.mp hzero⟩
  refine Consumes.bind (consumes_parseTlvIndex hfi) fun index hindex => ?_
  subst hext hindex
  refine (consumes_stopIf _ ?_).bind_nil fun _ _ => ?_
  · have hfirst : run.first ≤ run.last := Nat.le_add_right _ _
    rintro ⟨-, hge | hge⟩
    · have := UInt8.le_iff_toNat_le.mp hge
      rw [ofNat_toNat_lt (by omega), ofNat_toNat_lt (by omega)] at this
      omega
    · have := UInt8.le_iff_toNat_le.mp hge
      rw [ofNat_toNat_lt (by omega), ofNat_toNat_lt (by omega)] at this
      omega
  refine Consumes.bind (consumes_parseTlvLength (by omega) hfl) fun length hlength => ?_
  refine consumes_position.bind_nil fun p hp => ?_
  subst hlength hp
  refine (consumes_stopIf _ ?_).bind_nil fun _ _ => ?_
  · simp only [List.length_singleton]
    omega
  refine consumes_checkResult.bind_nil fun _ _ => ?_
  refine consumes_parseTlvValue h (by omega) rfl rfl htotal ?_ rfl rfl
  rw [hfm]
  unfold TlvRun.multiFlag
  cases run.sameValue <;> rfl

/-! ## §3 TLV blocks -/

/-- A TLV block is in the order of its types. -/
def BlockSorted (block : List TlvEntry) : Prop := block.Pairwise fun e f => e.order ≤ f.order

theorem BlockSorted.avlInsert {block : List TlvEntry} (h : BlockSorted block) (new : TlvEntry) :
    BlockSorted (avlInsert new block) := by
  induction block with
  | nil => exact List.pairwise_singleton _ _
  | cons e block ih =>
    obtain ⟨hhead, hrest⟩ := List.pairwise_cons.mp h
    unfold Rfc5444.avlInsert
    split
    · rename_i hlt
      refine List.pairwise_cons.mpr ⟨fun f hf => ?_, h⟩
      rcases List.mem_cons.mp hf with rfl | hf
      · exact Nat.le_of_lt hlt
      · exact Nat.le_trans (Nat.le_of_lt hlt) (hhead f hf)
    · split
      · rename_i heq
        refine List.pairwise_cons.mpr ⟨fun f hf => ?_, List.pairwise_cons.mpr ⟨fun f hf => ?_, hrest⟩⟩
        · rcases List.mem_cons.mp hf with rfl | hf
          · exact Nat.le_of_eq heq.symm
          · exact hhead f hf
        · rw [heq]
          exact hhead f hf
      · refine List.pairwise_cons.mpr ⟨fun f hf => ?_, ih hrest⟩
        rcases mem_avlInsert.mp hf with rfl | hf
        · omega
        · exact hhead f hf

/-- The reader's TLV block holds these runs and nothing else, sorted. -/
structure TlvblockOf (buf : List UInt8) (runs : List TlvRun) (block : List TlvEntry) : Prop where
  sorted : BlockSorted block
  sound : ∀ tlv ∈ block, ∃ run ∈ runs, tlv.OfRun buf run
  complete : ∀ run ∈ runs, ∃ tlv ∈ block, tlv.OfRun buf run

theorem TlvblockOf.insert {runs : List TlvRun} {block : List TlvEntry} (h : TlvblockOf buf runs block)
    {run : TlvRun} {new : TlvEntry} (hnew : new.OfRun buf run) :
    TlvblockOf buf (runs ++ [run]) (avlInsert new block) where
  sorted := h.sorted.avlInsert new
  sound := by
    intro tlv htlv
    rcases mem_avlInsert.mp htlv with rfl | htlv
    · exact ⟨run, by simp, hnew⟩
    · obtain ⟨run', hrun', hof⟩ := h.sound tlv htlv
      exact ⟨run', List.mem_append_left _ hrun', hof⟩
  complete := by
    intro run' hrun'
    rcases List.mem_append.mp hrun' with hrun' | hrun'
    · obtain ⟨tlv, htlv, hof⟩ := h.complete run' hrun'
      exact ⟨tlv, mem_avlInsert.mpr (Or.inr htlv), hof⟩
    · rw [List.mem_singleton.mp hrun']
      exact ⟨new, mem_avlInsert.mpr (Or.inl rfl), hnew⟩

theorem length_le_flatMap {ι α : Type} {items : List ι} {enc : ι → List α}
    (h : ∀ item ∈ items, enc item ≠ []) : items.length ≤ (items.flatMap enc).length := by
  induction items with
  | nil => exact Nat.le_refl _
  | cons item items ih =>
    have hpos := List.length_pos_iff.mpr (h item List.mem_cons_self)
    have hrest := ih fun i hi => h i (List.mem_cons_of_mem item hi)
    rw [List.flatMap_cons, List.length_append, List.length_cons]
    omega

theorem length_le_of_mem_flatMap {ι α : Type} {items : List ι} (enc : ι → List α) {item : ι}
    (h : item ∈ items) : (enc item).length ≤ (items.flatMap enc).length := by
  obtain ⟨before, after, rfl⟩ := List.append_of_mem h
  rw [List.flatMap_append, List.flatMap_cons, List.length_append, List.length_append]
  omega

theorem TlvRun.valueBytes_le (run : TlvRun) (stop : Nat) :
    run.valueBytes.length ≤ (writeAddresstlv stop run).length := by
  unfold writeAddresstlv
  simp only [List.length_cons, List.length_append]
  omega

/-- A run of a block ends within the block. -/
theorem blockRuns_last_lt {addrs : List (WriterAddress n)} {run : TlvRun}
    (h : run ∈ blockRuns addrs) : run.last < addrs.length := by
  have hmem := (blockRuns_entries addrs).subset
    (List.mem_flatMap.mpr ⟨run, h, run.last_mem_entries⟩)
  obtain ⟨-, a, ha, -⟩ := mem_addrEntries.mp hmem
  exact (List.getElem?_eq_some_iff.mp ha).1

/-- **A TLV block is read back** as the runs that were written. -/
theorem consumes_parseTlvblock {addrs : List (WriterAddress n)} (hlen : addrs.length ≤ 255)
    (hsize : (writeAddresstlvs addrs).length < 65536) :
    Consumes buf eob (parseTlvblock buf eob (UInt8.ofNat addrs.length)) start
      (bytesOfU16BE (writeAddresstlvs addrs).length ++ writeAddresstlvs addrs)
      (TlvblockOf buf (blockRuns addrs)) := by
  refine consumes_of_hasAt fun _ hle => ?_
  rw [List.length_append, show (bytesOfU16BE (writeAddresstlvs addrs).length).length = 2 from rfl,
    ← Nat.add_assoc] at hle
  have hne : ∀ run ∈ blockRuns addrs, writeAddresstlv (addrs.length - 1) run ≠ [] :=
    fun run _ => List.cons_ne_nil _ _
  unfold parseTlvblock
  refine consumes_position.bind_nil fun p hp => ?_
  refine Consumes.bind (consumes_getU16 hsize) fun length hlength => ?_
  subst hp hlength
  refine (consumes_stopIf _ (Nat.not_lt.mpr hle)).bind_nil fun _ _ => ?_
  have hloop := @consumes_loop _ _ buf eob (p + 2)
    (parseTlvInto buf eob (UInt8.ofNat addrs.length)) (blockRuns addrs)
    (writeAddresstlv (addrs.length - 1)) (fun runs s => TlvblockOf buf runs s.2) [] ({}, [])
    (writeAddresstlvs addrs).length ?_ hne ⟨List.Pairwise.nil, by simp, by simp⟩ (length_le_flatMap hne)
  · exact hloop.bind_pure fun s hs => consumes_pure hs
  · intro done run start s hrun hs
    have hlast := blockRuns_last_lt hrun
    have hbytes := Nat.le_trans (run.valueBytes_le (addrs.length - 1))
      (length_le_of_mem_flatMap (writeAddresstlv (addrs.length - 1)) hrun)
    have hparse := @consumes_parseTlv buf eob start (addrs.length - 1) run s.1
      (blockRuns_ok addrs run hrun) (by omega) (by omega) (Nat.lt_of_le_of_lt hbytes hsize)
    rw [Nat.sub_add_cancel (by omega)] at hparse
    exact hparse.bind_pure fun e he => consumes_pure (hs.insert he)

/-! ## §4 What an address gets -/

/-- An entry holds a TLV: its type, and its value at `singleValue`. -/
structure TlvEntry.Holds (buf : List UInt8) (tlv : TlvEntry) (written : WriterAddrtlv) : Prop where
  type : tlv.type = written.type
  typeExt : tlv.typeExt = written.exttype
  length : tlv.length = written.value.length
  value : written.value ≠ [] →
    ∃ p, tlv.singleValue = some ⟨p, byteAt buf p⟩ ∧ HasAt buf p written.value

/-- A consumer entry holds the TLV that was written, if there is one. -/
def EntryHolds (buf : List UInt8) : Option TlvEntry → Option WriterAddrtlv → Prop
  | none, none => True
  | some tlv, some written => tlv.Holds buf written
  | _, _ => False

/-- In a sorted list the first element with a property is the smallest. -/
theorem find?_least {α : Type} {R : α → α → Prop} {xs : List α} {p : α → Bool} {x y : α}
    (hxs : xs.Pairwise R) (hx : xs.find? p = some x) (hy : y ∈ xs) (hp : p y = true) :
    x = y ∨ R x y := by
  induction xs with
  | nil => cases hy
  | cons z xs ih =>
    obtain ⟨hz, hrest⟩ := List.pairwise_cons.mp hxs
    rw [List.find?_cons] at hx
    split at hx
    · cases hx
      rcases List.mem_cons.mp hy with rfl | hy
      · exact Or.inl rfl
      · exact Or.inr (hz y hy)
    · rename_i hpz
      rcases List.mem_cons.mp hy with rfl | hy
      · rw [hp] at hpz
        cases hpz
      · exact ih hrest hx hy

theorem TlvEntry.OfRun.order {tlv : TlvEntry} {run : TlvRun} (h : tlv.OfRun buf run) :
    tlv.order = run.fullType := by
  unfold TlvEntry.order TlvRun.fullType
  rw [h.type, h.typeExt]

/-- The entry of a run covers the addresses of the run. -/
theorem TlvEntry.OfRun.covers_iff {tlv : TlvEntry} {run : TlvRun} (h : tlv.OfRun buf run) {j : Nat}
    (hlast : run.last < 256) (hj : j < 256) :
    (tlv.index1 ≤ UInt8.ofNat j ∧ UInt8.ofNat j ≤ tlv.index2) ↔ run.first ≤ j ∧ j ≤ run.last := by
  have hfirst : run.first ≤ run.last := Nat.le_add_right _ _
  rw [h.index1, h.index2, UInt8.le_iff_toNat_le, UInt8.le_iff_toNat_le, ofNat_toNat_lt (by omega),
    ofNat_toNat_lt hj, ofNat_toNat_lt hlast]

theorem TlvRun.mem_entries_iff {run : TlvRun} {j : Nat} {tlv : WriterAddrtlv} :
    (j, tlv) ∈ run.entries ↔
      ∃ i v, run.values[i]? = some v ∧ j = run.first + i ∧ tlv = run.tlv v := by
  unfold TlvRun.entries
  constructor
  · intro h
    obtain ⟨i, hi, heq⟩ := List.mem_mapIdx.mp h
    obtain ⟨rfl, rfl⟩ := Prod.mk.injEq .. ▸ heq
    exact ⟨i, run.values[i], List.getElem?_eq_getElem hi, rfl, rfl⟩
  · rintro ⟨i, v, hv, rfl, rfl⟩
    obtain ⟨hi, rfl⟩ := List.getElem?_eq_some_iff.mp hv
    exact List.mem_mapIdx.mpr ⟨i, hi, rfl⟩

/-- A run covers the address of each of its TLVs. -/
theorem TlvRun.covers_of_mem {run : TlvRun} {j : Nat} {tlv : WriterAddrtlv}
    (h : (j, tlv) ∈ run.entries) : run.first ≤ j ∧ j ≤ run.last := by
  obtain ⟨i, v, hv, rfl, -⟩ := TlvRun.mem_entries_iff.mp h
  have hi := (List.getElem?_eq_some_iff.mp hv).1
  unfold TlvRun.values at hi
  rw [List.length_cons] at hi
  unfold TlvRun.last
  omega

/-- At an address that it covers, the entry of a run holds the value that
the run has there. -/
theorem TlvEntry.OfRun.holds {tlv : TlvEntry} {run : TlvRun} (h : tlv.OfRun buf run) (hok : run.Ok)
    {i : Nat} {v : List UInt8} (hv : run.values[i]? = some v) (hlast : run.last < 256) :
    (if tlv.multivalue then
      { tlv with singleValue := tlv.value.map fun start =>
          ⟨start + tlv.valueOffset (UInt8.ofNat (run.first + i)),
            byteAt buf (start + tlv.valueOffset (UInt8.ofNat (run.first + i)))⟩ }
    else tlv).Holds buf (run.tlv v) := by
  have hmem : v ∈ run.values := List.mem_of_getElem? hv
  have hlen : ∀ w ∈ run.values, w.length = run.value.length := by
    intro w hw
    rcases List.mem_cons.mp hw with rfl | hw
    · rfl
    · exact hok.lengths w hw
  have hne : v ≠ [] → run.value ≠ [] := by
    intro hv0 hnil
    have := hlen v hmem
    rw [hnil] at this
    exact hv0 (List.eq_nil_of_length_eq_zero this)
  cases hm : tlv.multivalue with
  | false =>
    refine ⟨h.type, h.typeExt, by rw [if_neg (by simp)]; exact h.length.trans (hlen v hmem).symm,
      fun hv0 => ?_⟩
    obtain ⟨hall, p, hp, hat⟩ := h.single hm (hne hv0)
    have hval : v = run.value := by
      rcases List.mem_cons.mp hmem with rfl | hmem
      · rfl
      · exact hall v hmem
    rw [if_neg (by simp)]
    exact ⟨p, hp, by rw [show (run.tlv v).value = run.value from hval]; exact hat⟩
  | true =>
    rw [if_pos rfl]
    refine ⟨h.type, h.typeExt, h.length.trans (hlen v hmem).symm, fun hv0 => ?_⟩
    obtain ⟨p, hp, hat⟩ := h.multi hm (hne hv0)
    have hi : i ≤ run.more.length := by
      have := (List.getElem?_eq_some_iff.mp hv).1
      unfold TlvRun.values at this
      rw [List.length_cons] at this
      omega
    have hoff : tlv.valueOffset (UInt8.ofNat (run.first + i)) = run.value.length * i := by
      unfold TlvRun.last at hlast
      have hsub : UInt8.ofNat (run.first + i) - UInt8.ofNat run.first = UInt8.ofNat i := by
        rw [UInt8.ofNat_add, UInt8.add_comm]
        exact UInt8.add_sub_cancel _ _
      unfold TlvEntry.valueOffset
      rw [if_pos hm, h.index1, h.length, hsub, ofNat_toNat_lt (by omega), Nat.mul_comm]
    refine ⟨p + run.value.length * i, ?_, ?_⟩
    · simp only [hp, Option.map_some, hoff]
    · have hflat : run.values.flatten = run.values.flatMap id := by simp
      rw [hflat] at hat
      exact hat.flatMap hlen hv

/-- **Every address gets its own TLVs back.** The consumer entry of a type
holds the first TLV of that type that the address was given. -/
theorem consumerEntryTlv_written {addrs : List (WriterAddress n)} {block : List TlvEntry}
    (h : TlvblockOf buf (blockRuns addrs) block) (hlen : addrs.length ≤ 255) {j : Nat}
    {a : WriterAddress n} (hj : addrs[j]? = some a) (type : UInt8) :
    EntryHolds buf (consumerEntryTlv buf block (UInt8.ofNat j) type)
      (a.tlvs.find? fun t => t.type == type) := by
  have hjlt := (List.getElem?_eq_some_iff.mp hj).1
  have hlast : ∀ run ∈ blockRuns addrs, run.last < 256 := by
    intro run hrun
    have := blockRuns_last_lt hrun
    omega
  have hperm := blockRuns_entries addrs
  -- Every TLV of the address has an entry that covers the address.
  have hcovered : ∀ t ∈ a.tlvs, t.type = type → ∃ tlv ∈ block,
      (tlv.type == type && decide (tlv.index1 ≤ UInt8.ofNat j ∧ UInt8.ofNat j ≤ tlv.index2)) = true ∧
        tlv.order = t.fullType := by
    intro t ht htype
    have hmem := hperm.mem_iff.mpr (mem_addrEntries.mpr ⟨Nat.zero_le j, a, hj, ht⟩)
    obtain ⟨run, hrun, hentry⟩ := List.mem_flatMap.mp hmem
    obtain ⟨tlv, htlv, hof⟩ := h.complete run hrun
    obtain ⟨i, v, -, -, rfl⟩ := TlvRun.mem_entries_iff.mp hentry
    refine ⟨tlv, htlv, ?_, hof.order⟩
    rw [Bool.and_eq_true, beq_iff_eq, decide_eq_true_eq]
    exact ⟨hof.type.trans htype,
      (hof.covers_iff (hlast run hrun) (by omega)).mpr (TlvRun.covers_of_mem hentry)⟩
  unfold consumerEntryTlv
  cases hfind : block.find? fun tlv => tlv.type == type &&
      decide (tlv.index1 ≤ UInt8.ofNat j ∧ UInt8.ofNat j ≤ tlv.index2) with
  | none =>
    cases htlvs : a.tlvs.find? fun t => t.type == type with
    | none => trivial
    | some t =>
      have htt := List.find?_some htlvs
      rw [beq_iff_eq] at htt
      obtain ⟨tlv, htlv, hp, -⟩ := hcovered t (List.mem_of_find?_eq_some htlvs) htt
      exact absurd hp (List.find?_eq_none.mp hfind tlv htlv)
  | some tlv =>
    obtain ⟨run, hrun, hof⟩ := h.sound tlv (List.mem_of_find?_eq_some hfind)
    have hp := List.find?_some hfind
    rw [Bool.and_eq_true, beq_iff_eq, decide_eq_true_eq,
      hof.covers_iff (hlast run hrun) (by omega)] at hp
    obtain ⟨htype, hfirst, hle⟩ := hp
    -- The run has a value at the address, and the address has that TLV.
    obtain ⟨v, hv⟩ : ∃ v, run.values[j - run.first]? = some v := by
      unfold TlvRun.last at hle
      refine ⟨_, List.getElem?_eq_getElem ?_⟩
      unfold TlvRun.values
      rw [List.length_cons]
      omega
    have hentry : (j, run.tlv v) ∈ run.entries :=
      TlvRun.mem_entries_iff.mpr ⟨j - run.first, v, hv, by omega, rfl⟩
    have haddr := hperm.subset (List.mem_flatMap.mpr ⟨run, hrun, hentry⟩)
    obtain ⟨-, a', ha', hmem⟩ := mem_addrEntries.mp haddr
    rw [Nat.sub_zero, hj] at ha'
    cases ha'
    have hholds := hof.holds (blockRuns_ok addrs run hrun) hv (hlast run hrun)
    rw [Nat.add_sub_cancel' hfirst] at hholds
    -- It is the first one of its type on both sides.
    cases htlvs : a.tlvs.find? fun t => t.type == type with
    | none =>
      have hnot := List.find?_eq_none.mp htlvs (run.tlv v) hmem
      exact absurd (beq_iff_eq.mpr (hof.type.symm.trans htype)) hnot
    | some t =>
      have ht := List.mem_of_find?_eq_some htlvs
      have htt := List.find?_some htlvs
      rw [beq_iff_eq] at htt
      obtain ⟨tlv', htlv', hp', horder⟩ := hcovered t ht htt
      have hle₁ : run.fullType ≤ t.fullType := by
        rw [← hof.order, ← horder]
        rcases find?_least h.sorted hfind htlv' hp' with rfl | hle
        · exact Nat.le_refl _
        · exact hle
      have hle₂ : t.fullType ≤ (run.tlv v).fullType := by
        rcases find?_least a.sorted htlvs hmem (beq_iff_eq.mpr (hof.type.symm.trans htype)) with
          rfl | hlt
        · exact Nat.le_refl _
        · exact Nat.le_of_lt hlt
      rw [a.sorted.eq ht hmem (Nat.le_antisymm hle₂ hle₁)]
      exact hholds

end Turpial.Rfc5444
