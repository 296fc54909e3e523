/-
Turpial.Rfc5444.Consumes — running the reader over bytes that are known.

`HasAt buf p bytes` says that the packet holds `bytes` at offset `p`.
`Consumes buf eob parse start bytes Q` says that `parse`, started at
`start` where the packet holds `bytes` before `eob`, moves over exactly
these bytes and returns a value with `Q`. It is the rule of the sequence
that makes this useful (`Consumes.bind`): the bytes of two statements are
the bytes of the first and then those of the second. A loop consumes the
bytes of its rounds (`consumes_loop`).
-/
import Turpial.Rfc5444.Reader

namespace Turpial.Rfc5444

open Turpial.Lib

variable {α β σ ι : Type} {buf : List UInt8} {eob : Nat}

/-! ## Bytes of a packet -/

/-- The packet holds these bytes at an offset. -/
def HasAt (buf : List UInt8) (p : Nat) (bytes : List UInt8) : Prop := bytes <+: buf.drop p

theorem hasAt_append {p : Nat} {xs ys : List UInt8} :
    HasAt buf p (xs ++ ys) ↔ HasAt buf p xs ∧ HasAt buf (p + xs.length) ys := by
  unfold HasAt
  constructor
  · rintro ⟨rest, h⟩
    refine ⟨⟨ys ++ rest, by rw [← List.append_assoc]; exact h⟩, rest, ?_⟩
    rw [← List.drop_drop, ← h, List.append_assoc, List.drop_left]
  · rintro ⟨⟨rest, h⟩, rest', h'⟩
    refine ⟨rest', ?_⟩
    rw [← List.drop_drop, ← h, List.drop_left] at h'
    rw [← h, ← h', List.append_assoc]

theorem HasAt.left {p : Nat} {xs ys : List UInt8} (h : HasAt buf p (xs ++ ys)) :
    HasAt buf p xs := (hasAt_append.mp h).1

theorem HasAt.right {p : Nat} {xs ys : List UInt8} (h : HasAt buf p (xs ++ ys)) :
    HasAt buf (p + xs.length) ys := (hasAt_append.mp h).2

/-- The bytes after the first one. -/
theorem HasAt.tail {p : Nat} {b : UInt8} {bytes : List UInt8} (h : HasAt buf p (b :: bytes)) :
    HasAt buf (p + [b].length) bytes := (show HasAt buf p ([b] ++ bytes) from h).right

theorem HasAt.getElem? {p i : Nat} {bytes : List UInt8} (h : HasAt buf p bytes)
    (hi : i < bytes.length) : buf[p + i]? = bytes[i]? := by
  obtain ⟨rest, h⟩ := h
  rw [← List.getElem?_drop, ← h, List.getElem?_append_left hi]

theorem HasAt.byteAt {p i : Nat} {bytes : List UInt8} (h : HasAt buf p bytes)
    (hi : i < bytes.length) : byteAt buf (p + i) = bytes[i] := by
  unfold Rfc5444.byteAt
  rw [h.getElem? hi, List.getElem?_eq_getElem hi]
  rfl

/-- The first byte. -/
theorem HasAt.head {p : Nat} {b : UInt8} {bytes : List UInt8} (h : HasAt buf p (b :: bytes)) :
    Rfc5444.byteAt buf p = b := h.byteAt (i := 0) (Nat.zero_lt_succ _)

/-- Reading as many bytes as are known. -/
theorem HasAt.bytesFrom {p : Nat} {bytes : List UInt8} (h : HasAt buf p bytes) :
    bytesFrom buf p bytes.length = bytes := by
  unfold Rfc5444.bytesFrom
  apply List.ext_getElem
  · simp
  · intro i h₁ h₂
    rw [List.getElem_map, List.getElem_range, h.byteAt h₂]

/-- The bytes of one piece among several. -/
theorem HasAt.flatMap {p : Nat} {items : List ι} {enc : ι → List UInt8} {len i : Nat} {x : ι}
    (h : HasAt buf p (items.flatMap enc)) (hlen : ∀ y ∈ items, (enc y).length = len)
    (hi : items[i]? = some x) : HasAt buf (p + len * i) (enc x) := by
  induction items generalizing p i with
  | nil => cases hi
  | cons y items ih =>
    rw [List.flatMap_cons] at h
    cases i with
    | zero =>
      cases hi
      exact h.left
    | succ i =>
      have hrest := ih h.right (fun z hz => hlen z (List.mem_cons_of_mem y hz)) hi
      rw [hlen y (List.mem_cons_self)] at hrest
      rw [Nat.mul_succ, Nat.add_comm (len * i), ← Nat.add_assoc]
      exact hrest

/-! ## Consuming -/

/-- `parse` moves over exactly these bytes, and what it returns has `Q`. -/
def Consumes (buf : List UInt8) (eob : Nat) (parse : Parse α) (start : Nat) (bytes : List UInt8)
    (Q : α → Prop) : Prop :=
  HasAt buf start bytes → start + bytes.length ≤ eob →
    ∃ a, parse ⟨start, .okay⟩ = .ok (a, ⟨start + bytes.length, .okay⟩) ∧ Q a

variable {start : Nat} {bytes bytes' : List UInt8} {Q : α → Prop} {R : β → Prop}

/-- The bytes are there while they are read. -/
theorem consumes_of_hasAt {parse : Parse α}
    (h : HasAt buf start bytes → start + bytes.length ≤ eob →
      Consumes buf eob parse start bytes Q) :
    Consumes buf eob parse start bytes Q := fun hat hle => h hat hle hat hle

theorem Consumes.mono {parse : Parse α} {Q' : α → Prop}
    (h : Consumes buf eob parse start bytes Q) (hQ : ∀ a, Q a → Q' a) :
    Consumes buf eob parse start bytes Q' := by
  intro hat hle
  obtain ⟨a, hrun, ha⟩ := h hat hle
  exact ⟨a, hrun, hQ a ha⟩

/-- Two statements consume what the first and then the second consumes. -/
theorem Consumes.bind {parse : Parse α} {f : α → Parse β}
    (hp : Consumes buf eob parse start bytes Q)
    (hf : ∀ a, Q a → Consumes buf eob (f a) (start + bytes.length) bytes' R) :
    Consumes buf eob (parse >>= f) start (bytes ++ bytes') R := by
  intro hat hle
  rw [List.length_append] at hle
  obtain ⟨a, hrun, ha⟩ := hp hat.left (by omega)
  obtain ⟨b, hrun', hb⟩ := hf a ha hat.right (by omega)
  refine ⟨b, ?_, hb⟩
  rw [bind_of_ok hrun, hrun', List.length_append, Nat.add_assoc]

/-- A statement that reads nothing comes first. -/
theorem Consumes.bind_nil {parse : Parse α} {f : α → Parse β}
    (hp : Consumes buf eob parse start [] Q)
    (hf : ∀ a, Q a → Consumes buf eob (f a) start bytes R) :
    Consumes buf eob (parse >>= f) start bytes R := hp.bind hf

/-- The last statement reads nothing. -/
theorem Consumes.bind_pure {parse : Parse α} {f : α → Parse β}
    (hp : Consumes buf eob parse start bytes Q)
    (hf : ∀ a, Q a → Consumes buf eob (f a) (start + bytes.length) [] R) :
    Consumes buf eob (parse >>= f) start bytes R := by
  have h := hp.bind hf
  rw [List.append_nil] at h
  exact h

theorem consumes_pure {a : α} (h : Q a) : Consumes buf eob (pure a : Parse α) start [] Q :=
  fun _ _ => ⟨a, rfl, h⟩

theorem consumes_position : Consumes buf eob position start [] (· = start) :=
  fun _ _ => ⟨start, rfl, rfl⟩

theorem consumes_stopIf {p : Prop} [Decidable p] (s : Stop) (h : ¬ p) :
    Consumes buf eob (stopIf p s) start [] fun _ => True := by
  intro _ _
  refine ⟨(), ?_, trivial⟩
  unfold stopIf
  rw [if_neg h]
  rfl

theorem consumes_checkResult : Consumes buf eob checkResult start [] fun _ => True :=
  fun _ _ => ⟨(), rfl, trivial⟩

theorem consumes_advance {k : Nat} (h : bytes.length = k) :
    Consumes buf eob (advance k) start bytes fun _ => True := by
  intro _ _
  rw [h]
  exact ⟨(), rfl, trivial⟩

theorem consumes_getU8 (b : UInt8) : Consumes buf eob (getU8 buf eob) start [b] (· = b) := by
  intro hat hle
  refine ⟨b, ?_, rfl⟩
  have hlt : start + 1 ≤ eob := hle
  unfold getU8
  rw [if_neg (by simp), if_neg (by simp only; omega), hat.head]
  rfl

/-- A byte is read first. -/
theorem Consumes.byte {b : UInt8} {f : UInt8 → Parse β}
    (hf : ∀ a, a = b → Consumes buf eob (f a) (start + [b].length) bytes R) :
    Consumes buf eob (getU8 buf eob >>= f) start (b :: bytes) R :=
  (consumes_getU8 b).bind hf

/-- A read that is skipped consumes nothing. -/
theorem consumes_getU8If {present : Bool} {bytes : List UInt8} {b : UInt8}
    (h : (present = true ∧ bytes = [b]) ∨ (present = false ∧ bytes = [] ∧ b = 0)) :
    Consumes buf eob (getU8If present buf eob) start bytes (· = b) := by
  rcases h with ⟨rfl, rfl⟩ | ⟨rfl, rfl, rfl⟩
  · exact consumes_getU8 b
  · exact consumes_pure rfl

/-- A loop up to the end of the bytes of its rounds. -/
theorem consumes_loop {body : σ → Parse σ} {items : List ι} {enc : ι → List UInt8}
    {Inv : List ι → σ → Prop} {done : List ι} {s : σ} {fuel : Nat}
    (hbody : ∀ done item start s, item ∈ items → Inv done s →
      Consumes buf eob (body s) start (enc item) (Inv (done ++ [item])))
    (hne : ∀ item ∈ items, enc item ≠ []) (hs : Inv done s) (hf : items.length ≤ fuel) :
    Consumes buf eob
      (loopWhile (fun c => decide (c.ptr < start + (items.flatMap enc).length)) body fuel s)
      start (items.flatMap enc) (Inv (done ++ items)) := by
  induction items generalizing done s fuel start with
  | nil =>
    intro _ _
    refine ⟨s, ?_, by rw [List.append_nil]; exact hs⟩
    cases fuel with
    | zero => rfl
    | succ fuel =>
      rw [loopWhile_succ, if_neg (by simp)]
      rfl
  | cons item items ih =>
    cases fuel with
    | zero => simp at hf
    | succ fuel =>
      intro hat hle
      have hpos := List.length_pos_iff.mpr (hne item List.mem_cons_self)
      rw [List.flatMap_cons] at hat hle ⊢
      rw [List.length_append] at hle ⊢
      obtain ⟨s', hrun, hs'⟩ :=
        hbody done item start s List.mem_cons_self hs hat.left (by omega)
      obtain ⟨s'', hrun', hs''⟩ := ih
        (fun done i start s hi => hbody done i start s (List.mem_cons_of_mem item hi))
        (fun i hi => hne i (List.mem_cons_of_mem item hi)) hs' (Nat.le_of_succ_le_succ hf) hat.right
        (by omega)
      refine ⟨s'', ?_, by rw [List.append_assoc] at hs''; exact hs''⟩
      rw [loopWhile_succ, if_pos (by simp; omega), bind_of_ok hrun, ← Nat.add_assoc]
      exact hrun'

end Turpial.Rfc5444
