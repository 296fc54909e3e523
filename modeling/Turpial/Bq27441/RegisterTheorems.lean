/-
Turpial.Bq27441.RegisterTheorems — words written to the fuel gauge.

The loop of `_bq27441_write_regs` writes every byte to `reg + 1`, the loop
of `_bq27441_read_regs` reads from `reg + i`. So of the two bytes of a word
the high one arrives where it belongs, and the low one is overwritten by it
(§2). A word that is written and read again comes back if its low byte was
there before (§3).
-/
import Turpial.Bq27441.Driver

namespace Turpial.Bq27441

/-! ## §1 Words and bytes -/

/-- The low byte of a word. -/
def lowByte (word : UInt16) : UInt8 := (word &&& 0x00FF).toUInt8

/-- The high byte. -/
def highByte (word : UInt16) : UInt8 := (word >>> 8).toUInt8

theorem wordOf_toNat (low high : UInt8) : (wordOf low high).toNat = high.toNat * 256 + low.toNat := by
  have hlow := low.toNat_lt
  have hhigh := high.toNat_lt
  have hshift : high.toNat <<< 8 % 2 ^ 16 = high.toNat <<< 8 :=
    Nat.mod_eq_of_lt (by rw [Nat.shiftLeft_eq]; omega)
  unfold wordOf
  rw [UInt16.toNat_or, UInt16.toNat_shiftLeft, UInt8.toNat_toUInt16, UInt8.toNat_toUInt16]
  change high.toNat <<< 8 % 2 ^ 16 ||| low.toNat = _
  rw [hshift, ← Nat.shiftLeft_add_eq_or_of_lt hlow, Nat.shiftLeft_eq]

theorem lowByte_toNat (word : UInt16) : (lowByte word).toNat = word.toNat % 256 := by
  unfold lowByte
  rw [UInt16.toNat_toUInt8, UInt16.toNat_and]
  change (word.toNat &&& 2 ^ 8 - 1) % 2 ^ 8 = _
  rw [Nat.and_two_pow_sub_one_eq_mod, Nat.mod_mod]

theorem highByte_toNat (word : UInt16) : (highByte word).toNat = word.toNat / 256 := by
  have hword := word.toNat_lt
  unfold highByte
  rw [UInt16.toNat_toUInt8, UInt16.toNat_shiftRight]
  change word.toNat >>> 8 % 2 ^ 8 = _
  rw [Nat.shiftRight_eq_div_pow]
  omega

/-- A word is put together rightly from its high byte exactly if the other
byte is its low one. -/
theorem wordOf_highByte_iff {low : UInt8} {word : UInt16} :
    wordOf low (highByte word) = word ↔ low = lowByte word := by
  rw [← UInt16.toNat_inj, ← UInt8.toNat_inj, wordOf_toNat, lowByte_toNat, highByte_toNat]
  have := low.toNat_lt
  omega

/-- The next register address as it goes over the bus. -/
theorem toUInt8_next (reg : UInt8) : (reg.toUInt16 + 1).toUInt8 = reg + 1 := by
  simp

theorem next_ne (reg : UInt8) : reg + 1 ≠ reg := by
  simp

/-! ## §2 What the loops access -/

theorem cmdWaitTime_registers (dev : Device) : (cmdWaitTime dev).registers = dev.registers := by
  unfold cmdWaitTime
  dsimp only
  split
  · rfl
  · rfl

theorem cmdUpdateTimestamp_registers (dev : Device) :
    (cmdUpdateTimestamp dev).registers = dev.registers := by
  unfold cmdUpdateTimestamp
  split
  · rfl
  · rfl

theorem errorI2c_ne_ok : bq27441ErrorI2c ≠ bq27441Ok := by decide

/-- A write loop that succeeds leaves the last byte in the register behind
`reg`, and every other register as it was. -/
theorem writeRegsLoop_registers {bus : Bus} {reg : UInt8} {data : List UInt8} {i : Nat}
    {dev : Device} (h : (writeRegsLoop bus reg i data dev).1 = bq27441Ok) :
    (writeRegsLoop bus reg i data dev).2.registers =
      fun r => if r = reg + 1 then data.getLast?.getD (dev.registers r) else dev.registers r := by
  induction data generalizing i dev with
  | nil =>
    funext r
    exact (ite_self _).symm
  | cons byte data ih =>
    unfold writeRegsLoop at h ⊢
    by_cases hres : (bus i).res < 0
    · rw [if_pos hres] at h
      exact absurd h errorI2c_ne_ok
    · rw [if_neg hres] at h ⊢
      rw [ih h]
      funext r
      dsimp only
      unfold i2cWriteReg
      rw [toUInt8_next, List.getLast?_cons]
      by_cases hr : r = reg + 1
      · rw [if_pos hr, if_pos hr, if_pos hr]
        rfl
      · rw [if_neg hr, if_neg hr, if_neg hr]

/-- A read loop that succeeds has read the registers from `reg` on. -/
theorem readRegsLoop_bytes {bus : Bus} {reg : UInt8} {len i : Nat} {dev : Device}
    (h : (readRegsLoop bus reg i len dev).1 = bq27441Ok) :
    (readRegsLoop bus reg i len dev).2.1 =
      (List.range' i len).map fun j => dev.registers (reg + UInt8.ofNat j) := by
  induction len generalizing i dev with
  | zero => rfl
  | succ len ih =>
    unfold readRegsLoop at h ⊢
    by_cases hres : (bus i).res < 0
    · rw [if_pos hres] at h
      exact absurd h errorI2c_ne_ok
    · rw [if_neg hres] at h ⊢
      dsimp only at h ⊢
      rw [ih h, List.range'_succ, List.map_cons]
      unfold i2cReadReg
      rw [UInt16.toUInt8_add, UInt8.toUInt8_toUInt16, UInt16.toUInt8_ofNat']
      rfl

section Transactions

variable {bus : Bus} {dev : Device}

/-- `_bq27441_write_regs` succeeds if its loop does, and writes what it writes. -/
theorem bq27441WriteRegs_registers {reg : UInt8} {data : List UInt8}
    (h : (bq27441WriteRegs bus reg data dev).1 = bq27441Ok) :
    (bq27441WriteRegs bus reg data dev).2.registers =
      fun r => if r = reg + 1 then data.getLast?.getD (dev.registers r) else dev.registers r := by
  obtain ⟨hloop, hdone⟩ := bq27441WriteRegs_ok h
  rw [hdone, cmdUpdateTimestamp_registers, writeRegsLoop_registers hloop, cmdWaitTime_registers]

/-- A word that is read has the bytes of the register and of the next one. -/
theorem bq27441ReadWord_word {reg : UInt8}
    (h : (bq27441ReadWord bus reg.toUInt16 dev).1 = bq27441Ok) :
    (bq27441ReadWord bus reg.toUInt16 dev).2.1 =
      wordOf (dev.registers reg) (dev.registers (reg + 1)) := by
  unfold bq27441ReadWord at h ⊢
  rw [UInt8.toUInt8_toUInt16] at h ⊢
  obtain ⟨hloop, hdone⟩ := bq27441ReadRegs_ok h
  dsimp only
  rw [hdone, readRegsLoop_bytes hloop, cmdWaitTime_registers]
  change wordOf (dev.registers (reg + 0)) (dev.registers (reg + 1)) = _
  rw [UInt8.add_zero]

end Transactions

/-! ## §3 Words that come back -/

/-- The two bytes of a word are in a register and the next one, and nothing
else has changed. -/
structure WordStored (reg : UInt8) (word : UInt16) (f f' : Registers) : Prop where
  low : f' reg = lowByte word
  high : f' (reg + 1) = highByte word
  others : ∀ r, r ≠ reg → r ≠ reg + 1 → f' r = f r

/-- A word that is written to a register is stored there, and read from it
whenever reading succeeds. -/
structure WordAgrees (reg : UInt8) (word : UInt16) (dev dev' : Device) : Prop where
  stored : WordStored reg word dev.registers dev'.registers
  read : ∀ bus, (bq27441ReadWord bus reg.toUInt16 dev').1 = bq27441Ok →
    (bq27441ReadWord bus reg.toUInt16 dev').2.1 = word

/-- What a word that is written leaves in the registers. -/
theorem writeWord_registers {bus : Bus} {reg : UInt8} {word : UInt16} {dev : Device}
    (h : (bq27441WriteRegs bus reg (bytesOf word) dev).1 = bq27441Ok) :
    (bq27441WriteRegs bus reg (bytesOf word) dev).2.registers =
      fun r => if r = reg + 1 then highByte word else dev.registers r :=
  bq27441WriteRegs_registers h

/-- **Writing and reading a word agree exactly if** the register holds its
low byte already. -/
theorem wordAgrees_iff (bus : Bus) (reg : UInt8) (word : UInt16) (dev : Device)
    (h : (bq27441WriteRegs bus reg (bytesOf word) dev).1 = bq27441Ok) :
    WordAgrees reg word dev (bq27441WriteRegs bus reg (bytesOf word) dev).2 ↔
      dev.registers reg = lowByte word := by
  have hregs := writeWord_registers h
  generalize (bq27441WriteRegs bus reg (bytesOf word) dev).2 = dev' at hregs ⊢
  have hself : dev'.registers reg = dev.registers reg := by
    rw [hregs]
    exact if_neg fun heq => next_ne reg heq.symm
  have hnext : dev'.registers (reg + 1) = highByte word := by
    rw [hregs]
    exact if_pos rfl
  constructor
  · intro hagrees
    exact hself.symm.trans hagrees.stored.low
  · intro hlow
    refine ⟨⟨hself.trans hlow, hnext, fun r _ hr => ?_⟩, fun bus hread => ?_⟩
    · rw [hregs]
      exact if_neg hr
    · rw [bq27441ReadWord_word hread, hself, hnext]
      exact wordOf_highByte_iff.mpr hlow

/-- A gauge whose registers are zero. -/
def sampleDevice : Device where
  registers := fun _ => 0

/-- A bus on which everything succeeds. -/
def sampleBus : Bus := fun _ => ⟨0, 100⟩

theorem wordAgrees_0x0b00 :
    WordAgrees bq27441RegTemperature 0x0B00 sampleDevice
        (bq27441WriteRegs sampleBus bq27441RegTemperature (bytesOf 0x0B00) sampleDevice).2 ↔
      sampleDevice.registers bq27441RegTemperature = lowByte 0x0B00 :=
  wordAgrees_iff sampleBus bq27441RegTemperature 0x0B00 sampleDevice rfl

/-- 298.2 K are set, and 281.6 K are there. -/
theorem wordAgrees_not_0x0ba6 :
    (bq27441WriteRegs sampleBus bq27441RegTemperature (bytesOf 0x0BA6) sampleDevice).1 = bq27441Ok ∧
      ¬ WordAgrees bq27441RegTemperature 0x0BA6 sampleDevice
        (bq27441WriteRegs sampleBus bq27441RegTemperature (bytesOf 0x0BA6) sampleDevice).2 := by
  refine ⟨rfl, fun h => ?_⟩
  exact absurd h.stored.low (by decide)

/-! ## §4 The commands -/

section Commands

variable {bus bus' : Bus} {dev : Device}

/-- A temperature that is set is the one that is measured exactly if its low
byte was in the register. -/
theorem temperature_setTemperature {temperature : UInt16}
    (hset : (bq27441SetTemperature bus temperature dev).1 = bq27441Ok)
    (hread : (bq27441Temperature bus' (bq27441SetTemperature bus temperature dev).2).1 = bq27441Ok) :
    (bq27441Temperature bus' (bq27441SetTemperature bus temperature dev).2).2.1 = temperature ↔
      dev.registers bq27441RegTemperature = lowByte temperature := by
  have hregs : (bq27441SetTemperature bus temperature dev).2.registers =
      fun r => if r = bq27441RegTemperature + 1 then highByte temperature else dev.registers r :=
    writeWord_registers hset
  unfold bq27441Temperature at hread ⊢
  rw [bq27441ReadWord_word hread, hregs]
  exact wordOf_highByte_iff

/-- A function that is issued has the low byte of whatever was in the
control register. -/
theorem control_function {function res : UInt16}
    (h : (bq27441Control bus function res dev).1 = bq27441Ok) :
    (bq27441Control bus function res dev).2.1 =
      wordOf (dev.registers bq27441RegControl) (highByte function) := by
  unfold bq27441Control at h ⊢
  by_cases hwritten : (bq27441WriteRegs bus bq27441RegControl (bytesOf function) dev).1 = bq27441Ok
  · have hregs := writeWord_registers hwritten
    dsimp only at h ⊢
    rw [if_neg fun hne => hne hwritten] at h ⊢
    rw [bq27441ReadWord_word h, hregs]
    rfl
  · dsimp only at h
    rw [if_pos hwritten] at h
    exact absurd h hwritten

end Commands

end Turpial.Bq27441
