/-
Turpial.Bq27441.Driver — the driver of the fuel gauge
(`sys/drivers/bq27441/bq27441.c`).

The bus and the timer are RTOS code. `i2c_write_reg` and `i2c_read_reg` with
no flags put one byte of the register address on the bus, so the gauge is
256 registers; an access that fails leaves them alone. How an access ends
and how long it takes comes from outside (`Bus`). `xtimer_usleep` sleeps as
long as it is told.

Time is microseconds as a `Nat`. The difference of the two time stamps is
only looked at when both are set, and the second is never before the first.
-/
import Turpial.Aodvv2.Message

namespace Turpial.Bq27441

open Turpial.Aodvv2

/-! ## The bus -/

/-- The registers of the gauge. -/
abbrev Registers := UInt8 → UInt8

/-- `i2c_write_reg`, where it succeeds. -/
def i2cWriteReg (reg : UInt16) (data : UInt8) (f : Registers) : Registers :=
  fun r => if r = reg.toUInt8 then data else f r

/-- `i2c_read_reg`, where it succeeds. -/
def i2cReadReg (reg : UInt16) (f : Registers) : UInt8 := f reg.toUInt8

/-- How an access to the bus ends: what the call returns, and the time it
takes. -/
structure Access where
  res : Int
  took : Nat

/-- The accesses of a transaction, by their number. -/
abbrev Bus := Nat → Access

/-! ## The device -/

/-- `BQ27441_OK`. -/
def bq27441Ok : Int := 0

/-- `BQ27441_ERROR_I2C`. -/
def bq27441ErrorI2c : Int := -1

/-- `BQ27441_BUS_FREE_US`. -/
def bq27441BusFreeUs : Nat := 66

/-- `BQ27441_REG_CONTROL`. -/
def bq27441RegControl : UInt8 := 0x00

/-- `BQ27441_REG_TEMPERATURE`. -/
def bq27441RegTemperature : UInt8 := 0x02

/-- `bq27441_t`, with the gauge behind it and the clock. -/
structure Device where
  registers : Registers
  /-- `last_cmd[0]` -/
  lastCmd0 : Nat := 0
  /-- `last_cmd[1]` -/
  lastCmd1 : Nat := 0
  now : Nat := 0

/-- The device some time later. -/
def Device.elapse (dev : Device) (us : Nat) : Device := { dev with now := dev.now + us }

/-- `null` of the two functions below. -/
def timexNull : Nat := timexSet 0 0

/-- `sec`. -/
def timexSec : Nat := timexSet 1 0

/-- `_cmd_wait_time`. -/
def cmdWaitTime (dev : Device) : Device :=
  let diff := dev.lastCmd1 - dev.lastCmd0
  if diff < timexSec ∧ dev.lastCmd0 ≠ timexNull ∧ dev.lastCmd1 ≠ timexNull then
    -- What is slept is the difference, not what is left of the second.
    { dev.elapse diff with
      lastCmd0 := timexNull
      lastCmd1 := timexNull }
  else dev

/-- `_cmd_update_timestamp`. -/
def cmdUpdateTimestamp (dev : Device) : Device :=
  if dev.lastCmd0 = timexNull then
    { dev with
      lastCmd0 := dev.now
      lastCmd1 := timexNull }
  else { dev with lastCmd1 := dev.now }

/-! ## Register access -/

/-- The loop of `_bq27441_write_regs`, from byte number `i` on. -/
def writeRegsLoop (bus : Bus) (reg : UInt8) : Nat → List UInt8 → Device → Int × Device
  | _, [], dev => (bq27441Ok, dev)
  | i, byte :: data, dev =>
    if (bus i).res < 0 then (bq27441ErrorI2c, dev.elapse (bus i).took)
    else
      -- `reg + 1` for every byte.
      writeRegsLoop bus reg (i + 1) data
        { dev.elapse ((bus i).took + bq27441BusFreeUs) with
          registers := i2cWriteReg (reg.toUInt16 + 1) byte dev.registers }

/-- `_bq27441_write_regs`. -/
def bq27441WriteRegs (bus : Bus) (reg : UInt8) (data : List UInt8) (dev : Device) : Int × Device :=
  let written := writeRegsLoop bus reg 0 data (cmdWaitTime dev)
  if written.1 = bq27441Ok then (bq27441Ok, cmdUpdateTimestamp written.2) else written

/-- It succeeds if its loop does, and records the command then. -/
theorem bq27441WriteRegs_ok {bus : Bus} {reg : UInt8} {data : List UInt8} {dev : Device}
    (h : (bq27441WriteRegs bus reg data dev).1 = bq27441Ok) :
    (writeRegsLoop bus reg 0 data (cmdWaitTime dev)).1 = bq27441Ok ∧
      (bq27441WriteRegs bus reg data dev).2 =
        cmdUpdateTimestamp (writeRegsLoop bus reg 0 data (cmdWaitTime dev)).2 := by
  unfold bq27441WriteRegs at h ⊢
  by_cases hloop : (writeRegsLoop bus reg 0 data (cmdWaitTime dev)).1 = bq27441Ok
  · refine ⟨hloop, ?_⟩
    dsimp only
    rw [if_pos hloop]
  · dsimp only at h
    rw [if_neg hloop] at h
    exact absurd h hloop

/-- The loop of `_bq27441_read_regs`, from byte number `i` on, for `len`
more bytes. -/
def readRegsLoop (bus : Bus) (reg : UInt8) : Nat → Nat → Device → Int × List UInt8 × Device
  | _, 0, dev => (bq27441Ok, [], dev)
  | i, len + 1, dev =>
    if (bus i).res < 0 then (bq27441ErrorI2c, [], dev.elapse (bus i).took)
    else
      let byte := i2cReadReg (reg.toUInt16 + UInt16.ofNat i) dev.registers
      let rest := readRegsLoop bus reg (i + 1) len (dev.elapse ((bus i).took + bq27441BusFreeUs))
      (rest.1, byte :: rest.2.1, rest.2.2)

/-- `_bq27441_read_regs`, with the bytes it has read. -/
def bq27441ReadRegs (bus : Bus) (reg : UInt8) (len : Nat) (dev : Device) :
    Int × List UInt8 × Device :=
  let read := readRegsLoop bus reg 0 len (cmdWaitTime dev)
  if read.1 = bq27441Ok then (bq27441Ok, read.2.1, cmdUpdateTimestamp read.2.2) else read

theorem bq27441ReadRegs_ok {bus : Bus} {reg : UInt8} {len : Nat} {dev : Device}
    (h : (bq27441ReadRegs bus reg len dev).1 = bq27441Ok) :
    (readRegsLoop bus reg 0 len (cmdWaitTime dev)).1 = bq27441Ok ∧
      (bq27441ReadRegs bus reg len dev).2 =
        ((readRegsLoop bus reg 0 len (cmdWaitTime dev)).2.1,
          cmdUpdateTimestamp (readRegsLoop bus reg 0 len (cmdWaitTime dev)).2.2) := by
  unfold bq27441ReadRegs at h ⊢
  by_cases hloop : (readRegsLoop bus reg 0 len (cmdWaitTime dev)).1 = bq27441Ok
  · refine ⟨hloop, ?_⟩
    dsimp only
    rw [if_pos hloop]
  · dsimp only at h
    rw [if_neg hloop] at h
    exact absurd h hloop

/-- The word of two bytes, `buf[1] << 8 | buf[0]`. -/
def wordOf (low high : UInt8) : UInt16 := high.toUInt16 <<< 8 ||| low.toUInt16

/-- The bytes of a word, the low one first. -/
def bytesOf (word : UInt16) : List UInt8 := [(word &&& 0x00FF).toUInt8, (word >>> 8).toUInt8]

/-- `_bq27441_read_word`. Bytes that could not be read are indeterminate in
the source; here they are zero. -/
def bq27441ReadWord (bus : Bus) (reg : UInt16) (dev : Device) : Int × UInt16 × Device :=
  let read := bq27441ReadRegs bus reg.toUInt8 2 dev
  (read.1, wordOf (read.2.1.getD 0 0) (read.2.1.getD 1 0), read.2.2)

/-! ## Commands -/

/-- `bq27441_control` with a place for the result: `res` is what is there before. -/
def bq27441Control (bus : Bus) (function res : UInt16) (dev : Device) : Int × UInt16 × Device :=
  let written := bq27441WriteRegs bus bq27441RegControl (bytesOf function) dev
  if written.1 ≠ bq27441Ok then (written.1, res, written.2)
  else bq27441ReadWord (fun i => bus (i + 2)) bq27441RegControl.toUInt16 written.2

/-- `bq27441_temperature`. -/
def bq27441Temperature (bus : Bus) (dev : Device) : Int × UInt16 × Device :=
  bq27441ReadWord bus bq27441RegTemperature.toUInt16 dev

/-- `bq27441_set_temperature`. -/
def bq27441SetTemperature (bus : Bus) (temperature : UInt16) (dev : Device) : Int × Device :=
  bq27441WriteRegs bus bq27441RegTemperature (bytesOf temperature) dev

end Turpial.Bq27441
