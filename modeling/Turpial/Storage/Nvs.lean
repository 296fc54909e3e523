/-
Turpial.Storage.Nvs — the wrapper of the non-volatile storage
(`wifi/sys/storage/nvs/nvs.c`).

The NVS library is part of ESP-IDF. What its functions return and what they
write through their pointers comes from outside; every call is recorded
with the handle it is given and with its result.

`get_blob` casts its length to a pointer. What the library reads there
comes from outside as well.
-/
import Turpial.Lib.Run

namespace Turpial.Storage

/-! ## The library -/

/-- `ESP_OK`. -/
def espOk : Int := 0

/-- `ESP_FAIL`. -/
def espFail : Int := -1

/-- The type of `_handle`. -/
abbrev NvsHandle := UInt32

/-- A C string: the bytes in front of the first NUL. -/
def cString (bytes : List UInt8) : List UInt8 := bytes.takeWhile (· ≠ 0)

theorem cString_cons {byte : UInt8} (h : byte ≠ 0) (bytes : List UInt8) :
    cString (byte :: bytes) = byte :: cString bytes :=
  List.takeWhile_cons_of_pos (decide_eq_true h)

/-- What follows a field in memory belongs to its string where the field has no NUL. -/
theorem cString_append_eq_iff (field behind : List UInt8) :
    cString (field ++ behind) = cString field ↔ 0 ∈ field ∨ cString behind = [] := by
  induction field with
  | nil => exact ⟨Or.inr, fun h => h.resolve_left List.not_mem_nil⟩
  | cons byte field ih =>
    rw [List.cons_append, List.mem_cons]
    by_cases hbyte : byte = 0
    · subst hbyte
      exact iff_of_true rfl (.inl (.inl rfl))
    · have hother : ¬ 0 = byte := fun h => hbyte h.symm
      rw [cString_cons hbyte, cString_cons hbyte, List.cons_inj_right, ih, or_iff_right hother]

/-- A call of the library, with what it is given and what it returns. -/
inductive EspCall where
  | nvsFlashInit (res : Int)
  | nvsFlashErase
  | nvsOpen (res : Int) (handle : NvsHandle)
  | nvsClose (handle : NvsHandle)
  | nvsSetStr (handle : NvsHandle) (key : String) (value : List UInt8) (res : Int)
  | nvsGetStr (handle : NvsHandle) (key : String) (length : Nat) (buffer : List UInt8) (res : Int)
  | nvsSetU8 (handle : NvsHandle) (key : String) (value : UInt8) (res : Int)
  | nvsGetU8 (handle : NvsHandle) (key : String) (value : UInt8) (res : Int)
  | nvsSetBlob (handle : NvsHandle) (key : String) (value : List UInt8) (res : Int)
  | nvsGetBlob (handle : NvsHandle) (key : String) (length : Nat) (buffer : List UInt8) (res : Int)
  | nvsCommit (handle : NvsHandle) (res : Int)
  deriving DecidableEq, Repr

/-- What `nvs_open` returns, and `_handle` after it. -/
structure Opening where
  res : Int
  handle : NvsHandle

/-- What a getter returns, and its buffer and its length after it. -/
structure Got (n : Nat) where
  res : Int
  buffer : Vector UInt8 n
  length : Nat

/-- What `nvs_get_u8` returns, and the byte after it. -/
structure GotU8 where
  res : Int
  value : UInt8

/-! ## The wrapper -/

/-- The statics `_handle` and `is_open`. -/
structure Nvs where
  handle : NvsHandle := 0
  isOpen : Bool := false
  deriving DecidableEq, Repr

/-- `nvs_init`, with the results of the two calls of `nvs_flash_init`. -/
def nvsInit (flash flashAgain : Int) (opening : Opening) : Int × Nvs × List EspCall :=
  let flashCalls :=
    if flash ≠ espOk then [.nvsFlashInit flash, .nvsFlashErase, .nvsFlashInit flashAgain]
    else [.nvsFlashInit flash]
  -- The flag does not depend on `err`.
  (opening.res, { handle := opening.handle, isOpen := true },
    flashCalls ++ [.nvsOpen opening.res opening.handle])

/-- The test of an accessor: without an open NVS it returns `closed` and
calls nothing. -/
def ifOpen {α : Type} (nvs : Nvs) (closed opened : α) (call : NvsHandle → EspCall) :
    α × List EspCall :=
  if !nvs.isOpen then (closed, []) else (opened, [call nvs.handle])

/-- `nvs_set_string`, where `value` is what `string_value` points to. -/
def nvsSetString (nvs : Nvs) (key : String) (value : List UInt8) (res : Int) :
    Int × List EspCall :=
  ifOpen nvs espFail res (.nvsSetStr · key (cString value) res)

/-- `nvs_get_string`, with `buffer` and `*length` after it. -/
def nvsGetString {n : Nat} (nvs : Nvs) (key : String) (buffer : Vector UInt8 n) (length : Nat)
    (got : Got n) : (Int × Vector UInt8 n × Nat) × List EspCall :=
  ifOpen nvs (espFail, buffer, length) (got.res, got.buffer, got.length)
    (.nvsGetStr · key length got.buffer.toList got.res)

/-- `set_bool`. -/
def setBool (nvs : Nvs) (key : String) (value : Bool) (res : Int) : Int × List EspCall :=
  ifOpen nvs espFail res (.nvsSetU8 · key (if value then 1 else 0) res)

/-- `get_bool`, with `*value` after it. -/
def getBool (nvs : Nvs) (key : String) (value : Bool) (got : GotU8) : (Int × Bool) × List EspCall :=
  ifOpen nvs (espFail, value) (if got.res ≠ espOk then (got.res, value) else (0, got.value == 1))
    (.nvsGetU8 · key got.value got.res)

/-- `_nvs_commit`. -/
def nvsCommit (nvs : Nvs) (res : Int) : Int × List EspCall :=
  ifOpen nvs espFail res (.nvsCommit · res)

/-- `_nvs_close`. -/
def nvsClose (nvs : Nvs) : Int × Nvs × List EspCall :=
  -- The handle is closed where the flag is down.
  (espOk, { nvs with isOpen := false }, if !nvs.isOpen then [.nvsClose nvs.handle] else [])

/-- `set_blob`. -/
def setBlob (nvs : Nvs) (key : String) (buffer : List UInt8) (length : Nat) (res : Int) :
    Int × List EspCall :=
  ifOpen nvs espFail res (.nvsSetBlob · key (buffer.take length) res)

/-- `get_blob`, with `buffer` after it. -/
def getBlob {n : Nat} (nvs : Nvs) (key : String) (buffer : Vector UInt8 n) (length : Nat)
    (got : Got n) : (Int × Vector UInt8 n) × List EspCall :=
  ifOpen nvs (espFail, buffer) (got.res, got.buffer)
    (.nvsGetBlob · key length got.buffer.toList got.res)

section Guard

variable {α : Type} {nvs : Nvs} (closed opened : α) (call : NvsHandle → EspCall)

theorem ifOpen_closed (h : nvs.isOpen = false) : ifOpen nvs closed opened call = (closed, []) :=
  if_pos (by rw [h]; rfl)

theorem ifOpen_open (h : nvs.isOpen = true) :
    ifOpen nvs closed opened call = (opened, [call nvs.handle]) :=
  if_neg (by rw [h]; decide)

/-- The call is made if the NVS is open, and passes `_handle` on. -/
theorem ifOpen_calls (nvs : Nvs) :
    (ifOpen nvs closed opened call).2 = if nvs.isOpen then [call nvs.handle] else [] := by
  cases h : nvs.isOpen with
  | false => rw [ifOpen_closed closed opened call h, if_neg Bool.false_ne_true]
  | true => rw [ifOpen_open closed opened call h, if_pos rfl]

end Guard

end Turpial.Storage
