/-
Turpial.Storage.NvsTheorems — the flag `is_open` against the handle behind it.

`nvs_init` puts the flag up whether `nvs_open` succeeded or not.
`_nvs_close` calls `nvs_close` where the flag is down, so the handle stays
open when the flag goes down.

§1 is the accessors, §2 what the library's calls say about its handles, §3
the runs: the flag tracks the handle exactly as long as every `nvs_open`
succeeds and `_nvs_close` finds the flag down.
-/
import Turpial.Storage.Nvs

namespace Turpial.Storage

open Turpial.Lib

/-! ## §1 Accessors -/

/-- A call of an accessor, with what the library does there. -/
inductive Accessor where
  | setString (key : String) (value : List UInt8) (res : Int)
  | getString (key : String) {n : Nat} (buffer : Vector UInt8 n) (length : Nat) (got : Got n)
  | setBool (key : String) (value : Bool) (res : Int)
  | getBool (key : String) (value : Bool) (got : GotU8)
  | setBlob (key : String) (buffer : List UInt8) (length : Nat) (res : Int)
  | getBlob (key : String) {n : Nat} (buffer : Vector UInt8 n) (length : Nat) (got : Got n)
  | commit (res : Int)

/-- What it calls. -/
def Accessor.calls (nvs : Nvs) : Accessor → List EspCall
  | .setString key value res => (nvsSetString nvs key value res).2
  | .getString key buffer length got => (nvsGetString nvs key buffer length got).2
  | .setBool key value res => (Storage.setBool nvs key value res).2
  | .getBool key value got => (Storage.getBool nvs key value got).2
  | .setBlob key buffer length res => (Storage.setBlob nvs key buffer length res).2
  | .getBlob key buffer length got => (Storage.getBlob nvs key buffer length got).2
  | .commit res => (nvsCommit nvs res).2

/-- The handle that an accessor's call passes on. -/
def EspCall.accessed : EspCall → Option NvsHandle
  | .nvsFlashInit _ => none
  | .nvsFlashErase => none
  | .nvsOpen _ _ => none
  | .nvsClose _ => none
  | .nvsSetStr handle _ _ _ => some handle
  | .nvsGetStr handle _ _ _ _ => some handle
  | .nvsSetU8 handle _ _ _ => some handle
  | .nvsGetU8 handle _ _ _ => some handle
  | .nvsSetBlob handle _ _ _ => some handle
  | .nvsGetBlob handle _ _ _ _ => some handle
  | .nvsCommit handle _ => some handle

/-- Every accessor makes one call, and only if the NVS is open. -/
theorem Accessor.calls_eq (a : Accessor) : ∃ call : NvsHandle → EspCall,
    (∀ nvs, a.calls nvs = if nvs.isOpen then [call nvs.handle] else []) ∧
      ∀ handle, (call handle).accessed = some handle := by
  cases a with
  | setString key value res =>
    exact ⟨(.nvsSetStr · key (cString value) res), ifOpen_calls espFail res _, fun _ => rfl⟩
  | getString key buffer length got =>
    exact ⟨(.nvsGetStr · key length got.buffer.toList got.res),
      ifOpen_calls (espFail, buffer, length) (got.res, got.buffer, got.length) _, fun _ => rfl⟩
  | setBool key value res =>
    exact ⟨(.nvsSetU8 · key (if value then 1 else 0) res), ifOpen_calls espFail res _,
      fun _ => rfl⟩
  | getBool key value got =>
    exact ⟨(.nvsGetU8 · key got.value got.res), ifOpen_calls (espFail, value) _ _, fun _ => rfl⟩
  | setBlob key buffer length res =>
    exact ⟨(.nvsSetBlob · key (buffer.take length) res), ifOpen_calls espFail res _, fun _ => rfl⟩
  | getBlob key buffer length got =>
    exact ⟨(.nvsGetBlob · key length got.buffer.toList got.res),
      ifOpen_calls (espFail, buffer) (got.res, got.buffer) _, fun _ => rfl⟩
  | commit res => exact ⟨(.nvsCommit · res), ifOpen_calls espFail res _, fun _ => rfl⟩

/-- An accessor calls nothing while the flag is down. -/
theorem Accessor.calls_closed (a : Accessor) {nvs : Nvs} (h : nvs.isOpen = false) :
    a.calls nvs = [] := by
  obtain ⟨call, hcalls, -⟩ := a.calls_eq
  rw [hcalls, h, if_neg Bool.false_ne_true]

/-- While it is up, an accessor passes the handle on once. -/
theorem Accessor.calls_open (a : Accessor) {nvs : Nvs} (h : nvs.isOpen = true) :
    ∃ call, a.calls nvs = [call] ∧ call.accessed = some nvs.handle := by
  obtain ⟨call, hcalls, hpassed⟩ := a.calls_eq
  refine ⟨call nvs.handle, ?_, hpassed nvs.handle⟩
  rw [hcalls, h, if_pos rfl]

/-! ## §2 Handles -/

/-- What a sequence of calls leaves of the handles. -/
structure Handles where
  /-- The handle of the last `nvs_open`, if that succeeded and it was not closed since. -/
  live : Option NvsHandle := none
  /-- Every handle that was opened and not closed. -/
  opened : List NvsHandle := []
  deriving DecidableEq, Repr

/-- A call opens a handle, closes one, or leaves them alone. Only `nvs_close`
counts as closing. -/
def EspCall.note : EspCall → Handles → Handles
  | .nvsOpen res handle, hs =>
    if res = espOk then { live := some handle, opened := handle :: hs.opened }
    else { hs with live := none }
  | .nvsClose handle, hs =>
    { live := if hs.live = some handle then none else hs.live
      opened := hs.opened.erase handle }
  | _, hs => hs

/-- An accessor's call passes an open handle on. -/
def EspCall.OnOpened (call : EspCall) (hs : Handles) : Prop :=
  ∀ handle, call.accessed = some handle → handle ∈ hs.opened

/-- An accessor's call leaves the handles alone. -/
theorem note_of_accessed {call : EspCall} {handle : NvsHandle} (h : call.accessed = some handle)
    (hs : Handles) : call.note hs = hs := by
  cases call with
  | nvsOpen res handle => exact nomatch h
  | nvsClose handle => exact nomatch h
  | _ => rfl

/-! ## §3 Runs -/

/-- A call of the wrapper, with what the library does there. -/
inductive NvsOp where
  | init (flash flashAgain : Int) (opening : Opening)
  | access (a : Accessor)
  | close

/-- The statics after the call, and what it calls. -/
def NvsOp.perform (nvs : Nvs) : NvsOp → Nvs × List EspCall
  | .init flash flashAgain opening => (nvsInit flash flashAgain opening).2
  | .access a => (nvs, a.calls nvs)
  | .close => (nvsClose nvs).2

/-- The statics, and every call of the library so far. -/
structure NvsRun where
  nvs : Nvs := {}
  calls : List EspCall := []

/-- One call of the wrapper. -/
def nvsStep (op : NvsOp) (s : NvsRun) : NvsRun where
  nvs := (op.perform s.nvs).1
  calls := s.calls ++ (op.perform s.nvs).2

/-- The handles after all the calls. -/
def NvsRun.handles (s : NvsRun) : Handles := run EspCall.note s.calls {}

/-- The flag is up exactly while the handle of the last `nvs_open` is open. -/
def FlagTracks (s : NvsRun) : Prop := s.nvs.isOpen = true ↔ ∃ handle, s.handles.live = some handle

/-- The flag tracks the handle throughout a run, and what follows from it. -/
structure HandleTracked (ops : List NvsOp) : Prop where
  flag : ∀ ms, ms <+: ops → FlagTracks (run nvsStep ms {})
  onOpened : Along EspCall.note EspCall.OnOpened (run nvsStep ops {}).calls {}
  closed : ∀ ms, ms ++ [.close] <+: ops →
    (run nvsStep (ms ++ [.close]) {}).handles.opened = []

/-- `nvs_open` succeeds, and `_nvs_close` finds the flag down. -/
def Sound : NvsOp → NvsRun → Prop
  | .init _ _ opening, _ => opening.res = espOk
  | .access _, _ => True
  | .close, s => s.nvs.isOpen = false

/-- The flag and the handles, as long as they agree. -/
inductive Matches (nvs : Nvs) (hs : Handles) : Prop
  | closed (flag : nvs.isOpen = false) (live : hs.live = none) (opened : hs.opened = [])
  | opened (flag : nvs.isOpen = true) (live : hs.live = some nvs.handle)
      (mem : nvs.handle ∈ hs.opened)

section Step

variable {s : NvsRun} {op : NvsOp}

theorem Matches.flagTracks (h : Matches s.nvs s.handles) : FlagTracks s := by
  cases h with
  | closed flag live opened =>
    unfold FlagTracks
    rw [flag, live]
    exact ⟨(fun h => nomatch h), fun ⟨_, h⟩ => nomatch h⟩
  | opened flag live mem => exact ⟨fun _ => ⟨_, live⟩, fun _ => flag⟩

theorem handles_step (op : NvsOp) (s : NvsRun) :
    (nvsStep op s).handles = run EspCall.note (op.perform s.nvs).2 s.handles :=
  run_append EspCall.note s.calls (op.perform s.nvs).2 {}

/-- `nvs_init` leaves the handles as `nvs_open` does. -/
theorem handles_init (flash flashAgain : Int) (opening : Opening) (s : NvsRun) :
    (nvsStep (.init flash flashAgain opening) s).handles =
      (EspCall.nvsOpen opening.res opening.handle).note s.handles := by
  rw [handles_step]
  unfold NvsOp.perform nvsInit
  dsimp only
  by_cases hflash : flash ≠ espOk
  · rw [if_pos hflash]
    rfl
  · rw [if_neg hflash]
    rfl

/-- An accessor leaves them alone. -/
theorem handles_access (a : Accessor) (s : NvsRun) :
    (nvsStep (.access a) s).handles = s.handles := by
  rw [handles_step]
  change run EspCall.note (a.calls s.nvs) s.handles = s.handles
  cases hflag : s.nvs.isOpen with
  | false => rw [a.calls_closed hflag, run_nil]
  | true =>
    obtain ⟨call, hcalls, hpassed⟩ := a.calls_open hflag
    rw [hcalls, run_cons, run_nil, note_of_accessed hpassed]

/-- While the flag is up, `_nvs_close` leaves them alone as well. -/
theorem handles_close_up (h : s.nvs.isOpen = true) : (nvsStep .close s).handles = s.handles := by
  rw [handles_step]
  unfold NvsOp.perform nvsClose
  dsimp only
  rw [if_neg (by rw [h]; decide), run_nil]

/-- While it is down, there is nothing to close. -/
theorem handles_close_down (h : s.nvs.isOpen = false) (hlive : s.handles.live = none)
    (hopened : s.handles.opened = []) : (nvsStep .close s).handles = s.handles := by
  rw [handles_step]
  unfold NvsOp.perform nvsClose
  dsimp only
  rw [if_pos (by rw [h]; rfl), run_cons, run_nil]
  unfold EspCall.note
  dsimp only
  rw [hlive, hopened, if_neg (fun h => nomatch h), List.erase_nil]
  exact (congrArg₂ Handles.mk hlive hopened).symm

/-- A sound call leaves the flag and the handles in agreement. -/
theorem Matches.step (h : Matches s.nvs s.handles) (hsound : Sound op s) :
    Matches (nvsStep op s).nvs (nvsStep op s).handles := by
  cases op with
  | init flash flashAgain opening =>
    have hres : opening.res = espOk := hsound
    rw [handles_init]
    unfold EspCall.note
    dsimp only
    rw [if_pos hres]
    exact .opened rfl rfl List.mem_cons_self
  | access a =>
    rw [handles_access]
    exact h
  | close =>
    have hdown : s.nvs.isOpen = false := hsound
    cases h with
    | closed flag live opened =>
      rw [handles_close_down flag live opened]
      exact .closed rfl live opened
    | opened flag live mem => exact absurd (flag.symm.trans hdown) (by decide)

/-- A call that is not sound sets them apart. -/
theorem sound_of_flagTracks (h : Matches s.nvs s.handles) (hflag : FlagTracks (nvsStep op s)) :
    Sound op s := by
  cases op with
  | init flash flashAgain opening =>
    obtain ⟨handle, hlive⟩ := hflag.mp rfl
    rw [handles_init] at hlive
    unfold EspCall.note at hlive
    dsimp only at hlive
    by_contra hres
    have hfailed : ¬ opening.res = espOk := hres
    rw [if_neg hfailed] at hlive
    exact nomatch hlive
  | access a => trivial
  | close =>
    cases h with
    | closed flag live opened => exact flag
    | opened flag live mem =>
      rw [FlagTracks, handles_close_up flag] at hflag
      exact nomatch hflag.mpr ⟨_, live⟩

/-- While they agree, a call passes open handles on only. -/
theorem Matches.onOpened (h : Matches s.nvs s.handles) (op : NvsOp) :
    Along EspCall.note EspCall.OnOpened (op.perform s.nvs).2 s.handles := by
  cases op with
  | init flash flashAgain opening =>
    unfold NvsOp.perform nvsInit
    dsimp only
    by_cases hflash : flash ≠ espOk
    · rw [if_pos hflash]
      exact ⟨(fun _ h => nomatch h), (fun _ h => nomatch h), (fun _ h => nomatch h),
        (fun _ h => nomatch h), trivial⟩
    · rw [if_neg hflash]
      exact ⟨(fun _ h => nomatch h), (fun _ h => nomatch h), trivial⟩
  | access a =>
    change Along EspCall.note EspCall.OnOpened (a.calls s.nvs) s.handles
    cases h with
    | closed flag live opened =>
      rw [a.calls_closed flag]
      trivial
    | opened flag live mem =>
      obtain ⟨call, hcalls, hpassed⟩ := a.calls_open flag
      rw [hcalls]
      refine ⟨fun handle hhandle => ?_, trivial⟩
      obtain rfl : s.nvs.handle = handle := Option.some.inj (hpassed.symm.trans hhandle)
      exact mem
  | close =>
    unfold NvsOp.perform nvsClose
    dsimp only
    split
    · exact ⟨(fun _ h => nomatch h), trivial⟩
    · trivial

end Step

/-- **The flag tracks the handle exactly in the runs in which every
`nvs_open` succeeds and `_nvs_close` finds the flag down.** -/
theorem handleTracked_iff (ops : List NvsOp) : HandleTracked ops ↔ Along nvsStep Sound ops {} := by
  have hstart : Matches ({} : NvsRun).nvs ({} : NvsRun).handles := .closed rfl rfl rfl
  have hstep : ∀ (op : NvsOp) (s : NvsRun), Matches s.nvs s.handles → Sound op s →
      Matches (nvsStep op s).nvs (nvsStep op s).handles := fun _ _ => Matches.step
  have hflag : Along nvsStep Sound ops {} ↔
      (∀ ms, ms <+: ops → FlagTracks (run nvsStep ms {})) ∧
        Along nvsStep (fun _ _ => True) ops {} :=
    along_iff_good (fun _ => Matches.flagTracks) (fun op s h hs => ⟨trivial, hstep op s h hs⟩)
      (fun _ _ h _ => sound_of_flagTracks h) ops hstart
  constructor
  · intro h
    exact hflag.mpr ⟨h.flag, along_true ops _⟩
  · intro h
    refine ⟨(hflag.mp h).1, ?_, ?_⟩
    · -- By induction on the run: each call adds to the calls that were in order.
      have hcalls : ∀ (op : NvsOp) (s : NvsRun),
          Matches s.nvs s.handles ∧ Along EspCall.note EspCall.OnOpened s.calls {} → Sound op s →
          Matches (nvsStep op s).nvs (nvsStep op s).handles ∧
            Along EspCall.note EspCall.OnOpened (nvsStep op s).calls {} :=
        fun op s ⟨hm, hs⟩ hsound => ⟨hm.step hsound, along_append.mpr ⟨hs, hm.onOpened op⟩⟩
      exact (run_invariant hcalls ⟨hstart, trivial⟩ h).2
    · rintro ms ⟨rest, rfl⟩
      obtain ⟨hms, hclose, -⟩ := along_append.mp h.of_append.1
      have hdown : (run nvsStep ms {}).nvs.isOpen = false := hclose
      rw [run_append, run_cons, run_nil]
      cases run_invariant hstep hstart hms with
      | closed flag live opened => rw [handles_close_down flag live opened, opened]
      | opened flag live mem => exact absurd (flag.symm.trans hdown) (by decide)

/-- After `nvs_init` and `_nvs_close` the flag is down and the handle is open;
after an `nvs_open` that fails the flag is up and there is no handle. -/
theorem handleTracked_not_close :
    ¬ HandleTracked [.init espOk espOk ⟨espOk, 1⟩, .close] ∧
      ¬ HandleTracked [.init espOk espOk ⟨0x1101, 0⟩] := by
  constructor
  · intro h
    have hleft := h.closed [.init espOk espOk ⟨espOk, 1⟩] (List.prefix_refl _)
    exact absurd hleft (by decide)
  · intro h
    obtain ⟨handle, hlive⟩ := (h.flag _ (List.prefix_refl _)).mp rfl
    exact nomatch hlive

end Turpial.Storage
