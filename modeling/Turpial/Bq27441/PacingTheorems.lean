/-
Turpial.Bq27441.PacingTheorems — how the driver spaces its commands.

The driver keeps two time stamps. `_cmd_update_timestamp` fills the first
and then the second, and from then on overwrites the second;
`_cmd_wait_time` clears both after it has slept. So they are the last two
commands only for the third command after a fresh start or after a sleep,
and a gap of a second leaves the first one behind for good. Where they are
the last two, what is slept is the gap between them, not the rest of the
second.

§1 puts the commands that were really recorded beside the device, §2 is
what the time stamps can be, §3 compares what is waited with what should be.
-/
import Turpial.Bq27441.Driver
import Turpial.Lib.Run

namespace Turpial.Bq27441

open Turpial.Aodvv2 Turpial.Lib

/-! ## §1 Transactions in time -/

/-- A register access that the driver makes. -/
inductive Command where
  | write (reg : UInt8) (data : List UInt8)
  | read (reg : UInt8) (len : Nat)
  deriving DecidableEq, Repr

/-- A command, the time it is asked for, and what it meets on the bus. -/
structure Request where
  time : Nat
  command : Command
  bus : Bus

/-- The device when the command is taken up: not before the one before it
is done, as the bus is acquired first. -/
def Request.start (r : Request) (dev : Device) : Device := { dev with now := max dev.now r.time }

/-- The transaction. -/
def Request.perform (r : Request) (dev : Device) : Int × Device :=
  match r.command with
  | .write reg data => bq27441WriteRegs r.bus reg data (r.start dev)
  | .read reg len =>
    let read := bq27441ReadRegs r.bus reg len (r.start dev)
    (read.1, read.2.2)

/-- When it accesses the bus. -/
def Request.accessTime (r : Request) (dev : Device) : Nat := (cmdWaitTime (r.start dev)).now

/-- The device, and when each transaction was recorded, the last one first. -/
structure Watched where
  device : Device
  recorded : List Nat

/-- A device that was not used so far. -/
def watchedInit (registers : Registers) : Watched := ⟨{ registers := registers }, []⟩

/-- A transaction, and its record. -/
def watchedStep (r : Request) (w : Watched) : Watched where
  device := (r.perform w.device).2
  recorded := (r.perform w.device).2.now :: w.recorded

/-- The transaction is asked for at a time that is not zero, and succeeds. -/
def Regular (r : Request) (w : Watched) : Prop :=
  0 < r.time ∧ (r.perform w.device).1 = bq27441Ok

/-- After two commands less than a second apart, the transaction leaves the
bus alone until a second has passed since the first of them. -/
def Paced (r : Request) (w : Watched) : Prop :=
  ∀ last first rest, w.recorded = last :: first :: rest → last < first + timexSec →
    first + timexSec ≤ r.accessTime w.device

/-- After two commands less than a second apart, the transaction is asked
for late enough: the gap between the two before the second is over where
the time stamps are these two, and not before it is over elsewhere. -/
def AskedLate (r : Request) (w : Watched) : Prop :=
  ∀ last first rest, w.recorded = last :: first :: rest → last < first + timexSec →
    first + timexSec ≤
      if w.device.lastCmd0 = first ∧ w.device.lastCmd1 = last then
        max w.device.now r.time + (last - first)
      else max w.device.now r.time

/-! ## §2 The time stamps -/

/-- A device some time later, with the time stamps as they were. -/
structure Later (dev dev' : Device) : Prop where
  lastCmd0 : dev'.lastCmd0 = dev.lastCmd0
  lastCmd1 : dev'.lastCmd1 = dev.lastCmd1
  now : dev.now ≤ dev'.now

theorem Later.refl (dev : Device) : Later dev dev := ⟨rfl, rfl, Nat.le_refl _⟩

theorem Later.trans {dev dev' dev'' : Device} (h : Later dev dev') (h' : Later dev' dev'') :
    Later dev dev'' :=
  ⟨h'.lastCmd0.trans h.lastCmd0, h'.lastCmd1.trans h.lastCmd1, Nat.le_trans h.now h'.now⟩

theorem later_elapse (dev : Device) (us : Nat) : Later dev (dev.elapse us) :=
  ⟨rfl, rfl, Nat.le_add_right _ _⟩

theorem writeRegsLoop_later (bus : Bus) (reg : UInt8) (data : List UInt8) (i : Nat) (dev : Device) :
    Later dev (writeRegsLoop bus reg i data dev).2 := by
  induction data generalizing i dev with
  | nil => exact Later.refl dev
  | cons byte data ih =>
    unfold writeRegsLoop
    split
    · exact later_elapse dev _
    · refine Later.trans ?_ (ih (i + 1) _)
      exact ⟨rfl, rfl, Nat.le_add_right _ _⟩

theorem readRegsLoop_later (bus : Bus) (reg : UInt8) (len i : Nat) (dev : Device) :
    Later dev (readRegsLoop bus reg i len dev).2.2 := by
  induction len generalizing i dev with
  | zero => exact Later.refl dev
  | succ len ih =>
    unfold readRegsLoop
    split
    · exact later_elapse dev _
    · exact (later_elapse dev _).trans (ih _ _)

/-- A transaction that succeeds waits, accesses the bus, and is recorded. -/
theorem perform_ok {r : Request} {dev : Device} (h : (r.perform dev).1 = bq27441Ok) :
    ∃ dev', Later (cmdWaitTime (r.start dev)) dev' ∧ (r.perform dev).2 = cmdUpdateTimestamp dev' := by
  obtain ⟨time, command, bus⟩ := r
  cases command with
  | write reg data =>
    exact ⟨_, writeRegsLoop_later bus reg data 0 _, (bq27441WriteRegs_ok h).2⟩
  | read reg len =>
    exact ⟨_, readRegsLoop_later bus reg len 0 _, congrArg Prod.snd (bq27441ReadRegs_ok h).2⟩

/-- What the time stamps are, beside the transactions recorded. -/
inductive Stamps (dev : Device) : List Nat → Prop
  /-- No command yet. -/
  | unused (lastCmd0 : dev.lastCmd0 = timexNull) (lastCmd1 : dev.lastCmd1 = timexNull) :
      Stamps dev []
  /-- The last command only: the first one of all, or the first one after a sleep. -/
  | single {last : Nat} {rest : List Nat} (pos : 0 < last) (done : last ≤ dev.now)
      (lastCmd0 : dev.lastCmd0 = last) (lastCmd1 : dev.lastCmd1 = timexNull) :
      Stamps dev (last :: rest)
  /-- The last two commands. -/
  | pair {last first : Nat} {rest : List Nat} (pos : 0 < first) (order : first ≤ last)
      (done : last ≤ dev.now) (lastCmd0 : dev.lastCmd0 = first) (lastCmd1 : dev.lastCmd1 = last) :
      Stamps dev (last :: first :: rest)
  /-- The last command, and one that is a second or more before it. -/
  | behind {last : Nat} {rest : List Nat} (pos : 0 < dev.lastCmd0) (done : last ≤ dev.now)
      (gap : dev.lastCmd0 + timexSec ≤ last) (lastCmd1 : dev.lastCmd1 = last) :
      Stamps dev (last :: rest)

/-- Without two time stamps less than a second apart, the driver does not wait. -/
theorem cmdWaitTime_skips {dev : Device}
    (h : dev.lastCmd0 = timexNull ∨ dev.lastCmd1 = timexNull ∨
      dev.lastCmd0 + timexSec ≤ dev.lastCmd1) : cmdWaitTime dev = dev := by
  refine if_neg ?_
  rintro ⟨hgap, hset0, hset1⟩
  rcases h with h | h | h
  · exact hset0 h
  · exact hset1 h
  · change dev.lastCmd1 - dev.lastCmd0 < timexSec at hgap
    omega

/-- With them, it sleeps as long as they are apart. -/
theorem cmdWaitTime_sleeps {dev : Device} (h0 : 0 < dev.lastCmd0) (h1 : 0 < dev.lastCmd1)
    (hgap : dev.lastCmd1 < dev.lastCmd0 + timexSec) :
    cmdWaitTime dev = ⟨dev.registers, timexNull, timexNull,
      dev.now + (dev.lastCmd1 - dev.lastCmd0)⟩ := by
  refine if_pos ⟨?_, Nat.ne_of_gt h0, Nat.ne_of_gt h1⟩
  have hsec : 0 < timexSec := by decide
  omega

/-- The first time stamp is set where there is none. -/
theorem cmdUpdateTimestamp_first {dev : Device} (h : dev.lastCmd0 = timexNull) :
    cmdUpdateTimestamp dev = ⟨dev.registers, dev.now, timexNull, dev.now⟩ :=
  if_pos h

/-- Otherwise the second one is. -/
theorem cmdUpdateTimestamp_second {dev : Device} (h : 0 < dev.lastCmd0) :
    cmdUpdateTimestamp dev = ⟨dev.registers, dev.lastCmd0, dev.now, dev.now⟩ :=
  if_neg (Nat.ne_of_gt h)

section Step

variable {dev dev' : Device} {recorded : List Nat}

/-- Time passing does not change what the time stamps are. -/
theorem Stamps.later (h : Stamps dev recorded) (hlater : Later dev dev') : Stamps dev' recorded := by
  obtain ⟨hsame0, hsame1, hnow⟩ := hlater
  cases h with
  | unused h0 h1 => exact .unused (hsame0.trans h0) (hsame1.trans h1)
  | single hlast hdone h0 h1 =>
    exact .single hlast (Nat.le_trans hdone hnow) (hsame0.trans h0) (hsame1.trans h1)
  | pair hfirst horder hdone h0 h1 =>
    exact .pair hfirst horder (Nat.le_trans hdone hnow) (hsame0.trans h0) (hsame1.trans h1)
  | behind hset hdone hgap h1 =>
    rw [← hsame0] at hset hgap
    exact .behind hset (Nat.le_trans hdone hnow) hgap (hsame1.trans h1)

/-- What the driver waits: the gap between the last two commands if the time
stamps are these two and less than a second apart, and nothing otherwise. -/
theorem Stamps.waits (h : Stamps dev recorded) :
    (∃ last first rest, recorded = last :: first :: rest ∧ dev.lastCmd0 = first ∧
        dev.lastCmd1 = last ∧
        cmdWaitTime dev = ⟨dev.registers, timexNull, timexNull, dev.now + (last - first)⟩) ∨
      (∀ last first rest, recorded = last :: first :: rest → last < first + timexSec →
        ¬ (dev.lastCmd0 = first ∧ dev.lastCmd1 = last)) ∧ cmdWaitTime dev = dev := by
  cases h with
  | unused h0 h1 =>
    refine Or.inr ⟨fun last first rest heq => ?_, cmdWaitTime_skips (Or.inl h0)⟩
    cases heq
  | single hlast hdone h0 h1 =>
    refine Or.inr ⟨fun last first rest heq _ htracks => ?_, cmdWaitTime_skips (Or.inr (Or.inl h1))⟩
    cases heq
    rw [h1] at htracks
    exact absurd htracks.2.symm (Nat.ne_of_gt hlast)
  | @pair last first rest hfirst horder hdone h0 h1 =>
    by_cases hgap : last < first + timexSec
    · refine Or.inl ⟨last, first, rest, rfl, h0, h1, ?_⟩
      subst h0 h1
      exact cmdWaitTime_sleeps hfirst (Nat.lt_of_lt_of_le hfirst horder) hgap
    · refine Or.inr ⟨fun last' first' rest' heq hless => ?_, cmdWaitTime_skips ?_⟩
      · cases heq
        exact absurd hless hgap
      · rw [h0, h1]
        exact Or.inr (Or.inr (Nat.le_of_not_lt hgap))
  | @behind last rest hset hdone hgap h1 =>
    refine Or.inr ⟨fun last' first' rest' heq hless htracks => ?_, cmdWaitTime_skips ?_⟩
    · cases heq
      rw [htracks.1] at hgap
      exact absurd hless (Nat.not_lt.mpr hgap)
    · rw [h1]
      exact Or.inr (Or.inr hgap)

/-- What is recorded behind a driver that has not waited. -/
theorem Stamps.record (h : Stamps dev recorded) (hpos : 0 < dev.now)
    (hgap : ∀ last first rest, recorded = last :: first :: rest → dev.lastCmd0 = first →
      dev.lastCmd1 = last → first + timexSec ≤ last) :
    Stamps (cmdUpdateTimestamp dev) (dev.now :: recorded) := by
  cases h with
  | unused h0 h1 =>
    rw [cmdUpdateTimestamp_first h0]
    exact .single hpos (Nat.le_refl _) rfl rfl
  | @single last rest hlast hdone h0 h1 =>
    rw [cmdUpdateTimestamp_second (by omega)]
    exact .pair hlast hdone (Nat.le_refl _) h0 rfl
  | @pair last first rest hfirst horder hdone h0 h1 =>
    have hlong := hgap last first rest rfl h0 h1
    rw [cmdUpdateTimestamp_second (by omega)]
    exact .behind (by dsimp only; omega) (Nat.le_refl _) (by dsimp only; omega) rfl
  | @behind last rest hset hdone hlong h1 =>
    rw [cmdUpdateTimestamp_second hset]
    exact .behind hset (Nat.le_refl _) (Nat.le_trans hlong hdone) rfl

theorem cmdUpdateTimestamp_now (dev : Device) : (cmdUpdateTimestamp dev).now = dev.now := by
  unfold cmdUpdateTimestamp
  split
  · rfl
  · rfl

variable {r : Request} {w : Watched}

theorem start_later (r : Request) (dev : Device) : Later dev (r.start dev) :=
  ⟨rfl, rfl, Nat.le_max_left _ _⟩

/-- The time stamps after a transaction. -/
theorem Stamps.step (h : Stamps w.device w.recorded) (hr : Regular r w) :
    Stamps (watchedStep r w).device (watchedStep r w).recorded := by
  obtain ⟨hpos, hok⟩ := hr
  obtain ⟨dev', hlater, hdone⟩ := perform_ok hok
  have hstart := h.later (start_later r w.device)
  have htime : r.time ≤ (r.start w.device).now := Nat.le_max_right _ _
  unfold watchedStep
  dsimp only
  rw [hdone, cmdUpdateTimestamp_now]
  rcases hstart.waits with ⟨last, first, rest, hrec, -, -, hwait⟩ | ⟨hno, hwait⟩
  · rw [hwait] at hlater
    have hnow := hlater.now
    dsimp only at hnow
    rw [cmdUpdateTimestamp_first hlater.lastCmd0]
    exact .single (by omega) (Nat.le_refl _) rfl rfl
  · rw [hwait] at hlater
    have hnow := hlater.now
    refine (hstart.later hlater).record (by omega) fun last first rest hrec h0 h1 => ?_
    by_contra hless
    refine hno last first rest hrec (Nat.lt_of_not_le hless) ⟨?_, ?_⟩
    · exact hlater.lastCmd0.symm.trans h0
    · exact hlater.lastCmd1.symm.trans h1

/-- What the driver waits, by the time stamps: it comes late enough exactly
if it is asked late enough. -/
theorem Stamps.paced_iff_askedLate (h : Stamps w.device w.recorded) :
    Paced r w ↔ AskedLate r w := by
  have hstart := h.later (start_later r w.device)
  unfold Paced AskedLate Request.accessTime
  refine forall_congr' fun last => forall_congr' fun first => forall_congr' fun rest =>
    forall_congr' fun hrec => forall_congr' fun hless => ?_
  rcases hstart.waits with ⟨last', first', rest', hrec', h0, h1, hwait⟩ | ⟨hno, hwait⟩
  · rw [hrec] at hrec'
    cases hrec'
    rw [hwait, if_pos ⟨h0, h1⟩]
    exact Iff.rfl
  · have hother : ¬ (w.device.lastCmd0 = first ∧ w.device.lastCmd1 = last) :=
      hno last first rest hrec hless
    rw [hwait, if_neg hother]
    exact Iff.rfl

end Step

/-! ## §3 Runs -/

/-- **The driver spaces its commands exactly in the runs in which every
transaction is asked for late enough.** -/
theorem paced_iff (registers : Registers) (requests : List Request)
    (h : Along watchedStep Regular requests (watchedInit registers)) :
    Along watchedStep Paced requests (watchedInit registers) ↔
      Along watchedStep AskedLate requests (watchedInit registers) := by
  have hstep : ∀ (r : Request) (w : Watched), Stamps w.device w.recorded → Regular r w →
      Stamps (watchedStep r w).device (watchedStep r w).recorded := fun _ _ => Stamps.step
  have hpaced : ∀ (r : Request) (w : Watched), Stamps w.device w.recorded → Regular r w →
      (Paced r w ↔ AskedLate r w) := fun _ _ h _ => h.paced_iff_askedLate
  exact along_congr_along hstep hpaced (.unused rfl rfl) h

/-- A command for one register, asked for at a time. -/
def sampleRequest (time : Nat) : Request where
  time := time
  command := .read 4 1
  bus := fun _ => ⟨0, 0⟩

/-- Three commands, the second six tenths of a second after the first: a third
one asked for right after it is held up for longer than the second that is left. -/
theorem paced_three :
    Along watchedStep Regular
        [sampleRequest 1000000, sampleRequest 1600000, sampleRequest 1700000]
        (watchedInit fun _ => 0) ∧
      Along watchedStep Paced
        [sampleRequest 1000000, sampleRequest 1600000, sampleRequest 1700000]
        (watchedInit fun _ => 0) := by
  have hregular : Along watchedStep Regular
      [sampleRequest 1000000, sampleRequest 1600000, sampleRequest 1700000]
      (watchedInit fun _ => 0) := by
    refine ⟨⟨by decide, ?_⟩, ⟨by decide, ?_⟩, ⟨by decide, ?_⟩, trivial⟩
    all_goals decide
  refine ⟨hregular, (paced_iff _ _ hregular).mpr ⟨?_, ?_, ?_, trivial⟩⟩
  · intro last first rest hrec
    cases hrec
  · intro last first rest hrec
    cases hrec
  · intro last first rest hrec hless
    cases hrec
    decide

/-- Three commands a tenth of a second apart: the third one is held up for a
tenth of a second. -/
theorem paced_not_three :
    Along watchedStep Regular
        [sampleRequest 1000000, sampleRequest 1100000, sampleRequest 1200000]
        (watchedInit fun _ => 0) ∧
      ¬ Along watchedStep Paced
        [sampleRequest 1000000, sampleRequest 1100000, sampleRequest 1200000]
        (watchedInit fun _ => 0) := by
  constructor
  · refine ⟨⟨by decide, ?_⟩, ⟨by decide, ?_⟩, ⟨by decide, ?_⟩, trivial⟩
    all_goals decide
  · intro h
    have hthird := h.2.2.1 1100066 1000066 [] (by decide) (by decide)
    exact absurd hthird (by decide)

end Turpial.Bq27441
