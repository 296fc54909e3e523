/-
Turpial.Vaina.ClientTheorems — the pending acknowledgements of the client
of the ESP32 firmware (`wifi/sys/net/vaina/vaina.c`).

`vaina_client_send` counts a request as pending before it writes and sends
it, and does not take it back when either fails. The receiving thread takes
one off for every acknowledgement, as long as one is pending.

§1 is the client, §2 the counter over a run: it is exact if every request
is handed to the socket and fits into the counter, which is an `int`.
-/
import Turpial.Vaina.Peers
import Turpial.Lib.Ledger

namespace Turpial.Vaina.Wifi

open Turpial.Lib

/-! ## §1 The client -/

/-- `_parse_msg`, on the bytes that were received. -/
def parseMsg (buf : List UInt8) : Except Errno VainaMsg :=
  if buf.length < 2 then .error .einval
  else
    let type := buf.getD 0 0
    let seqno := buf.getD 1 0
    if type = vainaMsgAck ∨ type = vainaMsgNack then .ok ⟨type, seqno, Memory.zeroed⟩
    else .error .einval

/-- `_process_msg`, with `_pending_acks` after it. -/
def processMsg (msg : VainaMsg) (pendingAcks : Int) : Except Errno Unit × Int :=
  if msg.msg = vainaMsgAck ∨ msg.msg = vainaMsgNack then
    if pendingAcks > 0 then (.ok (), pendingAcks - 1) else (.ok (), pendingAcks)
  else (.error .einval, pendingAcks)

/-- One turn of `_event_loop`, with `_pending_acks` after it. `pid` is the
process id of the network interface. -/
def eventLoop (pid : Nat) (r : Received) (pendingAcks : Int) : Int :=
  if r.netif ≠ pid ∧ r.netif ≠ 0 then pendingAcks
  else
    match r.buf with
    | none => pendingAcks
    | some buf =>
      match parseMsg buf with
      | .error _ => pendingAcks
      | .ok msg => (processMsg msg pendingAcks).2

/-- `n + 1` as an `int`, which wraps round. -/
def nextInt (n : Int) : Int := (n + 1).bmod (2 ^ 32)

/-- `vaina_client_send`: what it returns, and `_pending_acks` after it.
`sent` is what `sock_udp_send` returns. -/
def vainaClientSend (msg : VainaMsg) (sent : Int) (pendingAcks : Int) : Int × Int :=
  match serializeMsg msg with
  | none => (-1, nextInt pendingAcks)
  | some _ => (sent, nextInt pendingAcks)

/-! ## §2 The counter -/

/-- What happens to the client. -/
inductive ClientEvent where
  | send (msg : VainaMsg) (sent : Int)
  | receive (r : Received)

/-- `_pending_acks` after it. -/
def clientStep (pid : Nat) : ClientEvent → Int → Int
  | .send msg sent, pendingAcks => (vainaClientSend msg sent pendingAcks).2
  | .receive r, pendingAcks => eventLoop pid r pendingAcks

/-- The request is written, and the socket takes it. -/
def HandedOver (msg : VainaMsg) (sent : Int) : Prop := (serializeMsg msg).isSome = true ∧ 0 ≤ sent

instance (msg : VainaMsg) (sent : Int) : Decidable (HandedOver msg sent) :=
  inferInstanceAs (Decidable (_ ∧ _))

/-- A datagram for this interface that is an acknowledgement, good or bad. -/
def IsAck (pid : Nat) (r : Received) : Prop :=
  (r.netif = pid ∨ r.netif = 0) ∧
    ∃ buf ∈ r.buf, 2 ≤ buf.length ∧ (buf.getD 0 0 = vainaMsgAck ∨ buf.getD 0 0 = vainaMsgNack)

instance (pid : Nat) (r : Received) : Decidable (IsAck pid r) :=
  inferInstanceAs (Decidable (_ ∧ ∃ buf ∈ r.buf, _))

/-- What an event adds to the requests that wait for an acknowledgement: one
for each that is handed over, less one for each acknowledgement that comes
while one is pending. -/
def pendingChange (pid : Nat) : ClientEvent → Int → Int
  | .send msg sent, _ => if HandedOver msg sent then 1 else 0
  | .receive r, pendingAcks => if IsAck pid r ∧ pendingAcks > 0 then -1 else 0

/-- A `vaina_client_send` that fails leaves the counter alone. -/
def FailureKeeps : ClientEvent → Int → Prop
  | .send msg sent, pendingAcks =>
    (vainaClientSend msg sent pendingAcks).1 < 0 →
      (vainaClientSend msg sent pendingAcks).2 = pendingAcks
  | .receive _, _ => True

/-- The counter is exact throughout a run, from zero on. -/
structure CounterExact (pid : Nat) (events : List ClientEvent) : Prop where
  exact : ∀ before, before <+: events →
    run (clientStep pid) before 0 = entered (clientStep pid) (pendingChange pid) before 0
  failed : Along (clientStep pid) FailureKeeps events 0
  nonneg : ∀ before, before <+: events → 0 ≤ run (clientStep pid) before 0

/-- A request is handed over, and one more can be counted. -/
def Delivered : ClientEvent → Int → Prop
  | .send msg sent, pendingAcks => HandedOver msg sent ∧ pendingAcks < 2 ^ 31 - 1
  | .receive _, _ => True

section Counter

variable {pid : Nat}

/-- A datagram that is no acknowledgement for this interface is ignored. -/
theorem eventLoop_ignored {r : Received} (h : ¬ IsAck pid r) (pendingAcks : Int) :
    eventLoop pid r pendingAcks = pendingAcks := by
  unfold eventLoop
  by_cases hnetif : r.netif ≠ pid ∧ r.netif ≠ 0
  · rw [if_pos hnetif]
  · rw [if_neg hnetif]
    cases hbuf : r.buf with
    | none => rfl
    | some buf =>
      have herror : parseMsg buf = .error .einval := by
        unfold parseMsg
        by_cases hlen : buf.length < 2
        · rw [if_pos hlen]
        · rw [if_neg hlen]
          dsimp only
          have hfor : r.netif = pid ∨ r.netif = 0 := by
            by_contra hnot
            exact hnetif (not_or.mp hnot)
          exact if_neg fun htype => h ⟨hfor, buf, hbuf, Nat.not_lt.mp hlen, htype⟩
      dsimp only
      rw [herror]

/-- Any other takes one request off, if one is pending. -/
theorem eventLoop_ack {r : Received} (h : IsAck pid r) (pendingAcks : Int) :
    eventLoop pid r pendingAcks = if pendingAcks > 0 then pendingAcks - 1 else pendingAcks := by
  obtain ⟨hfor, buf, hbuf, hlen, htype⟩ := h
  have hparse : parseMsg buf = .ok ⟨buf.getD 0 0, buf.getD 1 0, Memory.zeroed⟩ := by
    unfold parseMsg
    rw [if_neg (Nat.not_lt.mpr hlen)]
    exact if_pos htype
  unfold eventLoop
  rw [if_neg fun hnot => not_or.mpr hnot hfor, hbuf]
  dsimp only
  rw [hparse]
  unfold processMsg
  dsimp only
  rw [if_pos htype]
  split
  · rfl
  · rfl

/-- Receiving accounts for what it does, whatever comes. -/
theorem receive_accounts (r : Received) (pendingAcks : Int) :
    Accounts (clientStep pid) (pendingChange pid) id (.receive r) pendingAcks := by
  change eventLoop pid r pendingAcks = pendingAcks + if IsAck pid r ∧ pendingAcks > 0 then -1 else 0
  by_cases hack : IsAck pid r
  · rw [eventLoop_ack hack]
    by_cases hpending : pendingAcks > 0
    · rw [if_pos hpending, if_pos ⟨hack, hpending⟩]
      rfl
    · rw [if_neg hpending, if_neg fun h => hpending h.2, Int.add_zero]
  · rw [eventLoop_ignored hack, if_neg fun h => hack h.1, Int.add_zero]

/-- The values of an `int`. -/
def FitsInt (n : Int) : Prop := -2 ^ 31 ≤ n ∧ n < 2 ^ 31

/-- Below the largest `int`, the next one is what it should be. -/
theorem nextInt_eq_iff {n : Int} (h : FitsInt n) : nextInt n = n + 1 ↔ n < 2 ^ 31 - 1 := by
  obtain ⟨hlow, hhigh⟩ := h
  unfold nextInt
  rw [Int.bmod_def]
  split
  · omega
  · omega

theorem nextInt_ne (n : Int) : nextInt n ≠ n := by
  unfold nextInt
  rw [Int.bmod_def]
  split
  · omega
  · omega

theorem nextInt_fits (n : Int) : FitsInt (nextInt n) := by
  unfold nextInt FitsInt
  rw [Int.bmod_def]
  split
  · omega
  · omega

/-- A request is counted, whether it can be written or not. -/
theorem vainaClientSend_counts (msg : VainaMsg) (sent pendingAcks : Int) :
    (vainaClientSend msg sent pendingAcks).2 = nextInt pendingAcks := by
  unfold vainaClientSend
  cases serializeMsg msg with
  | none => rfl
  | some buf => rfl

/-- An event accounts for what it does exactly if a request is handed over
and can be counted. -/
theorem clientStep_accounts_iff (ev : ClientEvent) {pendingAcks : Int} (h : FitsInt pendingAcks) :
    Accounts (clientStep pid) (pendingChange pid) id ev pendingAcks ↔ Delivered ev pendingAcks := by
  cases ev with
  | receive r => exact ⟨fun _ => trivial, fun _ => receive_accounts r pendingAcks⟩
  | send msg sent =>
    change (vainaClientSend msg sent pendingAcks).2 =
      pendingAcks + (if HandedOver msg sent then 1 else 0) ↔
        HandedOver msg sent ∧ pendingAcks < 2 ^ 31 - 1
    rw [vainaClientSend_counts]
    by_cases hover : HandedOver msg sent
    · rw [if_pos hover, nextInt_eq_iff h]
      exact (and_iff_right hover).symm
    · rw [if_neg hover, Int.add_zero]
      exact iff_of_false (nextInt_ne pendingAcks) fun hboth => hover hboth.1

/-- The counter stays an `int`. -/
theorem clientStep_fits (ev : ClientEvent) {pendingAcks : Int} (h : FitsInt pendingAcks) :
    FitsInt (clientStep pid ev pendingAcks) := by
  cases ev with
  | send msg sent =>
    change FitsInt (vainaClientSend msg sent pendingAcks).2
    rw [vainaClientSend_counts]
    exact nextInt_fits pendingAcks
  | receive r =>
    change FitsInt (eventLoop pid r pendingAcks)
    by_cases hack : IsAck pid r
    · rw [eventLoop_ack hack]
      split
      · exact ⟨by have := h.1; omega, by have := h.2; omega⟩
      · exact h
    · rw [eventLoop_ignored hack]
      exact h

/-- A request that is handed over is no failure. -/
theorem failureKeeps_of_delivered {ev : ClientEvent} {pendingAcks : Int}
    (h : Delivered ev pendingAcks) : FailureKeeps ev pendingAcks := by
  cases ev with
  | receive r => trivial
  | send msg sent =>
    intro hneg
    obtain ⟨⟨hwritten, hsent⟩, -⟩ := h
    obtain ⟨buf, hbuf⟩ := Option.isSome_iff_exists.mp hwritten
    unfold vainaClientSend at hneg
    rw [hbuf] at hneg
    exact absurd hsent (Int.not_le.mpr hneg)

/-- The counter does not become negative as long as it can count. -/
theorem clientStep_nonneg (ev : ClientEvent) (pendingAcks : Int) (h : 0 ≤ pendingAcks)
    (hcounts : Delivered ev pendingAcks) : 0 ≤ clientStep pid ev pendingAcks := by
  cases ev with
  | send msg sent =>
    have hbelow : pendingAcks < 2 ^ 31 - 1 := hcounts.2
    change 0 ≤ (vainaClientSend msg sent pendingAcks).2
    rw [vainaClientSend_counts, (nextInt_eq_iff ⟨by omega, by omega⟩).mpr hbelow]
    omega
  | receive r =>
    change 0 ≤ eventLoop pid r pendingAcks
    by_cases hack : IsAck pid r
    · rw [eventLoop_ack hack]
      split
      · omega
      · exact h
    · rw [eventLoop_ignored hack]
      exact h

end Counter

/-- **The counter of pending acknowledgements is exact throughout a run
exactly if every request of the run is handed to the socket** while there is
room in the counter. -/
theorem counterExact_iff (pid : Nat) (events : List ClientEvent) :
    CounterExact pid events ↔ Along (clientStep pid) Delivered events 0 := by
  have hbalance : (∀ before, before <+: events →
      run (clientStep pid) before 0 = entered (clientStep pid) (pendingChange pid) before 0) ↔
      Along (clientStep pid) (Accounts (clientStep pid) (pendingChange pid) id) events 0 := by
    rw [← balanced_iff]
    simp only [id, Int.zero_add]
  have hcalls : Along (clientStep pid) (Accounts (clientStep pid) (pendingChange pid) id) events 0 ↔
      Along (clientStep pid) Delivered events 0 :=
    along_congr (fun ev _ => clientStep_fits ev) (fun ev _ => clientStep_accounts_iff ev) events
      ⟨by decide, by decide⟩
  constructor
  · exact fun h => hcalls.mp (hbalance.mp h.exact)
  · intro h
    refine ⟨hbalance.mpr (hcalls.mpr h), ?_, ?_⟩
    · exact h.mono fun ev pendingAcks => failureKeeps_of_delivered
    · rintro before ⟨rest, rfl⟩
      exact run_invariant clientStep_nonneg (Int.le_refl 0) h.of_append.1

/-- A request that the socket does not take stays pending. -/
theorem counterExact_not_failed :
    ¬ CounterExact 5 [.send ⟨vainaMsgRcsAdd, 1, Memory.zeroed⟩ (-1)] := by
  intro h
  exact absurd (h.failed.1 (by decide)) (by decide)

end Turpial.Vaina.Wifi
