/-
Turpial.Aodvv2.Message — the vocabulary of the AODVv2 module: time and
configuration, sequence numbers, metrics, and the message record
(`net/aodvv2/{conf,seqnum,metric,rfc5444}.h` with `aodvv2_seqnum.c` and
`aoddv2_metric.c`).

Translation notes.

* Time is microseconds as a `Nat`: `timex_cmp`, `timex_add` and
  `timex_sub` are comparison, addition and subtraction. One handler runs
  at one instant, although the source reads the clock at every lookup.
* The compile-time options a function reads are the fields of `Conf`.
  `Conf.default` is the configuration the repository ships.
* Widths that the code can overflow are kept: metrics, prefix lengths and
  hop limits are `UInt8`, sequence numbers `UInt16`. The metric limit is
  compared in `Int`, as C promotes both operands.
* `routing_metric_t` is an enumeration that the reader fills straight
  from a TLV type extension, so it is the byte and not only its named
  values.
-/
import Turpial.Riot.Ipv6

namespace Turpial.Aodvv2

/-! ## Time and configuration -/

/-- `timex_t`, in microseconds. -/
abbrev Timex := Nat

/-- `timex_set(seconds, microseconds)`. -/
def timexSet (seconds microseconds : Nat) : Timex := seconds * 1000000 + microseconds

/-- The compile-time options the module reads. -/
structure Conf where
  /-- `CONFIG_AODVV2_ACTIVE_INTERVAL`, in seconds. -/
  activeIntervalSec : Nat
  /-- `CONFIG_AODVV2_MAX_IDLETIME`, in seconds. -/
  maxIdletimeSec : Nat
  /-- `CONFIG_AODVV2_MAX_SEQNUM_LIFETIME`, in seconds. -/
  maxSeqnumLifetimeSec : Nat
  /-- `CONFIG_METRIC_HOP_COUNT_AODVV2_MAX`. -/
  metricHopCountMax : UInt8
  deriving DecidableEq, Repr

/-- The values of `conf.h` and `metric.h`. -/
def Conf.default : Conf where
  activeIntervalSec := 5
  maxIdletimeSec := 200
  maxSeqnumLifetimeSec := 300
  metricHopCountMax := 255

/-- The static `active_interval` of the Local Route Set. -/
def Conf.activeInterval (cfg : Conf) : Timex := timexSet cfg.activeIntervalSec 0

/-- The static `max_seqnum_lifetime`. -/
def Conf.maxSeqnumLifetime (cfg : Conf) : Timex := timexSet cfg.maxSeqnumLifetimeSec 0

/-- The static `validity_t`. -/
def Conf.validity (cfg : Conf) : Timex :=
  timexSet (cfg.activeIntervalSec + cfg.maxIdletimeSec) 0

/-! ## Sequence numbers -/

/-- `aodvv2_seqnum_t`. -/
abbrev SeqNum := UInt16

/-- `aodvv2_seqnum_cmp`: negative when `received` is older than
`existing`, positive when it is newer. The cast to `int16_t` makes this
serial-number arithmetic. -/
def seqnumCmp (existing received : SeqNum) : Int := (received - existing).toBitVec.toInt

@[simp] theorem seqnumCmp_self (s : SeqNum) : seqnumCmp s s = 0 := by
  simp [seqnumCmp]

theorem seqnumCmp_eq_zero_iff {s t : SeqNum} : seqnumCmp s t = 0 ↔ s = t := by
  constructor
  · intro h
    have hz : (t - s).toBitVec = 0#16 := BitVec.eq_of_toInt_eq (by simpa [seqnumCmp] using h)
    have ht : t - s = 0 := UInt16.toBitVec_inj.mp hz
    simpa using (UInt16.sub_eq_iff_eq_add.mp ht).symm
  · rintro rfl
    exact seqnumCmp_self s

/-- Swapping the arguments turns the comparison round, but for numbers that
are half the number space apart: each of these is older than the other. -/
theorem seqnumCmp_neg_iff {s t : SeqNum} :
    seqnumCmp t s < 0 ↔ 0 < seqnumCmp s t ∨ seqnumCmp s t = -32768 := by
  unfold seqnumCmp
  rw [UInt16.toBitVec_sub, BitVec.toInt_eq_toNat_cond, BitVec.toNat_sub, UInt16.toBitVec_sub,
    BitVec.toInt_eq_toNat_cond, BitVec.toNat_sub]
  have hs := s.toBitVec.isLt
  have ht := t.toBitVec.isLt
  split <;> split <;> omega

/-- `atomic_uint_fast32_t seqnum` as one thread sees it. -/
abbrev SeqCounter := UInt32

/-- `aodvv2_seqnum_init`. -/
def seqnumInit : SeqCounter := 1

/-- `aodvv2_seqnum_get`. -/
def seqnumGet (c : SeqCounter) : SeqNum := c.toUInt16

/-- `aodvv2_seqnum_inc`, run without interruption. -/
def seqnumInc (c : SeqCounter) : SeqCounter := if c ≥ 65535 then 1 else c + 1

/-- Incrementing always moves the counter. -/
theorem seqnumInc_ne (c : SeqCounter) : seqnumInc c ≠ c := by
  unfold seqnumInc
  split
  · rintro rfl
    contradiction
  · intro h
    simp at h

/-! ## Metrics -/

/-- `routing_metric_t`, as the byte the reader stores in it. -/
abbrev RoutingMetric := UInt8

/-- `METRIC_HOP_COUNT`. -/
def metricHopCount : RoutingMetric := 3

/-- `CONFIG_AODVV2_DEFAULT_METRIC`. -/
def defaultMetric : RoutingMetric := metricHopCount

/-- `aodvv2_metric_link_cost`. -/
def metricLinkCost (t : RoutingMetric) : UInt8 := if t = metricHopCount then 1 else 0

/-- `aodvv2_metric_max`. -/
def metricMax (cfg : Conf) (t : RoutingMetric) : UInt8 :=
  if t = metricHopCount then cfg.metricHopCountMax else 0

/-- `aodvv2_metric_update`. -/
def metricUpdate (t : RoutingMetric) (metric : UInt8) : UInt8 :=
  if t = metricHopCount then metric + 1 else metric

/-- The metric-limit test of both end callbacks, done in `int`. -/
def metricLimitReached (cfg : Conf) (t : RoutingMetric) (metric : UInt8) : Bool :=
  decide (((metricMax cfg t).toNat : Int) - (metricLinkCost t).toNat ≤ metric.toNat)

/-- A message below the metric limit is measured in hops, and leaves room
for two more links below the top of the byte. -/
theorem of_not_metricLimitReached {cfg : Conf} {t : RoutingMetric} {metric : UInt8}
    (h : metricLimitReached cfg t metric = false) :
    t = metricHopCount ∧ metric.toNat + 2 ≤ cfg.metricHopCountMax.toNat := by
  unfold metricLimitReached metricMax metricLinkCost at h
  rw [decide_eq_false_iff_not] at h
  by_cases ht : t = metricHopCount
  · simp only [ht, if_true] at h
    refine ⟨ht, ?_⟩
    have h1 : (1 : UInt8).toNat = 1 := rfl
    omega
  · simp only [ht, if_false] at h
    have h0 : (0 : UInt8).toNat = 0 := rfl
    omega

/-! ## Messages -/

/-- `node_data_t`: what a message says about OrigNode or TargNode. -/
@[ext] structure NodeData where
  addr : Ipv6Addr := ipv6AddrUnspecified
  pfxLen : UInt8 := 0
  metric : UInt8 := 0
  seqnum : SeqNum := 0
  deriving DecidableEq, Repr

/-- The guard `pfx_len > 128`. -/
def clampPfxLen (pfxLen : UInt8) : UInt8 := if pfxLen > 128 then 128 else pfxLen

theorem clampPfxLen_le (pfxLen : UInt8) : (clampPfxLen pfxLen).toNat ≤ 128 := by
  unfold clampPfxLen
  split
  · exact Nat.le_refl _
  · rename_i h
    exact UInt8.le_iff_toNat_le.mp (UInt8.not_lt.mp h)

theorem clampPfxLen_of_le {pfxLen : UInt8} (h : pfxLen.toNat ≤ 128) :
    clampPfxLen pfxLen = pfxLen := by
  unfold clampPfxLen
  rw [if_neg (UInt8.not_lt.mpr (UInt8.le_iff_toNat_le.mpr h))]

theorem clampPfxLen_toNat (pfxLen : UInt8) : (clampPfxLen pfxLen).toNat = min pfxLen.toNat 128 := by
  unfold clampPfxLen
  split
  · rename_i h
    exact (Nat.min_eq_right (Nat.le_of_lt (UInt8.lt_iff_toNat_lt.mp h))).symm
  · rename_i h
    exact (Nat.min_eq_left (UInt8.le_iff_toNat_le.mp (UInt8.not_lt.mp h))).symm

@[simp] theorem clampPfxLen_clamp (pfxLen : UInt8) :
    clampPfxLen (clampPfxLen pfxLen) = clampPfxLen pfxLen :=
  clampPfxLen_of_le (clampPfxLen_le pfxLen)

/-- `aodvv2_message_t`. The defaults are the zeroed static record. -/
structure Message where
  msgHopLimit : UInt8 := 0
  sender : Ipv6Addr := ipv6AddrUnspecified
  metricType : RoutingMetric := 0
  origNode : NodeData := {}
  targNode : NodeData := {}
  seqnortr : Ipv6Addr := ipv6AddrUnspecified
  timestamp : Timex := 0
  deriving DecidableEq, Repr

end Turpial.Aodvv2
