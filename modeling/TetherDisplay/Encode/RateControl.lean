import Mathlib.Tactic.Common
import TetherDisplay.Encode.Encoder
import TetherDisplay.Foundations.Words

/-!
# The rate-control plan

`PlanRateControl` bounds the requested bitrates by the ceiling and sizes the buffer of the
hypothetical decoder, and the encoder hands the plan to NVENC in bits instead of kilobits.  The
products are formed in 32 bits.  Under a ceiling of at most 4294967 kbit/s no product wraps
(`averageBitRate_toNat`), so the plan is what it says over the natural numbers.
-/

namespace TetherDisplay.Encode

/-- A plan. -/
structure RateControlPlan where
  averageBitrateKbps : UInt32 := 0
  maxBitrateKbps : UInt32 := 0
  vbvBufferSizeBits : UInt32 := 0
  vbvInitialDelayBits : UInt32 := 0
  frameIntervalP : UInt32 := 1
  infiniteGop : Bool := true
  deriving DecidableEq, Repr

/-- `PlanRateControl`. -/
def planRateControl (cfg : EncoderConfig) (ceilingKbps : UInt32) : RateControlPlan :=
  let hardCap := min cfg.maxBitrateKbps ceilingKbps
  let average := min cfg.targetBitrateKbps hardCap
  let fps := max cfg.fps 1
  let avgBitsPerSec : UInt64 := average.toUInt64 * 1000
  let oneFrame := (avgBitsPerSec / fps.toUInt64).toUInt32
  -- One frame's worth of bits, or one second's where the delay does not matter.
  let vbv := if cfg.lowLatency then oneFrame else avgBitsPerSec.toUInt32
  { averageBitrateKbps := average
    maxBitrateKbps := hardCap
    vbvBufferSizeBits := vbv
    vbvInitialDelayBits := vbv
    frameIntervalP := 1
    infiniteGop := true }

/-- The rate-control fields of `NV_ENC_CONFIG`. -/
structure NvencRateControl where
  averageBitRate : UInt32
  maxBitRate : UInt32
  vbvBufferSize : UInt32
  vbvInitialDelay : UInt32
  deriving DecidableEq, Repr

/-- The plan with the default ceiling, as the encoder passes it to NVENC. -/
def nvencRateControl (cfg : EncoderConfig) : NvencRateControl :=
  let plan := planRateControl cfg kUsb2VideoCeilingKbps
  { averageBitRate := plan.averageBitrateKbps * 1000
    maxBitRate := plan.maxBitrateKbps * 1000
    vbvBufferSize := plan.vbvBufferSizeBits
    vbvInitialDelay := plan.vbvInitialDelayBits }

/-! ## The plan over the natural numbers -/

variable (cfg : EncoderConfig)

@[simp] theorem toNat_maxBitrateKbps (ceilingKbps : UInt32) :
    (planRateControl cfg ceilingKbps).maxBitrateKbps.toNat =
      min cfg.maxBitrateKbps.toNat ceilingKbps.toNat :=
  Words.toNat_min _ _

@[simp] theorem toNat_averageBitrateKbps (ceilingKbps : UInt32) :
    (planRateControl cfg ceilingKbps).averageBitrateKbps.toNat =
      min cfg.targetBitrateKbps.toNat (min cfg.maxBitrateKbps.toNat ceilingKbps.toNat) := by
  rw [← Words.toNat_min, ← Words.toNat_min]
  rfl

/-- The bits of so few kilobits can be counted. -/
theorem toNat_mul_thousand {kbps : UInt32} (h : kbps.toNat ≤ 4294967) :
    (kbps * 1000).toNat = kbps.toNat * 1000 := by
  rw [UInt32.toNat_mul]
  exact Nat.mod_eq_of_lt (show kbps.toNat * 1000 < 2 ^ 32 by omega)

/-- The products fit under the default ceiling. -/
theorem averageBitRate_toNat : (nvencRateControl cfg).averageBitRate.toNat =
    (planRateControl cfg kUsb2VideoCeilingKbps).averageBitrateKbps.toNat * 1000 := by
  have hceiling : kUsb2VideoCeilingKbps.toNat = 80000 := rfl
  apply toNat_mul_thousand
  rw [toNat_averageBitrateKbps]
  omega

/-- The maximum in bits. -/
theorem maxBitRate_toNat : (nvencRateControl cfg).maxBitRate.toNat =
    (planRateControl cfg kUsb2VideoCeilingKbps).maxBitrateKbps.toNat * 1000 := by
  have hceiling : kUsb2VideoCeilingKbps.toNat = 80000 := rfl
  apply toNat_mul_thousand
  rw [toNat_maxBitrateKbps]
  omega

/-- One frame's worth of bits, the division rounded down. -/
theorem vbvBufferSizeBits_toNat (hlow : cfg.lowLatency = true) (hfps : 1 ≤ cfg.fps.toNat)
    {ceilingKbps : UInt32} (h : ceilingKbps.toNat ≤ 4294967) :
    (planRateControl cfg ceilingKbps).vbvBufferSizeBits.toNat =
      (planRateControl cfg ceilingKbps).averageBitrateKbps.toNat * 1000 / cfg.fps.toNat := by
  set average := (planRateControl cfg ceilingKbps).averageBitrateKbps with haverage
  have hbound : average.toNat ≤ 4294967 := by
    rw [haverage, toNat_averageBitrateKbps]
    omega
  have hmax : max cfg.fps 1 = cfg.fps := by
    apply UInt32.toNat_inj.mp
    rw [Words.toNat_max]
    exact max_eq_left hfps
  have hbits : (average.toUInt64 * 1000).toNat = average.toNat * 1000 := by
    rw [UInt64.toNat_mul, UInt32.toNat_toUInt64]
    exact Nat.mod_eq_of_lt (show average.toNat * 1000 < 2 ^ 64 by omega)
  have hvbv : (planRateControl cfg ceilingKbps).vbvBufferSizeBits =
      (average.toUInt64 * 1000 / cfg.fps.toUInt64).toUInt32 := by
    simp only [planRateControl, hlow, if_true, hmax, haverage]
  have hquotient : average.toNat * 1000 / cfg.fps.toNat < 2 ^ 32 :=
    Nat.lt_of_le_of_lt (Nat.div_le_self _ _) (by omega)
  rw [hvbv, UInt64.toNat_toUInt32, UInt64.toNat_div, UInt32.toNat_toUInt64, hbits,
    Nat.mod_eq_of_lt hquotient]

end TetherDisplay.Encode
