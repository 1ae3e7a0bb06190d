import TetherDisplay.Core.Config
import TetherDisplay.Encode.RateControl

/-!
# From the configuration file to the encoder

`StreamLoop` copies the parsed settings into the encoder's configuration once, before its loop.
The settings have been clamped, so whatever the file says, the plan made of them stays within the
USB-2 budget.
-/

namespace TetherDisplay.Ui

open TetherDisplay.Core (Config)
open TetherDisplay.Core.Config (parseConfig)
open Encode (EncoderConfig planRateControl nvencRateControl kUsb2VideoCeilingKbps)

/-- The configuration that the worker hands to the encoder, for a display of this size. -/
def encoderConfig (cfg : Config) (width height : UInt32) : EncoderConfig where
  codec := if cfg.useHevc then .hevc else .h264
  width := width
  height := height
  fps := cfg.fps
  targetBitrateKbps := cfg.targetBitrateKbps
  maxBitrateKbps := cfg.maxBitrateKbps

/-- The ranges that the parser leaves the settings in. -/
theorem parseConfig_ranges (text : Bytes) :
    let cfg := parseConfig text
    5000 ≤ cfg.targetBitrateKbps.toNat ∧
      cfg.targetBitrateKbps.toNat ≤ cfg.maxBitrateKbps.toNat ∧
      cfg.maxBitrateKbps.toNat ≤ 80000 ∧ 1 ≤ cfg.fps.toNat ∧ cfg.fps.toNat ≤ 240 := by
  have h := Core.Config.parseConfig_settings text
  simp only [Core.Config.settings, Core.Config.Settings.clamp,
    Core.Config.Settings.mk.injEq] at h
  obtain ⟨-, -, htarget, hmax, hfps⟩ := h
  simp only [htarget, hmax, hfps]
  omega

/-- **No file takes the plan past the USB-2 budget**: the bitrates are in range, the products that
NVENC is given do not wrap, and the buffer is one frame's worth of bits and never empty. -/
theorem plan_within_budget (text : Bytes) (width height : UInt32) :
    let ec := encoderConfig (parseConfig text) width height
    let plan := planRateControl ec kUsb2VideoCeilingKbps
    let nvenc := nvencRateControl ec
    (5000 ≤ plan.averageBitrateKbps.toNat ∧
        plan.averageBitrateKbps.toNat ≤ plan.maxBitrateKbps.toNat ∧
        plan.maxBitrateKbps.toNat ≤ 80000) ∧
      (nvenc.averageBitRate.toNat = plan.averageBitrateKbps.toNat * 1000 ∧
        nvenc.maxBitRate.toNat = plan.maxBitrateKbps.toNat * 1000) ∧
      (1 ≤ ec.fps.toNat ∧ ec.fps.toNat ≤ 240) ∧
      (nvenc.vbvBufferSize.toNat = plan.averageBitrateKbps.toNat * 1000 / ec.fps.toNat ∧
        nvenc.vbvInitialDelay = nvenc.vbvBufferSize ∧
        nvenc.vbvBufferSize = plan.vbvBufferSizeBits ∧ plan.vbvBufferSizeBits ≠ 0) := by
  intro ec plan nvenc
  obtain ⟨hlow, hle, hhigh, hslow, hfast⟩ := parseConfig_ranges text
  have hceiling : kUsb2VideoCeilingKbps.toNat = 80000 := rfl
  have haverage : plan.averageBitrateKbps.toNat = (parseConfig text).targetBitrateKbps.toNat := by
    rw [Encode.toNat_averageBitrateKbps]
    show min (parseConfig text).targetBitrateKbps.toNat
      (min (parseConfig text).maxBitrateKbps.toNat kUsb2VideoCeilingKbps.toNat) = _
    omega
  have hmax : plan.maxBitrateKbps.toNat = (parseConfig text).maxBitrateKbps.toNat := by
    rw [Encode.toNat_maxBitrateKbps]
    show min (parseConfig text).maxBitrateKbps.toNat kUsb2VideoCeilingKbps.toNat = _
    omega
  have hvbv : plan.vbvBufferSizeBits.toNat =
      plan.averageBitrateKbps.toNat * 1000 / ec.fps.toNat :=
    Encode.vbvBufferSizeBits_toNat ec rfl hslow (by rw [hceiling]; decide)
  have hpos : plan.vbvBufferSizeBits ≠ 0 := by
    intro hzero
    rw [hzero, haverage] at hvbv
    -- At least 5000000 bits a second, and at most 240 frames.
    have hfps : ec.fps.toNat ≤ (parseConfig text).targetBitrateKbps.toNat * 1000 :=
      hfast.trans (by omega)
    exact absurd hvbv.symm (Nat.div_pos hfps hslow).ne'
  refine ⟨⟨?_, ?_, ?_⟩, ⟨Encode.averageBitRate_toNat ec, Encode.maxBitRate_toNat ec⟩,
    ⟨hslow, hfast⟩, hvbv, rfl, rfl, hpos⟩
  · rwa [haverage]
  · rwa [haverage, hmax]
  · rwa [hmax]

end TetherDisplay.Ui
