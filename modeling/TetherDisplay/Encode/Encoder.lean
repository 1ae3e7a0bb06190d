import TetherDisplay.Protocol.Message

/-!
# The encoder's interface

The data that passes over `IEncoder` (`encoder.hpp`).  The encoder itself drives the
graphics card; what it answers is up to it.
-/

namespace TetherDisplay.Encode

/-- The codecs. -/
inductive Codec where
  | hevc
  | h264
  deriving DecidableEq, Repr

/-- About 80 Mbps, the hard cap. -/
def kUsb2VideoCeilingKbps : UInt32 := 80000

/-- What the encoder is asked for. -/
structure EncoderConfig where
  codec : Codec := .hevc
  width : UInt32 := 0
  height : UInt32 := 0
  fps : UInt32 := 60
  /-- Conservative start, about 50 Mbps. -/
  targetBitrateKbps : UInt32 := 50000
  /-- Hard cap. -/
  maxBitrateKbps : UInt32 := 80000
  lowLatency : Bool := true
  deriving DecidableEq, Repr

/-- One encoded access unit. -/
structure EncodedPacket where
  data : Bytes := []
  isKeyframe : Bool := false
  deriving DecidableEq, Repr

end TetherDisplay.Encode
