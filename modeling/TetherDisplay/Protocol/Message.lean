import Mathlib.Data.List.Basic

/-!
# Wire protocol v1: messages and frames

The data model of `td::proto` (`wire.hpp`).  A frame is a channel, a type within
the channel, a reserved flags byte and a payload; a message is a frame whose
payload has been interpreted.  Integers keep the width they have on the wire.
An ERROR or DISCONNECT reason is a `std::string`, that is, a string of bytes.
-/

namespace TetherDisplay

/-- A byte buffer (`std::vector<std::uint8_t>`, `std::span`, `Data`). -/
abbrev Bytes := List UInt8

/-- Reading starts inside every buffer. -/
theorem start_le (buf : Bytes) : 0 ≤ buf.length := Nat.zero_le _

/-- Reading starts inside a buffer that is still empty. -/
theorem start_le_nil : 0 ≤ ([] : Bytes).length := start_le []

namespace Protocol

/-- The version of the protocol. -/
def kProtocolVersion : UInt16 := 1

/-- 16 MiB. -/
def kMaxPayload : ℕ := 16 * 1024 * 1024

/-- Channels (the frame's `channel` byte). -/
inductive Channel where
  | control
  | video
  deriving DecidableEq, Repr

/-- `static_cast<std::uint8_t>(channel)`. -/
def Channel.toByte : Channel → UInt8
  | .control => 0
  | .video => 1

/-! ### Control-channel and video-channel type codes -/

namespace Ctrl

def kHello : UInt8 := 0x01
def kWelcome : UInt8 := 0x02
def kError : UInt8 := 0x03
def kKeyframeRequest : UInt8 := 0x10
def kFormatChange : UInt8 := 0x11
def kPing : UInt8 := 0x20
def kPong : UInt8 := 0x21
def kDisconnect : UInt8 := 0x2F

end Ctrl

/-- The one type of the video channel. -/
def Vid.kVideoFrame : UInt8 := 0x01

/-- Decode failure reasons.  `ok` is no error. -/
inductive WireError where
  | ok
  | shortBuffer
  | oversizedMessage
  | unknownChannel
  | unknownType
  | reservedFlagsSet
  | badField
  | trailingBytes
  | unsupportedVersion
  | needMoreData
  deriving DecidableEq, Repr

/-! ### Message structs (decoded form) -/

/-- HELLO. -/
structure Hello where
  protocolVersion : UInt16 := kProtocolVersion
  codecMask : UInt8 := 0
  maxWidth : UInt16 := 0
  maxHeight : UInt16 := 0
  maxBitrateKbps : UInt32 := 0
  maxFps : UInt16 := 0
  featureFlags : UInt8 := 0
  deriving DecidableEq, Repr

/-- WELCOME. -/
structure Welcome where
  protocolVersion : UInt16 := kProtocolVersion
  codecId : UInt8 := 0
  width : UInt16 := 0
  height : UInt16 := 0
  bitrateKbps : UInt32 := 0
  fps : UInt16 := 0
  sessionFlags : UInt8 := 0
  deriving DecidableEq, Repr

/-- ERROR. -/
structure ErrorMsg where
  code : UInt16 := 0
  reason : Bytes := []
  deriving DecidableEq, Repr

/-- KEYFRAME_REQUEST. -/
structure KeyframeRequest where
  reason : UInt8 := 0
  lastGoodSeq : UInt32 := 0
  deriving DecidableEq, Repr

/-- FORMAT_CHANGE, which has the fields of WELCOME. -/
structure FormatChange where
  format : Welcome
  deriving DecidableEq, Repr

/-- PING. -/
structure Ping where
  token : UInt64 := 0
  deriving DecidableEq, Repr

/-- PONG. -/
structure Pong where
  token : UInt64 := 0
  deriving DecidableEq, Repr

/-- DISCONNECT. -/
structure Disconnect where
  code : UInt16 := 0
  reason : Bytes := []
  deriving DecidableEq, Repr

/-- VIDEO_FRAME. -/
structure VideoFrame where
  codecId : UInt8 := 0
  frameType : UInt8 := 0
  vflags : UInt8 := 0
  ptsUs : UInt64 := 0
  seq : UInt32 := 0
  bitstream : Bytes := []
  deriving DecidableEq, Repr

/-- `std::variant` over the message structs. -/
inductive Message where
  | hello (m : Hello)
  | welcome (m : Welcome)
  | errorMsg (m : ErrorMsg)
  | keyframeRequest (m : KeyframeRequest)
  | formatChange (m : FormatChange)
  | ping (m : Ping)
  | pong (m : Pong)
  | disconnect (m : Disconnect)
  | videoFrame (m : VideoFrame)
  deriving DecidableEq, Repr

/-- A parsed but not yet interpreted frame: header fields and payload bytes. -/
structure RawFrame where
  channel : Channel := .control
  type : UInt8 := 0
  flags : UInt8 := 0
  payload : Bytes := []
  deriving DecidableEq, Repr

end Protocol

end TetherDisplay
