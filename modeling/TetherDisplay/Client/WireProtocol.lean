import TetherDisplay.Protocol.Message
import Mathlib.Algebra.Ring.Nat

/-!
# The wire protocol on the iPad

`WireProtocol.swift`, the client's own implementation of protocol v1, with its own
types.  It differs from the host's in what Swift makes different: an ERROR or
DISCONNECT reason is a `String`, so its bytes are decoded as UTF-8 with ill-formed
sequences repaired; positions and lengths are `Int`s; a failed precondition traps
(`none` below); and the parser has no status for wanting more data but answers
`.success(nil)`.  `Data` and `[UInt8]` are byte lists.
-/

namespace TetherDisplay.Client

/-! ## Strings -/

/-- The bytes that may follow a lead byte, as ranges, in well-formed UTF-8. -/
def utf8Tail (lead : UInt8) : List (UInt8 × UInt8) :=
  if 0xC2 ≤ lead ∧ lead ≤ 0xDF then [(0x80, 0xBF)]
  else if lead = 0xE0 then [(0xA0, 0xBF), (0x80, 0xBF)]
  else if lead = 0xED then [(0x80, 0x9F), (0x80, 0xBF)]
  else if 0xE1 ≤ lead ∧ lead ≤ 0xEF then [(0x80, 0xBF), (0x80, 0xBF)]
  else if lead = 0xF0 then [(0x90, 0xBF), (0x80, 0xBF), (0x80, 0xBF)]
  else if 0xF1 ≤ lead ∧ lead ≤ 0xF3 then [(0x80, 0xBF), (0x80, 0xBF), (0x80, 0xBF)]
  else if lead = 0xF4 then [(0x80, 0x8F), (0x80, 0xBF), (0x80, 0xBF)]
  else []

/-- How many bytes of `bs` fall into the ranges, one after another. -/
def utf8Matched : List (UInt8 × UInt8) → Bytes → ℕ
  | (low, high) :: ranges, b :: bs =>
      if low ≤ b ∧ b ≤ high then utf8Matched ranges bs + 1 else 0
  | _, _ => 0

/-- The scalar of a lead byte and its continuation bytes. -/
def utf8Scalar (lead : UInt8) (tail : Bytes) : Char :=
  let top := lead.toNat % 2 ^ (6 - tail.length)
  Char.ofNat (tail.foldl (fun v b => 64 * v + b.toNat % 64) top)

/-- Decoding with repair: every maximal subpart of an ill-formed sequence becomes
U+FFFD.  Each round takes a byte at least, so `fuel` is the number of bytes. -/
def utf8Repaired : ℕ → Bytes → List Char
  | fuel + 1, lead :: bs =>
      let ranges := utf8Tail lead
      let n := utf8Matched ranges bs
      if lead < 0x80 then Char.ofNat lead.toNat :: utf8Repaired fuel bs
      else if ranges ≠ [] ∧ n = ranges.length then
        utf8Scalar lead (bs.take n) :: utf8Repaired fuel (bs.drop n)
      else Char.ofNat 0xFFFD :: utf8Repaired fuel (bs.drop n)
  | _, _ => []

/-- `String(decoding: b, as: UTF8.self)`. -/
def stringDecoding (b : Bytes) : String :=
  match String.fromUTF8? ⟨⟨b⟩⟩ with
  | some s => s
  | none => String.ofList (utf8Repaired b.length b)

/-- `Array(s.utf8)`. -/
def utf8 (s : String) : Bytes := s.toByteArray.data.toList

/-- Well-formed UTF-8. -/
def IsUtf8 (b : Bytes) : Prop := (⟨⟨b⟩⟩ : ByteArray).IsValidUTF8

instance (b : Bytes) : Decidable (IsUtf8 b) :=
  inferInstanceAs (Decidable (⟨⟨b⟩⟩ : ByteArray).IsValidUTF8)

/-- Nothing is repaired in a well-formed string. -/
theorem utf8_stringDecoding {b : Bytes} (h : IsUtf8 b) : utf8 (stringDecoding b) = b := by
  have hvalid : (⟨⟨b⟩⟩ : ByteArray).IsValidUTF8 := h
  simp only [stringDecoding, String.fromUTF8?, dif_pos hvalid]
  rfl

example : stringDecoding [0x61, 0xE2, 0x82, 0x62, 0xFF] =
    String.ofList ['a', Char.ofNat 0xFFFD, 'b', Char.ofNat 0xFFFD] := by decide +kernel

/-! ## Messages and frames -/

/-- The channels of the protocol. -/
inductive Channel where
  | control
  | video
  deriving DecidableEq, Repr

/-- The byte of a channel. -/
def Channel.rawValue : Channel → UInt8
  | .control => 0
  | .video => 1

/-- `Channel(rawValue:)`. -/
def Channel.ofRawValue? (b : UInt8) : Option Channel :=
  if b = 0 then some .control else if b = 1 then some .video else none

/-- What may be wrong with a frame or a message. -/
inductive WireError where
  | shortBuffer
  | oversizedMessage
  | unknownChannel
  | unknownType
  | reservedFlagsSet
  | badField
  | trailingBytes
  | unsupportedVersion
  deriving DecidableEq, Repr

namespace Wire

def protocolVersion : UInt16 := 1
def maxPayload : ℕ := 16 * 1024 * 1024

def tHello : UInt8 := 0x01
def tWelcome : UInt8 := 0x02
def tError : UInt8 := 0x03
def tKeyframeRequest : UInt8 := 0x10
def tFormatChange : UInt8 := 0x11
def tPing : UInt8 := 0x20
def tPong : UInt8 := 0x21
def tDisconnect : UInt8 := 0x2F
def tVideoFrame : UInt8 := 0x01

end Wire

/-- HELLO. -/
structure Hello where
  version : UInt16 := Wire.protocolVersion
  codecMask : UInt8 := 0
  maxWidth : UInt16 := 0
  maxHeight : UInt16 := 0
  maxBitrateKbps : UInt32 := 0
  maxFps : UInt16 := 0
  featureFlags : UInt8 := 0
  deriving DecidableEq, Repr

/-- WELCOME. -/
structure Welcome where
  version : UInt16 := Wire.protocolVersion
  codecId : UInt8 := 0
  width : UInt16 := 0
  height : UInt16 := 0
  bitrateKbps : UInt32 := 0
  fps : UInt16 := 0
  flags : UInt8 := 0
  deriving DecidableEq, Repr

/-- ERROR. -/
structure ErrorMsg where
  code : UInt16 := 0
  reason : String := ""
  deriving DecidableEq, Repr

/-- KEYFRAME_REQUEST. -/
structure KeyframeRequest where
  reason : UInt8 := 0
  lastGoodSeq : UInt32 := 0
  deriving DecidableEq, Repr

/-- FORMAT_CHANGE, which has the fields of WELCOME. -/
structure FormatChange where
  format : Welcome
  deriving DecidableEq, Repr

/-- PING. -/
structure Ping where
  token : UInt64 := 0
  deriving DecidableEq, Repr

/-- PONG. -/
structure Pong where
  token : UInt64 := 0
  deriving DecidableEq, Repr

/-- DISCONNECT. -/
structure Disconnect where
  code : UInt16 := 0
  reason : String := ""
  deriving DecidableEq, Repr

/-- VIDEO_FRAME. -/
structure VideoFrame where
  codecId : UInt8 := 0
  frameType : UInt8 := 0
  vflags : UInt8 := 0
  ptsUs : UInt64 := 0
  seq : UInt32 := 0
  bitstream : Bytes := []
  deriving DecidableEq, Repr

/-- The messages. -/
inductive Message where
  | hello (m : Hello)
  | welcome (m : Welcome)
  | error (m : ErrorMsg)
  | keyframeRequest (m : KeyframeRequest)
  | formatChange (m : FormatChange)
  | ping (m : Ping)
  | pong (m : Pong)
  | disconnect (m : Disconnect)
  | videoFrame (m : VideoFrame)
  deriving DecidableEq, Repr

/-- A frame whose payload has not been looked at. -/
structure RawFrame where
  channel : Channel
  type : UInt8
  flags : UInt8
  payload : Bytes
  deriving DecidableEq, Repr

/-! ## Byte cursors (little-endian) -/

/-- `ByteWriter`. -/
structure ByteWriter where
  data : Bytes := []
  deriving DecidableEq, Repr

namespace ByteWriter

/-- One byte. -/
def u8 (w : ByteWriter) (v : UInt8) : ByteWriter := ⟨w.data ++ [v]⟩

/-- Two bytes, the low one first. -/
def u16 (w : ByteWriter) (v : UInt16) : ByteWriter :=
  (List.range 2).foldl
    (fun w i => ⟨w.data ++ [((v >>> UInt16.ofNat (8 * i)) &&& 0xFF).toUInt8]⟩) w

/-- Four bytes, the low one first. -/
def u32 (w : ByteWriter) (v : UInt32) : ByteWriter :=
  (List.range 4).foldl
    (fun w i => ⟨w.data ++ [((v >>> (8 * UInt32.ofNat i)) &&& 0xFF).toUInt8]⟩) w

/-- Eight bytes, the low one first. -/
def u64 (w : ByteWriter) (v : UInt64) : ByteWriter :=
  (List.range 8).foldl
    (fun w i => ⟨w.data ++ [((v >>> (8 * UInt64.ofNat i)) &&& 0xFF).toUInt8]⟩) w

/-- The bytes as they are. -/
def bytes (w : ByteWriter) (b : Bytes) : ByteWriter := ⟨w.data ++ b⟩

end ByteWriter

/-- `ByteReader`: once in error, it reads nothing more. -/
structure ByteReader where
  d : Bytes
  pos : ℕ := 0
  error : Bool := false
  deriving DecidableEq, Repr

namespace ByteReader

/-- Are there `n` more bytes? If not, the reader is in error. -/
def ensure (r : ByteReader) (n : ℕ) : Bool × ByteReader :=
  if r.error then (false, r)
  else if r.d.length - r.pos < n then (false, { r with error := true })
  else (true, r)

/-- One byte, or 0. -/
def u8 (r : ByteReader) : UInt8 × ByteReader :=
  match r.ensure 1 with
  | (false, r) => (0, r)
  | (true, r) => (r.d.getD r.pos 0, { r with pos := r.pos + 1 })

/-- Two bytes, the low one first, or 0. -/
def u16 (r : ByteReader) : UInt16 × ByteReader :=
  match r.ensure 2 with
  | (false, r) => (0, r)
  | (true, r) =>
      ((r.d.getD r.pos 0).toUInt16 ||| ((r.d.getD (r.pos + 1) 0).toUInt16 <<< 8),
        { r with pos := r.pos + 2 })

/-- Four bytes, the low one first, or 0. -/
def u32 (r : ByteReader) : UInt32 × ByteReader :=
  match r.ensure 4 with
  | (false, r) => (0, r)
  | (true, r) =>
      ((List.range 4).foldl
        (fun v i => v ||| ((r.d.getD (r.pos + i) 0).toUInt32 <<< (8 * UInt32.ofNat i))) 0,
        { r with pos := r.pos + 4 })

/-- Eight bytes, the low one first, or 0. -/
def u64 (r : ByteReader) : UInt64 × ByteReader :=
  match r.ensure 8 with
  | (false, r) => (0, r)
  | (true, r) =>
      ((List.range 8).foldl
        (fun v i => v ||| ((r.d.getD (r.pos + i) 0).toUInt64 <<< (8 * UInt64.ofNat i))) 0,
        { r with pos := r.pos + 8 })

/-- The next `n` bytes, or none. -/
def take (r : ByteReader) (n : ℕ) : Bytes × ByteReader :=
  match r.ensure n with
  | (false, r) => ([], r)
  | (true, r) => ((r.d.drop r.pos).take n, { r with pos := r.pos + n })

/-- How much is left. -/
def remaining (r : ByteReader) : ℕ := if r.error then 0 else r.d.length - r.pos

end ByteReader

/-! ## Encoding -/

/-- `none` is the trap of `precondition(payload.count <= Wire.maxPayload)`. -/
def encodeFrame (channel : Channel) (type : UInt8) (payload : Bytes) : Option Bytes :=
  if payload.length ≤ Wire.maxPayload then
    let w : ByteWriter := {}
    some (w.u32 (UInt32.ofNat (3 + payload.length)) |>.u8 channel.rawValue |>.u8 type
      |>.u8 0 |>.bytes payload).data
  else none

/-- The fields that WELCOME and FORMAT_CHANGE have in common. -/
def putWelcome (w : ByteWriter) (m : Welcome) : ByteWriter :=
  w.u16 m.version |>.u8 m.codecId |>.u16 m.width |>.u16 m.height |>.u32 m.bitrateKbps
    |>.u16 m.fps |>.u8 m.flags

/-- A code and a reason, of which 65535 bytes are sent at most. -/
def putReason (w : ByteWriter) (code : UInt16) (reason : String) : ByteWriter :=
  let bytes := utf8 reason
  let n := min bytes.length 0xFFFF
  w.u16 code |>.u16 (UInt16.ofNat n) |>.bytes (bytes.take n)

/-- `encode`, which traps where `encodeFrame` does. -/
def encode (msg : Message) : Option Bytes :=
  let w : ByteWriter := {}
  let (channel, type, w) : Channel × UInt8 × ByteWriter :=
    match msg with
    | .hello m =>
        (.control, Wire.tHello, w.u16 m.version |>.u8 m.codecMask |>.u16 m.maxWidth
          |>.u16 m.maxHeight |>.u32 m.maxBitrateKbps |>.u16 m.maxFps |>.u8 m.featureFlags)
    | .welcome m => (.control, Wire.tWelcome, putWelcome w m)
    | .formatChange m => (.control, Wire.tFormatChange, putWelcome w m.format)
    | .error m => (.control, Wire.tError, putReason w m.code m.reason)
    | .disconnect m => (.control, Wire.tDisconnect, putReason w m.code m.reason)
    | .keyframeRequest m =>
        (.control, Wire.tKeyframeRequest, w.u8 m.reason |>.u32 m.lastGoodSeq)
    | .ping m => (.control, Wire.tPing, w.u64 m.token)
    | .pong m => (.control, Wire.tPong, w.u64 m.token)
    | .videoFrame m =>
        (.video, Wire.tVideoFrame, w.u8 m.codecId |>.u8 m.frameType |>.u8 m.vflags
          |>.u64 m.ptsUs |>.u32 m.seq |>.bytes m.bitstream)
  encodeFrame channel type w.data

/-! ## Decoding -/

/-- The nested `finish` of `decodeMessage`. -/
def finish (r : ByteReader) (m : Message) : Except WireError Message :=
  if r.error then .error .shortBuffer
  else if r.remaining ≠ 0 then .error .trailingBytes
  else .ok m

/-- The nested `readWelcome` of `decodeMessage`. -/
def readWelcome (r : ByteReader) : Welcome × ByteReader :=
  let (version, r) := r.u16
  let (codecId, r) := r.u8
  let (width, r) := r.u16
  let (height, r) := r.u16
  let (bitrateKbps, r) := r.u32
  let (fps, r) := r.u16
  let (flags, r) := r.u8
  ({ version, codecId, width, height, bitrateKbps, fps, flags }, r)

/-- `case .control` of `decodeMessage`. -/
def decodeControl (type : UInt8) (r : ByteReader) : Except WireError Message :=
  if type = Wire.tHello then
    let (version, r) := r.u16
    let (codecMask, r) := r.u8
    let (maxWidth, r) := r.u16
    let (maxHeight, r) := r.u16
    let (maxBitrateKbps, r) := r.u32
    let (maxFps, r) := r.u16
    let (featureFlags, r) := r.u8
    if r.error then .error .shortBuffer
    else if version ≠ Wire.protocolVersion then .error .unsupportedVersion
    else
      finish r (.hello
        ⟨version, codecMask, maxWidth, maxHeight, maxBitrateKbps, maxFps, featureFlags⟩)
  else if type = Wire.tWelcome then
    let (m, r) := readWelcome r
    if r.error then .error .shortBuffer
    else if m.version ≠ Wire.protocolVersion then .error .unsupportedVersion
    else finish r (.welcome m)
  else if type = Wire.tFormatChange then
    let (m, r) := readWelcome r
    if r.error then .error .shortBuffer
    else if m.version ≠ Wire.protocolVersion then .error .unsupportedVersion
    else finish r (.formatChange ⟨m⟩)
  else if type = Wire.tError ∨ type = Wire.tDisconnect then
    let (code, r) := r.u16
    let (reasonLen, r) := r.u16
    if r.error then .error .shortBuffer
    else if r.remaining ≠ reasonLen.toNat then .error .badField
    else
      let (bytes, r) := r.take reasonLen.toNat
      let reason := stringDecoding bytes
      if type = Wire.tError then finish r (.error ⟨code, reason⟩)
      else finish r (.disconnect ⟨code, reason⟩)
  else if type = Wire.tKeyframeRequest then
    let (reason, r) := r.u8
    let (lastGoodSeq, r) := r.u32
    if r.error then .error .shortBuffer
    else finish r (.keyframeRequest ⟨reason, lastGoodSeq⟩)
  else if type = Wire.tPing then
    let (token, r) := r.u64
    if r.error then .error .shortBuffer else finish r (.ping ⟨token⟩)
  else if type = Wire.tPong then
    let (token, r) := r.u64
    if r.error then .error .shortBuffer else finish r (.pong ⟨token⟩)
  else .error .unknownType

/-- `case .video` of `decodeMessage`. -/
def decodeVideo (type : UInt8) (r : ByteReader) : Except WireError Message :=
  if type ≠ Wire.tVideoFrame then .error .unknownType
  else
    let (codecId, r) := r.u8
    let (frameType, r) := r.u8
    let (vflags, r) := r.u8
    let (ptsUs, r) := r.u64
    let (seq, r) := r.u32
    if r.error then .error .shortBuffer
    else
      let (bitstream, _) := r.take r.remaining
      .ok (.videoFrame { codecId, frameType, vflags, ptsUs, seq, bitstream })

/-- `decodeMessage`: no flags are known. -/
def decodeMessage (frame : RawFrame) : Except WireError Message :=
  if frame.flags ≠ 0 then .error .reservedFlagsSet
  else
    let r : ByteReader := { d := frame.payload }
    match frame.channel with
    | .control => decodeControl frame.type r
    | .video => decodeVideo frame.type r

/-! ## Incremental frame parser -/

/-- The parser: what it has been fed, and where it is in it. -/
structure FrameParser where
  buf : Bytes := []
  readPos : ℕ := 0
  readPos_le : readPos ≤ buf.length := by first | exact start_le_nil | exact start_le _
  deriving DecidableEq, Repr

namespace FrameParser

/-- `feed`: what has been read is dropped now and then. -/
def feed (P : FrameParser) (data : Bytes) : FrameParser :=
  if 0 < P.readPos ∧ P.readPos = P.buf.length then { buf := data }
  else if 64 * 1024 < P.readPos then { buf := P.buf.drop P.readPos ++ data }
  else
    { buf := P.buf ++ data, readPos := P.readPos
      readPos_le := by
        rw [List.length_append]; exact Nat.le_add_right_of_le P.readPos_le }

/-- The next complete frame, `.ok none` if more bytes are needed, or a hard error. -/
def next (P : FrameParser) : Except WireError (Option RawFrame) × FrameParser :=
  let avail := P.buf.length - P.readPos
  if avail < 4 then (.ok none, P)
  else
    let length : UInt32 :=
      (List.range 4).foldl
        (fun v i =>
          v ||| ((P.buf.getD (P.readPos + i) 0).toUInt32 <<< (8 * UInt32.ofNat i))) 0
    if length < 3 then (.error .badField, P)
    else if Wire.maxPayload < length.toNat - 3 then (.error .oversizedMessage, P)
    else if h : avail < 4 + length.toNat then (.ok none, P)
    else
      match Channel.ofRawValue? (P.buf.getD (P.readPos + 4) 0) with
      | none => (.error .unknownChannel, P)
      | some channel =>
          let type := P.buf.getD (P.readPos + 5) 0
          let flags := P.buf.getD (P.readPos + 6) 0
          let payload := (P.buf.drop (P.readPos + 7)).take (length.toNat - 3)
          (.ok (some { channel, type, flags, payload }),
            { buf := P.buf, readPos := P.readPos + (4 + length.toNat)
              readPos_le := by have hle := P.readPos_le; omega })

end FrameParser

end TetherDisplay.Client
