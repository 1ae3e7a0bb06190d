import TetherDisplay.Protocol.Cursor

/-!
# Encoding and decoding messages

`encode` and `decode_message` of `wire.cpp`.  The definitions follow the source
function by function: a body writer or reader for each message, `encodeFrame` for
the framing, and the switch of `decodeMessage` with its checks in the source's
order, since that order decides which error a malformed payload gets.

`Message.Encodable` collects the preconditions the encoder asserts or the decoder
checks, and `frameOf` is the frame a message is put into.  `decodeMessage_iff` is
the specification of the decoder: it accepts exactly the frames of encodable
messages.
-/

namespace TetherDisplay.Protocol

open LittleEndian

/-! ## Encoding -/

/-- The fields that WELCOME and FORMAT_CHANGE have in common. -/
def putWelcomeBody (w : ByteWriter) (m : Welcome) : ByteWriter :=
  w.u16 m.protocolVersion |>.u8 m.codecId |>.u16 m.width |>.u16 m.height
    |>.u32 m.bitrateKbps |>.u16 m.fps |>.u8 m.sessionFlags

/-- ERROR and DISCONNECT share the body `u16 code, u16 reason_len, reason`.  The
reason is clamped to the length field. -/
def putReason (w : ByteWriter) (code : UInt16) (reason : Bytes) : ByteWriter :=
  let n := UInt16.ofNat (min reason.length 0xFFFF)
  w.u16 code |>.u16 n |>.bytes (reason.take n.toNat)

/-- The channel and type of a message, and its body written to `w`. -/
def bodyOf (w : ByteWriter) : Message → Channel × UInt8 × ByteWriter
  | .hello m =>
      (.control, Ctrl.kHello, w.u16 m.protocolVersion |>.u8 m.codecMask |>.u16 m.maxWidth
        |>.u16 m.maxHeight |>.u32 m.maxBitrateKbps |>.u16 m.maxFps |>.u8 m.featureFlags)
  | .welcome m => (.control, Ctrl.kWelcome, putWelcomeBody w m)
  | .formatChange m => (.control, Ctrl.kFormatChange, putWelcomeBody w m.format)
  | .errorMsg m => (.control, Ctrl.kError, putReason w m.code m.reason)
  | .disconnect m => (.control, Ctrl.kDisconnect, putReason w m.code m.reason)
  | .keyframeRequest m => (.control, Ctrl.kKeyframeRequest, w.u8 m.reason |>.u32 m.lastGoodSeq)
  | .ping m => (.control, Ctrl.kPing, w.u64 m.token)
  | .pong m => (.control, Ctrl.kPong, w.u64 m.token)
  | .videoFrame m =>
      (.video, Vid.kVideoFrame, w.u8 m.codecId |>.u8 m.frameType |>.u8 m.vflags
        |>.u64 m.ptsUs |>.u32 m.seq |>.bytes m.bitstream)

/-- The frame around a payload.  The length is computed in 64 bits and narrowed to
the 32 bits of its field; the source asserts `payload.length ≤ kMaxPayload`, under
which nothing is lost. -/
def encodeFrame (channel : Channel) (type : UInt8) (payload : Bytes) : Bytes :=
  let length64 : UInt64 := 3 + UInt64.ofNat payload.length
  let length : UInt32 := length64.toUInt32
  let w : ByteWriter := ⟨[]⟩
  (w.u32 length |>.u8 channel.toByte |>.u8 type |>.u8 0 |>.bytes payload).out

/-- `encode`. -/
def encode (msg : Message) : Bytes :=
  let (ch, type, payload) := bodyOf ⟨[]⟩ msg
  encodeFrame ch type payload.out

/-! ## Decoding -/

/-- The fields of HELLO. -/
def readHello (r : ByteReader) : Hello × ByteReader :=
  let (protocolVersion, r) := r.u16
  let (codecMask, r) := r.u8
  let (maxWidth, r) := r.u16
  let (maxHeight, r) := r.u16
  let (maxBitrateKbps, r) := r.u32
  let (maxFps, r) := r.u16
  let (featureFlags, r) := r.u8
  ({ protocolVersion, codecMask, maxWidth, maxHeight, maxBitrateKbps, maxFps,
     featureFlags }, r)

/-- The source also returns `!r.error()`, which callers read off the reader here. -/
def decodeWelcomeBody (r : ByteReader) : Welcome × ByteReader :=
  let (protocolVersion, r) := r.u16
  let (codecId, r) := r.u8
  let (width, r) := r.u16
  let (height, r) := r.u16
  let (bitrateKbps, r) := r.u32
  let (fps, r) := r.u16
  let (sessionFlags, r) := r.u8
  ({ protocolVersion, codecId, width, height, bitrateKbps, fps, sessionFlags }, r)

/-- `finish`: the checks after the last field of a message without a tail. -/
def finish (r : ByteReader) (m : Message) : Except WireError Message :=
  if r.error then .error .shortBuffer
  else if r.remaining ≠ 0 then .error .trailingBytes
  else .ok m

/-- The decoder of a control frame: the `switch` over `frame.type`. -/
def decodeControl (type : UInt8) (r : ByteReader) : Except WireError Message :=
  if type = Ctrl.kHello then
    let (m, r) := readHello r
    if r.error then .error .shortBuffer
    else if m.protocolVersion ≠ kProtocolVersion then .error .unsupportedVersion
    else finish r (.hello m)
  else if type = Ctrl.kWelcome then
    let (m, r) := decodeWelcomeBody r
    if r.error then .error .shortBuffer
    else if m.protocolVersion ≠ kProtocolVersion then .error .unsupportedVersion
    else finish r (.welcome m)
  else if type = Ctrl.kFormatChange then
    let (m, r) := decodeWelcomeBody r
    if r.error then .error .shortBuffer
    else if m.protocolVersion ≠ kProtocolVersion then .error .unsupportedVersion
    else finish r (.formatChange ⟨m⟩)
  else if type = Ctrl.kError ∨ type = Ctrl.kDisconnect then
    let (code, r) := r.u16
    let (reasonLen, r) := r.u16
    if r.error then .error .shortBuffer
    else if r.remaining ≠ reasonLen.toNat then .error .badField
    else
      let (reason, r) := r.take reasonLen.toNat
      if type = Ctrl.kError then finish r (.errorMsg ⟨code, reason⟩)
      else finish r (.disconnect ⟨code, reason⟩)
  else if type = Ctrl.kKeyframeRequest then
    let (reason, r) := r.u8
    let (lastGoodSeq, r) := r.u32
    if r.error then .error .shortBuffer
    else finish r (.keyframeRequest ⟨reason, lastGoodSeq⟩)
  else if type = Ctrl.kPing then
    let (token, r) := r.u64
    if r.error then .error .shortBuffer else finish r (.ping ⟨token⟩)
  else if type = Ctrl.kPong then
    let (token, r) := r.u64
    if r.error then .error .shortBuffer else finish r (.pong ⟨token⟩)
  else .error .unknownType

/-- The decoder of a video frame.  There is no check for trailing bytes: the
bitstream absorbs the remainder. -/
def decodeVideo (type : UInt8) (r : ByteReader) : Except WireError Message :=
  if type ≠ Vid.kVideoFrame then .error .unknownType
  else
    let (codecId, r) := r.u8
    let (frameType, r) := r.u8
    let (vflags, r) := r.u8
    let (ptsUs, r) := r.u64
    let (seq, r) := r.u32
    if r.error then .error .shortBuffer
    else
      let (bitstream, _) := r.take r.remaining
      .ok (.videoFrame { codecId, frameType, vflags, ptsUs, seq, bitstream })

/-- Interpret a frame.  `nullopt` with `err` set is `.error`.  The source's closing
`UnknownChannel` is for a channel byte outside the enumeration, which the parser
never lets through and `Channel` cannot hold. -/
def decodeMessage (frame : RawFrame) : Except WireError Message :=
  if frame.flags ≠ 0 then .error .reservedFlagsSet
  else
    let r : ByteReader := ⟨frame.payload, 0, false⟩
    match frame.channel with
    | .control => decodeControl frame.type r
    | .video => decodeVideo frame.type r

/-! ## The layouts of the bodies -/

namespace Layout

/-- HELLO, 14 bytes. -/
def hello : Layout Hello :=
  (u16.pair <| u8.pair <| u16.pair <| u16.pair <| u32.pair <| u16.pair u8).record
    (fun (a, b, c, d, e, f, g) => ⟨a, b, c, d, e, f, g⟩)
    (fun m => (m.protocolVersion, m.codecMask, m.maxWidth, m.maxHeight,
      m.maxBitrateKbps, m.maxFps, m.featureFlags))
    (fun _ => rfl) (fun _ => rfl)

/-- WELCOME and the body of FORMAT_CHANGE, 14 bytes. -/
def welcome : Layout Welcome :=
  (u16.pair <| u8.pair <| u16.pair <| u16.pair <| u32.pair <| u16.pair u8).record
    (fun (a, b, c, d, e, f, g) => ⟨a, b, c, d, e, f, g⟩)
    (fun m => (m.protocolVersion, m.codecId, m.width, m.height, m.bitrateKbps, m.fps,
      m.sessionFlags))
    (fun _ => rfl) (fun _ => rfl)

/-- KEYFRAME_REQUEST, 5 bytes. -/
def keyframeRequest : Layout KeyframeRequest :=
  (u8.pair u32).record (fun (a, b) => ⟨a, b⟩) (fun m => (m.reason, m.lastGoodSeq))
    (fun _ => rfl) (fun _ => rfl)

/-- The code and the length field of an ERROR or DISCONNECT, 4 bytes. -/
def reasonHead : Layout (UInt16 × UInt16) := u16.pair u16

/-- The header of a VIDEO_FRAME, 15 bytes. -/
def videoHead : Layout (UInt8 × UInt8 × UInt8 × UInt64 × UInt32) :=
  u8.pair <| u8.pair <| u8.pair <| u64.pair u32

end Layout

/-- HELLO is read by its layout. -/
theorem readHello_eq (r : ByteReader) : readHello r = Layout.hello.read r := by
  rfl

/-- WELCOME is read by its layout. -/
theorem decodeWelcomeBody_eq (r : ByteReader) :
    decodeWelcomeBody r = Layout.welcome.read r := by
  rfl

/-! ## What the decoder accepts -/

/-- The body of a message. -/
def bodyBytes (m : Message) : Bytes := (bodyOf ⟨[]⟩ m).2.2.out

/-- The frame a message is put into. -/
def frameOf (m : Message) : RawFrame :=
  { channel := (bodyOf ⟨[]⟩ m).1, type := (bodyOf ⟨[]⟩ m).2.1, flags := 0,
    payload := bodyBytes m }

/-- What the encoder asserts of a message, or the decoder checks of it: the version
of a HELLO, WELCOME or FORMAT_CHANGE, a reason that fits its length field, and a
bitstream that fits the payload. -/
def Message.Encodable : Message → Prop
  | .hello m => m.protocolVersion = kProtocolVersion
  | .welcome m => m.protocolVersion = kProtocolVersion
  | .formatChange m => m.format.protocolVersion = kProtocolVersion
  | .errorMsg m => m.reason.length ≤ 0xFFFF
  | .disconnect m => m.reason.length ≤ 0xFFFF
  | .keyframeRequest _ => True
  | .ping _ => True
  | .pong _ => True
  | .videoFrame m => m.bitstream.length ≤ kMaxPayload - 15

instance : DecidablePred Message.Encodable
  | .hello m => inferInstanceAs (Decidable (m.protocolVersion = kProtocolVersion))
  | .welcome m => inferInstanceAs (Decidable (m.protocolVersion = kProtocolVersion))
  | .formatChange m =>
      inferInstanceAs (Decidable (m.format.protocolVersion = kProtocolVersion))
  | .errorMsg m => inferInstanceAs (Decidable (m.reason.length ≤ 0xFFFF))
  | .disconnect m => inferInstanceAs (Decidable (m.reason.length ≤ 0xFFFF))
  | .keyframeRequest _ => inferInstanceAs (Decidable True)
  | .ping _ => inferInstanceAs (Decidable True)
  | .pong _ => inferInstanceAs (Decidable True)
  | .videoFrame m => inferInstanceAs (Decidable (m.bitstream.length ≤ kMaxPayload - 15))

section Bodies

/-- HELLO is written by its layout. -/
theorem bodyBytes_hello (m : Hello) : bodyBytes (.hello m) = Layout.hello.write m := by
  simp [bodyBytes, bodyOf, Layout.hello, Layout.record, Layout.pair, Layout.u8,
    Layout.u16, Layout.u32, Layout.word]

theorem putWelcomeBody_out (w : ByteWriter) (m : Welcome) :
    (putWelcomeBody w m).out = w.out ++ Layout.welcome.write m := by
  simp [putWelcomeBody, Layout.welcome, Layout.record, Layout.pair, Layout.u8,
    Layout.u16, Layout.u32, Layout.word]

/-- WELCOME is written by its layout. -/
theorem bodyBytes_welcome (m : Welcome) :
    bodyBytes (.welcome m) = Layout.welcome.write m := putWelcomeBody_out ⟨[]⟩ m

/-- FORMAT_CHANGE is written by the layout of WELCOME. -/
theorem bodyBytes_formatChange (m : FormatChange) :
    bodyBytes (.formatChange m) = Layout.welcome.write m.format :=
  putWelcomeBody_out ⟨[]⟩ m.format

/-- KEYFRAME_REQUEST is written by its layout. -/
theorem bodyBytes_keyframeRequest (m : KeyframeRequest) :
    bodyBytes (.keyframeRequest m) = Layout.keyframeRequest.write m := by
  simp [bodyBytes, bodyOf, Layout.keyframeRequest, Layout.record, Layout.pair,
    Layout.u8, Layout.u32, Layout.word]

/-- PING is one word. -/
theorem bodyBytes_ping (m : Ping) : bodyBytes (.ping m) = Layout.u64.write m.token := by
  simp [bodyBytes, bodyOf, Layout.u64, Layout.word]

/-- PONG is one word. -/
theorem bodyBytes_pong (m : Pong) : bodyBytes (.pong m) = Layout.u64.write m.token := by
  simp [bodyBytes, bodyOf, Layout.u64, Layout.word]

/-- Within the length field nothing of the reason is clamped away. -/
theorem putReason_out (code : UInt16) {reason : Bytes} (h : reason.length ≤ 0xFFFF) :
    (putReason ⟨[]⟩ code reason).out =
      Layout.reasonHead.write (code, UInt16.ofNat reason.length) ++ reason := by
  have hmin : min reason.length 0xFFFF = reason.length := Nat.min_eq_left h
  have hlen : (UInt16.ofNat reason.length).toNat = reason.length :=
    UInt16.toNat_ofNat_of_lt' (by show reason.length < 2 ^ 16; omega)
  simp only [putReason, hmin, ByteWriter.bytes_out, ByteWriter.u16_out, hlen,
    List.take_length]
  simp only [Layout.reasonHead, Layout.pair, Layout.u16, Layout.word, hlen,
    List.nil_append]

/-- A reason that is not too long is sent whole. -/
theorem length_reasonBody (code : UInt16) {reason : Bytes} (h : reason.length ≤ 0xFFFF) :
    (putReason ⟨[]⟩ code reason).out.length = 4 + reason.length := by
  rw [putReason_out code h, List.length_append, Layout.reasonHead.length_write]
  rfl

/-- VIDEO_FRAME is its head, by the layout, and the bitstream. -/
theorem bodyBytes_videoFrame (m : VideoFrame) :
    bodyBytes (.videoFrame m) =
      Layout.videoHead.write (m.codecId, m.frameType, m.vflags, m.ptsUs, m.seq) ++
        m.bitstream := by
  simp [bodyBytes, bodyOf, Layout.videoHead, Layout.pair, Layout.u8, Layout.u32,
    Layout.u64, Layout.word]

end Bodies

section Reading

variable {α : Type} (L : Layout α) (make : α → Message) (p : Bytes) (msg : Message)

/-- **A body without a tail is accepted exactly when it is a written value.** -/
theorem read_finish_iff :
    (if (L.read ⟨p, 0, false⟩).2.error then .error .shortBuffer
      else finish (L.read ⟨p, 0, false⟩).2 (make (L.read ⟨p, 0, false⟩).1)) = .ok msg ↔
      ∃ a, p = L.write a ∧ make a = msg := by
  by_cases hshort : p.length < L.width
  · have hnot : ∀ a, p ≠ L.write a := by
      rintro a rfl
      rw [L.length_write] at hshort
      exact lt_irrefl _ hshort
    simp [L.read_short hshort, hnot]
  · obtain ⟨a, t, rfl⟩ := L.exists_write (Nat.not_lt.mp hshort)
    rw [L.read_start]
    cases t with
    | nil =>
        have hsame : ∀ b, L.write a = L.write b ↔ a = b := fun b => L.write_injective.eq_iff
        simp [finish, hsame]
    | cons b t =>
        have hnot : ∀ c, L.write a ++ b :: t ≠ L.write c := by
          intro c hc
          have hlen := congrArg List.length hc
          simp [L.length_write] at hlen
        simp [finish, hnot]

/-- The same with the version check that HELLO, WELCOME and FORMAT_CHANGE make before
they look for trailing bytes. -/
theorem read_version_finish_iff (version : α → UInt16) :
    (if (L.read ⟨p, 0, false⟩).2.error then .error .shortBuffer
      else if version (L.read ⟨p, 0, false⟩).1 ≠ kProtocolVersion then
        .error .unsupportedVersion
      else finish (L.read ⟨p, 0, false⟩).2 (make (L.read ⟨p, 0, false⟩).1)) = .ok msg ↔
      ∃ a, p = L.write a ∧ version a = kProtocolVersion ∧ make a = msg := by
  have hplain := read_finish_iff L make p msg
  by_cases hversion : version (L.read ⟨p, 0, false⟩).1 = kProtocolVersion
  · simp only [hversion, ne_eq, not_true_eq_false, if_false]
    rw [hplain]
    refine exists_congr fun a => ⟨fun ⟨hp, hmake⟩ => ⟨hp, ?_, hmake⟩,
      fun ⟨hp, _, hmake⟩ => ⟨hp, hmake⟩⟩
    have hread := L.read_start a []
    rw [List.append_nil, ← hp] at hread
    rwa [hread] at hversion
  · have hnot : ¬ ∃ a, p = L.write a ∧ version a = kProtocolVersion ∧ make a = msg := by
      rintro ⟨a, hp, hv, -⟩
      have hread := L.read_start a []
      rw [List.append_nil, ← hp] at hread
      rw [hread] at hversion
      exact hversion hv
    simp only [hnot, iff_false]
    split <;> simp

end Reading

section Types

variable (p : Bytes) (msg : Message)

/-- What decodes to a HELLO is one that has been written, of this version. -/
theorem decode_hello_iff :
    decodeControl Ctrl.kHello ⟨p, 0, false⟩ = .ok msg ↔
      ∃ m, p = Layout.hello.write m ∧ m.protocolVersion = kProtocolVersion ∧
        Message.hello m = msg := by
  rw [decodeControl, if_pos rfl]
  simp only [readHello_eq]
  exact read_version_finish_iff Layout.hello .hello p msg (·.protocolVersion)

/-- What decodes to a WELCOME is one that has been written, of this version. -/
theorem decode_welcome_iff :
    decodeControl Ctrl.kWelcome ⟨p, 0, false⟩ = .ok msg ↔
      ∃ m, p = Layout.welcome.write m ∧ m.protocolVersion = kProtocolVersion ∧
        Message.welcome m = msg := by
  rw [decodeControl, if_neg (by decide), if_pos rfl]
  simp only [decodeWelcomeBody_eq]
  exact read_version_finish_iff Layout.welcome .welcome p msg (·.protocolVersion)

/-- What decodes to a FORMAT_CHANGE is one that has been written, of this version. -/
theorem decode_formatChange_iff :
    decodeControl Ctrl.kFormatChange ⟨p, 0, false⟩ = .ok msg ↔
      ∃ m, p = Layout.welcome.write m ∧ m.protocolVersion = kProtocolVersion ∧
        Message.formatChange ⟨m⟩ = msg := by
  rw [decodeControl, if_neg (by decide), if_neg (by decide), if_pos rfl]
  simp only [decodeWelcomeBody_eq]
  exact read_version_finish_iff Layout.welcome (fun m => .formatChange ⟨m⟩) p msg
    (·.protocolVersion)

/-- What decodes to a KEYFRAME_REQUEST is one that has been written. -/
theorem decode_keyframeRequest_iff :
    decodeControl Ctrl.kKeyframeRequest ⟨p, 0, false⟩ = .ok msg ↔
      ∃ m, p = Layout.keyframeRequest.write m ∧ Message.keyframeRequest m = msg := by
  rw [decodeControl, if_neg (by decide), if_neg (by decide), if_neg (by decide),
    if_neg (by decide), if_pos rfl]
  exact read_finish_iff Layout.keyframeRequest .keyframeRequest p msg

/-- What decodes to a PING is one that has been written. -/
theorem decode_ping_iff :
    decodeControl Ctrl.kPing ⟨p, 0, false⟩ = .ok msg ↔
      ∃ token, p = Layout.u64.write token ∧ Message.ping ⟨token⟩ = msg := by
  rw [decodeControl, if_neg (by decide), if_neg (by decide), if_neg (by decide),
    if_neg (by decide), if_neg (by decide), if_pos rfl]
  exact read_finish_iff Layout.u64 (fun token => .ping ⟨token⟩) p msg

/-- What decodes to a PONG is one that has been written. -/
theorem decode_pong_iff :
    decodeControl Ctrl.kPong ⟨p, 0, false⟩ = .ok msg ↔
      ∃ token, p = Layout.u64.write token ∧ Message.pong ⟨token⟩ = msg := by
  rw [decodeControl, if_neg (by decide), if_neg (by decide), if_neg (by decide),
    if_neg (by decide), if_neg (by decide), if_neg (by decide), if_pos rfl]
  exact read_finish_iff Layout.u64 (fun token => .pong ⟨token⟩) p msg

/-- The tail of an ERROR or DISCONNECT: the length field must equal what is left, and
then the reason is all of it. -/
theorem decode_reason_iff (make : UInt16 → Bytes → Message) :
    (if (Layout.reasonHead.read ⟨p, 0, false⟩).2.error then .error .shortBuffer
      else if (Layout.reasonHead.read ⟨p, 0, false⟩).2.remaining ≠
          (Layout.reasonHead.read ⟨p, 0, false⟩).1.2.toNat then .error .badField
      else finish ((Layout.reasonHead.read ⟨p, 0, false⟩).2.take
          (Layout.reasonHead.read ⟨p, 0, false⟩).1.2.toNat).2
        (make (Layout.reasonHead.read ⟨p, 0, false⟩).1.1
          ((Layout.reasonHead.read ⟨p, 0, false⟩).2.take
            (Layout.reasonHead.read ⟨p, 0, false⟩).1.2.toNat).1)) =
        (.ok msg : Except WireError Message) ↔
      ∃ code reason, reason.length ≤ 0xFFFF ∧
        p = Layout.reasonHead.write (code, UInt16.ofNat reason.length) ++ reason ∧
        make code reason = msg := by
  by_cases hshort : p.length < Layout.reasonHead.width
  · have hnot : ∀ code (reason : Bytes),
        p ≠ Layout.reasonHead.write (code, UInt16.ofNat reason.length) ++ reason := by
      rintro code reason rfl
      rw [List.length_append, Layout.reasonHead.length_write] at hshort
      omega
    simp [Layout.reasonHead.read_short hshort, hnot]
  · obtain ⟨⟨code, n⟩, reason, rfl⟩ := Layout.reasonHead.exists_write (Nat.not_lt.mp hshort)
    rw [Layout.reasonHead.read_start]
    by_cases hn : reason.length = n.toNat
    · have hbound : reason.length ≤ 0xFFFF := by
        have hlt := n.toNat_lt
        omega
      have htake := ByteReader.take_reading (Layout.reasonHead.write (code, n)) reason []
      rw [List.append_nil] at htake
      have hback : UInt16.ofNat reason.length = n := by rw [hn, UInt16.ofNat_toNat]
      simp only [ByteReader.reading_error, ByteReader.reading_remaining, ← hn, htake,
        finish, List.length_nil]
      simp only [ne_eq, not_true_eq_false, if_false, Bool.false_eq_true,
        Except.ok.injEq]
      constructor
      · rintro rfl
        exact ⟨code, reason, hbound, by rw [hback], rfl⟩
      · rintro ⟨code', reason', -, hwrite, rfl⟩
        obtain ⟨hhead, hreason⟩ := List.append_inj hwrite
          (by rw [Layout.reasonHead.length_write, Layout.reasonHead.length_write])
        cases Layout.reasonHead.write_injective hhead
        rw [hreason]
    · have hnot : ¬ ∃ code' reason', List.length reason' ≤ 0xFFFF ∧
          Layout.reasonHead.write (code, n) ++ reason =
            Layout.reasonHead.write (code', UInt16.ofNat reason'.length) ++ reason' ∧
          make code' reason' = msg := by
        rintro ⟨code', reason', hbound, hwrite, -⟩
        obtain ⟨hhead, rfl⟩ := List.append_inj hwrite
          (by rw [Layout.reasonHead.length_write, Layout.reasonHead.length_write])
        cases Layout.reasonHead.write_injective hhead
        exact hn (UInt16.toNat_ofNat_of_lt' (by show reason.length < 2 ^ 16; omega)).symm
      simp [hn, hnot]

/-- What decodes to an ERROR is one whose reason is not too long. -/
theorem decode_error_iff :
    decodeControl Ctrl.kError ⟨p, 0, false⟩ = .ok msg ↔
      ∃ code reason, reason.length ≤ 0xFFFF ∧
        p = Layout.reasonHead.write (code, UInt16.ofNat reason.length) ++ reason ∧
        Message.errorMsg ⟨code, reason⟩ = msg := by
  rw [decodeControl, if_neg (by decide), if_neg (by decide), if_neg (by decide),
    if_pos (Or.inl rfl)]
  exact decode_reason_iff p msg fun code reason => .errorMsg ⟨code, reason⟩

/-- What decodes to a DISCONNECT is one whose reason is not too long. -/
theorem decode_disconnect_iff :
    decodeControl Ctrl.kDisconnect ⟨p, 0, false⟩ = .ok msg ↔
      ∃ code reason, reason.length ≤ 0xFFFF ∧
        p = Layout.reasonHead.write (code, UInt16.ofNat reason.length) ++ reason ∧
        Message.disconnect ⟨code, reason⟩ = msg := by
  rw [decodeControl, if_neg (by decide), if_neg (by decide), if_neg (by decide),
    if_pos (Or.inr rfl)]
  exact decode_reason_iff p msg fun code reason => .disconnect ⟨code, reason⟩

/-- What decodes to a VIDEO_FRAME is one that has been written. -/
theorem decode_videoFrame_iff :
    decodeVideo Vid.kVideoFrame ⟨p, 0, false⟩ = .ok msg ↔
      ∃ m, p = bodyBytes (.videoFrame m) ∧ Message.videoFrame m = msg := by
  have hread : decodeVideo Vid.kVideoFrame ⟨p, 0, false⟩ =
      if (Layout.videoHead.read ⟨p, 0, false⟩).2.error then .error .shortBuffer
      else
        let h := Layout.videoHead.read ⟨p, 0, false⟩
        .ok (.videoFrame ⟨h.1.1, h.1.2.1, h.1.2.2.1, h.1.2.2.2.1, h.1.2.2.2.2,
          (h.2.take h.2.remaining).1⟩) := by
    rw [decodeVideo, if_neg (by simp)]
    rfl
  rw [hread]
  by_cases hshort : p.length < Layout.videoHead.width
  · have hnot : ∀ m, p ≠ bodyBytes (.videoFrame m) := by
      intro m hp
      rw [hp, bodyBytes_videoFrame, List.length_append, Layout.videoHead.length_write] at hshort
      omega
    simp [Layout.videoHead.read_short hshort, hnot]
  · obtain ⟨head, bitstream, rfl⟩ := Layout.videoHead.exists_write (Nat.not_lt.mp hshort)
    have htake := ByteReader.take_reading (Layout.videoHead.write head) bitstream []
    rw [List.append_nil] at htake
    rw [Layout.videoHead.read_start]
    simp only [ByteReader.reading_error, ByteReader.reading_remaining, htake]
    simp only [Bool.false_eq_true, if_false, Except.ok.injEq]
    constructor
    · rintro rfl
      exact ⟨_, by rw [bodyBytes_videoFrame], rfl⟩
    · rintro ⟨m, hwrite, rfl⟩
      rw [bodyBytes_videoFrame] at hwrite
      obtain ⟨hhead, rfl⟩ := List.append_inj hwrite
        (by rw [Layout.videoHead.length_write, Layout.videoHead.length_write])
      cases Layout.videoHead.write_injective hhead
      rfl

end Types

/-- What a control frame decodes to is an encodable control message with that type
and that body. -/
theorem decodeControl_sound {type : UInt8} {p : Bytes} {msg : Message}
    (h : decodeControl type ⟨p, 0, false⟩ = .ok msg) :
    msg.Encodable ∧ frameOf msg = ⟨.control, type, 0, p⟩ := by
  by_cases h₁ : type = Ctrl.kHello
  · subst h₁
    obtain ⟨m, rfl, hversion, rfl⟩ := (decode_hello_iff p msg).mp h
    exact ⟨hversion, by rw [← bodyBytes_hello]; rfl⟩
  by_cases h₂ : type = Ctrl.kWelcome
  · subst h₂
    obtain ⟨m, rfl, hversion, rfl⟩ := (decode_welcome_iff p msg).mp h
    exact ⟨hversion, by rw [← bodyBytes_welcome]; rfl⟩
  by_cases h₃ : type = Ctrl.kFormatChange
  · subst h₃
    obtain ⟨m, rfl, hversion, rfl⟩ := (decode_formatChange_iff p msg).mp h
    exact ⟨hversion, by rw [← bodyBytes_formatChange ⟨m⟩]; rfl⟩
  by_cases h₄ : type = Ctrl.kError
  · subst h₄
    obtain ⟨code, reason, hlen, rfl, rfl⟩ := (decode_error_iff p msg).mp h
    exact ⟨hlen, by rw [← putReason_out code hlen]; rfl⟩
  by_cases h₅ : type = Ctrl.kDisconnect
  · subst h₅
    obtain ⟨code, reason, hlen, rfl, rfl⟩ := (decode_disconnect_iff p msg).mp h
    exact ⟨hlen, by rw [← putReason_out code hlen]; rfl⟩
  by_cases h₆ : type = Ctrl.kKeyframeRequest
  · subst h₆
    obtain ⟨m, rfl, rfl⟩ := (decode_keyframeRequest_iff p msg).mp h
    exact ⟨trivial, by rw [← bodyBytes_keyframeRequest]; rfl⟩
  by_cases h₇ : type = Ctrl.kPing
  · subst h₇
    obtain ⟨token, rfl, rfl⟩ := (decode_ping_iff p msg).mp h
    exact ⟨trivial, by rw [← bodyBytes_ping ⟨token⟩]; rfl⟩
  by_cases h₈ : type = Ctrl.kPong
  · subst h₈
    obtain ⟨token, rfl, rfl⟩ := (decode_pong_iff p msg).mp h
    exact ⟨trivial, by rw [← bodyBytes_pong ⟨token⟩]; rfl⟩
  simp [decodeControl, h₁, h₂, h₃, h₄, h₅, h₆, h₇, h₈] at h

theorem decodeMessage_control (type : UInt8) (p : Bytes) :
    decodeMessage ⟨.control, type, 0, p⟩ = decodeControl type ⟨p, 0, false⟩ := by
  unfold decodeMessage
  rw [if_neg (fun h => h rfl)]

theorem decodeMessage_video (type : UInt8) (p : Bytes) :
    decodeMessage ⟨.video, type, 0, p⟩ = decodeVideo type ⟨p, 0, false⟩ := by
  unfold decodeMessage
  rw [if_neg (fun h => h rfl)]

/-- **What the decoder accepts is the frame of an encodable message.** -/
theorem decodeMessage_sound {f : RawFrame} {msg : Message}
    (h : decodeMessage f = .ok msg) (hlen : f.payload.length ≤ kMaxPayload) :
    msg.Encodable ∧ f = frameOf msg := by
  obtain ⟨channel, type, flags, payload⟩ := f
  by_cases hflags : flags = 0
  · subst hflags
    cases channel with
    | control =>
        rw [decodeMessage_control] at h
        obtain ⟨henc, hframe⟩ := decodeControl_sound h
        exact ⟨henc, hframe.symm⟩
    | video =>
        rw [decodeMessage_video] at h
        by_cases htype : type = Vid.kVideoFrame
        · subst htype
          obtain ⟨m, hp, rfl⟩ := (decode_videoFrame_iff payload msg).mp h
          have hlen' : payload.length ≤ kMaxPayload := hlen
          rw [hp, bodyBytes_videoFrame, List.length_append, Layout.videoHead.length_write]
            at hlen'
          exact ⟨show m.bitstream.length ≤ kMaxPayload - 15 from
            Nat.le_sub_of_add_le' hlen', by rw [hp]; rfl⟩
        · simp [decodeVideo, htype] at h
  · simp [decodeMessage, hflags] at h

/-- **The decoder gets every encodable message back from its frame.** -/
theorem decodeMessage_frameOf {m : Message} (h : m.Encodable) :
    decodeMessage (frameOf m) = .ok m := by
  cases m with
  | hello m =>
      refine (decodeMessage_control Ctrl.kHello _).trans ?_
      exact (decode_hello_iff _ _).mpr ⟨m, bodyBytes_hello m, h, rfl⟩
  | welcome m =>
      refine (decodeMessage_control Ctrl.kWelcome _).trans ?_
      exact (decode_welcome_iff _ _).mpr ⟨m, bodyBytes_welcome m, h, rfl⟩
  | errorMsg m =>
      refine (decodeMessage_control Ctrl.kError _).trans ?_
      exact (decode_error_iff _ _).mpr ⟨m.code, m.reason, h, putReason_out m.code h, rfl⟩
  | keyframeRequest m =>
      refine (decodeMessage_control Ctrl.kKeyframeRequest _).trans ?_
      exact (decode_keyframeRequest_iff _ _).mpr ⟨m, bodyBytes_keyframeRequest m, rfl⟩
  | formatChange m =>
      refine (decodeMessage_control Ctrl.kFormatChange _).trans ?_
      exact (decode_formatChange_iff _ _).mpr ⟨m.format, bodyBytes_formatChange m, h, rfl⟩
  | ping m =>
      refine (decodeMessage_control Ctrl.kPing _).trans ?_
      exact (decode_ping_iff _ _).mpr ⟨m.token, bodyBytes_ping m, rfl⟩
  | pong m =>
      refine (decodeMessage_control Ctrl.kPong _).trans ?_
      exact (decode_pong_iff _ _).mpr ⟨m.token, bodyBytes_pong m, rfl⟩
  | disconnect m =>
      refine (decodeMessage_control Ctrl.kDisconnect _).trans ?_
      exact (decode_disconnect_iff _ _).mpr
        ⟨m.code, m.reason, h, putReason_out m.code h, rfl⟩
  | videoFrame m =>
      refine (decodeMessage_video Vid.kVideoFrame _).trans ?_
      exact (decode_videoFrame_iff _ _).mpr ⟨m, rfl, rfl⟩

/-- The payload of an encodable message is within the protocol's bound. -/
theorem length_bodyBytes_le {m : Message} (h : m.Encodable) :
    (bodyBytes m).length ≤ kMaxPayload := by
  have hmax : kMaxPayload = 16777216 := rfl
  cases m with
  | hello m =>
      have hlen : (bodyBytes (.hello m)).length = 14 := by
        rw [bodyBytes_hello]; exact Layout.hello.length_write m
      omega
  | welcome m =>
      have hlen : (bodyBytes (.welcome m)).length = 14 := by
        rw [bodyBytes_welcome]; exact Layout.welcome.length_write m
      omega
  | errorMsg m =>
      have hreason : m.reason.length ≤ 0xFFFF := h
      have hlen := length_reasonBody m.code hreason
      show (putReason ⟨[]⟩ m.code m.reason).out.length ≤ kMaxPayload
      omega
  | keyframeRequest m =>
      have hlen : (bodyBytes (.keyframeRequest m)).length = 5 := by
        rw [bodyBytes_keyframeRequest]; exact Layout.keyframeRequest.length_write m
      omega
  | formatChange m =>
      have hlen : (bodyBytes (.formatChange m)).length = 14 := by
        rw [bodyBytes_formatChange]; exact Layout.welcome.length_write m.format
      omega
  | ping m =>
      have hlen : (bodyBytes (.ping m)).length = 8 := by
        rw [bodyBytes_ping]; exact Layout.u64.length_write m.token
      omega
  | pong m =>
      have hlen : (bodyBytes (.pong m)).length = 8 := by
        rw [bodyBytes_pong]; exact Layout.u64.length_write m.token
      omega
  | disconnect m =>
      have hreason : m.reason.length ≤ 0xFFFF := h
      have hlen := length_reasonBody m.code hreason
      show (putReason ⟨[]⟩ m.code m.reason).out.length ≤ kMaxPayload
      omega
  | videoFrame m =>
      have hbits : m.bitstream.length ≤ kMaxPayload - 15 := h
      have hlen : (bodyBytes (.videoFrame m)).length = 15 + m.bitstream.length := by
        rw [bodyBytes_videoFrame, List.length_append, Layout.videoHead.length_write]
        rfl
      omega

/-- **The specification of the decoder**: it accepts exactly the frames of encodable
messages. -/
theorem decodeMessage_iff {f : RawFrame} {m : Message}
    (hlen : f.payload.length ≤ kMaxPayload) :
    decodeMessage f = .ok m ↔ m.Encodable ∧ f = frameOf m := by
  constructor
  · intro h
    exact decodeMessage_sound h hlen
  · rintro ⟨henc, rfl⟩
    exact decodeMessage_frameOf henc

end TetherDisplay.Protocol
