import TetherDisplay.Client.WireProtocol
import TetherDisplay.Protocol.RoundTrip

/-!
# The two implementations of the wire protocol are the same function

The host's `wire.cpp` and the iPad's `WireProtocol.swift` were written separately,
with different types, integer widths and ways to report an error.  `toHost` maps the
client's values to the host's, type by type; each client function is then shown to be
the host's function seen through `toHost`.

* Readers, writers and parsers are simulated step by step, so the agreement of the
  parsers holds for every sequence of feeds and requests.
* The decoders agree on every frame, malformed or not, including the choice of the
  error.  The one thing a Swift `String` cannot hold is an ill-formed reason, so the
  reasons of an ERROR and a DISCONNECT agree where they are well-formed UTF-8
  (`RawFrame.ReasonIsUtf8`), and everything else without a condition.
-/

namespace TetherDisplay.Client

/-! ## The client's values as the host's -/

/-- A channel on the host's side. -/
def Channel.toHost : Channel → Protocol.Channel
  | .control => .control
  | .video => .video

/-- An error on the host's side. -/
def WireError.toHost : WireError → Protocol.WireError
  | .shortBuffer => .shortBuffer
  | .oversizedMessage => .oversizedMessage
  | .unknownChannel => .unknownChannel
  | .unknownType => .unknownType
  | .reservedFlagsSet => .reservedFlagsSet
  | .badField => .badField
  | .trailingBytes => .trailingBytes
  | .unsupportedVersion => .unsupportedVersion

/-- A WELCOME on the host's side. -/
def Welcome.toHost (m : Welcome) : Protocol.Welcome :=
  ⟨m.version, m.codecId, m.width, m.height, m.bitrateKbps, m.fps, m.flags⟩

/-- A message with its reason as UTF-8 bytes. -/
def Message.toHost : Message → Protocol.Message
  | .hello m => .hello ⟨m.version, m.codecMask, m.maxWidth, m.maxHeight,
      m.maxBitrateKbps, m.maxFps, m.featureFlags⟩
  | .welcome m => .welcome m.toHost
  | .error m => .errorMsg ⟨m.code, utf8 m.reason⟩
  | .keyframeRequest m => .keyframeRequest ⟨m.reason, m.lastGoodSeq⟩
  | .formatChange m => .formatChange ⟨m.format.toHost⟩
  | .ping m => .ping ⟨m.token⟩
  | .pong m => .pong ⟨m.token⟩
  | .disconnect m => .disconnect ⟨m.code, utf8 m.reason⟩
  | .videoFrame m =>
      .videoFrame ⟨m.codecId, m.frameType, m.vflags, m.ptsUs, m.seq, m.bitstream⟩

/-- A frame on the host's side. -/
def RawFrame.toHost (f : RawFrame) : Protocol.RawFrame :=
  ⟨f.channel.toHost, f.type, f.flags, f.payload⟩

/-- A writer on the host's side. -/
def ByteWriter.toHost (w : ByteWriter) : Protocol.ByteWriter := ⟨w.data⟩

/-- A reader on the host's side. -/
def ByteReader.toHost (r : ByteReader) : Protocol.ByteReader := ⟨r.d, r.pos, r.error⟩

/-- A parser on the host's side. -/
def FrameParser.toHost (P : FrameParser) : Protocol.FrameParser :=
  ⟨P.buf, P.readPos, P.readPos_le⟩

/-! ## Cursors -/

namespace ByteWriter

variable (w : ByteWriter)

@[simp] theorem toHost_u8 (v : UInt8) : (w.u8 v).toHost = w.toHost.u8 v := rfl

@[simp] theorem toHost_bytes (b : Bytes) : (w.bytes b).toHost = w.toHost.bytes b := rfl

@[simp] theorem toHost_u16 (v : UInt16) : (w.u16 v).toHost = w.toHost.u16 v := by
  simp [u16, Protocol.ByteWriter.u16, Protocol.ByteWriter.u8, toHost, List.range_succ]

@[simp] theorem toHost_u32 (v : UInt32) : (w.u32 v).toHost = w.toHost.u32 v := by
  simp [u32, Protocol.ByteWriter.u32, Protocol.ByteWriter.u8, toHost, List.range_succ]

@[simp] theorem toHost_u64 (v : UInt64) : (w.u64 v).toHost = w.toHost.u64 v := by
  simp [u64, Protocol.ByteWriter.u64, Protocol.ByteWriter.u8, toHost, List.range_succ]

end ByteWriter

namespace ByteReader

variable (r : ByteReader)

@[simp] theorem toHost_error : r.toHost.error = r.error := rfl

@[simp] theorem toHost_remaining : r.toHost.remaining = r.remaining := rfl

/-- A read of the client is the host's when both make the same of the bytes at the
cursor. -/
theorem toHost_field {ω : Type} (n : ℕ) (zero : ω) (load : Bytes → ω)
    (loadAt : ByteReader → ω) (h : ∀ r, loadAt r = load (r.d.drop r.pos)) :
    r.toHost.field n zero load =
      match r.ensure n with
      | (false, r) => (zero, r.toHost)
      | (true, r) => (loadAt r, ({ r with pos := r.pos + n } : ByteReader).toHost) := by
  by_cases herr : r.error
  · simp [Protocol.ByteReader.field, Protocol.ByteReader.ensure, ensure, toHost, herr]
  by_cases hlen : r.d.length - r.pos < n
  · simp [Protocol.ByteReader.field, Protocol.ByteReader.ensure, ensure, toHost, herr, hlen]
  · simp [Protocol.ByteReader.field, Protocol.ByteReader.ensure, ensure, toHost, herr, hlen,
      h]

@[simp] theorem toHost_u8 : r.toHost.u8 = (r.u8.1, r.u8.2.toHost) := by
  rw [Protocol.ByteReader.u8, u8, toHost_field r _ _ _ fun r => r.d.getD r.pos 0]
  · rcases r.ensure 1 with ⟨_ | _, r'⟩ <;> rfl
  · intro r; simp [List.getD_eq_getElem?_getD]

@[simp] theorem toHost_u16 : r.toHost.u16 = (r.u16.1, r.u16.2.toHost) := by
  rw [Protocol.ByteReader.u16, u16, toHost_field r _ _ _ fun r =>
    (r.d.getD r.pos 0).toUInt16 ||| ((r.d.getD (r.pos + 1) 0).toUInt16 <<< 8)]
  · rcases r.ensure 2 with ⟨_ | _, r'⟩ <;> rfl
  · intro r; simp [Protocol.loadU16, List.getD_eq_getElem?_getD]

@[simp] theorem toHost_u32 : r.toHost.u32 = (r.u32.1, r.u32.2.toHost) := by
  rw [Protocol.ByteReader.u32, u32, toHost_field r _ _ _ fun r => (List.range 4).foldl
    (fun v i => v ||| ((r.d.getD (r.pos + i) 0).toUInt32 <<< (8 * UInt32.ofNat i))) 0]
  · rcases r.ensure 4 with ⟨_ | _, r'⟩ <;> rfl
  · intro r; simp [Protocol.loadU32, List.getD_eq_getElem?_getD]

@[simp] theorem toHost_u64 : r.toHost.u64 = (r.u64.1, r.u64.2.toHost) := by
  rw [Protocol.ByteReader.u64, u64, toHost_field r _ _ _ fun r => (List.range 8).foldl
    (fun v i => v ||| ((r.d.getD (r.pos + i) 0).toUInt64 <<< (8 * UInt64.ofNat i))) 0]
  · rcases r.ensure 8 with ⟨_ | _, r'⟩ <;> rfl
  · intro r; simp [Protocol.loadU64, List.getD_eq_getElem?_getD]

@[simp] theorem toHost_take (n : ℕ) :
    r.toHost.take n = ((r.take n).1, (r.take n).2.toHost) := by
  rw [Protocol.ByteReader.take, take, toHost_field r _ _ _ fun r => (r.d.drop r.pos).take n]
  · rcases r.ensure n with ⟨_ | _, r'⟩ <;> rfl
  · intro r; rfl

end ByteReader

/-! ## Encoding -/

/-- The two write WELCOME alike. -/
theorem toHost_putWelcome (w : ByteWriter) (m : Welcome) :
    (putWelcome w m).toHost = Protocol.putWelcomeBody w.toHost m.toHost := by
  simp [putWelcome, Protocol.putWelcomeBody, Welcome.toHost]

/-- The two write a code with its reason alike. -/
theorem toHost_putReason (w : ByteWriter) (code : UInt16) (reason : String) :
    (putReason w code reason).toHost =
      Protocol.putReason w.toHost code (utf8 reason) := by
  have hn : (UInt16.ofNat (min (utf8 reason).length 0xFFFF)).toNat =
      min (utf8 reason).length 0xFFFF :=
    UInt16.toNat_ofNat_of_lt' (by show _ < 2 ^ 16; omega)
  simp [putReason, Protocol.putReason, hn]

/-- The bytes of the channels are the same. -/
theorem rawValue_eq (c : Channel) : c.rawValue = c.toHost.toByte := by
  cases c <;> rfl

/-- Within the payload bound neither the trap nor the host's assertion fires, and the
frames are the same bytes. -/
theorem encodeFrame_toHost (channel : Channel) (type : UInt8) {payload : Bytes}
    (h : payload.length ≤ Protocol.kMaxPayload) :
    encodeFrame channel type payload =
      some (Protocol.encodeFrame channel.toHost type payload) := by
  have hbound : Protocol.kMaxPayload = 16777216 := rfl
  have hlength : UInt32.ofNat (3 + payload.length) =
      (3 + UInt64.ofNat payload.length : UInt64).toUInt32 := by
    apply UInt32.toNat_inj.mp
    rw [UInt64.toNat_toUInt32, UInt64.toNat_add, UInt64.toNat_ofNat', UInt32.toNat_ofNat',
      show (3 : UInt64).toNat = 3 from rfl]
    omega
  rw [encodeFrame, if_pos (show payload.length ≤ Wire.maxPayload from h)]
  simp only [Protocol.encodeFrame, ← hlength, rawValue_eq]
  refine congrArg some ?_
  show (ByteWriter.bytes _ payload).toHost.out = _
  simp only [ByteWriter.toHost_bytes, ByteWriter.toHost_u8, ByteWriter.toHost_u32]
  rfl

/-- **The encoders agree** on every message whose payload is within the bound that
`precondition` and `assert` demand. -/
theorem encode_toHost (m : Message)
    (h : (Protocol.bodyBytes m.toHost).length ≤ Protocol.kMaxPayload) :
    encode m = some (Protocol.encode m.toHost) := by
  have hframe : ∀ (channel : Channel) (type : UInt8) (w : ByteWriter),
      w.toHost = (Protocol.bodyOf ⟨[]⟩ m.toHost).2.2 →
      (Protocol.bodyOf ⟨[]⟩ m.toHost).1 = channel.toHost →
      (Protocol.bodyOf ⟨[]⟩ m.toHost).2.1 = type →
        encodeFrame channel type w.data = some (Protocol.encode m.toHost) := by
    intro channel type w hw hchannel htype
    have hdata : w.data = (Protocol.bodyOf ⟨[]⟩ m.toHost).2.2.out :=
      congrArg Protocol.ByteWriter.out hw
    rw [Protocol.bodyBytes, ← hdata] at h
    rw [encodeFrame_toHost channel type h, Protocol.encode, ← hchannel, ← htype, hdata]
  cases m with
  | hello m =>
      refine hframe _ _ _ ?_ rfl rfl
      simp only [ByteWriter.toHost_u8, ByteWriter.toHost_u16, ByteWriter.toHost_u32]
      rfl
  | welcome m => exact hframe _ _ _ (toHost_putWelcome _ m) rfl rfl
  | error m => exact hframe _ _ _ (toHost_putReason _ m.code m.reason) rfl rfl
  | keyframeRequest m =>
      refine hframe _ _ _ ?_ rfl rfl
      simp only [ByteWriter.toHost_u8, ByteWriter.toHost_u32]
      rfl
  | formatChange m => exact hframe _ _ _ (toHost_putWelcome _ m.format) rfl rfl
  | ping m => exact hframe _ _ _ (ByteWriter.toHost_u64 _ m.token) rfl rfl
  | pong m => exact hframe _ _ _ (ByteWriter.toHost_u64 _ m.token) rfl rfl
  | disconnect m => exact hframe _ _ _ (toHost_putReason _ m.code m.reason) rfl rfl
  | videoFrame m =>
      refine hframe _ _ _ ?_ rfl rfl
      simp only [ByteWriter.toHost_bytes, ByteWriter.toHost_u8, ByteWriter.toHost_u32,
        ByteWriter.toHost_u64]
      rfl

/-! ## Decoding -/

/-- Two results of decoding: the same error, or messages that are the same as soon as
`wellFormed` holds. -/
def SameOutcome (wellFormed : Prop) :
    Except WireError Message → Except Protocol.WireError Protocol.Message → Prop
  | .error e, .error e' => e.toHost = e'
  | .ok m, .ok m' => wellFormed → m.toHost = m'
  | _, _ => False

/-- The reason an ERROR or DISCONNECT frame carries is well-formed UTF-8. -/
def RawFrame.ReasonIsUtf8 (f : RawFrame) : Prop :=
  f.channel = .control → f.type = Wire.tError ∨ f.type = Wire.tDisconnect →
    IsUtf8 (f.payload.drop 4)

section Decoding

variable {wellFormed : Prop} (r : ByteReader)

/-- The two finish alike. -/
theorem sameOutcome_finish {m : Message} {m' : Protocol.Message}
    (h : wellFormed → m.toHost = m') :
    SameOutcome wellFormed (finish r m) (Protocol.finish r.toHost m') := by
  unfold finish Protocol.finish
  rw [ByteReader.toHost_error, ByteReader.toHost_remaining]
  by_cases herr : r.error
  · simp [herr, SameOutcome, WireError.toHost]
  by_cases hrest : r.remaining = 0
  · simpa [herr, hrest, SameOutcome] using h
  · simp [herr, hrest, SameOutcome, WireError.toHost]

/-- The two read WELCOME alike. -/
theorem toHost_readWelcome :
    Protocol.decodeWelcomeBody r.toHost =
      ((readWelcome r).1.toHost, (readWelcome r).2.toHost) := by
  simp [Protocol.decodeWelcomeBody, readWelcome, Welcome.toHost]

/-- The version check after a body, and then `finish`. -/
theorem sameOutcome_version {version : UInt16} {m : Message} {m' : Protocol.Message}
    (h : m.toHost = m') :
    SameOutcome wellFormed
      (if r.error then .error .shortBuffer
        else if version ≠ Wire.protocolVersion then .error .unsupportedVersion
        else finish r m)
      (if r.toHost.error then .error .shortBuffer
        else if version ≠ Protocol.kProtocolVersion then .error .unsupportedVersion
        else Protocol.finish r.toHost m') := by
  rw [ByteReader.toHost_error]
  by_cases herr : r.error
  · simp [herr, SameOutcome, WireError.toHost]
  by_cases hversion : version = Wire.protocolVersion
  · rw [if_neg herr, if_neg herr, if_neg (not_not.mpr hversion),
      if_neg (not_not.mpr (show version = Protocol.kProtocolVersion from hversion))]
    exact sameOutcome_finish r fun _ => h
  · rw [if_neg herr, if_neg herr, if_pos hversion,
      if_pos (show version ≠ Protocol.kProtocolVersion from hversion)]
    rfl

/-- The check for a short body, and then `finish`. -/
theorem sameOutcome_short {m : Message} {m' : Protocol.Message} (h : m.toHost = m') :
    SameOutcome wellFormed
      (if r.error then .error .shortBuffer else finish r m)
      (if r.toHost.error then .error .shortBuffer else Protocol.finish r.toHost m') := by
  rw [ByteReader.toHost_error]
  by_cases herr : r.error
  · simp [herr, SameOutcome, WireError.toHost]
  · rw [if_neg herr, if_neg herr]
    exact sameOutcome_finish r fun _ => h

/-- A reason that takes up all that is left is the payload behind its head. -/
theorem reason_eq_drop {p : Bytes}
    (herr : (ByteReader.u16 (ByteReader.u16 ⟨p, 0, false⟩).2).2.error = false)
    (hlen : (ByteReader.u16 (ByteReader.u16 ⟨p, 0, false⟩).2).2.remaining =
      (ByteReader.u16 (ByteReader.u16 ⟨p, 0, false⟩).2).1.toNat) :
    ((ByteReader.u16 (ByteReader.u16 ⟨p, 0, false⟩).2).2.take
      (ByteReader.u16 (ByteReader.u16 ⟨p, 0, false⟩).2).1.toNat).1 = p.drop 4 := by
  have hread : Protocol.Layout.reasonHead.read (ByteReader.toHost ⟨p, 0, false⟩) =
      (((ByteReader.u16 ⟨p, 0, false⟩).1, (ByteReader.u16 (ByteReader.u16 ⟨p, 0, false⟩).2).1),
        (ByteReader.u16 (ByteReader.u16 ⟨p, 0, false⟩).2).2.toHost) := by
    show (((ByteReader.toHost ⟨p, 0, false⟩).u16.1,
      (ByteReader.toHost ⟨p, 0, false⟩).u16.2.u16.1),
      (ByteReader.toHost ⟨p, 0, false⟩).u16.2.u16.2) = _
    simp only [ByteReader.toHost_u16]
  have htake := (ByteReader.u16 (ByteReader.u16 ⟨p, 0, false⟩).2).2.toHost_take
    (ByteReader.u16 (ByteReader.u16 ⟨p, 0, false⟩).2).1.toNat
  rw [← ByteReader.toHost_remaining] at hlen
  rw [← ByteReader.toHost_error] at herr
  generalize (ByteReader.u16 (ByteReader.u16 ⟨p, 0, false⟩).2).2 = r at *
  generalize (ByteReader.u16 (ByteReader.u16 ⟨p, 0, false⟩).2).1 = n at *
  by_cases hshort : p.length < Protocol.Layout.reasonHead.width
  · have hbad := Protocol.Layout.reasonHead.read_short hshort
    rw [show (⟨p, 0, false⟩ : Protocol.ByteReader) = ByteReader.toHost ⟨p, 0, false⟩ from rfl,
      hread, herr] at hbad
    cases hbad
  obtain ⟨head, reason, rfl⟩ :=
    Protocol.Layout.reasonHead.exists_write (Nat.not_lt.mp hshort)
  have hstart := Protocol.Layout.reasonHead.read_start head reason
  rw [show (⟨Protocol.Layout.reasonHead.write head ++ reason, 0, false⟩ : Protocol.ByteReader)
    = ByteReader.toHost ⟨Protocol.Layout.reasonHead.write head ++ reason, 0, false⟩ from rfl,
    hread] at hstart
  have hr : r.toHost = Protocol.ByteReader.reading (Protocol.Layout.reasonHead.write head)
    reason := congrArg Prod.snd hstart
  rw [hr, Protocol.ByteReader.reading_remaining] at hlen
  have hall := Protocol.ByteReader.take_reading (Protocol.Layout.reasonHead.write head) reason []
  rw [List.append_nil, ← hr, hlen, htake] at hall
  rw [congrArg Prod.fst hall]
  exact (List.drop_left' (Protocol.Layout.reasonHead.length_write head)).symm

/-- A case of the switch the two decoders share. -/
theorem sameOutcome_ite {c : Prop} [Decidable c] {a b : Except WireError Message}
    {a' b' : Except Protocol.WireError Protocol.Message}
    (hthen : c → SameOutcome wellFormed a a') (helse : ¬ c → SameOutcome wellFormed b b') :
    SameOutcome wellFormed (if c then a else b) (if c then a' else b') := by
  by_cases hc : c
  · rw [if_pos hc, if_pos hc]; exact hthen hc
  · rw [if_neg hc, if_neg hc]; exact helse hc

/-- The decoders of a control frame, case by case of their switch. -/
theorem decodeControl_toHost (type : UInt8) (p : Bytes)
    (h : wellFormed → type = Wire.tError ∨ type = Wire.tDisconnect → IsUtf8 (p.drop 4)) :
    SameOutcome wellFormed (decodeControl type ⟨p, 0, false⟩)
      (Protocol.decodeControl type ⟨p, 0, false⟩) := by
  have hstart : (⟨p, 0, false⟩ : Protocol.ByteReader) = ByteReader.toHost ⟨p, 0, false⟩ := rfl
  rw [hstart]
  unfold decodeControl Protocol.decodeControl
  refine sameOutcome_ite (fun _ => ?hello) fun _ => sameOutcome_ite (fun _ => ?welcome)
    fun _ => sameOutcome_ite (fun _ => ?formatChange) fun _ =>
    sameOutcome_ite (fun htype => ?reason) fun _ => sameOutcome_ite (fun _ => ?keyframe)
    fun _ => sameOutcome_ite (fun _ => ?ping) fun _ => sameOutcome_ite (fun _ => ?pong)
    fun _ => rfl
  case hello =>
    simp only [Protocol.readHello, ByteReader.toHost_u8, ByteReader.toHost_u16,
      ByteReader.toHost_u32]
    exact sameOutcome_version _ rfl
  case welcome =>
    simp only [toHost_readWelcome]
    exact sameOutcome_version _ rfl
  case formatChange =>
    simp only [toHost_readWelcome]
    exact sameOutcome_version _ rfl
  case keyframe =>
    simp only [ByteReader.toHost_u8, ByteReader.toHost_u32]
    exact sameOutcome_short _ rfl
  case ping =>
    simp only [ByteReader.toHost_u64]
    exact sameOutcome_short _ rfl
  case pong =>
    simp only [ByteReader.toHost_u64]
    exact sameOutcome_short _ rfl
  case reason =>
    simp only [ByteReader.toHost_u16, ByteReader.toHost_take, ByteReader.toHost_error,
      ByteReader.toHost_remaining]
    by_cases herr : (ByteReader.u16 (ByteReader.u16 ⟨p, 0, false⟩).2).2.error
    · simp [herr, SameOutcome, WireError.toHost]
    by_cases hlen : (ByteReader.u16 (ByteReader.u16 ⟨p, 0, false⟩).2).2.remaining =
        (ByteReader.u16 (ByteReader.u16 ⟨p, 0, false⟩).2).1.toNat
    · have hreason := reason_eq_drop (Bool.not_eq_true _ ▸ herr) hlen
      rw [if_neg herr, if_neg herr, if_neg (not_not.mpr hlen), if_neg (not_not.mpr hlen)]
      refine sameOutcome_ite (fun _ => ?_) fun _ => ?_
      · refine sameOutcome_finish _ fun hwell => ?_
        rw [hreason]
        simp [Message.toHost, utf8_stringDecoding (h hwell htype)]
      · refine sameOutcome_finish _ fun hwell => ?_
        rw [hreason]
        simp [Message.toHost, utf8_stringDecoding (h hwell htype)]
    · simp [herr, hlen, SameOutcome, WireError.toHost]

/-- The two decode the video channel alike. -/
theorem decodeVideo_toHost (type : UInt8) (r : ByteReader) :
    SameOutcome wellFormed (decodeVideo type r) (Protocol.decodeVideo type r.toHost) := by
  unfold decodeVideo Protocol.decodeVideo
  refine sameOutcome_ite (fun _ => rfl) fun _ => ?_
  simp only [ByteReader.toHost_u8, ByteReader.toHost_u32, ByteReader.toHost_u64,
    ByteReader.toHost_take, ByteReader.toHost_error, ByteReader.toHost_remaining]
  exact sameOutcome_ite (fun _ => rfl) fun _ _ => rfl

/-- **The decoders agree on every frame.** -/
theorem decodeMessage_toHost (f : RawFrame) :
    SameOutcome f.ReasonIsUtf8 (decodeMessage f) (Protocol.decodeMessage f.toHost) := by
  obtain ⟨channel, type, flags, payload⟩ := f
  unfold decodeMessage Protocol.decodeMessage
  refine sameOutcome_ite (fun _ => rfl) fun _ => ?_
  cases channel with
  | control => exact decodeControl_toHost type payload fun hwell => hwell rfl
  | video => exact decodeVideo_toHost type ⟨payload, 0, false⟩

end Decoding

/-! ## The parsers -/

/-- An answer of the client's parser as one of the host's. -/
def toHostAnswer :
    Except WireError (Option RawFrame) → Except Protocol.WireError (Option Protocol.RawFrame)
  | .ok frame => .ok (frame.map RawFrame.toHost)
  | .error e => .error e.toHost

/-- The two know the same channels. -/
theorem ofRawValue?_toHost (b : UInt8) :
    Protocol.Channel.ofByte? b = (Channel.ofRawValue? b).map Channel.toHost := by
  unfold Protocol.Channel.ofByte? Channel.ofRawValue?
  by_cases h₀ : b = 0
  · subst h₀; rfl
  by_cases h₁ : b = 1
  · subst h₁; rfl
  · rw [if_neg h₀, if_neg h₁, if_neg (show ¬ b = Protocol.Channel.control.toByte from h₀),
      if_neg (show ¬ b = Protocol.Channel.video.toByte from h₁)]
    rfl

namespace FrameParser

variable (P : FrameParser)

/-- The two are fed alike. -/
theorem toHost_feed (data : Bytes) : (P.feed data).toHost = P.toHost.feed data := by
  by_cases hdrained : 0 < P.readPos ∧ P.readPos = P.buf.length
  · have hcompact : P.toHost.compact = { buf := [] } := if_pos hdrained
    simp only [feed, Protocol.FrameParser.feed, hcompact, if_pos hdrained]
    rfl
  by_cases hlong : 64 * 1024 < P.readPos
  · have hcompact : P.toHost.compact = { buf := P.buf.drop P.readPos } :=
      (if_neg hdrained).trans (if_pos hlong)
    simp only [feed, Protocol.FrameParser.feed, hcompact, if_neg hdrained, if_pos hlong]
    rfl
  · have hcompact : P.toHost.compact = P.toHost := (if_neg hdrained).trans (if_neg hlong)
    simp only [feed, Protocol.FrameParser.feed, hcompact, if_neg hdrained, if_neg hlong]
    rfl

/-- **One request.**  The parsers answer alike and are alike afterwards. -/
theorem toHost_next :
    P.toHost.answer = (toHostAnswer P.next.1, P.next.2.toHost) := by
  have hload : (List.range 4).foldl (fun v i =>
      v ||| ((P.buf.getD (P.readPos + i) 0).toUInt32 <<< (8 * UInt32.ofNat i))) 0 =
        Protocol.loadU32 (P.buf.drop P.readPos) := by
    simp [Protocol.loadU32, List.getD_eq_getElem?_getD]
  unfold next Protocol.FrameParser.answer Protocol.FrameParser.next
  simp only [hload, show P.toHost.buf = P.buf from rfl,
    show P.toHost.readPos = P.readPos from rfl]
  obtain ⟨length, hlength⟩ : ∃ length, Protocol.loadU32 (P.buf.drop P.readPos) = length :=
    ⟨_, rfl⟩
  simp only [hlength]
  by_cases hshort : P.buf.length - P.readPos < 4
  · simp only [if_pos hshort]; rfl
  by_cases hmin : length < 3
  · simp only [if_neg hshort, if_pos hmin]; rfl
  simp only [if_neg hshort, if_neg hmin, Protocol.FrameParser.toNat_length_sub hmin]
  by_cases hmax : Protocol.kMaxPayload < length.toNat - 3
  · rw [if_pos hmax, if_pos (show Wire.maxPayload < length.toNat - 3 from hmax)]; rfl
  simp only [if_neg hmax, if_neg (show ¬ Wire.maxPayload < length.toNat - 3 from hmax),
    Protocol.FrameParser.toNat_length_add hmax]
  by_cases hwhole : P.buf.length - P.readPos < 4 + length.toNat
  · simp only [dif_pos hwhole]; rfl
  simp only [dif_neg hwhole]
  have hget : ∀ i, (P.buf.drop P.readPos).getD i 0 = P.buf.getD (P.readPos + i) 0 := by
    intro i; simp [List.getD_eq_getElem?_getD]
  simp only [hget, ofRawValue?_toHost, List.drop_drop]
  cases Channel.ofRawValue? (P.buf.getD (P.readPos + 4) 0) with
  | none => rfl
  | some channel => rfl

/-- The parsers agree through any calls. -/
theorem toHost_runCalls (calls : List (Framing.Call UInt8)) :
    Framing.runCalls Protocol.FrameParser.feed Protocol.FrameParser.answer P.toHost calls =
      ((Framing.runCalls feed next P calls).1.map toHostAnswer,
        (Framing.runCalls feed next P calls).2.toHost) := by
  induction calls generalizing P with
  | nil => rfl
  | cons call calls ih =>
      cases call with
      | feed chunk =>
          simp only [Framing.runCalls]
          rw [← toHost_feed]
          exact ih (P.feed chunk)
      | next =>
          simp only [Framing.runCalls, toHost_next, ih P.next.2, List.map_cons]

end FrameParser

/-- Frames correspond one to one. -/
theorem RawFrame.toHost_bijective : Function.Bijective RawFrame.toHost := by
  constructor
  · rintro ⟨c, type, flags, payload⟩ ⟨c', type', flags', payload'⟩ h
    injection h with hc htype hflags hpayload
    subst htype hflags hpayload
    cases c <;> cases c' <;> first | rfl | cases hc
  · rintro ⟨c, type, flags, payload⟩
    cases c with
    | control => exact ⟨⟨.control, type, flags, payload⟩, rfl⟩
    | video => exact ⟨⟨.video, type, flags, payload⟩, rfl⟩

theorem WireError.toHost_injective : Function.Injective WireError.toHost := by
  intro e e' h
  cases e <;> cases e' <;> first | rfl | cases h

/-! ## The client's parser as a reader

Everything known of the host's parser holds of the client's, with the host's grammar
read in the client's types. -/

/-- The way back, for frames. -/
def RawFrame.ofHost (f : Protocol.RawFrame) : RawFrame :=
  ⟨match f.channel with | .control => .control | .video => .video, f.type, f.flags, f.payload⟩

/-- The client's name for a hard error of the framing; there are no others to name. -/
def WireError.ofHost : Protocol.WireError → WireError
  | .oversizedMessage => .oversizedMessage
  | .unknownChannel => .unknownChannel
  | .shortBuffer => .shortBuffer
  | .unknownType => .unknownType
  | .reservedFlagsSet => .reservedFlagsSet
  | .trailingBytes => .trailingBytes
  | .unsupportedVersion => .unsupportedVersion
  | _ => .badField

theorem RawFrame.toHost_ofHost (f : Protocol.RawFrame) : (ofHost f).toHost = f := by
  obtain ⟨c, type, flags, payload⟩ := f
  cases c <;> rfl

theorem WireError.ofHost_toHost (e : WireError) : ofHost e.toHost = e := by
  cases e <;> rfl

/-- What an unread stream begins with, in the client's types. -/
def scanFrame (s : Bytes) : Framing.Scan RawFrame WireError :=
  match Protocol.scanFrame s with
  | .more => .more
  | .item f k => .item (.ofHost f) k
  | .fail e => .fail (.ofHost e)

/-- Where the one finds a frame, the other finds the same. -/
theorem scanFrame_eq_item {s : Bytes} {f : RawFrame} {k : ℕ}
    (h : scanFrame s = .item f k) :
    ∃ g, Protocol.scanFrame s = .item g k ∧ f = .ofHost g := by
  unfold scanFrame at h
  split at h
  · cases h
  · cases h; exact ⟨_, ‹_›, rfl⟩
  · cases h

/-- Where the one fails, the other fails alike. -/
theorem scanFrame_eq_fail {s : Bytes} {e : WireError} (h : scanFrame s = .fail e) :
    ∃ e', Protocol.scanFrame s = .fail e' ∧ e = .ofHost e' := by
  unfold scanFrame at h
  split at h
  · cases h
  · cases h
  · cases h; exact ⟨_, ‹_›, rfl⟩

/-- Where the one waits for more, so does the other. -/
theorem scanFrame_eq_more {s : Bytes} (h : scanFrame s = .more) :
    Protocol.scanFrame s = .more := by
  unfold scanFrame at h
  split at h
  · assumption
  · cases h
  · cases h

/-- The framing of protocol v1 in the client's types. -/
def frameGrammar : Framing.Grammar UInt8 RawFrame WireError where
  scan := scanFrame
  used_pos h := by
    obtain ⟨g, hg, -⟩ := scanFrame_eq_item h
    exact Protocol.frameGrammar.used_pos hg
  used_le h := by
    obtain ⟨g, hg, -⟩ := scanFrame_eq_item h
    exact Protocol.frameGrammar.used_le hg
  item_append h t := by
    obtain ⟨g, hg, rfl⟩ := scanFrame_eq_item h
    have happend := Protocol.frameGrammar.item_append hg t
    rw [scanFrame, show Protocol.scanFrame _ = _ from happend]
  fail_append h t := by
    obtain ⟨e, he, rfl⟩ := scanFrame_eq_fail h
    have happend := Protocol.frameGrammar.fail_append he t
    rw [scanFrame, show Protocol.scanFrame _ = _ from happend]

/-- The bytes fed and not yet returned in a frame. -/
def FrameParser.unread (P : FrameParser) : Bytes := P.buf.drop P.readPos

theorem toHostAnswer_injective : Function.Injective toHostAnswer := by
  intro a a' h
  cases a with
  | error e =>
      cases a' with
      | error e' => rw [WireError.toHost_injective (Except.error.inj h)]
      | ok f' => cases h
  | ok f =>
      cases a' with
      | error e' => cases h
      | ok f' =>
          have hmap := Except.ok.inj h
          rw [Option.map_injective RawFrame.toHost_bijective.injective hmap]

/-- **The client's parser is a buffered reader.** -/
def frameReader : Framing.BufferedReader frameGrammar FrameParser where
  unread := FrameParser.unread
  feed := FrameParser.feed
  next := FrameParser.next
  unread_feed P chunk := by
    show (P.feed chunk).toHost.unread = _
    rw [FrameParser.toHost_feed, Protocol.FrameParser.unread_feed]
    rfl
  next_more {P} h := by
    have hhost := Protocol.frameReader.next_more (s := P.toHost) (scanFrame_eq_more h)
    rw [show Protocol.frameReader.next P.toHost = _ from P.toHost_next] at hhost
    exact ⟨toHostAnswer_injective hhost.1, hhost.2⟩
  next_item {P f k} h := by
    obtain ⟨g, hg, rfl⟩ := scanFrame_eq_item h
    have hhost := Protocol.frameReader.next_item (s := P.toHost) hg
    rw [show Protocol.frameReader.next P.toHost = _ from P.toHost_next] at hhost
    refine ⟨toHostAnswer_injective (hhost.1.trans ?_), hhost.2⟩
    rw [toHostAnswer, Option.map_some, RawFrame.toHost_ofHost]
  next_fail {P e} h := by
    obtain ⟨e', he', rfl⟩ := scanFrame_eq_fail h
    have hhost := Protocol.frameReader.next_fail (s := P.toHost) he'
    rw [show Protocol.frameReader.next P.toHost = _ from P.toHost_next] at hhost
    refine ⟨?_, hhost.2⟩
    obtain ⟨answer, hanswer⟩ : ∃ answer, P.next.1 = answer := ⟨_, rfl⟩
    have herror := hhost.1
    rw [hanswer] at herror
    cases answer with
    | ok frame => cases herror
    | error e =>
        rw [← Except.error.inj herror, WireError.ofHost_toHost]
        exact hanswer

/-! ## The implementations agree -/

/-- The reason of an ERROR or DISCONNECT is well-formed UTF-8. -/
def HasUtf8Reason : Protocol.Message → Prop
  | .errorMsg m => IsUtf8 m.reason
  | .disconnect m => IsUtf8 m.reason
  | _ => True

/-- The client can hold every message whose reason is well formed. -/
theorem Message.exists_toHost {M : Protocol.Message} (h : HasUtf8Reason M) :
    ∃ m : Message, m.toHost = M := by
  cases M with
  | hello m => exact ⟨.hello ⟨m.protocolVersion, m.codecMask, m.maxWidth, m.maxHeight,
      m.maxBitrateKbps, m.maxFps, m.featureFlags⟩, rfl⟩
  | welcome m => exact ⟨.welcome ⟨m.protocolVersion, m.codecId, m.width, m.height,
      m.bitrateKbps, m.fps, m.sessionFlags⟩, rfl⟩
  | errorMsg m =>
      refine ⟨.error ⟨m.code, stringDecoding m.reason⟩, ?_⟩
      rw [toHost, utf8_stringDecoding h]
  | keyframeRequest m => exact ⟨.keyframeRequest ⟨m.reason, m.lastGoodSeq⟩, rfl⟩
  | formatChange m => exact ⟨.formatChange ⟨⟨m.format.protocolVersion, m.format.codecId,
      m.format.width, m.format.height, m.format.bitrateKbps, m.format.fps,
      m.format.sessionFlags⟩⟩, rfl⟩
  | ping m => exact ⟨.ping ⟨m.token⟩, rfl⟩
  | pong m => exact ⟨.pong ⟨m.token⟩, rfl⟩
  | disconnect m =>
      refine ⟨.disconnect ⟨m.code, stringDecoding m.reason⟩, ?_⟩
      rw [toHost, utf8_stringDecoding h]
  | videoFrame m =>
      exact ⟨.videoFrame ⟨m.codecId, m.frameType, m.vflags, m.ptsUs, m.seq, m.bitstream⟩,
        rfl⟩

/-- **The two implementations are the same function.**

* Through any calls the parsers give corresponding answers, one for one: the same
  frames, and the same hard error at the same request.
* On every frame the decoders fail with the same error or succeed with messages whose
  fields are equal (a reason, where it is well-formed UTF-8).
* Every message within the payload bound is encoded to the same bytes.

Frames and errors of the two sides correspond one to one, and so do messages up to the
reasons a `String` cannot hold. -/
theorem implementations_agree :
    (∀ calls, (Protocol.FrameParser.session calls).1 =
      (Framing.runCalls FrameParser.feed FrameParser.next {} calls).1.map toHostAnswer) ∧
    (∀ f : RawFrame,
      SameOutcome f.ReasonIsUtf8 (decodeMessage f) (Protocol.decodeMessage f.toHost)) ∧
    (∀ m : Message, (Protocol.bodyBytes m.toHost).length ≤ Protocol.kMaxPayload →
      encode m = some (Protocol.encode m.toHost)) ∧
    Function.Bijective RawFrame.toHost ∧ Function.Injective WireError.toHost ∧
    ∀ M, HasUtf8Reason M → ∃ m : Message, m.toHost = M := by
  refine ⟨?_, decodeMessage_toHost, encode_toHost, RawFrame.toHost_bijective,
    WireError.toHost_injective, fun M h => Message.exists_toHost h⟩
  intro calls
  have hrun := FrameParser.toHost_runCalls {} calls
  exact congrArg Prod.fst hrun

/-- The two encoders at a DISCONNECT whose reason is not ASCII. -/
theorem implementations_agree_disconnect :
    encode (.disconnect ⟨2, "adiós"⟩) =
      some (Protocol.encode (.disconnect ⟨2, utf8 "adiós"⟩)) :=
  implementations_agree.2.2.1 (.disconnect ⟨2, "adiós"⟩) (by decide +kernel)

end TetherDisplay.Client
