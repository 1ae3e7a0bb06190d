import TetherDisplay.Protocol.FrameParser

/-!
# Messages and frames correspond

The encoder, the frame parser and the decoder put together.  `encode` writes the
bytes of the frame a message is put into, the parser finds exactly that frame in
them, and the decoder gets the message back; conversely whatever frame the decoder
accepts, the encoder writes byte for byte.

The two directions meet in `frameOf`.  The decoder accepts the frames of encodable
messages and no others (`decodeMessage_iff`), and the bytes of such a frame are what
`encode` writes (`encode_eq_wire`).
-/

namespace TetherDisplay.Protocol

open LittleEndian

/-- Within the payload bound the narrowed length field loses nothing. -/
theorem encodeFrame_eq_wire (channel : Channel) (type : UInt8) {payload : Bytes}
    (h : payload.length ≤ kMaxPayload) :
    encodeFrame channel type payload = (⟨channel, type, 0, payload⟩ : RawFrame).wire := by
  have hbound : kMaxPayload = 16777216 := rfl
  have hlength : (3 + UInt64.ofNat payload.length : UInt64).toUInt32.toNat =
      3 + payload.length := by
    rw [UInt64.toNat_toUInt32, UInt64.toNat_add, UInt64.toNat_ofNat',
      show (3 : UInt64).toNat = 3 from rfl]
    omega
  have hchannel := leBytes_one channel.toByte
  have htype := leBytes_one type
  have hflags := leBytes_one 0
  simp only [encodeFrame, ByteWriter.bytes_out, ByteWriter.u8_out, ByteWriter.u32_out,
    hlength, hchannel, htype, hflags]
  simp [RawFrame.wire]

/-- **`encode` writes the bytes of the message's frame.** -/
theorem encode_eq_wire {m : Message} (h : m.Encodable) : encode m = (frameOf m).wire :=
  encodeFrame_eq_wire _ _ (length_bodyBytes_le h)

/-- Frames on the wire are told apart. -/
theorem RawFrame.wire_append_injective {f g : RawFrame} {t u : Bytes}
    (hf : f.payload.length ≤ kMaxPayload) (hg : g.payload.length ≤ kMaxPayload)
    (h : f.wire ++ t = g.wire ++ u) : f = g ∧ t = u := by
  have hscan : scanFrame (f.wire ++ t) = .item f f.wire.length :=
    scanFrame_item_iff.mpr ⟨hf, rfl, t, rfl⟩
  rw [h, scanFrame_item_iff.mpr ⟨hg, rfl, u, rfl⟩] at hscan
  obtain rfl : g = f := by injection hscan
  exact ⟨rfl, List.append_cancel_left h⟩

namespace FrameParser

/-- A frame returned is taken, byte for byte, off the front of what was unread. -/
theorem unread_of_next {P : FrameParser} {f : RawFrame} (h : P.next.1.1 = some f) :
    f.payload.length ≤ kMaxPayload ∧ P.unread = f.wire ++ P.next.2.unread := by
  have hnext := P.next_scan
  cases hscan : scanFrame P.unread with
  | more => rw [hscan] at hnext; rw [hnext] at h; cases h
  | fail e => rw [hscan] at hnext; rw [hnext] at h; cases h
  | item g k =>
      rw [hscan] at hnext
      rw [hnext.1] at h
      cases h
      obtain ⟨hmax, rfl, t, hunread⟩ := scanFrame_item_iff.mp hscan
      refine ⟨hmax, ?_⟩
      rw [hnext.2, hunread, List.drop_left]

/-- A parser whose unread bytes begin with those of a frame returns it next. -/
theorem next_of_unread {P : FrameParser} {f : RawFrame} {t : Bytes}
    (hmax : f.payload.length ≤ kMaxPayload) (h : P.unread = f.wire ++ t) :
    P.next.1 = (some f, .ok) ∧ P.next.2.unread = t := by
  have hnext := P.next_scan
  rw [scanFrame_item_iff.mpr ⟨hmax, rfl, t, h⟩] at hnext
  refine ⟨hnext.1, ?_⟩
  rw [hnext.2, h, List.drop_left]

/-- Nothing comes of nothing. -/
theorem next_of_unread_nil {P : FrameParser} (h : P.unread = []) :
    P.next = ((none, .needMoreData), P) := by
  have hnext := P.next_scan
  rwa [h, scanFrame_short (by simp)] at hnext

/-- A parser that returns no frame has none, and keeps what it has. -/
theorem scan_of_next_none {P P' : FrameParser} {e : WireError} (h : P.next = ((none, e), P')) :
    P'.unread = P.unread ∧
      (e = .needMoreData ∧ scanFrame P.unread = .more ∨
        e ≠ .needMoreData ∧ scanFrame P.unread = .fail e) := by
  have hnext := P.next_scan
  cases hscan : scanFrame P.unread with
  | more =>
      rw [hscan, h] at hnext
      obtain ⟨⟨-, rfl⟩, rfl⟩ : ((none : Option RawFrame) = none ∧ e = .needMoreData) ∧ P' = P := by
        simpa using hnext
      exact ⟨rfl, Or.inl ⟨rfl, rfl⟩⟩
  | fail e' =>
      rw [hscan, h] at hnext
      obtain ⟨⟨-, rfl⟩, rfl⟩ : ((none : Option RawFrame) = none ∧ e = e') ∧ P' = P := by
        simpa using hnext
      exact ⟨rfl, Or.inr ⟨hard_of_scanFrame_fail hscan, rfl⟩⟩
  | item f k =>
      rw [hscan, h] at hnext
      cases hnext.1

end FrameParser

/-- **The codec is a bijection between encodable messages and the frames the decoder
accepts.**

* What `encode` writes for an encodable message is one frame to a fresh parser, which
  consumes every byte of it, and the decoder returns the message.
* A frame the decoder accepts has zero flags and is, byte for byte, what `encode` writes
  for the message, which is encodable; and where a parser returned the frame, these
  are the bytes it took it from.
* So the frames accepted are exactly those written for encodable messages, and no two
  of them decode to the same message. -/
theorem codec_bijection :
    (∀ m : Message, m.Encodable →
      let P := ({} : FrameParser).feed (encode m)
      P.next.1 = (some (frameOf m), .ok) ∧ P.next.2.buffered = 0 ∧
        P.next.2.next.1 = (none, .needMoreData) ∧ decodeMessage (frameOf m) = .ok m) ∧
      (∀ f m, f.payload.length ≤ kMaxPayload → decodeMessage f = .ok m →
        m.Encodable ∧ f.flags = 0 ∧ encode m = f.wire ∧
          ∀ P : FrameParser, P.next.1.1 = some f →
            P.unread = encode m ++ P.next.2.unread) ∧
      (∀ f, f.payload.length ≤ kMaxPayload →
        ((∃ m, decodeMessage f = .ok m) ↔ ∃ m, m.Encodable ∧ encode m = f.wire)) ∧
      ∀ f g m, f.payload.length ≤ kMaxPayload → g.payload.length ≤ kMaxPayload →
        decodeMessage f = .ok m → decodeMessage g = .ok m → f = g := by
  refine ⟨?_, ?_, ?_, ?_⟩
  · intro m henc P
    have hunread : P.unread = (frameOf m).wire ++ [] := by
      rw [FrameParser.unread_feed, encode_eq_wire henc, List.append_nil]
      rfl
    obtain ⟨hnext, hrest⟩ := FrameParser.next_of_unread (length_bodyBytes_le henc) hunread
    refine ⟨hnext, ?_, ?_, decodeMessage_frameOf henc⟩
    · rw [← FrameParser.length_unread, hrest, List.length_nil]
    · rw [FrameParser.next_of_unread_nil hrest]
  · intro f m hlen hdecode
    obtain ⟨henc, rfl⟩ := (decodeMessage_iff hlen).mp hdecode
    have hwire := encode_eq_wire henc
    refine ⟨henc, rfl, hwire, fun P hnext => ?_⟩
    rw [hwire]
    exact (FrameParser.unread_of_next hnext).2
  · intro f hlen
    constructor
    · rintro ⟨m, hdecode⟩
      obtain ⟨henc, rfl⟩ := (decodeMessage_iff hlen).mp hdecode
      exact ⟨m, henc, encode_eq_wire henc⟩
    · rintro ⟨m, henc, hwire⟩
      rw [encode_eq_wire henc] at hwire
      have hframe : frameOf m = f :=
        (RawFrame.wire_append_injective (t := []) (u := []) (length_bodyBytes_le henc) hlen
          (by rw [hwire])).1
      exact ⟨m, (decodeMessage_iff hlen).mpr ⟨henc, hframe.symm⟩⟩
  · intro f g m hf hg hdecode hdecode'
    obtain ⟨-, rfl⟩ := (decodeMessage_iff hf).mp hdecode
    obtain ⟨-, rfl⟩ := (decodeMessage_iff hg).mp hdecode'
    rfl

/-- A PING there and back. -/
theorem codec_bijection_ping :
    (({} : FrameParser).feed (encode (.ping ⟨7⟩))).next.1 =
        (some (frameOf (.ping ⟨7⟩)), .ok) ∧
      encode (.ping ⟨7⟩) = (frameOf (.ping ⟨7⟩)).wire :=
  have hdecode : decodeMessage (frameOf (.ping ⟨7⟩)) = .ok (.ping ⟨7⟩) := by decide +kernel
  ⟨(codec_bijection.1 (.ping ⟨7⟩) trivial).1,
    (codec_bijection.2.1 (frameOf (.ping ⟨7⟩)) _ (by decide +kernel) hdecode).2.2.1⟩

/-! ## A stream of messages -/

/-- A part of a message's frame says nothing yet. -/
theorem scanFrame_part {m : Message} (henc : m.Encodable) {part rest : Bytes}
    (hrest : rest ≠ []) (h : part ++ rest = encode m) : scanFrame part = .more := by
  have hwhole : frameGrammar.scan (part ++ rest) =
      .item (frameOf m) (frameOf m).wire.length := by
    rw [h, encode_eq_wire henc]
    exact scanFrame_item_iff.mpr ⟨length_bodyBytes_le henc, rfl, [], (List.append_nil _).symm⟩
  cases hscan : scanFrame part with
  | more => rfl
  | fail e =>
      rw [frameGrammar.fail_append hscan] at hwhole
      simp only [reduceCtorEq] at hwhole
  | item f k =>
      -- a frame recognised in the part would be the whole one
      have hle := frameGrammar.used_le hscan
      rw [frameGrammar.item_append hscan] at hwhole
      injection hwhole with hf hk
      have hlen := congrArg List.length h
      rw [encode_eq_wire henc, ← hk, List.length_append] at hlen
      have hpos := List.length_pos_of_ne_nil hrest
      omega

/-- A frame in front is parsed first. -/
theorem parse_wire_append {f : RawFrame} (hmax : f.payload.length ≤ kMaxPayload) (t : Bytes) :
    frameGrammar.parse (f.wire ++ t) =
      ⟨f :: (frameGrammar.parse t).items, (frameGrammar.parse t).rest,
        (frameGrammar.parse t).fault⟩ := by
  have hscan : frameGrammar.scan (f.wire ++ t) = .item f f.wire.length := by
    rw [show frameGrammar.scan = scanFrame from rfl]
    exact scanFrame_item_iff.mpr ⟨hmax, rfl, t, rfl⟩
  rw [Framing.Grammar.parse_item hscan, List.drop_left]

/-- **The parse of whole frames and a part of another.** -/
theorem parse_messages {ms : List Message} (henc : ∀ m ∈ ms, m.Encodable) {part : Bytes}
    (hpart : scanFrame part = .more) :
    frameGrammar.parse (ms.flatMap encode ++ part) = ⟨ms.map frameOf, part, none⟩ := by
  induction ms with
  | nil =>
      rw [List.flatMap_nil, List.nil_append]
      exact Framing.Grammar.parse_more (G := frameGrammar) hpart
  | cons m ms ih =>
      obtain ⟨hm, hms⟩ := List.forall_mem_cons.mp henc
      rw [List.flatMap_cons, List.append_assoc, encode_eq_wire hm,
        parse_wire_append (length_bodyBytes_le hm), ih hms]
      rfl

end TetherDisplay.Protocol
