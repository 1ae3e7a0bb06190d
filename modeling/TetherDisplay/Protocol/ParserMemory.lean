import TetherDisplay.Foundations.CheckedAccess
import TetherDisplay.Foundations.Runs
import TetherDisplay.Protocol.FrameParser

/-!
# The memory of the parser

The parser and the decoder once more, with every access checked: an index outside its buffer, a
subtraction of sizes below zero and a 32-bit sum or difference that wraps around are faults.  The
checked programs do what the plain ones do (`Checked.next_eq`, `Checked.decodeMessage_eq`), so the
source meets none of these.

A caller that feeds at most `C` bytes at a time, and only after everything complete has been pulled
out, keeps the buffer small (`Fed.Bounded`).  What a drained parser still holds is less than one
frame of the largest size, and what it has consumed but not yet dropped is at most what `compact`
lets pile up.
-/

namespace TetherDisplay.Protocol

open CheckedAccess

/-! ## The reader and the decoder -/

/-- The cursor has not run past the end. -/
def ByteReader.InBounds (r : ByteReader) : Prop := r.pos ≤ r.data.length

namespace Checked

/-- A read that may fail: an access out of bounds is `none`. -/
abbrev Reading (α : Type) := StateT ByteReader Option α

/-- `ensure`. -/
def ensure (n : ℕ) : Reading Bool := fun r =>
  if r.error then some (false, r)
  else
    (sizeSub r.data.length r.pos).map fun left =>
      if left < n then (false, { r with error := true }) else (true, r)

/-- What the reads of the cursor have in common. -/
def field {ω : Type} (n : ℕ) (zero : ω) (load : Bytes → ω) : Reading ω := do
  let there ← ensure n
  if there then
    let r ← get
    let bytes ← (readAt r.data r.pos n : Option Bytes)
    set { r with pos := r.pos + n }
    return load bytes
  else return zero

/-- One byte. -/
def u8 : Reading UInt8 := field 1 0 fun p => p.getD 0 0

/-- Two bytes. -/
def u16 : Reading UInt16 := field 2 0 loadU16

/-- Four bytes. -/
def u32 : Reading UInt32 := field 4 0 loadU32

/-- Eight bytes. -/
def u64 : Reading UInt64 := field 8 0 loadU64

/-- The next `n` bytes. -/
def take (n : ℕ) : Reading Bytes := field n [] fun p => p.take n

/-- `error()`. -/
def error : Reading Bool := fun r => some (r.error, r)

/-- `remaining()`. -/
def remaining : Reading ℕ := fun r =>
  if r.error then some (0, r) else (sizeSub r.data.length r.pos).map fun left => (left, r)

/-- The fields of HELLO. -/
def readHello : Reading Hello := do
  let protocolVersion ← u16
  let codecMask ← u8
  let maxWidth ← u16
  let maxHeight ← u16
  let maxBitrateKbps ← u32
  let maxFps ← u16
  let featureFlags ← u8
  return { protocolVersion, codecMask, maxWidth, maxHeight, maxBitrateKbps, maxFps, featureFlags }

/-- The fields of WELCOME and of FORMAT_CHANGE. -/
def decodeWelcomeBody : Reading Welcome := do
  let protocolVersion ← u16
  let codecId ← u8
  let width ← u16
  let height ← u16
  let bitrateKbps ← u32
  let fps ← u16
  let sessionFlags ← u8
  return { protocolVersion, codecId, width, height, bitrateKbps, fps, sessionFlags }

/-- `finish`. -/
def finish (m : Message) : Reading (Except WireError Message) := do
  let short ← error
  if short then return .error .shortBuffer
  else
    let left ← remaining
    if left ≠ 0 then return .error .trailingBytes else return .ok m

/-- A body without a tail, and the check that follows it. -/
def checkShort (rest : Reading (Except WireError Message)) : Reading (Except WireError Message) := do
  let short ← error
  if short then return .error .shortBuffer else rest

/-- The control channel. -/
def decodeControl (type : UInt8) : Reading (Except WireError Message) :=
  if type = Ctrl.kHello then do
    let m ← readHello
    checkShort <|
      if m.protocolVersion ≠ kProtocolVersion then return .error .unsupportedVersion
      else finish (.hello m)
  else if type = Ctrl.kWelcome then do
    let m ← decodeWelcomeBody
    checkShort <|
      if m.protocolVersion ≠ kProtocolVersion then return .error .unsupportedVersion
      else finish (.welcome m)
  else if type = Ctrl.kFormatChange then do
    let m ← decodeWelcomeBody
    checkShort <|
      if m.protocolVersion ≠ kProtocolVersion then return .error .unsupportedVersion
      else finish (.formatChange ⟨m⟩)
  else if type = Ctrl.kError ∨ type = Ctrl.kDisconnect then do
    let code ← u16
    let reasonLen ← u16
    checkShort do
      let left ← remaining
      if left ≠ reasonLen.toNat then return .error .badField
      else
        let reason ← take reasonLen.toNat
        if type = Ctrl.kError then finish (.errorMsg ⟨code, reason⟩)
        else finish (.disconnect ⟨code, reason⟩)
  else if type = Ctrl.kKeyframeRequest then do
    let reason ← u8
    let lastGoodSeq ← u32
    checkShort (finish (.keyframeRequest ⟨reason, lastGoodSeq⟩))
  else if type = Ctrl.kPing then do
    let token ← u64
    checkShort (finish (.ping ⟨token⟩))
  else if type = Ctrl.kPong then do
    let token ← u64
    checkShort (finish (.pong ⟨token⟩))
  else return .error .unknownType

/-- The video channel. -/
def decodeVideo (type : UInt8) : Reading (Except WireError Message) :=
  if type ≠ Vid.kVideoFrame then return .error .unknownType
  else do
    let codecId ← u8
    let frameType ← u8
    let vflags ← u8
    let ptsUs ← u64
    let seq ← u32
    checkShort do
      let left ← remaining
      let bitstream ← take left
      return .ok (.videoFrame { codecId, frameType, vflags, ptsUs, seq, bitstream })

/-- `none` is an access outside the payload. -/
def decodeMessage (frame : RawFrame) : Option (Except WireError Message) :=
  if frame.flags ≠ 0 then some (.error .reservedFlagsSet)
  else
    let r : ByteReader := ⟨frame.payload, 0, false⟩
    match frame.channel with
    | .control => (decodeControl frame.type r).map Prod.fst
    | .video => (decodeVideo frame.type r).map Prod.fst

/-! ### No access of the reader is outside -/

/-- `ensure` reads nothing out of bounds. -/
theorem ensure_agrees (n : ℕ) : Agrees ByteReader.InBounds (ensure n) fun r => r.ensure n := by
  intro r hr
  show ensure n r = some (r.ensure n) ∧ (r.ensure n).2.InBounds
  rw [ensure, sizeSub_eq hr, ByteReader.ensure]
  by_cases herr : r.error
  · rw [if_pos herr, if_pos herr]
    exact ⟨rfl, hr⟩
  · rw [if_neg herr, if_neg herr]
    refine ⟨rfl, ?_⟩
    split_ifs <;> exact hr

/-- What `ensure` lets through is there. -/
theorem le_of_ensure {r r' : ByteReader} {n : ℕ} (hr : r.InBounds)
    (h : r.ensure n = (true, r')) : r' = r ∧ r.pos + n ≤ r.data.length := by
  have hle : r.pos ≤ r.data.length := hr
  rw [ByteReader.ensure] at h
  split_ifs at h
  · cases h
  · cases h
  · cases h
    exact ⟨rfl, by omega⟩

/-- **The read of a field** stays inside. -/
theorem field_agrees {ω : Type} {n : ℕ} {zero : ω} {load : Bytes → ω}
    (hload : ∀ p : Bytes, load (p.take n) = load p) :
    Agrees ByteReader.InBounds (field n zero load) fun r => r.field n zero load := by
  intro r hr
  have hrun : ensure n r = some (r.ensure n) := (ensure_agrees n r hr).1
  have hkept : (r.ensure n).2.InBounds := (ensure_agrees n r hr).2
  show field n zero load r = some (r.field n zero load) ∧ (r.field n zero load).2.InBounds
  have hfield : field n zero load r = (ensure n r).bind fun p =>
      (if p.1 then do
        let r ← get
        let bytes ← (readAt r.data r.pos n : Option Bytes)
        set { r with pos := r.pos + n }
        return load bytes
      else return zero : Reading ω) p.2 := rfl
  rw [hfield, hrun, ByteReader.field]
  cases hens : r.ensure n with
  | mk there r' =>
      rw [hens] at hkept
      cases there with
      | false => exact ⟨rfl, hkept⟩
      | true =>
          obtain ⟨rfl, hthere⟩ := le_of_ensure hr hens
          refine ⟨?_, hthere⟩
          show ((readAt r'.data r'.pos n).bind fun bytes => some (bytes, r')).bind
            (fun p => some (load p.1, { r' with pos := r'.pos + n })) = _
          rw [readAt_eq hthere, Option.bind_some, Option.bind_some, hload]

theorem getD_take {p : Bytes} {n i : ℕ} (h : i < n) : (p.take n).getD i 0 = p.getD i 0 := by
  rw [List.getD_eq_getElem?_getD, List.getD_eq_getElem?_getD, List.getElem?_take_of_lt h]

theorem loadU16_take (p : Bytes) : loadU16 (p.take 2) = loadU16 p := by
  rw [loadU16, loadU16, getD_take (by decide), getD_take (by decide)]

theorem loadU32_take (p : Bytes) : loadU32 (p.take 4) = loadU32 p := by
  apply List.foldl_ext
  intro v i hi
  rw [getD_take (List.mem_range.mp hi)]

theorem loadU64_take (p : Bytes) : loadU64 (p.take 8) = loadU64 p := by
  apply List.foldl_ext
  intro v i hi
  rw [getD_take (List.mem_range.mp hi)]

/-- A field reads nothing out of bounds. -/
theorem u8_agrees : Agrees ByteReader.InBounds u8 ByteReader.u8 :=
  field_agrees fun _ => getD_take Nat.one_pos

theorem u16_agrees : Agrees ByteReader.InBounds u16 ByteReader.u16 := field_agrees loadU16_take

theorem u32_agrees : Agrees ByteReader.InBounds u32 ByteReader.u32 := field_agrees loadU32_take

theorem u64_agrees : Agrees ByteReader.InBounds u64 ByteReader.u64 := field_agrees loadU64_take

theorem take_agrees (n : ℕ) : Agrees ByteReader.InBounds (take n) fun r => r.take n :=
  field_agrees fun p => by rw [List.take_take, Nat.min_self]

theorem error_agrees : Agrees ByteReader.InBounds error fun r => (r.error, r) :=
  fun _ hr => ⟨rfl, hr⟩

/-- What is left can be counted. -/
theorem remaining_agrees :
    Agrees ByteReader.InBounds remaining fun r => (r.remaining, r) := by
  intro r hr
  show remaining r = some (r.remaining, r) ∧ r.InBounds
  rw [remaining, sizeSub_eq hr, ByteReader.remaining]
  split_ifs <;> exact ⟨rfl, hr⟩

/-- HELLO is read within bounds. -/
theorem readHello_agrees :
    Agrees ByteReader.InBounds readHello Protocol.readHello :=
  u16_agrees.bind fun _ => u8_agrees.bind fun _ => u16_agrees.bind fun _ =>
    u16_agrees.bind fun _ => u32_agrees.bind fun _ => u16_agrees.bind fun _ =>
      u8_agrees.bind fun _ => Agrees.pure _

/-- WELCOME is read within bounds. -/
theorem decodeWelcomeBody_agrees :
    Agrees ByteReader.InBounds decodeWelcomeBody Protocol.decodeWelcomeBody :=
  u16_agrees.bind fun _ => u8_agrees.bind fun _ => u16_agrees.bind fun _ =>
    u16_agrees.bind fun _ => u32_agrees.bind fun _ => u16_agrees.bind fun _ =>
      u8_agrees.bind fun _ => Agrees.pure _

/-- The end of a message is looked at within bounds. -/
theorem finish_answers (m : Message) :
    Answers ByteReader.InBounds (finish m) fun r => Protocol.finish r m :=
  error_agrees.bind_answers fun _ => (Answers.pure _).ite <|
    remaining_agrees.bind_answers fun _ => (Answers.pure _).ite (Answers.pure _)

theorem checkShort_answers {rest : Reading (Except WireError Message)}
    {f : ByteReader → Except WireError Message} (h : Answers ByteReader.InBounds rest f) :
    Answers ByteReader.InBounds (checkShort rest) fun r =>
      if r.error then .error .shortBuffer else f r :=
  error_agrees.bind_answers fun _ => (Answers.pure _).ite h

/-- **The control channel is decoded within bounds.** -/
theorem decodeControl_answers (type : UInt8) :
    Answers ByteReader.InBounds (decodeControl type) (Protocol.decodeControl type) := by
  refine .ite ?_ (.ite ?_ (.ite ?_ (.ite ?_ (.ite ?_ (.ite ?_ (.ite ?_ (Answers.pure _)))))))
  · exact readHello_agrees.bind_answers fun m =>
      checkShort_answers ((Answers.pure _).ite (finish_answers _))
  · exact decodeWelcomeBody_agrees.bind_answers fun m =>
      checkShort_answers ((Answers.pure _).ite (finish_answers _))
  · exact decodeWelcomeBody_agrees.bind_answers fun m =>
      checkShort_answers ((Answers.pure _).ite (finish_answers _))
  · exact u16_agrees.bind_answers fun code => u16_agrees.bind_answers fun reasonLen =>
      checkShort_answers <| remaining_agrees.bind_answers fun left =>
        (Answers.pure _).ite <| (take_agrees _).bind_answers fun reason =>
          (finish_answers _).ite (finish_answers _)
  · exact u8_agrees.bind_answers fun reason => u32_agrees.bind_answers fun lastGoodSeq =>
      checkShort_answers (finish_answers _)
  · exact u64_agrees.bind_answers fun token => checkShort_answers (finish_answers _)
  · exact u64_agrees.bind_answers fun token => checkShort_answers (finish_answers _)

/-- **The video channel is decoded within bounds.** -/
theorem decodeVideo_answers (type : UInt8) :
    Answers ByteReader.InBounds (decodeVideo type) (Protocol.decodeVideo type) :=
  (Answers.pure _).ite <| u8_agrees.bind_answers fun _ => u8_agrees.bind_answers fun _ =>
    u8_agrees.bind_answers fun _ => u64_agrees.bind_answers fun _ =>
      u32_agrees.bind_answers fun _ => checkShort_answers <|
        remaining_agrees.bind_answers fun left => (take_agrees left).bind_answers fun _ =>
          Answers.pure _

/-- **The decoder reads nothing outside the payload**, whatever the frame. -/
theorem decodeMessage_eq (frame : RawFrame) :
    decodeMessage frame = some (Protocol.decodeMessage frame) := by
  have hstart : ByteReader.InBounds ⟨frame.payload, 0, false⟩ := start_le _
  rw [decodeMessage, Protocol.decodeMessage]
  split_ifs
  · rfl
  · cases frame.channel with
    | control => exact decodeControl_answers frame.type _ hstart
    | video => exact decodeVideo_answers frame.type _ hstart

/-! ## The parser -/

/-- `a - b` of two 32-bit values, where it must not wrap around. -/
def sub32 (a b : UInt32) : Option UInt32 := if b ≤ a then some (a - b) else none

/-- `a + b` of two 32-bit values, where it must not wrap around. -/
def add32 (a b : UInt32) : Option UInt32 :=
  if a.toNat + b.toNat < 2 ^ 32 then some (a + b) else none

/-- The sum fits. -/
theorem add32_eq {a b : UInt32} (h : a.toNat + b.toNat < 2 ^ 32) : add32 a b = some (a + b) :=
  if_pos h

/-- `none` is an access outside the buffer, an expression that wraps around, or a read position
past the end. -/
def next (P : FrameParser) : Option ((Option RawFrame × WireError) × FrameParser) := do
  let avail ← sizeSub P.buf.length P.readPos
  if avail < 4 then return ((none, .needMoreData), P)
  else
    let head ← readAt P.buf P.readPos 4
    let length := loadU32 head
    if length < 3 then return ((none, .badField), P)
    else
      let payloadLen ← sub32 length 3
      if kMaxPayload < payloadLen.toNat then return ((none, .oversizedMessage), P)
      else
        let whole ← add32 4 length
        if avail < whole.toNat then return ((none, .needMoreData), P)
        else
          let channelByte ← P.buf[P.readPos + 4]?
          match Channel.ofByte? channelByte with
          | none => return ((none, .unknownChannel), P)
          | some channel =>
              let type ← P.buf[P.readPos + 5]?
              let flags ← P.buf[P.readPos + 6]?
              let payload ← readAt P.buf (P.readPos + 7) payloadLen.toNat
              if h : P.readPos + whole.toNat ≤ P.buf.length then
                return ((some { channel, type, flags, payload }, .ok),
                  { buf := P.buf, readPos := P.readPos + whole.toNat, readPos_le := h })
              else none

theorem getElem?_drop_getD {buf : Bytes} {pos i : ℕ} (h : pos + i < buf.length) :
    buf[pos + i]? = some ((buf.drop pos).getD i 0) := by
  rw [List.getD_eq_getElem?_getD, List.getElem?_drop, List.getElem?_eq_getElem h]
  rfl

/-- **`next` reads nothing outside the buffer** and nothing in it wraps around. -/
theorem next_eq (P : FrameParser) : next P = some P.next := by
  have hpos : P.readPos ≤ P.buf.length := P.readPos_le
  rw [next, FrameParser.next, sizeSub_eq hpos]
  simp only [Option.bind_eq_bind, Option.bind_some]
  by_cases hshort : P.buf.length - P.readPos < 4
  · rw [if_pos hshort, if_pos hshort]
    rfl
  rw [if_neg hshort, if_neg hshort, readAt_eq (by omega), Option.bind_some, loadU32_take]
  set length := loadU32 (P.buf.drop P.readPos)
  by_cases hmin : length < 3
  · rw [if_pos hmin, if_pos hmin]
    rfl
  have hsub : sub32 length 3 = some (length - 3) := if_pos (UInt32.not_lt.mp hmin)
  have hpayload := FrameParser.toNat_length_sub hmin
  rw [if_neg hmin, if_neg hmin, hsub, Option.bind_some]
  by_cases hmax : kMaxPayload < (length - 3).toNat
  · rw [if_pos hmax, if_pos hmax]
    rfl
  -- Below the payload bound the length of the frame fits into 32 bits.
  have hwhole : (4 + length).toNat = 4 + length.toNat :=
    FrameParser.toNat_length_add (by rwa [← hpayload])
  have hadd : add32 4 length = some (4 + length) := by
    apply add32_eq
    rw [show (4 : UInt32).toNat = 4 from rfl, ← hwhole]
    exact UInt32.toNat_lt _
  rw [if_neg hmax, if_neg hmax, hadd, Option.bind_some]
  by_cases hmore : P.buf.length - P.readPos < (4 + length).toNat
  · rw [if_pos hmore, dif_pos hmore]
    rfl
  have hthere : P.readPos + (4 + length).toNat ≤ P.buf.length := by omega
  have hhead : 3 ≤ length.toNat := UInt32.le_iff_toNat_le.mp (UInt32.not_lt.mp hmin)
  rw [if_neg hmore, dif_neg hmore, getElem?_drop_getD (by omega), Option.bind_some]
  cases Channel.ofByte? ((P.buf.drop P.readPos).getD 4 0) with
  | none => rfl
  | some channel =>
      dsimp only
      rw [getElem?_drop_getD (by omega), Option.bind_some, getElem?_drop_getD (by omega),
        Option.bind_some, readAt_eq (by omega), Option.bind_some, dif_pos hthere,
        List.drop_drop]
      rfl

end Checked

/-! ## A caller that drains before it feeds -/

open Framing (Call)

/-- A stream that needs more data is less than one frame of the largest size. -/
theorem length_of_scanFrame_more {s : Bytes} (h : scanFrame s = .more) :
    s.length ≤ kMaxPayload + 6 := by
  by_cases hshort : s.length < 4
  · omega
  obtain ⟨n, hn, u, rfl⟩ := Layout.exists_leBytes (Nat.not_lt.mp hshort)
  rw [scanFrame_header hn] at h
  split at h
  · cases h
  split at h
  · cases h
  split at h
  · rename_i hmin hmax hwhole
    rw [List.length_append, LittleEndian.length_leBytes]
    omega
  · split at h <;> cases h

namespace FrameParser

variable (P : FrameParser)

/-- `next` asks for more where a frame is not complete. -/
theorem scanFrame_of_needMoreData (h : P.next.1 = (none, .needMoreData)) :
    scanFrame P.unread = .more := by
  have hnext := P.next_scan
  cases hscan : scanFrame P.unread with
  | more => rfl
  | fail e =>
      rw [hscan] at hnext
      rw [hnext, Prod.mk.injEq] at h
      exact absurd h.2 (hard_of_scanFrame_fail hscan)
  | item f k =>
      rw [hscan] at hnext
      rw [hnext.1, Prod.mk.injEq] at h
      cases h.1

/-- **No payload above the bound** is copied out. -/
theorem payload_of_next {f : RawFrame} (h : P.next.1.1 = some f) :
    f.payload.length ≤ kMaxPayload := by
  have hnext := P.next_scan
  cases hscan : scanFrame P.unread with
  | more =>
      rw [hscan] at hnext
      rw [hnext] at h
      cases h
  | fail e =>
      rw [hscan] at hnext
      rw [hnext] at h
      cases h
  | item f' k =>
      rw [hscan] at hnext
      rw [hnext.1] at h
      cases h
      exact (scanFrame_item_iff.mp hscan).1

/-- Pulling a frame out moves the read position and nothing else. -/
theorem next_buf : P.next.2.buf = P.buf := by
  rw [next]
  simp only
  split_ifs
  · rfl
  · rfl
  · rfl
  · rfl
  · cases Channel.ofByte? ((P.buf.drop P.readPos).getD 4 0) <;> rfl

/-- The two rules of the compaction: what is consumed is dropped if nothing else is there, or if
it is more than 64 KiB. -/
theorem length_compact : P.compact.buf.length ≤ 64 * 1024 + P.unread.length := by
  have hpos := P.readPos_le
  rw [length_unread, buffered, compact]
  split_ifs
  · exact Nat.zero_le _
  · rw [List.length_drop]
    exact Nat.le_add_left _ _
  · omega

end FrameParser

/-- A parser and what its caller knows: whether the last answer asked for more data. -/
structure Fed where
  parser : FrameParser := {}
  drained : Bool := true

namespace Fed

/-- One call. -/
def step (s : Fed) : Call UInt8 → Fed
  | .feed chunk => { parser := s.parser.feed chunk, drained := false }
  | .next => { parser := s.parser.next.2, drained := s.parser.next.1 = (none, .needMoreData) }

/-- At most `C` bytes at a time, and only after everything complete has been pulled out. -/
def Drains (C : ℕ) (s : Fed) : Call UInt8 → Prop
  | .feed chunk => s.drained = true ∧ chunk.length ≤ C
  | .next => True

instance (C : ℕ) (s : Fed) : ∀ call, Decidable (Drains C s call)
  | .feed chunk => inferInstanceAs (Decidable (s.drained = true ∧ chunk.length ≤ C))
  | .next => inferInstanceAs (Decidable True)

/-- What the parser holds, with chunks of at most `C` bytes. -/
structure Bounded (C : ℕ) (s : Fed) : Prop where
  buffer : s.parser.buf.length ≤ 65536 + kMaxPayload + 6 + C
  drained : s.drained = true → s.parser.unread.length ≤ kMaxPayload + 6

/-- **One call keeps the bound.** -/
theorem Bounded.step {C : ℕ} {s : Fed} {call : Call UInt8} (h : Bounded C s)
    (hcall : Drains C s call) : Bounded C (s.step call) := by
  cases call with
  | feed chunk =>
      obtain ⟨hdrained, hchunk⟩ := hcall
      have hheld := h.drained hdrained
      have hcompact := s.parser.length_compact
      constructor
      · show (s.parser.compact.buf ++ chunk).length ≤ _
        rw [List.length_append]
        omega
      · intro hfed
        cases hfed
  | next =>
      constructor
      · show s.parser.next.2.buf.length ≤ _
        rw [s.parser.next_buf]
        exact h.buffer
      · intro hdrained
        have hanswer : s.parser.next.1 = (none, .needMoreData) := of_decide_eq_true hdrained
        have hmore := s.parser.scanFrame_of_needMoreData hanswer
        have hnext := s.parser.next_scan
        rw [hmore] at hnext
        show s.parser.next.2.unread.length ≤ _
        rw [hnext]
        exact length_of_scanFrame_more hmore

/-- It holds in all states of a run. -/
theorem bounded {C : ℕ} {calls : List (Call UInt8)}
    (h : Runs.Admits step (Drains C) {} calls) : Bounded C (Runs.exec step {} calls) := by
  refine Runs.exec_invariant (fun s call hs hcall => hs.step hcall) ⟨?_, fun _ => ?_⟩ h
  · exact Nat.zero_le _
  · exact Nat.zero_le _

end Fed

/-- **The memory of the parser.**  Whatever is fed, as long as it is fed in chunks of at most `C`
bytes to a drained parser: the read position stays inside the buffer, a drained parser holds less
than one frame of the largest size, the buffer stays bounded, `next` and the decoder read nothing
outside their buffers and compute nothing that wraps around, and no frame is larger than the
bound. -/
theorem parser_memory (C : ℕ) (calls : List (Call UInt8))
    (hcalls : Runs.Admits Fed.step (Fed.Drains C) {} calls) :
    let s := Runs.exec Fed.step {} calls
    s.parser.readPos ≤ s.parser.buf.length ∧
      (s.drained = true → s.parser.unread.length ≤ kMaxPayload + 6) ∧
      s.parser.buf.length ≤ 65536 + kMaxPayload + 6 + C ∧
      Checked.next s.parser = some s.parser.next ∧
      ∀ frame, Checked.decodeMessage frame = some (decodeMessage frame) ∧
        (s.parser.next.1.1 = some frame → frame.payload.length ≤ kMaxPayload) := by
  intro s
  have hbounded := Fed.bounded hcalls
  refine ⟨s.parser.readPos_le, hbounded.drained, hbounded.buffer, Checked.next_eq _, ?_⟩
  intro frame
  exact ⟨Checked.decodeMessage_eq frame, s.parser.payload_of_next⟩

/-- A PING in two chunks: after the first the parser holds it, after the second it answers the
frame and holds nothing. -/
theorem parser_memory_ping :
    let calls : List (Call UInt8) :=
      [.feed [11, 0, 0, 0, 0, 0x20], .next, .feed [0, 1, 2, 3, 4, 5, 6, 7, 8], .next, .next]
    let s := Runs.exec Fed.step {} calls
    s.drained = true ∧ s.parser.unread.length ≤ kMaxPayload + 6 ∧
      s.parser.buf.length ≤ 65536 + kMaxPayload + 6 + 9 := by
  intro calls s
  have hcalls : Runs.Admits Fed.step (Fed.Drains 9) {} calls := by decide +kernel
  have hdrained : s.drained = true := by decide +kernel
  have hmemory := parser_memory 9 calls hcalls
  exact ⟨hdrained, hmemory.2.1 hdrained, hmemory.2.2.1⟩

end TetherDisplay.Protocol
