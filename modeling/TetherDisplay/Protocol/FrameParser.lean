import TetherDisplay.Foundations.Framing
import TetherDisplay.Protocol.Codec

/-!
# The incremental frame parser

`FrameParser` of `wire.cpp`: bytes are fed as they arrive and complete frames are
pulled out.  The consumed front of the buffer is not removed at once; `feed` drops
it when everything has been read, or when more than 64 KiB of it have piled up.

The parser is a reader of a framing grammar.  `scanFrame` says what an unread
stream begins with, in terms of the bytes alone, and `frameReader` packages the
parser as a buffered reader of that grammar.  What the buffer is compacted to, and
when, is invisible through `FrameParser.unread`, so everything about chunks and
interleavings is inherited from the general law of buffered readers.

`RawFrame.wire` is the other direction, the bytes of a frame.  A stream begins with
a frame exactly when it begins with the bytes of one (`scanFrame_item_iff`).
-/

namespace TetherDisplay.Protocol

open LittleEndian
open Framing (Scan Grammar BufferedReader Call runCalls itemsOf fed)

/-! ## The parser of the source -/

/-- The channel a `channel` byte stands for. -/
def Channel.ofByte? (b : UInt8) : Option Channel :=
  if b = Channel.control.toByte then some .control
  else if b = Channel.video.toByte then some .video
  else none

/-- A buffer and the position up to which it has been consumed. -/
structure FrameParser where
  buf : Bytes := []
  readPos : ℕ := 0
  readPos_le : readPos ≤ buf.length := by first | exact start_le_nil | exact start_le _
  deriving Repr

namespace FrameParser

/-- The occasional compaction at the start of `feed`. -/
def compact (P : FrameParser) : FrameParser :=
  if 0 < P.readPos ∧ P.readPos = P.buf.length then { buf := [] }
  else if 64 * 1024 < P.readPos then { buf := P.buf.drop P.readPos }
  else P

/-- `feed`: what has been read is dropped first, now and then. -/
def feed (P : FrameParser) (bytes : Bytes) : FrameParser :=
  let P := P.compact
  { buf := P.buf ++ bytes, readPos := P.readPos
    readPos_le := by rw [List.length_append]; exact P.readPos_le.trans (Nat.le_add_right _ _) }

/-- The next complete frame, or `none` with the error that is set.  A hard error
leaves the offending bytes where they are. -/
def next (P : FrameParser) : (Option RawFrame × WireError) × FrameParser :=
  let avail := P.buf.length - P.readPos
  if avail < 4 then ((none, .needMoreData), P)
  else
    let p := P.buf.drop P.readPos
    let length := loadU32 p
    if length < 3 then ((none, .badField), P)
    else if kMaxPayload < (length - 3).toNat then ((none, .oversizedMessage), P)
    else if h : avail < (4 + length).toNat then ((none, .needMoreData), P)
    else
      match Channel.ofByte? (p.getD 4 0) with
      | none => ((none, .unknownChannel), P)
      | some channel =>
          let frame : RawFrame :=
            { channel, type := p.getD 5 0, flags := p.getD 6 0,
              payload := (p.drop 7).take (length - 3).toNat }
          ((some frame, .ok),
            { buf := P.buf, readPos := P.readPos + (4 + length).toNat
              readPos_le := by have hle := P.readPos_le; omega })

/-- `buffered()`. -/
def buffered (P : FrameParser) : ℕ := P.buf.length - P.readPos

/-- The bytes fed and not yet returned in a frame. -/
def unread (P : FrameParser) : Bytes := P.buf.drop P.readPos

/-- What the pair of a result and `err` tells the caller: a frame, to call again with
more data, or a hard error. -/
def reply : Option RawFrame × WireError → Except WireError (Option RawFrame)
  | (some frame, _) => .ok (some frame)
  | (none, .needMoreData) => .ok none
  | (none, e) => .error e

/-- `next` as its caller reads it. -/
def answer (P : FrameParser) : Except WireError (Option RawFrame) × FrameParser :=
  (reply P.next.1, P.next.2)

@[simp] theorem length_unread (P : FrameParser) : P.unread.length = P.buffered := by
  simp [unread, buffered]

/-- What has not been read stays. -/
theorem unread_compact (P : FrameParser) : P.compact.unread = P.unread := by
  unfold compact
  split
  · rename_i h
    simp [unread, h.2]
  · split
    · simp [unread]
    · rfl

/-- Feeding appends to what is unread, compacted or not. -/
theorem unread_feed (P : FrameParser) (bytes : Bytes) :
    (P.feed bytes).unread = P.unread ++ bytes := by
  rw [← P.unread_compact]
  exact List.drop_append_of_le_length P.compact.readPos_le

end FrameParser

/-! ## The framing grammar -/

/-- What an unread stream begins with. -/
def scanFrame (s : Bytes) : Scan RawFrame WireError :=
  if s.length < 4 then .more
  else
    let length := leNat (s.take 4)
    if length < 3 then .fail .badField
    else if kMaxPayload < length - 3 then .fail .oversizedMessage
    else if s.length < 4 + length then .more
    else
      match Channel.ofByte? (s.getD 4 0) with
      | none => .fail .unknownChannel
      | some channel =>
          .item ⟨channel, s.getD 5 0, s.getD 6 0, (s.drop 7).take (length - 3)⟩ (4 + length)

/-- The bytes of a frame: `u32 length, u8 channel, u8 type, u8 flags, payload`. -/
def RawFrame.wire (f : RawFrame) : Bytes :=
  leBytes 4 (3 + f.payload.length) ++
    (f.channel.toByte :: f.type :: f.flags :: f.payload)

@[simp] theorem RawFrame.length_wire (f : RawFrame) :
    f.wire.length = 7 + f.payload.length := by
  simp [RawFrame.wire]; omega

/-- The bytes of the channels. -/
theorem Channel.ofByte?_eq_some {b : UInt8} {channel : Channel} :
    Channel.ofByte? b = some channel ↔ b = channel.toByte := by
  unfold Channel.ofByte?
  constructor
  · intro h
    split at h
    · cases h; assumption
    · split at h
      · cases h; assumption
      · cases h
  · rintro rfl
    cases channel <;> rfl

section Scan

variable {s u : Bytes} {n : ℕ}

/-- Too short for the length. -/
theorem scanFrame_short (h : s.length < 4) : scanFrame s = .more := if_pos h

/-- Nothing is said of a stream before its length field is there. -/
theorem exists_header (h : scanFrame s ≠ .more) :
    ∃ n < 256 ^ 4, ∃ u, s = leBytes 4 n ++ u := by
  by_cases hlen : s.length < 4
  · exact absurd (scanFrame_short hlen) h
  · exact Layout.exists_leBytes (Nat.not_lt.mp hlen)

/-- The classification of a stream whose length field has arrived. -/
theorem scanFrame_header (hn : n < 256 ^ 4) (u : Bytes) :
    scanFrame (leBytes 4 n ++ u) =
      if n < 3 then .fail .badField
      else if kMaxPayload < n - 3 then .fail .oversizedMessage
      else if u.length < n then .more
      else
        match Channel.ofByte? (u.getD 0 0) with
        | none => .fail .unknownChannel
        | some channel =>
            .item ⟨channel, u.getD 1 0, u.getD 2 0, (u.drop 3).take (n - 3)⟩ (4 + n) := by
  have htake : (leBytes 4 n ++ u).take 4 = leBytes 4 n :=
    List.take_left' (length_leBytes 4 n)
  have hdrop : (leBytes 4 n ++ u).drop 7 = u.drop 3 := by
    rw [List.drop_append, List.drop_of_length_le (by simp), length_leBytes]
    rfl
  have hget : ∀ i, (leBytes 4 n ++ u).getD (4 + i) 0 = u.getD i 0 := by
    intro i
    rw [List.getD_append_right _ _ _ _ (by simp), length_leBytes, Nat.add_sub_cancel_left]
  have hlong : ¬ (leBytes 4 n ++ u).length < 4 := by simp
  have hwhole : (leBytes 4 n ++ u).length < 4 + n ↔ u.length < n := by simp
  unfold scanFrame
  rw [if_neg hlong, htake, leNat_leBytes hn, hdrop, hget 0, hget 1, hget 2]
  simp only [hwhole]

/-- **A stream begins with a frame exactly when it begins with the bytes of one.** -/
theorem scanFrame_item_iff {f : RawFrame} {k : ℕ} :
    scanFrame s = .item f k ↔
      f.payload.length ≤ kMaxPayload ∧ k = f.wire.length ∧ ∃ t, s = f.wire ++ t := by
  constructor
  · intro h
    obtain ⟨n, hn, u, rfl⟩ := exists_header (s := s) (by rw [h]; simp)
    rw [scanFrame_header hn] at h
    split at h
    · cases h
    split at h
    · cases h
    split at h
    · cases h
    rename_i hmin hmax hwhole
    split at h
    · cases h
    rename_i channel hchannel
    obtain ⟨a, b, c, v, rfl⟩ : ∃ a b c v, u = a :: b :: c :: v := by
      match u with
      | a :: b :: c :: v => exact ⟨a, b, c, v, rfl⟩
      | [] | [_] | [_, _] => simp at hwhole; omega
    injection h with hf hk
    subst hf hk
    have ha : a = channel.toByte := Channel.ofByte?_eq_some.mp hchannel
    have hlen : ((v.take (n - 3))).length = n - 3 := by
      simp only [List.length_cons] at hwhole
      rw [List.length_take]
      omega
    have hfield : 3 + (n - 3) = n := by omega
    refine ⟨?_, ?_, v.drop (n - 3), ?_⟩
    · simpa [hlen] using hmax
    · simp only [RawFrame.length_wire, List.drop_succ_cons, List.drop_zero, hlen]
      omega
    · simp [RawFrame.wire, hlen, hfield, ha]
  · rintro ⟨hmax, rfl, t, rfl⟩
    have hbound : kMaxPayload = 16777216 := rfl
    have hn : 3 + f.payload.length < 256 ^ 4 := by norm_num; omega
    rw [RawFrame.wire, List.append_assoc, scanFrame_header hn,
      if_neg (by omega), if_neg (by omega), if_neg (by simp; omega)]
    have hchannel : Channel.ofByte? f.channel.toByte = some f.channel :=
      Channel.ofByte?_eq_some.mpr rfl
    simp [hchannel]
    omega

/-- A fault stays one, whatever arrives later. -/
theorem scanFrame_fail_append {e : WireError} (h : scanFrame s = .fail e) (t : Bytes) :
    scanFrame (s ++ t) = .fail e := by
  obtain ⟨n, hn, u, rfl⟩ := exists_header (s := s) (by rw [h]; simp)
  rw [List.append_assoc, scanFrame_header hn]
  rw [scanFrame_header hn] at h
  split at h
  · rw [if_pos ‹_›]; exact h
  split at h
  · rw [if_neg ‹_›, if_pos ‹_›]; exact h
  split at h
  · cases h
  rename_i hmin hmax hwhole
  have hwhole' : ¬ (u ++ t).length < n := by rw [List.length_append]; omega
  have hget : (u ++ t).getD 0 0 = u.getD 0 0 := List.getD_append _ _ _ _ (by omega)
  rw [if_neg hmin, if_neg hmax, if_neg hwhole', hget]
  split at h
  · exact h
  · cases h

/-- The errors of a frame. -/
theorem scanFrame_fail {e : WireError} (h : scanFrame s = .fail e) :
    e = .badField ∨ e = .oversizedMessage ∨ e = .unknownChannel := by
  obtain ⟨n, hn, u, rfl⟩ := exists_header (s := s) (by rw [h]; simp)
  rw [scanFrame_header hn] at h
  split at h
  · cases h; simp
  split at h
  · cases h; simp
  split at h
  · cases h
  split at h
  · cases h; simp
  · cases h

end Scan

/-- **The framing of protocol v1** as a grammar. -/
def frameGrammar : Grammar UInt8 RawFrame WireError where
  scan := scanFrame
  used_pos h := by
    obtain ⟨-, rfl, -⟩ := scanFrame_item_iff.mp h
    rw [RawFrame.length_wire]
    omega
  used_le h := by
    obtain ⟨-, rfl, t, rfl⟩ := scanFrame_item_iff.mp h
    rw [List.length_append]
    omega
  item_append h t := by
    obtain ⟨hmax, hk, t', rfl⟩ := scanFrame_item_iff.mp h
    exact scanFrame_item_iff.mpr ⟨hmax, hk, t' ++ t, List.append_assoc _ _ _⟩
  fail_append := scanFrame_fail_append

/-! ## The parser reads the grammar -/

namespace FrameParser

variable (P : FrameParser)

/-- The length of the payload, in the source's 32-bit arithmetic. -/
theorem toNat_length_sub {length : UInt32} (h : ¬ length < 3) :
    (length - 3).toNat = length.toNat - 3 :=
  UInt32.toNat_sub_of_le _ _ (UInt32.not_lt.mp h)

/-- Below the payload bound the sum `4u + length` does not wrap around. -/
theorem toNat_length_add {length : UInt32} (h : ¬ kMaxPayload < length.toNat - 3) :
    (4 + length).toNat = 4 + length.toNat := by
  have hbound : kMaxPayload = 16777216 := rfl
  rw [UInt32.toNat_add, show (4 : UInt32).toNat = 4 from rfl]
  omega

/-- **What `next` does**, told from the unread bytes. -/
theorem next_scan :
    match scanFrame P.unread with
    | .more => P.next = ((none, .needMoreData), P)
    | .fail e => P.next = ((none, e), P)
    | .item f k => P.next.1 = (some f, .ok) ∧ P.next.2.unread = P.unread.drop k := by
  have havail : P.unread.length = P.buf.length - P.readPos := P.length_unread
  by_cases hshort : P.unread.length < 4
  · rw [scanFrame_short hshort]
    show P.next = _
    rw [next, if_pos (havail ▸ hshort)]
  obtain ⟨n, hn, u, hu⟩ := Layout.exists_leBytes (Nat.not_lt.mp hshort)
  have hbuf : P.buf.drop P.readPos = leBytes 4 n ++ u := hu
  have hload : (loadU32 (leBytes 4 n ++ u)).toNat = n := by
    rw [loadU32_toNat (by simp), List.take_left' (length_leBytes 4 n), leNat_leBytes hn]
  have hlen : P.buf.length - P.readPos = 4 + u.length := by
    rw [← havail, hu, List.length_append, length_leBytes]
  rw [hu, scanFrame_header hn]
  unfold next
  simp only [hbuf, hlen]
  have hlong : ¬ 4 + u.length < 4 := by omega
  simp only [if_neg hlong]
  by_cases hmin : n < 3
  · have hlow : loadU32 (leBytes 4 n ++ u) < 3 := by
      rw [UInt32.lt_iff_toNat_lt, hload]
      exact hmin
    rw [if_pos hmin, if_pos hlow]
  have hlow : ¬ loadU32 (leBytes 4 n ++ u) < 3 := by
    rw [UInt32.lt_iff_toNat_lt, hload]
    exact hmin
  have hsub : (loadU32 (leBytes 4 n ++ u) - 3).toNat = n - 3 := by
    rw [toNat_length_sub hlow, hload]
  rw [if_neg hmin]
  simp only [if_neg hlow, hsub]
  by_cases hmax : kMaxPayload < n - 3
  · rw [if_pos hmax, if_pos hmax]
  have hadd : (4 + loadU32 (leBytes 4 n ++ u)).toNat = 4 + n := by
    rw [toNat_length_add (by rwa [hload]), hload]
  rw [if_neg hmax]
  simp only [if_neg hmax, hadd]
  by_cases hwhole : u.length < n
  · rw [if_pos hwhole, dif_pos (by omega)]
  rw [if_neg hwhole, dif_neg (by omega)]
  have hget : ∀ i, (leBytes 4 n ++ u).getD (4 + i) 0 = u.getD i 0 := by
    intro i
    rw [List.getD_append_right _ _ _ _ (by simp), length_leBytes, Nat.add_sub_cancel_left]
  have hdrop : (leBytes 4 n ++ u).drop 7 = u.drop 3 := by
    rw [List.drop_append, List.drop_of_length_le (by simp), length_leBytes]
    rfl
  rw [hget 0, hget 1, hget 2, hdrop]
  cases hchannel : Channel.ofByte? (u.getD 0 0) with
  | none => rfl
  | some channel =>
      refine ⟨rfl, ?_⟩
      show P.buf.drop (P.readPos + (4 + n)) = _
      rw [← List.drop_drop, hbuf]

/-- The error `next` sets when there is no frame is a request for more data or one of
the three hard errors. -/
theorem next_status (h : P.next.1.1 = none) :
    P.next.1.2 = .needMoreData ∨ P.next.1.2 = .badField ∨
      P.next.1.2 = .oversizedMessage ∨ P.next.1.2 = .unknownChannel := by
  have hnext := P.next_scan
  cases hscan : scanFrame P.unread with
  | more =>
      rw [hscan] at hnext
      exact Or.inl (by rw [hnext])
  | fail e =>
      rw [hscan] at hnext
      rw [hnext]
      exact Or.inr (scanFrame_fail hscan)
  | item f k =>
      rw [hscan] at hnext
      rw [hnext.1] at h
      cases h

theorem reply_hard {e : WireError} (h : e ≠ .needMoreData) :
    reply (none, e) = .error e := by
  cases e <;> first | rfl | exact absurd rfl h

/-- They are not that more is needed. -/
theorem hard_of_scanFrame_fail {s : Bytes} {e : WireError} (h : scanFrame s = .fail e) :
    e ≠ .needMoreData := by
  rcases scanFrame_fail h with rfl | rfl | rfl <;> simp

/-- The calls on a parser made for one connection. -/
def session (calls : List (Call UInt8)) :
    List (Except WireError (Option RawFrame)) × FrameParser :=
  runCalls feed answer {} calls

/-- The hard error among the statuses `next` can end with. -/
def hardError : WireError → Option WireError
  | .needMoreData => none
  | e => some e

theorem hardError_hard {e : WireError} (h : e ≠ .needMoreData) :
    hardError e = some e := by
  cases e <;> first | rfl | exact absurd rfl h

end FrameParser

/-- **The parser is a buffered reader of the framing grammar.** -/
def frameReader : BufferedReader frameGrammar FrameParser where
  unread := FrameParser.unread
  feed := FrameParser.feed
  next := FrameParser.answer
  unread_feed := FrameParser.unread_feed
  next_more {P} h := by
    have hnext := P.next_scan
    rw [show scanFrame P.unread = .more from h] at hnext
    simp only [FrameParser.answer, hnext]
    exact ⟨rfl, trivial⟩
  next_item {P f k} h := by
    have hnext := P.next_scan
    rw [show scanFrame P.unread = .item f k from h] at hnext
    refine ⟨?_, hnext.2⟩
    simp only [FrameParser.answer, hnext.1]
    rfl
  next_fail {P e} h := by
    have hnext := P.next_scan
    rw [show scanFrame P.unread = .fail e from h] at hnext
    simp only [FrameParser.answer, hnext]
    exact ⟨FrameParser.reply_hard (FrameParser.hard_of_scanFrame_fail h), trivial⟩

namespace FrameParser

/-- Bytes are conserved: what is buffered is what was fed less the frames returned. -/
theorem buffered_session (calls : List (Call UInt8)) :
    (session calls).2.buffered +
        ((itemsOf (session calls).1).map fun f => 7 + f.payload.length).sum =
      (fed calls).length := by
  have hlength := frameReader.length_run (fun f => 7 + f.payload.length)
    (fun {_ f _} h => by rw [(scanFrame_item_iff.mp h).2.1, f.length_wire]) {} calls
  have hempty : (frameReader.unread {}).length = 0 := rfl
  rw [hempty, Nat.zero_add] at hlength
  rw [← length_unread]
  exact hlength

/-- A parser that has no frame left to return has returned the frames of the one-shot
parse, and its status and its unread bytes are what that parse leaves. -/
theorem session_drained {calls : List (Call UInt8)}
    (h : (session calls).2.next.1.1 = none) :
    frameGrammar.parse (fed calls) =
      ⟨itemsOf (session calls).1, (session calls).2.unread,
        hardError (session calls).2.next.1.2⟩ := by
  have hempty : frameReader.unread {} = [] := rfl
  obtain ⟨⟨frame, e⟩, hnext⟩ : ∃ r, (session calls).2.next.1 = r := ⟨_, rfl⟩
  rw [hnext] at h ⊢
  obtain rfl : frame = none := h
  by_cases he : e = .needMoreData
  · subst he
    have hmore : (frameReader.next (frameReader.run {} calls).2).1 = .ok none :=
      congrArg reply hnext
    have hparse := frameReader.run_drained hmore
    rwa [hempty, List.nil_append] at hparse
  · have hfault : (frameReader.next (frameReader.run {} calls).2).1 = .error e :=
      (congrArg reply hnext).trans (reply_hard he)
    have hparse := frameReader.run_faulted hfault
    rw [hempty, List.nil_append] at hparse
    rw [hardError_hard he]
    exact hparse

/-- Calling `next` often enough returns everything there is. -/
theorem session_drains (calls : List (Call UInt8)) :
    ∃ k, (session (calls ++ List.replicate k .next)).2.next.1.1 = none := by
  obtain ⟨k, -, hk⟩ := frameReader.drains (session calls).2
  refine ⟨k, ?_⟩
  have hrun : (session (calls ++ List.replicate k .next)).2 =
      (frameReader.run (session calls).2 (List.replicate k .next)).2 := by
    rw [session, Framing.runCalls_append]
    rfl
  rw [hrun]
  obtain ⟨⟨frame, e⟩, hnext⟩ :
      ∃ r, (frameReader.run (session calls).2 (List.replicate k .next)).2.next.1 = r :=
    ⟨_, rfl⟩
  cases frame with
  | none => rw [hnext]
  | some f => exact absurd (congrArg reply hnext) (hk f)

/-- After a hard error every `next` answers it again, whatever is fed. -/
theorem hard_error_terminal {P : FrameParser} {e : WireError} (h : P.next.1 = (none, e))
    (he : e ≠ .needMoreData) (later : List (Call UInt8)) :
    ∀ a ∈ (runCalls feed answer P later).1, a = .error e :=
  frameReader.run_after_fault ((congrArg reply h).trans (reply_hard he)) later

/-- **Chunking invariance.**  Take any calls on a fresh parser: any cut of the stream
into chunks and any requests in between.

* The bytes buffered are the bytes fed less those of the frames returned.
* Enough further requests empty the parser.
* Once it has nothing more to return, the frames returned, the status and the unread
  suffix are those of the one-shot parse of everything fed.
* A hard error answers every later request. -/
theorem session_chunking_invariant (calls : List (Call UInt8)) :
    let answers := (session calls).1
    let P := (session calls).2
    P.buffered + ((itemsOf answers).map fun f => 7 + f.payload.length).sum =
        (fed calls).length ∧
      (∃ k, (session (calls ++ List.replicate k .next)).2.next.1.1 = none) ∧
      (P.next.1.1 = none →
        P.next.1.2 ∈ [.needMoreData, .badField, .oversizedMessage, .unknownChannel] ∧
        frameGrammar.parse (fed calls) =
          ⟨itemsOf answers, P.unread, hardError P.next.1.2⟩) ∧
      ∀ e, e ≠ .needMoreData → P.next.1 = (none, e) →
        ∀ later, ∀ a ∈ (runCalls feed answer P later).1, a = .error e := by
  refine ⟨buffered_session calls, session_drains calls, ?_, ?_⟩
  · intro hnone
    have hstatus := next_status (session calls).2 hnone
    exact ⟨by simpa using hstatus, session_drained hnone⟩
  · intro e he hnext later
    exact hard_error_terminal hnext he later

/-- A stream of a PING frame and the start of another, cut into pieces of one byte and
of none, and a bad length after it. -/
theorem session_chunking_invariant_ping :
    let ping : Bytes := encode (.ping ⟨7⟩)
    let calls : List (Call UInt8) :=
      ping.flatMap (fun b => [.feed [b], .next, .feed []]) ++ [.feed [1, 0, 0, 0]]
    (session calls).2.next.1 = (none, .badField) ∧
      frameGrammar.parse (fed calls) =
        ⟨itemsOf (session calls).1, (session calls).2.unread, some .badField⟩ ∧
      ∀ a ∈ (runCalls feed answer (session calls).2 [.feed ping, .next]).1,
        a = .error .badField := by
  intro ping calls
  have hnext : (session calls).2.next.1 = (none, .badField) := by decide +kernel
  obtain ⟨-, -, hparse, hterminal⟩ := session_chunking_invariant calls
  refine ⟨hnext, ?_, hterminal .badField (by decide) hnext _⟩
  have hsame := (hparse (by rw [hnext])).2
  rwa [hnext] at hsame

end FrameParser

end TetherDisplay.Protocol
