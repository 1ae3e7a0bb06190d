import TetherDisplay.Core.ByteChannel
import TetherDisplay.Foundations.Framing
import TetherDisplay.Protocol.Cursor

/-!
# Framing of records on the raw channel

Everything a secure channel puts on the raw channel, handshake messages and encrypted
records alike, is framed as `[u32 len][payload]`.  These are `RecvExact`, `ReadFramed`
and `WriteFramed` of `secure_byte_channel.cpp`.

The format itself is `recordGrammar`, which the iPad's side shares.  A length of zero or
above `kMaxFrame` is a fault: the length is read before anything is authenticated, and
nothing else about a record is wrong at this level.  `readFramed_scan` tells what
`readFramed` does from what the stream begins with, however it is cut into pieces.
-/

namespace TetherDisplay.Crypto

open LittleEndian
open TetherDisplay.Core (ByteChannel arriving beyond)
open Framing (Scan Grammar)

/-- A bit over the protocol's 16 MiB payload cap. -/
def kMaxFrame : ℕ := 17 * 1024 * 1024

/-! ## Reading and writing -/

/-- The loop of `RecvExact`, with what has been got so far. -/
def recvExactLoop : ℕ → ByteChannel → Bytes → ℕ → Option Bytes × ByteChannel
  | 0, c, got, _ => (some got, c)
  | fuel + 1, c, got, n =>
      if got.length < n then
        let (r, c) := c.recv (n - got.length)
        if r.count ≤ 0 then (none, c) else recvExactLoop fuel c (got ++ r.bytes) n
      else (some got, c)

/-- Every round gets a byte at least, so `n` rounds are enough. -/
def recvExact (c : ByteChannel) (n : ℕ) : Option Bytes × ByteChannel :=
  recvExactLoop n c [] n

/-- The length field as the source puts it together. -/
def headerLength (hdr : Bytes) : UInt32 :=
  (hdr.getD 0 0).toUInt32 ||| ((hdr.getD 1 0).toUInt32 <<< 8) |||
    ((hdr.getD 2 0).toUInt32 <<< 16) ||| ((hdr.getD 3 0).toUInt32 <<< 24)

/-- `ReadFramed`. -/
def readFramed (c : ByteChannel) : Option Bytes × ByteChannel :=
  match recvExact c 4 with
  | (none, c) => (none, c)
  | (some hdr, c) =>
      let len := headerLength hdr
      if len = 0 ∨ kMaxFrame < len.toNat then (none, c) else recvExact c len.toNat

/-- The length field as the source takes it apart. -/
def lengthHeader (len : UInt32) : Bytes :=
  [(len &&& 0xFF).toUInt8, ((len >>> 8) &&& 0xFF).toUInt8, ((len >>> 16) &&& 0xFF).toUInt8,
    ((len >>> 24) &&& 0xFF).toUInt8]

/-- `WriteFramed`. -/
def writeFramed (c : ByteChannel) (payload : Bytes) : Bool × ByteChannel :=
  match c.sendAll (lengthHeader (UInt32.ofNat payload.length)) with
  | (false, c) => (false, c)
  | (true, c) => c.sendAll payload

/-! ## The format -/

/-- A record as it travels. -/
def recordWire (record : Bytes) : Bytes := leBytes 4 record.length ++ record

@[simp] theorem length_recordWire (record : Bytes) :
    (recordWire record).length = 4 + record.length := by
  simp [recordWire]

/-- What a stream of records begins with; the one fault is a bad length. -/
def scanRecord (s : Bytes) : Scan Bytes Unit :=
  if s.length < 4 then .more
  else
    let len := leNat (s.take 4)
    if len = 0 ∨ kMaxFrame < len then .fail ()
    else if s.length < 4 + len then .more
    else .item ((s.drop 4).take len) (4 + len)

/-- Too short for a header. -/
theorem scanRecord_short {s : Bytes} (h : s.length < 4) : scanRecord s = .more := if_pos h

/-- What comes of a header. -/
theorem scanRecord_header {n : ℕ} (hn : n < 256 ^ 4) (u : Bytes) :
    scanRecord (leBytes 4 n ++ u) =
      if n = 0 ∨ kMaxFrame < n then .fail ()
      else if u.length < n then .more
      else .item (u.take n) (4 + n) := by
  have htake : (leBytes 4 n ++ u).take 4 = leBytes 4 n :=
    List.take_left' (length_leBytes 4 n)
  have hdrop : (leBytes 4 n ++ u).drop 4 = u := List.drop_left' (length_leBytes 4 n)
  have hlong : ¬ (leBytes 4 n ++ u).length < 4 := by simp
  have hwhole : (leBytes 4 n ++ u).length < 4 + n ↔ u.length < n := by simp
  unfold scanRecord
  rw [if_neg hlong, htake, leNat_leBytes hn, hdrop]
  simp only [hwhole]

theorem exists_recordHeader {s : Bytes} (h : scanRecord s ≠ .more) :
    ∃ n < 256 ^ 4, ∃ u, s = leBytes 4 n ++ u := by
  by_cases hlen : s.length < 4
  · exact absurd (scanRecord_short hlen) h
  · exact Protocol.Layout.exists_leBytes (Nat.not_lt.mp hlen)

/-- A stream begins with a record exactly when it begins with the bytes of one. -/
theorem scanRecord_item_iff {s record : Bytes} {k : ℕ} :
    scanRecord s = .item record k ↔
      record ≠ [] ∧ record.length ≤ kMaxFrame ∧ k = (recordWire record).length ∧
        ∃ t, s = recordWire record ++ t := by
  constructor
  · intro h
    obtain ⟨n, hn, u, rfl⟩ := exists_recordHeader (s := s) (by rw [h]; simp)
    rw [scanRecord_header hn] at h
    split at h
    · cases h
    split at h
    · cases h
    rename_i hlen hwhole
    injection h with hrecord hk
    subst hrecord hk
    have htake : (u.take n).length = n := by rw [List.length_take]; omega
    refine ⟨?_, by omega, by simp [htake], u.drop n, ?_⟩
    · intro hnil
      rw [hnil, List.length_nil] at htake
      omega
    · rw [recordWire, htake, List.append_assoc, List.take_append_drop]
  · rintro ⟨hne, hmax, rfl, t, rfl⟩
    have hbound : kMaxFrame = 17825792 := rfl
    have hpos := List.length_pos_of_ne_nil hne
    have hn : record.length < 256 ^ 4 := by norm_num; omega
    rw [recordWire, List.append_assoc, scanRecord_header hn, if_neg (by omega),
      if_neg (by simp)]
    simp

/-- The framing of records as a grammar. -/
def recordGrammar : Grammar UInt8 Bytes Unit where
  scan := scanRecord
  used_pos h := by
    obtain ⟨-, -, rfl, -⟩ := scanRecord_item_iff.mp h
    rw [length_recordWire]
    omega
  used_le h := by
    obtain ⟨-, -, rfl, t, rfl⟩ := scanRecord_item_iff.mp h
    rw [List.length_append]
    omega
  item_append h t := by
    obtain ⟨hne, hmax, hk, t', rfl⟩ := scanRecord_item_iff.mp h
    exact scanRecord_item_iff.mpr ⟨hne, hmax, hk, t' ++ t, List.append_assoc _ _ _⟩
  fail_append {s e} h t := by
    obtain ⟨n, hn, u, rfl⟩ := exists_recordHeader (s := s) (by rw [h]; simp)
    rw [List.append_assoc, scanRecord_header hn]
    rw [scanRecord_header hn] at h
    split at h
    · rw [if_pos ‹_›]
    split at h <;> cases h

/-- Nothing is said of a part of a record. -/
theorem scanRecord_part {s record : Bytes} (hne : record ≠ []) (hmax : record.length ≤ kMaxFrame)
    (hfront : s <+: recordWire record) (hshort : s.length < (recordWire record).length) :
    scanRecord s = .more := by
  have hwhole : scanRecord (recordWire record) = .item record (recordWire record).length :=
    scanRecord_item_iff.mpr ⟨hne, hmax, rfl, [], (List.append_nil _).symm⟩
  obtain ⟨rest, hrest⟩ := hfront
  cases hscan : scanRecord s with
  | more => rfl
  | fail e =>
      have hfail : scanRecord (s ++ rest) = .fail e := recordGrammar.fail_append hscan rest
      rw [hrest, hwhole] at hfail
      cases hfail
  | item record' k =>
      have hitem : scanRecord (s ++ rest) = .item record' k := recordGrammar.item_append hscan rest
      rw [hrest, hwhole] at hitem
      injection hitem with _ hk
      have hle : k ≤ s.length := recordGrammar.used_le hscan
      omega

/-! ## Reading follows the format -/

/-- The invariant of the loop: what has been got and what is still to come of the stream
are what the call started with. -/
theorem recvExactLoop_spec (fuel : ℕ) (c : ByteChannel) (got : Bytes) (n : ℕ)
    (hfuel : n ≤ got.length + fuel) (hgot : got.length ≤ n) :
    (n - got.length ≤ (arriving c.inbox).length →
      ∃ inbox, recvExactLoop fuel c got n =
          (some (got ++ (arriving c.inbox).take (n - got.length)), { c with inbox }) ∧
        arriving inbox = (arriving c.inbox).drop (n - got.length) ∧
        beyond inbox = beyond c.inbox) ∧
    ((arriving c.inbox).length < n - got.length →
      recvExactLoop fuel c got n = (none, { c with inbox := beyond c.inbox })) := by
  induction fuel generalizing c got with
  | zero =>
      have hzero : n - got.length = 0 := by omega
      rw [hzero]
      refine ⟨fun _ => ⟨c.inbox, ?_, rfl, rfl⟩, fun hlt => absurd hlt (Nat.not_lt_zero _)⟩
      simp [recvExactLoop]
  | succ fuel ih =>
      unfold recvExactLoop
      by_cases hmore : got.length < n
      · rw [if_pos hmore]
        -- the bytes of this round move from the stream to what has been got
        rcases c.recv_cases (Nat.sub_pos_of_lt hmore) with
          ⟨bytes, inbox, hne, hroom, hrecv, harriving, hbeyond⟩ | ⟨r, hrecv, hcount, harriving⟩
        · have hpos := List.length_pos_of_ne_nil hne
          have hcount : ¬ (Core.Received.data bytes).count ≤ 0 := by
            simp only [Core.Received.count]; omega
          have hlen : (got ++ bytes).length = got.length + bytes.length := List.length_append
          have hrest : n - (got ++ bytes).length = n - got.length - bytes.length := by
            rw [hlen]; omega
          obtain ⟨henough, hshort⟩ := ih { c with inbox } (got ++ bytes)
            (by rw [hlen]; omega) (by rw [hlen]; omega)
          rw [hrest] at henough hshort
          dsimp only at henough hshort
          simp only [hrecv, if_neg hcount, Core.Received.bytes]
          rw [harriving, List.length_append]
          constructor
          · intro hle
            obtain ⟨inbox', hloop, harriving', hbeyond'⟩ := henough (by omega)
            refine ⟨inbox', ?_, ?_, hbeyond'.trans hbeyond.symm⟩
            · rw [hloop, List.take_append, List.take_of_length_le hroom, List.append_assoc]
            · rw [harriving', List.drop_append, List.drop_of_length_le hroom, List.nil_append]
          · intro hlt
            rw [hshort (by omega), hbeyond]
        · -- the stream has ended: only a request that is met already can succeed
          rw [harriving]
          simp only [hrecv, if_pos hcount, List.length_nil]
          exact ⟨fun hle => absurd hle (by omega), fun _ => trivial⟩
      · rw [if_neg hmore]
        have hzero : n - got.length = 0 := by omega
        rw [hzero]
        refine ⟨fun _ => ⟨c.inbox, ?_, rfl, rfl⟩, fun hlt => absurd hlt (Nat.not_lt_zero _)⟩
        simp

/-- `RecvExact` on a stream that is long enough. -/
theorem recvExact_enough {c : ByteChannel} {n : ℕ} (h : n ≤ (arriving c.inbox).length) :
    ∃ inbox, recvExact c n = (some ((arriving c.inbox).take n), { c with inbox }) ∧
      arriving inbox = (arriving c.inbox).drop n ∧ beyond inbox = beyond c.inbox :=
  (recvExactLoop_spec n c [] n (by simp) (by simp)).1 h

/-- `RecvExact` on a stream that ends too early. -/
theorem recvExact_short {c : ByteChannel} {n : ℕ} (h : (arriving c.inbox).length < n) :
    recvExact c n = (none, { c with inbox := beyond c.inbox }) :=
  (recvExactLoop_spec n c [] n (by simp) (by simp)).2 h

/-- The length of a header is read back. -/
theorem headerLength_toNat {n : ℕ} (hn : n < 256 ^ 4) :
    (headerLength (leBytes 4 n)).toNat = n := by
  have hload : headerLength (leBytes 4 n) = Protocol.loadU32 (leBytes 4 n) := by
    simp [headerLength, Protocol.loadU32, List.range_succ]
  rw [hload, Protocol.loadU32_toNat (by simp), List.take_of_length_le (by simp),
    leNat_leBytes hn]

theorem lengthHeader_eq (len : UInt32) : lengthHeader len = leBytes 4 len.toNat := by
  have hwriter := Protocol.ByteWriter.u32_out ⟨[]⟩ len
  rw [List.nil_append] at hwriter
  rw [← hwriter]
  simp [lengthHeader, Protocol.ByteWriter.u32, Protocol.ByteWriter.u8, List.range_succ]

/-- **What `ReadFramed` does**, told from the stream.  A record is taken off its front; a
bad length only costs its four bytes; and a stream too short for a record is read to its
end. -/
theorem readFramed_scan (c : ByteChannel) :
    match scanRecord (arriving c.inbox) with
    | .item record k => ∃ inbox, readFramed c = (some record, { c with inbox }) ∧
        arriving inbox = (arriving c.inbox).drop k ∧ beyond inbox = beyond c.inbox
    | .fail _ => ∃ inbox, readFramed c = (none, { c with inbox }) ∧
        arriving inbox = (arriving c.inbox).drop 4 ∧ beyond inbox = beyond c.inbox
    | .more => readFramed c = (none, { c with inbox := beyond c.inbox }) := by
  by_cases hshort : (arriving c.inbox).length < 4
  · rw [scanRecord_short hshort]
    show readFramed c = _
    rw [readFramed, recvExact_short hshort]
  obtain ⟨n, hn, u, hu⟩ := Protocol.Layout.exists_leBytes (Nat.not_lt.mp hshort)
  obtain ⟨inbox, hrecv, harriving, hbeyond⟩ := recvExact_enough (Nat.not_lt.mp hshort)
  rw [hu, List.take_left' (length_leBytes 4 n)] at hrecv
  rw [hu, List.drop_left' (length_leBytes 4 n)] at harriving
  have hlen := headerLength_toNat hn
  have hzero : headerLength (leBytes 4 n) = 0 ↔ n = 0 := by
    rw [← UInt32.toNat_inj, hlen]
    rfl
  rw [hu, scanRecord_header hn]
  unfold readFramed
  simp only [hrecv, hzero, hlen]
  -- the length is judged before any of the body is read
  by_cases hbad : n = 0 ∨ kMaxFrame < n
  · rw [if_pos hbad, if_pos hbad]
    exact ⟨inbox, rfl, by rw [harriving, List.drop_left' (length_leBytes 4 n)], hbeyond⟩
  rw [if_neg hbad, if_neg hbad]
  by_cases hwhole : u.length < n
  · rw [if_pos hwhole, recvExact_short (by rw [harriving]; exact hwhole), hbeyond]
  · rw [if_neg hwhole]
    obtain ⟨inbox', hrecv', harriving', hbeyond'⟩ :=
      recvExact_enough (c := { c with inbox }) (n := n) (by rw [harriving]; omega)
    rw [harriving] at hrecv' harriving'
    refine ⟨inbox', hrecv', ?_, hbeyond'.trans hbeyond⟩
    rw [harriving', ← List.drop_drop, List.drop_left' (length_leBytes 4 n)]

/-- A record that has been read is what the stream began with. -/
theorem readFramed_eq_some {c c' : ByteChannel} {record : Bytes}
    (h : readFramed c = (some record, c')) :
    ∃ k, scanRecord (arriving c.inbox) = .item record k ∧
      arriving c'.inbox = (arriving c.inbox).drop k := by
  have hread := readFramed_scan c
  cases hscan : scanRecord (arriving c.inbox) with
  | more =>
      rw [hscan] at hread
      rw [show readFramed c = _ from hread] at h
      cases h
  | fail e =>
      rw [hscan] at hread
      obtain ⟨inbox, hframed, -, -⟩ := hread
      rw [hframed] at h
      cases h
  | item record' k =>
      rw [hscan] at hread
      obtain ⟨inbox, hframed, harriving, -⟩ := hread
      rw [hframed] at h
      cases h
      exact ⟨k, rfl, harriving⟩

/-- A whole record at the front of the stream is read. -/
theorem readFramed_wire {c : ByteChannel} {record t : Bytes} (hne : record ≠ [])
    (hmax : record.length ≤ kMaxFrame) (h : arriving c.inbox = recordWire record ++ t) :
    ∃ inbox, readFramed c = (some record, { c with inbox }) ∧ arriving inbox = t := by
  have hscan : scanRecord (arriving c.inbox) = .item record (recordWire record).length :=
    scanRecord_item_iff.mpr ⟨hne, hmax, rfl, t, h⟩
  have hread := readFramed_scan c
  rw [hscan] at hread
  obtain ⟨inbox, hframed, harriving, -⟩ := hread
  exact ⟨inbox, hframed, by rw [harriving, h, List.drop_left]⟩

/-- `WriteFramed` on a channel that takes everything. -/
theorem writeFramed_ok {c : ByteChannel} (hsends : c.sends = []) {payload : Bytes}
    (hlen : payload.length < 2 ^ 32) :
    writeFramed c payload = (true, { c with outbox := c.outbox ++ recordWire payload }) := by
  obtain ⟨inbox, sends, outbox⟩ := c
  obtain rfl : sends = [] := hsends
  have hheader : lengthHeader (UInt32.ofNat payload.length) = leBytes 4 payload.length := by
    rw [lengthHeader_eq, UInt32.toNat_ofNat_of_lt' hlen]
  simp [writeFramed, ByteChannel.sendAll, hheader, recordWire]

/-- A record is sent and another one comes in. -/
theorem exchange_ok {c : ByteChannel} {peer rest : Bytes} (hsends : c.sends = []) (own : Bytes)
    (hown : own.length < 2 ^ 32) (hne : peer ≠ []) (hmax : peer.length ≤ kMaxFrame)
    (harriving : arriving c.inbox = recordWire peer ++ rest) :
    ∃ c₁ c₂, writeFramed c own = (true, c₁) ∧ readFramed c₁ = (some peer, c₂) ∧
      c₂.sends = [] ∧ arriving c₂.inbox = rest ∧ c₂.outbox = c.outbox ++ recordWire own := by
  obtain ⟨inbox, hread, hrest⟩ :=
    readFramed_wire (c := { c with outbox := c.outbox ++ recordWire own }) hne hmax harriving
  exact ⟨_, _, writeFramed_ok hsends hown, hread, hsends, hrest, rfl⟩

/-- A record is sent and the other one has not come in as a whole. -/
theorem exchange_waits {c : ByteChannel} (hsends : c.sends = []) (own : Bytes)
    (hown : own.length < 2 ^ 32) (hmore : scanRecord (arriving c.inbox) = .more) :
    ∃ c₁ c₂, writeFramed c own = (true, c₁) ∧ readFramed c₁ = (none, c₂) ∧
      c₂.outbox = c.outbox ++ recordWire own := by
  have hread := readFramed_scan { c with outbox := c.outbox ++ recordWire own }
  rw [show scanRecord (arriving c.inbox) = .more from hmore] at hread
  exact ⟨_, _, writeFramed_ok hsends hown, hread, rfl⟩

/-- Writing receives nothing. -/
theorem writeFramed_inbox (c : ByteChannel) (payload : Bytes) :
    (writeFramed c payload).2.inbox = c.inbox := by
  have hsend : ∀ (c : ByteChannel) (data : Bytes), (c.sendAll data).2.inbox = c.inbox := by
    intro c data
    unfold ByteChannel.sendAll
    split <;> rfl
  unfold writeFramed
  cases hheader : c.sendAll (lengthHeader (UInt32.ofNat payload.length)) with
  | mk sent c' =>
      have hkept := hsend c (lengthHeader (UInt32.ofNat payload.length))
      rw [hheader] at hkept
      cases sent with
      | false => exact hkept
      | true => exact (hsend c' payload).trans hkept

end TetherDisplay.Crypto
