import TetherDisplay.Crypto.RecordFraming
import TetherDisplay.Usbmux.Protocol

/-!
# Packets over a socket

A socket is a raw byte channel whose reads wait for data first, for a limited time.  `RecvExact`
is the loop of the secure channel with two more ways to fail: a wait can time out, and the number
of bytes still wanted is cast to `int`, so a request of `2 ^ 31` bytes or more is made with a
negative length.  While neither happens it reads what the secure channel's loop reads
(`recvExactLoop_cases`), and a packet comes off the front of the stream however the stream is cut
into pieces (`recvPacket_packet`).

What comes of a negative length is the system's to say.  Where the length is a `size_t` it is a
very large one; Winsock, where it is an `int`, documents an error.  So the answer is a parameter
of the socket, and what follows from Winsock's has it as a hypothesis (`RefusesNegative`).
-/

namespace TetherDisplay.Usbmux

open TetherDisplay.Core (ByteChannel Received arriving beyond)

/-- Winsock's answer to a negative length, `WSAEINVAL`. -/
def winsockNegative (_ : Int32) (channel : ByteChannel) : Received × ByteChannel :=
  (.failed, channel)

/-- A connection to usbmuxd. -/
structure Socket where
  channel : ByteChannel := {}
  /-- Each `select` to come: readable, or timed out.  None times out once the list is used up. -/
  selects : List Bool := []
  /-- What the system's `recv` makes of a negative length. -/
  negative : Int32 → ByteChannel → Received × ByteChannel := winsockNegative

namespace Socket

/-- A negative length is an error, as Winsock documents it. -/
def RefusesNegative (s : Socket) : Prop :=
  ∀ len channel, len < 0 → s.negative len channel = (.failed, channel)

/-- `WaitReadable`; a negative timeout is none. -/
def waitReadable (s : Socket) (timeoutMs : Int32) : Bool × Socket :=
  if timeoutMs < 0 then (true, s)
  else
    match s.selects with
    | [] => (true, s)
    | readable :: selects => (readable, { s with selects })

/-- `recv`, whose length is passed as an `int`. -/
def recv (s : Socket) (len : Int32) : Received × Socket :=
  let (r, channel) :=
    if len < 0 then s.negative len s.channel else s.channel.recv len.toInt.toNat
  (r, { s with channel })

/-- The loop of `RecvExact`, with what has been got so far. -/
def recvExactLoop : ℕ → Socket → Bytes → ℕ → Int32 → Option Bytes × Socket
  | 0, s, got, _, _ => (some got, s)
  | fuel + 1, s, got, n, timeoutMs =>
      if got.length < n then
        match s.waitReadable timeoutMs with
        | (false, s) => (none, s)
        | (true, s) =>
            -- `static_cast<int>(n - got)`
            let (r, s) := s.recv (Int32.ofNat (n - got.length))
            if r.count ≤ 0 then (none, s) else recvExactLoop fuel s (got ++ r.bytes) n timeoutMs
      else (some got, s)

/-- Every round gets a byte at least, so `n` rounds are enough. -/
def recvExact (s : Socket) (n : ℕ) (timeoutMs : Int32) : Option Bytes × Socket :=
  recvExactLoop n s [] n timeoutMs

/-- `SendPacket`, where `SendAllRaw` sends everything or fails. -/
def sendPacket (s : Socket) (tag : UInt32) (plist : Bytes) : Bool × Socket :=
  let (sent, channel) := s.channel.sendAll (encodePacket tag plist)
  (sent, { s with channel })

/-- `RecvPacket`. -/
def recvPacket (s : Socket) (timeoutMs : Int32) : Option Bytes × Socket :=
  match s.recvExact kHeaderSize timeoutMs with
  | (none, s) => (none, s)
  | (some hb, s) =>
      match decodeHeader hb with
      | none => (none, s)
      | some h =>
          let plen := h.length.toNat - kHeaderSize
          if plen = 0 then (some [], s) else s.recvExact plen timeoutMs

/-- Packets one after another, up to the first that fails. -/
def recvPackets : ℕ → Socket → Int32 → List Bytes × Socket
  | 0, s, _ => ([], s)
  | n + 1, s, timeoutMs =>
      match s.recvPacket timeoutMs with
      | (none, s) => ([], s)
      | (some plist, s) =>
          let (plists, s) := recvPackets n s timeoutMs
          (plist :: plists, s)

/-! ## One read -/

/-- No wait times out. -/
def InTime (s : Socket) (timeoutMs : Int32) : Prop :=
  timeoutMs < 0 ∨ ∀ readable ∈ s.selects, readable = true

/-- A length that is not negative is the channel's. -/
theorem recv_ofNat (s : Socket) {n : ℕ} (h : n < 2 ^ 31) :
    s.recv (Int32.ofNat n) =
      ((s.channel.recv n).1, { s with channel := (s.channel.recv n).2 }) := by
  have hn : (Int32.ofNat n).toInt = n := Int32.toInt_ofNat_of_lt h
  have hnonneg : ¬ Int32.ofNat n < 0 := by
    rw [Int32.lt_iff_toInt_lt, hn]
    simp
  rw [recv, if_neg hnonneg, hn]
  rfl

/-- The cast makes the length negative. -/
theorem recv_wrapped {s : Socket} (hrefuses : s.RefusesNegative) {n : ℕ} (hlow : 2 ^ 31 ≤ n)
    (hhigh : n < 2 ^ 32) : s.recv (Int32.ofNat n) = (.failed, s) := by
  have hneg : Int32.ofNat n < 0 := by
    rw [Int32.lt_iff_toInt_lt, Int32.toInt_ofNat', Int.bmod_def]
    simp only [Int32.size]
    split_ifs with h
    · omega
    · show (_ : ℤ) < 0
      omega
  rw [recv, if_pos hneg, hrefuses _ _ hneg]

/-- A wait that does not time out leaves the stream as it is. -/
theorem waitReadable_cases (s : Socket) (timeoutMs : Int32) :
    (∃ selects, s.waitReadable timeoutMs = (true, { s with selects }) ∧
      (s.InTime timeoutMs → ({ s with selects } : Socket).InTime timeoutMs)) ∨
    (∃ selects, s.waitReadable timeoutMs = (false, { s with selects })) ∧
      ¬ s.InTime timeoutMs := by
  obtain ⟨channel, selects, negative⟩ := s
  rw [waitReadable]
  split_ifs with hneg
  · exact Or.inl ⟨selects, rfl, fun h => h⟩
  · cases selects with
    | nil => exact Or.inl ⟨[], rfl, fun h => h⟩
    | cons readable selects =>
        cases readable with
        | true =>
            refine Or.inl ⟨selects, rfl, fun h => h.imp_right fun hall => ?_⟩
            exact fun b hb => hall b (List.mem_cons_of_mem _ hb)
        | false =>
            refine Or.inr ⟨⟨selects, rfl⟩, fun h => ?_⟩
            rcases h with h | h
            · exact hneg h
            · exact absurd (h false (List.mem_cons_self ..)) (by decide)

/-- **The loop reads what the secure channel's loop reads**, or a wait has timed out. -/
theorem recvExactLoop_cases (fuel : ℕ) (s : Socket) (got : Bytes) {n : ℕ} (timeoutMs : Int32)
    (hn : n - got.length < 2 ^ 31) :
    (∃ selects, recvExactLoop fuel s got n timeoutMs =
        ((Crypto.recvExactLoop fuel s.channel got n).1,
          ⟨(Crypto.recvExactLoop fuel s.channel got n).2, selects, s.negative⟩) ∧
        (s.InTime timeoutMs → InTime
          ⟨(Crypto.recvExactLoop fuel s.channel got n).2, selects, s.negative⟩ timeoutMs)) ∨
      ((recvExactLoop fuel s got n timeoutMs).1 = none ∧ ¬ s.InTime timeoutMs) := by
  induction fuel generalizing s got with
  | zero => exact Or.inl ⟨s.selects, rfl, fun h => h⟩
  | succ fuel ih =>
      rw [recvExactLoop, Crypto.recvExactLoop]
      split_ifs with hmore
      · rcases s.waitReadable_cases timeoutMs with
          ⟨selects, hwait, hintime⟩ | ⟨⟨selects, hwait⟩, hlate⟩
        · simp only [hwait, recv_ofNat _ hn]
          rcases hrecv : s.channel.recv (n - got.length) with ⟨r, channel⟩
          dsimp only
          split_ifs with hcount
          · exact Or.inl ⟨selects, rfl, hintime⟩
          · have hrest : n - (got ++ r.bytes).length < 2 ^ 31 := by
              rw [List.length_append]
              omega
            rcases ih ⟨channel, selects, s.negative⟩ (got ++ r.bytes) hrest with
              ⟨selects', hloop, hkeep⟩ | ⟨hnone, hlate⟩
            · exact Or.inl ⟨selects', hloop, fun h => hkeep (hintime h)⟩
            · exact Or.inr ⟨hnone, fun h => hlate (hintime h)⟩
        · simp only [hwait]
          exact Or.inr ⟨trivial, hlate⟩
      · exact Or.inl ⟨s.selects, rfl, fun h => h⟩

/-- A length that wraps to a negative one fails. -/
theorem recvExact_wrapped {s : Socket} (hrefuses : s.RefusesNegative) {n : ℕ} (timeoutMs : Int32)
    (hlow : 2 ^ 31 ≤ n) (hhigh : n < 2 ^ 32) : (s.recvExact n timeoutMs).1 = none := by
  obtain ⟨m, rfl⟩ := Nat.exists_eq_add_of_le' (show 1 ≤ n by omega)
  have hmore : ([] : Bytes).length < m + 1 := by simp
  rw [recvExact, recvExactLoop, if_pos hmore]
  rcases s.waitReadable_cases timeoutMs with ⟨selects, hwait, -⟩ | ⟨⟨selects, hwait⟩, -⟩
  · have hrefuses' : ({ s with selects } : Socket).RefusesNegative := hrefuses
    rw [hwait]
    simp only [List.length_nil, Nat.sub_zero, recv_wrapped hrefuses' hlow hhigh]
    rfl
  · rw [hwait]

/-- The stream of a socket: the bytes to come, up to its end. -/
def stream (s : Socket) : Bytes := arriving s.channel.inbox

/-- Nothing comes after the end of the stream. -/
def Ends (s : Socket) : Prop := beyond s.channel.inbox = []

/-- The socket once these bytes have been taken off its stream. -/
structure Advances (s s' : Socket) (timeoutMs : Int32) (bytes : Bytes) : Prop where
  stream : s.stream = bytes ++ s'.stream
  ends : s.Ends → s'.Ends
  inTime : s.InTime timeoutMs → s'.InTime timeoutMs
  negative : s'.negative = s.negative

/-- One read after another. -/
theorem Advances.trans {s s' s'' : Socket} {timeoutMs : Int32} {bytes bytes' : Bytes}
    (h : s.Advances s' timeoutMs bytes) (h' : s'.Advances s'' timeoutMs bytes') :
    s.Advances s'' timeoutMs (bytes ++ bytes') where
  stream := by rw [h.stream, h'.stream, List.append_assoc]
  ends := fun hends => h'.ends (h.ends hends)
  inTime := fun hintime => h'.inTime (h.inTime hintime)
  negative := h'.negative.trans h.negative

theorem Advances.refusesNegative {s s' : Socket} {timeoutMs : Int32} {bytes : Bytes}
    (h : s.Advances s' timeoutMs bytes) (hrefuses : s.RefusesNegative) : s'.RefusesNegative := by
  rw [RefusesNegative, h.negative]
  exact hrefuses

/-- **`RecvExact` takes what stands at the front of the stream**, unless a wait times out. -/
theorem recvExact_front {s : Socket} {bytes rest : Bytes} (timeoutMs : Int32)
    (hstream : s.stream = bytes ++ rest) (hlength : bytes.length < 2 ^ 31) :
    (∃ s', s.recvExact bytes.length timeoutMs = (some bytes, s') ∧
        s.Advances s' timeoutMs bytes) ∨
      ((s.recvExact bytes.length timeoutMs).1 = none ∧ ¬ s.InTime timeoutMs) := by
  rcases recvExactLoop_cases bytes.length s [] timeoutMs (n := bytes.length)
      (by simpa using hlength)
    with ⟨selects, hloop, hintime⟩ | hlate
  · have hinbox : arriving s.channel.inbox = bytes ++ rest := hstream
    have henough : bytes.length ≤ (arriving s.channel.inbox).length := by
      rw [hinbox, List.length_append]
      omega
    obtain ⟨inbox, hrecv, harriving, hbeyond⟩ := Crypto.recvExact_enough henough
    rw [Crypto.recvExact, hinbox, List.take_left] at hrecv
    rw [hinbox, List.drop_left] at harriving
    rw [hrecv] at hloop hintime
    refine Or.inl ⟨_, hloop, ?_, fun hends => hbeyond.trans hends, hintime, rfl⟩
    show arriving s.channel.inbox = bytes ++ arriving inbox
    rw [hinbox, harriving]
  · exact Or.inr hlate

/-! ## One packet -/

/-- The length of a packet fits into the header. -/
theorem length_packetHeader {payload : Bytes} (h : payload.length < 2 ^ 32 - 16) :
    (UInt32.ofNat (kHeaderSize + payload.length)).toNat = kHeaderSize + payload.length := by
  rw [UInt32.toNat_ofNat']
  exact Nat.mod_eq_of_lt (show 16 + payload.length < 2 ^ 32 by omega)

/-- The header of a packet is read, and what is asked for next is its payload. -/
theorem recvPacket_header {s : Socket} {tag : UInt32} {payload rest : Bytes} (timeoutMs : Int32)
    (hstream : s.stream = encodePacket tag payload ++ rest)
    (hlength : payload.length < 2 ^ 32 - 16) :
    (∃ s' header, s.recvPacket timeoutMs =
          (if payload.length = 0 then (some [], s') else s'.recvExact payload.length timeoutMs) ∧
        encodePacket tag payload = header ++ payload ∧ s.Advances s' timeoutMs header) ∨
      ((s.recvPacket timeoutMs).1 = none ∧ ¬ s.InTime timeoutMs) := by
  set h : MuxHeader :=
    { length := UInt32.ofNat (kHeaderSize + payload.length)
      version := kVersionPlist
      message := kMessagePlist
      tag := tag } with hh
  have hwire : encodePacket tag payload = encodeHeader h ++ payload := rfl
  have hfront : s.stream = encodeHeader h ++ (payload ++ rest) := by
    rw [hstream, hwire, List.append_assoc]
  have hsize : h.length.toNat = kHeaderSize + payload.length := length_packetHeader hlength
  rw [recvPacket]
  rcases recvExact_front timeoutMs hfront (by rw [length_encodeHeader]; decide) with
    ⟨s', hread, hadvances⟩ | ⟨hnone, hlate⟩
  · rw [length_encodeHeader] at hread
    have hdecode : decodeHeader (encodeHeader h) = some h := by
      have hcovers : 16 ≤ h.length.toNat := by
        rw [hsize]
        exact Nat.le_add_right 16 _
      simpa using decodeHeader_encodeHeader hcovers []
    refine Or.inl ⟨s', encodeHeader h, ?_, hwire, hadvances⟩
    simp only [hread, hdecode, hsize, Nat.add_sub_cancel_left]
  · rw [length_encodeHeader] at hnone
    rcases hread : s.recvExact kHeaderSize timeoutMs with ⟨header, s'⟩
    rw [hread] at hnone
    simp only at hnone
    subst hnone
    exact Or.inr ⟨rfl, hlate⟩

/-- **A packet comes off the front of the stream**, unless a wait times out. -/
theorem recvPacket_packet {s : Socket} {tag : UInt32} {payload rest : Bytes} (timeoutMs : Int32)
    (hstream : s.stream = encodePacket tag payload ++ rest) (hlength : payload.length < 2 ^ 31) :
    (∃ s', s.recvPacket timeoutMs = (some payload, s') ∧
        s.Advances s' timeoutMs (encodePacket tag payload)) ∨
      ((s.recvPacket timeoutMs).1 = none ∧ ¬ s.InTime timeoutMs) := by
  rcases recvPacket_header timeoutMs hstream (by omega) with
    ⟨s', header, hrecv, hwire, hadvances⟩ | hlate
  · rw [hrecv]
    split_ifs with hempty
    · have hnil : payload = [] := List.length_eq_zero_iff.mp hempty
      subst hnil
      rw [List.append_nil] at hwire
      exact Or.inl ⟨s', rfl, hwire ▸ hadvances⟩
    · have hrest : s'.stream = payload ++ rest := by
        have h := hadvances.stream
        rw [hstream, hwire, List.append_assoc] at h
        exact (List.append_cancel_left h).symm
      rcases recvExact_front timeoutMs hrest hlength with ⟨s'', hread, hadvances'⟩ | ⟨hnone, hlate⟩
      · exact Or.inl ⟨s'', hread, hwire ▸ hadvances.trans hadvances'⟩
      · exact Or.inr ⟨hnone, fun hintime => hlate (hadvances.inTime hintime)⟩
  · exact Or.inr hlate

/-- A payload whose size does not fit an `int` is never read, where a negative length is an
error. -/
theorem recvPacket_long {s : Socket} (hrefuses : s.RefusesNegative) {tag : UInt32}
    {payload rest : Bytes} (timeoutMs : Int32)
    (hstream : s.stream = encodePacket tag payload ++ rest) (hlow : 2 ^ 31 ≤ payload.length)
    (hhigh : payload.length < 2 ^ 32 - 16) : (s.recvPacket timeoutMs).1 = none := by
  rcases recvPacket_header timeoutMs hstream hhigh with
    ⟨s', header, hrecv, -, hadvances⟩ | ⟨hnone, -⟩
  · rw [hrecv, if_neg (by omega)]
    exact recvExact_wrapped (hadvances.refusesNegative hrefuses) timeoutMs hlow (by omega)
  · exact hnone

/-! ## Many packets -/

/-- The packets as they travel. -/
def wire (packets : List (UInt32 × Bytes)) : Bytes := packets.flatMap fun p => encodePacket p.1 p.2

/-- The packets are read as they were sent, and nothing more is taken off the stream. -/
def Reads (s : Socket) (packets : List (UInt32 × Bytes)) (timeoutMs : Int32) (rest : Bytes) :
    Prop :=
  (s.recvPackets packets.length timeoutMs).1 = packets.map Prod.snd ∧
    (s.recvPackets packets.length timeoutMs).2.stream = rest

/-- **Packets are read exactly** when every payload's size fits an `int`, whatever a negative
length comes to. -/
theorem reads_of_fits {s : Socket} {packets : List (UInt32 × Bytes)} {timeoutMs : Int32}
    {rest : Bytes} (hstream : s.stream = wire packets ++ rest) (hintime : s.InTime timeoutMs)
    (hlength : ∀ p ∈ packets, p.2.length < 2 ^ 31) : s.Reads packets timeoutMs rest := by
  induction packets generalizing s with
  | nil => simpa [Reads, recvPackets, wire] using hstream
  | cons p packets ih =>
      obtain ⟨hp, hpackets⟩ := List.forall_mem_cons.mp hlength
      have hfront : s.stream = encodePacket p.1 p.2 ++ (wire packets ++ rest) := by
        rw [hstream, wire, List.flatMap_cons, List.append_assoc]
        rfl
      rcases recvPacket_packet timeoutMs hfront hp with ⟨s', hrecv, hadvances⟩ | ⟨-, hlate⟩
      · have hrest : s'.stream = wire packets ++ rest :=
          List.append_cancel_left (hadvances.stream.symm.trans hfront)
        have hlater := ih hrest (hadvances.inTime hintime) hpackets
        simpa [Reads, recvPackets, hrecv] using hlater
      · exact absurd hintime hlate

/-- And only then, where a negative length is an error. -/
theorem fits_of_reads {s : Socket} (hrefuses : s.RefusesNegative)
    {packets : List (UInt32 × Bytes)} {timeoutMs : Int32} {rest : Bytes}
    (hstream : s.stream = wire packets ++ rest) (hintime : s.InTime timeoutMs)
    (hlength : ∀ p ∈ packets, p.2.length < 2 ^ 32 - 16)
    (hreads : s.Reads packets timeoutMs rest) : ∀ p ∈ packets, p.2.length < 2 ^ 31 := by
  induction packets generalizing s with
  | nil => exact fun p hp => absurd hp List.not_mem_nil
  | cons p packets ih =>
      obtain ⟨hp, hpackets⟩ := List.forall_mem_cons.mp hlength
      have hfront : s.stream = encodePacket p.1 p.2 ++ (wire packets ++ rest) := by
        rw [hstream, wire, List.flatMap_cons, List.append_assoc]
        rfl
      by_cases hfits : p.2.length < 2 ^ 31
      · rcases recvPacket_packet timeoutMs hfront hfits with ⟨s', hrecv, hadvances⟩ | ⟨-, hlate⟩
        · have hrest : s'.stream = wire packets ++ rest :=
            List.append_cancel_left (hadvances.stream.symm.trans hfront)
          have hlater : s'.Reads packets timeoutMs rest := by
            simpa [Reads, recvPackets, hrecv] using hreads
          exact List.forall_mem_cons.mpr ⟨hfits, ih (hadvances.refusesNegative hrefuses) hrest
            (hadvances.inTime hintime) hpackets hlater⟩
        · exact absurd hintime hlate
      · -- the first packet is not read
        have hnone := recvPacket_long hrefuses timeoutMs hfront (not_lt.mp hfits) hp
        rcases hrecv : s.recvPacket timeoutMs with ⟨first, s'⟩
        rw [hrecv] at hnone
        simp only at hnone
        subst hnone
        simp [Reads, recvPackets, hrecv] at hreads

/-! ## Raw bytes -/

/-- Whatever the room, what is read comes off the front of a stream that nothing follows. -/
theorem channel_recv_conserves (c : ByteChannel) (room : ℕ) (h : beyond c.inbox = []) :
    (c.recv room).1.bytes ++ arriving (c.recv room).2.inbox = arriving c.inbox ∧
      beyond (c.recv room).2.inbox = [] := by
  obtain ⟨inbox, sends, outbox⟩ := c
  cases inbox with
  | nil => exact ⟨rfl, rfl⟩
  | cons r inbox =>
      cases r with
      | closed =>
          obtain rfl : inbox = [] := h
          exact ⟨rfl, rfl⟩
      | failed =>
          obtain rfl : inbox = [] := h
          exact ⟨rfl, rfl⟩
      | data bytes =>
          cases bytes with
          | nil =>
              obtain rfl : inbox = [] := h
              exact ⟨rfl, rfl⟩
          | cons b bytes =>
              by_cases hfit : (b :: bytes).length ≤ room
              · rw [ByteChannel.recv]
                simp only [if_pos hfit]
                exact ⟨rfl, h⟩
              · obtain ⟨c, rest, hrest⟩ : ∃ c rest, (b :: bytes).drop room = c :: rest := by
                  cases hdrop : (b :: bytes).drop room with
                  | nil => exact absurd (List.drop_eq_nil_iff.mp hdrop) hfit
                  | cons c rest => exact ⟨c, rest, rfl⟩
                rw [ByteChannel.recv]
                simp only [if_neg hfit, hrest]
                refine ⟨?_, h⟩
                show (b :: bytes).take room ++ (c :: rest ++ arriving inbox) =
                  b :: bytes ++ arriving inbox
                rw [← List.append_assoc, ← hrest, List.take_append_drop]

/-- `recv` loses nothing. -/
theorem recv_conserves {s : Socket} (hrefuses : s.RefusesNegative) (len : Int32) (h : s.Ends) :
    (s.recv len).1.bytes ++ (s.recv len).2.stream = s.stream ∧ (s.recv len).2.Ends := by
  rw [recv]
  split_ifs with hneg
  · rw [hrefuses _ _ hneg]
    exact ⟨rfl, h⟩
  · exact channel_recv_conserves s.channel _ h

theorem negative_recv (s : Socket) (len : Int32) : (s.recv len).2.negative = s.negative := by
  rw [recv]

/-- A buffer whose size fits an `int` gets a byte at least, while there are any. -/
theorem recv_pos {s : Socket} {size : ℕ} (hpos : 0 < size) (hfits : size < 2 ^ 31)
    (hmore : s.stream ≠ []) : (s.recv (Int32.ofNat size)).1.bytes ≠ [] := by
  rw [recv_ofNat s hfits]
  rcases s.channel.recv_cases hpos with ⟨bytes, inbox, hne, -, hrecv, -, -⟩ | ⟨r, -, -, hend⟩
  · rw [hrecv]
    exact hne
  · exact absurd hend hmore

end Socket

end TetherDisplay.Usbmux
