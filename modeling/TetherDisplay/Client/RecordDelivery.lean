import TetherDisplay.Client.SecureTransport
import TetherDisplay.Protocol.RoundTrip

/-!
# Lossless delivery between the host and the iPad

The two implementations of the encrypted record layer, back to back.  A handshake leaves
them with each other's keys and headers (`Handshaken`); the raw channel in between is a
reliable FIFO: what one side writes arrives at the other, in whatever pieces.

Messages go through in both directions (`records_delivered`).  Each direction puts a
sender's wire together with a receiver's invariant: `sendAlls_wire` with `receiving_wire`
for what the host sends, `sends_wire` with `recvs_deliver` for what the iPad sends.
-/

namespace TetherDisplay.Client

open TetherDisplay.Core (ByteChannel arriving beyond)
open Crypto (Sodium SecureByteChannel ByteArr headerBytes aBytes kMaxFrame recordWire wire Fits
  wire_nil wire_cons)
open Protocol (kMaxPayload)

variable {S : Sodium}

/-- **What a handshake leaves behind**: on either side the channel that `MakeChannel` has
made of the session keys and that has taken in the other side's header. -/
structure Handshaken (host : SecureByteChannel S) (ipad : SecureTransport S) : Prop where
  fresh : host.Fresh
  channels : ∃ k₁ k₂ header header',
    (Crypto.SecureChannel.make k₁ k₂ header).initRx header'.toList = some host.channel ∧
      ∃ channel, (SecureChannel.make k₂ k₁ header').initRx header.toList = some channel ∧
        ipad.channel = some channel

/-- The streams of the two channels are in step, in both directions. -/
theorem Handshaken.inSync (hstream : S.StreamContract) {host : SecureByteChannel S}
    {ipad : SecureTransport S} (h : Handshaken host ipad) :
    ∃ channel push pull push' pull', ipad.channel = some channel ∧
      (host.channel.pushState = some push ∧ channel.pull = some pull ∧
        S.secretstream.InSync push pull) ∧
      (channel.push = push' ∧ host.channel.pullState = some pull' ∧
        S.secretstream.InSync push' pull') := by
  obtain ⟨-, k₁, k₂, header, header', hhost, channel, hipad, hchannel⟩ := h
  obtain ⟨pull, hpull, hsync⟩ := hstream.inSync k₁ header
  obtain ⟨pull', hpull', hsync'⟩ := hstream.inSync k₂ header'
  unfold Crypto.SecureChannel.initRx at hhost
  rw [dif_pos header'.toList_length] at hhost
  obtain ⟨pull₁, hinit, hhost⟩ := Option.map_eq_some_iff.mp hhost
  unfold SecureChannel.initRx at hipad
  rw [dif_pos header.toList_length] at hipad
  obtain ⟨pull₂, hinit', hipad⟩ := Option.map_eq_some_iff.mp hipad
  obtain rfl : pull' = pull₁ := Option.some.inj (hpull'.symm.trans hinit)
  obtain rfl : pull = pull₂ := Option.some.inj (hpull.symm.trans hinit')
  refine ⟨channel, _, pull, _, pull', hchannel, ⟨?_, ?_, hsync⟩, ?_, ?_, hsync'⟩
  · rw [← hhost]; rfl
  · rw [← hipad]
  · rw [← hipad]; rfl
  · rw [← hhost]

/-- **The iPad writes the wire of what it sends.** -/
theorem SecureTransport.sends_wire (hstream : S.StreamContract) {t : SecureTransport S}
    {channel : SecureChannel S} (hchannel : t.channel = some channel) {ds : List Bytes}
    (hfits : Fits ds) : (ds.foldl send t).sent = t.sent ++ wire channel.push ds := by
  induction ds generalizing t channel with
  | nil => rw [wire_nil, List.append_nil, List.foldl_nil]
  | cons d ds ih =>
      obtain ⟨hfit, hrest⟩ := List.forall_mem_cons.mp hfits
      have hbound : kMaxFrame = 17825792 := rfl
      have hshort : (S.secretstream.push channel.push d).1.length < 2 ^ 32 := by
        rw [hstream.length_push]
        norm_num
        omega
      have hsend : t.send d =
          { t with
            channel := some { channel with push := (S.secretstream.push channel.push d).2 }
            sent := t.sent ++ recordWire (S.secretstream.push channel.push d).1 } := by
        unfold send
        simp only [hchannel, SecureChannel.encrypt, sendFramed, recordWire]
        rw [Crypto.lengthHeader_eq, UInt32.toNat_ofNat_of_lt' hshort]
      rw [List.foldl_cons, ih (by rw [hsend]) hrest, hsend, wire_cons, List.append_assoc]

/-- A frame that `encode` produces fits into a record. -/
theorem length_encode_fits {m : Protocol.Message} (h : m.Encodable) :
    (Protocol.encode m).length ≤ 7 + kMaxPayload ∧
      (Protocol.encode m).length + aBytes ≤ kMaxFrame := by
  have hbody := Protocol.length_bodyBytes_le h
  have hlength : (Protocol.encode m).length ≤ 7 + kMaxPayload := by
    rw [Protocol.encode_eq_wire h, Protocol.RawFrame.length_wire]
    exact Nat.add_le_add_left hbody 7
  have hroom : 7 + kMaxPayload + aBytes ≤ kMaxFrame := by decide
  exact ⟨hlength, (Nat.add_le_add_right hlength aBytes).trans hroom⟩

/-- **Lossless ordered delivery, in both directions.**  After a handshake, and for any
messages that fit:

* what the host passes to `SendAll` is what the iPad's loop hands on, message by message,
  however the connection delivers it, its end included;
* what the iPad sends is what the host's `Recv` returns, however it arrives and whatever
  room `Recv` is given: never anything else, all of it in the end, and no close or error
  is reported before.

Every frame of the protocol fits. -/
theorem records_delivered (hstream : S.StreamContract) {host : SecureByteChannel S}
    {ipad : SecureTransport S} (h : Handshaken host ipad) {raw : ByteChannel}
    (hraw : host.raw = some raw) {ds : List Bytes} (hfits : Fits ds) :
    (raw.sends = [] → ∃ bytes,
      (∀ reply ∈ (host.acts (ds.map .sendAll)).1, reply = .sent true) ∧
        (host.acts (ds.map .sendAll)).2.raw.map ByteChannel.outbox =
          some (raw.outbox ++ bytes) ∧
        ∀ deliveries : List Delivery, (∀ d ∈ deliveries.dropLast, d.last = false) →
          ipad.buffer ++ deliveries.flatMap Delivery.data = bytes →
            (ipad.receiving deliveries).plaintexts = ds) ∧
    (∃ bytes, (ds.foldl SecureTransport.send ipad).sent = ipad.sent ++ bytes ∧
      (arriving raw.inbox = bytes → beyond raw.inbox = [] →
        ∀ rooms : List ℕ, (∀ room ∈ rooms, 0 < room) →
          (host.acts (rooms.map .recv)).1.flatMap SecureByteChannel.Reply.bytes <+:
              ds.flatten ∧
            (ds.flatten.length ≤ rooms.length →
              (host.acts (rooms.map .recv)).1.flatMap SecureByteChannel.Reply.bytes =
                ds.flatten) ∧
            ∀ before room later, rooms = before ++ room :: later →
              (host.acts (before.map .recv)).1.flatMap SecureByteChannel.Reply.bytes ≠
                  ds.flatten →
                0 < ((host.acts (before.map .recv)).2.recv room).1.count)) ∧
    ∀ m : Protocol.Message, m.Encodable → (Protocol.encode m).length ≤ 7 + kMaxPayload ∧
      (Protocol.encode m).length + aBytes ≤ kMaxFrame := by
  obtain ⟨channel, push, pull, push', pull', hchannel, ⟨hpush, hpull, hsync⟩, rfl, hpull',
    hsync'⟩ := h.inSync hstream
  obtain ⟨hleft, hbroken⟩ := h.fresh
  refine ⟨fun hsends => ⟨wire push ds, ?_⟩, ⟨wire channel.push ds, ?_, ?_⟩,
    fun m hm => length_encode_fits hm⟩
  · obtain ⟨hreplies, hout⟩ :=
      SecureByteChannel.sendAlls_wire hstream hraw hsends hbroken hpush hfits
    refine ⟨hreplies, hout, fun deliveries hlast hdelivered => ?_⟩
    have hcarries : ipad.Carries (deliveries.flatMap Delivery.data) ds :=
      ⟨channel, push, pull, hchannel, hpull, hsync, hfits, hdelivered⟩
    exact SecureTransport.receiving_wire hstream hlast hcarries
  · exact SecureTransport.sends_wire hstream hchannel hfits
  · intro harriving hbeyond rooms hrooms
    have hawaits : host.Awaits ds.flatten :=
      ⟨raw, channel.push, pull', ds, hraw, hbroken, hpull', hsync', hfits, harriving, hbeyond,
        (congrArg (· ++ ds.flatten) hleft).symm⟩
    exact SecureByteChannel.recvs_deliver hstream hawaits hrooms

/-- Three messages each way, one of them empty, every stream in two pieces. -/
theorem records_delivered_pieces :
    let k₁ := Sodium.arrOf 32 1
    let k₂ := Sodium.arrOf 32 2
    let header : ByteArr headerBytes := .replicate headerBytes 3
    let header' : ByteArr headerBytes := .replicate headerBytes 4
    let ds : List Bytes := [[1, 2, 3], [], [4]]
    let ipad : SecureTransport Sodium.paper :=
      { channel := some { SecureChannel.make k₂ k₁ header' with pull := some (k₁, header, 0) } }
    let upstream := (ds.foldl SecureTransport.send ipad).sent
    let host : SecureByteChannel Sodium.paper :=
      { raw := some { inbox := [.data (upstream.take 5), .data (upstream.drop 5)] }
        channel := { Crypto.SecureChannel.make k₁ k₂ header with
          pullState := some (k₂, header', 0) } }
    let downstream := ((host.acts (ds.map .sendAll)).2.raw.map ByteChannel.outbox).getD []
    (ipad.receiving [⟨downstream.take 9, false⟩, ⟨downstream.drop 9, true⟩]).plaintexts = ds ∧
      (host.acts ([2, 2, 2, 2].map .recv)).1.flatMap SecureByteChannel.Reply.bytes =
        [1, 2, 3, 4] := by
  intro k₁ k₂ header header' ds ipad upstream host downstream
  have hshaken : Handshaken host ipad :=
    ⟨⟨rfl, rfl⟩, k₁, k₂, header, header', rfl, _, rfl, rfl⟩
  have hfits : Fits ds := by decide
  obtain ⟨hdown, ⟨bytes, hsent, hup⟩, -⟩ :=
    records_delivered Sodium.paper_streamContract hshaken rfl hfits
  constructor
  · obtain ⟨bytes, -, hout, hdelivers⟩ := hdown rfl
    have hbytes : downstream = bytes := by
      show ((host.acts (ds.map .sendAll)).2.raw.map ByteChannel.outbox).getD [] = bytes
      rw [hout]
      rfl
    refine hdelivers _ (by decide) ?_
    rw [← hbytes]
    show [] ++ (downstream.take 9 ++ (downstream.drop 9 ++ [])) = downstream
    rw [List.nil_append, List.append_nil, List.take_append_drop]
  · have harriving : arriving [.data (upstream.take 5), .data (upstream.drop 5)] = bytes := by
      have hbytes : upstream = bytes := hsent
      rw [← hbytes]
      decide +kernel
    have hrooms : ∀ room ∈ [2, 2, 2, 2], 0 < room := by decide
    exact (hup harriving rfl [2, 2, 2, 2] hrooms).2.1 (by decide)

end TetherDisplay.Client
