import TetherDisplay.Streaming.Tether

/-!
# What every run of the two programs keeps

`Tether.Sound` puts the two directions of the cable together.

* `Carries`: the host's messages, in the order in which its threads have got the send mutex,
  are those that the iPad has dispatched, those that wait in its queue, and those that its
  transport still expects.  One record is one message, so the iPad's parser is empty whenever
  the main queue runs a plaintext (`process_frame`), and no frame is ever torn.
* `Heard`: what the host has received and what it will are the frames of what the iPad has sent.

The host keeps what it keeps on its own (`Hosted`); a send is refused only when the cable is
out, and from then on nothing more gets through.
-/

namespace TetherDisplay

open Crypto (Sodium SecureByteChannel recordLink scanRecord)
open LockedSender (Sender written)

variable {S : Sodium}

/-! ## The pieces -/

namespace Client

/-- A message that some thread of the host sends. -/
def FromHost (m : Protocol.Message) : Prop := ∃ t : Core.Thread, t.Speaks m

/-- It has no reason in it. -/
theorem FromHost.isUtf8 {M : Protocol.Message} (h : FromHost M) :
    (RawFrame.ofHost (Protocol.frameOf M)).ReasonIsUtf8 := by
  obtain ⟨t, ht⟩ := h
  intro hchannel htype
  cases M with
  | hello m => rcases htype with htype | htype <;> cases htype
  | welcome m => rcases htype with htype | htype <;> cases htype
  | pong m => rcases htype with htype | htype <;> cases htype
  | videoFrame m => cases hchannel
  | _ => cases t <;> exact ht.elim

/-- The client decodes the frame of the host's message to that message. -/
theorem decodeMessage_ofHost {M : Protocol.Message} (henc : M.Encodable) (hhost : FromHost M) :
    ∃ m : Message, decodeMessage (.ofHost (Protocol.frameOf M)) = .ok m ∧ m.toHost = M := by
  have hsame := decodeMessage_toHost (RawFrame.ofHost (Protocol.frameOf M))
  rw [RawFrame.toHost_ofHost, Protocol.decodeMessage_frameOf henc] at hsame
  cases hdecode : decodeMessage (RawFrame.ofHost (Protocol.frameOf M)) with
  | error e =>
      rw [hdecode] at hsame
      exact hsame.elim
  | ok m =>
      rw [hdecode] at hsame
      exact ⟨m, rfl, hsame hhost.isUtf8⟩

namespace VideoSession

/-- **A frame on its own.**  A session with nothing unread makes of the host's message one
dispatch, and has nothing unread again. -/
theorem process_frame {s : VideoSession} (hunread : s.parser.unread = []) {M : Protocol.Message}
    (henc : M.Encodable) (hhost : FromHost M) :
    ∃ m parser, m.toHost = M ∧ parser.unread = [] ∧
      s.process (Protocol.encode M) =
        ⟨[.message m], (s.handle m).1, { (s.handle m).2 with parser }⟩ := by
  obtain ⟨m, hdecode, hm⟩ := decodeMessage_ofHost henc hhost
  have hfed : (s.parser.feed (Protocol.encode M)).unread = Protocol.encode M := by
    have hfeed := frameReader.unread_feed s.parser (Protocol.encode M)
    rw [show frameReader.unread s.parser = [] from hunread, List.nil_append] at hfeed
    exact hfeed
  have hscan : frameGrammar.scan (s.parser.feed (Protocol.encode M)).unread =
      .item (.ofHost (Protocol.frameOf M)) (Protocol.encode M).length := by
    rw [hfed, Protocol.encode_eq_wire henc]
    show scanFrame _ = _
    rw [scanFrame, Protocol.scanFrame_item_iff.mpr
      ⟨Protocol.length_bodyBytes_le henc, rfl, [], (List.append_nil _).symm⟩]
  obtain ⟨hanswer, hdropped⟩ := frameReader.next_item (s := s.parser.feed (Protocol.encode M)) hscan
  have hempty : (s.parser.feed (Protocol.encode M)).next.2.unread = [] := by
    refine hdropped.trans ?_
    show (s.parser.feed (Protocol.encode M)).unread.drop _ = []
    rw [hfed, List.drop_length]
  have hfirst : (s.parser.feed (Protocol.encode M)).next =
      (.ok (some (.ofHost (Protocol.frameOf M))), (s.parser.feed (Protocol.encode M)).next.2) :=
    Prod.ext hanswer rfl
  generalize (s.parser.feed (Protocol.encode M)).next.2 = parser at hfirst hempty
  have hmore : frameGrammar.scan parser.unread = .more := by
    rw [hempty]
    rfl
  obtain ⟨hwaits, hkept⟩ := frameReader.next_more (s := parser) hmore
  have hleft : parser.next.2.unread = [] := hkept.trans hempty
  have hsecond : parser.next = (.ok none, parser.next.2) := Prod.ext hwaits rfl
  generalize parser.next.2 = parser' at hsecond hleft
  refine ⟨m, parser', hm, hleft, ?_⟩
  obtain ⟨n, hn⟩ : ∃ n, (s.parser.feed (Protocol.encode M)).unread.length = n + 1 := by
    refine ⟨(Protocol.encode M).length - 1, ?_⟩
    rw [hfed, Protocol.encode_eq_wire henc, Protocol.RawFrame.length_wire]
    omega
  have hhandle : handle { s with parser } m = ((s.handle m).1, { (s.handle m).2 with parser }) := by
    cases m <;> rfl
  rw [process_eq, hn, processLoop, hfirst]
  simp only [hdecode, hhandle]
  rw [processLoop, hsecond]
  simp only [List.append_nil]

end VideoSession

end Client

namespace Streaming

open TetherDisplay.Core (Session framed)
open TetherDisplay.Core.Session (Act)
open Client (VideoSession SecureTransport Dispatch Effect FromHost length_encode_fits)
open Protocol (encode)
open Encode (EncoderConfig)

/-- The host, whatever the cable does. -/
structure Hosted (push : S.secretstream.Push) (config : EncoderConfig)
    (host : Session (recordLink S)) : Prop where
  sound : host.Sound (L := recordLink S) push config
  numbered : host.Numbered config
  opened : host.Opened config
  encodable : host.sender.Every fun _ o => o.msg.Encodable
  followed : host.Followed

section

variable {push : S.secretstream.Push} {config : EncoderConfig} {host : Session (recordLink S)}

theorem hosted_start (push : S.secretstream.Push) (config : EncoderConfig) :
    Hosted push config (Session.start (L := recordLink S) push config) where
  sound := Session.sound_start (L := recordLink S) push config
  numbered := Session.numbered_start (L := recordLink S) push config
  opened := Session.opened_start (L := recordLink S) push config
  encodable := ⟨fun _ _ _ h => (by cases h), fun _ h => (by cases h), fun _ h => (by cases h)⟩
  followed := Session.followed_start (L := recordLink S) push config

/-- **One step of the host keeps it.** -/
theorem Hosted.step (h : Hosted push config host) {a : Act} (hfits : a.Fits) :
    Hosted push config (host.step a) where
  sound := h.sound.step a
  numbered := h.numbered.step h.sound a
  opened := h.opened.step h.sound a
  encodable := Session.encodable_step h.encodable hfits
  followed := h.followed.step h.sound a

/-- What a step does to what has been written and begun. -/
theorem Hosted.grows (h : Hosted push config host) (a : Act) :
    (∃ more, written (host.step a).sender.output = written host.sender.output ++ more) ∧
      ((host.step a).sender.begun = host.sender.begun ∨
        ∃ x, (host.step a).sender.begun = host.sender.begun ++ [x]) := by
  rcases h.sound.sender_step a with hsame | ⟨t, act, -, hstep⟩ | ⟨t, o, -, hhand⟩
  · rw [hsame]
    exact ⟨⟨[], (List.append_nil _).symm⟩, Or.inl rfl⟩
  · rw [hstep]
    refine ⟨host.sender.written_step t act, ?_⟩
    rcases host.sender.begun_step t act with hbegun | ⟨o, -, hbegun⟩
    · exact Or.inl hbegun
    · exact Or.inr ⟨_, hbegun⟩
  · rw [hhand]
    exact ⟨⟨[], (List.append_nil _).symm⟩, Or.inl rfl⟩

/-- What is begun is a message of some thread. -/
theorem Hosted.fromHost (h : Hosted push config host) {m : Protocol.Message}
    (hm : m ∈ host.sender.begun.map fun x => x.2.msg) : m.Encodable ∧ FromHost m := by
  obtain ⟨x, hx, rfl⟩ := List.mem_map.mp hm
  exact ⟨h.encodable.begun x hx, x.1, (h.sound.speaks.begun x hx).1⟩

end

/-- What the iPad's decoder gets of a message. -/
def bitstream? : Client.Message → Option Bytes
  | .videoFrame vf => some vf.bitstream
  | _ => none

namespace Tether

variable {push : S.secretstream.Push} {config : EncoderConfig} {s : Tether S}

/-- The messages of the host, in the order in which its threads have got the send mutex. -/
def said (s : Tether S) : List Protocol.Message := s.host.sender.begun.map fun x => x.2.msg

/-- **From the host to the iPad.**  Of the host's messages the iPad has dispatched `ms`; those in
`waiting` are in its queue; and all there is of the others, `rest`, is in its buffer, under way
or still to be written. -/
structure Carries (push : S.secretstream.Push) (s : Tether S) (ms : List Client.Message)
    (waiting rest : List Protocol.Message) : Prop where
  said : s.said = ms.map Client.Message.toHost ++ (waiting ++ rest)
  dispatched : s.dispatched = ms.map .message
  decoded : s.decoded = ms.filterMap bitstream?
  queue : s.queue = waiting.map encode
  unread : s.pad.parser.unread = []
  short : s.delivered ≤ (s.host.stream (L := recordLink S) push).length
  expects : s.transport.Expects ((s.host.stream (L := recordLink S) push).drop s.delivered)
    (rest.map encode) s.host.sender.link

variable {ms : List Client.Message} {waiting rest : List Protocol.Message}

/-- The host takes a step. -/
theorem Carries.host (hstream : S.StreamContract) (h : s.Carries push ms waiting rest)
    (hhosted : Hosted push config s.host) {a : Act} (hfits : a.Fits) :
    ∃ more, Carries push { s with host := s.host.step a } ms waiting (rest ++ more) := by
  have hnext := hhosted.step hfits
  rcases (hhosted.grows a).2 with hbegun | ⟨x, hbegun⟩
  · have hlink : (s.host.step a).sender.link = s.host.sender.link :=
      hhosted.sound.valid.link_eq hnext.sound.valid hbegun
    have hsame : (s.host.step a).stream (L := recordLink S) push =
        s.host.stream (L := recordLink S) push := by
      unfold Session.stream
      rw [hbegun]
    refine ⟨[], { h with said := ?_, short := ?_, expects := ?_ }⟩
    · rw [List.append_nil, ← h.said, Tether.said, Tether.said, hbegun]
    · rw [hsame]
      exact h.short
    · rw [hsame, hlink, List.append_nil]
      exact h.expects
  · have henc : x.2.msg.Encodable := hnext.encodable.begun x (by rw [hbegun]; simp)
    obtain ⟨hmore, hlink⟩ := hhosted.sound.valid.wires_concat hnext.sound.valid hbegun
    rw [Core.wire_recordLink hstream s.host.sender.link henc] at hmore hlink
    have hgrown : (s.host.step a).stream (L := recordLink S) push =
        s.host.stream (L := recordLink S) push ++ _ := hmore
    refine ⟨[x.2.msg], { h with said := ?_, short := ?_, expects := ?_ }⟩
    · rw [← List.append_assoc waiting, ← List.append_assoc, ← h.said]
      simp [Tether.said, hbegun]
    · rw [hgrown, List.length_append]
      exact Nat.le_add_right_of_le h.short
    · rw [hgrown, hlink, List.map_append, List.drop_append_of_le_length h.short]
      exact h.expects.sent (length_encode_fits henc).2

@[simp] theorem parser_looped (s : Tether S) (r : SecureTransport.Looped S) :
    (s.looped r).pad.parser = s.pad.parser := by
  unfold Tether.looped
  dsimp only
  split <;> rfl

/-- The receive loop hands on some of what is expected. -/
theorem Carries.looped {r : SecureTransport.Looped S} {delivered : ℕ}
    (h : s.Carries push ms waiting rest)
    (hshort : delivered ≤ (s.host.stream (L := recordLink S) push).length)
    (hloop : ∃ left, rest.map encode = r.plaintexts ++ left ∧ r.transport.Expects
      ((s.host.stream (L := recordLink S) push).drop delivered) left s.host.sender.link) :
    ∃ more left, Carries push (Tether.looped { s with delivered } r) ms (waiting ++ more) left := by
  obtain ⟨left, hsplit, hexpects⟩ := hloop
  obtain ⟨more, left, rfl, hmore, rfl⟩ := List.map_eq_append_iff.mp hsplit
  refine ⟨more, left, ?_, h.dispatched, h.decoded, ?_, ?_, hshort, hexpects⟩
  · rw [List.append_assoc waiting]
    exact h.said
  · show s.queue ++ r.plaintexts = (waiting ++ more).map encode
    rw [h.queue, List.map_append, hmore]
  · rw [parser_looped]
    exact h.unread

/-- **From the iPad to the host.**  What the host has received and what it will are the frames
of what the iPad has sent. -/
structure Heard (s : Tether S) : Prop where
  arrived_le : s.arrived ≤ s.transport.sent.length
  hears : ∃ rest channel, s.transport.channel = some channel ∧
    s.host.inbound ++ rest = s.sent.flatMap (fun m => encode m.toHost) ∧
    s.channel.Hears s.upstream rest channel.push

/-- What the iPad says when it is paired. -/
def greeting : List Client.Message :=
  [VideoSession.announcement, .keyframeRequest { reason := 0, lastGoodSeq := 0 }]

/-- Both directions. -/
structure Linked (push : S.secretstream.Push) (config : EncoderConfig) (s : Tether S) : Prop where
  hosted : Hosted push config s.host
  intact : s.connected = true →
    s.host.Successful (L := recordLink S) push config ∧ s.closed = false
  delivered_le : s.delivered ≤ (written s.host.sender.output).length
  carries : ∃ ms waiting rest, s.Carries push ms waiting rest
  transport : s.pad.transport = some 0
  heard : s.Heard

/-- **What holds in every run.** -/
structure Sound (push : S.secretstream.Push) (config : EncoderConfig) (s : Tether S) : Prop
    extends Linked push config s where
  waits : s.listening = true → s.closed = false → scanRecord s.transport.buffer = .more
  greeted : s.sent = if s.listening then greeting else []

/-! ### One step -/

/-- A step that leaves the sending side of the iPad and the host's channel as they are. -/
theorem Heard.of_same {s' : Tether S} (h : s.Heard) (hinbound : s'.host.inbound = s.host.inbound)
    (hchannel : s'.channel = s.channel) (harrived : s'.arrived = s.arrived)
    (hsent : s'.sent = s.sent) (hsending : s'.transport.sending = s.transport.sending) :
    s'.Heard := by
  obtain ⟨rest, channel, htransport, hframes, hhears⟩ := h.hears
  have hout : s'.transport.sent = s.transport.sent := congrArg Prod.snd hsending
  have hpush : s'.transport.channel.map Client.SecureChannel.push =
      s.transport.channel.map Client.SecureChannel.push := congrArg Prod.fst hsending
  rw [htransport] at hpush
  obtain ⟨channel', htransport', hsame⟩ := Option.map_eq_some_iff.mp hpush
  refine ⟨by rw [harrived, hout]; exact h.arrived_le, rest, channel', htransport', ?_, ?_⟩
  · rw [hinbound, hsent, hframes]
  · rw [hchannel, upstream, hout, harrived, hsame]
    exact hhears

/-- Only a `Recv` that returns data takes something in. -/
theorem inbound_step (host : Session (recordLink S)) {a : Act}
    (ha : ∀ r, a = .recv r → r.count ≤ 0) : (host.step a).inbound = host.inbound := by
  rcases host.step_cases a with hidle | hmove
  · rw [hidle]
  generalize host.step a = host' at hmove ⊢
  cases hmove with
  | recvData r hcontrol hcount hroom => exact absurd (ha r rfl) hcount
  | _ => rfl

/-- A step of the host, and what that does to the rest. -/
theorem Sound.stepHost (hstream : S.StreamContract) (h : s.Sound push config) {a : Act}
    (hsucceeds : s.connected = true → a.Succeeds) (hfits : a.Fits)
    {channel : SecureByteChannel S}
    (hheard : Heard { s with host := s.host.step a, channel }) :
    Sound push config { s with host := s.host.step a, channel } := by
  obtain ⟨ms, waiting, rest, hcarries⟩ := h.carries
  obtain ⟨more, hcarries'⟩ := hcarries.host hstream h.hosted hfits
  obtain ⟨bytes, hwritten⟩ := (h.hosted.grows a).1
  exact {
    hosted := h.hosted.step hfits
    intact := fun hcable => ⟨(h.intact hcable).1.step (hsucceeds hcable), (h.intact hcable).2⟩
    delivered_le := by
      show s.delivered ≤ (written (s.host.step a).sender.output).length
      rw [hwritten, List.length_append]
      exact Nat.le_add_right_of_le h.delivered_le
    carries := ⟨ms, waiting, rest ++ more, { hcarries' with }⟩
    waits := h.waits
    transport := h.transport
    greeted := h.greeted
    heard := hheard }

/-- The host's `Recv` returns something. -/
theorem Sound.receive (hstream : S.StreamContract) (h : s.Sound push config) {r : Core.Received}
    {channel : SecureByteChannel S} (hcontrol : s.host.control = .receiving)
    (hrecv : s.channel.recv (64 * 1024) = (r, channel))
    (hcount : 0 < r.count) :
    Sound push config { s with host := s.host.step (.recv r), channel } := by
  refine h.stepHost hstream (a := .recv r) (fun _ => trivial) trivial ?_
  obtain ⟨rest, pushing, htransport, hframes, hhears⟩ := h.heard.hears
  have hroom := s.channel.recv_room (64 * 1024)
  rw [hrecv] at hroom
  have hreceived : (s.host.step (.recv r)).inbound = s.host.inbound ++ r.bytes := by
    show (s.host.stepRecv r).inbound = _
    unfold Session.stepRecv
    rw [if_pos hcontrol, if_neg (Int.not_le.mpr hcount), if_pos hroom]
    simp [Session.inbound]
  have hsome : 0 < (s.channel.recv (64 * 1024)).1.count := by rwa [hrecv]
  obtain ⟨rest', hrest, hhears'⟩ := hhears.recv hstream hsome
  rw [hrecv] at hrest hhears'
  refine ⟨h.heard.arrived_le, rest', pushing, htransport, ?_, hhears'⟩
  show (s.host.step (.recv r)).inbound ++ rest' = _
  rw [hreceived, List.append_assoc, ← hrest, hframes]

/-- Bytes arrive at the host. -/
theorem Sound.arrive (h : s.Sound push config) {bytes later : Bytes}
    (hbytes : s.upstream = bytes ++ later) :
    Sound push config
      { s with channel := s.channel.arrive bytes, arrived := s.arrived + bytes.length } := by
  obtain ⟨ms, waiting, rest, hcarries⟩ := h.carries
  obtain ⟨left, channel, htransport, hframes, hhears⟩ := h.heard.hears
  have hlength := congrArg List.length hbytes
  rw [upstream, List.length_drop, List.length_append] at hlength
  have harrived := h.heard.arrived_le
  refine { h with
    carries := ⟨ms, waiting, rest, { hcarries with }⟩
    heard := ⟨?_, left, channel, htransport, hframes, ?_⟩ }
  · show s.arrived + bytes.length ≤ s.transport.sent.length
    omega
  · show (s.channel.arrive bytes).Hears (s.transport.sent.drop (s.arrived + bytes.length)) _ _
    rw [← List.drop_drop, show s.transport.sent.drop s.arrived = _ from hbytes, List.drop_left]
    rw [hbytes] at hhears
    exact hhears.arrive

/-- Bytes that are delivered are the front of what is still to come. -/
theorem Sound.delivers (h : s.Sound push config) (hcable : s.connected = true)
    {bytes later : Bytes} (hbytes : s.downstream = bytes ++ later) :
    s.delivered + bytes.length ≤ (written s.host.sender.output).length ∧
      s.delivered + bytes.length ≤ (s.host.stream (L := recordLink S) push).length ∧
      (s.host.stream (L := recordLink S) push).drop s.delivered =
        bytes ++ (s.host.stream (L := recordLink S) push).drop (s.delivered + bytes.length) := by
  obtain ⟨unwritten, hunwritten⟩ := (h.intact hcable).1.written.well.written_prefix.1
  have hall : s.host.stream (L := recordLink S) push =
      written s.host.sender.output ++ unwritten := hunwritten.symm
  have hlength := congrArg List.length hbytes
  rw [downstream, List.length_drop, List.length_append] at hlength
  have hdelivered := h.delivered_le
  have hwritten : s.delivered + bytes.length ≤ (written s.host.sender.output).length := by omega
  refine ⟨hwritten, ?_, ?_⟩
  · rw [hall, List.length_append]
    exact Nat.le_add_right_of_le hwritten
  · rw [hall, List.drop_append_of_le_length hdelivered,
      List.drop_append_of_le_length hwritten, ← List.drop_drop,
      show (written s.host.sender.output).drop s.delivered = _ from hbytes, List.drop_left,
      List.append_assoc]

/-- Bytes come to the iPad before it listens. -/
theorem Sound.buffered (h : s.Sound push config) (hcable : s.connected = true)
    (hlistening : s.listening = false) {bytes later : Bytes}
    (hbytes : s.downstream = bytes ++ later) :
    Sound push config
      { s with
        delivered := s.delivered + bytes.length
        transport := { s.transport with buffer := s.transport.buffer ++ bytes } } := by
  obtain ⟨ms, waiting, rest, hcarries⟩ := h.carries
  obtain ⟨hwritten, hshort, hfuture⟩ := h.delivers hcable hbytes
  have hexpects := hcarries.expects
  rw [hfuture] at hexpects
  exact { h with
    delivered_le := hwritten
    carries := ⟨ms, waiting, rest, { hcarries with
      short := hshort
      expects := hexpects.buffered }⟩
    waits := fun hlistens => by
      rw [show s.listening = true from hlistens] at hlistening
      cases hlistening
    heard := h.heard.of_same rfl rfl rfl rfl rfl }

/-- The receive loop comes to wait again. -/
theorem Linked.looped (h : s.Linked push config) (delivered : ℕ) {r : SecureTransport.Looped S}
    {ms : List Client.Message} {waiting rest : List Protocol.Message}
    (hcarries : s.Carries push ms waiting rest)
    (hwritten : delivered ≤ (written s.host.sender.output).length)
    (hshort : delivered ≤ (s.host.stream (L := recordLink S) push).length)
    (hclosed : s.connected = true → r.closed = false)
    (hsending : r.transport.sending = s.transport.sending)
    (hloop : ∃ left, rest.map encode = r.plaintexts ++ left ∧ r.transport.Expects
      ((s.host.stream (L := recordLink S) push).drop delivered) left s.host.sender.link) :
    Linked push config (Tether.looped { s with delivered } r) := by
  obtain ⟨more, left, hnext⟩ := hcarries.looped hshort hloop
  exact {
    hosted := h.hosted
    intact := fun hcable => ⟨(h.intact hcable).1, hclosed hcable⟩
    delivered_le := hwritten
    carries := ⟨ms, waiting ++ more, left, hnext⟩
    transport := by
      show (if r.closed then s.pad.closed else s.pad).transport = some 0
      split
      · exact h.transport
      · exact h.transport
    heard := h.heard.of_same rfl rfl rfl rfl hsending }

/-- Bytes come to the loop. -/
theorem Sound.deliver (hstream : S.StreamContract) (h : s.Sound push config)
    (hcable : s.connected = true) {bytes later : Bytes} (hbytes : s.downstream = bytes ++ later) :
    Sound push config (Tether.looped { s with delivered := s.delivered + bytes.length }
      (s.transport.onReceive ⟨bytes, false⟩)) := by
  obtain ⟨ms, waiting, rest, hcarries⟩ := h.carries
  obtain ⟨hwritten, hshort, hfuture⟩ := h.delivers hcable hbytes
  have hexpects := hcarries.expects
  rw [hfuture] at hexpects
  obtain ⟨hclosed, hmore, hloop⟩ := hexpects.onReceive hstream
  exact {
    toLinked := h.toLinked.looped _ hcarries hwritten hshort (fun _ => hclosed)
      (SecureTransport.onReceive_sending s.transport ⟨bytes, false⟩) hloop
    waits := fun _ _ => hmore
    greeted := h.greeted }

/-- The loop is told that the connection is gone, and has nothing to hand on. -/
theorem Sound.lost (h : s.Sound push config) (hcable : s.connected = false)
    (hlistening : s.listening = true) (hopen : s.closed = false) :
    Sound push config (s.looped (s.transport.onReceive ⟨[], true⟩)) := by
  obtain ⟨ms, waiting, rest, hcarries⟩ := h.carries
  have hmore := h.waits hlistening hopen
  have hextract := Client.extractFrame_scan s.transport.buffer
  rw [hmore] at hextract
  have hloop : s.transport.onReceive ⟨[], true⟩ = ⟨[], true, s.transport⟩ := by
    unfold SecureTransport.onReceive
    simp only [List.append_nil, hextract]
  rw [hloop]
  exact {
    toLinked := h.toLinked.looped s.delivered hcarries h.delivered_le
      hcarries.short (fun hstill => by rw [hcable] at hstill; cases hstill) rfl
      ⟨_, rfl, hcarries.expects⟩
    waits := fun _ hnot => by cases hnot
    greeted := h.greeted }

/-! ### The iPad's own doing -/

/-- The iPad sends a message. -/
theorem perform_send {msg : Client.Message} (henc : msg.toHost.Encodable)
    (conn : Client.ConnectionId) (s : Tether S) :
    s.perform (.send conn msg) = { s with
      transport := s.transport.send (encode msg.toHost), sent := s.sent ++ [msg] } := by
  unfold perform
  simp only [Client.encode_toHost msg (Protocol.length_bodyBytes_le henc)]

/-- The pad sends a message. -/
theorem Linked.send (hstream : S.StreamContract) (h : s.Linked push config)
    {msg : Client.Message} (henc : msg.toHost.Encodable) (conn : Client.ConnectionId) :
    (s.perform (.send conn msg)).Linked push config := by
  obtain ⟨ms, waiting, rest, hcarries⟩ := h.carries
  obtain ⟨left, channel, htransport, hframes, hhears⟩ := h.heard.hears
  have hfit := (length_encode_fits henc).2
  have hsend := SecureTransport.send_eq hstream htransport hfit
  rw [perform_send henc]
  refine { h with
    carries := ⟨ms, waiting, rest, { hcarries with expects := hcarries.expects.send _ }⟩
    heard := ⟨?_, left ++ encode msg.toHost, _, congrArg SecureTransport.channel hsend, ?_, ?_⟩ }
  · show s.arrived ≤ (s.transport.send (encode msg.toHost)).sent.length
    rw [hsend, List.length_append]
    exact Nat.le_add_right_of_le h.heard.arrived_le
  · rw [← List.append_assoc]
    show _ = (s.sent ++ [msg]).flatMap _
    rw [hframes, List.flatMap_append, List.flatMap_singleton]
  · show s.channel.Hears ((s.transport.send (encode msg.toHost)).sent.drop s.arrived) _ _
    rw [hsend, List.drop_append_of_le_length h.heard.arrived_le]
    exact hhears.sent hfit

/-- The pad sends several. -/
theorem Linked.sends (hstream : S.StreamContract) (h : s.Linked push config)
    {msgs : List Client.Message} (henc : ∀ msg ∈ msgs, msg.toHost.Encodable) :
    let t := msgs.foldl (fun t msg => t.perform (.send 0 msg)) s
    t.Linked push config ∧ t.sent = s.sent ++ msgs ∧ t.listening = s.listening := by
  induction msgs generalizing s with
  | nil => exact ⟨h, (List.append_nil _).symm, rfl⟩
  | cons msg msgs ih =>
      obtain ⟨hmsg, hmsgs⟩ := List.forall_mem_cons.mp henc
      obtain ⟨hlinked, hsent, hlistening⟩ := ih (h.send hstream hmsg 0) hmsgs
      refine ⟨hlinked, hsent.trans ?_, hlistening.trans ?_⟩
      · rw [perform_send hmsg, List.append_assoc]
        rfl
      · rw [perform_send hmsg]

/-- What the completion of `establish` asks for. -/
theorem foldl_established (htransport : s.pad.transport = some 0) (learnedPeer : Option Bytes)
    (t : Tether S) :
    (s.pad.established 0 .ok learnedPeer).1.foldl perform t =
      greeting.foldl (fun t msg => t.perform (.send 0 msg)) t := by
  cases learnedPeer with
  | none => simp [VideoSession.established, VideoSession.send, htransport, greeting]
  | some peer =>
      simp [VideoSession.established, VideoSession.send, htransport, greeting, perform]

/-- The completion of `establish` runs. -/
theorem Sound.paired (hstream : S.StreamContract) (h : s.Sound push config)
    (hlistening : s.listening = false) (learnedPeer : Option Bytes) :
    Sound push config (s.stepPaired learnedPeer) := by
  have hbegun : Linked push config
      { s with pad := (s.pad.established 0 .ok learnedPeer).2, listening := true } := by
    obtain ⟨ms, waiting, rest, hcarries⟩ := h.carries
    exact { h.toLinked with
      carries := ⟨ms, waiting, rest, { hcarries with }⟩
      heard := h.heard.of_same rfl rfl rfl rfl rfl }
  have hsent : ({ s with pad := (s.pad.established 0 .ok learnedPeer).2, listening := true } :
      Tether S).sent = [] := by
    show s.sent = []
    rw [h.greeted, hlistening]
    rfl
  have hlistens : ({ s with pad := (s.pad.established 0 .ok learnedPeer).2, listening := true } :
      Tether S).listening = true := rfl
  unfold stepPaired
  rw [if_neg (by rw [hlistening]; exact Bool.false_ne_true)]
  dsimp only
  rw [foldl_established h.transport]
  generalize ({ s with pad := (s.pad.established 0 .ok learnedPeer).2, listening := true } :
    Tether S) = t at hbegun hsent hlistens
  -- the two messages are sent, and then the loop takes what is in the buffer
  have hencodable : ∀ msg ∈ greeting, msg.toHost.Encodable := by decide
  obtain ⟨hgreeted, hsaid, hstill⟩ := hbegun.sends hstream hencodable
  rw [hsent, List.nil_append] at hsaid
  rw [hlistens] at hstill
  generalize greeting.foldl (fun t msg => t.perform (.send 0 msg)) t = u
    at hgreeted hsaid hstill
  obtain ⟨ms, waiting, rest, hcarries⟩ := hgreeted.carries
  obtain ⟨hclosed, hmore, hloop⟩ := hcarries.expects.receiveLoop hstream
  exact {
    toLinked := hgreeted.looped u.delivered hcarries hgreeted.delivered_le
      hcarries.short (fun _ => hclosed) (SecureTransport.receiveLoop_sending _ u.transport) hloop
    waits := fun _ _ => hmore
    greeted := by
      show u.sent = if u.listening then greeting else []
      rw [hsaid, hstill]
      rfl }

/-- What the iPad asks for on a message of the host's: to decode it, or nothing. -/
theorem handle_fromHost {m : Client.Message} (hhost : FromHost m.toHost) (v : VideoSession) :
    (v.handle m).1 = (bitstream? m).toList.map .decode ∧
      (v.handle m).2.transport = v.transport := by
  obtain ⟨t, ht⟩ := hhost
  cases m with
  | videoFrame vf | welcome w | hello hello | pong pong => exact ⟨rfl, rfl⟩
  | _ => cases t <;> exact ht.elim

/-- The main queue of the iPad runs a plaintext, the frame of the host's next message. -/
theorem Sound.process_eq (h : s.Sound push config) {data : Bytes} {queue : List Bytes}
    (hqueue : s.queue = data :: queue) : ∃ ms m waiting rest v,
      s.Carries push ms (m.toHost :: waiting) rest ∧ v.parser.unread = [] ∧
      v.transport = some 0 ∧ queue = waiting.map encode ∧
      s.stepProcess = { s with
        pad := v
        queue
        dispatched := s.dispatched ++ [.message m]
        decoded := s.decoded ++ (bitstream? m).toList } := by
  obtain ⟨ms, waiting, rest, hcarries⟩ := h.carries
  have hwaiting := hcarries.queue
  rw [hqueue] at hwaiting
  obtain ⟨M, waiting, rfl, rfl, rfl⟩ := List.map_eq_cons_iff.mp hwaiting.symm
  obtain ⟨henc, hhost⟩ := h.hosted.fromHost (m := M) (by
    show M ∈ s.said
    rw [hcarries.said]
    simp)
  obtain ⟨m, parser, rfl, hunread, hprocess⟩ :=
    VideoSession.process_frame hcarries.unread henc hhost
  obtain ⟨heffects, htransport⟩ := handle_fromHost hhost s.pad
  have hperform : ∀ t : Tether S, ((bitstream? m).toList.map Effect.decode).foldl perform t =
      { t with decoded := t.decoded ++ (bitstream? m).toList } := by
    intro t
    cases bitstream? m with
    | none => simp
    | some bitstream => rfl
  refine ⟨ms, m, waiting, rest, { (s.pad.handle m).2 with parser }, hcarries, hunread,
    htransport.trans h.transport, rfl, ?_⟩
  unfold stepProcess
  rw [hqueue]
  dsimp only
  rw [hprocess, heffects, hperform]

/-- The pad's session takes a plaintext. -/
theorem Sound.process (h : s.Sound push config) {data : Bytes} {queue : List Bytes}
    (hqueue : s.queue = data :: queue) : Sound push config s.stepProcess := by
  obtain ⟨ms, m, waiting, rest, v, hcarries, hunread, htransport, rfl, hprocess⟩ :=
    h.process_eq hqueue
  rw [hprocess]
  exact {
    hosted := h.hosted
    intact := h.intact
    delivered_le := h.delivered_le
    carries := by
      refine ⟨ms ++ [m], waiting, rest, ?_, ?_, ?_, rfl, hunread, hcarries.short,
        hcarries.expects⟩
      · rw [List.map_append, List.append_assoc]
        exact hcarries.said
      · rw [List.map_append]
        exact congrArg (· ++ [Dispatch.message m]) hcarries.dispatched
      · rw [List.filterMap_append]
        show s.decoded ++ _ = _
        rw [hcarries.decoded]
        cases hbits : bitstream? m with
        | none => simp [hbits]
        | some bitstream => simp [hbits]
    transport := htransport
    heard := h.heard.of_same rfl rfl rfl rfl rfl
    waits := h.waits
    greeted := h.greeted }

/-! ### Every run -/

/-- The encoder's packets fit into a frame. -/
def Step.Fits : Step → Prop
  | .host a => a.Fits
  | _ => True

instance : DecidablePred Step.Fits
  | .host a => inferInstanceAs (Decidable a.Fits)
  | .receive | .dropped | .arrive _ | .paired _ | .deliver _ | .lost | .process | .cut =>
      isTrue trivial

/-- **What one step keeps.** -/
theorem Sound.step (hstream : S.StreamContract) (h : s.Sound push config) {act : Step}
    (hfits : act.Fits) : Sound push config (s.step act) := by
  rcases s.step_cases act with hidle | hmove
  · rwa [hidle]
  generalize s.step act = s' at hmove ⊢
  cases hmove with
  | host a hcable hrecv =>
      refine h.stepHost hstream hcable hfits (h.heard.of_same ?_ rfl rfl rfl rfl)
      exact inbound_step s.host fun r ha => absurd ha (hrecv r)
  | receive r channel hcontrol hrecv hcount => exact h.receive hstream hcontrol hrecv hcount
  | dropped hcable =>
      refine h.stepHost hstream (a := .recv .closed) (fun _ => trivial) trivial
        (h.heard.of_same ?_ rfl rfl rfl rfl)
      refine inbound_step s.host fun r ha => ?_
      cases ha
      exact le_rfl
  | arrive n bytes later hcable hbytes => exact h.arrive hbytes
  | paired learnedPeer hlistening => exact h.paired hstream hlistening learnedPeer
  | buffered n bytes later hcable hlistening hbytes => exact h.buffered hcable hlistening hbytes
  | deliver n bytes later hcable hlistening hbytes => exact h.deliver hstream hcable hbytes
  | lost hcable hlistening hopen => exact h.lost hcable hlistening hopen
  | process data queue hqueue => exact h.process hqueue
  | cut =>
      obtain ⟨ms, waiting, rest, hcarries⟩ := h.carries
      exact { h with
        intact := fun hcable => by cases hcable
        carries := ⟨ms, waiting, rest, { hcarries with }⟩
        heard := h.heard.of_same rfl rfl rfl rfl rfl }

end Tether

end Streaming

end TetherDisplay
