import TetherDisplay.Streaming.Invariant
import TetherDisplay.Client.HonestPairing

/-!
# Streaming end to end

What a user of the two programs relies on, for every order of steps of the host's threads, the
cable and the iPad, from the end of a handshake on, until the cable is pulled and after it.

* `host_to_pad`: the iPad dispatches the host's messages, in their order and none twice, and
  hands its decoder the packets of the encoder; all of them, once everything has got through.
* `pad_to_host`: the host acts on the iPad's greeting and on nothing else: one keyframe is
  forced, and neither side is ever asked to stop.
* `link_stays_up`: so a session ends only by `Stop`, by a pulled cable, or by a capture source
  or an encoder that does not start.

`Ready.of_paired` is the connection to the handshake: an honest pairing leaves the two
channels where these runs begin.
-/

namespace TetherDisplay

open Crypto (Sodium SecureByteChannel recordLink scanRecord)
open LockedSender (Sender itemsBy written)

variable {S : Sodium}

namespace Core

open Protocol (Message frameGrammar encode)

/-! ## The reference of a stream that has not ended -/

/-- What is handled up to a stop stays the beginning of what is. -/
theorem cut_prefix (front back : List ControlEffect) : cut front <+: cut (front ++ back) := by
  induction front with
  | nil => exact List.nil_prefix
  | cons e front ih =>
      cases e with
      | stop => exact List.prefix_refl _
      | forceIdr => exact (List.prefix_cons_inj _).mpr ih
      | pong token => exact (List.prefix_cons_inj _).mpr ih

theorem stop_mem_cut {effects : List ControlEffect} (h : .stop ∈ effects) :
    .stop ∈ cut effects := by
  induction effects with
  | nil => cases h
  | cons e effects ih =>
      cases e with
      | stop => exact List.mem_singleton_self _
      | forceIdr | pong =>
          refine List.mem_cons_of_mem _ (ih ?_)
          simpa using h

/-- The front of a stream without a fault has none. -/
theorem fault_front {s t : Bytes} (h : (frameGrammar.parse (s ++ t)).fault = none) :
    (frameGrammar.parse s).fault = none := by
  cases hfault : (frameGrammar.parse s).fault with
  | none => rfl
  | some e =>
      rw [Framing.Grammar.fault_append hfault t] at h
      cases h

/-- What is to be done about the front of a stream comes first. -/
theorem reference_prefix {s t : Bytes} (h : (frameGrammar.parse (s ++ t)).fault = none) :
    reference s <+: reference (s ++ t) := by
  have hfront := fault_front h
  unfold reference
  simp only [h, hfront, Option.isSome_none, Bool.false_eq_true, if_false, List.append_nil]
  rw [Framing.Grammar.parse_append, List.flatMap_append]
  exact cut_prefix _ _

/-- What is to be done about whole messages. -/
theorem reference_messages {ms : List Message} (henc : ∀ m ∈ ms, m.Encodable) :
    (frameGrammar.parse (ms.flatMap encode)).fault = none ∧
      reference (ms.flatMap encode) =
        cut (ms.flatMap fun m => (handleControlMessage m).effects) := by
  have hnone : Protocol.scanFrame [] = .more := Protocol.scanFrame_short (by decide)
  have hparse := Protocol.parse_messages henc hnone
  rw [List.append_nil] at hparse
  unfold reference
  rw [hparse]
  refine ⟨rfl, ?_⟩
  simp only [Option.isSome_none, Bool.false_eq_true, if_false, List.append_nil, List.flatMap_map]
  congr 1
  refine List.flatMap_congr fun m hm => ?_
  rw [frameEffects, Protocol.decodeMessage_frameOf (henc m hm)]

namespace Session

variable {L : LockedSender.Wiring Bytes UInt8} {link : L.State} {config : Encode.EncoderConfig}
  {s : Session L}

/-- A control loop that waits for more has read all that it has. -/
structure Drained (s : Session L) : Prop where
  waits : s.control = .receiving ∨ s.control = .outer ∧ s.running = true →
    Protocol.scanFrame s.parser.unread = .more
  fresh : s.control = .notStarted → s.parser.unread = []

theorem drained_start (link : L.State) (config : Encode.EncoderConfig) :
    Drained (start link config) where
  waits h := by rcases h with h | ⟨h, -⟩ <;> cases h
  fresh _ := rfl

/-- The loop is somewhere inside. -/
theorem Drained.inside {s' : Session L} (h : s'.control ≠ .receiving ∧ s'.control ≠ .notStarted)
    (hout : s'.control ≠ .outer ∨ s'.running = false) : Drained s' where
  waits hcontrol := by
    rcases hcontrol with hcontrol | ⟨hcontrol, hrunning⟩
    · exact absurd hcontrol h.1
    · rcases hout with hout | hout
      · exact absurd hcontrol hout
      · rw [hout] at hrunning
        cases hrunning
  fresh hcontrol := absurd hcontrol h.2

/-- **One step keeps it.** -/
theorem Drained.step (hsound : s.Sound link config) (h : s.Drained) (act : Act) :
    (s.step act).Drained := by
  rcases s.step_cases act with hidle | hmove
  · rwa [hidle]
  generalize s.step act = s' at hmove ⊢
  -- a session that is stopped is at its loop no more than before
  have hcleared : ∀ running : Bool, (running = true → s.running = true) →
      Drained { s with running } := fun running hrunning =>
    { waits := fun hcontrol => h.waits (hcontrol.imp id fun hout => ⟨hout.1, hrunning hout.2⟩)
      fresh := h.fresh }
  cases hmove with
  | send t a => exact { hcleared (s.stepSend t a).running running_of_stepSend with }
  | runCalled b hrun =>
      have hwaits := hsound.controlWaits (by rw [hrun]; trivial)
      refine ⟨fun hcontrol => ?_, h.fresh⟩
      rcases hcontrol with hcontrol | ⟨hcontrol, -⟩
      · cases hwaits.symm.trans hcontrol
      · cases hwaits.symm.trans hcontrol
  | startControl b hrun hidle =>
      have hwaits := hsound.controlWaits (by rw [hrun]; trivial)
      refine ⟨fun _ => ?_, fun hcontrol => by cases hcontrol⟩
      rw [h.fresh hwaits]
      exact Protocol.scanFrame_short (by decide)
  | startFailed b hrun => exact { hcleared false (fun hoff => by cases hoff) with }
  | initializeFailed b hcapture => exact { hcleared false (fun hoff => by cases hoff) with }
  | stopCalled hstop => exact { hcleared false (fun hoff => by cases hoff) with }
  | outerOn hcontrol hrunning =>
      exact ⟨fun _ => h.waits (Or.inr ⟨hcontrol, hrunning⟩), fun hc => by cases hc⟩
  | drained parser hcontrol hnext =>
      obtain ⟨hunread, hscan⟩ := Protocol.FrameParser.scan_of_next_none hnext
      have hmore := hscan.resolve_right fun hhard => hhard.1 rfl
      exact ⟨fun _ => by rw [hunread]; exact hmore.2, fun hc => by cases hc⟩
  | outerOff | ended | innerOn | faulted | skipped | decoded | setIdr | keepIdr | reply | noReply
  | goOn | recvEnd | recvData => exact .inside (by simp) (Or.inl (by simp))
  | innerOff hcontrol hrunning => exact .inside (by simp) (Or.inr hrunning)
  | corrupt | disconnect => exact .inside (by simp) (Or.inr rfl)
  | _ => exact { h with }

/-- A session that nothing has ended. -/
structure Lively (s : Session L) : Prop where
  running : s.run ≠ .notCalled → s.running = true
  run : s.run.BeforeCapture ∨ s.run = .starting ∨ s.run = .waiting
  control : s.control ≠ .ended ∧ s.control ≠ .exited ∧ s.control ≠ .corrupt
  capture : s.capture ≠ .initializeFailed

theorem lively_start (link : L.State) (config : Encode.EncoderConfig) :
    Lively (start link config) where
  running h := absurd rfl h
  run := Or.inl trivial
  control := by simp [start]
  capture := by simp [start]

/-- The control loop goes on. -/
theorem Lively.controlMove (h : s.Lively) {q : ControlPoint}
    (hq : q ≠ .ended ∧ q ≠ .exited ∧ q ≠ .corrupt) : Lively { s with control := q } :=
  { h with control := hq }

/-- The capture thread goes on. -/
theorem Lively.captureMove (h : s.Lively) {q : CapturePoint} (hq : q ≠ .initializeFailed) :
    Lively { s with capture := q } :=
  { h with capture := hq }

/-- `Run` goes on. -/
theorem Lively.runMove (h : s.Lively) (hcalled : s.run ≠ .notCalled) {q : RunPoint}
    (hq : q.BeforeCapture ∨ q = .starting ∨ q = .waiting) : Lively { s with run := q } :=
  { h with running := fun _ => h.running hcalled, run := hq }

/-- `Run` is not at a point behind the loop in which it waits. -/
theorem Lively.not_at (h : s.Lively) {p : RunPoint} (hrun : s.run = p)
    (hp : ¬ (p.BeforeCapture ∨ p = .starting ∨ p = .waiting)) : False := by
  subst hrun
  exact hp h.run

/-- **One step**, in which a send is not refused, `Stop` is not called, the capture source and
the encoder start, and the control loop is told neither an end of the stream nor to stop. -/
theorem Lively.step (hsuccessful : s.Successful link config) (h : s.Lively) {act : Act}
    (hquiet : s.Undisturbed act) (hdata : ∀ r, act = .recv r → 0 < r.count)
    (hgoes : ∀ a, s.control = .finishing a → a.disconnect = false)
    (hsane : (s.step act).control ≠ .corrupt) : (s.step act).Lively := by
  have hsound := hsuccessful.written.sound
  rcases s.step_cases act with hidle | hmove
  · rwa [hidle]
  generalize s.step act = s' at hmove hsane ⊢
  -- where the loop is at work the session runs
  have hon : ∀ {p : ControlPoint}, s.control = p → p ≠ .notStarted → s.running = true :=
    fun hcontrol hp => h.running (hsound.called hcontrol hp)
  cases hmove with
  | send t a =>
      refine { h with running := fun hcalled => ?_ }
      exact stepSend_running.mpr
        ⟨h.running hcalled, fun hack => hsuccessful.unrefused t hack.2⟩
  | runCalled b hrun => exact { h with running := fun _ => rfl, run := Or.inl trivial }
  | sayHello b hrun hidle =>
      exact { h.runMove (q := .sendWelcome) (by rw [hrun]; decide) (Or.inl trivial) with }
  | sayWelcome b hrun hidle =>
      exact { h.runMove (q := .startControl) (by rw [hrun]; decide) (Or.inl trivial) with }
  | startControl b hrun hidle =>
      exact (h.controlMove (q := .outer) (by decide)).runMove (q := .startCapture)
        (by rw [hrun]; decide) (Or.inl trivial)
  | startCapture b hrun hidle =>
      exact { h.runMove (q := .starting) (by rw [hrun]; decide) (Or.inr (Or.inl rfl)) with }
  | started hrun => exact h.runMove (by rw [hrun]; decide) (Or.inr (Or.inr rfl))
  | startRefused hrun hcapture => exact absurd (hquiet.2 hrun) Bool.false_ne_true
  | startFailed b hrun => exact (h.not_at hrun (by simp [RunPoint.BeforeCapture,
      RunPoint.BeforeControl])).elim
  | leaveLoop b hrun hrunning =>
      rw [h.running (by rw [hrun]; decide)] at hrunning
      cases hrunning
  | stopCapture b hrun hcapture => exact (h.not_at hrun (by simp [RunPoint.BeforeCapture,
      RunPoint.BeforeControl])).elim
  | shutdownEncoder b hrun => exact (h.not_at hrun (by simp [RunPoint.BeforeCapture,
      RunPoint.BeforeControl])).elim
  | joined b hrun hcontrol => exact (h.not_at hrun (by simp [RunPoint.BeforeCapture,
      RunPoint.BeforeControl])).elim
  | deliver f hcapturing hcapture => exact { h.captureMove (q := .entered f) (by simp) with }
  | turnedAway b f hcapture hrunning => exact h.captureMove (by simp)
  | prepared b f hcapture hrunning hready => exact h.captureMove (by simp)
  | setUp b f hcapture hrunning hready =>
      exact { h.captureMove (q := .initializing f) (by simp) with }
  | initialized f hcapture => exact { h.captureMove (q := .ready f) (by simp) with }
  | initializeRefused f hcapture =>
      exact absurd (hquiet.2 (by rw [hcapture]; rfl)) Bool.false_ne_true
  | initializeFailed b hcapture => exact absurd hcapture h.capture
  | exchange b f hcapture =>
      exact { h.captureMove (q := .encoding f s.forceIdr 0) (by simp) with }
  | packet p f idr n hcapture hidle =>
      exact { h.captureMove (q := .encoding f idr (n + 1)) (by simp) with }
  | encoded f idr n hcapture hidle => exact h.captureMove (by simp)
  | outerOn hcontrol hrunning => exact h.controlMove (by decide)
  | outerOff hcontrol hrunning =>
      rw [hon hcontrol (by decide)] at hrunning
      cases hrunning
  | ended hcontrol => exact absurd hcontrol h.control.1
  | innerOn hcontrol hrunning => exact h.controlMove (by decide)
  | innerOff hcontrol hrunning => exact h.controlMove (by decide)
  | drained parser hcontrol hnext => exact { h.controlMove (q := .outer) (by decide) with }
  | faulted e parser hcontrol hhard hnext => exact absurd rfl hsane
  | skipped raw e derr parser hcontrol hnext hdecode =>
      exact { h.controlMove (q := .inner) (by decide) with }
  | decoded raw e msg parser hcontrol hnext hdecode =>
      exact { h.controlMove (q := .acting (handleControlMessage msg)) (by simp) with }
  | corrupt hcontrol => exact absurd hcontrol h.control.2.2
  | setIdr a hcontrol hidr => exact { h.controlMove (q := .replying a) (by simp) with }
  | keepIdr a hcontrol hidr => exact h.controlMove (by simp)
  | reply a hcontrol hpong => exact { h.controlMove (q := .finishing a) (by simp) with }
  | noReply a hcontrol hpong => exact h.controlMove (by simp)
  | disconnect a hcontrol hidle hstop =>
      rw [hgoes a hcontrol] at hstop
      cases hstop
  | goOn a hcontrol hidle hstop => exact h.controlMove (by simp)
  | recvEnd r hcontrol hcount => exact absurd (hdata r rfl) (Int.not_lt.mpr hcount)
  | recvData r hcontrol hcount hroom => exact { h.controlMove (q := .inner) (by decide) with }
  | stopCalled hstop => exact hquiet.2.elim
  | stopCloses hstop => exact hquiet.2.elim

end Session

end Core

namespace Streaming

open TetherDisplay.Core (Session ControlEffect openingHello openingWelcome reference)
open Client (Dispatch SecureTransport Handshaken)
open Protocol (encode)
open Encode (EncoderConfig)

/-- Two channels that a handshake has left, with nothing sent yet. -/
structure Ready (channel : SecureByteChannel S) (transport : SecureTransport S)
    (push : S.secretstream.Push) : Prop where
  shaken : Handshaken channel transport
  push_eq : channel.channel.pushState = some push
  raw : ∃ raw, channel.raw = some raw ∧ Core.arriving raw.inbox = []
  buffer : transport.buffer = []

/-- **An honest pairing leaves the two channels ready.** -/
theorem Ready.of_paired {σ : Type} {m : Client.Meeting S σ} {inbox : List Core.Received}
    {h : Client.Handshake S} (hpaired : m.Paired inbox h) :
    ∃ push, Ready (m.establish inbox).self h.transport push := by
  obtain ⟨keys, pull, pull', -, -, hinit, hinit', hchannel, hpad⟩ := hpaired.channels
  obtain ⟨raw, peerHeader, channel, -, hself⟩ :=
    (SecureByteChannel.establish_carries hpaired.host).1
  have hraw : (m.establish inbox).self.raw = some raw := congrArg SecureByteChannel.raw hself
  have hrest := hpaired.hostRest
  rw [hraw] at hrest
  refine ⟨_, ⟨?_, keys.tx, keys.rx, m.hostHeader, m.padHeader, ?_, _, ?_, hpad⟩,
    congrArg Crypto.SecureChannel.pushState hchannel, ⟨raw, hraw, Option.some.inj hrest⟩,
    hpaired.padRest⟩
  · rw [show (m.establish inbox).self = _ from hself]
    exact ⟨rfl, rfl⟩
  · rw [hchannel]
    unfold Crypto.SecureChannel.initRx
    rw [dif_pos m.padHeader.toList_length]
    show (S.initPull m.padHeader keys.rx).map _ = _
    rw [hinit]
    rfl
  · unfold Client.SecureChannel.initRx
    rw [dif_pos m.hostHeader.toList_length]
    show (S.initPull m.hostHeader keys.tx).map _ = _
    rw [hinit']
    rfl

namespace Tether

variable {push : S.secretstream.Push} {config : EncoderConfig} {s : Tether S}

/-- It holds of two that have paired. -/
theorem sound_start (hstream : S.StreamContract) {channel : SecureByteChannel S}
    {transport : SecureTransport S} (h : Ready channel transport push) (config : EncoderConfig) :
    Sound push config (start channel transport push config) := by
  obtain ⟨pad, push₁, pull, push₂, pull', hpad, ⟨hpush, hpull, hsync⟩, rfl, hpull', hsync'⟩ :=
    h.shaken.inSync hstream
  obtain rfl : push = push₁ := Option.some.inj (h.push_eq.symm.trans hpush)
  obtain ⟨raw, hraw, harriving⟩ := h.raw
  exact {
    hosted := hosted_start push config
    intact := fun _ => ⟨Session.successful_start (L := recordLink S) push config, rfl⟩
    delivered_le := le_rfl
    carries := ⟨[], [], [], rfl, rfl, rfl, rfl, rfl, le_rfl,
      SecureTransport.Expects.start h.buffer hpad hpull hsync⟩
    waits := fun hlistens => by cases hlistens
    transport := rfl
    greeted := rfl
    heard := by
      refine ⟨le_rfl, [], pad, hpad, rfl, ?_⟩
      rw [upstream, start, List.drop_length]
      exact SecureByteChannel.Hears.start h.shaken.fresh hraw harriving hpull' hsync' }

/-- The state after a run. -/
def after (channel : SecureByteChannel S) (transport : SecureTransport S)
    (push : S.secretstream.Push) (config : EncoderConfig) (acts : List Step) : Tether S :=
  Runs.exec step (start channel transport push config) acts

/-- **What holds in every run** in which the packets fit. -/
theorem sound_after (hstream : S.StreamContract) {channel : SecureByteChannel S}
    {transport : SecureTransport S} (h : Ready channel transport push) (config : EncoderConfig)
    {acts : List Step} (hfits : ∀ act ∈ acts, act.Fits) :
    Sound push config (after channel transport push config acts) :=
  Runs.exec_invariant (fun _ _ h hfits => h.step hstream hfits) (sound_start hstream h config)
    (Runs.admits_of_forall fun act hact _ => hfits act hact)

/-! ## What the iPad gets -/

/-- What the iPad makes of the host's stream. -/
structure Streamed (config : EncoderConfig) (s : Tether S) (ms : List Client.Message) : Prop where
  /-- Messages are all it finds there: no frame is bad, and no message. -/
  dispatched : s.dispatched = ms.map .message
  inOrder : ms.map Client.Message.toHost <+: s.said
  opening : ms.map Client.Message.toHost <+: [openingHello config, openingWelcome config] ∨
    ∃ later, ms.map Client.Message.toHost =
        openingHello config :: openingWelcome config :: later ∧
      ∀ m ∈ later, (∃ vf, m = .videoFrame vf) ∨ ∃ pong, m = .pong pong
  /-- The decoder is given what the encoder has emitted, packet by packet. -/
  decoded : s.decoded <+: s.host.emitted.map fun e => e.packet.data
  /-- When everything has got through, that is all that the host has sent. -/
  complete : s.listening = true → s.connected = true → s.host.sender.mutex = none →
    s.downstream = [] → s.queue = [] →
      ms.map Client.Message.toHost = s.host.sender.sent.map fun x => x.2.msg

/-- The decoder's part of a message is the bitstream of the host's VIDEO_FRAME. -/
theorem bitstreams_eq (ms : List Client.Message) : ms.filterMap bitstream? =
    ((ms.map Client.Message.toHost).filterMap Core.videoFrame?).map fun vf => vf.bitstream := by
  induction ms with
  | nil => rfl
  | cons m ms ih =>
      cases m with
      | videoFrame vf => exact congrArg (vf.bitstream :: ·) ih
      | _ => exact ih

/-- The bitstreams are what the encoder has emitted. -/
theorem bitstreams_emitted (codec : Encode.Codec) (emitted : List Core.Emission) :
    (emitted.mapIdx (Core.videoOf codec)).map (fun vf => vf.bitstream) =
      emitted.map fun e => e.packet.data := by
  induction emitted using List.reverseRecOn with
  | nil => rfl
  | append_singleton emitted e ih =>
      rw [List.mapIdx_concat, List.map_append, ih, List.map_append]
      rfl

/-- The capture thread comes to `Send` with the packets. -/
theorem bitstreams_handed {host : Session (recordLink S)} (h : Hosted push config host) :
    ((((itemsBy .capture host.sender.handed).map Core.Outgoing.msg).filterMap
      Core.videoFrame?).map fun vf => vf.bitstream) = host.emitted.map fun e => e.packet.data := by
  have hsome : (Core.videoFrame? ∘ Protocol.Message.videoFrame) = some := rfl
  rw [h.numbered.frames, List.filterMap_map, hsome, List.filterMap_some, bitstreams_emitted]

/-- When everything has got through, the iPad has dispatched all that the host has begun. -/
theorem Sound.through (hstream : S.StreamContract) (h : s.Sound push config)
    {ms : List Client.Message} {waiting rest : List Protocol.Message}
    (hcarries : s.Carries push ms waiting rest) (hlistening : s.listening = true)
    (hcable : s.connected = true) (hfree : s.host.sender.mutex = none)
    (hdownstream : s.downstream = []) (hqueue : s.queue = []) :
    ms.map Client.Message.toHost = s.said ∧
      s.host.sender.begun.map Prod.snd = s.host.sender.sent.map Prod.snd := by
  obtain ⟨hsuccessful, hopen⟩ := h.intact hcable
  -- nothing is still to be written, and nothing under way
  obtain ⟨hwritten, hsent⟩ := hsuccessful.intact.free hfree
  have hbegun : s.host.sender.complete = s.host.sender.begun.map Prod.snd := by
    unfold Sender.complete Sender.inside
    rw [hfree]
    rfl
  have hstream' : s.host.stream (L := recordLink S) push = written s.host.sender.output := by
    rw [hwritten, hbegun]
    rfl
  have hexpects := hcarries.expects
  rw [hstream', show (written s.host.sender.output).drop s.delivered = [] from hdownstream]
    at hexpects
  have hrest := hexpects.done hstream (h.waits hlistening hopen)
  have hwaiting := hcarries.queue
  rw [hqueue] at hwaiting
  have hsaid := hcarries.said
  rw [List.map_eq_nil_iff.mp hrest, List.map_eq_nil_iff.mp hwaiting.symm, List.append_nil,
    List.append_nil] at hsaid
  exact ⟨hsaid.symm, hbegun.symm.trans hsent⟩

/-- The pad has been told of what the host has sent, in order. -/
theorem Sound.streamed (hstream : S.StreamContract) (h : s.Sound push config) :
    ∃ ms, s.Streamed config ms := by
  obtain ⟨ms, waiting, rest, hcarries⟩ := h.carries
  have hprefix : ms.map Client.Message.toHost <+: s.said := by
    rw [hcarries.said]
    exact List.prefix_append _ _
  refine ⟨ms, hcarries.dispatched, hprefix,
    Session.opening_of_prefix hprefix (h.hosted.opened.begun_opening h.hosted.sound), ?_, ?_⟩
  · -- what the capture thread sends is numbered as it is emitted
    have hvideo := hprefix.filterMap Core.videoFrame?
    unfold said at hvideo
    rw [Session.filterMap_video fun x hx => (h.hosted.sound.speaks.begun x hx).1] at hvideo
    have hhanded := ((h.hosted.sound.valid.begun_prefix .capture).map
      Core.Outgoing.msg).filterMap Core.videoFrame?
    rw [hcarries.decoded, bitstreams_eq, ← bitstreams_handed h.hosted]
    exact (hvideo.trans hhanded).map _
  · intro hlistening hcable hfree hdownstream hqueue
    obtain ⟨hsaid, hsent⟩ := h.through hstream hcarries hlistening hcable hfree hdownstream hqueue
    rw [hsaid, said, ← Function.comp_def, ← List.map_map, hsent, List.map_map]

/-- Two channels on paper. -/
def paperChannel : SecureByteChannel Sodium.paper :=
  { raw := some {}
    channel := { Crypto.SecureChannel.make (Sodium.arrOf 32 1) (Sodium.arrOf 32 2)
      (.replicate Crypto.headerBytes 3) with
        pullState := some (Sodium.arrOf 32 2, .replicate Crypto.headerBytes 4, 0) } }

/-- A transport that has paired. -/
def paperTransport : SecureTransport Sodium.paper :=
  { channel := some { Client.SecureChannel.make (Sodium.arrOf 32 2) (Sodium.arrOf 32 1)
      (.replicate Crypto.headerBytes 4) with
        pull := some (Sodium.arrOf 32 1, .replicate Crypto.headerBytes 3, 0) } }

/-- The sending half of its peer. -/
def paperPush : Sodium.paper.secretstream.Push :=
  Sodium.paper.initPush (Sodium.arrOf 32 1) (.replicate Crypto.headerBytes 3)

/-- These two have paired. -/
theorem ready_paper : Ready paperChannel paperTransport paperPush :=
  ⟨⟨⟨rfl, rfl⟩, Sodium.arrOf 32 1, Sodium.arrOf 32 2, .replicate Crypto.headerBytes 3,
    .replicate Crypto.headerBytes 4, rfl, _, rfl, rfl⟩, rfl, ⟨{}, rfl, rfl⟩, rfl⟩

/-- **What the iPad gets**, in every run in which the encoder's packets fit into a frame. -/
theorem host_to_pad (hstream : S.StreamContract) {channel : SecureByteChannel S}
    {transport : SecureTransport S} (h : Ready channel transport push) (config : EncoderConfig)
    {acts : List Step} (hfits : ∀ act ∈ acts, act.Fits) :
    ∃ ms, (after channel transport push config acts).Streamed config ms :=
  (sound_after hstream h config hfits).streamed hstream

/-- A frame of which one packet comes in two pieces, and the cable is pulled behind the half of
the next. -/
theorem host_to_pad_frame :
    let acts : List Step := .paired none :: Session.opening.map .host ++
      [.deliver 60, .deliver 1000, .process, .process] ++
      (Session.onFrame {} [⟨[1, 2], true⟩]).map .host ++ [.deliver 30, .deliver 1000, .process] ++
      (Session.onFrame {} [⟨[3], false⟩]).map .host ++ [.deliver 30, .cut, .lost, .process]
    let s := after paperChannel paperTransport paperPush {} acts
    (∃ ms, s.Streamed {} ms) ∧ s.decoded = [[1, 2]] ∧ s.dispatched.length = 3 ∧
      s.closed = true := by
  intro acts s
  exact ⟨host_to_pad Sodium.paper_streamContract ready_paper {} (by decide), by decide +kernel,
    by decide +kernel, by decide +kernel⟩

/-! ## What the host hears -/

/-- What the iPad asks for does not touch the host. -/
theorem host_performs (effects : List Client.Effect) (t : Tether S) :
    (effects.foldl perform t).host = t.host := by
  induction effects generalizing t with
  | nil => rfl
  | cons e effects ih =>
      refine (ih _).trans ?_
      cases e with
      | send conn msg =>
          unfold perform
          dsimp only
          split <;> rfl
      | _ => rfl

/-- The end of pairing on the pad does nothing to the host. -/
theorem host_paired (s : Tether S) (learnedPeer : Option Bytes) :
    (s.stepPaired learnedPeer).host = s.host := by
  unfold stepPaired
  split
  · rfl
  · exact host_performs _ _

theorem host_process (s : Tether S) : s.stepProcess.host = s.host := by
  unfold stepProcess
  split
  · rfl
  · exact host_performs _ _

/-- What a step does to the host: nothing, or one of its own steps; the cable and the iPad touch it
only where a `Recv` returns. -/
theorem host_step (s : Tether S) (act : Step) : (s.step act).host = s.host ∨
    ∃ a, (s.step act).host = s.host.step a ∧ (act = .host a ∨ ∃ r, a = .recv r) := by
  rcases s.step_cases act with hidle | hmove
  · exact Or.inl (by rw [hidle])
  generalize s.step act = s' at hmove ⊢
  cases hmove with
  | host a hcable hrecv => exact Or.inr ⟨a, rfl, Or.inl rfl⟩
  | receive r channel hcontrol hrecv hcount => exact Or.inr ⟨.recv r, rfl, Or.inr ⟨r, rfl⟩⟩
  | dropped hcable => exact Or.inr ⟨.recv .closed, rfl, Or.inr ⟨_, rfl⟩⟩
  | paired learnedPeer hlistening => exact Or.inl (s.host_paired learnedPeer)
  | process data queue hqueue => exact Or.inl s.host_process
  | _ => exact Or.inl rfl

/-- What the host makes of the iPad's stream. -/
structure Answered (s : Tether S) : Prop where
  /-- The iPad says its greeting and no more: it is never pinged, so it sends no PONG. -/
  sent : s.sent = if s.listening then greeting else []
  received : s.host.inbound <+: s.sent.flatMap fun m => encode m.toHost
  /-- One keyframe is forced.  The host sends no PONG, and is not asked to stop. -/
  performed : s.host.performed <+: [.forceIdr]
  sane : s.host.control ≠ .corrupt
  /-- When everything has got through, and the host waits for more, the keyframe is forced. -/
  complete : s.listening = true → s.upstream = [] → s.host.control = .receiving →
    (s.channel.recv (64 * 1024)).1.count ≤ 0 → s.host.performed = [.forceIdr]

/-- What is to be done about what the iPad has sent. -/
theorem Sound.reference_sent (h : s.Sound push config) :
    let stream := s.sent.flatMap fun m => encode m.toHost
    (Protocol.frameGrammar.parse stream).fault = none ∧
      reference stream = if s.listening then [.forceIdr] else [] := by
  intro stream
  have hstream : stream = (s.sent.map Client.Message.toHost).flatMap encode := by
    rw [List.flatMap_map]
  have henc : ∀ M ∈ s.sent.map Client.Message.toHost, M.Encodable := by
    rw [h.greeted]
    cases s.listening with
    | false => exact fun M hM => by cases hM
    | true => decide
  obtain ⟨hfault, hreference⟩ := Core.reference_messages henc
  rw [hstream]
  refine ⟨hfault, hreference.trans ?_⟩
  rw [h.greeted]
  cases s.listening with
  | false => rfl
  | true => rfl

/-- What the host has received is the front of what the iPad has sent, and has no fault in it. -/
theorem Sound.received (h : s.Sound push config) : ∃ rest,
    s.host.inbound ++ rest = s.sent.flatMap (fun m => encode m.toHost) ∧
      (Protocol.frameGrammar.parse s.host.inbound).fault = none ∧
      reference s.host.inbound <+: if s.listening then [.forceIdr] else [] := by
  obtain ⟨rest, channel, -, hframes, -⟩ := h.heard.hears
  obtain ⟨hfault, hreference⟩ := h.reference_sent
  rw [← hframes] at hfault hreference
  refine ⟨rest, hframes, Core.fault_front hfault, ?_⟩
  rw [← hreference]
  exact Core.reference_prefix hfault

/-- A fault in the buffer is a fault of the stream, and there is none. -/
theorem Sound.sane (h : s.Sound push config) : s.host.control ≠ .corrupt := by
  intro hcorrupt
  obtain ⟨-, -, hfault, -⟩ := h.received
  obtain ⟨e, hscan⟩ := h.hosted.followed.corrupt hcorrupt
  have hlaw := congrArg Framing.Parsed.fault h.hosted.followed.law
  have hfail := Framing.Grammar.parse_fail (G := Protocol.frameGrammar) hscan
  rw [hfault] at hlaw
  simp only [hfail] at hlaw
  cases hlaw

/-- The host has done nothing but force a keyframe. -/
theorem Sound.performed (h : s.Sound push config) : s.host.performed <+: [.forceIdr] := by
  obtain ⟨-, -, -, hreference⟩ := h.received
  refine (h.hosted.followed.inOrder.trans hreference).trans ?_
  cases s.listening with
  | false => exact List.nil_prefix
  | true => exact List.prefix_refl _

/-- The host is not asked to stop. -/
theorem Sound.goes (h : s.Sound push config) {a : Core.ControlActions}
    (hcontrol : s.host.control = .finishing a) : a.disconnect = false := by
  obtain ⟨-, -, hfault, hreference⟩ := h.received
  have hnever : ∀ effects : List ControlEffect, effects <+: [.forceIdr] → .stop ∉ effects := by
    intro effects hprefix hstop
    have hmem := hprefix.subset hstop
    simp at hmem
  have hitems : .stop ∉ (Protocol.frameGrammar.parse s.host.inbound).items.flatMap
      Core.frameEffects := by
    intro hstop
    refine hnever (reference s.host.inbound) ?_ ?_
    · refine hreference.trans ?_
      cases s.listening with
      | false => exact List.nil_prefix
      | true => exact List.prefix_refl _
    · unfold reference
      simp only [hfault, Option.isSome_none, Bool.false_eq_true, if_false, List.append_nil]
      exact Core.stop_mem_cut hstop
  -- what is pending is about a frame that has been received
  have hacted := h.hosted.followed.acted (hnever _ h.performed)
  rw [hcontrol] at hacted
  refine Bool.eq_false_of_not_eq_true fun hstop => hitems ?_
  rw [h.hosted.followed.law, List.flatMap_append, ← hacted]
  refine List.mem_append_left _ (List.mem_append_right _ ?_)
  simp [Core.ControlPoint.pending, hstop]

/-- The host answers what has arrived. -/
theorem Sound.answered (hstream : S.StreamContract) (h : s.Sound push config)
    (hdrained : s.host.Drained) : s.Answered := by
  obtain ⟨rest, hframes, hfault, hreference⟩ := h.received
  have hfollowed := h.hosted.followed
  refine ⟨h.greeted, ⟨rest, hframes⟩, h.performed, h.sane, ?_⟩
  · intro hlistening hupstream hcontrol hcount
    obtain ⟨left, channel, -, hframes', hhears⟩ := h.heard.hears
    rw [hupstream] at hhears
    obtain rfl := hhears.drained hstream (by decide) hcount
    rw [List.append_nil] at hframes'
    have hpending : s.host.control.pending = [] := by rw [hcontrol]; rfl
    rw [hfollowed.caughtUp hpending (Or.inr (hdrained.waits (Or.inl hcontrol))), hframes',
      h.reference_sent.2, hlistening]
    rfl

/-- **What the host hears**, in every run in which the encoder's packets fit into a frame. -/
theorem pad_to_host (hstream : S.StreamContract) {channel : SecureByteChannel S}
    {transport : SecureTransport S} (h : Ready channel transport push) (config : EncoderConfig)
    {acts : List Step} (hfits : ∀ act ∈ acts, act.Fits) :
    (after channel transport push config acts).Answered := by
  have hguard : Runs.Admits step (fun (_ : Tether S) (act : Step) => act.Fits)
      (start channel transport push config) acts :=
    Runs.admits_of_forall fun act hact _ => hfits act hact
  have hall := Runs.exec_invariant
    (P := fun s : Tether S => Sound push config s ∧ s.host.Drained)
    (fun s act h hfits => by
      refine ⟨h.1.step hstream hfits, ?_⟩
      rcases s.host_step act with hsame | ⟨a, hstep, -⟩
      · rw [hsame]
        exact h.2
      · rw [hstep]
        exact h.2.step h.1.hosted.sound a)
    ⟨sound_start hstream h config, Session.drained_start (L := recordLink S) push config⟩
    hguard
  exact hall.1.answered hstream hall.2

/-- The greeting arrives in three pieces, the first in the middle of the HELLO. -/
theorem pad_to_host_greeting :
    let acts : List Step := .paired none :: Session.opening.map .host ++
      [.host .control, .receive, .arrive 20, .receive, .arrive 30, .receive, .host .control,
        .host .control, .host .control, .host .control, .host .control, .host .control,
        .host .control, .host .control, .host .control, .arrive 1000, .receive, .host .control,
        .host .control, .host .control, .host .control, .host .control, .host .control,
        .host .control, .host .control]
    let s := after paperChannel paperTransport paperPush {} acts
    s.Answered ∧ s.host.performed = [.forceIdr] ∧ s.host.control = .receiving := by
  intro acts s
  exact ⟨pad_to_host Sodium.paper_streamContract ready_paper {} (by decide), by decide +kernel,
    by decide +kernel⟩

/-! ## What ends a session -/

/-- The cable stays in, `Stop` is not called, and neither `capture_.Start` nor
`encoder_.Initialize` fails. -/
def Undisturbed (s : Tether S) : Step → Prop
  | .host a => a.Fits ∧ (a.Succeeds → s.host.Undisturbed a)
  | .cut => False
  | _ => True

instance (s : Tether S) : DecidablePred s.Undisturbed
  | .host a => inferInstanceAs (Decidable (a.Fits ∧ (a.Succeeds → s.host.Undisturbed a)))
  | .cut => isFalse id
  | .receive | .dropped | .arrive _ | .paired _ | .deliver _ | .lost | .process => isTrue trivial

theorem Undisturbed.fits {act : Step} (h : s.Undisturbed act) : act.Fits := by
  cases act with
  | host a => exact h.1
  | _ => trivial

/-- Nothing but the cable ends the connection. -/
theorem Sound.connected_step (h : s.Sound push config) {act : Step} (hact : act ≠ .cut) :
    (s.step act).connected = s.connected := by
  have hsends : ∀ (msgs : List Client.Message) (t : Tether S),
      (msgs.foldl (fun t msg => t.perform (.send 0 msg)) t).connected = t.connected := by
    intro msgs
    induction msgs with
    | nil => exact fun t => rfl
    | cons msg msgs ih =>
        intro t
        refine (ih _).trans ?_
        unfold perform
        dsimp only
        split <;> rfl
  rcases s.step_cases act with hidle | hmove
  · rw [hidle]
  generalize s.step act = s' at hmove ⊢
  cases hmove with
  | paired learnedPeer hlistening =>
      unfold stepPaired
      rw [if_neg (by rw [hlistening]; exact Bool.false_ne_true)]
      dsimp only
      rw [foldl_established h.transport]
      exact hsends _ _
  | process data queue hqueue =>
      obtain ⟨_, _, _, _, _, -, -, -, -, hprocess⟩ := h.process_eq hqueue
      rw [hprocess]
  | cut => exact absurd rfl hact
  | _ => rfl

/-- Nothing has ended the session. -/
structure StaysUp (s : Tether S) : Prop where
  connected : s.connected = true
  /-- The iPad's receive loop has not ended. -/
  open_ : s.closed = false
  /-- From `Run` on, the session runs, and none of the host's threads has left its loop. -/
  lively : s.host.Lively

/-- **What ends a session.**  In a run in which the cable stays in, `Stop` is not called, and
the capture source and the encoder start, the session goes on. -/
theorem link_stays_up (hstream : S.StreamContract) {channel : SecureByteChannel S}
    {transport : SecureTransport S} (h : Ready channel transport push) (config : EncoderConfig)
    {acts : List Step}
    (hquiet : Runs.Admits step Undisturbed (start channel transport push config) acts) :
    (after channel transport push config acts).StaysUp := by
  have hall := Runs.exec_invariant
    (P := fun s : Tether S => Sound push config s ∧ s.connected = true ∧ s.host.Lively)
    (fun s act h hquiet => by
      obtain ⟨hsound, hconnected, hlively⟩ := h
      have hnext := hsound.step hstream hquiet.fits
      have hact : act ≠ .cut := by
        rintro rfl
        exact hquiet
      refine ⟨hnext, (hsound.connected_step hact).trans hconnected, ?_⟩
      have hsuccessful := (hsound.intact hconnected).1
      have hstays : ∀ (a : Core.Session.Act) (t : Tether S), t.host = s.host.step a →
          Sound push config t → s.host.Undisturbed a → (∀ r, a = .recv r → 0 < r.count) →
          t.host.Lively := by
        intro a t ht hsound' hquiet hdata
        have hsane := hsound'.sane
        rw [ht] at hsane ⊢
        exact hlively.step hsuccessful hquiet hdata (fun _ => hsound.goes) hsane
      rcases s.step_cases act with hidle | hmove
      · rwa [hidle]
      generalize s.step act = s' at hmove hnext ⊢
      cases hmove with
      | host a hcable hrecv =>
          exact hstays a _ rfl hnext (hquiet.2 (hcable hconnected)) fun r ha =>
            absurd ha (hrecv r)
      | receive r channel hcontrol hrecv hcount =>
          refine hstays (.recv r) _ rfl hnext ⟨trivial, trivial⟩ fun r' hr => ?_
          cases hr
          exact hcount
      | dropped hcable =>
          rw [hconnected] at hcable
          cases hcable
      | paired learnedPeer hlistening =>
          rw [s.host_paired learnedPeer]
          exact hlively
      | process data queue hqueue =>
          rw [s.host_process]
          exact hlively
      | _ => exact hlively)
    ⟨sound_start hstream h config, rfl, Session.lively_start (L := recordLink S) push config⟩
    hquiet
  exact ⟨hall.2.1, (hall.1.intact hall.2.1).2, hall.2.2⟩

/-- A frame, the greeting, and a `Recv` that finds nothing. -/
theorem link_stays_up_frame :
    let acts : List Step := Session.opening.map .host ++ [.host .control, .receive] ++
      (Session.onFrame {} [⟨[1, 2], true⟩]).map .host ++ [.paired none, .deliver 1000,
        .arrive 1000, .receive, .dropped, .lost, .process]
    (after paperChannel paperTransport paperPush {} acts).StaysUp :=
  link_stays_up Sodium.paper_streamContract ready_paper {} (by decide +kernel)

end Tether

end Streaming

end TetherDisplay
