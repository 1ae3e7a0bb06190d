import TetherDisplay.Core.ByteChannel
import TetherDisplay.Core.ControlPlane
import TetherDisplay.Encode.Encoder
import TetherDisplay.Foundations.LockedSender
import TetherDisplay.Foundations.Runs
import TetherDisplay.Protocol.FrameParser

/-!
# The streaming session

`streaming_session.cpp`: `Run` announces the host, starts the control thread and the
capture source, and waits; frames come in on a capture thread and leave as VIDEO_FRAMEs;
the control thread reads what the iPad sends; `Stop` may be called from anywhere.  Three
threads share `running_`, `force_idr_`, `seq_` and, behind a mutex, the channel.

`Session` is all of it: the fields of the object, and for each thread the point of the
source it has come to.  A step is one access to something shared, by one thread, so that a
run is a sequence of steps in any order.  What is not the session's to decide comes with
the step: what `Recv` delivers, whether the encoder starts and what it emits, how the
channel writes and whether it refuses.  A step that its thread cannot take where it is
leaves the session as it is.

What a channel puts on the wire for the data passed to `SendAll` is a `Wiring`: the data
as they are for a plain channel, a record for an encrypted one.

The last fields of `Session` are records of what has happened, which nothing in the code
reads.
-/

namespace TetherDisplay.Core

open Protocol (Message Hello Welcome VideoFrame FrameParser RawFrame encode decodeMessage)
open Encode (Codec EncoderConfig EncodedPacket)
open LockedSender (Wiring Sender)

/-! ## Messages of the session -/

/-- What the session uses of a captured frame. -/
structure CapturedFrame where
  width : UInt32 := 0
  height : UInt32 := 0
  timestamp100ns : UInt64 := 0
  deriving DecidableEq, Repr

def kCodecHEVC : UInt8 := 1
def kCodecH264 : UInt8 := 2
def kMaskHEVC : UInt8 := 0x01
def kMaskH264 : UInt8 := 0x02
def kFrameDelta : UInt8 := 0
def kFrameIDR : UInt8 := 1
def kErrVersionMismatch : UInt16 := 1

/-- The byte of a codec in WELCOME and VIDEO_FRAME. -/
def codecId (codec : Codec) : UInt8 := if codec = .h264 then kCodecH264 else kCodecHEVC

/-- A VIDEO_FRAME from an encoded packet; 100 ns ticks become microseconds. -/
def buildVideoFrame (codec : Codec) (isKeyframe : Bool) (pts100ns : UInt64) (seq : UInt32)
    (data : Bytes) : VideoFrame :=
  { codecId := codecId codec
    frameType := if isKeyframe then kFrameIDR else kFrameDelta
    vflags := 0
    ptsUs := pts100ns / 10
    seq
    bitstream := data }

/-- The HELLO with which `Run` begins. -/
def openingHello (config : EncoderConfig) : Message :=
  .hello { codecMask := kMaskHEVC ||| kMaskH264
           maxWidth := config.width.toUInt16
           maxHeight := config.height.toUInt16
           maxBitrateKbps := config.maxBitrateKbps
           maxFps := config.fps.toUInt16
           featureFlags := 0 }

/-- The WELCOME that follows it. -/
def openingWelcome (config : EncoderConfig) : Message :=
  .welcome { codecId := codecId config.codec
             width := config.width.toUInt16
             height := config.height.toUInt16
             bitrateKbps := config.targetBitrateKbps
             fps := config.fps.toUInt16
             sessionFlags := 0 }

/-! ## The state -/

/-- The threads that send. -/
inductive Thread where
  | run
  | capture
  | control
  deriving DecidableEq, Repr

/-- A message that a thread sends, and how many `OnFrame` calls had begun when it came
with it. -/
structure Outgoing where
  msg : Message
  call : ℕ
  deriving DecidableEq, Repr

/-- What a session's channel writes for its messages. -/
def framed (L : Wiring Bytes UInt8) : Wiring Outgoing UInt8 where
  State := L.State
  wire link o := L.wire link (encode o.msg)

/-- Where `Run` is. -/
inductive RunPoint where
  | notCalled
  | sendHello
  | sendWelcome
  | startControl
  | startCapture
  /-- In `capture_.Start`. -/
  | starting
  | startFailed
  /-- At `while (running_)`. -/
  | waiting
  | stopCapture
  | shutdownEncoder
  /-- In `control_thread_.join()`. -/
  | joining
  | returned
  deriving DecidableEq, Repr

/-- Where the capture thread is in `OnFrame`. -/
inductive CapturePoint where
  | idle
  | entered (f : CapturedFrame)
  /-- In `encoder_.Initialize`. -/
  | initializing (f : CapturedFrame)
  | initializeFailed
  /-- Before `force_idr_.exchange(false)`. -/
  | ready (f : CapturedFrame)
  /-- In `encoder_.EncodeFrame`, which has emitted so many packets. -/
  | encoding (f : CapturedFrame) (idr : Bool) (packets : ℕ)
  deriving DecidableEq, Repr

/-- Where the control thread is in `ControlLoop`. -/
inductive ControlPoint where
  | notStarted
  /-- At the outer `while (running_)`. -/
  | outer
  /-- In `channel_.Recv`. -/
  | receiving
  /-- `Recv` has returned no data. -/
  | ended
  /-- At the inner `while (running_)`. -/
  | inner
  /-- Before `parser.next`. -/
  | parsing
  /-- The parser has answered a hard error. -/
  | corrupt
  /-- Before `force_idr_ = true`, the PONG and `running_ = false` of the actions. -/
  | acting (a : ControlActions)
  | replying (a : ControlActions)
  | finishing (a : ControlActions)
  | exited
  deriving DecidableEq, Repr

/-- Where an external `Stop` is. -/
inductive StopPoint where
  | notCalled
  /-- It has cleared `running_` and not closed the channel. -/
  | cleared
  | closed
  deriving DecidableEq, Repr

/-- What the control loop does about what it reads: the flag set, a PONG sent, the session
stopped. -/
inductive ControlEffect where
  | forceIdr
  | pong (token : UInt64)
  | stop
  deriving DecidableEq, Repr

/-- A packet, the number of the `OnFrame` call that it was emitted in, and the frame of that
call. -/
structure Emission where
  call : ℕ
  frame : CapturedFrame
  packet : EncodedPacket
  deriving DecidableEq, Repr

/-- A session with its threads. -/
structure Session (L : Wiring Bytes UInt8) where
  config : EncoderConfig
  running : Bool := false
  /-- The first frame is always a keyframe. -/
  forceIdr : Bool := true
  seq : UInt32 := 0
  encoderReady : Bool := false
  /-- The send mutex, and the channel behind it. -/
  sender : Sender Thread (framed L)
  /-- The parser of `ControlLoop`. -/
  parser : FrameParser := {}
  run : RunPoint := .notCalled
  capture : CapturePoint := .idle
  control : ControlPoint := .notStarted
  stop : StopPoint := .notCalled
  /-- The capture source may deliver frames. -/
  capturing : Bool := false
  channelOpen : Bool := true
  /-- What the encoder has been initialised with. -/
  encoder : Option EncoderConfig := none
  delivered : List CapturedFrame := []
  emitted : List Emission := []
  /-- For each KEYFRAME_REQUEST handled, how many `OnFrame` calls had begun. -/
  requests : List ℕ := []
  /-- For each refusal for which `Send` has cleared `running_`, how many `OnFrame` calls had
  begun. -/
  refusals : List ℕ := []
  received : List Bytes := []
  processed : List RawFrame := []
  performed : List ControlEffect := []

namespace Session

variable {L : Wiring Bytes UInt8}

/-- A new session over a channel that is in the state `link`. -/
def start (link : L.State) (config : EncoderConfig) : Session L :=
  { config, sender := { link } }

/-- `OnFrame` calls that have begun. -/
def calls (s : Session L) : ℕ := s.delivered.length

/-- The thread is in `Send`. -/
def sending (s : Session L) (t : Thread) : Bool := (s.sender.stage t).isSome

/-- `Send` up to the lock. -/
def send (s : Session L) (t : Thread) (msg : Message) : Session L :=
  { s with sender := s.sender.hand t ⟨msg, s.calls⟩ }

/-! ## The steps -/

/-- What happens next. -/
inductive Act where
  /-- A thread that is in `Send` goes on. -/
  | send (t : Thread) (a : LockedSender.Act)
  /-- `Run` goes on; `started` is how `capture_.Start` ends, if it does. -/
  | run (started : Bool)
  /-- The capture source delivers a frame: a call of `OnFrame` begins. -/
  | deliver (f : CapturedFrame)
  /-- `OnFrame` goes on; `initialized` is how `encoder_.Initialize` ends, if it does. -/
  | capture (initialized : Bool)
  /-- The encoder emits a packet. -/
  | packet (p : EncodedPacket)
  /-- `EncodeFrame` returns; its status is not looked at. -/
  | encoded
  /-- `ControlLoop` goes on. -/
  | control
  /-- `Recv` returns. -/
  | recv (r : Received)
  /-- `Stop` is called, or goes on. -/
  | stop
  deriving DecidableEq, Repr

/-- A step inside `Send`; the session is stopped when a refusal is noticed. -/
def stepSend (s : Session L) (t : Thread) (a : LockedSender.Act) : Session L :=
  let refused := match a, s.sender.stage t with
    | .acknowledge, some .refused => true
    | _, _ => false
  { s with sender := s.sender.step t a
           running := s.running && !refused
           refusals := bif refused then s.refusals ++ [s.calls] else s.refusals }

/-- The thread of `Run` goes on. -/
def stepRun (s : Session L) (started : Bool) : Session L :=
  if s.sending .run then s
  else
    match s.run with
    | .notCalled => { s with running := true, run := .sendHello }
    | .sendHello => { s.send .run (openingHello s.config) with run := .sendWelcome }
    | .sendWelcome => { s.send .run (openingWelcome s.config) with run := .startControl }
    | .startControl => { s with control := .outer, run := .startCapture }
    | .startCapture => { s with capturing := true, run := .starting }
    | .starting =>
        if started then { s with run := .waiting }
        -- a source that fails to start delivers no more frames
        else if s.capture = .idle then { s with capturing := false, run := .startFailed }
        else s
    | .startFailed => { s with running := false, run := .waiting }
    | .waiting => if s.running then s else { s with run := .stopCapture }
    | .stopCapture =>
        -- `capture_.Stop` waits for a frame that is being handled
        if s.capture = .idle then { s with capturing := false, run := .shutdownEncoder } else s
    | .shutdownEncoder => { s with encoder := none, run := .joining }
    | .joining => if s.control = .exited then { s with run := .returned } else s
    | .returned => s

/-- The source delivers a frame, if it may. -/
def stepDeliver (s : Session L) (f : CapturedFrame) : Session L :=
  if s.capturing ∧ s.capture = .idle then
    { s with capture := .entered f, delivered := s.delivered ++ [f] }
  else s

/-- The capture thread goes on. -/
def stepCapture (s : Session L) (initialized : Bool) : Session L :=
  match s.capture with
  | .entered f =>
      if !s.running then { s with capture := .idle }
      else if s.encoderReady then { s with capture := .ready f }
      else
        { s with config := { s.config with width := f.width, height := f.height }
                 capture := .initializing f }
  | .initializing f =>
      if initialized then
        { s with encoder := some s.config, encoderReady := true, capture := .ready f }
      else { s with encoder := none, capture := .initializeFailed }
  | .initializeFailed => { s with running := false, capture := .idle }
  | .ready f => { s with forceIdr := false, capture := .encoding f s.forceIdr 0 }
  | .idle | .encoding _ _ _ => s

/-- The packet callback: draw a sequence number, and send. -/
def stepPacket (s : Session L) (p : EncodedPacket) : Session L :=
  match s.capture with
  | .encoding f idr packets =>
      if s.sending .capture then s
      else
        let vf := buildVideoFrame s.config.codec p.isKeyframe f.timestamp100ns s.seq p.data
        { s.send .capture (.videoFrame vf) with
          seq := s.seq + 1
          capture := .encoding f idr (packets + 1)
          emitted := s.emitted ++ [⟨s.calls, f, p⟩] }
  | _ => s

/-- `EncodeFrame` returns. -/
def stepEncoded (s : Session L) : Session L :=
  match s.capture with
  | .encoding _ _ _ => if s.sending .capture then s else { s with capture := .idle }
  | _ => s

/-- The control thread goes on. -/
def stepControl (s : Session L) : Session L :=
  match s.control with
  | .outer => if s.running then { s with control := .receiving } else { s with control := .exited }
  | .ended => { s with running := false, control := .exited }
  | .inner => if s.running then { s with control := .parsing } else { s with control := .outer }
  | .parsing =>
      match s.parser.next with
      | ((none, perr), parser) =>
          if perr ≠ .needMoreData then { s with parser, control := .corrupt }
          else { s with parser, control := .outer }
      | ((some raw, _), parser) =>
          let s := { s with parser, processed := s.processed ++ [raw] }
          match decodeMessage raw with
          -- skip a single bad message; framing stayed in sync
          | .error _ => { s with control := .inner }
          | .ok msg => { s with control := .acting (handleControlMessage msg) }
  | .corrupt =>
      { s with running := false, control := .outer, performed := s.performed ++ [.stop] }
  | .acting a =>
      if a.forceIdr then
        { s with forceIdr := true
                 control := .replying a
                 requests := s.requests ++ [s.calls]
                 performed := s.performed ++ [.forceIdr] }
      else { s with control := .replying a }
  | .replying a =>
      if a.sendPong then
        { s.send .control (.pong ⟨a.pongToken⟩) with
          control := .finishing a
          performed := s.performed ++ [.pong a.pongToken] }
      else { s with control := .finishing a }
  | .finishing a =>
      if s.sending .control then s
      else if a.disconnect then
        { s with running := false, control := .outer, performed := s.performed ++ [.stop] }
      else { s with control := .inner }
  | .notStarted | .receiving | .exited => s

/-- `Recv` has room for 64 KiB. -/
def stepRecv (s : Session L) (r : Received) : Session L :=
  if s.control = .receiving then
    if r.count ≤ 0 then { s with control := .ended }
    else if r.bytes.length ≤ 64 * 1024 then
      { s with parser := s.parser.feed r.bytes
               control := .inner
               received := s.received ++ [r.bytes] }
    else s
  else s

/-- `Stop`; closing unblocks the control thread. -/
def stepStop (s : Session L) : Session L :=
  match s.stop with
  | .notCalled => { s with running := false, stop := .cleared }
  | .cleared => { s with channelOpen := false, stop := .closed }
  | .closed => s

/-- One step of one of the threads. -/
def step (s : Session L) : Act → Session L
  | .send t a => s.stepSend t a
  | .run started => s.stepRun started
  | .deliver f => s.stepDeliver f
  | .capture initialized => s.stepCapture initialized
  | .packet p => s.stepPacket p
  | .encoded => s.stepEncoded
  | .control => s.stepControl
  | .recv r => s.stepRecv r
  | .stop => s.stepStop

/-! ## What a step can do -/

/-- The steps that are not idle, one for each access of a thread. -/
inductive Move (s : Session L) : Act → Session L → Prop where
  | send (t : Thread) (a : LockedSender.Act) : Move s (.send t a) (s.stepSend t a)
  -- `Run`
  | runCalled (b : Bool) (hrun : s.run = .notCalled) :
      Move s (.run b) { s with running := true, run := .sendHello }
  | sayHello (b : Bool) (hrun : s.run = .sendHello) (hidle : s.sending .run = false) :
      Move s (.run b) { s.send .run (openingHello s.config) with run := .sendWelcome }
  | sayWelcome (b : Bool) (hrun : s.run = .sendWelcome) (hidle : s.sending .run = false) :
      Move s (.run b) { s.send .run (openingWelcome s.config) with run := .startControl }
  | startControl (b : Bool) (hrun : s.run = .startControl) (hidle : s.sending .run = false) :
      Move s (.run b) { s with control := .outer, run := .startCapture }
  | startCapture (b : Bool) (hrun : s.run = .startCapture) (hidle : s.sending .run = false) :
      Move s (.run b) { s with capturing := true, run := .starting }
  | started (hrun : s.run = .starting) : Move s (.run true) { s with run := .waiting }
  | startRefused (hrun : s.run = .starting) (hcapture : s.capture = .idle) :
      Move s (.run false) { s with capturing := false, run := .startFailed }
  | startFailed (b : Bool) (hrun : s.run = .startFailed) :
      Move s (.run b) { s with running := false, run := .waiting }
  | leaveLoop (b : Bool) (hrun : s.run = .waiting) (hrunning : s.running = false) :
      Move s (.run b) { s with run := .stopCapture }
  | stopCapture (b : Bool) (hrun : s.run = .stopCapture) (hcapture : s.capture = .idle) :
      Move s (.run b) { s with capturing := false, run := .shutdownEncoder }
  | shutdownEncoder (b : Bool) (hrun : s.run = .shutdownEncoder) :
      Move s (.run b) { s with encoder := none, run := .joining }
  | joined (b : Bool) (hrun : s.run = .joining) (hcontrol : s.control = .exited) :
      Move s (.run b) { s with run := .returned }
  -- `OnFrame`
  | deliver (f : CapturedFrame) (hcapturing : s.capturing = true) (hcapture : s.capture = .idle) :
      Move s (.deliver f) { s with capture := .entered f, delivered := s.delivered ++ [f] }
  | turnedAway (b : Bool) (f : CapturedFrame) (hcapture : s.capture = .entered f)
      (hrunning : s.running = false) : Move s (.capture b) { s with capture := .idle }
  | prepared (b : Bool) (f : CapturedFrame) (hcapture : s.capture = .entered f)
      (hrunning : s.running = true) (hready : s.encoderReady = true) :
      Move s (.capture b) { s with capture := .ready f }
  | setUp (b : Bool) (f : CapturedFrame) (hcapture : s.capture = .entered f)
      (hrunning : s.running = true) (hready : s.encoderReady = false) :
      Move s (.capture b)
        { s with config := { s.config with width := f.width, height := f.height }
                 capture := .initializing f }
  | initialized (f : CapturedFrame) (hcapture : s.capture = .initializing f) :
      Move s (.capture true)
        { s with encoder := some s.config, encoderReady := true, capture := .ready f }
  | initializeRefused (f : CapturedFrame) (hcapture : s.capture = .initializing f) :
      Move s (.capture false) { s with encoder := none, capture := .initializeFailed }
  | initializeFailed (b : Bool) (hcapture : s.capture = .initializeFailed) :
      Move s (.capture b) { s with running := false, capture := .idle }
  | exchange (b : Bool) (f : CapturedFrame) (hcapture : s.capture = .ready f) :
      Move s (.capture b) { s with forceIdr := false, capture := .encoding f s.forceIdr 0 }
  | packet (p : EncodedPacket) (f : CapturedFrame) (idr : Bool) (n : ℕ)
      (hcapture : s.capture = .encoding f idr n) (hidle : s.sending .capture = false) :
      Move s (.packet p)
        { s.send .capture (.videoFrame (buildVideoFrame s.config.codec p.isKeyframe
            f.timestamp100ns s.seq p.data)) with
          seq := s.seq + 1
          capture := .encoding f idr (n + 1)
          emitted := s.emitted ++ [⟨s.calls, f, p⟩] }
  | encoded (f : CapturedFrame) (idr : Bool) (n : ℕ) (hcapture : s.capture = .encoding f idr n)
      (hidle : s.sending .capture = false) : Move s .encoded { s with capture := .idle }
  -- `ControlLoop`
  | outerOn (hcontrol : s.control = .outer) (hrunning : s.running = true) :
      Move s .control { s with control := .receiving }
  | outerOff (hcontrol : s.control = .outer) (hrunning : s.running = false) :
      Move s .control { s with control := .exited }
  | ended (hcontrol : s.control = .ended) :
      Move s .control { s with running := false, control := .exited }
  | innerOn (hcontrol : s.control = .inner) (hrunning : s.running = true) :
      Move s .control { s with control := .parsing }
  | innerOff (hcontrol : s.control = .inner) (hrunning : s.running = false) :
      Move s .control { s with control := .outer }
  | drained (parser : FrameParser) (hcontrol : s.control = .parsing)
      (hnext : s.parser.next = ((none, .needMoreData), parser)) :
      Move s .control { s with parser, control := .outer }
  | faulted (e : Protocol.WireError) (parser : FrameParser) (hcontrol : s.control = .parsing)
      (hhard : e ≠ .needMoreData) (hnext : s.parser.next = ((none, e), parser)) :
      Move s .control { s with parser, control := .corrupt }
  | skipped (raw : RawFrame) (e derr : Protocol.WireError) (parser : FrameParser)
      (hcontrol : s.control = .parsing) (hnext : s.parser.next = ((some raw, e), parser))
      (hdecode : decodeMessage raw = .error derr) :
      Move s .control { s with parser, processed := s.processed ++ [raw], control := .inner }
  | decoded (raw : RawFrame) (e : Protocol.WireError) (msg : Message) (parser : FrameParser)
      (hcontrol : s.control = .parsing) (hnext : s.parser.next = ((some raw, e), parser))
      (hdecode : decodeMessage raw = .ok msg) :
      Move s .control
        { s with parser, processed := s.processed ++ [raw]
                 control := .acting (handleControlMessage msg) }
  | corrupt (hcontrol : s.control = .corrupt) :
      Move s .control
        { s with running := false, control := .outer, performed := s.performed ++ [.stop] }
  | setIdr (a : ControlActions) (hcontrol : s.control = .acting a) (hidr : a.forceIdr = true) :
      Move s .control
        { s with forceIdr := true, control := .replying a, requests := s.requests ++ [s.calls]
                 performed := s.performed ++ [.forceIdr] }
  | keepIdr (a : ControlActions) (hcontrol : s.control = .acting a) (hidr : a.forceIdr = false) :
      Move s .control { s with control := .replying a }
  | reply (a : ControlActions) (hcontrol : s.control = .replying a) (hpong : a.sendPong = true) :
      Move s .control
        { s.send .control (.pong ⟨a.pongToken⟩) with
          control := .finishing a, performed := s.performed ++ [.pong a.pongToken] }
  | noReply (a : ControlActions) (hcontrol : s.control = .replying a)
      (hpong : a.sendPong = false) : Move s .control { s with control := .finishing a }
  | disconnect (a : ControlActions) (hcontrol : s.control = .finishing a)
      (hidle : s.sending .control = false) (hstop : a.disconnect = true) :
      Move s .control
        { s with running := false, control := .outer, performed := s.performed ++ [.stop] }
  | goOn (a : ControlActions) (hcontrol : s.control = .finishing a)
      (hidle : s.sending .control = false) (hstop : a.disconnect = false) :
      Move s .control { s with control := .inner }
  | recvEnd (r : Received) (hcontrol : s.control = .receiving) (hcount : r.count ≤ 0) :
      Move s (.recv r) { s with control := .ended }
  | recvData (r : Received) (hcontrol : s.control = .receiving) (hcount : ¬ r.count ≤ 0)
      (hroom : r.bytes.length ≤ 64 * 1024) :
      Move s (.recv r)
        { s with parser := s.parser.feed r.bytes, control := .inner
                 received := s.received ++ [r.bytes] }
  -- `Stop`
  | stopCalled (hstop : s.stop = .notCalled) :
      Move s .stop { s with running := false, stop := .cleared }
  | stopCloses (hstop : s.stop = .cleared) :
      Move s .stop { s with channelOpen := false, stop := .closed }

/-- What `Run` can do. -/
theorem stepRun_cases (s : Session L) (b : Bool) :
    s.stepRun b = s ∨ Move s (.run b) (s.stepRun b) := by
  unfold stepRun
  split
  · exact Or.inl rfl
  · rename_i hsending
    have hidle : s.sending .run = false := Bool.eq_false_of_not_eq_true hsending
    split
    · exact Or.inr (.runCalled b ‹_›)
    · exact Or.inr (.sayHello b ‹_› hidle)
    · exact Or.inr (.sayWelcome b ‹_› hidle)
    · exact Or.inr (.startControl b ‹_› hidle)
    · exact Or.inr (.startCapture b ‹_› hidle)
    · cases b with
      | true => exact Or.inr (.started ‹_›)
      | false =>
          rw [if_neg Bool.false_ne_true]
          split
          · exact Or.inr (.startRefused ‹_› ‹_›)
          · exact Or.inl rfl
    · exact Or.inr (.startFailed b ‹_›)
    · split
      · exact Or.inl rfl
      · exact Or.inr (.leaveLoop b ‹_› (Bool.eq_false_of_not_eq_true ‹_›))
    · split
      · exact Or.inr (.stopCapture b ‹_› ‹_›)
      · exact Or.inl rfl
    · exact Or.inr (.shutdownEncoder b ‹_›)
    · split
      · exact Or.inr (.joined b ‹_› ‹_›)
      · exact Or.inl rfl
    · exact Or.inl rfl

/-- What the capture thread can do. -/
theorem stepCapture_cases (s : Session L) (b : Bool) :
    s.stepCapture b = s ∨ Move s (.capture b) (s.stepCapture b) := by
  unfold stepCapture
  split
  · rename_i f hcapture
    split
    · exact Or.inr (.turnedAway b f hcapture (Bool.eq_false_of_not_eq_true' ‹_›))
    · rename_i hoff
      have hrunning : s.running = true := by simpa using hoff
      split
      · exact Or.inr (.prepared b f hcapture hrunning ‹_›)
      · exact Or.inr (.setUp b f hcapture hrunning (Bool.eq_false_of_not_eq_true ‹_›))
  · cases b with
    | true => exact Or.inr (.initialized _ ‹_›)
    | false => exact Or.inr (.initializeRefused _ ‹_›)
  · exact Or.inr (.initializeFailed b ‹_›)
  · exact Or.inr (.exchange b _ ‹_›)
  · exact Or.inl rfl
  · exact Or.inl rfl

/-- What the control thread can do. -/
theorem stepControl_cases (s : Session L) :
    s.stepControl = s ∨ Move s .control s.stepControl := by
  unfold stepControl
  split
  · split
    · exact Or.inr (.outerOn ‹_› ‹_›)
    · exact Or.inr (.outerOff ‹_› (Bool.eq_false_of_not_eq_true ‹_›))
  · exact Or.inr (.ended ‹_›)
  · split
    · exact Or.inr (.innerOn ‹_› ‹_›)
    · exact Or.inr (.innerOff ‹_› (Bool.eq_false_of_not_eq_true ‹_›))
  · split
    · rename_i perr parser hnext
      split
      · exact Or.inr (.faulted perr parser ‹_› ‹_› hnext)
      · obtain rfl : perr = .needMoreData := not_not.mp ‹_›
        exact Or.inr (.drained parser ‹_› hnext)
    · rename_i raw e parser hnext
      simp only
      split
      · exact Or.inr (.skipped raw e _ parser ‹_› hnext ‹_›)
      · exact Or.inr (.decoded raw e _ parser ‹_› hnext ‹_›)
  · exact Or.inr (.corrupt ‹_›)
  · split
    · exact Or.inr (.setIdr _ ‹_› ‹_›)
    · exact Or.inr (.keepIdr _ ‹_› (Bool.eq_false_of_not_eq_true ‹_›))
  · split
    · exact Or.inr (.reply _ ‹_› ‹_›)
    · exact Or.inr (.noReply _ ‹_› (Bool.eq_false_of_not_eq_true ‹_›))
  · split
    · exact Or.inl rfl
    · rename_i hsending
      have hidle : s.sending .control = false := Bool.eq_false_of_not_eq_true hsending
      split
      · exact Or.inr (.disconnect _ ‹_› hidle ‹_›)
      · exact Or.inr (.goOn _ ‹_› hidle (Bool.eq_false_of_not_eq_true ‹_›))
  · exact Or.inl rfl
  · exact Or.inl rfl
  · exact Or.inl rfl

/-- **What a step does**: nothing, or one access of one thread. -/
theorem step_cases (s : Session L) (act : Act) : s.step act = s ∨ Move s act (s.step act) := by
  cases act with
  | send t a => exact Or.inr (.send t a)
  | run b => exact s.stepRun_cases b
  | deliver f =>
      simp only [step, stepDeliver]
      split
      · rename_i h
        exact Or.inr (.deliver f h.1 h.2)
      · exact Or.inl rfl
  | capture b => exact s.stepCapture_cases b
  | packet p =>
      simp only [step, stepPacket]
      split
      · split
        · exact Or.inl rfl
        · exact Or.inr (.packet p _ _ _ ‹_› (Bool.eq_false_of_not_eq_true ‹_›))
      · exact Or.inl rfl
  | encoded =>
      simp only [step, stepEncoded]
      split
      · split
        · exact Or.inl rfl
        · exact Or.inr (.encoded _ _ _ ‹_› (Bool.eq_false_of_not_eq_true ‹_›))
      · exact Or.inl rfl
  | control => exact s.stepControl_cases
  | recv r =>
      simp only [step, stepRecv]
      split
      · split
        · exact Or.inr (.recvEnd r ‹_› ‹_›)
        · split
          · exact Or.inr (.recvData r ‹_› ‹_› ‹_›)
          · exact Or.inl rfl
      · exact Or.inl rfl
  | stop =>
      simp only [step, stepStop]
      split
      · exact Or.inr (.stopCalled ‹_›)
      · exact Or.inr (.stopCloses ‹_›)
      · exact Or.inl rfl

/-! ## Runs -/

/-- The session after a run. -/
def after (link : L.State) (config : EncoderConfig) (acts : List Act) : Session L :=
  Runs.exec step (start link config) acts

/-- `Send`, on a channel that takes all of it at once. -/
def sends (t : Thread) : List Act :=
  [.send t .lock, .send t (.write 65536), .send t .accept, .send t .unlock]

/-- `Run` up to the loop in which it waits. -/
def opening : List Act :=
  [.run true, .run true] ++ sends .run ++ [.run true] ++ sends .run ++
    [.run true, .run true, .run true]

/-- A call of `OnFrame` for which the encoder emits these packets. -/
def onFrame (f : CapturedFrame) (packets : List EncodedPacket) : List Act :=
  [.deliver f, .capture true, .capture true, .capture true] ++
    packets.flatMap (fun p => .packet p :: sends .capture) ++ [.encoded]

end Session

/-- A channel that writes the data as they are. -/
def rawLink : Wiring Bytes UInt8 := Wiring.plain id

end TetherDisplay.Core
