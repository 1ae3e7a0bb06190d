import TetherDisplay.Core.Keyframes
import TetherDisplay.Core.Format
import TetherDisplay.Core.Outbound
import TetherDisplay.Encode.NvencEncoder

/-!
# The session and its encoder

`StreamingSession` drives an `IEncoder`, and there the session's model leaves open what the
encoder does.  Here it drives `NvencEncoder`: `Initialize` is answered by `initializeWith`,
`EncodeFrame` is `submit`, the packet callback and `finish`, and between them the other threads go
on.  The rest of the session is as it was, so that a run of the two is a run of the session
(`session_cases`).

* `encoder_served`: the encoder is set up, for the format that the session has announced to it,
  whenever a frame is encoded; its `i`-th packet leaves as the `i`-th VIDEO_FRAME, and when `Run`
  has returned it has given everything back.
* `requests_kept`: a driver that gives a packet for every picture, and an IDR picture where one is
  forced and nowhere else, is all that the keyframe promise of the session needs.
-/

namespace TetherDisplay.Streaming

open TetherDisplay.Core (Session CapturedFrame CapturePoint RunPoint Emission)
open TetherDisplay.Core.Session (Act)
open Encode (EncoderConfig EncodedPacket EncodeStatus NvencEncoder)
open Encode.NvencEncoder (records_eq_iff)
open Encode.Nvenc (InitializeAnswers EncodeAnswers Packet Handle initializeParams)
open Ledger (acquisitions releases)
open LockedSender (Wiring)

/-- A session over its encoder. -/
structure HostEncoder (L : Wiring Bytes UInt8) where
  session : Session L
  encoder : NvencEncoder := {}
  /-- The callback of the frame that is encoded has been called. -/
  handed : Bool := false

namespace HostEncoder

variable {L : Wiring Bytes UInt8}

/-- What happens next. -/
inductive Step where
  /-- The session goes on, where the encoder has nothing to do with it. -/
  | session (a : Act)
  /-- `encoder_.Initialize`, with the device of the capture source. -/
  | setUp (device : Option ℕ) (a : InitializeAnswers)
  /-- `force_idr_.exchange(false)`, and `encoder_.EncodeFrame` up to the callback. -/
  | encode (texture : Bool) (a : EncodeAnswers)
  /-- The callback is called. -/
  | packet
  /-- `EncodeFrame` returns. -/
  | encoded
  deriving DecidableEq, Repr

/-- What is not the encoder's to do: `Run` has it shut down. -/
def stepSession (s : HostEncoder L) (a : Act) : HostEncoder L :=
  match a with
  | .run _ =>
      { s with
        session := s.session.step a
        encoder :=
          if s.session.run = .shutdownEncoder ∧ s.session.sending .run = false then
            s.encoder.shutdown
          else s.encoder }
  | .capture _ =>
      match s.session.capture with
      | .initializing _ | .ready _ => s
      | _ => { s with session := s.session.step a }
  | .packet _ | .encoded => s
  | _ => { s with session := s.session.step a }

/-- The session calls `encoder_.Initialize`. -/
def stepSetUp (s : HostEncoder L) (device : Option ℕ) (a : InitializeAnswers) : HostEncoder L :=
  match s.session.capture with
  | .initializing _ =>
      let r := s.encoder.initializeWith device s.session.config a
      { s with session := s.session.step (.capture (r.1 = .ok)), encoder := r.2 }
  | _ => s

/-- The session calls `encoder_.EncodeFrame`. -/
def stepEncode (s : HostEncoder L) (texture : Bool) (a : EncodeAnswers) : HostEncoder L :=
  match s.session.capture with
  | .ready f =>
      { s with
        session := s.session.step (.capture true)
        encoder := (s.encoder.submit texture f.timestamp100ns s.session.forceIdr a).2 }
  | _ => s

/-- The callback draws a sequence number and sends. -/
def stepPacket (s : HostEncoder L) : HostEncoder L :=
  match s.session.capture, s.encoder.encoding.bind Encode.Nvenc.Encoding.packet with
  | .encoding _ _ _, some p =>
      if s.handed ∨ s.session.sending .capture then s
      else
        { session := s.session.step (.packet p.toEncodedPacket)
          encoder := s.encoder.callback
          handed := true }
  | _, _ => s

/-- `EncodeFrame` returns, once its packet has been handed over. -/
def stepEncoded (s : HostEncoder L) : HostEncoder L :=
  match s.session.capture with
  | .encoding _ _ _ =>
      if s.session.sending .capture ∨ (s.handed = false ∧ s.encoder.pending ≠ []) then s
      else
        { session := s.session.step .encoded
          encoder := if s.encoder.encoding.isSome then s.encoder.finish else s.encoder }
  | _ => s

/-- One step. -/
def step (s : HostEncoder L) : Step → HostEncoder L
  | .session a => s.stepSession a
  | .setUp device a => s.stepSetUp device a
  | .encode texture a => s.stepEncode texture a
  | .packet => s.stepPacket
  | .encoded => s.stepEncoded

/-- A new session with its encoder. -/
def start (link : L.State) (config : EncoderConfig) : HostEncoder L where
  session := Session.start link config

/-- The two after a run. -/
def after (link : L.State) (config : EncoderConfig) (steps : List Step) : HostEncoder L :=
  Runs.exec step (start link config) steps

/-! ## What a step is to the session -/

/-- The step that the session takes. -/
inductive Takes (s : HostEncoder L) : Step → Act → Prop where
  | alone (a : Act)
      (hcapture : ∀ b, a = .capture b → ∀ f, s.session.capture ≠ .initializing f ∧
        s.session.capture ≠ .ready f)
      (hpacket : ∀ p, a ≠ .packet p) (hencoded : a ≠ .encoded) : Takes s (.session a) a
  | setUp (device : Option ℕ) (a : InitializeAnswers) (f : CapturedFrame)
      (hat : s.session.capture = .initializing f) :
      Takes s (.setUp device a)
        (.capture ((s.encoder.initializeWith device s.session.config a).1 = .ok))
  | encode (texture : Bool) (a : EncodeAnswers) (f : CapturedFrame)
      (hat : s.session.capture = .ready f) : Takes s (.encode texture a) (.capture true)
  | packet (p : Packet) (f : CapturedFrame) (idr : Bool) (n : ℕ)
      (hat : s.session.capture = .encoding f idr n)
      (hpacket : s.encoder.encoding.bind Encode.Nvenc.Encoding.packet = some p) :
      Takes s .packet (.packet p.toEncodedPacket)
  | encoded (f : CapturedFrame) (idr : Bool) (n : ℕ) (hat : s.session.capture = .encoding f idr n)
      (hfree : ¬ (s.session.sending .capture ∨ (s.handed = false ∧ s.encoder.pending ≠ []))) :
      Takes s .encoded .encoded

/-- A step of the two is one of the session, or none. -/
theorem session_cases (s : HostEncoder L) (st : Step) : (s.step st).session = s.session ∨
    ∃ a, s.Takes st a ∧ (s.step st).session = s.session.step a := by
  cases st with
  | session a =>
      cases a with
      | capture b =>
          show (s.stepSession (.capture b)).session = _ ∨
            ∃ a, _ ∧ (s.stepSession (.capture b)).session = _
          unfold stepSession
          dsimp only
          cases hat : s.session.capture with
          | initializing f | ready f => exact Or.inl rfl
          | idle | entered f | initializeFailed | encoding f idr n =>
              exact Or.inr ⟨.capture b, .alone _ (fun _ _ f => by rw [hat]; exact ⟨by rintro ⟨⟩,
                by rintro ⟨⟩⟩) (by rintro _ ⟨⟩) (by rintro ⟨⟩), rfl⟩
      | packet p | encoded => exact Or.inl rfl
      | run b | send t a | deliver f | control | recv r | stop =>
          exact Or.inr ⟨_, .alone _ (by rintro _ ⟨⟩) (by rintro _ ⟨⟩) (by rintro ⟨⟩), rfl⟩
  | setUp device a =>
      show (s.stepSetUp device a).session = _ ∨ ∃ a', _ ∧ (s.stepSetUp device a).session = _
      unfold stepSetUp
      cases hat : s.session.capture with
      | initializing f => exact Or.inr ⟨_, .setUp device a f hat, rfl⟩
      | idle | entered f | ready f | initializeFailed | encoding f idr n => exact Or.inl rfl
  | encode texture a =>
      show (s.stepEncode texture a).session = _ ∨ ∃ a', _ ∧ (s.stepEncode texture a).session = _
      unfold stepEncode
      cases hat : s.session.capture with
      | ready f => exact Or.inr ⟨_, .encode texture a f hat, rfl⟩
      | idle | entered f | initializing f | initializeFailed | encoding f idr n =>
          exact Or.inl rfl
  | packet =>
      show s.stepPacket.session = _ ∨ ∃ a, _ ∧ s.stepPacket.session = _
      unfold stepPacket
      cases hat : s.session.capture with
      | encoding f idr n =>
          cases hpacket : s.encoder.encoding.bind Encode.Nvenc.Encoding.packet with
          | none => exact Or.inl rfl
          | some p =>
              dsimp only
              split
              · exact Or.inl rfl
              · exact Or.inr ⟨_, .packet p f idr n hat hpacket, rfl⟩
      | idle | entered f | initializing f | ready f | initializeFailed => exact Or.inl rfl
  | encoded =>
      show s.stepEncoded.session = _ ∨ ∃ a, _ ∧ s.stepEncoded.session = _
      unfold stepEncoded
      cases hat : s.session.capture with
      | encoding f idr n =>
          dsimp only
          split
          · exact Or.inl rfl
          · next hfree => exact Or.inr ⟨_, .encoded f idr n hat hfree, rfl⟩
      | idle | entered f | initializing f | ready f | initializeFailed => exact Or.inl rfl

/-! ## What the two keep -/

variable {link : L.State} {config : EncoderConfig} {s : HostEncoder L}

/-- **The session and its encoder.** -/
structure Serves (s : HostEncoder L) : Prop where
  sound : s.encoder.Sound
  numbered : s.encoder.Numbered
  ending : s.session.run.Ending → s.session.capturing = false ∧ s.session.capture = .idle
  initializing : ∀ f, s.session.capture = .initializing f → s.session.encoderReady = false
  equipped : s.session.capture.Equipped → s.session.encoderReady = true
  ready : s.session.encoderReady = true → ¬ s.session.run.Ending →
    s.encoder.initialized = true ∧ s.encoder.cfg = s.session.config
  fresh : s.session.encoderReady = false → s.encoder.units = []
  idle : ¬ s.session.capture.Calling → s.encoder.encoding = none ∧ s.handed = false
  frame : ∀ f idr n, s.session.capture = .encoding f idr n → ∀ p ∈ s.encoder.pending,
    p.timestamp = f.timestamp100ns ∧ p.frameIndex = s.encoder.frameIndex
  closed : s.session.run = .joining ∨ s.session.run = .returned →
    s.encoder.handles.Stands Handle.needs []
  /-- All packets are of one encode session. -/
  one : ∃ n, (∀ u ∈ s.encoder.units, u.session = n) ∧
    (s.session.encoderReady = true → ¬ s.session.run.Ending → s.encoder.sessions = n)
  delivered : s.encoder.delivered = s.encoder.units.map Encode.Nvenc.AccessUnit.packet ++
    if s.handed then s.encoder.pending else []
  emitted : s.session.emitted.map (fun e => (e.packet, e.frame.timestamp100ns)) =
    s.encoder.delivered.map fun p => (p.toEncodedPacket, p.timestamp)

theorem serves_start (link : L.State) (config : EncoderConfig) :
    (start link config).Serves where
  sound := (NvencEncoder.rests_after []).sound
  numbered := (NvencEncoder.units_numbered []).1
  ending h := h.elim
  initializing f h := by cases h
  equipped h := h.elim
  ready h := by cases h
  fresh _ := rfl
  idle _ := ⟨rfl, rfl⟩
  frame f idr n h := by cases h
  closed h := by rcases h with h | h <;> cases h
  one := ⟨0, fun u hu => (by cases hu), fun h => (by cases h)⟩
  delivered := rfl
  emitted := rfl

/-- `OnFrame` has returned when the session ends. -/
theorem Serves.not_ending (h : s.Serves) (hne : s.session.capture ≠ .idle) :
    ¬ s.session.run.Ending := fun hend => hne (h.ending hend).2

theorem ending_of_over {q : RunPoint} (h : q = .joining ∨ q = .returned) : q.Ending := by
  rcases h with rfl | rfl <;> trivial

/-- The session goes on, and `OnFrame` neither enters `EncodeFrame` nor leaves it. -/
theorem Serves.withSession (h : s.Serves) {t : Session L}
    (hemitted : t.emitted = s.session.emitted)
    (hready : t.encoderReady = s.session.encoderReady)
    (hconfig : t.encoderReady = true → t.config = s.session.config)
    (hcapture : t.capture = s.session.capture ∨
      (¬ s.session.capture.Calling ∧ ¬ t.capture.Calling))
    (hinitializing : ∀ f, t.capture = .initializing f → t.encoderReady = false)
    (hequipped : t.capture.Equipped → t.encoderReady = true)
    (hending : t.run.Ending → t.capturing = false ∧ t.capture = .idle)
    (hgone : s.session.run.Ending → t.run.Ending)
    (hclosed : t.run = .joining ∨ t.run = .returned → s.encoder.handles.Stands Handle.needs []) :
    Serves { s with session := t } :=
  { h with
    ending := hending
    initializing := hinitializing
    equipped := hequipped
    ready := fun hon hrun => by
      obtain ⟨hinit, hcfg⟩ := h.ready (hready ▸ hon) fun hend => hrun (hgone hend)
      exact ⟨hinit, hcfg.trans (hconfig hon).symm⟩
    fresh := fun hoff => h.fresh (hready ▸ hoff)
    idle := fun hidle => by
      rcases hcapture with hsame | ⟨hout, -⟩
      · exact h.idle (hsame ▸ hidle)
      · exact h.idle hout
    frame := fun f idr n hcall => by
      rcases hcapture with hsame | ⟨-, hout⟩
      · exact h.frame f idr n (hsame ▸ hcall)
      · exact absurd (show t.capture.Calling by rw [hcall]; trivial) hout
    closed := hclosed
    one := by
      obtain ⟨n, hall, hcurrent⟩ := h.one
      exact ⟨n, hall, fun hon hrun => hcurrent (hready ▸ hon) fun hend => hrun (hgone hend)⟩
    emitted := (congrArg _ hemitted).trans h.emitted }

/-! ### Steps of the session -/

/-- `Run` goes on. -/
theorem Serves.runMove (h : s.Serves) {t : Session L} (hemitted : t.emitted = s.session.emitted)
    (hready : t.encoderReady = s.session.encoderReady) (hconfig : t.config = s.session.config)
    (hcapture : t.capture = s.session.capture)
    (hending : t.run.Ending → t.capturing = false ∧ t.capture = .idle)
    (hgone : s.session.run.Ending → t.run.Ending)
    (hclosed : t.run = .joining ∨ t.run = .returned → s.encoder.handles.Stands Handle.needs []) :
    Serves { s with session := t } :=
  h.withSession hemitted hready (fun _ => hconfig) (Or.inl hcapture)
    (fun f hf => hready.trans (h.initializing f (hcapture ▸ hf)))
    (fun heq => hready.trans (h.equipped (hcapture ▸ heq))) hending hgone hclosed

/-- `Run` does not end, and the session is otherwise for the encoder as it was. -/
theorem Serves.stays (h : s.Serves) {t : Session L} (hemitted : t.emitted = s.session.emitted)
    (hready : t.encoderReady = s.session.encoderReady) (hconfig : t.config = s.session.config)
    (hcapture : t.capture = s.session.capture) (hcapturing : t.capturing = s.session.capturing)
    (hrun : t.run = s.session.run) : Serves { s with session := t } :=
  h.runMove hemitted hready hconfig hcapture
    (fun hend => by rw [hcapturing, hcapture]; exact h.ending (hrun ▸ hend))
    (fun hend => hrun ▸ hend) (fun hend => h.closed (hrun ▸ hend))

/-- `Run` shuts the encoder down. -/
theorem Serves.shutdown (h : s.Serves) (hrun : s.session.run = .shutdownEncoder) :
    Serves { s with session := { s.session with encoder := none, run := .joining }
                    encoder := s.encoder.shutdown } := by
  obtain ⟨hcapturing, hcapture⟩ := h.ending (by rw [hrun]; trivial)
  obtain ⟨hencoding, hhanded⟩ := h.idle (by rw [hcapture]; exact id)
  have hopening := h.sound.shutdown hencoding
  have hrests := NvencEncoder.Rests.call ⟨h.sound, hencoding⟩ .shutdown
  obtain ⟨-, -, hunits, hdelivered⟩ := records_eq_iff.mp s.encoder.records_shutdown
  exact {
    sound := hrests.sound
    numbered := h.numbered.shutdown
    ending := fun _ => ⟨hcapturing, hcapture⟩
    initializing := h.initializing
    equipped := h.equipped
    ready := fun _ hnot => absurd trivial hnot
    fresh := fun hoff => hunits.trans (h.fresh hoff)
    idle := fun _ => ⟨hopening.idle, hhanded⟩
    frame := fun f idr n hcall => by
      rw [show s.session.capture = .idle from hcapture] at hcall
      cases hcall
    closed := fun _ => hopening.toStands
    one := by
      obtain ⟨n, hall, -⟩ := h.one
      exact ⟨n, hunits ▸ hall, fun _ hnot => absurd trivial hnot⟩
    delivered := by
      have hbefore := h.delivered
      rw [if_neg (by rw [hhanded]; exact Bool.false_ne_true)] at hbefore
      rw [if_neg (by rw [hhanded]; exact Bool.false_ne_true), hdelivered, hunits]
      exact hbefore
    emitted := by
      rw [hdelivered]
      exact h.emitted }

/-- `Run` goes on, and has nothing to tell the encoder. -/
theorem Serves.stepRun (h : s.Serves) (b : Bool) (hrun : s.session.run ≠ .shutdownEncoder) :
    Serves { s with session := s.session.step (.run b) } := by
  have hclosed : ∀ q : RunPoint, q ≠ .joining → q ≠ .returned →
      q = .joining ∨ q = .returned → s.encoder.handles.Stands Handle.needs [] :=
    fun q hq hq' hor => hor.elim (absurd · hq) (absurd · hq')
  rcases s.session.step_cases (.run b) with hidle | hmove
  · rwa [hidle]
  generalize s.session.step (.run b) = t at hmove ⊢
  cases hmove with
  | stopCapture b hat hcapture =>
      exact h.runMove rfl rfl rfl rfl (fun _ => ⟨rfl, hcapture⟩) (fun _ => trivial)
        (hclosed _ (by rintro ⟨⟩) (by rintro ⟨⟩))
  | shutdownEncoder b hat => exact absurd hat hrun
  | joined b hat hcontrol =>
      exact h.runMove rfl rfl rfl rfl (fun _ => h.ending (by rw [hat]; trivial))
        (fun _ => trivial) fun _ => h.closed (Or.inl hat)
  | runCalled b hat | sayHello b hat | sayWelcome b hat | startControl b hat
  | startCapture b hat | started hat | startRefused hat | startFailed b hat | leaveLoop b hat =>
      exact h.runMove rfl rfl rfl rfl False.elim (by rw [hat]; exact False.elim)
        (hclosed _ (by rintro ⟨⟩) (by rintro ⟨⟩))

/-- The capture source delivers a frame. -/
theorem Serves.stepDeliver (h : s.Serves) (f : CapturedFrame) :
    Serves { s with session := s.session.step (.deliver f) } := by
  rcases s.session.step_cases (.deliver f) with hidle | hmove
  · rwa [hidle]
  generalize s.session.step (.deliver f) = t at hmove ⊢
  cases hmove with
  | deliver f hcapturing hcapture =>
      exact h.withSession rfl rfl (fun _ => rfl)
        (Or.inr ⟨by rw [hcapture]; exact id, id⟩) (by rintro _ ⟨⟩) False.elim
        (fun hend => absurd hcapturing (by rw [(h.ending hend).1]; exact Bool.false_ne_true))
        id h.closed

/-- `OnFrame` goes on where the encoder has nothing to do. -/
theorem Serves.stepCapture (h : s.Serves) (b : Bool)
    (hinit : ∀ f, s.session.capture ≠ .initializing f)
    (hready : ∀ f, s.session.capture ≠ .ready f) :
    Serves { s with session := s.session.step (.capture b) } := by
  have hgoes : ∀ {t : Session L}, t.emitted = s.session.emitted →
      t.encoderReady = s.session.encoderReady →
      (t.encoderReady = true → t.config = s.session.config) →
      s.session.capture ≠ .idle → ¬ s.session.capture.Calling → ¬ t.capture.Calling →
      (∀ f, t.capture = .initializing f → t.encoderReady = false) →
      (t.capture.Equipped → t.encoderReady = true) → t.run = s.session.run →
      Serves { s with session := t } := by
    intro t hemitted hsame hconfig hne hout hout' hinitializing hequipped hrun
    refine h.withSession hemitted hsame hconfig (Or.inr ⟨hout, hout'⟩) hinitializing hequipped
      (fun hend => absurd (h.ending (hrun ▸ hend)).2 hne) (fun hend => hrun ▸ hend)
      (fun hend => h.closed (hrun ▸ hend))
  rcases s.session.step_cases (.capture b) with hidle | hmove
  · rwa [hidle]
  generalize s.session.step (.capture b) = t at hmove ⊢
  cases hmove with
  | turnedAway b f hat hrunning =>
      exact hgoes rfl rfl (fun _ => rfl) (by rw [hat]; rintro ⟨⟩) (by rw [hat]; exact id) id
        (by rintro _ ⟨⟩) False.elim rfl
  | prepared b f hat hrunning hon =>
      exact hgoes rfl rfl (fun _ => rfl) (by rw [hat]; rintro ⟨⟩) (by rw [hat]; exact id) id
        (by rintro _ ⟨⟩) (fun _ => hon) rfl
  | setUp b f hat hrunning hoff =>
      exact hgoes rfl rfl (fun hon => absurd (hoff.symm.trans hon) Bool.false_ne_true)
        (by rw [hat]; rintro ⟨⟩) (by rw [hat]; exact id) id (fun _ _ => hoff) False.elim rfl
  | initializeFailed b hat =>
      exact hgoes rfl rfl (fun _ => rfl) (by rw [hat]; rintro ⟨⟩) (by rw [hat]; exact id) id
        (by rintro _ ⟨⟩) False.elim rfl
  | initialized f hat => exact absurd hat (hinit f)
  | initializeRefused f hat => exact absurd hat (hinit f)
  | exchange b f hat => exact absurd hat (hready f)

/-- The steps in which the encoder has no part. -/
theorem Serves.stepSession (h : s.Serves) (a : Act) : (s.stepSession a).Serves := by
  cases a with
  | run b =>
      show Serves { s with session := s.session.step (.run b), encoder := if _ then _ else _ }
      by_cases hrun : s.session.run = .shutdownEncoder
      · by_cases hsending : s.session.sending .run = false
        · have hstep : s.session.step (.run b) =
              { s.session with encoder := none, run := .joining } := by
            simp [Session.step, Session.stepRun, hsending, hrun]
          rw [hstep, if_pos ⟨hrun, hsending⟩]
          exact h.shutdown hrun
        · have hstep : s.session.step (.run b) = s.session := by
            simp [Session.step, Session.stepRun, Bool.eq_true_of_not_eq_false hsending]
          rw [hstep, if_neg fun hboth => hsending hboth.2]
          exact h
      · rw [if_neg fun hboth => hrun hboth.1]
        exact h.stepRun b hrun
  | capture b =>
      unfold HostEncoder.stepSession
      dsimp only
      cases hat : s.session.capture with
      | initializing f => exact h
      | ready f => exact h
      | idle | entered f | initializeFailed | encoding f idr n =>
          exact h.stepCapture b (by rw [hat]; rintro _ ⟨⟩) (by rw [hat]; rintro _ ⟨⟩)
  | deliver f => exact h.stepDeliver f
  | packet p => exact h
  | encoded => exact h
  | send t a => exact h.stays rfl rfl rfl rfl rfl rfl
  | stop =>
      show Serves { s with session := s.session.step .stop }
      rcases s.session.step_cases .stop with hidle | hmove
      · rwa [hidle]
      generalize s.session.step .stop = t at hmove ⊢
      cases hmove <;> exact h.stays rfl rfl rfl rfl rfl rfl
  | recv r =>
      show Serves { s with session := s.session.step (.recv r) }
      rcases s.session.step_cases (.recv r) with hidle | hmove
      · rwa [hidle]
      generalize s.session.step (.recv r) = t at hmove ⊢
      cases hmove <;> exact h.stays rfl rfl rfl rfl rfl rfl
  | control =>
      show Serves { s with session := s.session.step .control }
      rcases s.session.step_cases .control with hidle | hmove
      · rwa [hidle]
      generalize s.session.step .control = t at hmove ⊢
      cases hmove <;> exact h.stays rfl rfl rfl rfl rfl rfl

/-! ### Steps of the encoder -/

/-- `encoder_.Initialize`, which is called at most once and before there are packets. -/
theorem Serves.setUp (h : s.Serves) {f : CapturedFrame}
    (hat : s.session.capture = .initializing f) {status : EncodeStatus} {e : NvencEncoder}
    (hprepared : e.Prepared s.encoder.shutdown.records s.session.config status) :
    Serves { s with session := s.session.step (.capture (status = .ok)), encoder := e } := by
  have hoff := h.initializing f hat
  obtain ⟨-, hhanded⟩ := h.idle (by rw [hat]; exact id)
  have hrun := h.not_ending (by rw [hat]; rintro ⟨⟩)
  obtain ⟨-, -, hunits, hdelivered⟩ :=
    records_eq_iff.mp (hprepared.records_eq.trans s.encoder.records_shutdown)
  have hbefore := h.delivered
  rw [if_neg (by rw [hhanded]; exact Bool.false_ne_true)] at hbefore
  have hnone : e.units = [] := hunits.trans (h.fresh hoff)
  have hempty : e.delivered = [] := by
    rw [hdelivered, hbefore, h.fresh hoff]
    rfl
  have hnew : ∀ t : Session L, t.emitted = s.session.emitted → t.run = s.session.run →
      ¬ t.capture.Calling → (∀ f, t.capture ≠ .initializing f) →
      (t.capture.Equipped → t.encoderReady = true) →
      (t.encoderReady = true → status = .ok ∧ t.config = s.session.config) →
      Serves { s with session := t, encoder := e } := by
    intro t hemitted hsame hout hinit hequipped hon
    exact {
      sound := hprepared.sound
      numbered := h.numbered.shutdown.of_records hprepared.records_eq
      ending := fun hend => absurd (hsame ▸ hend) hrun
      initializing := fun f hf => absurd hf (hinit f)
      equipped := hequipped
      ready := fun hready _ => by
        obtain ⟨hok, hconfig⟩ := hon hready
        exact ⟨hprepared.initialized.mpr hok, (hprepared.cfg_eq hok).trans hconfig.symm⟩
      fresh := fun _ => hnone
      idle := fun _ => ⟨hprepared.idle, hhanded⟩
      frame := fun f idr n hcall => absurd (show t.capture.Calling by rw [hcall]; trivial) hout
      closed := fun hend => by
        rw [show t.run = s.session.run from hsame] at hend
        exact absurd (ending_of_over hend) hrun
      one := ⟨e.sessions, fun u hu => (by rw [hnone] at hu; cases hu), fun _ _ => rfl⟩
      delivered := by
        rw [if_neg (by rw [hhanded]; exact Bool.false_ne_true), hnone, hempty]
        rfl
      emitted := by
        rw [show t.emitted = s.session.emitted from hemitted, h.emitted, hdelivered] }
  by_cases hok : status = .ok
  · have hstep : s.session.step (.capture (status = .ok)) = { s.session with
        encoder := some s.session.config, encoderReady := true, capture := .ready f } := by
      simp [Session.step, Session.stepCapture, hat, hok]
    rw [hstep]
    exact hnew _ rfl rfl id (by rintro _ ⟨⟩) (fun _ => rfl) fun _ => ⟨hok, rfl⟩
  · have hstep : s.session.step (.capture (status = .ok)) =
        { s.session with encoder := none, capture := .initializeFailed } := by
      simp [Session.step, Session.stepCapture, hat, hok]
    rw [hstep]
    exact hnew _ rfl rfl id (by rintro _ ⟨⟩) False.elim
      fun hready => absurd (hoff.symm.trans hready) Bool.false_ne_true

/-- `encoder_.Initialize` keeps it. -/
theorem Serves.stepSetUp (h : s.Serves) (device : Option ℕ) (a : InitializeAnswers) :
    (s.stepSetUp device a).Serves := by
  unfold HostEncoder.stepSetUp
  cases hat : s.session.capture with
  | initializing f =>
      have hidle := h.idle (by rw [hat]; exact id)
      exact h.setUp hat (h.sound.initializeWith hidle.1 device s.session.config a)
  | idle | entered f | ready f | initializeFailed | encoding f idr n => exact h

/-- `EncodeFrame` begins; what it is to emit is not yet counted. -/
theorem Serves.stepEncode (h : s.Serves) (texture : Bool) (a : EncodeAnswers) :
    (s.stepEncode texture a).Serves := by
  unfold HostEncoder.stepEncode
  cases hat : s.session.capture with
  | ready f =>
      obtain ⟨hidle, hhanded⟩ := h.idle (by rw [hat]; exact id)
      have hon := h.equipped (by rw [hat]; trivial)
      have hstep : s.session.step (.capture true) =
          { s.session with forceIdr := false, capture := .encoding f s.session.forceIdr 0 } := by
        simp [Session.step, Session.stepCapture, hat]
      have hsound := (h.sound.submit hidle texture f.timestamp100ns s.session.forceIdr a).1
      obtain ⟨hsame, hpending⟩ :=
        NvencEncoder.records_submit hidle texture f.timestamp100ns s.session.forceIdr a
      have hkept := NvencEncoder.settings_submit (s := s.encoder) texture f.timestamp100ns
        s.session.forceIdr a
      dsimp only
      rw [hstep]
      generalize (s.encoder.submit texture f.timestamp100ns s.session.forceIdr a).2 = e
        at hsound hsame hpending hkept ⊢
      obtain ⟨hindex, hsessions, hunits, hdelivered⟩ := records_eq_iff.mp hsame
      have hrun := h.not_ending (by rw [hat]; rintro ⟨⟩)
      exact {
        sound := hsound
        numbered := h.numbered.of_records hsame
        ending := fun hend => absurd hend hrun
        initializing := by rintro _ ⟨⟩
        equipped := fun _ => hon
        ready := fun _ _ => by
          obtain ⟨hinit, hcfg⟩ := h.ready hon hrun
          exact ⟨hkept.1.trans hinit, hkept.2.trans hcfg⟩
        fresh := fun hoff => absurd (hoff.symm.trans hon) Bool.false_ne_true
        idle := fun hout => absurd trivial hout
        frame := fun f' idr n hcall p hp => by
          cases hcall
          rw [hindex]
          exact hpending p hp
        closed := fun hend => absurd (ending_of_over hend) hrun
        one := by
          obtain ⟨n, hall, hcurrent⟩ := h.one
          exact ⟨n, hunits ▸ hall, fun _ _ => hsessions.trans (hcurrent hon hrun)⟩
        delivered := by
          have hbefore := h.delivered
          rw [if_neg (by rw [hhanded]; exact Bool.false_ne_true)] at hbefore ⊢
          rw [hdelivered, hunits]
          exact hbefore
        emitted := by
          rw [hdelivered]
          exact h.emitted }
  | idle | entered f | initializing f | initializeFailed | encoding f idr n => exact h

/-- While a frame is encoded the encoder is set up, and `Run` has not come to its end. -/
theorem Serves.encoding (h : s.Serves) {f : CapturedFrame} {idr : Bool} {n : ℕ}
    (hat : s.session.capture = .encoding f idr n) :
    s.session.encoderReady = true ∧ ¬ s.session.run.Ending :=
  ⟨h.equipped (by rw [hat]; trivial), h.not_ending (by rw [hat]; rintro ⟨⟩)⟩

/-- The callback is called. -/
theorem Serves.stepPacket (h : s.Serves) : s.stepPacket.Serves := by
  unfold HostEncoder.stepPacket
  cases hat : s.session.capture with
  | encoding f idr n =>
      cases hpacket : s.encoder.encoding.bind Encode.Nvenc.Encoding.packet with
      | none => exact h
      | some p =>
          dsimp only
          split
          · exact h
          · next hfree =>
            obtain ⟨hhanded, hsending⟩ := not_or.mp hfree
            rw [Bool.not_eq_true] at hhanded hsending
            obtain ⟨hon, hrun⟩ := h.encoding hat
            have hpending : s.encoder.pending = [p] := by
              rw [NvencEncoder.pending, hpacket]
              rfl
            have hcallback : s.encoder.callback =
                { s.encoder.use .locked with delivered := s.encoder.delivered ++ [p] } := by
              simp [NvencEncoder.callback, hpacket]
            have hsound := h.sound.callback
            have hstamp := h.frame f idr n hat p (by rw [hpending]; exact List.mem_singleton_self p)
            have hbefore := h.delivered
            rw [if_neg (by rw [hhanded]; exact Bool.false_ne_true), List.append_nil] at hbefore
            have hstep : s.session.step (.packet p.toEncodedPacket) =
                { s.session.send .capture (.videoFrame (Core.buildVideoFrame s.session.config.codec
                    p.isKeyframe f.timestamp100ns s.session.seq p.data)) with
                  seq := s.session.seq + 1
                  capture := .encoding f idr (n + 1)
                  emitted := s.session.emitted ++ [⟨s.session.calls, f, p.toEncodedPacket⟩] } := by
              simp [Session.step, Session.stepPacket, hat, hsending]
            rw [hstep]
            rw [hcallback] at hsound ⊢
            exact {
              sound := hsound
              numbered := ⟨h.numbered.past, h.numbered.count, h.numbered.numbered⟩
              ending := fun hend => absurd hend hrun
              initializing := by rintro _ ⟨⟩
              equipped := fun _ => hon
              ready := h.ready
              fresh := h.fresh
              idle := fun hout => absurd trivial hout
              frame := fun f' idr' n' hcall => by
                cases hcall
                exact h.frame f idr n hat
              closed := fun hend => absurd (ending_of_over hend) hrun
              one := h.one
              delivered := by
                show s.encoder.delivered ++ [p] =
                  s.encoder.units.map Encode.Nvenc.AccessUnit.packet ++ s.encoder.pending
                rw [hpending, hbefore]
              emitted := by
                rw [List.map_append, List.map_append, h.emitted]
                simp only [List.map_cons, List.map_nil, hstamp.1] }
  | idle | entered f | initializing f | ready f | initializeFailed => exact h

/-- What the encoder is left with when `EncodeFrame` returns. -/
theorem records_encoded (e : NvencEncoder) :
    (if e.encoding.isSome then e.finish else e).records =
      (e.frameIndex + UInt64.ofNat e.pending.length, e.sessions,
        e.units ++ e.pending.map (Encode.Nvenc.AccessUnit.mk e.sessions), e.delivered) := by
  split
  · exact e.records_finish
  · next hidle =>
      have hnone : e.pending = [] := by
        rw [NvencEncoder.pending, Option.not_isSome_iff_eq_none.mp hidle]
        rfl
      simp [hnone, NvencEncoder.records]

/-- `EncodeFrame` returns. -/
theorem Serves.stepEncoded (h : s.Serves) : s.stepEncoded.Serves := by
  unfold HostEncoder.stepEncoded
  cases hat : s.session.capture with
  | encoding f idr n =>
      dsimp only
      split
      · exact h
      · next hfree =>
        obtain ⟨hsending, hdone⟩ := not_or.mp hfree
        rw [Bool.not_eq_true] at hsending
        obtain ⟨hon, hrun⟩ := h.encoding hat
        have hstep : s.session.step .encoded = { s.session with capture := .idle } := by
          simp [Session.step, Session.stepEncoded, hat, hsending]
        have hone : s.encoder.pending.length ≤ 1 := by
          unfold NvencEncoder.pending
          cases s.encoder.encoding.bind Encode.Nvenc.Encoding.packet <;> simp
        have hrecords := records_encoded s.encoder
        have hnumbered := (h.numbered.extend hone (fun p hp => (h.frame f idr n hat p hp).2)
          s.encoder.delivered).of_records hrecords
        have hsound : (if s.encoder.encoding.isSome then s.encoder.finish
            else s.encoder).Sound := by
          split
          · exact h.sound.finish
          · exact h.sound
        have hidle : (if s.encoder.encoding.isSome then s.encoder.finish
            else s.encoder).encoding = none := by
          split
          · rfl
          · next hnone => exact Option.not_isSome_iff_eq_none.mp hnone
        have hkept : (if s.encoder.encoding.isSome then s.encoder.finish
            else s.encoder).initialized = s.encoder.initialized ∧
              (if s.encoder.encoding.isSome then s.encoder.finish else s.encoder).cfg =
                s.encoder.cfg := by
          split
          · exact ⟨s.encoder.settings_finish.1, s.encoder.settings_finish.2.1⟩
          · exact ⟨rfl, rfl⟩
        obtain ⟨-, hsessions, hunits, hdelivered⟩ := records_eq_iff.mp hrecords
        rw [hstep]
        generalize (if s.encoder.encoding.isSome then s.encoder.finish else s.encoder) = e
          at hnumbered hsound hidle hkept hsessions hunits hdelivered ⊢
        obtain ⟨m, hall, hcurrent⟩ := h.one
        exact {
          sound := hsound
          numbered := hnumbered
          ending := fun hend => absurd hend hrun
          initializing := by rintro _ ⟨⟩
          equipped := False.elim
          ready := fun hon' hrun' => by
            obtain ⟨hinit, hcfg⟩ := h.ready hon' hrun'
            exact ⟨hkept.1.trans hinit, hkept.2.trans hcfg⟩
          fresh := fun hoff => absurd (hoff.symm.trans hon) Bool.false_ne_true
          idle := fun _ => ⟨hidle, rfl⟩
          frame := by rintro _ _ _ ⟨⟩
          closed := fun hend => absurd (ending_of_over hend) hrun
          one := by
            refine ⟨m, fun u hu => ?_, fun _ _ => hsessions.trans (hcurrent hon hrun)⟩
            rw [hunits] at hu
            rcases List.mem_append.mp hu with hu | hu
            · exact hall u hu
            · obtain ⟨p, -, rfl⟩ := List.mem_map.mp hu
              exact hcurrent hon hrun
          delivered := by
            have hsame : (s.encoder.pending.map (Encode.Nvenc.AccessUnit.mk s.encoder.sessions)).map
                Encode.Nvenc.AccessUnit.packet = s.encoder.pending := by
              rw [List.map_map]
              exact List.map_id _
            rw [hdelivered, hunits, List.map_append, hsame, h.delivered]
            show _ = _ ++ []
            rw [List.append_nil]
            cases hhanded : s.handed with
            | true => rfl
            | false =>
                have hnone : s.encoder.pending = [] := by
                  by_contra hsome
                  exact hdone ⟨hhanded, hsome⟩
                rw [hnone]
                rfl
          emitted := by
            rw [hdelivered]
            exact h.emitted }
  | idle | entered f | initializing f | ready f | initializeFailed => exact h

/-- **One step**, of whichever part. -/
theorem Serves.step (h : s.Serves) (st : Step) : (s.step st).Serves := by
  cases st with
  | session a => exact h.stepSession a
  | setUp device a => exact h.stepSetUp device a
  | encode texture a => exact h.stepEncode texture a
  | packet => exact h.stepPacket
  | encoded => exact h.stepEncoded

/-- It holds in all states of a run. -/
theorem serves_after (link : L.State) (config : EncoderConfig) (steps : List Step) :
    (after link config steps).Serves :=
  Runs.exec_preserves (fun _ st h => h.step st) (serves_start link config) steps

/-! ## What the encoder does for the session -/

/-- What a run comes to. -/
structure Served (s : HostEncoder L) : Prop where
  /-- No handle of the driver is used that is not held, and none is lost. -/
  orderly : s.encoder.handles.Orderly Handle.needs
  /-- A frame is encoded by an encoder that is set up for the session's format. -/
  prepared : ∀ f, s.session.capture = .ready f → s.encoder.initialized = true ∧
    s.encoder.params = some (initializeParams s.session.config)
  /-- Each packet leaves as it comes, with its frame's timestamp, and in its place. -/
  emitted : ∀ i e, s.session.emitted[i]? = some e → ∃ p, s.encoder.delivered[i]? = some p ∧
    e.packet = p.toEncodedPacket ∧ p.timestamp = e.frame.timestamp100ns ∧
      p.frameIndex = UInt64.ofNat i
  /-- When `Run` has returned, everything has been given back. -/
  returned : s.session.run = .returned →
    ∀ k, acquisitions k s.encoder.handles.log = releases k s.encoder.handles.log

/-- The packets are numbered as they come. -/
theorem Serves.frameIndex (h : s.Serves) :
    s.encoder.delivered.map Packet.frameIndex =
      (List.range s.encoder.delivered.length).map UInt64.ofNat := by
  obtain ⟨n, hall, hcurrent⟩ := h.one
  have hof : s.encoder.unitsOf n = s.encoder.units.map Encode.Nvenc.AccessUnit.packet := by
    rw [NvencEncoder.unitsOf, List.filter_eq_self.mpr fun u hu => decide_eq_true (hall u hu)]
  have hunits := h.numbered.numbered n
  rw [hof] at hunits
  rw [h.delivered]
  cases hhanded : s.handed with
  | false =>
      rw [if_neg Bool.false_ne_true, List.append_nil]
      exact hunits
  | true =>
      -- the packet of the frame that is encoded has the next number
      rw [if_pos rfl]
      cases hpending : s.encoder.pending with
      | nil =>
          rw [List.append_nil]
          exact hunits
      | cons p ps =>
          obtain ⟨f, idr, m, hat⟩ : ∃ f idr m, s.session.capture = .encoding f idr m := by
            cases hcapture : s.session.capture with
            | encoding f idr m => exact ⟨f, idr, m, rfl⟩
            | _ =>
                have hidle := (h.idle (by rw [hcapture]; exact id)).2
                rw [hhanded] at hidle
                cases hidle
          obtain ⟨hon, hrun⟩ := h.encoding hat
          have hone : ps = [] := by
            unfold NvencEncoder.pending at hpending
            cases hpacket : s.encoder.encoding.bind Encode.Nvenc.Encoding.packet with
            | none =>
                rw [hpacket] at hpending
                cases hpending
            | some q =>
                rw [hpacket] at hpending
                exact (List.cons.inj hpending).2.symm
          have hnext : p.frameIndex = UInt64.ofNat (s.encoder.unitsOf n).length := by
            rw [(h.frame f idr m hat p (by rw [hpending]; exact List.mem_cons_self)).2,
              ← hcurrent hon hrun]
            exact h.numbered.count
          rw [hone, List.map_append, hunits, List.length_append, List.range_add, List.map_append]
          congr 1
          rw [hof] at hnext
          simp [hnext]

/-- What it says of each call of the encoder. -/
theorem Serves.served (h : s.Serves) : s.Served where
  orderly := h.sound.orderly
  prepared f hat := by
    have hon := h.equipped (by rw [hat]; trivial)
    have hrun := h.not_ending (by rw [hat]; rintro ⟨⟩)
    obtain ⟨hinit, hcfg⟩ := h.ready hon hrun
    exact ⟨hinit, by rw [h.sound.params hinit, hcfg]⟩
  emitted i e he := by
    have hmap : (s.encoder.delivered.map fun p => (p.toEncodedPacket, p.timestamp))[i]? =
        some (e.packet, e.frame.timestamp100ns) := by
      rw [← h.emitted, List.getElem?_map, he]
      rfl
    rw [List.getElem?_map, Option.map_eq_some_iff] at hmap
    obtain ⟨p, hp, hsame⟩ := hmap
    obtain ⟨hpacket, hstamp⟩ := Prod.mk.inj hsame
    have hindex : (s.encoder.delivered.map Packet.frameIndex)[i]? = some p.frameIndex := by
      rw [List.getElem?_map, hp]
      rfl
    obtain ⟨hlt, -⟩ := List.getElem?_eq_some_iff.mp hp
    rw [h.frameIndex, List.getElem?_map, List.getElem?_range hlt] at hindex
    exact ⟨p, hp, hpacket.symm, hstamp, (Option.some.inj hindex).symm⟩
  returned hrun := (h.closed (Or.inr hrun)).all_released

/-- **The encoder serves the session**, whatever the driver answers and in whatever order the
threads go on. -/
theorem encoder_served (link : L.State) (config : EncoderConfig) (steps : List Step) :
    (after link config steps).Served :=
  (serves_after link config steps).served

/-! ## Keyframes -/

/-- The driver encodes the picture, gives a packet for it, and makes it an IDR picture where one
is forced and nowhere else. -/
def Gives (forced : Bool) (a : EncodeAnswers) : Prop :=
  a.mapped.isSome ∧ a.picture = .success ∧ a.locked.map (fun l => decide (l.2 = .idr)) = some forced

instance (forced : Bool) (a : EncodeAnswers) : Decidable (Gives forced a) :=
  inferInstanceAs (Decidable (_ ∧ _ ∧ _))

/-- The driver keeps its promise, and no request is handled between the beginning of an
`OnFrame` call and its exchange. -/
def Prompt (s : HostEncoder L) : Step → Prop
  | .encode texture a => s.session.capture.atExchange = true →
      texture = true ∧ Gives s.session.forceIdr a ∧ ∀ n ∈ s.session.requests, n < s.session.calls
  | _ => True

instance (s : HostEncoder L) : ∀ st, Decidable (s.Prompt st)
  | .encode texture a => inferInstanceAs (Decidable (s.session.capture.atExchange = true →
      texture = true ∧ Gives s.session.forceIdr a ∧ ∀ n ∈ s.session.requests, n < s.session.calls))
  | .session _ | .setUp _ _ | .packet | .encoded => inferInstanceAs (Decidable True)

/-- What is encoded has its packet, a keyframe if one is forced. -/
def Answering (s : HostEncoder L) : Prop :=
  ∀ f idr n, s.session.capture = .encoding f idr n →
    (s.encoder.pending.map fun p => p.isKeyframe) = [idr] ∧ (s.handed = true → 0 < n)

/-- A submission that the driver serves leaves one packet, a keyframe if it was asked for. -/
theorem pending_submit {e : NvencEncoder} (hinit : e.initialized = true) {forced : Bool}
    {a : EncodeAnswers} (hgives : Gives forced a) (timestamp : UInt64) :
    ((e.submit true timestamp forced a).2.pending.map fun p => p.isKeyframe) = [forced] := by
  obtain ⟨hmapped, hpicture, hlocked⟩ := hgives
  obtain ⟨mapped, hmapped⟩ := Option.isSome_iff_exists.mp hmapped
  obtain ⟨⟨data, type⟩, hlocked, hidr⟩ := Option.map_eq_some_iff.mp hlocked
  simp only [NvencEncoder.submit, hinit, hmapped, hpicture, NvencEncoder.lockBitstream, hlocked]
  exact congrArg (fun b => [b]) hidr

/-- The session stays where it is, or takes a step that keeps to the encoder's contract. -/
def Goes (t u : Session L) : Prop :=
  u = t ∨ ∃ a, u = t.step a ∧ t.EncoderContract a ∧ t.Prompt a

/-- **A step of the two is a step of the session** that keeps to the contract. -/
theorem Answering.session_step (h : s.Answering) {st : Step} (hprompt : s.Prompt st) :
    Goes s.session (s.step st).session := by
  rcases s.session_cases st with hsame | ⟨a, hpart, hstep⟩
  · exact Or.inl hsame
  refine Or.inr ⟨a, hstep, ?_⟩
  cases hpart with
  | alone a hcapture hpacket hencoded =>
      cases a with
      | capture b =>
          refine ⟨trivial, fun hexchange => ?_⟩
          have hout := hcapture b rfl
          cases hat : s.session.capture with
          | ready f => exact absurd hat (hout f).2
          | _ =>
              rw [hat] at hexchange
              cases hexchange
      | packet p => exact absurd rfl (hpacket p)
      | encoded => exact absurd rfl hencoded
      | _ => exact ⟨trivial, trivial⟩
  | setUp device a f hat =>
      refine ⟨trivial, fun hexchange => ?_⟩
      rw [hat] at hexchange
      cases hexchange
  | encode texture a f hat => exact ⟨trivial, fun hexchange => (hprompt hexchange).2.2⟩
  | packet p f idr n hat hpacket =>
      refine ⟨fun e he => ?_, trivial⟩
      rw [hat] at he
      obtain rfl := Option.some.inj he
      have hkey := (h f idr n hat).1
      rw [NvencEncoder.pending, hpacket] at hkey
      exact (List.cons.inj hkey).1
  | encoded f idr n hat hfree =>
      refine ⟨trivial, fun e he _ _ => ?_⟩
      rw [hat] at he
      obtain rfl := Option.some.inj he
      obtain ⟨hkey, hcount⟩ := h f idr n hat
      refine hcount (Bool.eq_true_of_not_eq_false fun hhanded => hfree (Or.inr ⟨hhanded, ?_⟩))
      intro hnone
      rw [hnone] at hkey
      cases hkey

/-- Only a call of `EncodeFrame` leads into it. -/
theorem encoding_step {t : Session L} {a : Act}
    (hexchange : ∀ b f, a = .capture b → t.capture ≠ .ready f)
    (hpacket : ∀ p, a ≠ .packet p) {f : CapturedFrame} {idr : Bool} {n : ℕ}
    (h : (t.step a).capture = .encoding f idr n) : t.capture = .encoding f idr n := by
  rcases t.step_cases a with hidle | hmove
  · rwa [hidle] at h
  generalize t.step a = u at hmove h
  cases hmove with
  | exchange b f' hat => exact absurd hat (hexchange b f' rfl)
  | packet p f' idr' m => exact absurd rfl (hpacket p)
  | deliver | turnedAway | prepared | setUp | initialized | initializeRefused | initializeFailed
  | encoded => cases h
  | _ => exact h

/-- Every packet is what a call of `EncodeFrame` has locked. -/
theorem Serves.data_step (h : s.Serves) {st : Step} {p : Packet}
    (hp : p ∈ (s.step st).encoder.pending) :
    p ∈ s.encoder.pending ∨ ∃ texture a type, st = .encode texture a ∧
      a.locked = some (p.data, type) := by
  obtain ⟨f, idr, n, hcall⟩ : ∃ f idr n, (s.step st).session.capture = .encoding f idr n := by
    cases hcapture : (s.step st).session.capture with
    | encoding f idr n => exact ⟨f, idr, n, rfl⟩
    | _ =>
        rw [NvencEncoder.pending, ((h.step st).idle (by rw [hcapture]; exact id)).1] at hp
        cases hp
  cases st with
  | session a =>
      refine Or.inl ?_
      cases a with
      | run b =>
          have hat := encoding_step (a := .run b) (by rintro _ _ ⟨⟩) (by rintro _ ⟨⟩) hcall
          have hsame : (s.step (.session (.run b))).encoder = s.encoder := by
            refine if_neg fun hboth => ?_
            rw [(h.ending (by rw [hboth.1]; trivial)).2] at hat
            cases hat
          rwa [hsame] at hp
      | capture b =>
          revert hp
          show p ∈ (s.stepSession (.capture b)).encoder.pending → _
          unfold HostEncoder.stepSession
          dsimp only
          cases s.session.capture <;> exact id
      | _ => exact hp
  | setUp device a =>
      revert hp hcall
      show p ∈ (s.stepSetUp device a).encoder.pending →
        (s.stepSetUp device a).session.capture = _ → _
      unfold HostEncoder.stepSetUp
      cases hat : s.session.capture with
      | initializing f' =>
          intro _ hcall
          have hbefore := encoding_step (fun _ _ _ => by rw [hat]; rintro ⟨⟩) (by rintro _ ⟨⟩) hcall
          cases hat.symm.trans hbefore
      | _ => exact fun hp _ => Or.inl hp
  | encode texture a =>
      revert hp
      show p ∈ (s.stepEncode texture a).encoder.pending → _
      unfold HostEncoder.stepEncode
      cases s.session.capture with
      | ready f' =>
          intro hp
          rcases NvencEncoder.data_submit _ _ _ _ hp with hold | ⟨type, hlocked⟩
          · exact Or.inl hold
          · exact Or.inr ⟨texture, a, type, rfl, hlocked⟩
      | _ => exact Or.inl
  | packet =>
      refine Or.inl ?_
      revert hp
      show p ∈ s.stepPacket.encoder.pending → _
      unfold HostEncoder.stepPacket
      split
      · split
        · exact id
        · rw [show s.encoder.callback.pending = _ from s.encoder.records_callback.2]
          exact id
      · exact id
  | encoded =>
      refine Or.inl ?_
      revert hp
      show p ∈ s.stepEncoded.encoder.pending → _
      unfold HostEncoder.stepEncoded
      split
      · split
        · exact id
        · dsimp only
          split
          · exact fun hp => absurd hp List.not_mem_nil
          · exact id
      · exact id

/-- **One step keeps it**, if the driver serves and the exchange is prompt. -/
theorem Answering.step (hserves : s.Serves) (h : s.Answering) {st : Step}
    (hprompt : s.Prompt st) : (s.step st).Answering := by
  -- where the session goes on alone, a call of `EncodeFrame` is as it was
  have hsession : ∀ {t : HostEncoder L} {a : Act}, t.session = s.session.step a →
      (∀ b f, a = .capture b → s.session.capture ≠ .ready f) → (∀ p, a ≠ .packet p) →
      (s.session.capture.Calling → t.encoder = s.encoder ∧ t.handed = s.handed) →
      t.Answering := by
    intro t a hstep hexchange hpacket hsame f idr n hat
    have hat' := encoding_step hexchange hpacket (hstep ▸ hat)
    obtain ⟨hencoder, hhanded⟩ := hsame (by rw [hat']; trivial)
    rw [hencoder, hhanded]
    exact h f idr n hat'
  cases st with
  | session a =>
      cases a with
      | capture b =>
          show (s.stepSession (.capture b)).Answering
          unfold stepSession
          dsimp only
          cases hat : s.session.capture with
          | initializing f | ready f => exact h
          | idle | entered f | initializeFailed | encoding f idr n =>
              exact hsession (a := .capture b) rfl (fun _ _ _ => by rw [hat]; rintro ⟨⟩)
                (by rintro _ ⟨⟩) fun _ => ⟨rfl, rfl⟩
      | packet p => exact h
      | encoded => exact h
      | run b =>
          refine hsession (a := .run b) rfl (by rintro _ _ ⟨⟩) (by rintro _ ⟨⟩) fun hcalling => ?_
          refine ⟨if_neg fun hboth => ?_, rfl⟩
          have hcapture := (hserves.ending (by rw [hboth.1]; trivial)).2
          rw [hcapture] at hcalling
          exact hcalling
      | send t a =>
          exact hsession (a := .send t a) rfl (by rintro _ _ ⟨⟩) (by rintro _ ⟨⟩)
            fun _ => ⟨rfl, rfl⟩
      | deliver f =>
          exact hsession (a := .deliver f) rfl (by rintro _ _ ⟨⟩) (by rintro _ ⟨⟩)
            fun _ => ⟨rfl, rfl⟩
      | control =>
          exact hsession (a := .control) rfl (by rintro _ _ ⟨⟩) (by rintro _ ⟨⟩)
            fun _ => ⟨rfl, rfl⟩
      | recv r =>
          exact hsession (a := .recv r) rfl (by rintro _ _ ⟨⟩) (by rintro _ ⟨⟩)
            fun _ => ⟨rfl, rfl⟩
      | stop =>
          exact hsession (a := .stop) rfl (by rintro _ _ ⟨⟩) (by rintro _ ⟨⟩)
            fun _ => ⟨rfl, rfl⟩
  | setUp device a =>
      show (s.stepSetUp device a).Answering
      unfold stepSetUp
      cases hat : s.session.capture with
      | initializing f =>
          refine hsession (a := .capture _) rfl (fun _ _ _ => by rw [hat]; rintro ⟨⟩)
            (by rintro _ ⟨⟩) fun hcalling => ?_
          rw [hat] at hcalling
          exact hcalling.elim
      | idle | entered f | ready f | initializeFailed | encoding f idr n => exact h
  | encode texture a =>
      show (s.stepEncode texture a).Answering
      unfold stepEncode
      cases hat : s.session.capture with
      | ready f =>
          obtain ⟨rfl, hgives, -⟩ := hprompt (by rw [hat]; rfl)
          have hon := hserves.equipped (by rw [hat]; trivial)
          have hrun := hserves.not_ending (by rw [hat]; rintro ⟨⟩)
          have hstep : (s.session.step (.capture true)).capture =
              .encoding f s.session.forceIdr 0 := by
            simp [Session.step, Session.stepCapture, hat]
          have hidle := (hserves.idle (by rw [hat]; exact id)).2
          intro f' idr n hcall
          cases hstep.symm.trans hcall
          refine ⟨pending_submit (hserves.ready hon hrun).1 hgives f.timestamp100ns, ?_⟩
          show s.handed = true → _
          rw [hidle]
          exact fun h => absurd h Bool.false_ne_true
      | idle | entered f | initializing f | initializeFailed | encoding f idr n => exact h
  | packet =>
      show s.stepPacket.Answering
      unfold stepPacket
      cases hat : s.session.capture with
      | encoding f idr n =>
          cases hpacket : s.encoder.encoding.bind Encode.Nvenc.Encoding.packet with
          | none => exact h
          | some p =>
              dsimp only
              split
              · exact h
              · next hfree =>
                have hsending := Bool.eq_false_of_not_eq_true (not_or.mp hfree).2
                have hstep : (s.session.step (.packet p.toEncodedPacket)).capture =
                    .encoding f idr (n + 1) := by
                  simp [Session.step, Session.stepPacket, hat, hsending]
                intro f' idr' m hcall
                cases hstep.symm.trans hcall
                refine ⟨?_, fun _ => Nat.succ_pos n⟩
                rw [s.encoder.records_callback.2]
                exact (h f idr n hat).1
      | idle | entered f | initializing f | ready f | initializeFailed => exact h
  | encoded =>
      show s.stepEncoded.Answering
      unfold stepEncoded
      cases hat : s.session.capture with
      | encoding f idr n =>
          dsimp only
          split
          · exact h
          · next hfree =>
            have hsending := Bool.eq_false_of_not_eq_true (not_or.mp hfree).1
            have hstep : (s.session.step .encoded).capture = .idle := by
              simp [Session.step, Session.stepEncoded, hat, hsending]
            intro f' idr' m hcall
            cases hstep.symm.trans hcall
      | idle | entered f | initializing f | ready f | initializeFailed => exact h

/-- **No keyframe request is lost** over NVENC, in a run in which the driver keeps its promise and
no request comes between the beginning of an `OnFrame` call and its exchange. -/
theorem requests_kept (link : L.State) (config : EncoderConfig) (steps : List Step)
    (h : Runs.Admits step Prompt (start link config) steps) :
    (after link config steps).session.KeyframesKept := by
  have hall := Runs.exec_invariant
    (P := fun s : HostEncoder L => s.Serves ∧ s.Answering ∧ s.session.Requested link config)
    (fun s st h hprompt => by
      obtain ⟨hserves, hanswering, hrequested⟩ := h
      refine ⟨hserves.step st, hanswering.step hserves hprompt, ?_⟩
      rcases hanswering.session_step hprompt with hsame | ⟨a, hstep, hcontract, hasks⟩
      · rwa [hsame]
      · rw [hstep]
        exact hrequested.step hcontract hasks)
    ⟨serves_start link config, by rintro _ _ _ ⟨⟩, Session.requested_start link config⟩ h
  exact fun n hn => (hall.2.2.pending n hn).answered

/-- A keyframe for the beginning of the session, a delta, and a keyframe that is asked for. -/
theorem requests_kept_request :
    let frame (a : EncodeAnswers) : List Step :=
      [.session (.deliver {}), .session (.capture true), .encode true a, .packet] ++
        (Core.Session.sends .capture).map .session ++ [.encoded]
    let idr : EncodeAnswers := { locked := some ([1], .idr) }
    let request : List Act := [.control,
      .recv (.data (Protocol.encode (.keyframeRequest {}))), .control, .control, .control]
    (after (L := Core.rawLink) () {} (Session.opening.map .session ++
      [.session (.deliver {}), .session (.capture true), .setUp (some 1) {}, .encode true idr,
        .packet] ++ (Core.Session.sends .capture).map .session ++ [.encoded] ++ frame {} ++
      request.map .session ++ frame idr)).session.KeyframesKept :=
  requests_kept (L := Core.rawLink) () {} _ (by decide +kernel)

end HostEncoder

end TetherDisplay.Streaming
