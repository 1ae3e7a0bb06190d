import TetherDisplay.Core.Keyframes

/-!
# The announced format

`Run` announces the size that the session was configured with, once.  The encoder is set up
for the size of the first frame that is handled, once.  The capture source goes on after a
change of resolution with frames of another size, which `OnFrame` does not look at: the
encoder keeps the size it has, and no FORMAT_CHANGE is sent.

As long as every frame has the size of the first, and that size is the configured one, the
three agree (`Sized`).
-/

namespace TetherDisplay.Core

open Protocol (Message Welcome)
open Encode (EncoderConfig)
open LockedSender (Wiring Sender Stage itemsBy Preceded)

/-- The format that a WELCOME or a FORMAT_CHANGE announces. -/
def format? : Message → Option Welcome
  | .welcome w => some w
  | .formatChange m => some m.format
  | _ => none

/-- The last format that has been announced. -/
def lastFormat (log : List (Thread × Outgoing)) : Option Welcome :=
  (log.filterMap fun x => format? x.2.msg).getLast?

/-- The frame has this width and this height. -/
def CapturedFrame.HasSize (f : CapturedFrame) (width height : UInt32) : Prop :=
  f.width = width ∧ f.height = height

instance (f : CapturedFrame) (width height : UInt32) : Decidable (f.HasSize width height) :=
  inferInstanceAs (Decidable (f.width = width ∧ f.height = height))

/-- The frame has the size that `Run` announces, in 16 bits. -/
def CapturedFrame.IsAnnounced (config : EncoderConfig) (f : CapturedFrame) : Prop :=
  f.HasSize config.width.toUInt16.toUInt32 config.height.toUInt16.toUInt32

instance (config : EncoderConfig) (f : CapturedFrame) : Decidable (f.IsAnnounced config) :=
  inferInstanceAs (Decidable (f.HasSize _ _))

/-- `Run` has ended the capture, and is ending the encoder. -/
def RunPoint.Ending : RunPoint → Prop
  | .shutdownEncoder | .joining | .returned => True
  | _ => False

/-- `OnFrame` has found the session running. -/
def CapturePoint.Admitted : CapturePoint → Prop
  | .idle | .entered _ => False
  | _ => True

/-- `OnFrame` has an encoder that is set up. -/
def CapturePoint.Equipped : CapturePoint → Prop
  | .ready _ | .encoding _ _ _ => True
  | _ => False

/-- If only one format has been announced, it is the last one. -/
theorem lastFormat_eq {log : List (Thread × Outgoing)} {w : Welcome}
    (hmem : ∃ x ∈ log, format? x.2.msg = some w)
    (hall : ∀ x ∈ log, ∀ w', format? x.2.msg = some w' → w' = w) : lastFormat log = some w := by
  unfold lastFormat
  cases hlast : (log.filterMap fun x => format? x.2.msg).getLast? with
  | none =>
      obtain ⟨x, hx, hw⟩ := hmem
      have hin : w ∈ log.filterMap fun x => format? x.2.msg := List.mem_filterMap.mpr ⟨x, hx, hw⟩
      rw [List.getLast?_eq_none_iff.mp hlast] at hin
      cases hin
  | some w' =>
      obtain ⟨x, hx, hw'⟩ := List.mem_filterMap.mp (List.mem_of_getLast? hlast)
      rw [hall x hx w' hw']

namespace Session

variable {L : Wiring Bytes UInt8} {link : L.State} {config : EncoderConfig} {s : Session L}

/-- The frame of the `OnFrame` call that a message belongs to. -/
def capturedFor (s : Session L) (o : Outgoing) : Option CapturedFrame := s.delivered[o.call - 1]?

/-- The encoder and the iPad know the size of every frame. -/
structure Fitted (s : Session L) : Prop where
  encoder : ∀ f idr n, s.capture = .encoding f idr n →
    ∃ cfg ∈ s.encoder, f.HasSize cfg.width cfg.height
  announced : ∀ front x back, s.sender.sent = front ++ x :: back → x.2.frameType.isSome →
    ∀ f ∈ s.capturedFor x.2, ∃ w ∈ lastFormat front,
      f.HasSize w.width.toUInt32 w.height.toUInt32

/-- A frame that comes to `EncodeFrame` has the size that `config_` holds, which is that of
the first frame; and one that the encoder makes a packet of has the size that has been
announced. -/
def Fits (config : EncoderConfig) (s : Session L) : Act → Prop
  | .capture _ => s.capture.atExchange = true →
      ∀ f ∈ s.capture.frame, f.HasSize s.config.width s.config.height
  | .packet _ => s.capture.encodes.isSome = true →
      ∀ f ∈ s.capture.frame, f.IsAnnounced config
  | _ => True

instance (config : EncoderConfig) (s : Session L) : ∀ act, Decidable (s.Fits config act)
  | .capture _ => inferInstanceAs (Decidable (s.capture.atExchange = true →
      ∀ f ∈ s.capture.frame, f.HasSize s.config.width s.config.height))
  | .packet _ => inferInstanceAs (Decidable (s.capture.encodes.isSome = true →
      ∀ f ∈ s.capture.frame, f.IsAnnounced config))
  | .send _ _ | .run _ | .deliver _ | .encoded | .control | .recv _ | .stop =>
      inferInstanceAs (Decidable True)

/-! ## The invariant -/

/-- **The invariant**: what has been sent, and is to be sent, has the size that was announced. -/
structure Sized (config : EncoderConfig) (s : Session L) : Prop where
  /-- A VIDEO_FRAME is of a frame of the announced size. -/
  frames : s.sender.Every fun _ o => o.frameType.isSome →
    ∃ f, s.capturedFor o = some f ∧ f.IsAnnounced config
  /-- Nothing but the opening WELCOME announces a format. -/
  formats : s.sender.Every fun _ o => ∀ w, format? o.msg = some w →
    openingWelcome config = .welcome w
  told : s.capture.Admitted → ∃ x ∈ s.sender.sent, x.2.msg = openingWelcome config
  preceded : Preceded (fun x : Thread × Outgoing => x.2.frameType.isSome = true)
    (fun x => x.2.msg = openingWelcome config) s.sender.sent
  ending : s.run.Ending → s.capturing = false ∧ s.capture = .idle
  encoder : s.encoderReady = true → ¬ s.run.Ending → s.encoder = some s.config
  initializing : ∀ f, s.capture = .initializing f → s.encoderReady = false
  equipped : s.capture.Equipped → s.encoderReady = true
  encoding : ∀ f idr n, s.capture = .encoding f idr n →
    f.HasSize s.config.width s.config.height

theorem sized_start (link : L.State) (config : EncoderConfig) :
    Sized config (start link config) where
  frames := ⟨fun _ _ _ h => (by cases h), fun _ h => (by cases h), fun _ h => (by cases h)⟩
  formats := ⟨fun _ _ _ h => (by cases h), fun _ h => (by cases h), fun _ h => (by cases h)⟩
  told h := h.elim
  preceded := Preceded.nil _ _
  ending h := h.elim
  encoder h := by cases h
  initializing _ h := by cases h
  equipped h := h.elim
  encoding _ _ _ h := by cases h

/-- `OnFrame` has returned when the session ends. -/
theorem Sized.not_ending (h : s.Sized config) (hne : s.capture ≠ .idle) : ¬ s.run.Ending :=
  fun hending => hne (h.ending hending).2

theorem Sized.fitted (h : s.Sized config) : s.Fitted where
  encoder f idr n hcapture := by
    have hrun : ¬ s.run.Ending := h.not_ending (by rw [hcapture]; rintro ⟨⟩)
    have hready := h.equipped (by rw [hcapture]; trivial)
    exact ⟨s.config, h.encoder hready hrun, h.encoding f idr n hcapture⟩
  announced front x back hsent hvideo f hf := by
    have hx : x ∈ s.sender.sent := by
      rw [hsent]
      exact List.mem_append_right _ List.mem_cons_self
    obtain ⟨f', hf', hsize⟩ := h.frames.sent x hx hvideo
    obtain rfl := Option.some.inj (hf'.symm.trans hf)
    obtain ⟨y, hy, hwelcome⟩ := h.preceded front x back hsent hvideo
    obtain ⟨w, hw, hwidth, hheight⟩ : ∃ w, openingWelcome config = .welcome w ∧
        w.width = config.width.toUInt16 ∧ w.height = config.height.toUInt16 := ⟨_, rfl, rfl, rfl⟩
    refine ⟨w, lastFormat_eq ⟨y, hy, by rw [hwelcome, hw]; rfl⟩ fun z hz w' hw' => ?_, ?_⟩
    · have hz' : z ∈ s.sender.sent := by
        rw [hsent]
        exact List.mem_append_left _ hz
      exact Message.welcome.inj ((h.formats.sent z hz' w' hw').symm.trans hw)
    · rw [hwidth, hheight]
      exact hsize

/-! ## The steps -/

/-- Frames of later calls do not change which frame a message belongs to. -/
theorem capturedFor_concat {o : Outgoing} {f : CapturedFrame} (h : s.capturedFor o = some f)
    (frames : List CapturedFrame) :
    (s.delivered ++ frames)[o.call - 1]? = some f := by
  obtain ⟨hlt, -⟩ := List.getElem?_eq_some_iff.mp h
  rw [List.getElem?_append_left hlt]
  exact h

/-- `OnFrame` finds the session running only after `Run` has sent its two messages. -/
theorem Sound.told (h : s.Sound link config) (hcapture : s.capture ≠ .idle)
    (hrunning : s.running = true) : ∃ x ∈ s.sender.sent, x.2.msg = openingWelcome config := by
  have hlate := h.not_beforeCapture hcapture
  have hidle : s.sending .run = false := by
    refine Bool.eq_false_of_not_eq_true fun hsending => hlate ?_
    rcases h.runSends hsending with hrun | hrun <;> rw [hrun] <;> trivial
  have hstage := stage_eq_none_of_sending hidle
  have hkept := (h.kept (Or.inr hrunning) .run).resolve_left (by rw [hstage]; rintro ⟨⟩)
  have hfifo := h.valid.fifo .run
  rw [hstage] at hfifo
  unfold Sender.Kept at hkept
  rw [hstage] at hkept
  have hsent : (itemsBy .run s.sender.sent).map Outgoing.msg =
      [openingHello config, openingWelcome config] := by
    rw [← RunPoint.announced_of_not_beforeControl fun hbefore => hlate hbefore.beforeCapture,
      ← h.announced, hfifo, hkept]
    simp [Stage.current, Stage.pending]
  have hmem : openingWelcome config ∈ (itemsBy .run s.sender.sent).map Outgoing.msg := by
    simp [hsent]
  obtain ⟨o, ho, hmsg⟩ := List.mem_map.mp hmem
  exact ⟨(.run, o), LockedSender.mem_itemsBy.mp ho, hmsg⟩

/-- A thread comes to `Send` with a message that neither shows a frame nor announces a format
but the opening one. -/
theorem Sized.hand (h : s.Sized config) (t : Thread) (msg : Message)
    (hframe : (⟨msg, s.calls⟩ : Outgoing).frameType = none)
    (hformat : ∀ w, format? msg = some w → openingWelcome config = .welcome w) :
    Sized config (s.send t msg) :=
  { h with
    frames := h.frames.hand fun hsome => absurd hsome (by rw [hframe]; decide)
    formats := h.formats.hand hformat }

/-- `Run` goes on. -/
theorem Sized.runMove (h : s.Sized config) (q : RunPoint)
    (hending : q.Ending → s.capturing = false ∧ s.capture = .idle)
    (hgone : s.run.Ending → q.Ending) : Sized config { s with run := q } :=
  { h with
    ending := hending
    encoder := fun hready hq => h.encoder hready fun hrun => hq (hgone hrun) }

/-- `OnFrame` goes on, and not to `EncodeFrame`. -/
theorem Sized.captureMove (h : s.Sized config) (q : CapturePoint) (hne : s.capture ≠ .idle)
    (htold : q.Admitted → ∃ x ∈ s.sender.sent, x.2.msg = openingWelcome config)
    (hinitializing : ∀ f, q = .initializing f → s.encoderReady = false)
    (hequipped : q.Equipped → s.encoderReady = true)
    (hencoding : ∀ f idr n, q ≠ .encoding f idr n) : Sized config { s with capture := q } :=
  { h with
    told := htold
    ending := fun hrun => absurd (h.ending hrun).2 hne
    initializing := hinitializing
    equipped := hequipped
    encoding := fun f idr n hq => absurd hq (hencoding f idr n) }

/-- `OnFrame` returns. -/
theorem Sized.captureReturns (h : s.Sized config) (hne : s.capture ≠ .idle) :
    Sized config { s with capture := .idle } :=
  h.captureMove .idle hne False.elim (by rintro _ ⟨⟩) False.elim (by rintro _ _ _ ⟨⟩)

/-- A step in `Send` keeps it. -/
theorem Sized.stepSend (hsound : s.Sound link config) (h : s.Sized config) (t : Thread)
    (a : LockedSender.Act) : (s.stepSend t a).Sized config :=
  { h with
    frames := h.frames.step t a
    formats := h.formats.step t a
    told := fun hadmitted => by
      obtain ⟨x, hx, hwelcome⟩ := h.told hadmitted
      exact ⟨x, Sender.sent_subset_step s.sender t a hx, hwelcome⟩
    preceded := by
      refine Sender.sent_preceded h.preceded (fun o hstage hvideo => ?_) a
      -- a VIDEO_FRAME is sent by a call that has found the session running
      have hspeaks := (hsound.speaks.stage t _ o hstage rfl).1
      have ht : t = .capture := by
        obtain ⟨msg, call⟩ := o
        cases t with
        | capture => rfl
        | run | control =>
            cases msg with
            | videoFrame vf => exact hspeaks.elim
            | _ => cases hvideo
      subst ht
      obtain ⟨f, idr, n, hcapture⟩ := hsound.captureSends (by rw [sending, hstage]; rfl)
      exact h.told (by rw [hcapture]; trivial) }

/-- **One step keeps it**, if the frames have the announced size. -/
theorem Sized.step (hsound : s.Sound link config) (h : s.Sized config) {act : Act}
    (hfits : s.Fits config act) : (s.step act).Sized config := by
  rcases s.step_cases act with hidle | hmove
  · rwa [hidle]
  generalize s.step act = s' at hmove ⊢
  cases hmove with
  | send t a => exact h.stepSend hsound t a
  | runCalled b hrun => exact { h.runMove .sendHello False.elim (by rw [hrun]; exact id) with }
  | sayHello b hrun hidle =>
      have hhello := h.hand .run (openingHello s.config) rfl (by rintro _ ⟨⟩)
      exact hhello.runMove .sendWelcome False.elim (by simp only [send, hrun]; exact id)
  | sayWelcome b hrun hidle =>
      have hconfig := (hsound.captureWaits (by rw [hrun]; trivial)).2.2
      have hwelcome := h.hand .run (openingWelcome s.config) rfl fun w hw => by
        rw [← hconfig]
        exact congrArg Message.welcome (Option.some.inj hw)
      exact hwelcome.runMove .startControl False.elim (by simp only [send, hrun]; exact id)
  | startControl b hrun hidle =>
      exact { h.runMove .startCapture False.elim (by rw [hrun]; exact id) with }
  | startCapture b hrun hidle =>
      exact { h.runMove .starting False.elim (by rw [hrun]; exact id) with
        ending := False.elim }
  | started hrun => exact h.runMove .waiting False.elim (by rw [hrun]; exact id)
  | startRefused hrun hcapture =>
      exact { h.runMove .startFailed False.elim (by rw [hrun]; exact id) with
        ending := False.elim }
  | startFailed b hrun => exact { h.runMove .waiting False.elim (by rw [hrun]; exact id) with }
  | leaveLoop b hrun hrunning =>
      exact h.runMove .stopCapture False.elim (by rw [hrun]; exact id)
  | stopCapture b hrun hcapture =>
      exact { h with
        ending := fun _ => ⟨rfl, hcapture⟩
        encoder := fun _ hq => absurd trivial hq }
  | shutdownEncoder b hrun =>
      exact { h with
        ending := fun _ => h.ending (by rw [hrun]; trivial)
        encoder := fun _ hq => absurd trivial hq }
  | joined b hrun hcontrol =>
      exact h.runMove .returned (fun _ => h.ending (by rw [hrun]; trivial)) fun _ => trivial
  | deliver f hcapturing hcapture =>
      exact { h with
        frames := h.frames.mono fun _ o ho hvideo => by
          obtain ⟨f', hf', hsize⟩ := ho hvideo
          exact ⟨f', capturedFor_concat hf' [f], hsize⟩
        told := False.elim
        ending := fun hrun => by
          rw [(h.ending hrun).1] at hcapturing
          cases hcapturing
        initializing := by rintro _ ⟨⟩
        equipped := False.elim
        encoding := by rintro _ _ _ ⟨⟩ }
  | turnedAway b f hcapture hrunning =>
      exact h.captureReturns (by rw [hcapture]; rintro ⟨⟩)
  | prepared b f hcapture hrunning hready =>
      have hne : s.capture ≠ .idle := by rw [hcapture]; rintro ⟨⟩
      exact h.captureMove (.ready f) hne (fun _ => hsound.told hne hrunning)
        (by rintro _ ⟨⟩) (fun _ => hready) (by rintro _ _ _ ⟨⟩)
  | setUp b f hcapture hrunning hready =>
      have hne : s.capture ≠ .idle := by rw [hcapture]; rintro ⟨⟩
      exact { h.captureMove (.initializing f) hne (fun _ => hsound.told hne hrunning)
          (fun _ _ => hready) False.elim (by rintro _ _ _ ⟨⟩) with
        encoder := fun hon _ => absurd (hready.symm.trans hon) Bool.false_ne_true
        encoding := by rintro _ _ _ ⟨⟩ }
  | initialized f hcapture =>
      exact { h with
        told := fun _ => h.told (by rw [hcapture]; trivial)
        ending := fun hrun => absurd hrun (h.not_ending (by rw [hcapture]; rintro ⟨⟩))
        encoder := fun _ _ => rfl
        initializing := by rintro _ ⟨⟩
        equipped := fun _ => rfl
        encoding := by rintro _ _ _ ⟨⟩ }
  | initializeRefused f hcapture =>
      have hunready := h.initializing f hcapture
      exact { h.captureMove .initializeFailed (by rw [hcapture]; rintro ⟨⟩)
          (fun _ => h.told (by rw [hcapture]; trivial)) (by rintro _ ⟨⟩) False.elim
          (by rintro _ _ _ ⟨⟩) with
        encoder := fun hon _ => absurd (hunready.symm.trans hon) Bool.false_ne_true }
  | initializeFailed b hcapture =>
      exact { h.captureReturns (by rw [hcapture]; rintro ⟨⟩) with }
  | exchange b f hcapture =>
      exact { h with
        told := fun _ => h.told (by rw [hcapture]; trivial)
        ending := fun hrun => absurd hrun (h.not_ending (by rw [hcapture]; rintro ⟨⟩))
        initializing := by rintro _ ⟨⟩
        equipped := fun _ => h.equipped (by rw [hcapture]; trivial)
        encoding := fun f' idr n hq => by
          cases hq
          exact hfits (by rw [hcapture]; rfl) f (by rw [hcapture]; rfl) }
  | packet p f idr n hcapture hidle =>
      have hlast : s.delivered.getLast? = some f := hsound.frame f (by rw [hcapture]; rfl)
      exact { h with
        frames := h.frames.hand fun _ => ⟨f, by rw [← hlast, List.getLast?_eq_getElem?]; rfl,
          hfits (by rw [hcapture]; rfl) f (by rw [hcapture]; rfl)⟩
        formats := h.formats.hand (by rintro _ ⟨⟩)
        told := fun _ => h.told (by rw [hcapture]; trivial)
        ending := fun hrun => absurd hrun (h.not_ending (by rw [hcapture]; rintro ⟨⟩))
        initializing := by rintro _ ⟨⟩
        equipped := fun _ => h.equipped (by rw [hcapture]; trivial)
        encoding := fun f' idr' n' hq => by
          cases hq
          exact h.encoding f idr n hcapture }
  | encoded f idr n hcapture hidle =>
      exact h.captureReturns (by rw [hcapture]; rintro ⟨⟩)
  | reply a hcontrol hpong =>
      exact { h.hand .control (.pong ⟨a.pongToken⟩) rfl (by rintro _ ⟨⟩) with }
  | _ => exact { h with }

/-- **The encoder and the iPad know the size of every frame** in a run in which each frame
that is encoded has the size of the first, and each that is sent the size that has been
announced. -/
theorem sizes_agree (link : L.State) (config : EncoderConfig) (acts : List Act)
    (h : Runs.Admits step (Fits config) (start link config) acts) :
    (after link config acts).Fitted := by
  have hall := Runs.exec_invariant
    (P := fun s : Session L => s.Sound link config ∧ s.Sized config)
    (fun _ act h hfits => ⟨h.1.step act, h.2.step h.1 hfits⟩)
    ⟨sound_start link config, sized_start link config⟩ h
  exact hall.2.fitted

/-- Two frames of the configured size. -/
theorem sizes_agree_twice :
    (after (L := rawLink) () { width := 1280, height := 720 } (opening ++
      onFrame { width := 1280, height := 720 } [⟨[1, 2], true⟩] ++
      onFrame { width := 1280, height := 720 } [⟨[3], false⟩])).Fitted :=
  sizes_agree (L := rawLink) () { width := 1280, height := 720 } _ (by decide +kernel)

/-- The display changes its resolution after the first frame: the encoder is called with a
frame of another size than it has been set up for, and the VIDEO_FRAME is sent under the old
format. -/
theorem size_changes :
    let config : EncoderConfig := { width := 1280, height := 720 }
    let changed : CapturedFrame := { width := 1920, height := 1080 }
    let acts := opening ++ onFrame { width := 1280, height := 720 } [⟨[1, 2], true⟩] ++
      [.deliver changed, .capture true, .capture true]
    let later := acts ++ (.packet ⟨[3], false⟩ :: sends .capture)
    ¬ (after (L := rawLink) () config acts).Fitted ∧
      ¬ (after (L := rawLink) () config later).Fitted := by
  intro config changed acts later
  constructor
  · intro h
    have hencoder := h.encoder changed false 0 (by decide +kernel)
    exact absurd hencoder (by decide +kernel)
  · intro h
    have hannounced := h.announced _ _ []
      (List.dropLast_append_getLast (by decide +kernel)).symm (by decide +kernel) changed
      (by decide +kernel)
    exact absurd hannounced (by decide +kernel)

end Session

end TetherDisplay.Core
