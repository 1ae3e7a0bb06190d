import TetherDisplay.Core.StreamingSession

/-!
# What holds in every run of a session

`Sound` gathers what every step of a session keeps, whatever the channel, the encoder and
the capture source do: which thread sends what and from where, what `Run` has said at each
of its points, and that an item is lost only in a refusal that clears `running_`.
-/

namespace TetherDisplay.Core

open Protocol (Message)
open Encode (EncoderConfig)
open LockedSender (Wiring Sender Stage itemsBy)

/-- The control thread has not been started. -/
def RunPoint.BeforeControl : RunPoint → Prop
  | .notCalled | .sendHello | .sendWelcome | .startControl => True
  | _ => False

/-- `capture_.Start` has not been called. -/
def RunPoint.BeforeCapture : RunPoint → Prop
  | .startCapture => True
  | run => run.BeforeControl

/-- What `Run` has come to `Send` with at each of its points. -/
def RunPoint.announced (config : EncoderConfig) : RunPoint → List Message
  | .notCalled | .sendHello => []
  | .sendWelcome => [openingHello config]
  | _ => [openingHello config, openingWelcome config]

theorem RunPoint.BeforeControl.beforeCapture {run : RunPoint} (h : run.BeforeControl) :
    run.BeforeCapture := by
  cases run with
  | notCalled | sendHello | sendWelcome | startControl => trivial
  | _ => exact h.elim

/-- Both openings are behind `Run` once the control thread is there. -/
theorem RunPoint.announced_of_not_beforeControl {run : RunPoint} (h : ¬ run.BeforeControl)
    (config : EncoderConfig) :
    run.announced config = [openingHello config, openingWelcome config] := by
  cases run with
  | notCalled | sendHello | sendWelcome => exact absurd trivial h
  | _ => rfl

/-- `OnFrame` has begun and not come to `EncodeFrame`. -/
def CapturePoint.Preparing : CapturePoint → Prop
  | .idle | .encoding _ _ _ => False
  | _ => True

/-- The frame that `OnFrame` has been called with. -/
def CapturePoint.frame : CapturePoint → Option CapturedFrame
  | .entered f | .initializing f | .ready f | .encoding f _ _ => some f
  | .idle | .initializeFailed => none

/-- `ControlLoop` has begun, and is not where it sends its PONGs. -/
def ControlPoint.Listening : ControlPoint → Prop
  | .notStarted | .finishing _ => False
  | _ => True

/-- The thread sends messages of this kind. -/
def Thread.Speaks : Thread → Message → Prop
  | .run, .hello _ | .run, .welcome _ | .capture, .videoFrame _ | .control, .pong _ => True
  | _, _ => False

namespace Session

variable {L : Wiring Bytes UInt8} {link : L.State} {config : EncoderConfig} {s : Session L}

/-! ## `Send` -/

theorem sending_send_of_ne {t t' : Thread} (h : t' ≠ t) (s : Session L) (msg : Message) :
    (s.send t msg).sending t' = s.sending t' := by
  simp [sending, send, Sender.hand, h]

/-- A thread that is not in `Send` has no stage. -/
theorem stage_eq_none_of_sending {t : Thread} (h : s.sending t = false) :
    s.sender.stage t = none := by
  simpa [sending] using h

/-- Steps in `Send` let nobody in. -/
theorem sending_of_stepSend {t t' : Thread} {a : LockedSender.Act}
    (h : (s.stepSend t a).sending t' = true) : s.sending t' = true :=
  Sender.isSome_of_step h

/-- `Send` clears `running_` when a refusal is noticed, and only then. -/
theorem stepSend_running {t : Thread} {a : LockedSender.Act} :
    (s.stepSend t a).running = true ↔
      s.running = true ∧ ¬ (a = .acknowledge ∧ s.sender.stage t = some .refused) := by
  unfold stepSend
  split
  · rename_i hstage
    simp [hstage]
  · rename_i hother
    simp only [Bool.not_false, Bool.and_true, iff_self_and]
    exact fun _ h => hother h.1 h.2

/-- They do not set `running_` either. -/
theorem running_of_stepSend {t : Thread} {a : LockedSender.Act}
    (h : (s.stepSend t a).running = true) : s.running = true := (stepSend_running.mp h).1

/-- A session that has ended does not run again. -/
theorem ended_stepSend (h : s.running = false) (t : Thread) (a : LockedSender.Act) :
    (s.stepSend t a).running = false := by
  by_contra hon
  rw [running_of_stepSend (Bool.eq_true_of_not_eq_false hon)] at h
  cases h

/-! ## The invariant -/

/-- **The invariant of a session**: where a thread is that is in `Send`, and what is in the mutex.
-/
structure Sound (link : L.State) (config : EncoderConfig) (s : Session L) : Prop where
  valid : Sender.Valid (W := framed L) link s.sender
  -- where a thread is when it is in `Send`
  runSends : s.sending .run = true → s.run = .sendWelcome ∨ s.run = .startControl
  captureSends : s.sending .capture = true → ∃ f idr n, s.capture = .encoding f idr (n + 1)
  controlSends : s.sending .control = true → ∃ a, s.control = .finishing a
  -- the other threads, before `Run` has started them
  controlWaits : s.run.BeforeControl → s.control = .notStarted
  captureWaits : s.run.BeforeCapture →
    s.capturing = false ∧ s.capture = .idle ∧ s.config = config
  frame : ∀ f, s.capture.frame = some f → s.delivered.getLast? = some f
  codec : s.config.codec = config.codec
  announced : (itemsBy .run s.sender.handed).map Outgoing.msg = s.run.announced config
  speaks : s.sender.Every fun t o => t.Speaks o.msg ∧ o.call ≤ s.calls
  kept : s.run = .notCalled ∨ s.running = true →
    ∀ t, s.sender.stage t = some .refused ∨ s.sender.Kept t

theorem sound_start (link : L.State) (config : EncoderConfig) :
    Sound link config (start link config) where
  valid := Sender.valid_start (W := framed L) link
  runSends h := by cases h
  captureSends h := by cases h
  controlSends h := by cases h
  controlWaits _ := rfl
  captureWaits _ := ⟨rfl, rfl, rfl⟩
  frame f h := by cases h
  codec := rfl
  announced := rfl
  speaks := ⟨fun _ _ _ h => (by cases h), fun _ h => (by cases h), fun _ h => (by cases h)⟩
  kept _ _ := Or.inr rfl

/-- While a thread is in `Send`, `Run` has been called. -/
theorem Sound.run_ne_notCalled (h : s.Sound link config) {t : Thread}
    (hsending : s.sending t = true) : s.run ≠ .notCalled := by
  intro hrun
  cases t with
  | run => rcases h.runSends hsending with h' | h' <;> rw [hrun] at h' <;> cases h'
  | capture =>
      obtain ⟨f, idr, n, hcapture⟩ := h.captureSends hsending
      have hidle := (h.captureWaits (by rw [hrun]; trivial)).2.1
      rw [hcapture] at hidle
      cases hidle
  | control =>
      obtain ⟨a, hcontrol⟩ := h.controlSends hsending
      have hwaits := h.controlWaits (by rw [hrun]; trivial)
      rw [hcontrol] at hwaits
      cases hwaits

/-- Before `Run` has called `capture_.Start` there is no frame to handle. -/
theorem Sound.not_beforeCapture (h : s.Sound link config) (hcapture : s.capture ≠ .idle) :
    ¬ s.run.BeforeCapture := fun hrun => hcapture (h.captureWaits hrun).2.1

/-- `Run` has started the control thread. -/
theorem Sound.started (h : s.Sound link config) {p : ControlPoint} (hcontrol : s.control = p)
    (hp : p ≠ .notStarted) : ¬ s.run.BeforeControl :=
  fun hbefore => hp (hcontrol.symm.trans (h.controlWaits hbefore))

/-- The control thread is there after `Run` has been called only. -/
theorem Sound.called (h : s.Sound link config) {p : ControlPoint} (hcontrol : s.control = p)
    (hp : p ≠ .notStarted) : s.run ≠ .notCalled := by
  intro hrun
  refine h.started hcontrol hp ?_
  rw [hrun]
  trivial

/-- While `OnFrame` handles a frame, a call of it has begun. -/
theorem Sound.calls_pos (h : s.Sound link config) {f : CapturedFrame}
    (hframe : s.capture.frame = some f) : 0 < s.calls :=
  List.length_pos_iff.mpr fun hnil => by
    have hlast := h.frame f hframe
    rw [hnil] at hlast
    cases hlast

/-! ### One step -/

/-- A step inside `Send`. -/
theorem Sound.stepSend (h : s.Sound link config) (t : Thread) (a : LockedSender.Act) :
    (s.stepSend t a).Sound link config where
  valid := h.valid.step t a
  runSends hsending := h.runSends (sending_of_stepSend hsending)
  captureSends hsending := h.captureSends (sending_of_stepSend hsending)
  controlSends hsending := h.controlSends (sending_of_stepSend hsending)
  controlWaits := h.controlWaits
  captureWaits := h.captureWaits
  frame := h.frame
  codec := h.codec
  announced := by
    have hhanded : (s.sender.step t a).handed = s.sender.handed := Sender.handed_step t a
    show (itemsBy .run (s.sender.step t a).handed).map Outgoing.msg = _
    rw [hhanded]
    exact h.announced
  speaks := h.speaks.step t a
  kept hon t' := by
    -- a refusal that is acknowledged clears `running_`, after `Run` has been called
    have hack : ¬ (a = .acknowledge ∧ s.sender.stage t = some .refused) := by
      rintro ⟨ha, hstage⟩
      have hsending : s.sending t = true := by rw [sending, hstage]; rfl
      rcases hon with hon | hon
      · exact h.run_ne_notCalled hsending hon
      · exact (stepSend_running.mp hon).2 ⟨ha, hstage⟩
    have hbefore : s.run = .notCalled ∨ s.running = true := hon.imp id running_of_stepSend
    exact Sender.Kept.step (h.kept hbefore t') fun ha hstage => absurd ⟨ha, hstage⟩ hack

section Hand

variable {t : Thread} {msg : Message}

theorem Sound.valid_send (h : s.Sound link config) (hidle : s.sending t = false) :
    Sender.Valid (W := framed L) link (s.send t msg).sender :=
  h.valid.hand (stage_eq_none_of_sending hidle) _

theorem Sound.speaks_send (h : s.Sound link config) (hspeaks : t.Speaks msg) :
    (s.send t msg).sender.Every fun t o => t.Speaks o.msg ∧ o.call ≤ s.calls :=
  h.speaks.hand ⟨hspeaks, le_rfl⟩

theorem Sound.kept_send (h : s.Sound link config) (hidle : s.sending t = false)
    (hon : s.run = .notCalled ∨ s.running = true) (t' : Thread) :
    (s.send t msg).sender.stage t' = some .refused ∨ (s.send t msg).sender.Kept t' :=
  Sender.Kept.hand (h.kept hon t') (stage_eq_none_of_sending hidle) _

/-- What a thread sends is handed over behind what it has sent. -/
theorem handed_send_self (s : Session L) (t : Thread) (msg : Message) :
    (itemsBy t (s.send t msg).sender.handed).map Outgoing.msg =
      (itemsBy t s.sender.handed).map Outgoing.msg ++ [msg] := by
  simp [send, Sender.hand, LockedSender.itemsBy_append, LockedSender.itemsBy_self]

theorem handed_send_of_ne {t' : Thread} (h : t' ≠ t) (s : Session L) (msg : Message) :
    itemsBy t' (s.send t msg).sender.handed = itemsBy t' s.sender.handed := by
  simp [send, Sender.hand, LockedSender.itemsBy_append, LockedSender.itemsBy_of_ne (Ne.symm h)]

/-- What another thread says is nothing that `Run` has said. -/
theorem Sound.announced_send (h : s.Sound link config) (ht : Thread.run ≠ t) :
    (itemsBy .run (s.send t msg).sender.handed).map Outgoing.msg = s.run.announced config := by
  rw [handed_send_of_ne ht]
  exact h.announced

end Hand

/-! ### The moves of each thread -/

/-- `Run` says HELLO or WELCOME. -/
theorem Sound.say (h : s.Sound link config) (hidle : s.sending .run = false)
    (hbefore : s.run.BeforeControl) {run : RunPoint} {msg : Message}
    (hrun : run = .sendWelcome ∨ run = .startControl) (hspeaks : Thread.run.Speaks msg)
    (hannounced : run.announced config = s.run.announced config ++ [msg]) :
    Sound link config { s.send .run msg with run } :=
  { h with
    valid := h.valid_send hidle
    runSends := fun _ => hrun
    captureSends := fun hs => h.captureSends ((sending_send_of_ne (by decide) s msg).symm.trans hs)
    controlSends := fun hs => h.controlSends ((sending_send_of_ne (by decide) s msg).symm.trans hs)
    controlWaits := fun _ => h.controlWaits hbefore
    captureWaits := fun _ => h.captureWaits hbefore.beforeCapture
    announced := (handed_send_self s .run msg).trans (by rw [h.announced, hannounced])
    speaks := h.speaks_send hspeaks
    kept := fun hon => h.kept_send hidle (hon.imp (fun hcall => (by
      rcases hrun with rfl | rfl <;> cases hcall)) id) }

/-- `Run` goes on after it has called `capture_.Start`. -/
theorem Sound.runMove (h : s.Sound link config) (q : RunPoint) {p : RunPoint}
    (hrun : s.run = p) (hp : ¬ p.BeforeCapture) (hq : ¬ q.BeforeCapture) :
    Sound link config { s with run := q } := by
  subst hrun
  have hp' : ¬ s.run.BeforeControl := fun hbefore => hp hbefore.beforeCapture
  have hq' : ¬ q.BeforeControl := fun hbefore => hq hbefore.beforeCapture
  exact { h with
    runSends := fun hsending => by
      rcases h.runSends hsending with hrun | hrun
      · exact absurd (by rw [hrun]; trivial) hp
      · exact absurd (by rw [hrun]; trivial) hp
    controlWaits := fun hbefore => absurd hbefore hq'
    captureWaits := fun hbefore => absurd hbefore hq
    announced := by
      rw [RunPoint.announced_of_not_beforeControl hq',
        ← RunPoint.announced_of_not_beforeControl hp' config]
      exact h.announced
    kept := fun hon => h.kept (Or.inr (hon.resolve_left (by rintro rfl; exact hq trivial))) }

/-- The capture thread is in `Send` in the middle of `EncodeFrame` only. -/
theorem Sound.capture_not_sending (h : s.Sound link config) {capture : CapturePoint}
    (hcapture : s.capture = capture) (hother : capture = .idle ∨ capture.Preparing) :
    s.sending .capture = false := by
  refine Bool.eq_false_of_not_eq_true fun hsending => ?_
  obtain ⟨f, idr, n, hencoding⟩ := h.captureSends hsending
  obtain rfl := hcapture.symm.trans hencoding
  rcases hother with hidle | hpreparing
  · cases hidle
  · exact hpreparing

/-- The control thread is in `Send` while it finishes a message only. -/
theorem Sound.control_not_sending (h : s.Sound link config) {control : ControlPoint}
    (hcontrol : s.control = control) (hother : control = .notStarted ∨ control.Listening) :
    s.sending .control = false := by
  refine Bool.eq_false_of_not_eq_true fun hsending => ?_
  obtain ⟨a, hfinishing⟩ := h.controlSends hsending
  obtain rfl := hcontrol.symm.trans hfinishing
  rcases hother with hwaits | hlistening
  · cases hwaits
  · exact hlistening

/-- `OnFrame` goes on before `EncodeFrame`. -/
theorem Sound.captureMove (h : s.Sound link config) (q : CapturePoint) {p : CapturePoint}
    (hcapture : s.capture = p) (hpreparing : p.Preparing)
    (hframe : q.frame = none ∨ q.frame = p.frame) : Sound link config { s with capture := q } :=
  have hidle := h.capture_not_sending hcapture (Or.inr hpreparing)
  have hne : s.capture ≠ .idle := by
    rw [hcapture]
    rintro rfl
    exact hpreparing
  { h with
    captureSends := fun hsending => absurd (hidle.symm.trans hsending) Bool.false_ne_true
    captureWaits := fun hbefore => absurd hbefore (h.not_beforeCapture hne)
    frame := fun f hf => by
      rcases hframe with hnone | hsame
      · rw [hnone] at hf
        cases hf
      · exact h.frame f (by rw [hcapture, ← hsame]; exact hf) }

/-- `ControlLoop` goes on, outside `Send`. -/
theorem Sound.controlMove (h : s.Sound link config) (q : ControlPoint) {p : ControlPoint}
    (hcontrol : s.control = p) (hlistening : p.Listening) :
    Sound link config { s with control := q } :=
  have hidle := h.control_not_sending hcontrol (Or.inr hlistening)
  have hne : s.control ≠ .notStarted := by
    rw [hcontrol]
    rintro rfl
    exact hlistening
  { h with
    controlSends := fun hsending => absurd (hidle.symm.trans hsending) Bool.false_ne_true
    controlWaits := fun hbefore => absurd (h.controlWaits hbefore) hne }

/-- `ControlLoop` goes on after the actions on a message. -/
theorem Sound.finished (h : s.Sound link config) (q : ControlPoint) {a : ControlActions}
    (hcontrol : s.control = .finishing a) (hidle : s.sending .control = false) :
    Sound link config { s with control := q } :=
  { h with
    controlSends := fun hsending => absurd (hidle.symm.trans hsending) Bool.false_ne_true
    controlWaits := fun hbefore => by
      have hwaits := h.controlWaits hbefore
      rw [hcontrol] at hwaits
      cases hwaits }

/-- Any thread may clear `running_`. -/
theorem Sound.stopped (h : s.Sound link config) : Sound link config { s with running := false } :=
  { h with kept := fun hon => h.kept (Or.inl (hon.resolve_right Bool.false_ne_true)) }

/-- **What one step of a session keeps.** -/
theorem Sound.step (h : s.Sound link config) (act : Act) : (s.step act).Sound link config := by
  rcases s.step_cases act with hidle | hmove
  · rwa [hidle]
  generalize s.step act = s' at hmove ⊢
  cases hmove with
  | send t a => exact h.stepSend t a
  | runCalled b hrun =>
      exact { h with
        runSends := fun hsending => absurd hrun (h.run_ne_notCalled hsending)
        controlWaits := fun _ => h.controlWaits (by rw [hrun]; trivial)
        captureWaits := fun _ => h.captureWaits (by rw [hrun]; trivial)
        announced := by have := h.announced; rwa [hrun] at this
        kept := fun _ => h.kept (Or.inl hrun) }
  | sayHello b hrun hidle =>
      have hconfig := (h.captureWaits (by rw [hrun]; trivial)).2.2
      exact h.say hidle (by rw [hrun]; trivial) (Or.inl rfl) trivial
        (by rw [hrun, hconfig]; rfl)
  | sayWelcome b hrun hidle =>
      have hconfig := (h.captureWaits (by rw [hrun]; trivial)).2.2
      exact h.say hidle (by rw [hrun]; trivial) (Or.inr rfl) trivial
        (by rw [hrun, hconfig]; rfl)
  | startControl b hrun hidle =>
      have hwaits := h.controlWaits (by rw [hrun]; trivial)
      have hcontrol := h.control_not_sending hwaits (Or.inl rfl)
      exact { h with
        runSends := fun hsending => absurd (hidle.symm.trans hsending) Bool.false_ne_true
        controlSends := fun hsending => absurd (hcontrol.symm.trans hsending) Bool.false_ne_true
        controlWaits := fun hbefore => hbefore.elim
        captureWaits := fun _ => h.captureWaits (by rw [hrun]; trivial)
        announced := by have := h.announced; rwa [hrun] at this
        kept := fun hon => h.kept (hon.imp (fun hcall => by cases hcall) id) }
  | startCapture b hrun hidle =>
      exact { h with
        runSends := fun hsending => absurd (hidle.symm.trans hsending) Bool.false_ne_true
        controlWaits := fun hbefore => hbefore.elim
        captureWaits := fun hbefore => hbefore.elim
        announced := by have := h.announced; rwa [hrun] at this
        kept := fun hon => h.kept (hon.imp (fun hcall => by cases hcall) id) }
  | started hrun => exact h.runMove _ hrun id id
  | startRefused hrun hcapture =>
      exact { h.runMove .startFailed hrun id id with
        captureWaits := fun hbefore => hbefore.elim }
  | startFailed b hrun => exact (h.runMove .waiting hrun id id).stopped
  | leaveLoop b hrun hrunning => exact h.runMove _ hrun id id
  | stopCapture b hrun hcapture =>
      exact { h.runMove .shutdownEncoder hrun id id with
        captureWaits := fun hbefore => hbefore.elim }
  | shutdownEncoder b hrun =>
      exact { h.runMove .joining hrun id id with }
  | joined b hrun hcontrol => exact h.runMove _ hrun id id
  | deliver f hcapturing hcapture =>
      have hcalls : s.calls ≤ (s.delivered ++ [f]).length := by simp [calls]
      have hsilent := h.capture_not_sending hcapture (Or.inl rfl)
      exact { h with
        captureSends := fun hsending => absurd (hsilent.symm.trans hsending) Bool.false_ne_true
        captureWaits := fun hbefore => by
          rw [(h.captureWaits hbefore).1] at hcapturing
          cases hcapturing
        frame := fun f' hf => by
          cases hf
          exact List.getLast?_concat
        speaks := h.speaks.mono fun t o ho => ⟨ho.1, ho.2.trans hcalls⟩ }
  | turnedAway b f hcapture hrunning =>
      exact h.captureMove _ hcapture trivial (Or.inl rfl)
  | prepared b f hcapture hrunning hready =>
      exact h.captureMove _ hcapture trivial (Or.inr rfl)
  | setUp b f hcapture hrunning hready =>
      have hne : s.capture ≠ .idle := by rw [hcapture]; intro hc; cases hc
      exact { h.captureMove (.initializing f) hcapture trivial (Or.inr rfl) with
        captureWaits := fun hbefore => absurd hbefore (h.not_beforeCapture hne)
        codec := h.codec }
  | initialized f hcapture =>
      exact { h.captureMove (.ready f) hcapture trivial (Or.inr rfl) with }
  | initializeRefused f hcapture =>
      exact { h.captureMove .initializeFailed hcapture trivial (Or.inl rfl) with }
  | initializeFailed b hcapture =>
      exact (h.captureMove .idle hcapture trivial (Or.inl rfl)).stopped
  | exchange b f hcapture =>
      exact { h.captureMove (.encoding f s.forceIdr 0) hcapture trivial (Or.inr rfl) with }
  | packet p f idr n hcapture hidle =>
      have hne : s.capture ≠ .idle := by rw [hcapture]; intro hc; cases hc
      exact { h with
        valid := h.valid_send hidle
        runSends := fun hs => h.runSends ((sending_send_of_ne (by decide) s _).symm.trans hs)
        captureSends := fun _ => ⟨f, idr, n, rfl⟩
        controlSends := fun hs =>
          h.controlSends ((sending_send_of_ne (by decide) s _).symm.trans hs)
        captureWaits := fun hbefore => absurd hbefore (h.not_beforeCapture hne)
        frame := fun f' hf => h.frame f' (by rw [hcapture]; exact hf)
        announced := h.announced_send (by decide)
        speaks := h.speaks_send trivial
        kept := fun hon => h.kept_send hidle hon }
  | encoded f idr n hcapture hidle =>
      have hne : s.capture ≠ .idle := by rw [hcapture]; intro hc; cases hc
      exact { h with
        captureSends := fun hsending => absurd (hidle.symm.trans hsending) Bool.false_ne_true
        captureWaits := fun hbefore => absurd hbefore (h.not_beforeCapture hne)
        frame := fun f' hf => by cases hf }
  | outerOn hcontrol hrunning => exact h.controlMove _ hcontrol trivial
  | outerOff hcontrol hrunning => exact h.controlMove _ hcontrol trivial
  | ended hcontrol => exact (h.controlMove .exited hcontrol trivial).stopped
  | innerOn hcontrol hrunning => exact h.controlMove _ hcontrol trivial
  | innerOff hcontrol hrunning => exact h.controlMove _ hcontrol trivial
  | drained parser hcontrol hnext =>
      exact { h.controlMove .outer hcontrol trivial with }
  | faulted e parser hcontrol hhard hnext =>
      exact { h.controlMove .corrupt hcontrol trivial with }
  | skipped raw e derr parser hcontrol hnext hdecode =>
      exact { h.controlMove .inner hcontrol trivial with }
  | decoded raw e msg parser hcontrol hnext hdecode =>
      exact { h.controlMove (.acting (handleControlMessage msg)) hcontrol trivial with }
  | corrupt hcontrol => exact { (h.controlMove .outer hcontrol trivial).stopped with }
  | setIdr a hcontrol hidr =>
      exact { h.controlMove (.replying a) hcontrol trivial with }
  | keepIdr a hcontrol hidr => exact h.controlMove _ hcontrol trivial
  | reply a hcontrol hpong =>
      have hidle := h.control_not_sending hcontrol (Or.inr trivial)
      exact { h with
        valid := h.valid_send hidle
        runSends := fun hs => h.runSends ((sending_send_of_ne (by decide) s _).symm.trans hs)
        captureSends := fun hs =>
          h.captureSends ((sending_send_of_ne (by decide) s _).symm.trans hs)
        controlSends := fun _ => ⟨a, rfl⟩
        controlWaits := fun hbefore => by
          have hwaits := h.controlWaits hbefore
          rw [hcontrol] at hwaits
          cases hwaits
        announced := h.announced_send (by decide)
        speaks := h.speaks_send trivial
        kept := fun hon => h.kept_send hidle hon }
  | noReply a hcontrol hpong => exact h.controlMove _ hcontrol trivial
  | disconnect a hcontrol hidle hstop =>
      exact { (h.finished .outer hcontrol hidle).stopped with }
  | goOn a hcontrol hidle hstop => exact h.finished _ hcontrol hidle
  | recvEnd r hcontrol hcount => exact h.controlMove _ hcontrol trivial
  | recvData r hcontrol hcount hroom =>
      exact { h.controlMove .inner hcontrol trivial with }
  | stopCalled hstop => exact { h.stopped with }
  | stopCloses hstop => exact { h with }

/-- **What holds in every run.** -/
theorem sound_after (link : L.State) (config : EncoderConfig) (acts : List Act) :
    Sound link config (after link config acts) :=
  Runs.exec_preserves (fun _ act h => h.step act) (sound_start link config) acts

/-- What a step does to the channel and to those who wait for it: a thread in `Send` goes on,
or a thread comes to `Send`. -/
theorem Sound.sender_step (h : s.Sound link config) (act : Act) :
    (s.step act).sender = s.sender ∨
      (∃ t a, act = .send t a ∧ (s.step act).sender = s.sender.step t a) ∨
      ∃ t o, s.sender.stage t = none ∧ (s.step act).sender = s.sender.hand t o := by
  rcases s.step_cases act with hidle | hmove
  · rw [hidle]
    exact Or.inl rfl
  generalize s.step act = s' at hmove ⊢
  cases hmove with
  | send t a => exact Or.inr (Or.inl ⟨t, a, rfl, rfl⟩)
  | sayHello b hrun hidle =>
      exact Or.inr (Or.inr ⟨.run, _, stage_eq_none_of_sending hidle, rfl⟩)
  | sayWelcome b hrun hidle =>
      exact Or.inr (Or.inr ⟨.run, _, stage_eq_none_of_sending hidle, rfl⟩)
  | packet p f idr n hcapture hidle =>
      exact Or.inr (Or.inr ⟨.capture, _, stage_eq_none_of_sending hidle, rfl⟩)
  | reply a hcontrol hpong =>
      have hidle := h.control_not_sending hcontrol (Or.inr trivial)
      exact Or.inr (Or.inr ⟨.control, _, stage_eq_none_of_sending hidle, rfl⟩)
  | _ => exact Or.inl rfl

end Session

end TetherDisplay.Core
