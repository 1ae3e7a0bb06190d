import TetherDisplay.Core.SessionRuns

/-!
# A refused send

`SendAll` may fail after it has written a part of a frame, or of a record.  `Send` then clears
`running_`, before it gives the mutex back.  `OnFrame` looks at `running_` before it comes to
`EncodeFrame`, and `ControlLoop` before it takes a frame off the parser; so a thread that has
still to look goes no further (`Silenced`).  `Send` itself does not look, and a thread that is
past its last look takes the mutex and writes: a PONG that waits for it, the next packet of the
same `EncodeFrame` call, the WELCOME behind a HELLO.  What the peer gets after the torn frame is
not where a frame begins.

So it matters where the threads are when the refusal clears `running_` (`Calm`).  As long as
none of them is on its way to `Send` there, and the encoder has no more packets for the call of
`OnFrame` that it is in (`Heeded`), no thread takes the mutex after a refusal (`Untorn`), and
the peer gets a prefix of the stream that the channel makes of the messages, whatever it makes of
them (`L`).
-/

namespace TetherDisplay.Core

open Protocol (decodeMessage)
open Encode (EncoderConfig)
open LockedSender (Wiring Sender Stage written writtenAfterRefusal)

/-- `OnFrame` is past its look at `running_`, and may come to `EncodeFrame` or is in it. -/
def CapturePoint.Committed : CapturePoint → Prop
  | .initializing _ | .ready _ | .encoding _ _ _ => True
  | .idle | .entered _ | .initializeFailed => False

namespace Session

variable {L : Wiring Bytes UInt8} {link : L.State} {config : EncoderConfig} {s : Session L}

/-- What the channel makes of the messages that it has been given. -/
def stream (link : L.State) (s : Session L) : Bytes :=
  (framed L).wires link (s.sender.begun.map Prod.snd)

/-- Nothing has been written after a refusal, and what has been written is a prefix of the
stream. -/
def CutClean (link : L.State) (s : Session L) : Prop :=
  writtenAfterRefusal s.sender.output = [] ∧ written s.sender.output <+: s.stream link

/-- No `Send` takes the mutex after `SendAll` has returned false. -/
def Untorn (s : Session L) : Act → Prop
  | .send t a => s.sender.Enters t a → s.sender.torn = false
  | _ => True

instance (s : Session L) : ∀ act, Decidable (s.Untorn act)
  | .send t a => inferInstanceAs (Decidable (s.sender.Enters t a → s.sender.torn = false))
  | .run _ | .deliver _ | .capture _ | .packet _ | .encoded | .control | .recv _ | .stop =>
      inferInstanceAs (Decidable True)

/-- The mutex keeps the messages apart, whichever threads send them. -/
structure Written (link : L.State) (config : EncoderConfig) (s : Session L) : Prop where
  sound : s.Sound link config
  well : Sender.WellWritten (W := framed L) link s.sender

theorem written_start (link : L.State) (config : EncoderConfig) :
    Written link config (start link config) where
  sound := sound_start link config
  well := Sender.wellWritten_start (W := framed L) link

/-- **One step keeps it**, if nobody writes after a refusal. -/
theorem Written.step (h : s.Written link config) {act : Act} (huntorn : s.Untorn act) :
    (s.step act).Written link config := by
  refine ⟨h.sound.step act, ?_⟩
  rcases h.sound.sender_step act with hsame | ⟨t, a, rfl, hstep⟩ | ⟨t, o, hidle, hhand⟩
  · rw [hsame]
    exact h.well
  · rw [hstep]
    exact h.well.step h.sound.valid huntorn
  · rw [hhand]
    exact h.well.hand h.sound.valid hidle o

/-! ## Runs in which `SendAll` succeeds -/

/-- `SendAll` succeeds. -/
def Act.Succeeds : Act → Prop
  | .send _ .refuse => False
  | _ => True

instance : DecidablePred Act.Succeeds
  | .send _ .refuse => isFalse id
  | .send _ .lock | .send _ (.write _) | .send _ .accept | .send _ .acknowledge
  | .send _ .unlock | .run _ | .deliver _ | .capture _ | .packet _ | .encoded | .control
  | .recv _ | .stop => isTrue trivial

/-- Nothing has been refused. -/
structure Successful (link : L.State) (config : EncoderConfig) (s : Session L) : Prop where
  written : s.Written link config
  untorn : s.sender.torn = false
  unrefused : ∀ t, s.sender.stage t ≠ some .refused

theorem successful_start (link : L.State) (config : EncoderConfig) :
    Successful link config (start link config) where
  written := written_start link config
  untorn := rfl
  unrefused _ h := by cases h

/-- **One step keeps it**, if the channel refuses nothing. -/
theorem Successful.step (h : s.Successful link config) {act : Act} (hsucceeds : act.Succeeds) :
    (s.step act).Successful link config := by
  have huntorn : s.Untorn act := by
    cases act with
    | send t a => exact fun _ => h.untorn
    | _ => trivial
  refine ⟨h.written.step huntorn, ?_, fun t' hrefused => ?_⟩
  · rcases h.written.sound.sender_step act with hsame | ⟨t, a, rfl, hstep⟩ | ⟨t, o, hidle, hhand⟩
    · rw [hsame]
      exact h.untorn
    · rw [hstep, Sender.torn_step (by rintro rfl; exact hsucceeds)]
      exact h.untorn
    · rw [hhand]
      exact h.untorn
  · rcases h.written.sound.sender_step act with hsame | ⟨t, a, rfl, hstep⟩ | ⟨t, o, hidle, hhand⟩
    · rw [hsame] at hrefused
      exact h.unrefused t' hrefused
    · rw [hstep] at hrefused
      exact h.unrefused t' (Sender.refused_step (by rintro rfl; exact hsucceeds) hrefused)
    · rw [hhand] at hrefused
      by_cases ht : t' = t
      · subst ht
        simp [Sender.hand] at hrefused
      · simp only [Sender.hand, Function.update_of_ne ht] at hrefused
        exact h.unrefused t' hrefused

/-- The channel is intact. -/
theorem Successful.intact (h : s.Successful link config) :
    Sender.Intact (W := framed L) link s.sender := by
  rcases h.written.well with ⟨-, hintact⟩ | ⟨htorn, -⟩
  · exact hintact
  · rw [h.untorn] at htorn
    cases htorn

/-! ## Where the threads are at a refusal -/

/-- `ControlLoop` is past its look at `running_`, and the frame that it has taken, or takes
next, is a PING that it has still to answer. -/
def replies (s : Session L) : Bool :=
  match s.control with
  | .acting a | .replying a => a.sendPong
  | .parsing =>
      match s.parser.next with
      | ((some raw, _), _) =>
          match decodeMessage raw with
          | .ok msg => (handleControlMessage msg).sendPong
          | .error _ => false
      | ((none, _), _) => false
  | _ => false

/-- **Where the threads are when a refusal in `t` clears `running_`**: `Run` is past its opening
sends, no other thread is in `Send`, and the control thread is not about to answer a PING. -/
structure Calm (s : Session L) (t : Thread) : Prop where
  opened : s.run ≠ .sendHello ∧ s.run ≠ .sendWelcome
  run : t = .run ∨ s.sending .run = false
  capture : t = .capture ∨ s.sending .capture = false
  control : t = .control ∨ s.sending .control = false
  replies : s.replies = false

instance (s : Session L) (t : Thread) : Decidable (s.Calm t) :=
  decidable_of_iff ((s.run ≠ .sendHello ∧ s.run ≠ .sendWelcome) ∧
      (t = .run ∨ s.sending .run = false) ∧ (t = .capture ∨ s.sending .capture = false) ∧
      (t = .control ∨ s.sending .control = false) ∧ s.replies = false)
    ⟨fun h => ⟨h.1, h.2.1, h.2.2.1, h.2.2.2.1, h.2.2.2.2⟩,
      fun h => ⟨h.opened, h.run, h.capture, h.control, h.replies⟩⟩

/-- `SendAll` has returned false to a thread, and it has not cleared `running_` yet. -/
def refusedTo (s : Session L) (t : Thread) : Bool :=
  match s.sender.stage t with
  | some .refused => true
  | _ => false

/-- **The condition**: a refusal clears `running_` where the threads are calm, and an `OnFrame`
call that had begun by then has no packet to send any more. -/
def Heeded (s : Session L) : Act → Prop
  | .send t .acknowledge => s.refusedTo t = true → s.Calm t
  | .packet _ => ∀ calls ∈ s.refusals, calls < s.calls
  | _ => True

instance (s : Session L) : DecidablePred s.Heeded
  | .send t .acknowledge => inferInstanceAs (Decidable (s.refusedTo t = true → s.Calm t))
  | .packet _ => inferInstanceAs (Decidable (∀ calls ∈ s.refusals, calls < s.calls))
  | .send _ .lock | .send _ (.write _) | .send _ .accept | .send _ .refuse | .send _ .unlock
  | .run _ | .deliver _ | .capture _ | .encoded | .control | .recv _ | .stop => isTrue trivial

theorem refusedTo_iff {t : Thread} :
    s.refusedTo t = true ↔ s.sender.stage t = some .refused := by
  unfold refusedTo
  split <;> simp_all

/-! ## After a refusal -/

/-- **What a refusal leaves behind.**  `running_` is false, nobody is in `Send` but a thread that
leaves it, and nobody can come to `Send` without a look at `running_`; only an `OnFrame` call
from before the refusal may still have packets. -/
structure Silenced (s : Session L) : Prop where
  off : s.running = false
  opened : s.run ≠ .notCalled ∧ s.run ≠ .sendHello ∧ s.run ≠ .sendWelcome
  mute : ∀ t, s.sender.stage t = none ∨ s.sender.stage t = some .leaving
  control : s.replies = false
  capture : s.capture.Committed → ∃ calls ∈ s.refusals, s.calls ≤ calls

/-- Nobody takes the mutex any more. -/
theorem Silenced.not_enters (h : s.Silenced) (t : Thread) (a : LockedSender.Act) :
    ¬ s.sender.Enters t a := by
  intro henters
  cases a with
  | lock =>
      obtain ⟨-, d, hstage⟩ := henters
      rcases h.mute t with hnone | hleaving
      · rw [hnone] at hstage
        cases hstage
      · rw [hleaving] at hstage
        cases hstage
  | _ => exact henters

/-- A refusal stays one. -/
theorem refusals_stepSend (s : Session L) (t : Thread) (a : LockedSender.Act) :
    s.refusals ⊆ (s.stepSend t a).refusals := by
  unfold stepSend
  dsimp only
  split
  · simp
  · simp

/-- A thread gives the mutex back. -/
theorem Silenced.stepSend (h : s.Silenced) (t : Thread) (a : LockedSender.Act) :
    (s.stepSend t a).Silenced where
  off := ended_stepSend h.off t a
  opened := h.opened
  mute t' := by
    show (s.sender.step t a).stage t' = none ∨ (s.sender.step t a).stage t' = some .leaving
    by_cases ht : t' = t
    · subst ht
      rcases h.mute t' with hnone | hleaving
      · exact Or.inl (by rw [Sender.step_of_idle hnone, hnone])
      · rcases Sender.step_of_leaving hleaving a with hsame | hout
        · exact Or.inr (by rw [hsame, hleaving])
        · exact Or.inl hout
    · rw [Sender.stage_step_of_ne ht]
      exact h.mute t'
  control := h.control
  capture hcommitted :=
    let ⟨calls, hcalls, hle⟩ := h.capture hcommitted
    ⟨calls, refusals_stepSend s t a hcalls, hle⟩

/-- **One step after a refusal**: each thread looks at `running_`, and turns back. -/
theorem Silenced.step (h : s.Silenced) {act : Act} (hheeded : s.Heeded act) :
    (s.step act).Silenced := by
  rcases s.step_cases act with hidle | hmove
  · rwa [hidle]
  generalize s.step act = s' at hmove ⊢
  cases hmove with
  | send t a => exact h.stepSend t a
  | runCalled b hrun => exact absurd hrun h.opened.1
  | sayHello b hrun hidle => exact absurd hrun h.opened.2.1
  | sayWelcome b hrun hidle => exact absurd hrun h.opened.2.2
  | startControl b hrun hidle => exact { h with opened := by simp, control := rfl }
  | startCapture | started | startRefused | leaveLoop | stopCapture | shutdownEncoder | joined =>
      exact { h with opened := by simp }
  | startFailed b hrun => exact { h with off := rfl, opened := by simp }
  | deliver f hcapturing hcapture => exact { h with capture := fun hc => hc.elim }
  | turnedAway b f hcapture hrunning => exact { h with capture := fun hc => hc.elim }
  | prepared b f hcapture hrunning hready | setUp b f hcapture hrunning hready =>
      rw [h.off] at hrunning
      cases hrunning
  | initialized f hcapture =>
      exact { h with capture := fun _ => h.capture (by rw [hcapture]; trivial) }
  | initializeRefused f hcapture => exact { h with capture := fun hc => hc.elim }
  | initializeFailed b hcapture => exact { h with off := rfl, capture := fun hc => hc.elim }
  | exchange b f hcapture =>
      exact { h with capture := fun _ => h.capture (by rw [hcapture]; trivial) }
  | packet p f idr n hcapture hidle =>
      -- the call is past its look at `running_`, so it is one from before the refusal
      obtain ⟨calls, hcalls, hle⟩ := h.capture (by rw [hcapture]; trivial)
      exact absurd hle (not_le.mpr (hheeded calls hcalls))
  | encoded f idr n hcapture hidle => exact { h with capture := fun hc => hc.elim }
  | outerOn hcontrol hrunning | innerOn hcontrol hrunning =>
      rw [h.off] at hrunning
      cases hrunning
  | outerOff | innerOff | drained | faulted | skipped | noReply | goOn | recvEnd | recvData =>
      exact { h with control := rfl }
  | ended | corrupt | disconnect => exact { h with off := rfl, control := rfl }
  | decoded raw e msg parser hcontrol hnext hdecode =>
      have hreplies := h.control
      simp only [replies, hcontrol, hnext, hdecode] at hreplies
      exact { h with control := hreplies }
  | setIdr a hcontrol hidr | keepIdr a hcontrol hidr =>
      have hreplies := h.control
      simp only [replies, hcontrol] at hreplies
      exact { h with control := hreplies }
  | reply a hcontrol hpong =>
      have hreplies := h.control
      simp only [replies, hcontrol] at hreplies
      exact absurd (hpong.symm.trans hreplies) Bool.noConfusion
  | stopCalled hstop => exact { h with off := rfl }
  | stopCloses hstop => exact { h with }

/-- A refusal that clears `running_` where the threads are calm silences them. -/
theorem Calm.silences (hsound : s.Sound link config) {t : Thread}
    (hstage : s.sender.stage t = some .refused) (hcalm : s.Calm t) :
    (s.stepSend t .acknowledge).Silenced := by
  have hrefused : (s.stepSend t .acknowledge).running = false ∧
      (s.stepSend t .acknowledge).refusals = s.refusals ++ [s.calls] := by
    simp [Session.stepSend, hstage]
  refine ⟨hrefused.1, ⟨hsound.run_ne_notCalled (t := t) ?_, hcalm.opened⟩, fun t' => ?_,
    hcalm.replies, fun _ => ⟨s.calls, ?_, le_rfl⟩⟩
  · rw [sending, hstage]
    rfl
  · show (s.sender.step t .acknowledge).stage t' = none ∨ _
    by_cases ht : t' = t
    · subst ht
      exact Or.inr (by simp [Session.stepSend, Sender.step, hstage])
    · rw [Sender.stage_step_of_ne ht]
      refine Or.inl (stage_eq_none_of_sending ?_)
      cases t' with
      | run => exact hcalm.run.resolve_left (Ne.symm ht)
      | capture => exact hcalm.capture.resolve_left (Ne.symm ht)
      | control => exact hcalm.control.resolve_left (Ne.symm ht)
  · rw [hrefused.2]
    simp

/-- What a run has come to: nothing has been refused, or the thread that has been refused holds
the mutex and has not cleared `running_`, or it has, and the threads are silenced. -/
structure Subsided (link : L.State) (config : EncoderConfig) (s : Session L) : Prop where
  written : s.Written link config
  phase : s.sender.torn = false ∨ (∃ t, s.sender.stage t = some .refused) ∨ s.Silenced

/-- Whoever is refused keeps the others out. -/
theorem Subsided.untorn (h : s.Subsided link config) (act : Act) : s.Untorn act := by
  cases act with
  | send t a =>
      intro henters
      rcases h.phase with hwhole | ⟨t', hrefused⟩ | hsilenced
      · exact hwhole
      · have hheld := (h.written.sound.valid.holder t').mpr ⟨_, hrefused, trivial⟩
        cases a with
        | lock =>
            rw [henters.1] at hheld
            cases hheld
        | _ => exact henters.elim
      · exact absurd henters (hsilenced.not_enters t a)
  | _ => trivial

/-- **One step keeps it**, if the refusal is heeded. -/
theorem Subsided.step (h : s.Subsided link config) {act : Act} (hheeded : s.Heeded act) :
    (s.step act).Subsided link config := by
  refine ⟨h.written.step (h.untorn act), ?_⟩
  have hsound := h.written.sound
  rcases h.phase with hwhole | ⟨t, hrefused⟩ | hsilenced
  · -- the first refusal leaves its thread inside
    rcases hsound.sender_step act with hsame | ⟨t, a, rfl, hstep⟩ | ⟨t, o, -, hhand⟩
    · exact Or.inl (by rw [hsame]; exact hwhole)
    · by_cases ha : a = .refuse
      · subst ha
        rw [hstep]
        rcases s.sender.step_cases t .refuse with hidle | hmove
        · exact Or.inl (by rw [hidle]; exact hwhole)
        generalize s.sender.step t .refuse = s' at hmove ⊢
        cases hmove with
        | refuse d rest hstage => exact Or.inr (Or.inl ⟨t, Function.update_self t _ _⟩)
      · exact Or.inl (by rw [hstep, Sender.torn_step ha]; exact hwhole)
    · exact Or.inl (by rw [hhand]; exact hwhole)
  · rcases hsound.sender_step act with hsame | ⟨t', a, rfl, hstep⟩ | ⟨t', o, hidle, hhand⟩
    · exact Or.inr (Or.inl ⟨t, by rw [hsame]; exact hrefused⟩)
    · by_cases ht : t = t'
      · subst ht
        by_cases ha : a = .acknowledge
        · subst ha
          exact Or.inr (Or.inr (Calm.silences hsound hrefused
            (hheeded (refusedTo_iff.mpr hrefused))))
        · -- the thread does nothing else before it has cleared `running_`
          refine Or.inr (Or.inl ⟨t, ?_⟩)
          rw [hstep, Sender.step_of_refused hrefused ha]
          exact hrefused
      · exact Or.inr (Or.inl ⟨t, by rw [hstep, Sender.stage_step_of_ne ht]; exact hrefused⟩)
    · have ht : t ≠ t' := by
        rintro rfl
        rw [hidle] at hrefused
        cases hrefused
      refine Or.inr (Or.inl ⟨t, ?_⟩)
      rw [hhand]
      simp only [Sender.hand, Function.update_of_ne ht]
      exact hrefused
  · exact Or.inr (Or.inr (hsilenced.step hheeded))

theorem subsided_start (link : L.State) (config : EncoderConfig) :
    Subsided link config (start link config) where
  written := written_start link config
  phase := Or.inl rfl

/-- **Nothing is written after a failed send** in a run in which no thread is on its way to
`Send` when the failure clears `running_`. -/
theorem nothing_after_refusal (link : L.State) (config : EncoderConfig) (acts : List Act)
    (h : Runs.Admits step Heeded (start link config) acts) :
    (after link config acts).CutClean link := by
  have hsubsided := Runs.exec_invariant (P := Subsided link config)
    (fun _ _ h hheeded => h.step hheeded) (subsided_start link config) h
  have hwell := hsubsided.written.well.written_prefix
  exact ⟨hwell.2, hwell.1⟩

/-- The first frame is refused after three bytes while a PING is on its way; the control thread
reads it, and turns back, as does the next `OnFrame`. -/
theorem nothing_after_refusal_frame :
    (after (L := rawLink) () {} (opening ++ [.control, .deliver {}, .capture true, .capture true,
      .capture true, .packet ⟨[1, 2], true⟩, .send .capture .lock, .send .capture (.write 3),
      .send .capture .refuse, .recv (.data (Protocol.encode (.ping ⟨7⟩))),
      .send .capture .acknowledge, .control, .control, .send .capture .unlock, .encoded,
      .deliver {}, .capture true])).CutClean (L := rawLink) () :=
  nothing_after_refusal (L := rawLink) () {} _ (by decide +kernel)

/-- The first frame is refused after three bytes, and a PONG that has waited for the mutex
follows it. -/
theorem pong_after_refusal :
    ¬ (after (L := rawLink) () {} (opening ++ [.control,
      .recv (.data (Protocol.encode (.ping ⟨7⟩))), .control, .control, .control, .deliver {},
      .capture true, .capture true, .capture true, .packet ⟨[1, 2], true⟩,
      .send .capture .lock, .control, .send .capture (.write 3), .send .capture .refuse,
      .send .capture .acknowledge, .send .capture .unlock] ++ sends .control)).CutClean
        (L := rawLink) () := by
  intro h
  exact absurd h.1 (by decide +kernel)

end Session

end TetherDisplay.Core
