import TetherDisplay.Core.Shutdown

/-!
# When `Run` has returned

The owner of a session destroys it, with its capture source, its encoder and its channel, once
`Run` has returned.  By then none of its threads may have anything left to do.

Each of them is waited for at a place of its own: the capture thread in `capture_.Stop`, behind
which there are no frames, and the control thread in the join.  A thread that is in `Send` is in
one of these, or is `Run` itself at its beginning.  So in a session that has returned no step but
that of a `Stop` from outside does anything (`Settled.step_eq`).
-/

namespace TetherDisplay.Core

open Encode (EncoderConfig)
open LockedSender (Wiring Sender)

/-- `capture_.Stop` has returned. -/
def RunPoint.AfterCapture : RunPoint → Prop
  | .shutdownEncoder | .joining | .returned => True
  | _ => False

theorem RunPoint.AfterCapture.afterLoop {run : RunPoint} (h : run.AfterCapture) :
    run.AfterLoop := by
  cases run with
  | shutdownEncoder | joining | returned => trivial
  | _ => exact h.elim

namespace Session

variable {L : Wiring Bytes UInt8} {link : L.State} {config : EncoderConfig} {s : Session L}

/-- What `Run` has waited for at each of its points. -/
structure Settled (s : Session L) : Prop where
  ended : s.run.AfterLoop → s.running = false
  captured : s.run.AfterCapture → s.capturing = false ∧ s.capture = .idle
  shutDown : s.run = .joining ∨ s.run = .returned → s.encoder = none
  joined : s.run = .returned → s.control = .exited

theorem settled_start (link : L.State) (config : EncoderConfig) : Settled (start link config) where
  ended h := h.elim
  captured h := h.elim
  shutDown h := by rcases h with h | h <;> cases h
  joined h := by cases h

/-- `Run` is at a point before its waiting loop has ended. -/
theorem settled_before {t : Session L} (h : ¬ t.run.AfterLoop) : t.Settled where
  ended hafter := absurd hafter h
  captured hafter := absurd hafter.afterLoop h
  shutDown hrun := by
    rcases hrun with hrun | hrun
    · exact absurd (by rw [hrun]; trivial) h
    · exact absurd (by rw [hrun]; trivial) h
  joined hrun := absurd (by rw [hrun]; trivial) h

/-- While `OnFrame` handles a frame, `Run` has not come past `capture_.Stop`. -/
theorem Settled.before_of_capture (h : s.Settled) (hcapture : s.capture ≠ .idle) :
    ¬ s.run.AfterCapture := fun hafter => hcapture (h.captured hafter).2

/-- The capture thread goes on. -/
theorem Settled.captureMove (h : s.Settled) {t : Session L} (hrun : t.run = s.run)
    (hrunning : t.running = true → s.running = true) (hbefore : ¬ s.run.AfterCapture) :
    t.Settled where
  ended hafter := by
    rw [← Bool.not_eq_true]
    intro hon
    exact Bool.false_ne_true ((h.ended (hrun ▸ hafter)).symm.trans (hrunning hon))
  captured hafter := absurd (hrun ▸ hafter) hbefore
  shutDown hlate := by
    refine absurd ?_ hbefore
    rw [hrun] at hlate
    rcases hlate with hlate | hlate <;> rw [hlate] <;> trivial
  joined hreturned := by
    refine absurd ?_ hbefore
    rw [← hrun, hreturned]
    trivial

/-- The control thread goes on, or `running_` or the channel changes. -/
theorem Settled.controlMove (h : s.Settled) {t : Session L} (hrun : t.run = s.run)
    (hrunning : t.running = true → s.running = true)
    (hcapturing : t.capturing = s.capturing) (hcapture : t.capture = s.capture)
    (hencoder : t.encoder = s.encoder) (hcontrol : s.control = .exited → t.control = .exited) :
    t.Settled where
  ended hafter := by
    rw [← Bool.not_eq_true]
    intro hon
    exact Bool.false_ne_true ((h.ended (hrun ▸ hafter)).symm.trans (hrunning hon))
  captured hafter := by
    rw [hcapturing, hcapture]
    exact h.captured (hrun ▸ hafter)
  shutDown hlate := by
    rw [hencoder]
    exact h.shutDown (hrun ▸ hlate)
  joined hreturned := hcontrol (h.joined (hrun ▸ hreturned))

/-- **One step keeps it.** -/
theorem Settled.step (h : s.Settled) (act : Act) : (s.step act).Settled := by
  rcases s.step_cases act with hidle | hmove
  · rwa [hidle]
  generalize s.step act = s' at hmove ⊢
  cases hmove with
  | runCalled | sayHello | sayWelcome | startControl | startCapture | started | startRefused
  | startFailed => exact settled_before id
  | leaveLoop b hrun hrunning =>
      refine ⟨fun _ => hrunning, False.elim, ?_, fun hreturned => by cases hreturned⟩
      rintro (hrun | hrun) <;> cases hrun
  | stopCapture b hrun hcapture =>
      have hended := h.ended (by rw [hrun]; trivial)
      refine ⟨fun _ => hended, fun _ => ⟨rfl, hcapture⟩, ?_, fun hreturned => by cases hreturned⟩
      rintro (hrun | hrun) <;> cases hrun
  | shutdownEncoder b hrun =>
      have hended := h.ended (by rw [hrun]; trivial)
      have hcaptured := h.captured (by rw [hrun]; trivial)
      exact ⟨fun _ => hended, fun _ => hcaptured, fun _ => rfl, fun hreturned => by cases hreturned⟩
  | joined b hrun hcontrol =>
      exact ⟨fun _ => h.ended (by rw [hrun]; trivial), fun _ => h.captured (by rw [hrun]; trivial),
        fun _ => h.shutDown (.inl hrun), fun _ => hcontrol⟩
  | deliver f hcapturing hcapture =>
      refine h.captureMove rfl id fun hafter => ?_
      cases hcapturing.symm.trans (h.captured hafter).1
  | turnedAway b f hcapture | prepared b f hcapture | setUp b f hcapture
  | initialized f hcapture | initializeRefused f hcapture | exchange b f hcapture
  | packet p f idr n hcapture | encoded f idr n hcapture =>
      refine h.captureMove rfl id (h.before_of_capture ?_)
      rw [hcapture]
      rintro ⟨⟩
  | initializeFailed b hcapture =>
      refine h.captureMove rfl (fun hon => by cases hon) (h.before_of_capture ?_)
      rw [hcapture]
      rintro ⟨⟩
  | send t a => exact h.controlMove rfl running_of_stepSend rfl rfl rfl id
  | stopCalled => exact h.controlMove rfl (fun hon => by cases hon) rfl rfl rfl id
  | stopCloses => exact h.controlMove rfl id rfl rfl rfl id
  | outerOff => exact h.controlMove rfl id rfl rfl rfl fun _ => rfl
  | ended => exact h.controlMove rfl (fun hon => by cases hon) rfl rfl rfl fun _ => rfl
  | outerOn hcontrol | innerOn hcontrol | innerOff hcontrol | drained parser hcontrol
  | faulted e parser hcontrol | skipped raw e derr parser hcontrol
  | decoded raw e msg parser hcontrol | setIdr a hcontrol | keepIdr a hcontrol
  | reply a hcontrol | noReply a hcontrol | goOn a hcontrol | recvEnd r hcontrol
  | recvData r hcontrol =>
      refine h.controlMove rfl id rfl rfl rfl fun hexited => ?_
      cases hcontrol.symm.trans hexited
  | corrupt hcontrol | disconnect a hcontrol =>
      refine h.controlMove rfl (fun hon => by cases hon) rfl rfl rfl fun hexited => ?_
      cases hcontrol.symm.trans hexited

/-! ## Nothing is left to do -/

/-- A thread that is not in `Send` takes no step in it. -/
theorem stepSend_idle {t : Thread} (hidle : s.sending t = false) (a : LockedSender.Act) :
    s.stepSend t a = s := by
  have hstage := stage_eq_none_of_sending hidle
  unfold stepSend
  rw [Sender.step_of_idle hstage, hstage]
  cases a <;> cases s <;> simp

/-- **A session that has returned** takes no step any more. -/
theorem Settled.step_eq (h : s.Settled) (hsound : s.Sound link config) (hrun : s.run = .returned)
    {act : Act} (hact : act ≠ .stop) : s.step act = s := by
  obtain ⟨hcapturing, hcapture⟩ := h.captured (by rw [hrun]; trivial)
  have hcontrol := h.joined hrun
  have hidle : ∀ t, s.sending t = false := by
    intro t
    rw [← Bool.not_eq_true]
    intro hsending
    cases t with
    | run =>
        rcases hsound.runSends hsending with hpoint | hpoint <;> cases hrun.symm.trans hpoint
    | capture =>
        obtain ⟨f, idr, n, hpoint⟩ := hsound.captureSends hsending
        cases hcapture.symm.trans hpoint
    | control =>
        obtain ⟨a, hpoint⟩ := hsound.controlSends hsending
        cases hcontrol.symm.trans hpoint
  cases act with
  | send t a => exact stepSend_idle (hidle t) a
  | run b => simp only [Session.step, stepRun, hidle, hrun, Bool.false_eq_true, if_false]
  | deliver f =>
      rw [Session.step, stepDeliver, if_neg]
      rw [hcapturing]
      exact fun h => Bool.false_ne_true h.1
  | capture b => simp only [Session.step, stepCapture, hcapture]
  | packet p => simp only [Session.step, stepPacket, hcapture]
  | encoded => simp only [Session.step, stepEncoded, hcapture]
  | control => simp only [Session.step, stepControl, hcontrol]
  | recv r =>
      rw [Session.step, stepRecv, if_neg]
      rw [hcontrol]
      rintro ⟨⟩
  | stop => exact absurd rfl hact

end Session

end TetherDisplay.Core
