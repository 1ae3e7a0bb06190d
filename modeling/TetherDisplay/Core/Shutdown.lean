import TetherDisplay.Core.SessionRuns

/-!
# Joining the control thread

`Run` ends by joining the control thread, which may be inside `channel_.Recv` until the peer
sends something or the channel is closed.  `Stop` closes it.  The other places that clear
`running_` do not, so a session that fails on the capture side or in `Send` leaves `Run`
waiting for a silent peer.

`clearsRunning` are the steps of this kind.  While none of them meets a control thread that is
blocked, a control thread that is blocked when the session is over is about to be woken by
`Stop` (`Unblocked`), and if `Run` does not come to its join before that, it does not wait there
at all.
-/

namespace TetherDisplay.Core

open Encode (EncoderConfig)
open LockedSender (Wiring Sender Stage)

/-- `Run` has left its waiting loop. -/
def RunPoint.AfterLoop : RunPoint → Prop
  | .stopCapture | .shutdownEncoder | .joining | .returned => True
  | _ => False

namespace Session

variable {L : Wiring Bytes UInt8} {link : L.State} {config : EncoderConfig} {s : Session L}

/-- The control thread is blocked in `Recv` on a channel that is open. -/
def Blocked (s : Session L) : Prop := s.control = .receiving ∧ s.channelOpen = true

/-- `Run` waits for a control thread that only the peer can wake. -/
def Hangs (s : Session L) : Prop := s.run = .joining ∧ s.Blocked

instance (s : Session L) : Decidable s.Blocked :=
  inferInstanceAs (Decidable (s.control = .receiving ∧ s.channelOpen = true))

instance (s : Session L) : Decidable s.Hangs :=
  inferInstanceAs (Decidable (s.run = .joining ∧ s.Blocked))

/-- The channel has refused an item of this thread, which has not noticed yet. -/
def isRefused (s : Session L) (t : Thread) : Bool :=
  match s.sender.stage t with
  | some .refused => true
  | _ => false

theorem isRefused_iff {t : Thread} : s.isRefused t = true ↔ s.sender.stage t = some .refused := by
  unfold isRefused
  split
  · exact ⟨fun _ => ‹_›, fun _ => rfl⟩
  · rename_i hother
    exact ⟨fun h => (by cases h), fun h => absurd h hother⟩

/-- The step clears `running_` and neither closes the channel nor is one of the control loop:
`capture_.Start` has failed, `encoder_.Initialize` has failed, `SendAll` has failed. -/
def clearsRunning (s : Session L) : Act → Bool
  | .run _ => decide (s.run = .startFailed)
  | .capture _ => decide (s.capture = .initializeFailed)
  | .send t .acknowledge => s.isRefused t
  | _ => false

/-- `Run` comes to its join while `Stop` has cleared `running_` and not closed the channel. -/
def overtakesStop (s : Session L) : Act → Bool
  | .run _ => decide (s.run = .shutdownEncoder ∧ s.stop = .cleared)
  | _ => false

/-- `running_` is not cleared behind the back of a blocked control thread. -/
def Wakes (s : Session L) (act : Act) : Prop := s.clearsRunning act = true → ¬ s.Blocked

/-- `Run` does not wait for a control thread that `Stop` is about to wake. -/
def Waits (s : Session L) (act : Act) : Prop := s.overtakesStop act = true → ¬ s.Blocked

instance (s : Session L) (act : Act) : Decidable (s.Wakes act) :=
  inferInstanceAs (Decidable (s.clearsRunning act = true → ¬ s.Blocked))

instance (s : Session L) (act : Act) : Decidable (s.Waits act) :=
  inferInstanceAs (Decidable (s.overtakesStop act = true → ¬ s.Blocked))

/-! ## The invariant -/

/-- **The invariant**: nobody who is to be joined is blocked for good. -/
structure Unblocked (s : Session L) : Prop where
  ended : s.run.AfterLoop → s.running = false
  /-- Only a `Stop` that is about to close the channel has left the control thread blocked. -/
  byStop : s.run ≠ .notCalled → s.running = false → s.Blocked → s.stop = .cleared

theorem unblocked_start (link : L.State) (config : EncoderConfig) :
    Unblocked (start link config) where
  ended h := h.elim
  byStop h := absurd rfl h

/-- `running_` is cleared while the control thread is not blocked. -/
theorem unblocked_stopped (hfree : ¬ s.Blocked) :
    Unblocked { s with running := false } where
  ended _ := rfl
  byStop _ _ hblocked := absurd hblocked hfree

/-- The control thread goes on, and not to `Recv`. -/
theorem Unblocked.controlMove (h : s.Unblocked) {q : ControlPoint} (hq : q ≠ .receiving) :
    Unblocked { s with control := q } where
  ended := h.ended
  byStop _ _ hblocked := absurd hblocked.1 hq

/-- `Run` goes on. -/
theorem Unblocked.runMove (h : s.Unblocked) {q : RunPoint} (hrun : s.run ≠ .notCalled)
    (hended : q.AfterLoop → s.running = false) : Unblocked { s with run := q } where
  ended := hended
  byStop _ := h.byStop hrun

/-- A step in `Send` keeps it. -/
theorem Unblocked.stepSend (h : s.Unblocked) {t : Thread} {a : LockedSender.Act}
    (hwakes : s.Wakes (.send t a)) : (s.stepSend t a).Unblocked where
  ended hlate := ended_stepSend (h.ended hlate) t a
  byStop hrun hoff hblocked := by
    by_cases hon : s.running = true
    · -- this step has cleared it
      have hack : a = .acknowledge ∧ s.sender.stage t = some .refused := by
        by_contra hnot
        rw [stepSend_running.mpr ⟨hon, hnot⟩] at hoff
        cases hoff
      obtain ⟨rfl, hstage⟩ := hack
      exact absurd hblocked (hwakes (isRefused_iff.mpr hstage))
    · exact h.byStop hrun (Bool.eq_false_of_not_eq_true hon) hblocked

/-- **One step keeps it**, if `running_` is not cleared behind a blocked thread. -/
theorem Unblocked.step (h : s.Unblocked) {act : Act}
    (hwakes : s.Wakes act) : (s.step act).Unblocked := by
  rcases s.step_cases act with hidle | hmove
  · rwa [hidle]
  generalize s.step act = s' at hmove ⊢
  -- a control thread that is somewhere else is not blocked
  have hfree : ∀ p : ControlPoint, s.control = p → p ≠ .receiving → ¬ s.Blocked :=
    fun p hcontrol hp hblocked => hp (hcontrol.symm.trans hblocked.1)
  cases hmove with
  | send t a => exact h.stepSend hwakes
  | runCalled b hrun =>
      exact ⟨fun hlate => hlate.elim, fun _ hoff => (by cases hoff)⟩
  | sayHello b hrun hidle =>
      exact { h.runMove (q := .sendWelcome) (by rw [hrun]; decide) (fun hlate => hlate.elim) with }
  | sayWelcome b hrun hidle =>
      exact { h.runMove (q := .startControl) (by rw [hrun]; decide) (fun hlate => hlate.elim) with }
  | startControl b hrun hidle =>
      exact (h.controlMove (q := .outer) (by decide)).runMove (q := .startCapture)
        (by rw [hrun]; decide) (fun hlate => hlate.elim)
  | startCapture b hrun hidle =>
      exact { h.runMove (q := .starting) (by rw [hrun]; decide) (fun hlate => hlate.elim) with }
  | started hrun =>
      exact h.runMove (by rw [hrun]; decide) (fun hlate => hlate.elim)
  | startRefused hrun hcapture =>
      exact { h.runMove (q := .startFailed) (by rw [hrun]; decide) (fun hlate => hlate.elim) with }
  | startFailed b hrun =>
      exact (unblocked_stopped (hwakes (by simpa [clearsRunning] using hrun))).runMove
        (q := .waiting) (by rw [hrun]; decide) (fun hlate => hlate.elim)
  | leaveLoop b hrun hrunning =>
      exact h.runMove (by rw [hrun]; decide) (fun _ => hrunning)
  | stopCapture b hrun hcapture =>
      have hrunning := h.ended (by rw [hrun]; trivial)
      exact { h.runMove (q := .shutdownEncoder) (by rw [hrun]; decide) (fun _ => hrunning) with }
  | shutdownEncoder b hrun =>
      have hrunning := h.ended (by rw [hrun]; trivial)
      exact { h.runMove (q := .joining) (by rw [hrun]; decide) (fun _ => hrunning) with }
  | joined b hrun hcontrol =>
      have hrunning := h.ended (by rw [hrun]; trivial)
      exact h.runMove (by rw [hrun]; decide) (fun _ => hrunning)
  | initializeFailed b hcapture =>
      exact { unblocked_stopped (hwakes (by simpa [clearsRunning] using hcapture)) with }
  | outerOn hcontrol hrunning =>
      refine ⟨h.ended, fun _ hoff => ?_⟩
      rw [hrunning] at hoff
      cases hoff
  | outerOff hcontrol hrunning => exact h.controlMove (by decide)
  | ended hcontrol =>
      exact (unblocked_stopped (hfree _ hcontrol (by decide))).controlMove (q := .exited)
        (by decide)
  | innerOn hcontrol hrunning => exact h.controlMove (by decide)
  | innerOff hcontrol hrunning => exact h.controlMove (by decide)
  | drained parser hcontrol hnext => exact { h.controlMove (q := .outer) (by decide) with }
  | faulted e parser hcontrol hhard hnext =>
      exact { h.controlMove (q := .corrupt) (by decide) with }
  | skipped raw e derr parser hcontrol hnext hdecode =>
      exact { h.controlMove (q := .inner) (by decide) with }
  | decoded raw e msg parser hcontrol hnext hdecode =>
      exact { h.controlMove (q := .acting (handleControlMessage msg)) (by simp) with }
  | corrupt hcontrol =>
      exact { (unblocked_stopped (hfree _ hcontrol (by decide))).controlMove (q := .outer)
        (by decide) with }
  | setIdr a hcontrol hidr => exact { h.controlMove (q := .replying a) (by simp) with }
  | keepIdr a hcontrol hidr => exact h.controlMove (by simp)
  | reply a hcontrol hpong => exact { h.controlMove (q := .finishing a) (by simp) with }
  | noReply a hcontrol hpong => exact h.controlMove (by simp)
  | disconnect a hcontrol hidle hstop =>
      exact { (unblocked_stopped (hfree _ hcontrol (by simp))).controlMove (q := .outer)
        (by decide) with }
  | goOn a hcontrol hidle hstop => exact h.controlMove (by decide)
  | recvEnd r hcontrol hcount => exact h.controlMove (by decide)
  | recvData r hcontrol hcount hroom => exact { h.controlMove (q := .inner) (by decide) with }
  | stopCalled hstop => exact ⟨fun _ => rfl, fun _ _ _ => rfl⟩
  | stopCloses hstop => exact ⟨h.ended, fun _ _ hblocked => (by cases hblocked.2)⟩
  | _ => exact { h with }

/-- The control thread goes into `Recv` only while the session runs. -/
theorem blocked_step {act : Act} (h : (s.step act).Blocked) : s.Blocked ∨ s.running = true := by
  rcases s.step_cases act with hidle | hmove
  · rw [hidle] at h
    exact Or.inl h
  generalize s.step act = s' at hmove h
  cases hmove with
  | outerOn hcontrol hrunning => exact Or.inr hrunning
  | stopCloses hstop => cases h.2
  | startControl | outerOff | ended | innerOn | innerOff | drained | faulted | skipped | decoded
  | corrupt | setIdr | keepIdr | reply | noReply | disconnect | goOn | recvEnd | recvData =>
      cases h.1
  | _ => exact Or.inl h

/-- `Run` comes to its join from `encoder_.Shutdown`. -/
theorem joining_step {act : Act} (h : (s.step act).run = .joining) :
    s.run = .joining ∨ s.run = .shutdownEncoder ∧ ∃ b, act = .run b := by
  rcases s.step_cases act with hidle | hmove
  · rw [hidle] at h
    exact Or.inl h
  generalize s.step act = s' at hmove h
  cases hmove with
  | shutdownEncoder b hrun => exact Or.inr ⟨hrun, b, rfl⟩
  | runCalled | sayHello | sayWelcome | startControl | startCapture | started | startRefused
  | startFailed | leaveLoop | stopCapture | joined => cases h
  | _ => exact Or.inl h

/-- No step makes a join hang. -/
theorem Unblocked.not_hangs_step (h : s.Unblocked) (hjoin : ¬ s.Hangs) {act : Act}
    (hwaits : s.Waits act) : ¬ (s.step act).Hangs := by
  rintro ⟨hrun, hblocked⟩
  rcases joining_step hrun with hbefore | ⟨hbefore, b, rfl⟩
  · rcases blocked_step hblocked with hblocked | hrunning
    · exact hjoin ⟨hbefore, hblocked⟩
    · rw [h.ended (by rw [hbefore]; trivial)] at hrunning
      cases hrunning
  · -- `Stop` is not between its two statements here
    have hoff := h.ended (by rw [hbefore]; trivial)
    rcases blocked_step hblocked with hblocked | hrunning
    · have hstop := h.byStop (by rw [hbefore]; decide) hoff hblocked
      exact hwaits (by simp [overtakesStop, hbefore, hstop]) hblocked
    · rw [hoff] at hrunning
      cases hrunning

/-- **`Run` does not hang in its join** in a run in which `running_` is not cleared behind the
back of a blocked control thread, and in which `Run` does not come to the join while `Stop` is
about to wake one. -/
theorem join_ends (link : L.State) (config : EncoderConfig) (acts : List Act)
    (h : Runs.Admits step (fun s act => s.Wakes act ∧ s.Waits act) (start link config) acts) :
    ¬ (after link config acts).Hangs :=
  have hall := Runs.exec_invariant (P := fun s : Session L => s.Unblocked ∧ ¬ s.Hangs)
    (fun _ _ h hguard => ⟨h.1.step hguard.1, h.1.not_hangs_step h.2 hguard.2⟩)
    ⟨unblocked_start link config, fun hhangs => (by cases hhangs.1)⟩ h
  hall.2

/-- `Stop` wakes a control thread that is blocked, and `Run` comes to its join. -/
theorem join_ends_stop :
    ¬ (after (L := rawLink) () {} (opening ++ [.control, .stop, .stop, .run true, .run true,
      .run true])).Hangs :=
  join_ends (L := rawLink) () {} _ (by decide +kernel)

/-- `capture_.Start` fails while the control thread waits for the peer: `Run` joins it. -/
theorem join_hangs :
    let acts := [Act.run true, .run true] ++ sends .run ++ [.run true] ++ sends .run ++
      [.run true, .run true, .control, .run false, .run true, .run true, .run true, .run true]
    (after (L := rawLink) () {} acts).Hangs ∧
      (after (L := rawLink) () {} acts).stop = .notCalled := by
  decide +kernel

end Session

end TetherDisplay.Core
