import TetherDisplay.Foundations.Runs
import Mathlib.Data.Option.Basic

/-!
# The tray

The UI thread serves the menu, one command after the other, and a worker runs `StreamLoop`: while
`g_running` is set it waits for the device, connects, pairs, and streams until the session ends.
`StopStreaming` clears `g_running`, calls `Stop` on the session in `g_session`, if there is one, and
joins the worker.

From the test of `g_running` to the publication of the session the worker waits, connects and
pairs, and a `StopStreaming` that looks at `g_session` in between finds nothing there.  When the
pairing succeeds after all, the worker runs a session that nobody has stopped, and the UI thread
waits for it.  `NotLost` says that this is not so.  It holds in every state of a run exactly when no
pairing succeeds under the join of a `StopStreaming`, and none has succeeded without its session
being published when `StopStreaming` looks (`not_lost_iff`).  A session that has been stopped does
come to its end, and the join with it (`join_returns`).
-/

namespace TetherDisplay.Ui

/-- What the worker does next in `StreamLoop`.  Its sessions are numbered. -/
inductive Worker where
  /-- `g_worker` is not joinable. -/
  | absent
  | initCrypto
  | addDisplay
  /-- `while (g_running && !g_quit)`. -/
  | testing
  | waitForDevice
  | connect
  | establish
  /-- Publish the session in `g_session`. -/
  | publish (n : ℕ)
  /-- Call `Run`. -/
  | run (n : ℕ)
  /-- Inside `Run`. -/
  | streaming (n : ℕ)
  /-- Clear `g_session`. -/
  | clear (n : ℕ)
  | removeDisplay
  | finished
  deriving DecidableEq

/-- What the UI thread does next. -/
inductive UiPoint where
  | idle
  /-- `StartStreaming`: join an earlier worker and make a new one. -/
  | reaping
  /-- `StopStreaming`: clear `g_running`. -/
  | clearing
  /-- Look at `g_session`, under the mutex. -/
  | looking
  /-- Inside `Stop`, still under the mutex: `running_` is cleared, and the channel not closed. -/
  | stopping (n : ℕ)
  | joining
  deriving DecidableEq

/-- The tray and its two threads. -/
structure Tray where
  /-- `g_running`. -/
  running : Bool := false
  /-- `g_quit`. -/
  quit : Bool := false
  /-- `g_session`. -/
  session : Option ℕ := none
  worker : Worker := .absent
  ui : UiPoint := .idle
  /-- The number of sessions made so far. -/
  made : ℕ := 0
  /-- `running_` of the last session. -/
  sessionRunning : Bool := false
  /-- The sessions that `Stop` was called on: their channels are closed. -/
  stopped : List ℕ := []

/-- What happens next. -/
inductive Act where
  /-- A command of the menu, when the UI thread is idle. -/
  | start
  | stop
  | quit
  /-- The UI thread's next step in a command. -/
  | ui
  /-- The worker's next step, and whether what it calls succeeds. -/
  | worker (ok : Bool)
  deriving DecidableEq

namespace Tray

/-- The UI thread holds `g_session_mutex`. -/
def locked (t : Tray) : Bool :=
  match t.ui with
  | .stopping _ => true
  | _ => false

/-- `StreamLoop`. -/
def stepWorker (t : Tray) (ok : Bool) : Tray :=
  match t.worker with
  | .absent => t
  | .initCrypto =>
      if ok then { t with worker := .addDisplay }
      else { t with running := false, worker := .finished }
  | .addDisplay =>
      if ok then { t with worker := .testing }
      else { t with running := false, worker := .finished }
  | .testing =>
      { t with worker := if t.running && !t.quit then .waitForDevice else .removeDisplay }
  | .waitForDevice => { t with worker := if ok then .connect else .testing }
  | .connect => { t with worker := if ok then .establish else .testing }
  | .establish =>
      if ok then
        { t with worker := .publish t.made, made := t.made + 1, sessionRunning := false }
      else { t with worker := .testing }
  | .publish n => if t.locked then t else { t with session := some n, worker := .run n }
  | .run n => { t with sessionRunning := true, worker := .streaming n }
  | .streaming n =>
      if t.sessionRunning then
        -- On a closed channel every `SendAll` and every `Recv` fails.
        if ok && n ∉ t.stopped then t else { t with sessionRunning := false }
      else { t with worker := .clear n }
  | .clear _ => if t.locked then t else { t with session := none, worker := .testing }
  | .removeDisplay => { t with worker := .finished }
  | .finished => t

/-- `StartStreaming` and `StopStreaming`, once they have been called. -/
def stepUi (t : Tray) : Tray :=
  match t.ui with
  | .idle => t
  | .reaping =>
      match t.worker with
      | .absent => { t with worker := .initCrypto, ui := .idle }
      | .finished => { t with worker := .absent }
      | _ => t
  | .clearing => { t with running := false, ui := .looking }
  | .looking =>
      match t.session with
      | some n => { t with sessionRunning := false, ui := .stopping n }
      | none => { t with ui := .joining }
  | .stopping n => { t with stopped := n :: t.stopped, ui := .joining }
  | .joining =>
      match t.worker with
      | .absent => { t with ui := .idle }
      | .finished => { t with worker := .absent, ui := .idle }
      | _ => t

/-- One step. -/
def step (t : Tray) : Act → Tray
  | .start =>
      if t.ui ≠ .idle then t
      -- `g_running.exchange(true)`
      else if t.running then t
      else { t with running := true, ui := .reaping }
  | .stop => if t.ui ≠ .idle then t else { t with ui := .clearing }
  | .quit => if t.ui ≠ .idle then t else { t with quit := true, ui := .clearing }
  | .ui => t.stepUi
  | .worker ok => t.stepWorker ok

end Tray

/-! ## Where a session stands -/

namespace Worker

/-- The session that the worker is about to run or runs. -/
def session : Worker → Option ℕ
  | .publish n | .run n | .streaming n => some n
  | _ => none

/-- The session that is published in `g_session`. -/
def published : Worker → Option ℕ
  | .run n | .streaming n | .clear n => some n
  | _ => none

end Worker

namespace Tray

variable {t : Tray}

/-- While `StopStreaming` waits for the worker, `Stop` has been called on the session that the
worker runs or will run. -/
def NotLost (t : Tray) : Prop := t.ui = .joining → ∀ n ∈ t.worker.session, n ∈ t.stopped

instance (t : Tray) : Decidable t.NotLost :=
  inferInstanceAs (Decidable (t.ui = .joining → ∀ n ∈ t.worker.session, n ∈ t.stopped))

/-- `StopStreaming` has cleared `g_running`. -/
def Cleared : UiPoint → Prop
  | .looking | .stopping _ | .joining => True
  | _ => False

/-- What is so in every run. -/
structure Sound (t : Tray) : Prop where
  published : t.session = t.worker.published
  made : ∀ n ∈ t.worker.published, n < t.made
  stopped : ∀ n ∈ t.stopped, n < t.made
  /-- A session that is not published has not been stopped. -/
  fresh : ∀ n, t.worker = .publish n → n < t.made ∧ n ∉ t.stopped
  stopping : ∀ n, t.ui = .stopping n → t.session = some n
  off : Cleared t.ui → t.running = false

theorem sound_start : Sound {} where
  published := rfl
  made n hn := by cases hn
  stopped n hn := by cases hn
  fresh n hn := by cases hn
  stopping n hn := by cases hn
  off h := h.elim

@[simp] theorem stepWorker_ui (ok : Bool) : (t.stepWorker ok).ui = t.ui := by
  unfold Tray.stepWorker
  split <;> try split_ifs <;> rfl
  all_goals rfl

@[simp] theorem stepWorker_stopped (ok : Bool) : (t.stepWorker ok).stopped = t.stopped := by
  unfold Tray.stepWorker
  split <;> try split_ifs <;> rfl
  all_goals rfl

/-- The worker's next session is the one it had, or has just been made. -/
theorem session_stepWorker {ok : Bool} {n : ℕ} (hn : n ∈ (t.stepWorker ok).worker.session) :
    n ∈ t.worker.session ∨ t.worker = .establish ∧ ok = true ∧ n = t.made := by
  cases hworker : t.worker with
  | establish =>
      cases ok with
      | true =>
          simp only [Tray.stepWorker, hworker, if_true, Worker.session, Option.mem_some_iff] at hn
          exact Or.inr ⟨rfl, rfl, hn.symm⟩
      | false =>
          simp [Tray.stepWorker, hworker, Worker.session] at hn
  | _ => exact Or.inl (by grind [Tray.stepWorker, Worker.session])

/-- A step of `StopStreaming` into the join. -/
theorem stepUi_joining (h : t.stepUi.ui = .joining) :
    t.stepUi.worker = t.worker ∧
      ((t.ui = .looking ∧ t.session = none ∧ t.stepUi.stopped = t.stopped) ∨
      (∃ n, t.ui = .stopping n ∧ t.stepUi.stopped = n :: t.stopped) ∨
      (t.ui = .joining ∧ t.stepUi.stopped = t.stopped)) := by
  unfold Tray.stepUi at h ⊢
  cases hui : t.ui with
  | idle => simp [hui] at h
  | reaping =>
      simp only [hui] at h
      split at h <;> simp [hui] at h
  | clearing => simp [hui] at h
  | looking =>
      cases hsession : t.session with
      | none => simp
      | some n => simp [hui, hsession] at h
  | stopping n => simp
  | joining =>
      simp only [hui] at h
      split at h
      · cases h
      · cases h
      · simp

/-- What is published, made and stopped is as before. -/
theorem Sound.of_same {t' : Tray} (h : t.Sound)
    (hpublished : t'.worker.published = t.worker.published)
    (hfresh : ∀ n, t'.worker = .publish n → t.worker = .publish n)
    (hsession : t'.session = t.session) (hmade : t'.made = t.made)
    (hstopped : t'.stopped = t.stopped)
    (hstopping : ∀ n, t'.ui = .stopping n → t.session = some n)
    (hoff : Cleared t'.ui → t'.running = false) : t'.Sound where
  published := by rw [hsession, hpublished, h.published]
  made := by
    rw [hpublished, hmade]
    exact h.made
  stopped := by
    rw [hstopped, hmade]
    exact h.stopped
  fresh n hn := by
    rw [hmade, hstopped]
    exact h.fresh n (hfresh n hn)
  stopping n hn := by
    rw [hsession]
    exact hstopping n hn
  off := hoff

/-- A step of the worker keeps it. -/
theorem Sound.stepWorker (h : t.Sound) (ok : Bool) : (t.stepWorker ok).Sound := by
  cases hworker : t.worker with
  | absent | finished =>
      rw [Tray.stepWorker, hworker]
      exact h
  | initCrypto | addDisplay =>
      simp only [Tray.stepWorker, hworker]
      split_ifs
      · exact h.of_same (by rw [hworker]; rfl) (by simp) rfl rfl rfl h.stopping h.off
      · exact h.of_same (by rw [hworker]; rfl) (by simp) rfl rfl rfl h.stopping fun _ => rfl
  | testing | waitForDevice | connect =>
      simp only [Tray.stepWorker, hworker]
      split_ifs <;>
        exact h.of_same (by rw [hworker]; rfl) (by simp) rfl rfl rfl h.stopping h.off
  | removeDisplay | run n =>
      simp only [Tray.stepWorker, hworker]
      exact h.of_same (by rw [hworker]; rfl) (by simp) rfl rfl rfl h.stopping h.off
  | streaming n =>
      simp only [Tray.stepWorker, hworker]
      split_ifs
      · exact h
      · exact h.of_same (by rw [hworker]) (by simp) rfl rfl rfl h.stopping h.off
      · exact h.of_same (by rw [hworker]; rfl) (by simp) rfl rfl rfl h.stopping h.off
  | establish =>
      have hnone : t.session = none := by rw [h.published, hworker]; rfl
      cases ok with
      | true =>
          simp only [Tray.stepWorker, hworker, if_true]
          -- The number of a new session is beyond all that have been stopped.
          refine ⟨hnone, fun n hn => absurd hn (Option.not_mem_none n),
            fun n hn => Nat.lt_succ_of_lt (h.stopped n hn), ?_, h.stopping, h.off⟩
          rintro n ⟨⟩
          exact ⟨Nat.lt_succ_self _, fun hn => Nat.lt_irrefl _ (h.stopped _ hn)⟩
      | false =>
          simp only [Tray.stepWorker, hworker, Bool.false_eq_true, if_false]
          exact h.of_same (by rw [hworker]; rfl) (by simp) rfl rfl rfl h.stopping h.off
  | publish n =>
      simp only [Tray.stepWorker, hworker]
      split_ifs with hlocked
      · exact h
      · have hfree : ∀ m, t.ui ≠ .stopping m := fun m hm => hlocked (by rw [locked, hm])
        refine ⟨rfl, ?_, h.stopped, by simp, fun m hm => absurd hm (hfree m), h.off⟩
        rintro m ⟨⟩
        exact (h.fresh n hworker).1
  | clear n =>
      simp only [Tray.stepWorker, hworker]
      split_ifs with hlocked
      · exact h
      · have hfree : ∀ m, t.ui ≠ .stopping m := fun m hm => hlocked (by rw [locked, hm])
        exact ⟨rfl, fun m hm => absurd hm (Option.not_mem_none m), h.stopped, by simp,
          fun m hm => absurd hm (hfree m), h.off⟩

/-- A step of the UI thread keeps it. -/
theorem Sound.stepUi (h : t.Sound) : t.stepUi.Sound := by
  cases hui : t.ui with
  | idle =>
      rw [Tray.stepUi, hui]
      exact h
  | reaping =>
      cases hworker : t.worker with
      | absent =>
          simp only [Tray.stepUi, hui, hworker]
          exact h.of_same (by rw [hworker]; rfl) (by simp) rfl rfl rfl (by simp) fun hidle =>
            hidle.elim
      | finished =>
          simp only [Tray.stepUi, hui, hworker]
          exact h.of_same (by rw [hworker]; rfl) (by simp) rfl rfl rfl (by simp) fun hidle =>
            hidle.elim
      | _ =>
          simp only [Tray.stepUi, hui, hworker]
          exact h
  | clearing =>
      simp only [Tray.stepUi, hui]
      exact h.of_same rfl (fun n hn => hn) rfl rfl rfl (by simp) fun _ => rfl
  | looking =>
      have hoff : t.running = false := h.off (by rw [hui]; trivial)
      cases hsession : t.session with
      | some n =>
          simp only [Tray.stepUi, hui, hsession]
          refine h.of_same rfl (fun m hm => hm) hsession.symm rfl rfl ?_ fun _ => hoff
          rintro m ⟨⟩
          exact hsession
      | none =>
          simp only [Tray.stepUi, hui, hsession]
          exact h.of_same rfl (fun n hn => hn) hsession.symm rfl rfl (by simp) fun _ => hoff
  | stopping m =>
      have hoff : t.running = false := h.off (by rw [hui]; trivial)
      -- The session that `Stop` is called on is published, so it has been made.
      have hm : m ∈ t.worker.published := by
        rw [← h.published]
        exact h.stopping m hui
      simp only [Tray.stepUi, hui]
      refine ⟨h.published, h.made, ?_, fun n hn => ?_, by simp, fun _ => hoff⟩
      · exact List.forall_mem_cons.mpr ⟨h.made m hm, h.stopped⟩
      · rw [hn] at hm
        cases hm
  | joining =>
      have hoff : t.running = false := h.off (by rw [hui]; trivial)
      cases hworker : t.worker with
      | absent =>
          simp only [Tray.stepUi, hui, hworker]
          exact h.of_same (by rw [hworker]) (by simp) rfl rfl rfl (by simp) fun hidle => hidle.elim
      | finished =>
          simp only [Tray.stepUi, hui, hworker]
          exact h.of_same (by rw [hworker]; rfl) (by simp) rfl rfl rfl (by simp) fun hidle =>
            hidle.elim
      | _ =>
          simp only [Tray.stepUi, hui, hworker]
          exact h

/-- **One step keeps it.** -/
theorem Sound.step (h : t.Sound) (act : Act) : (t.step act).Sound := by
  cases act with
  | ui => exact h.stepUi
  | worker ok => exact h.stepWorker ok
  | _ =>
      rw [Tray.step]
      split_ifs
      all_goals first
        | exact h
        | exact h.of_same rfl (fun n hn => hn) rfl rfl rfl (by simp) fun hother => hother.elim

/-! ## A stop that is not lost -/

/-- `StopStreaming` does not look at `g_session` while a session is waiting to be published, and
no pairing succeeds once it has looked. -/
def Heard (t : Tray) : Act → Prop
  | .ui => t.ui = .looking → ∀ n, t.worker ≠ .publish n
  | .worker true => t.ui = .joining → t.worker ≠ .establish
  | _ => True

theorem session_cases {w : Worker} {n : ℕ} (h : n ∈ w.session) :
    w = .publish n ∨ n ∈ w.published := by
  cases w with
  | publish m => exact Or.inl (congrArg Worker.publish (Option.mem_some_iff.mp h))
  | run m | streaming m => exact Or.inr h
  | _ => cases h

/-- A step of the UI thread loses no command that is heard. -/
theorem NotLost.stepUi (h : t.NotLost) (hsound : t.Sound) (hheard : t.Heard .ui) :
    t.stepUi.NotLost := by
  intro hjoin n hn
  obtain ⟨hworker, hcases⟩ := stepUi_joining hjoin
  rw [hworker] at hn
  rcases hcases with ⟨hlook, hnone, -⟩ | ⟨m, hstopping, hstopped⟩ | ⟨hjoined, hstopped⟩
  · -- Nothing was published, so there is no session.
    rcases session_cases hn with hpublish | hpublished
    · exact absurd hpublish (hheard hlook n)
    · rw [← hsound.published, hnone] at hpublished
      cases hpublished
  · -- The session that was published is the worker's.
    have hm : m ∈ t.worker.published := by
      rw [← hsound.published]
      exact hsound.stopping m hstopping
    rcases session_cases hn with hpublish | hpublished
    · rw [hpublish] at hm
      cases hm
    · rw [hstopped, Option.mem_unique hpublished hm]
      exact List.mem_cons_self ..
  · rw [hstopped]
    exact h hjoined n hn

/-- A step of the worker loses no command that is heard. -/
theorem NotLost.stepWorker (h : t.NotLost) {ok : Bool} (hheard : t.Heard (.worker ok)) :
    (t.stepWorker ok).NotLost := by
  intro hjoin n hn
  rw [stepWorker_ui] at hjoin
  rw [stepWorker_stopped]
  rcases session_stepWorker hn with hold | ⟨hestablish, rfl, -⟩
  · exact h hjoin n hold
  · exact absurd hestablish (hheard hjoin)

/-- **One step loses no command**, if it is heard. -/
theorem NotLost.step (h : t.NotLost) (hsound : t.Sound) {act : Act} (hheard : t.Heard act) :
    (t.step act).NotLost := by
  cases act with
  | ui => exact h.stepUi hsound hheard
  | worker ok => exact h.stepWorker hheard
  | _ =>
      -- A command does not begin with the join.
      rw [Tray.step]
      split_ifs
      all_goals first | exact h | exact fun hjoin => by cases hjoin

/-- A step that is not heard loses the stop. -/
theorem Sound.heard (h : t.Sound) {act : Act} (hkept : (t.step act).NotLost) : t.Heard act := by
  cases act with
  | ui =>
      intro hlook n hworker
      have hnone : t.session = none := by rw [h.published, hworker]; rfl
      have hstep : t.step .ui = { t with ui := .joining } := by
        simp only [Tray.step, Tray.stepUi, hlook, hnone]
      rw [hstep] at hkept
      exact (h.fresh n hworker).2 (hkept rfl n (by simp [hworker, Worker.session]))
  | worker ok =>
      cases ok with
      | false => trivial
      | true =>
          intro hjoin hworker
          have hstep : t.step (.worker true) =
              { t with
                worker := .publish t.made
                made := t.made + 1
                sessionRunning := false } := by
            simp only [Tray.step, Tray.stepWorker, hworker, if_true]
          rw [hstep] at hkept
          exact Nat.lt_irrefl _ (h.stopped t.made (hkept hjoin t.made rfl))
  | _ => trivial

/-- **A stop is not lost** in any state of a run exactly when every step of it is heard. -/
theorem not_lost_iff (acts : List Act) :
    (∀ front back, acts = front ++ back → (Runs.exec Tray.step {} front).NotLost) ↔
      Runs.Admits Tray.step Heard {} acts := by
  constructor
  · intro h
    exact Runs.admits_of_states (Q := Sound) (fun s i hs hnext => hs.heard hnext)
      (fun s i hs => hs.step i) sound_start h
  · rintro h front back rfl
    have hstart : Sound {} ∧ NotLost {} := ⟨sound_start, fun hjoin => by cases hjoin⟩
    refine (Runs.exec_invariant (P := fun t => Sound t ∧ NotLost t) ?_ hstart h.front).2
    intro s i hs hheard
    exact ⟨hs.1.step i, hs.2.step hs.1 hheard⟩

/-- The tray is started and the worker pairs, and `StopStreaming` falls in between. -/
def lateStop : List Act :=
  [.start, .ui, .worker true, .worker true, .worker true, .worker true, .worker true, .stop, .ui,
    .ui, .worker true, .worker true, .worker true]

/-- The worker streams, and nobody has stopped it. -/
theorem late_stop_lost :
    ¬ ∀ acts, (Runs.exec Tray.step {} acts).NotLost := by
  intro h
  have hlost := h lateStop
  revert hlost
  decide

/-! ## The join returns -/

/-- The worker is on its way out of `StreamLoop`. -/
def Leaving (t : Tray) : Prop :=
  t.ui = .joining ∧ t.running = false ∧ match t.worker with
    | .publish n | .run n | .streaming n => n ∈ t.stopped
    | .clear _ | .testing | .removeDisplay | .finished => True
    | _ => False

/-- The steps that are left to a worker on its way out. -/
def remaining (t : Tray) : ℕ :=
  match t.worker with
  | .publish _ => 7
  | .run _ => 6
  | .streaming _ => if t.sessionRunning then 5 else 4
  | .clear _ => 3
  | .testing => 2
  | .removeDisplay => 1
  | _ => 0

/-- A step on the way out. -/
theorem Leaving.stepWorker (h : t.Leaving) (ok : Bool) :
    (t.stepWorker ok).Leaving ∧ (t.stepWorker ok).remaining = t.remaining - 1 := by
  obtain ⟨hjoin, hoff, hworker⟩ := h
  have hfree : t.locked = false := by rw [locked, hjoin]
  unfold Leaving remaining Tray.stepWorker
  cases hpoint : t.worker with
  | streaming n =>
      rw [hpoint] at hworker
      cases hrunning : t.sessionRunning <;> simp_all
  | _ => simp_all

/-- Some steps on the way out. -/
theorem Leaving.exec (h : t.Leaving) (oks : List Bool) :
    (Runs.exec Tray.stepWorker t oks).Leaving ∧
      (Runs.exec Tray.stepWorker t oks).remaining = t.remaining - oks.length := by
  induction oks generalizing t with
  | nil => exact ⟨h, rfl⟩
  | cons ok oks ih =>
      obtain ⟨hstep, hless⟩ := h.stepWorker ok
      obtain ⟨hexec, hremaining⟩ := ih hstep
      refine ⟨hexec, ?_⟩
      rw [Runs.exec_cons, hremaining, hless, List.length_cons, Nat.sub_sub, Nat.add_comm]

/-- The worker is out. -/
theorem Leaving.finished (h : t.Leaving) (hnone : t.remaining = 0) : t.worker = .finished := by
  obtain ⟨-, -, hworker⟩ := h
  unfold remaining at hnone
  cases hpoint : t.worker with
  | finished => rfl
  | streaming n =>
      simp only [hpoint] at hnone
      split_ifs at hnone
  | _ => simp_all

/-- **The join returns**: a worker whose session was stopped leaves `StreamLoop` in seven steps,
whatever becomes of them. -/
theorem join_returns (hsound : t.Sound) (h : t.NotLost) (hjoin : t.ui = .joining) {n : ℕ}
    (hn : n ∈ t.worker.session) {oks : List Bool} (hlength : 7 ≤ oks.length) :
    (Runs.exec Tray.stepWorker t oks).worker = .finished := by
  have hoff : t.running = false := hsound.off (by rw [hjoin]; trivial)
  have hstopped : n ∈ t.stopped := h hjoin n hn
  have hleaving : t.Leaving := by
    refine ⟨hjoin, hoff, ?_⟩
    cases hpoint : t.worker with
    | publish m | run m | streaming m =>
        rw [hpoint] at hn
        cases hn
        exact hstopped
    | _ =>
        rw [hpoint] at hn
        cases hn
  have hseven : t.remaining ≤ 7 := by
    unfold remaining
    split <;> try split_ifs
    all_goals omega
  obtain ⟨hend, hremaining⟩ := hleaving.exec oks
  exact hend.finished (by omega)

end Tray

end TetherDisplay.Ui
