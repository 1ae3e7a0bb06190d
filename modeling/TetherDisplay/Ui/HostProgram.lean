import TetherDisplay.Capture.CaptureSource
import TetherDisplay.Core.Quiescence
import TetherDisplay.Ui.TrayApp

/-!
# The host's program

The tray with the sessions that it runs.  Each round of `StreamLoop` makes a session, with a capture
source, an encoder and a channel, and destroys them at its end; `Run` is called in between, and the
UI thread gets at the session through `g_session`.  The steps of the session's own threads may fall
anywhere, also before `Run` is called and after it has returned.

What the tray says of a session is what the session does: of every run of the program the tray's
part is a run of `Tray` (`run_refines_tray`), where `sessionRunning` is the `running_` of the
session itself.  And what is destroyed is not used: `g_session` leads to a session that is there,
and the threads of one that is not have nothing left to do (`destroyed_unused`).
-/

namespace TetherDisplay.Core.Session

open LockedSender (Wiring)
open Encode (EncoderConfig)

variable {L : Wiring Bytes UInt8} {s : Session L} {act : Act}

/-- Only `Run` goes on in `Run`. -/
theorem run_step (h : ∀ b, act ≠ .run b) : (s.step act).run = s.run := by
  rcases s.step_cases act with hidle | hmove
  · rw [hidle]
  generalize s.step act = s' at hmove ⊢
  cases hmove with
  | runCalled b | sayHello b | sayWelcome b | startControl b | startCapture b | startFailed b
  | leaveLoop b | stopCapture b | shutdownEncoder b | joined b => exact absurd rfl (h b)
  | started => exact absurd rfl (h true)
  | startRefused => exact absurd rfl (h false)
  | _ => rfl

/-- Only `Stop` goes on in `Stop`. -/
theorem stop_step (h : act ≠ .stop) : (s.step act).stop = s.stop := by
  rcases s.step_cases act with hidle | hmove
  · rw [hidle]
  generalize s.step act = s' at hmove ⊢
  cases hmove with
  | stopCalled | stopCloses => exact absurd rfl h
  | _ => rfl

/-- `running_` is set where `Run` is called, and nowhere else. -/
theorem running_step (hrunning : (s.step act).running = true) :
    s.running = true ∨ s.run = .notCalled ∧ ∃ b, act = .run b := by
  rcases s.step_cases act with hidle | hmove
  · rw [hidle] at hrunning
    exact .inl hrunning
  generalize s.step act = s' at hmove hrunning
  cases hmove with
  | runCalled b hrun => exact .inr ⟨hrun, b, rfl⟩
  | send => exact .inl (running_of_stepSend hrunning)
  | startFailed | initializeFailed | ended | corrupt | disconnect | stopCalled => cases hrunning
  | _ => exact .inl hrunning

/-- `Run` has been called once and for all. -/
theorem called_step (h : s.run ≠ .notCalled) : (s.step act).run ≠ .notCalled := by
  rcases s.step_cases act with hidle | hmove
  · rwa [hidle]
  generalize s.step act = s' at hmove ⊢
  cases hmove with
  | runCalled | sayHello | sayWelcome | startControl | startCapture | started | startRefused
  | startFailed | leaveLoop | stopCapture | shutdownEncoder | joined => rintro ⟨⟩
  | _ => exact h

end TetherDisplay.Core.Session

namespace TetherDisplay.Ui

open TetherDisplay.Core (Session)
open LockedSender (Wiring)
open Encode (EncoderConfig)

variable (L : Wiring Bytes UInt8)

/-- The program: the tray with its two threads, and the sessions. -/
structure HostProgram where
  tray : Tray := {}
  /-- The session of this round of `StreamLoop`. -/
  session : Option (Session L) := none
  /-- Those of the rounds before. -/
  destroyed : List (Session L) := []

namespace HostProgram

/-- What happens next. -/
inductive Act where
  /-- A command of the menu. -/
  | start
  | stop
  | quit
  /-- The UI thread goes on. -/
  | ui
  /-- The worker goes on. -/
  | worker (ok : Bool)
  /-- The worker's `Establish` succeeds, and it makes a session. -/
  | paired (link : L.State) (config : EncoderConfig)
  /-- A thread of the session goes on. -/
  | thread (a : Session.Act)

variable {L}

/-- The session is at `s`, and the tray at `t`. -/
def withSession (p : HostProgram L) (t : Tray) (s : Session L) : HostProgram L :=
  { p with tray := { t with sessionRunning := s.running }, session := some s }

/-- The UI thread goes on; it may be in the session's `Stop`. -/
def stepUi (p : HostProgram L) : HostProgram L :=
  match p.tray.ui, p.session with
  | .looking, some s =>
      if p.tray.session.isSome then p.withSession p.tray.stepUi (s.step .stop)
      else { p with tray := p.tray.stepUi }
  | .stopping _, some s => p.withSession p.tray.stepUi (s.step .stop)
  | _, _ => { p with tray := p.tray.stepUi }

/-- The worker goes on; it may be in the session's `Run`. -/
def stepWorker (p : HostProgram L) (ok : Bool) : HostProgram L :=
  match p.tray.worker, p.session with
  | .establish, _ => if ok then p else { p with tray := p.tray.stepWorker false }
  | .run _, some s => p.withSession (p.tray.stepWorker ok) (s.step (.run ok))
  | .streaming n, some s =>
      if s.run = .returned then { p with tray := { p.tray with worker := .clear n } }
      else p.withSession p.tray (s.step (.run ok))
  | .clear _, some s =>
      if p.tray.locked then p
      -- the end of the round, and of what was made in it
      else { tray := p.tray.stepWorker ok, session := none, destroyed := s :: p.destroyed }
  | _, _ => { p with tray := p.tray.stepWorker ok }

/-- `Establish` has come off, and a session is made. -/
def stepPaired (p : HostProgram L) (link : L.State) (config : EncoderConfig) : HostProgram L :=
  match p.tray.worker with
  | .establish => p.withSession (p.tray.stepWorker true) (.start link config)
  | _ => p

/-- A thread of the session goes on. -/
def stepThread (p : HostProgram L) (a : Session.Act) : HostProgram L :=
  match a, p.session with
  | .run _, _ | .stop, _ | _, none => p
  | a, some s => p.withSession p.tray (s.step a)

/-- One step. -/
def step (p : HostProgram L) : Act L → HostProgram L
  | .start => { p with tray := p.tray.step .start }
  | .stop => { p with tray := p.tray.step .stop }
  | .quit => { p with tray := p.tray.step .quit }
  | .ui => p.stepUi
  | .worker ok => p.stepWorker ok
  | .paired link config => p.stepPaired link config
  | .thread a => p.stepThread a

/-- The program after a run. -/
def after (acts : List (Act L)) : HostProgram L := Runs.exec step {} acts

end HostProgram

/-! ## The invariant -/

/-- The session that the worker has made in this round. -/
def Worker.made : Worker → Option ℕ
  | .publish n | .run n | .streaming n | .clear n => some n
  | _ => none

/-- The worker has not called `Run`. -/
def Worker.BeforeRun : Worker → Prop
  | .publish _ | .run _ => True
  | _ => False

/-- A session that `Stop` was called on is not looked at again. -/
def Tray.Once (t : Tray) : Prop := ∀ n ∈ t.worker.published, n ∈ t.stopped → t.ui = .joining

namespace Tray

variable {t : Tray}

/-- A session is published by its own step only. -/
theorem published_stepWorker {ok : Bool} {n : ℕ} (hn : n ∈ (t.stepWorker ok).worker.published) :
    n ∈ t.worker.published ∨ t.worker = .publish n := by
  cases hworker : t.worker with
  | publish m =>
      by_cases hlocked : t.locked = true
      · simp [Tray.stepWorker, hworker, hlocked, Worker.published] at hn
      · simp only [Tray.stepWorker, hworker, hlocked, Bool.false_eq_true, if_false] at hn
        exact .inr (congrArg Worker.publish (Option.mem_some_iff.mp hn))
  | _ => exact .inl (by grind [Tray.stepWorker, Worker.published])

/-- Each session is published once. -/
theorem Once.step (h : t.Once) (hsound : t.Sound) (act : Act) : (t.step act).Once := by
  cases act with
  | start | stop | quit =>
      rw [Tray.step]
      split_ifs with hui
      all_goals first
        | exact h
        | exact fun n hn hstopped => by cases (not_not.mp hui).symm.trans (h n hn hstopped)
  | worker ok =>
      intro n hn hstopped
      show (t.stepWorker ok).ui = .joining
      rw [Tray.step, stepWorker_stopped] at hstopped
      rw [stepWorker_ui]
      rcases published_stepWorker hn with hn | hpublish
      · exact h n hn hstopped
      · exact absurd hstopped (hsound.fresh n hpublish).2
  | ui =>
      show (t.stepUi).Once
      unfold Tray.stepUi
      cases hui : t.ui with
      | idle => exact h
      | reaping | joining =>
          cases hworker : t.worker with
          | absent | finished => exact fun n hn => absurd hn (Option.not_mem_none n)
          | _ => exact h
      | clearing => exact fun n hn hstopped => by cases hui.symm.trans (h n hn hstopped)
      | looking =>
          dsimp only
          split
          · exact fun n hn hstopped => by cases hui.symm.trans (h n hn hstopped)
          · exact fun n hn hstopped => rfl
      | stopping m => exact fun n hn hstopped => rfl

end Tray

namespace HostProgram

variable {L} {p : HostProgram L} {s : Session L}

/-- What a session of this round has to do with the tray. -/
structure Fits (t : Tray) (s : Session L) : Prop where
  sound : ∃ link config, s.Sound link config
  settled : s.Settled
  running : t.sessionRunning = s.running
  called : s.run = .notCalled ↔ t.worker.BeforeRun
  notRunning : s.run = .notCalled → s.running = false
  returned : ∀ n, t.worker = .clear n → s.run = .returned
  unstopped : (∀ n ∈ t.worker.published, n ∉ t.stopped) → (∀ n, t.ui ≠ .stopping n) →
    s.stop = .notCalled
  stopping : ∀ n, t.ui = .stopping n → s.stop = .cleared

/-- **The invariant**: the tray and the session fit, and what is destroyed was settled. -/
structure Sound (p : HostProgram L) : Prop where
  tray : p.tray.Sound
  once : p.tray.Once
  fits : ∀ s, p.session = some s → Fits p.tray s
  alive : p.session.isSome ↔ p.tray.worker.made.isSome
  destroyed : ∀ s ∈ p.destroyed, (∃ link config, s.Sound link config) ∧ s.Settled ∧
    s.run = .returned

theorem sound_new : Sound ({} : HostProgram L) where
  tray := Tray.sound_start
  once n hn := by cases hn
  fits s h := by cases h
  alive := Iff.rfl
  destroyed s h := by cases h

/-! ## The tray's part -/

/-- The tray as it shows a session. -/
theorem Fits.same {t : Tray} (h : Fits t s) {s' : Session L} (hrunning : s'.running = s.running) :
    { t with sessionRunning := s'.running } = t := by
  rw [hrunning, ← h.running]

/-- A session that goes on does so under `Run`, or has not changed. -/
theorem Sound.streams (h : p.Sound) (hs : p.session = some s) (hcalled : s.run ≠ .notCalled)
    (hreturned : s.run ≠ .returned) : ∃ n, p.tray.worker = .streaming n := by
  have hfits := h.fits s hs
  have halive : p.tray.worker.made.isSome := h.alive.mp (by rw [hs]; rfl)
  have hrun : ¬ p.tray.worker.BeforeRun := fun hbefore => hcalled (hfits.called.mpr hbefore)
  cases hworker : p.tray.worker with
  | streaming n => exact ⟨n, rfl⟩
  | publish n | run n =>
      rw [hworker] at hrun
      exact absurd trivial hrun
  | clear n => exact absurd (hfits.returned n hworker) hreturned
  | _ =>
      rw [hworker] at halive
      cases halive

/-- A thread of the session goes on, or `Run` does. -/
theorem Sound.match_session (h : p.Sound) (hs : p.session = some s) (hreturned : s.run ≠ .returned)
    {a : Session.Act} (ha : s.run = .notCalled → ∀ b, a ≠ .run b) :
    ∃ acts, (p.withSession p.tray (s.step a)).tray = Runs.exec Tray.step p.tray acts := by
  have hfits := h.fits s hs
  have hle : (s.step a).running = true → s.running = true := by
    intro hrunning
    rcases Session.running_step hrunning with hon | ⟨hcalled, b, hb⟩
    · exact hon
    · exact absurd hb (ha hcalled b)
  by_cases hsame : (s.step a).running = s.running
  · exact ⟨[], hfits.same hsame⟩
  · -- `running_` has been cleared, and the tray's worker notices in `Run`
    have hon : s.running = true := by
      cases hrunning : s.running with
      | true => rfl
      | false =>
          cases hafter : (s.step a).running with
          | true => exact absurd ((hle hafter).symm.trans hrunning) (by rintro ⟨⟩)
          | false => exact absurd (hafter.trans hrunning.symm) hsame
    have hoff : (s.step a).running = false := by
      rw [← Bool.not_eq_true]
      exact fun hafter => hsame (hafter.trans hon.symm)
    have hcalled : s.run ≠ .notCalled := fun hcalled =>
      Bool.false_ne_true ((hfits.notRunning hcalled).symm.trans hon)
    obtain ⟨n, hworker⟩ := h.streams hs hcalled hreturned
    refine ⟨[.worker false], ?_⟩
    show { p.tray with sessionRunning := (s.step a).running } = p.tray.stepWorker false
    simp only [Tray.stepWorker, hworker, hfits.running, hon, hoff, if_true, Bool.false_and,
      Bool.false_eq_true, if_false]

/-- To the tray, a step of the UI thread is one of its own. -/
theorem Sound.tray_ui (h : p.Sound) : p.stepUi.tray = p.tray.stepUi := by
  unfold HostProgram.stepUi
  cases hui : p.tray.ui with
  | looking =>
      cases hs : p.session with
      | none => rfl
      | some s =>
          dsimp only
          split
          · next hpublished =>
              have hfits := h.fits s hs
              obtain ⟨n, hn⟩ := Option.isSome_iff_exists.mp hpublished
              have hnot : ∀ n ∈ p.tray.worker.published, n ∉ p.tray.stopped := by
                intro n hn hstopped
                cases hui.symm.trans (h.once n hn hstopped)
              have hstop := hfits.unstopped hnot (by rw [hui]; rintro _ ⟨⟩)
              have hoff : (s.step .stop).running = false := by
                simp only [Session.step, Session.stepStop, hstop]
              simp only [withSession, hoff, Tray.stepUi, hui, hn]
          · rfl
  | stopping n =>
      cases hs : p.session with
      | none => rfl
      | some s =>
          have hfits := h.fits s hs
          have hsame : (s.step .stop).running = s.running := by
            simp only [Session.step, Session.stepStop, hfits.stopping n hui]
          simp only [withSession, hsame, ← hfits.running, Tray.stepUi, hui]
  | idle | reaping | clearing | joining => rfl

/-- To the tray, a step of the worker is some of its own, or none. -/
theorem Sound.match_worker (h : p.Sound) (ok : Bool) :
    ∃ acts, (p.stepWorker ok).tray = Runs.exec Tray.step p.tray acts := by
  unfold HostProgram.stepWorker
  cases hworker : p.tray.worker with
  | establish =>
      cases ok with
      | true => exact ⟨[], rfl⟩
      | false => exact ⟨[.worker false], rfl⟩
  | run n =>
      cases hs : p.session with
      | none => exact ⟨[.worker ok], rfl⟩
      | some s =>
          have hfits := h.fits s hs
          have hcalled := hfits.called.mpr (by rw [hworker]; trivial)
          obtain ⟨link, config, hsound⟩ := hfits.sound
          have hidle : s.sending .run = false := by
            rw [← Bool.not_eq_true]
            exact fun hsending => hsound.run_ne_notCalled hsending hcalled
          have hon : (s.step (.run ok)).running = true := by
            simp only [Session.step, Session.stepRun, hidle, hcalled, Bool.false_eq_true, if_false]
          refine ⟨[.worker ok], ?_⟩
          show { p.tray.stepWorker ok with sessionRunning := (s.step (.run ok)).running } =
            p.tray.stepWorker ok
          simp only [hon, Tray.stepWorker, hworker]
  | streaming n =>
      cases hs : p.session with
      | none => exact ⟨[.worker ok], rfl⟩
      | some s =>
          have hfits := h.fits s hs
          dsimp only
          split
          · next hreturned =>
              have hoff := hfits.settled.ended (by rw [hreturned]; trivial)
              refine ⟨[.worker true], ?_⟩
              show { p.tray with worker := .clear n } = p.tray.stepWorker true
              simp only [Tray.stepWorker, hworker, hfits.running, hoff, Bool.false_eq_true,
                if_false]
          · next hreturned =>
              refine h.match_session hs hreturned fun hcalled => ?_
              have hbefore := hfits.called.mp hcalled
              rw [hworker] at hbefore
              exact hbefore.elim
  | clear n =>
      cases hs : p.session with
      | none => exact ⟨[.worker ok], rfl⟩
      | some s =>
          dsimp only
          split
          · exact ⟨[], rfl⟩
          · exact ⟨[.worker ok], rfl⟩
  | absent | initCrypto | addDisplay | testing | waitForDevice | connect | publish n
  | removeDisplay | finished => exact ⟨[.worker ok], rfl⟩

/-- To the tray, a step of the session is some of its own, or none. -/
theorem Sound.match_thread (h : p.Sound) (a : Session.Act) :
    ∃ acts, (p.stepThread a).tray = Runs.exec Tray.step p.tray acts := by
  have hother : ∀ s, p.session = some s → (∀ b, a ≠ .run b) → a ≠ .stop →
      ∃ acts, (p.withSession p.tray (s.step a)).tray = Runs.exec Tray.step p.tray acts := by
    intro s hs hrun hstop
    have hfits := h.fits s hs
    by_cases hreturned : s.run = .returned
    · obtain ⟨link, config, hsound⟩ := hfits.sound
      rw [hfits.settled.step_eq hsound hreturned hstop]
      exact ⟨[], hfits.same rfl⟩
    · exact h.match_session hs hreturned fun _ => hrun
  unfold HostProgram.stepThread
  split
  · exact ⟨[], rfl⟩
  · exact ⟨[], rfl⟩
  · exact ⟨[], rfl⟩
  · next s hrun hstop hs => exact hother s hs hrun hstop

/-- **One step of the program** is a step of the tray, or none. -/
theorem Sound.match_step (h : p.Sound) (act : Act L) :
    ∃ acts, (p.step act).tray = Runs.exec Tray.step p.tray acts := by
  cases act with
  | start => exact ⟨[.start], rfl⟩
  | stop => exact ⟨[.stop], rfl⟩
  | quit => exact ⟨[.quit], rfl⟩
  | ui => exact ⟨[.ui], h.tray_ui⟩
  | worker ok => exact h.match_worker ok
  | thread a => exact h.match_thread a
  | paired link config =>
      show ∃ acts, (p.stepPaired link config).tray = Runs.exec Tray.step p.tray acts
      unfold HostProgram.stepPaired
      split
      · next hworker =>
          refine ⟨[.worker true], ?_⟩
          show { p.tray.stepWorker true with sessionRunning := false } = p.tray.stepWorker true
          simp only [Tray.stepWorker, hworker, if_true]
      · exact ⟨[], rfl⟩

/-! ## What every step keeps -/

/-- The part of the tray that its session looks at has not changed. -/
theorem Fits.of_tray {t t' : Tray} (h : Fits t s) (hworker : t'.worker = t.worker)
    (hrunning : t'.sessionRunning = t.sessionRunning) (hstopped : t'.stopped = t.stopped)
    (hui : ∀ n, t.ui ≠ .stopping n) (hui' : ∀ n, t'.ui ≠ .stopping n) : Fits t' s where
  sound := h.sound
  settled := h.settled
  running := hrunning.trans h.running
  called := by
    rw [hworker]
    exact h.called
  notRunning := h.notRunning
  returned n hn := h.returned n (hworker ▸ hn)
  unstopped hnot _ := by
    rw [hworker, hstopped] at hnot
    exact h.unstopped hnot hui
  stopping n hn := absurd hn (hui' n)

/-- `Run` or another thread of the session goes on. -/
theorem Fits.goes {t : Tray} (h : Fits t s) {a : Session.Act} (ha : a ≠ .stop)
    (hrun : s.run = .notCalled → ∀ b, a ≠ .run b) :
    Fits { t with sessionRunning := (s.step a).running } (s.step a) where
  sound := by
    obtain ⟨link, config, hsound⟩ := h.sound
    exact ⟨link, config, hsound.step a⟩
  settled := h.settled.step a
  running := rfl
  called := by
    refine Iff.trans ⟨fun hafter => ?_, fun hcalled => ?_⟩ h.called
    · by_contra hcalled
      exact Session.called_step hcalled hafter
    · rw [Session.run_step (hrun hcalled), hcalled]
  notRunning hafter := by
    have hcalled : s.run = .notCalled := by
      by_contra hcalled
      exact Session.called_step hcalled hafter
    rw [← Bool.not_eq_true]
    intro hon
    rcases Session.running_step hon with hon | ⟨-, b, hb⟩
    · exact Bool.false_ne_true ((h.notRunning hcalled).symm.trans hon)
    · exact hrun hcalled b hb
  returned n hn := by
    obtain ⟨link, config, hsound⟩ := h.sound
    have hreturned := h.returned n hn
    rw [h.settled.step_eq hsound hreturned ha, hreturned]
  unstopped hnot hui := by
    rw [Session.stop_step ha]
    exact h.unstopped hnot hui
  stopping n hn := by
    rw [Session.stop_step ha]
    exact h.stopping n hn

/-- The UI thread goes on in `Stop`. -/
theorem Fits.stops {t t' : Tray} (h : Fits t s) (hworker : t'.worker = t.worker)
    (hrunning : t'.sessionRunning = (s.step .stop).running)
    (hunstopped : (∀ n ∈ t'.worker.published, n ∉ t'.stopped) → (∀ n, t'.ui ≠ .stopping n) → False)
    (hstopping : ∀ n, t'.ui = .stopping n → (s.step .stop).stop = .cleared) :
    Fits t' (s.step .stop) := by
  have hrun : (s.step .stop).run = s.run := Session.run_step fun b => by rintro ⟨⟩
  exact {
    sound := by
      obtain ⟨link, config, hsound⟩ := h.sound
      exact ⟨link, config, hsound.step .stop⟩
    settled := h.settled.step .stop
    running := hrunning
    called := by
      rw [hrun, hworker]
      exact h.called
    notRunning := fun hafter => by
      rw [hrun] at hafter
      rw [← Bool.not_eq_true]
      intro hon
      rcases Session.running_step hon with hon | ⟨-, b, hb⟩
      · exact Bool.false_ne_true ((h.notRunning hafter).symm.trans hon)
      · cases hb
    returned := fun n hn => hrun.trans (h.returned n (hworker ▸ hn))
    unstopped := fun hnot hui => (hunstopped hnot hui).elim
    stopping := hstopping }

/-- The session that the UI thread has got at is the worker's. -/
theorem Sound.published (h : p.Sound) {n : ℕ} (hn : p.tray.session = some n) :
    n ∈ p.tray.worker.published := by
  rw [← h.tray.published, hn]
  rfl

/-- The tray and the session fit after a step of the UI thread. -/
theorem Sound.fits_ui (h : p.Sound) : ∀ s, p.stepUi.session = some s → Fits p.stepUi.tray s := by
  intro s'
  unfold HostProgram.stepUi
  cases hui : p.tray.ui with
  | looking =>
      cases hs : p.session with
      | none => simp
      | some s =>
          have hfits := h.fits s hs
          dsimp only
          split
          · next hpublished =>
              obtain ⟨n, hn⟩ := Option.isSome_iff_exists.mp hpublished
              have hnot : ∀ n ∈ p.tray.worker.published, n ∉ p.tray.stopped := by
                intro n hn hstopped
                cases hui.symm.trans (h.once n hn hstopped)
              have hstop := hfits.unstopped hnot (by rw [hui]; rintro _ ⟨⟩)
              have hnext : p.tray.stepUi.ui = .stopping n := by simp only [Tray.stepUi, hui, hn]
              rintro ⟨⟩
              refine hfits.stops ?_ rfl (fun _ hui => hui n hnext) fun _ _ => ?_
              · simp only [withSession, Tray.stepUi, hui, hn]
              · simp only [Session.step, Session.stepStop, hstop]
          · next hnone =>
              rw [Option.not_isSome_iff_eq_none] at hnone
              have hnext : p.tray.stepUi = { p.tray with ui := .joining } := by
                simp only [Tray.stepUi, hui, hnone]
              rintro ⟨⟩
              rw [hnext]
              exact hfits.of_tray rfl rfl rfl (by rw [hui]; rintro _ ⟨⟩) (by rintro _ ⟨⟩)
  | stopping n =>
      cases hs : p.session with
      | none => simp
      | some s =>
          have hfits := h.fits s hs
          have hn := h.published (h.tray.stopping n hui)
          have hnext : p.tray.stepUi =
              { p.tray with stopped := n :: p.tray.stopped, ui := .joining } := by
            simp only [Tray.stepUi, hui]
          rintro ⟨⟩
          refine hfits.stops ?_ rfl (fun hnot _ => ?_) fun m hm => ?_
          · simp only [withSession, hnext]
          · simp only [withSession, hnext] at hnot
            exact hnot n hn List.mem_cons_self
          · simp only [withSession, hnext] at hm
            cases hm
  | idle =>
      have hnext : p.tray.stepUi = p.tray := by simp only [Tray.stepUi, hui]
      rw [hnext]
      exact fun hs => h.fits s' hs
  | clearing =>
      intro hs
      have hnext : p.tray.stepUi = { p.tray with running := false, ui := .looking } := by
        simp only [Tray.stepUi, hui]
      rw [hnext]
      exact (h.fits s' hs).of_tray rfl rfl rfl (by rw [hui]; rintro _ ⟨⟩) (by rintro _ ⟨⟩)
  | reaping | joining =>
      intro hs
      -- a worker that is joined has no session
      have hmade : p.tray.worker.made.isSome := h.alive.mp (by rw [show p.session = _ from hs]; rfl)
      have hnext : p.tray.stepUi = p.tray := by
        simp only [Tray.stepUi, hui]
        cases hworker : p.tray.worker with
        | absent | finished =>
            rw [hworker] at hmade
            cases hmade
        | _ => rfl
      rw [hnext]
      exact h.fits s' hs

/-- The tray and the session fit after a step of the worker. -/
theorem Sound.fits_worker (h : p.Sound) (ok : Bool) :
    ∀ s, (p.stepWorker ok).session = some s → Fits (p.stepWorker ok).tray s := by
  intro s'
  have hgone : p.tray.worker.made = none → p.session = none := by
    intro hnone
    rw [← Option.not_isSome_iff_eq_none, h.alive, hnone]
    exact Bool.false_ne_true
  unfold HostProgram.stepWorker
  cases hworker : p.tray.worker with
  | absent | initCrypto | addDisplay | testing | waitForDevice | connect | removeDisplay
  | finished =>
      have hnone := hgone (by rw [hworker]; rfl)
      simp [hnone]
  | establish =>
      have hnone := hgone (by rw [hworker]; rfl)
      cases ok <;> simp [hnone]
  | publish n =>
      intro hs
      have hfits := h.fits s' hs
      by_cases hlocked : p.tray.locked = true
      · have hnext : p.tray.stepWorker ok = p.tray := by
          simp only [Tray.stepWorker, hworker, hlocked, if_true]
        rw [hnext]
        exact hfits
      · have hnext : p.tray.stepWorker ok =
            { p.tray with session := some n, worker := .run n } := by
          simp only [Tray.stepWorker, hworker, hlocked, Bool.false_eq_true, if_false]
        have hfree : ∀ m, p.tray.ui ≠ .stopping m := by
          intro m hm
          exact hlocked (by rw [Tray.locked, hm])
        have hnot : ∀ n ∈ p.tray.worker.published, n ∉ p.tray.stopped := by
          rw [hworker]
          rintro _ ⟨⟩
        rw [hnext]
        exact {
          sound := hfits.sound
          settled := hfits.settled
          running := hfits.running
          called := hfits.called.trans (by rw [hworker]; rfl)
          notRunning := hfits.notRunning
          returned := fun m hm => by cases hm
          unstopped := fun _ _ => hfits.unstopped hnot hfree
          stopping := fun m hm => absurd hm (hfree m) }
  | run n =>
      cases hs : p.session with
      | none => simp
      | some s =>
          have hfits := h.fits s hs
          have hcalled := hfits.called.mpr (by rw [hworker]; trivial)
          obtain ⟨link, config, hsound⟩ := hfits.sound
          have hidle : s.sending .run = false := by
            rw [← Bool.not_eq_true]
            exact fun hsending => hsound.run_ne_notCalled hsending hcalled
          have hrun : (s.step (.run ok)).run = .sendHello := by
            simp only [Session.step, Session.stepRun, hidle, hcalled, Bool.false_eq_true, if_false]
          have hnext : p.tray.stepWorker ok =
              { p.tray with sessionRunning := true, worker := .streaming n } := by
            simp only [Tray.stepWorker, hworker]
          rintro ⟨⟩
          rw [hnext]
          refine {
            sound := ⟨link, config, hsound.step _⟩
            settled := hfits.settled.step _
            running := rfl
            called := ?_
            notRunning := fun hafter => by cases hrun.symm.trans hafter
            returned := fun m hm => by cases hm
            unstopped := fun hnot hui => ?_
            stopping := fun m hm => ?_ }
          · rw [hrun]
            exact ⟨fun h => (by cases h), False.elim⟩
          · rw [Session.stop_step (by rintro ⟨⟩)]
            refine hfits.unstopped ?_ hui
            rw [hworker]
            exact hnot
          · rw [Session.stop_step (by rintro ⟨⟩)]
            exact hfits.stopping m hm
  | streaming n =>
      cases hs : p.session with
      | none => simp
      | some s =>
          have hfits := h.fits s hs
          dsimp only
          split
          · next hreturned =>
              rintro ⟨⟩
              refine { hfits with
                called := ?_
                returned := fun _ _ => hreturned
                unstopped := fun hnot => hfits.unstopped (by rw [hworker]; exact hnot) }
              rw [hreturned]
              exact ⟨fun h => (by cases h), False.elim⟩
          · next hreturned =>
              rintro ⟨⟩
              refine hfits.goes (by rintro ⟨⟩) fun hcalled => ?_
              have hbefore := hfits.called.mp hcalled
              rw [hworker] at hbefore
              exact hbefore.elim
  | clear n =>
      cases hs : p.session with
      | none => simp
      | some s =>
          dsimp only
          split
          · intro hs'
            exact h.fits s' hs'
          · rintro ⟨⟩

/-- The tray and the session fit after a step of the session. -/
theorem Sound.fits_thread (h : p.Sound) (a : Session.Act) :
    ∀ s, (p.stepThread a).session = some s → Fits (p.stepThread a).tray s := by
  unfold HostProgram.stepThread
  split
  · exact h.fits
  · exact h.fits
  · exact h.fits
  · next s hrun hstop hs =>
      rintro s' ⟨⟩
      exact (h.fits s hs).goes hstop fun _ => hrun

/-! ## In any run -/

theorem made_stepUi (t : Tray) : t.stepUi.worker.made = t.worker.made := by
  unfold Tray.stepUi
  split
  · rfl
  · split <;> simp_all [Worker.made]
  · rfl
  · split <;> rfl
  · rfl
  · split <;> simp_all [Worker.made]

theorem isSome_stepUi (p : HostProgram L) : p.stepUi.session.isSome = p.session.isSome := by
  unfold HostProgram.stepUi
  split
  · next s hui hs =>
      split
      · rw [hs]
        rfl
      · rfl
  · next hs =>
      rw [hs]
      rfl
  · rfl

/-- The worker makes the session and destroys it. -/
theorem Sound.alive_worker (h : p.Sound) (ok : Bool) :
    (p.stepWorker ok).session.isSome ↔ (p.stepWorker ok).tray.worker.made.isSome := by
  have halive := h.alive
  unfold HostProgram.stepWorker
  cases hworker : p.tray.worker with
  | establish =>
      rw [hworker] at halive
      cases ok with
      | true => simpa [hworker] using halive
      | false => simpa [Tray.stepWorker, hworker, Worker.made] using halive
  | run n | streaming n =>
      rw [hworker] at halive
      cases hs : p.session with
      | none =>
          rw [hs] at halive
          exact absurd (halive.mpr rfl) Bool.false_ne_true
      | some s =>
          dsimp only
          try split
          all_goals simp [withSession, Tray.stepWorker, hworker, Worker.made]
  | clear n =>
      rw [hworker] at halive
      cases hs : p.session with
      | none =>
          rw [hs] at halive
          exact absurd (halive.mpr rfl) Bool.false_ne_true
      | some s =>
          dsimp only
          split
          · simp [hs, hworker, Worker.made]
          · next hlocked => simp [Tray.stepWorker, hworker, hlocked, Worker.made]
  | publish n =>
      rw [hworker] at halive
      simp only [Tray.stepWorker, hworker]
      split
      · rwa [hworker]
      · exact halive
  | initCrypto | addDisplay | testing | waitForDevice | connect =>
      rw [hworker] at halive
      simp only [Tray.stepWorker, hworker]
      split_ifs <;> exact halive
  | absent | removeDisplay | finished =>
      rw [hworker] at halive
      simp only [Tray.stepWorker, hworker]
      exact halive

/-- The session is there as long as the worker has one. -/
theorem Sound.alive_step (h : p.Sound) (act : Act L) :
    (p.step act).session.isSome ↔ (p.step act).tray.worker.made.isSome := by
  cases act with
  | start | stop | quit =>
      simp only [step, Tray.step]
      split_ifs <;> exact h.alive
  | ui =>
      show p.stepUi.session.isSome ↔ p.stepUi.tray.worker.made.isSome
      rw [isSome_stepUi, h.tray_ui, made_stepUi]
      exact h.alive
  | worker ok => exact h.alive_worker ok
  | paired link config =>
      show (p.stepPaired link config).session.isSome ↔
        (p.stepPaired link config).tray.worker.made.isSome
      unfold HostProgram.stepPaired
      split
      · next hworker => simp [withSession, Tray.stepWorker, hworker, Worker.made]
      · exact h.alive
  | thread a =>
      show (p.stepThread a).session.isSome ↔ (p.stepThread a).tray.worker.made.isSome
      unfold HostProgram.stepThread
      split
      · exact h.alive
      · exact h.alive
      · exact h.alive
      · next s hrun hstop hs =>
          have halive := h.alive
          rw [hs] at halive
          exact halive

/-- The tray and the session fit after any step. -/
theorem Sound.fits_step (h : p.Sound) (act : Act L) :
    ∀ s, (p.step act).session = some s → Fits (p.step act).tray s := by
  cases act with
  | start | stop | quit =>
      intro s hs
      simp only [step, Tray.step]
      split_ifs with hui
      all_goals first
        | exact h.fits s hs
        | exact (h.fits s hs).of_tray rfl rfl rfl (by rw [not_not.mp hui]; rintro _ ⟨⟩)
            (by rintro _ ⟨⟩)
  | ui => exact h.fits_ui
  | worker ok => exact h.fits_worker ok
  | thread a => exact h.fits_thread a
  | paired link config =>
      show ∀ s, (p.stepPaired link config).session = some s →
        Fits (p.stepPaired link config).tray s
      unfold HostProgram.stepPaired
      split
      · next hworker =>
          have hfree : ∀ m, p.tray.ui ≠ .stopping m := by
            intro m hm
            have hpublished := h.published (h.tray.stopping m hm)
            rw [hworker] at hpublished
            cases hpublished
          have hnext : p.tray.stepWorker true = { p.tray with
              worker := .publish p.tray.made
              made := p.tray.made + 1
              sessionRunning := false } := by
            simp only [Tray.stepWorker, hworker, if_true]
          rintro s ⟨⟩
          rw [hnext]
          exact {
            sound := ⟨link, config, Session.sound_start link config⟩
            settled := Session.settled_start link config
            running := rfl
            called := ⟨fun _ => trivial, fun _ => rfl⟩
            notRunning := fun _ => rfl
            returned := fun m hm => by cases hm
            unstopped := fun _ _ => rfl
            stopping := fun m hm => absurd hm (hfree m) }
      · exact h.fits

/-- What is destroyed has been settled. -/
theorem Sound.destroyed_step (h : p.Sound) (act : Act L) :
    ∀ s ∈ (p.step act).destroyed, (∃ link config, s.Sound link config) ∧ s.Settled ∧
      s.run = .returned := by
  cases act with
  | start | stop | quit => exact h.destroyed
  | ui =>
      have hsame : p.stepUi.destroyed = p.destroyed := by
        unfold HostProgram.stepUi
        split
        · split <;> rfl
        · rfl
        · rfl
      show ∀ s ∈ p.stepUi.destroyed, _
      rw [hsame]
      exact h.destroyed
  | worker ok =>
      show ∀ s ∈ (p.stepWorker ok).destroyed, _
      unfold HostProgram.stepWorker
      split
      · split <;> exact h.destroyed
      · exact h.destroyed
      · split <;> exact h.destroyed
      · next n s hworker hs =>
          have hfits := h.fits s hs
          split
          · exact h.destroyed
          · exact List.forall_mem_cons.mpr
              ⟨⟨hfits.sound, hfits.settled, hfits.returned n hworker⟩, h.destroyed⟩
      · exact h.destroyed
  | paired link config =>
      show ∀ s ∈ (p.stepPaired link config).destroyed, _
      unfold HostProgram.stepPaired
      split <;> exact h.destroyed
  | thread a =>
      show ∀ s ∈ (p.stepThread a).destroyed, _
      unfold HostProgram.stepThread
      split <;> exact h.destroyed

/-- **One step keeps it.** -/
theorem Sound.step (h : p.Sound) (act : Act L) : (p.step act).Sound := by
  obtain ⟨acts, hacts⟩ := h.match_step act
  have htray : (p.step act).tray.Sound ∧ (p.step act).tray.Once := by
    rw [hacts]
    exact Runs.exec_preserves (P := fun t : Tray => t.Sound ∧ t.Once)
      (fun t i ht => ⟨ht.1.step i, ht.2.step ht.1 i⟩) ⟨h.tray, h.once⟩ acts
  exact ⟨htray.1, htray.2, h.fits_step act, h.alive_step act, h.destroyed_step act⟩

/-- **It holds in all states of a run.** -/
theorem sound_after (acts : List (Act L)) : (after acts).Sound :=
  Runs.exec_preserves (P := Sound) (fun _ act h => h.step act) sound_new acts

/-- **The tray's part of a run of the program is a run of the tray**, in which `sessionRunning` is
the `running_` of the session that the worker has made. -/
theorem run_refines_tray (acts : List (Act L)) :
    (∃ acts', (after acts).tray = Runs.exec Tray.step {} acts') ∧
      ∀ s, (after acts).session = some s → (after acts).tray.sessionRunning = s.running :=
  ⟨Runs.exec_refines HostProgram.tray (fun _ act h => Sound.step h act)
    (fun _ act h => h.match_step act) sound_new acts,
    fun s hs => ((sound_after acts).fits s hs).running⟩

/-- **Nothing that is destroyed is used**, in any order of the steps of the UI thread, the worker
and the threads of the session: what `g_session` leads to and what `Stop` is called on is there, and
of a session that is destroyed no thread has anything left to do, its capture source is closed, its
encoder shut down and its control thread has exited. -/
theorem destroyed_unused (acts : List (Act L)) :
    let p := after acts
    (∀ n, p.tray.session = some n ∨ p.tray.ui = .stopping n →
      p.session.isSome ∧ p.tray.worker.made = some n) ∧
      ∀ s ∈ p.destroyed, (∀ act, act ≠ .stop → s.step act = s) ∧ s.view = .closed ∧
        s.encoder = none ∧ s.control = .exited := by
  have h := sound_after acts
  dsimp only
  generalize after acts = p at h
  constructor
  · intro n hn
    have hsession : p.tray.session = some n := hn.elim id (h.tray.stopping n)
    have hmade : p.tray.worker.made = some n := by
      have hpublished := h.published hsession
      cases hworker : p.tray.worker with
      | run m | streaming m | clear m =>
          rw [hworker] at hpublished
          exact hpublished
      | _ =>
          rw [hworker] at hpublished
          cases hpublished
    exact ⟨h.alive.mpr (by rw [hmade]; rfl), hmade⟩
  · intro s hs
    obtain ⟨⟨link, config, hsound⟩, hsettled, hreturned⟩ := h.destroyed s hs
    obtain ⟨hcapturing, hcapture⟩ := hsettled.captured (by rw [hreturned]; trivial)
    refine ⟨fun act hact => hsettled.step_eq hsound hreturned hact, ?_,
      hsettled.shutDown (.inr hreturned), hsettled.joined hreturned⟩
    rw [Session.view, hcapture, hcapturing]
    rfl

end HostProgram

end TetherDisplay.Ui
