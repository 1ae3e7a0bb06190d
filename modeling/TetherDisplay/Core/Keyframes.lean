import TetherDisplay.Core.SessionRuns
import Mathlib.Data.Option.Basic

/-!
# Keyframe requests

The first frame of a session, and the first frame after a KEYFRAME_REQUEST, should be
keyframes: a decoder has nothing to start from otherwise.  The request is a flag that the
next `OnFrame` call takes before it calls the encoder, so it is lost if the encoder then
emits nothing; and a call that had begun before the request takes it as well.

`Prompt` excludes these two.  A request is then, at every point, still in the flag, on its
way through `EncodeFrame`, answered, or outlived by the session (`Pending`).
-/

namespace TetherDisplay.Core

open Encode (Codec EncoderConfig EncodedPacket)
open LockedSender (Wiring Sender Stage)

/-- How a message is marked, if it is a VIDEO_FRAME. -/
def Outgoing.frameType (o : Outgoing) : Option UInt8 :=
  match o.msg with
  | .videoFrame vf => some vf.frameType
  | _ => none

/-- A VIDEO_FRAME of an `OnFrame` call after the first `n`. -/
def Outgoing.isLater (n : ℕ) (o : Outgoing) : Bool := o.frameType.isSome && decide (n < o.call)

/-- What is later is a frame of a later call. -/
theorem Outgoing.isLater_iff {n : ℕ} {o : Outgoing} :
    o.isLater n = true ↔ o.frameType.isSome ∧ n < o.call := by
  simp [isLater]

/-- What `EncodeFrame` has been asked for, and how many packets it has emitted. -/
def CapturePoint.encodes : CapturePoint → Option (Bool × ℕ)
  | .encoding _ idr k => some (idr, k)
  | _ => none

/-- Is the flag about to be taken? -/
def CapturePoint.atExchange : CapturePoint → Bool
  | .ready _ => true
  | _ => false

/-- `OnFrame` is in `EncodeFrame`. -/
def CapturePoint.Calling : CapturePoint → Prop
  | .encoding _ _ _ => True
  | _ => False

/-- `OnFrame` is not running, or has not yet looked whether the session is. -/
def CapturePoint.Outside : CapturePoint → Prop
  | .idle | .entered _ => True
  | _ => False

theorem CapturePoint.Preparing.not_calling {p : CapturePoint} (h : p.Preparing) :
    ¬ p.Calling := by
  cases p with
  | encoding f idr n => exact absurd h id
  | _ => exact id

namespace Session

variable {L : Wiring Bytes UInt8} {link : L.State} {config : EncoderConfig} {s : Session L}
  {n : ℕ}

/-- The first VIDEO_FRAME sent by an `OnFrame` call after the first `n`. -/
def firstFrameAfter (s : Session L) (n : ℕ) : Option Outgoing :=
  (s.sender.sent.map Prod.snd).find? (Outgoing.isLater n)

/-- Whatever request was handled when `n` calls had begun is answered by an IDR. -/
def Answered (s : Session L) (n : ℕ) : Prop :=
  ∀ o ∈ s.firstFrameAfter n, o.frameType = some kFrameIDR

/-- No request is lost; the session begins with one. -/
def KeyframesKept (s : Session L) : Prop := ∀ n ∈ 0 :: s.requests, s.Answered n

instance (s : Session L) (n : ℕ) : Decidable (s.Answered n) :=
  inferInstanceAs (Decidable (∀ o ∈ s.firstFrameAfter n, o.frameType = some kFrameIDR))

instance (s : Session L) : Decidable s.KeyframesKept :=
  inferInstanceAs (Decidable (∀ n ∈ 0 :: s.requests, s.Answered n))

/-- What `IEncoder` promises: keyframes where one is forced, and deltas elsewhere. -/
def EncoderContract (s : Session L) : Act → Prop
  | .packet p => ∀ e ∈ s.capture.encodes, p.isKeyframe = e.1
  | _ => True

/-- The encoder emits something when a keyframe is forced, as long as the session runs, and
no request is handled between the beginning of an `OnFrame` call and its exchange. -/
def Prompt (s : Session L) : Act → Prop
  | .encoded => ∀ e ∈ s.capture.encodes, e.1 = true → s.running = true → 0 < e.2
  | .capture _ => s.capture.atExchange = true → ∀ n ∈ s.requests, n < s.calls
  | _ => True

instance (s : Session L) : ∀ act, Decidable (s.EncoderContract act)
  | .packet p => inferInstanceAs (Decidable (∀ e ∈ s.capture.encodes, p.isKeyframe = e.1))
  | .send _ _ | .run _ | .deliver _ | .capture _ | .encoded | .control | .recv _ | .stop =>
      inferInstanceAs (Decidable True)

instance (s : Session L) : ∀ act, Decidable (s.Prompt act)
  | .encoded => inferInstanceAs
      (Decidable (∀ e ∈ s.capture.encodes, e.1 = true → s.running = true → 0 < e.2))
  | .capture _ => inferInstanceAs
      (Decidable (s.capture.atExchange = true → ∀ n ∈ s.requests, n < s.calls))
  | .send _ _ | .run _ | .deliver _ | .packet _ | .control | .recv _ | .stop =>
      inferInstanceAs (Decidable True)

/-! ## Where a request is -/

/-- It is in the flag, and no call that begins later has passed the exchange. -/
def Owed (s : Session L) (n : ℕ) : Prop :=
  s.firstFrameAfter n = none ∧ s.forceIdr = true ∧
    (s.calls = n ∨ ∀ f idr k, s.capture ≠ .encoding f idr k)

/-- It is on its way: the encoder is asked for a keyframe, and what it has emitted has not
been lost unless the session is over. -/
def UnderWay (s : Session L) (n : ℕ) : Prop :=
  s.firstFrameAfter n = none ∧ n < s.calls ∧
    (∀ st o, s.sender.stage .capture = some st → st.item = some o →
      o.frameType = some kFrameIDR ∧ n < o.call) ∧
    ∃ f k, s.capture = .encoding f true k ∧
      (k = 0 ∨ s.running = false ∨ ∃ st, s.sender.stage .capture = some st ∧ st ≠ .leaving)

/-- The session is over. -/
def Outlived (s : Session L) (n : ℕ) : Prop :=
  s.firstFrameAfter n = none ∧ s.run ≠ .notCalled ∧ s.running = false ∧
    (s.capture = .idle ∨ ∃ f, s.capture = .entered f)

theorem UnderWay.calling (h : s.UnderWay n) {p : CapturePoint} (hcapture : s.capture = p) :
    p.Calling := by
  obtain ⟨-, -, -, f, k, hencoding, -⟩ := h
  rw [← hcapture, hencoding]
  trivial

theorem Outlived.outside (h : s.Outlived n) {p : CapturePoint} (hcapture : s.capture = p) :
    p.Outside := by
  rw [← hcapture]
  rcases h.2.2.2 with hidle | ⟨f, hentered⟩
  · rw [hidle]
    trivial
  · rw [hentered]
    trivial

/-- **Where a request may be.** -/
def Pending (s : Session L) (n : ℕ) : Prop :=
  s.Owed n ∨ s.UnderWay n ∨ s.Outlived n ∨
    ∃ o, s.firstFrameAfter n = some o ∧ o.frameType = some kFrameIDR

/-- Wherever a request may be, no frame but a keyframe follows it. -/
theorem Pending.answered (h : s.Pending n) : s.Answered n := by
  intro o ho
  rw [Option.mem_def] at ho
  rcases h with ⟨hnone, -⟩ | ⟨hnone, -⟩ | ⟨hnone, -⟩ | ⟨o', hfirst, hidr⟩
  · rw [hnone] at ho
    cases ho
  · rw [hnone] at ho
    cases ho
  · rw [hnone] at ho
    cases ho
  · rw [hfirst] at ho
    cases ho
    exact hidr

/-- A request that is handled is in the flag. -/
theorem Sound.owed (h : s.Sound link config) (hflag : s.forceIdr = true) : s.Owed s.calls := by
  refine ⟨List.find?_eq_none.mpr fun o ho hlater => ?_, hflag, Or.inl rfl⟩
  obtain ⟨x, hx, rfl⟩ := List.mem_map.mp ho
  exact absurd (h.speaks.sent x hx).2 (not_le.mpr (Outgoing.isLater_iff.mp hlater).2)

/-! ## The steps -/

/-- A frame that has been sent is not followed by another first one. -/
theorem firstFrameAfter_stepSend (s : Session L) (n : ℕ) (t : Thread) (a : LockedSender.Act) :
    (s.stepSend t a).firstFrameAfter n = s.firstFrameAfter n ∨
      ∃ o, s.firstFrameAfter n = none ∧ (s.stepSend t a).firstFrameAfter n = some o ∧
        s.sender.stage t = some (.writing o []) ∧ o.isLater n = true := by
  have hfirst : (s.stepSend t a).firstFrameAfter n =
      ((s.sender.step t a).sent.map Prod.snd).find? (Outgoing.isLater n) := rfl
  rcases s.sender.sent_step t a with hsent | ⟨o, hstage, hsent⟩
  · rw [hfirst, hsent]
    exact Or.inl rfl
  · rw [hfirst, hsent, List.map_append, List.find?_append]
    cases hbefore : s.firstFrameAfter n with
    | some o' =>
        have hfind : (s.sender.sent.map Prod.snd).find? (Outgoing.isLater n) = some o' := hbefore
        rw [hfind]
        exact Or.inl rfl
    | none =>
        have hfind : (s.sender.sent.map Prod.snd).find? (Outgoing.isLater n) = none := hbefore
        rw [hfind]
        cases hlater : o.isLater n with
        | true => exact Or.inr ⟨o, rfl, by simp [hlater], hstage, hlater⟩
        | false => exact Or.inl (by simp [hlater])

/-- The first frame after a request is sent. -/
theorem firstFrameAfter_accept {t : Thread} {o : Outgoing}
    (hstage : s.sender.stage t = some (.writing o [])) (hnone : s.firstFrameAfter n = none)
    (hlater : o.isLater n = true) : (s.stepSend t .accept).firstFrameAfter n = some o := by
  have hsent : (s.stepSend t .accept).sender.sent = s.sender.sent ++ [(t, o)] := by
    simp only [Session.stepSend, Sender.step, hstage]
  unfold firstFrameAfter at hnone ⊢
  rw [hsent, List.map_append, List.find?_append, hnone]
  simp [hlater]

/-- Only the capture thread sends VIDEO_FRAMEs. -/
theorem Sound.eq_capture (h : s.Sound link config) {t : Thread} {st : Stage Outgoing UInt8}
    {o : Outgoing} (hstage : s.sender.stage t = some st) (hitem : st.item = some o)
    (hlater : o.isLater n = true) : t = .capture := by
  have hspeaks := (h.speaks.stage t st o hstage hitem).1
  have hframe := (Outgoing.isLater_iff.mp hlater).1
  unfold Outgoing.frameType at hframe
  cases hmsg : o.msg with
  | videoFrame vf =>
      rw [hmsg] at hspeaks
      cases t with
      | capture => rfl
      | run | control => exact hspeaks.elim
  | _ =>
      rw [hmsg] at hframe
      cases hframe

/-- A frame in `Send` belongs to a call of `EncodeFrame`. -/
theorem Sound.encoding_of_stage (h : s.Sound link config) {st : Stage Outgoing UInt8}
    (hstage : s.sender.stage .capture = some st) :
    ∃ f idr k, s.capture = .encoding f idr (k + 1) :=
  h.captureSends (by rw [sending, hstage]; rfl)

/-- A frame that is in `Send` stays there until it is taken, or refused and `running_`
cleared. -/
theorem inSend_stepSend {st : Stage Outgoing UInt8} (hst : s.sender.stage .capture = some st)
    (hne : st ≠ .leaving) (t : Thread) (a : LockedSender.Act)
    (htaken : ∀ o, t = .capture → a = .accept → st ≠ .writing o []) :
    (s.stepSend t a).running = false ∨
      ∃ st', (s.stepSend t a).sender.stage .capture = some st' ∧ st' ≠ .leaving := by
  by_cases ht : t = .capture
  · subst ht
    have hstep : (s.stepSend .capture a).sender = s.sender.step .capture a := rfl
    rcases s.sender.step_cases .capture a with hidle | hmove
    · rw [hstep, hidle]
      exact Or.inr ⟨st, hst, hne⟩
    · rw [hstep]
      generalize s.sender.step .capture a = sender' at hmove ⊢
      cases hmove with
      | lock o hfree hstage =>
          exact Or.inr (by simp)
      | write m o rest hstage =>
          exact Or.inr (by simp)
      | accept o hstage =>
          rw [hst] at hstage
          exact absurd (Option.some.inj hstage) (htaken o rfl rfl)
      | refuse o rest hstage =>
          exact Or.inr (by simp)
      | acknowledge hstage =>
          refine Or.inl (Bool.eq_false_of_not_eq_true fun hon => ?_)
          exact (stepSend_running.mp hon).2 ⟨rfl, hstage⟩
      | unlock hstage =>
          rw [hst] at hstage
          exact absurd (Option.some.inj hstage) hne
  · have hsame : (s.stepSend t a).sender.stage .capture = s.sender.stage .capture :=
      Sender.stage_step_of_ne (Ne.symm ht) a
    exact Or.inr ⟨st, hsame.trans hst, hne⟩

/-- A step in `Send` keeps it. -/
theorem Pending.stepSend (hsound : s.Sound link config) (h : s.Pending n) (t : Thread)
    (a : LockedSender.Act) : (s.stepSend t a).Pending n := by
  rcases s.firstFrameAfter_stepSend n t a with hsame | ⟨o, hnone, hsome, hstage, hlater⟩
  · -- nothing that matters has been sent
    rcases h with ⟨hnone, hflag, hcall⟩ | ⟨hnone, hcall, hitems, f, k, hcapture, hleft⟩ |
      ⟨hnone, hrun, hrunning, hcapture⟩ | ⟨o, hfirst, hidr⟩
    · exact Or.inl ⟨hsame.trans hnone, hflag, hcall⟩
    · refine Or.inr (Or.inl ⟨hsame.trans hnone, hcall, ?_, f, k, hcapture, ?_⟩)
      · intro st o hst hitem
        obtain ⟨st', hst', hitem'⟩ := Sender.item_of_step hst hitem
        exact hitems st' o hst' hitem'
      · rcases hleft with hk | hrunning | ⟨st, hst, hne⟩
        · exact Or.inl hk
        · exact Or.inr (Or.inl (ended_stepSend hrunning t a))
        · refine Or.inr (inSend_stepSend hst hne t a ?_)
          rintro o rfl rfl rfl
          -- taken, it would be the first frame
          obtain ⟨hidr, hcall⟩ := hitems _ o hst rfl
          have hlater : o.isLater n = true := Outgoing.isLater_iff.mpr ⟨by rw [hidr]; rfl, hcall⟩
          rw [firstFrameAfter_accept hst hnone hlater, hnone] at hsame
          cases hsame
    · refine Or.inr (Or.inr (Or.inl ⟨hsame.trans hnone, hrun, ?_, hcapture⟩))
      exact ended_stepSend hrunning t a
    · exact Or.inr (Or.inr (Or.inr ⟨o, hsame.trans hfirst, hidr⟩))
  · -- the first frame has been sent
    obtain rfl := hsound.eq_capture hstage rfl hlater
    obtain ⟨f, idr, k, hencoding⟩ := hsound.encoding_of_stage hstage
    rcases h with ⟨-, -, hcall⟩ | ⟨-, -, hitems, -⟩ | houtlived | ⟨o', hfirst, -⟩
    · have hbound := (hsound.speaks.stage _ _ o hstage rfl).2
      rcases hcall with hcall | hcall
      · exact absurd (Outgoing.isLater_iff.mp hlater).2 (not_lt.mpr (hcall ▸ hbound))
      · exact absurd hencoding (hcall f idr (k + 1))
    · exact Or.inr (Or.inr (Or.inr ⟨o, hsome, (hitems _ o hstage rfl).1⟩))
    · exact (houtlived.outside hencoding).elim
    · rw [hnone] at hfirst
      cases hfirst

/-! ### The other moves -/

/-- The session is stopped. -/
theorem Pending.stopped (h : s.Pending n) : Pending { s with running := false } n := by
  rcases h with howed | ⟨hnone, hcall, hitems, f, k, hcapture, -⟩ |
    ⟨hnone, hrun, -, hcapture⟩ | hserved
  · exact Or.inl howed
  · exact Or.inr (Or.inl ⟨hnone, hcall, hitems, f, k, hcapture, Or.inr (Or.inl rfl)⟩)
  · exact Or.inr (Or.inr (Or.inl ⟨hnone, hrun, rfl, hcapture⟩))
  · exact Or.inr (Or.inr (Or.inr hserved))

/-- `Run` goes on. -/
theorem Pending.runMove (h : s.Pending n) {q : RunPoint} (hq : q ≠ .notCalled) :
    Pending { s with run := q } n := by
  rcases h with howed | hway | ⟨hnone, -, hrunning, hcapture⟩ | hserved
  · exact Or.inl howed
  · exact Or.inr (Or.inl hway)
  · exact Or.inr (Or.inr (Or.inl ⟨hnone, hq, hrunning, hcapture⟩))
  · exact Or.inr (Or.inr (Or.inr hserved))

/-- Another thread comes to `Send`. -/
theorem Pending.hand (h : s.Pending n) {t : Thread} (ht : t ≠ .capture)
    (msg : Protocol.Message) : (s.send t msg).Pending n := by
  have hstage : (s.send t msg).sender.stage .capture = s.sender.stage .capture :=
    Function.update_of_ne (Ne.symm ht) _ _
  rcases h with howed | ⟨hnone, hcall, hitems, f, k, hcapture, hleft⟩ | hover | hserved
  · exact Or.inl howed
  · refine Or.inr (Or.inl ⟨hnone, hcall, ?_, f, k, hcapture, ?_⟩)
    · rw [hstage]
      exact hitems
    · rw [hstage]
      exact hleft
  · exact Or.inr (Or.inr (Or.inl hover))
  · exact Or.inr (Or.inr (Or.inr hserved))

/-- `OnFrame` goes on before the exchange. -/
theorem Pending.captureMove (h : s.Pending n) {p : CapturePoint} (q : CapturePoint)
    (hcapture : s.capture = p) (hp : p.Preparing) (hq : q = .idle ∨ q.Preparing)
    (hentered : ∀ f, p = .entered f → q = .idle ∨ s.running = true) :
    Pending { s with capture := q } n := by
  have hnot : ∀ f idr k, q ≠ .encoding f idr k := by
    rintro f idr k rfl
    rcases hq with hq | hq
    · cases hq
    · exact hq
  rcases h with ⟨hnone, hflag, -⟩ | hway | ⟨hnone, hrun, hrunning, hover⟩ | hserved
  · exact Or.inl ⟨hnone, hflag, Or.inr hnot⟩
  · exact (hp.not_calling (hway.calling hcapture)).elim
  · rcases hover with hidle | ⟨f, hf⟩
    · rw [← hcapture, hidle] at hp
      exact hp.elim
    · rcases hentered f (hcapture.symm.trans hf) with rfl | hon
      · exact Or.inr (Or.inr (Or.inl ⟨hnone, hrun, hrunning, Or.inl rfl⟩))
      · rw [hon] at hrunning
        cases hrunning
  · exact Or.inr (Or.inr (Or.inr hserved))

/-- **What one step keeps** for a request that was handled when `n` calls had begun. -/
theorem Pending.step (hsound : s.Sound link config) (h : s.Pending n)
    (hrequest : n = 0 ∨ n ∈ s.requests) {act : Act} (hcontract : s.EncoderContract act)
    (hprompt : s.Prompt act) : (s.step act).Pending n := by
  rcases s.step_cases act with hidle | hmove
  · rwa [hidle]
  generalize s.step act = s' at hmove ⊢
  cases hmove with
  | send t a => exact h.stepSend hsound t a
  | runCalled b hrun =>
      have hcapture := (hsound.captureWaits (by rw [hrun]; trivial)).2.1
      rcases h with howed | hway | ⟨-, hcalled, -⟩ | hserved
      · exact Or.inl howed
      · exact (hway.calling hcapture).elim
      · exact absurd hrun hcalled
      · exact Or.inr (Or.inr (Or.inr hserved))
  | sayHello b hrun hidle =>
      exact (h.hand (t := .run) (by decide) _).runMove (q := .sendWelcome) (by decide)
  | sayWelcome b hrun hidle =>
      exact (h.hand (t := .run) (by decide) _).runMove (q := .startControl) (by decide)
  | startControl b hrun hidle => exact h.runMove (q := .startCapture) (by decide)
  | startCapture b hrun hidle => exact h.runMove (q := .starting) (by decide)
  | started hrun => exact h.runMove (by decide)
  | startRefused hrun hcapture => exact h.runMove (q := .startFailed) (by decide)
  | startFailed b hrun => exact (h.runMove (q := .waiting) (by decide)).stopped
  | leaveLoop b hrun hrunning => exact h.runMove (by decide)
  | stopCapture b hrun hcapture => exact h.runMove (q := .shutdownEncoder) (by decide)
  | shutdownEncoder b hrun => exact h.runMove (q := .joining) (by decide)
  | joined b hrun hcontrol => exact h.runMove (by decide)
  | deliver f hcapturing hcapture =>
      rcases h with ⟨hnone, hflag, -⟩ | hway | ⟨hnone, hrun, hrunning, -⟩ | hserved
      · exact Or.inl ⟨hnone, hflag, Or.inr fun _ _ _ hc => by cases hc⟩
      · exact (hway.calling hcapture).elim
      · exact Or.inr (Or.inr (Or.inl ⟨hnone, hrun, hrunning, Or.inr ⟨f, rfl⟩⟩))
      · exact Or.inr (Or.inr (Or.inr hserved))
  | turnedAway b f hcapture hrunning =>
      exact h.captureMove .idle hcapture trivial (Or.inl rfl) fun _ _ => Or.inl rfl
  | prepared b f hcapture hrunning hready =>
      exact h.captureMove (.ready f) hcapture trivial (Or.inr trivial) fun _ _ => Or.inr hrunning
  | setUp b f hcapture hrunning hready =>
      exact h.captureMove (.initializing f) hcapture trivial (Or.inr trivial)
        fun _ _ => Or.inr hrunning
  | initialized f hcapture =>
      exact h.captureMove (.ready f) hcapture trivial (Or.inr trivial) fun _ hc => by cases hc
  | initializeRefused f hcapture =>
      exact h.captureMove .initializeFailed hcapture trivial (Or.inr trivial)
        fun _ hc => by cases hc
  | initializeFailed b hcapture =>
      exact (h.captureMove .idle hcapture trivial (Or.inl rfl) fun _ _ => Or.inl rfl).stopped
  | exchange b f hcapture =>
      have hsilent : s.sender.stage .capture = none :=
        stage_eq_none_of_sending (hsound.capture_not_sending hcapture (Or.inr trivial))
      rcases h with ⟨hnone, hflag, -⟩ | hway | houtlived | hserved
      · -- the call takes the flag, and has begun after the request
        have hcall : n < s.calls := by
          rcases hrequest with rfl | hrequest
          · exact hsound.calls_pos (by rw [hcapture]; rfl)
          · exact hprompt (by rw [hcapture]; rfl) n hrequest
        refine Or.inr (Or.inl ⟨hnone, hcall, fun st o hst => ?_, f, 0, ?_, Or.inl rfl⟩)
        · rw [hsilent] at hst
          cases hst
        · rw [hflag]
      · exact (hway.calling hcapture).elim
      · exact (houtlived.outside hcapture).elim
      · exact Or.inr (Or.inr (Or.inr hserved))
  | packet p f idr k hcapture hidle =>
      rcases h with ⟨hnone, hflag, hcall⟩ | ⟨hnone, hcall, -, f', k', hencoding, -⟩ |
        houtlived | hserved
      · refine Or.inl ⟨hnone, hflag, Or.inl (hcall.resolve_right fun hnot => ?_)⟩
        exact hnot f idr k hcapture
      · -- the encoder was asked for a keyframe, and that is what comes to `Send`
        have hidr : idr = true := by
          rw [hcapture] at hencoding
          cases hencoding
          rfl
        subst hidr
        have hkey : p.isKeyframe = true := hcontract (true, k) (by rw [hcapture]; rfl)
        refine Or.inr (Or.inl ⟨hnone, hcall, fun st o hst hitem => ?_, f, k + 1, rfl, ?_⟩)
        · obtain rfl := Option.some.inj
            ((Function.update_self Thread.capture _ s.sender.stage).symm.trans hst)
          cases hitem
          refine ⟨?_, hcall⟩
          simp [Outgoing.frameType, buildVideoFrame, hkey]
        · exact Or.inr (Or.inr ⟨_, Function.update_self Thread.capture _ s.sender.stage,
            by simp⟩)
      · exact (houtlived.outside hcapture).elim
      · exact Or.inr (Or.inr (Or.inr hserved))
  | encoded f idr k hcapture hidle =>
      rcases h with ⟨hnone, hflag, -⟩ | ⟨hnone, hcall, -, f', k', hencoding, hleft⟩ |
        houtlived | hserved
      · exact Or.inl ⟨hnone, hflag, Or.inr fun _ _ _ hc => by cases hc⟩
      · -- something was emitted and is not in `Send`, so it has been lost
        have hrun : s.run ≠ .notCalled := by
          intro hrun
          have hwaits := (hsound.captureWaits (by rw [hrun]; trivial)).2.1
          rw [hcapture] at hwaits
          cases hwaits
        have hrunning : s.running = false := by
          rcases hleft with rfl | hrunning | ⟨st, hst, -⟩
          · refine Bool.eq_false_of_not_eq_true fun hon => ?_
            exact absurd (hprompt (true, 0) (by rw [hencoding]; rfl) rfl hon) (lt_irrefl 0)
          · exact hrunning
          · rw [stage_eq_none_of_sending hidle] at hst
            cases hst
        exact Or.inr (Or.inr (Or.inl ⟨hnone, hrun, hrunning, Or.inl rfl⟩))
      · exact (houtlived.outside hcapture).elim
      · exact Or.inr (Or.inr (Or.inr hserved))
  | ended hcontrol => exact h.stopped
  | corrupt hcontrol => exact h.stopped
  | setIdr a hcontrol hidr =>
      rcases h with ⟨hnone, -, hcall⟩ | hway | hover | hserved
      · exact Or.inl ⟨hnone, rfl, hcall⟩
      · exact Or.inr (Or.inl hway)
      · exact Or.inr (Or.inr (Or.inl hover))
      · exact Or.inr (Or.inr (Or.inr hserved))
  | reply a hcontrol hpong => exact h.hand (t := .control) (by decide) _
  | disconnect a hcontrol hidle hstop => exact h.stopped
  | stopCalled hstop => exact h.stopped
  | _ => exact h

/-- A request is handled by setting the flag. -/
theorem requests_step (s : Session L) (act : Act) :
    (s.step act).requests = s.requests ∨
      (s.step act).requests = s.requests ++ [s.calls] ∧ (s.step act).calls = s.calls ∧
        (s.step act).forceIdr = true := by
  rcases s.step_cases act with hidle | hmove
  · rw [hidle]
    exact Or.inl rfl
  generalize s.step act = s' at hmove ⊢
  cases hmove with
  | setIdr a hcontrol hidr => exact Or.inr ⟨rfl, rfl, rfl⟩
  | _ => exact Or.inl rfl

/-- Every request is pending. -/
structure Requested (link : L.State) (config : EncoderConfig) (s : Session L) : Prop where
  sound : s.Sound link config
  pending : ∀ n ∈ 0 :: s.requests, s.Pending n

theorem requested_start (link : L.State) (config : EncoderConfig) :
    Requested link config (start link config) where
  sound := sound_start link config
  pending n hn := by
    obtain rfl := List.mem_singleton.mp hn
    exact Or.inl ⟨rfl, rfl, Or.inl rfl⟩

/-- **One step keeps it.** -/
theorem Requested.step (h : s.Requested link config) {act : Act}
    (hcontract : s.EncoderContract act) (hprompt : s.Prompt act) :
    (s.step act).Requested link config := by
  refine ⟨h.sound.step act, fun n hn => ?_⟩
  have hkept : ∀ n ∈ 0 :: s.requests, (s.step act).Pending n := fun n hn =>
    (h.pending n hn).step h.sound (List.mem_cons.mp hn) hcontract hprompt
  rcases s.requests_step act with hsame | ⟨hnew, hcalls, hflag⟩
  · rw [hsame] at hn
    exact hkept n hn
  · rw [hnew, ← List.cons_append] at hn
    rcases List.mem_append.mp hn with hn | hn
    · exact hkept n hn
    · obtain rfl := List.mem_singleton.mp hn
      rw [← hcalls]
      exact Or.inl ((h.sound.step act).owed hflag)

/-- **No keyframe request is lost** in a run in which the encoder keeps to its contract, emits
something whenever a keyframe is forced, and no request comes between the beginning of an
`OnFrame` call and its exchange. -/
theorem keyframes_kept (link : L.State) (config : EncoderConfig) (acts : List Act)
    (h : Runs.Admits step (fun s act => s.EncoderContract act ∧ s.Prompt act)
      (start link config) acts) :
    (after link config acts).KeyframesKept := fun n hn =>
  have hrequested := Runs.exec_invariant (fun _ _ h hguard => h.step hguard.1 hguard.2)
    (requested_start link config) h
  (hrequested.pending n hn).answered

/-- A keyframe, a request between two frames, and a keyframe again. -/
theorem keyframes_kept_request :
    (after (L := rawLink) () {} (opening ++ onFrame {} [⟨[], true⟩, ⟨[], true⟩] ++
      [.control, .recv (.data (Protocol.encode (.keyframeRequest {}))), .control, .control,
        .control, .control] ++ onFrame {} [⟨[], true⟩])).KeyframesKept :=
  keyframes_kept (L := rawLink) () {} _ (by decide +kernel)

/-- The first `EncodeFrame` fails, and the first frame of the session is a delta. -/
theorem keyframe_lost :
    let acts := opening ++ onFrame {} [] ++ onFrame {} [⟨[], false⟩]
    Runs.Admits step EncoderContract (start (L := rawLink) () {}) acts ∧
      ¬ (after (L := rawLink) () {} acts).KeyframesKept := by
  decide +kernel

/-- A request that comes after an `OnFrame` call has begun and before its exchange is
answered by that call, and not by the next. -/
theorem keyframe_taken_early :
    let acts := opening ++ onFrame {} [⟨[], true⟩] ++
      [.control, .recv (.data (Protocol.encode (.keyframeRequest {}))), .control, .control,
        .deliver {}, .control, .capture true, .capture true, .packet ⟨[], true⟩] ++
      sends .capture ++ [.encoded] ++ onFrame {} [⟨[], false⟩]
    Runs.Admits step EncoderContract (start (L := rawLink) () {}) acts ∧
      ¬ (after (L := rawLink) () {} acts).KeyframesKept := by
  decide +kernel

end Session

end TetherDisplay.Core
