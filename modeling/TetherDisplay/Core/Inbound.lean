import TetherDisplay.Core.Refusal
import TetherDisplay.Protocol.RoundTrip

/-!
# The inbound stream

`ControlLoop` is two loops around a parser that is fed as the bytes arrive.  What it does is
told by the bytes alone: `reference` parses the whole stream at once, lets
`handleControlMessage` say what to do about each frame in turn, and stops at the first
DISCONNECT or at the fault that ends the parse.

The loop follows the reference, whatever else happens in the session (`Followed`).  It falls
behind for good only when another thread ends the session: then it leaves frames unread that
it has already received.  Where no other thread does, it has caught up whenever it waits for
more (`CaughtUp`).

And it gets there: each of its steps leaves less to do (`work`), and where it is in `Send` it
comes out again.  So from wherever a run has come to, the loop's own steps, and those of the
threads in `Send`, lead to a state in which all that has been received has been acted on, and
every PONG has been sent (`CatchesUp`).
-/

namespace TetherDisplay.Core

open Protocol (Message RawFrame FrameParser decodeMessage frameGrammar scanFrame)
open Encode (EncoderConfig)
open LockedSender (Wiring Sender Stage itemsBy)

/-! ## The reference -/

/-- What is done about a message, in the order of the source. -/
def ControlActions.effects (a : ControlActions) : List ControlEffect :=
  (if a.forceIdr then [.forceIdr] else []) ++
    ((if a.sendPong then [.pong a.pongToken] else []) ++ if a.disconnect then [.stop] else [])

/-- A frame that does not decode is skipped. -/
def frameEffects (raw : RawFrame) : List ControlEffect :=
  match decodeMessage raw with
  | .error _ => []
  | .ok msg => (handleControlMessage msg).effects

/-- Nothing is done after a stop. -/
def cut : List ControlEffect → List ControlEffect
  | [] => []
  | .stop :: _ => [.stop]
  | e :: effects => e :: cut effects

/-- What is to be done about a stream. -/
def reference (stream : Bytes) : List ControlEffect :=
  let parsed := frameGrammar.parse stream
  cut (parsed.items.flatMap frameEffects ++ if parsed.fault.isSome then [.stop] else [])

theorem cut_append {effects : List ControlEffect} (h : .stop ∉ effects)
    (later : List ControlEffect) : cut (effects ++ later) = effects ++ cut later := by
  induction effects with
  | nil => rfl
  | cons e effects ih =>
      obtain ⟨he, heffects⟩ := List.ne_and_not_mem_of_not_mem_cons h
      cases e with
      | stop => exact absurd rfl he
      | forceIdr => exact congrArg (ControlEffect.forceIdr :: ·) (ih heffects)
      | pong token => exact congrArg (ControlEffect.pong token :: ·) (ih heffects)

theorem cut_eq_self {effects : List ControlEffect} (h : .stop ∉ effects) :
    cut effects = effects := by
  have happend := cut_append h []
  rwa [List.append_nil, show cut [] = [] from rfl, List.append_nil] at happend

/-- The message that an effect sends, if it does. -/
def ControlEffect.pong? : ControlEffect → Option Message
  | .pong token => some (.pong ⟨token⟩)
  | _ => none

/-- What is still to be done about the message in hand. -/
def ControlPoint.pending : ControlPoint → List ControlEffect
  | .acting a => a.effects
  | .replying a =>
      (if a.sendPong then [.pong a.pongToken] else []) ++ if a.disconnect then [.stop] else []
  | .finishing a => if a.disconnect then [.stop] else []
  | _ => []

/-- `ControlLoop` is at the end of its inner loop, or outside it. -/
def ControlPoint.Settled : ControlPoint → Prop
  | .notStarted | .outer | .receiving | .ended | .exited => True
  | _ => False

/-- `ControlLoop` is at its work, where a stop has not been performed. -/
def ControlPoint.Inside : ControlPoint → Prop
  | .outer | .exited => False
  | _ => True

/-- How many steps `ControlLoop` has at most to take before it waits for more or has ended, if so
many bytes are unread.  A frame takes a byte off the buffer at least, and five steps. -/
def ControlPoint.work (unread : ℕ) : ControlPoint → ℕ
  | .notStarted | .receiving | .exited => 0
  | .outer | .ended => 1
  | .corrupt => 2
  | .parsing => 8 * unread + 3
  | .inner => 8 * unread + 4
  | .finishing _ => 8 * unread + 5
  | .replying _ => 8 * unread + 6
  | .acting _ => 8 * unread + 7

/-- `OnFrame` is in `encoder_.Initialize`. -/
def CapturePoint.isInitializing : CapturePoint → Bool
  | .initializing _ => true
  | _ => false

namespace Session

variable {L : Wiring Bytes UInt8} {link : L.State} {config : EncoderConfig} {s : Session L}

/-! ## Following the reference -/

/-- Everything that has been received. -/
def inbound (s : Session L) : Bytes := s.received.flatten

/-- What is done is what the reference says, as far as the loop has come. -/
structure Followed (s : Session L) : Prop where
  /-- The frames taken and those still in the buffer are the frames of the stream. -/
  law : frameGrammar.parse s.inbound =
    ⟨s.processed ++ (frameGrammar.parse s.parser.unread).items,
      (frameGrammar.parse s.parser.unread).rest, (frameGrammar.parse s.parser.unread).fault⟩
  /-- Until a stop, the actions on the frames taken have been performed, or are in hand. -/
  acted : .stop ∉ s.performed →
    s.performed ++ s.control.pending = s.processed.flatMap frameEffects
  corrupt : s.control = .corrupt → ∃ e, scanFrame s.parser.unread = .fail e
  stopped : .stop ∈ s.performed → s.performed = reference s.inbound ∧ s.running = false ∧
    s.run ≠ .notCalled ∧ (s.control = .outer ∨ s.control = .exited)

theorem followed_start (link : L.State) (config : EncoderConfig) :
    Followed (start link config) where
  law := by
    have hparse : frameGrammar.parse [] = ⟨[], [], none⟩ := by decide
    show frameGrammar.parse [] = ⟨[] ++ (frameGrammar.parse []).items, _, _⟩
    rw [hparse]
    rfl
  acted _ := rfl
  corrupt h := by cases h
  stopped h := by cases h

/-- What is performed is performed in the order of the reference. -/
theorem Followed.inOrder (h : s.Followed) : s.performed <+: reference s.inbound := by
  by_cases hstop : .stop ∈ s.performed
  · rw [(h.stopped hstop).1]
  · have hreference : reference s.inbound = cut (s.performed ++ (s.control.pending ++
        ((frameGrammar.parse s.parser.unread).items.flatMap frameEffects ++
          if (frameGrammar.parse s.parser.unread).fault.isSome then [.stop] else []))) := by
      unfold reference
      simp only [h.law, List.flatMap_append, ← h.acted hstop, List.append_assoc]
    rw [hreference, cut_append hstop]
    exact List.prefix_append _ _

/-- A loop that has nothing left in its buffer has caught up. -/
theorem Followed.caughtUp (h : s.Followed) (hpending : s.control.pending = [])
    (hdone : .stop ∈ s.performed ∨ scanFrame s.parser.unread = .more) :
    s.performed = reference s.inbound := by
  by_cases hstop : .stop ∈ s.performed
  · exact (h.stopped hstop).1
  · have hmore := Framing.Grammar.parse_more (G := frameGrammar) (hdone.resolve_left hstop)
    have hacted := h.acted hstop
    rw [hpending, List.append_nil] at hacted
    unfold reference
    simp only [h.law, hmore, List.append_nil, ← hacted, Option.isSome_none, Bool.false_eq_true,
      if_false, cut_eq_self hstop]

/-! ### The steps -/

/-- A loop that has stopped is leaving. -/
theorem Followed.live (h : s.Followed) {p : ControlPoint} (hcontrol : s.control = p)
    (hp : p.Inside) : .stop ∉ s.performed := by
  intro hstop
  rw [← hcontrol] at hp
  obtain ⟨-, -, -, hout | hout⟩ := h.stopped hstop
  · rw [hout] at hp
    exact hp
  · rw [hout] at hp
    exact hp

/-- `running_` is cleared. -/
theorem Followed.cleared (h : s.Followed) : Followed { s with running := false } :=
  { h with
    stopped := fun hstop =>
      have hstopped := h.stopped hstop
      ⟨hstopped.1, rfl, hstopped.2.2⟩ }

/-- `Run` goes on. -/
theorem Followed.runMove (h : s.Followed) {q : RunPoint} (hq : q ≠ .notCalled) :
    Followed { s with run := q } :=
  { h with
    stopped := fun hstop =>
      have hstopped := h.stopped hstop
      ⟨hstopped.1, hstopped.2.1, hq, hstopped.2.2.2⟩ }

/-- The loop goes on, with nothing done about the stream. -/
theorem Followed.controlMove (h : s.Followed) (q : ControlPoint) {p : ControlPoint}
    (hcontrol : s.control = p) (hp : p.Inside) (hpending : q.pending = p.pending)
    (hq : q ≠ .corrupt) : Followed { s with control := q } where
  law := h.law
  acted hstop := by
    have hacted := h.acted hstop
    rw [hcontrol, ← hpending] at hacted
    exact hacted
  corrupt hc := absurd hc hq
  stopped hstop := absurd hstop (h.live hcontrol hp)

/-- The outer loop goes on, and leaves after a stop. -/
theorem Followed.outerMove (h : s.Followed) (hcontrol : s.control = .outer) {q : ControlPoint}
    (hpending : q.pending = []) (hq : q ≠ .corrupt) (hleaves : .stop ∈ s.performed → q = .exited) :
    Followed { s with control := q } where
  law := h.law
  acted hstop := by
    have hacted := h.acted hstop
    rw [hcontrol] at hacted
    show s.performed ++ q.pending = _
    rw [hpending]
    exact hacted
  corrupt hc := absurd hc hq
  stopped hstop := by
    obtain ⟨hreference, hoff, hrun, -⟩ := h.stopped hstop
    exact ⟨hreference, hoff, hrun, Or.inr (hleaves hstop)⟩

/-- The loop stops, where the reference does. -/
theorem Followed.stop (h : s.Followed) (hrun : s.run ≠ .notCalled)
    (hreference : reference s.inbound = s.performed ++ [.stop]) :
    Followed { s with running := false, control := .outer, performed := s.performed ++ [.stop] }
    where
  law := h.law
  acted hstop := absurd (List.mem_append_right _ (List.mem_singleton_self _)) hstop
  corrupt hc := by cases hc
  stopped _ := ⟨hreference.symm, rfl, hrun, Or.inl rfl⟩

/-- An action is performed. -/
theorem Followed.perform (h : s.Followed) (q : ControlPoint) {p : ControlPoint}
    (hcontrol : s.control = p) (hp : p.Inside) {e : ControlEffect}
    (he : e ≠ .stop) (hpending : p.pending = e :: q.pending) (hq : q ≠ .corrupt) :
    Followed { s with control := q, performed := s.performed ++ [e] } where
  law := h.law
  acted _ := by
    have hacted := h.acted (h.live hcontrol hp)
    rw [hcontrol, hpending] at hacted
    rw [← hacted, List.append_assoc]
    rfl
  corrupt hc := absurd hc hq
  stopped hstop := by
    rcases List.mem_append.mp hstop with hstop | hstop
    · exact absurd hstop (h.live hcontrol hp)
    · exact absurd (List.mem_singleton.mp hstop).symm he

/-- A frame is taken out of the buffer. -/
theorem Followed.take (h : s.Followed) {raw : RawFrame} {e : Protocol.WireError}
    {parser : FrameParser} (hcontrol : s.control = .parsing)
    (hnext : s.parser.next = ((some raw, e), parser)) {q : ControlPoint}
    (hpending : q.pending = frameEffects raw) (hq : q ≠ .corrupt) :
    Followed { s with parser, processed := s.processed ++ [raw], control := q } where
  law := by
    have htaken := FrameParser.unread_of_next (P := s.parser) (f := raw) (by rw [hnext])
    rw [hnext] at htaken
    have hlaw := h.law
    rw [htaken.2, Protocol.parse_wire_append htaken.1] at hlaw
    show frameGrammar.parse s.inbound = _
    simpa using hlaw
  acted _ := by
    have hacted := h.acted (h.live hcontrol trivial)
    rw [hcontrol] at hacted
    show s.performed ++ q.pending = (s.processed ++ [raw]).flatMap frameEffects
    rw [List.flatMap_append, ← hacted, hpending, List.flatMap_singleton]
    show _ = s.performed ++ [] ++ _
    rw [List.append_nil]
  corrupt hc := absurd hc hq
  stopped hstop := absurd hstop (h.live hcontrol trivial)

/-- More arrives. -/
theorem Followed.receive (h : s.Followed) (hcontrol : s.control = .receiving) (bytes : Bytes) :
    Followed { s with parser := s.parser.feed bytes, control := .inner
                      received := s.received ++ [bytes] } where
  law := by
    show frameGrammar.parse (s.received ++ [bytes]).flatten = _
    rw [List.flatten_append, List.flatten_singleton, Framing.Grammar.parse_append]
    have hlaw := h.law
    unfold inbound at hlaw
    rw [hlaw]
    show _ = (⟨s.processed ++ (frameGrammar.parse (s.parser.feed bytes).unread).items, _, _⟩ :
      Framing.Parsed UInt8 RawFrame Protocol.WireError)
    rw [FrameParser.unread_feed, Framing.Grammar.parse_append s.parser.unread bytes]
    simp
  acted hstop := by
    have hacted := h.acted hstop
    rw [hcontrol] at hacted
    exact hacted
  corrupt hc := by cases hc
  stopped hstop := absurd hstop (h.live hcontrol trivial)

/-- **One step keeps it.** -/
theorem Followed.step (hsound : s.Sound link config) (h : s.Followed) (act : Act) :
    (s.step act).Followed := by
  rcases s.step_cases act with hidle | hmove
  · rwa [hidle]
  generalize s.step act = s' at hmove ⊢
  cases hmove with
  | send t a =>
      refine { h with stopped := fun hstop => ?_ }
      obtain ⟨hreference, hoff, hrun, hout⟩ := h.stopped hstop
      exact ⟨hreference, ended_stepSend hoff t a, hrun, hout⟩
  | runCalled b hrun =>
      exact { h with stopped := fun hstop => absurd hrun (h.stopped hstop).2.2.1 }
  | sayHello b hrun hidle => exact { h.runMove (q := .sendWelcome) (by decide) with }
  | sayWelcome b hrun hidle => exact { h.runMove (q := .startControl) (by decide) with }
  | startControl b hrun hidle =>
      have hwaits := hsound.controlWaits (by rw [hrun]; trivial)
      exact (h.controlMove .outer hwaits trivial rfl (by decide)).runMove
        (q := .startCapture) (by decide)
  | startCapture b hrun hidle => exact { h.runMove (q := .starting) (by decide) with }
  | started hrun => exact h.runMove (by decide)
  | startRefused hrun hcapture => exact { h.runMove (q := .startFailed) (by decide) with }
  | startFailed b hrun => exact (h.runMove (q := .waiting) (by decide)).cleared
  | leaveLoop b hrun hrunning => exact h.runMove (by decide)
  | stopCapture b hrun hcapture => exact { h.runMove (q := .shutdownEncoder) (by decide) with }
  | shutdownEncoder b hrun => exact { h.runMove (q := .joining) (by decide) with }
  | joined b hrun hcontrol => exact h.runMove (by decide)
  | initializeFailed b hcapture => exact { h.cleared with }
  | outerOn hcontrol hrunning =>
      refine h.outerMove hcontrol rfl (by decide) fun hstop => ?_
      rw [(h.stopped hstop).2.1] at hrunning
      cases hrunning
  | outerOff hcontrol hrunning =>
      exact h.outerMove hcontrol rfl (by decide) fun _ => rfl
  | ended hcontrol =>
      exact (h.controlMove .exited hcontrol trivial rfl (by decide)).cleared
  | innerOn hcontrol hrunning =>
      exact h.controlMove .parsing hcontrol trivial rfl (by decide)
  | innerOff hcontrol hrunning =>
      exact h.controlMove .outer hcontrol trivial rfl (by decide)
  | drained parser hcontrol hnext =>
      have hunread := (FrameParser.scan_of_next_none hnext).1
      exact { h.controlMove .outer hcontrol trivial rfl (by decide) with
        law := by rw [hunread]; exact h.law
        corrupt := fun hc => by cases hc }
  | faulted e parser hcontrol hhard hnext =>
      obtain ⟨hunread, hscan⟩ := FrameParser.scan_of_next_none hnext
      have hfail := hscan.resolve_left fun hmore => hhard hmore.1
      exact { h with
        law := by rw [hunread]; exact h.law
        acted := fun hstop => by
          have hacted := h.acted hstop
          rwa [hcontrol] at hacted
        corrupt := fun _ => ⟨e, by rw [hunread]; exact hfail.2⟩
        stopped := fun hstop => absurd hstop (h.live hcontrol trivial) }
  | skipped raw e derr parser hcontrol hnext hdecode =>
      refine h.take hcontrol hnext ?_ (by decide)
      rw [frameEffects, hdecode]
      rfl
  | decoded raw e msg parser hcontrol hnext hdecode =>
      refine h.take hcontrol hnext ?_ (by simp)
      rw [frameEffects, hdecode]
      rfl
  | corrupt hcontrol =>
      have hlive := h.live hcontrol trivial
      refine h.stop (hsound.called hcontrol (by simp)) ?_
      -- the parse ends in a fault right behind the frames taken
      obtain ⟨e, hfail⟩ := h.corrupt hcontrol
      have hparse := Framing.Grammar.parse_fail (G := frameGrammar) hfail
      have hacted := h.acted hlive
      rw [hcontrol] at hacted
      unfold reference
      simp only [h.law, hparse, List.append_nil, ← hacted, Option.isSome_some, if_true]
      rw [cut_append (by simpa [ControlPoint.pending] using hlive)]
      simp [ControlPoint.pending, cut]
  | setIdr a hcontrol hidr =>
      exact { h.perform (.replying a) hcontrol trivial (by simp)
        (by simp [ControlPoint.pending, ControlActions.effects, hidr]) (by simp) with }
  | keepIdr a hcontrol hidr =>
      exact h.controlMove (.replying a) hcontrol trivial
        (by simp [ControlPoint.pending, ControlActions.effects, hidr]) (by simp)
  | reply a hcontrol hpong =>
      exact { h.perform (.finishing a) hcontrol trivial (by simp)
        (by simp [ControlPoint.pending, hpong]) (by simp) with }
  | noReply a hcontrol hpong =>
      exact h.controlMove (.finishing a) hcontrol trivial
        (by simp [ControlPoint.pending, hpong]) (by simp)
  | disconnect a hcontrol hidle hstop =>
      have hlive := h.live hcontrol trivial
      refine h.stop (hsound.called hcontrol (by simp)) ?_
      have hacted := h.acted hlive
      rw [hcontrol] at hacted
      unfold reference
      simp only [h.law, List.flatMap_append, ← hacted, List.append_assoc]
      rw [cut_append hlive]
      simp [ControlPoint.pending, hstop, cut]
  | goOn a hcontrol hidle hstop =>
      exact h.controlMove .inner hcontrol trivial
        (by simp [ControlPoint.pending, hstop]) (by decide)
  | recvEnd r hcontrol hcount =>
      exact h.controlMove .ended hcontrol trivial rfl (by decide)
  | recvData r hcontrol hcount hroom => exact h.receive hcontrol r.bytes
  | stopCalled hstop => exact { h.cleared with }
  | _ => exact { h with }

/-! ## Catching up -/

/-- Sends succeed, `Stop` is not called, and neither `capture_.Start` nor
`encoder_.Initialize` fails. -/
def Undisturbed (s : Session L) (act : Act) : Prop :=
  act.Succeeds ∧
    match act with
    | .run started => s.run = .starting → started = true
    | .capture initialized => s.capture.isInitializing = true → initialized = true
    | .stop => False
    | _ => True

/-- The loop ends only where the stream does. -/
structure CaughtUp (s : Session L) : Prop where
  startSucceeds : s.run ≠ .startFailed
  initializeSucceeds : s.capture ≠ .initializeFailed
  ended : s.run ≠ .notCalled → s.running = false → .stop ∈ s.performed ∨ s.control = .exited
  drained : s.control.Settled → .stop ∈ s.performed ∨ scanFrame s.parser.unread = .more

theorem caughtUp_start (link : L.State) (config : EncoderConfig) :
    CaughtUp (start link config) where
  startSucceeds h := by cases h
  initializeSucceeds h := by cases h
  ended h := absurd rfl h
  drained _ := Or.inr rfl

/-- A session that is not over goes on. -/
theorem CaughtUp.stopped (h : s.CaughtUp) (hrun : s.run ≠ .notCalled) (hoff : s.running = false)
    {p : ControlPoint} (hcontrol : s.control = p) (hp : p ≠ .exited) : .stop ∈ s.performed :=
  (h.ended hrun hoff).resolve_right fun hexited => hp (hcontrol.symm.trans hexited)

/-- The loop goes on inside. -/
theorem CaughtUp.controlMove (h : s.CaughtUp) (q : ControlPoint) {p : ControlPoint}
    (hcontrol : s.control = p) (hp : p ≠ .exited) (hq : q.Settled → p.Settled) :
    CaughtUp { s with control := q } where
  startSucceeds := h.startSucceeds
  initializeSucceeds := h.initializeSucceeds
  ended hrun hoff := Or.inl (h.stopped hrun hoff hcontrol hp)
  drained hsettled := h.drained (by rw [hcontrol]; exact hq hsettled)

/-- `Run` goes on. -/
theorem CaughtUp.runMove (h : s.CaughtUp) {q : RunPoint} (hrun : s.run ≠ .notCalled)
    (hq : q ≠ .startFailed) : CaughtUp { s with run := q } where
  startSucceeds := hq
  initializeSucceeds := h.initializeSucceeds
  ended _ := h.ended hrun
  drained := h.drained

/-- An action is performed. -/
theorem CaughtUp.perform (h : s.CaughtUp) {q : ControlPoint} {p : ControlPoint}
    (hcontrol : s.control = p) (hp : p ≠ .exited) (hq : ¬ q.Settled) (e : ControlEffect) :
    CaughtUp { s with control := q, performed := s.performed ++ [e] } where
  startSucceeds := h.startSucceeds
  initializeSucceeds := h.initializeSucceeds
  ended hrun hoff := Or.inl (List.mem_append_left _ (h.stopped hrun hoff hcontrol hp))
  drained hsettled := absurd hsettled hq

/-- The loop stops. -/
theorem CaughtUp.stop (h : s.CaughtUp) :
    CaughtUp { s with running := false, control := .outer, performed := s.performed ++ [.stop] }
    where
  startSucceeds := h.startSucceeds
  initializeSucceeds := h.initializeSucceeds
  ended _ _ := Or.inl (List.mem_append_right _ (List.mem_singleton_self _))
  drained _ := Or.inl (List.mem_append_right _ (List.mem_singleton_self _))

/-- **One undisturbed step keeps it.** -/
theorem CaughtUp.step (hsuccessful : s.Successful link config) (hfollowed : s.Followed)
    (h : s.CaughtUp) {act : Act} (hquiet : s.Undisturbed act) : (s.step act).CaughtUp := by
  have hsound := hsuccessful.written.sound
  rcases s.step_cases act with hidle | hmove
  · rwa [hidle]
  generalize s.step act = s' at hmove ⊢
  cases hmove with
  | send t a =>
      refine { h with ended := fun hrun hoff => h.ended hrun ?_ }
      refine Bool.eq_false_of_not_eq_true fun hon => ?_
      rw [stepSend_running.mpr ⟨hon, fun hack => hsuccessful.unrefused t hack.2⟩] at hoff
      cases hoff
  | runCalled b hrun =>
      exact { h with
        startSucceeds := by simp
        ended := fun _ hoff => by cases hoff }
  | sayHello b hrun hidle =>
      exact { h.runMove (q := .sendWelcome) (by rw [hrun]; decide) (by decide) with }
  | sayWelcome b hrun hidle =>
      exact { h.runMove (q := .startControl) (by rw [hrun]; decide) (by decide) with }
  | startControl b hrun hidle =>
      have hwaits := hsound.controlWaits (by rw [hrun]; trivial)
      exact (h.controlMove .outer hwaits (by decide) fun _ => trivial).runMove
        (q := .startCapture) (by rw [hrun]; decide) (by decide)
  | startCapture b hrun hidle =>
      exact { h.runMove (q := .starting) (by rw [hrun]; decide) (by decide) with }
  | started hrun => exact h.runMove (by rw [hrun]; decide) (by decide)
  | startRefused hrun hcapture => exact absurd (hquiet.2 hrun) Bool.false_ne_true
  | startFailed b hrun => exact absurd hrun h.startSucceeds
  | leaveLoop b hrun hrunning => exact h.runMove (by rw [hrun]; decide) (by decide)
  | stopCapture b hrun hcapture =>
      exact { h.runMove (q := .shutdownEncoder) (by rw [hrun]; decide) (by decide) with }
  | shutdownEncoder b hrun =>
      exact { h.runMove (q := .joining) (by rw [hrun]; decide) (by decide) with }
  | joined b hrun hcontrol => exact h.runMove (by rw [hrun]; decide) (by decide)
  | deliver | turnedAway | prepared | setUp | initialized | exchange | packet | encoded =>
      exact { h with initializeSucceeds := by simp }
  | initializeRefused f hcapture =>
      exact absurd (hquiet.2 (by rw [hcapture]; rfl)) Bool.false_ne_true
  | initializeFailed b hcapture => exact absurd hcapture h.initializeSucceeds
  | outerOn hcontrol hrunning => exact h.controlMove _ hcontrol (by decide) fun _ => trivial
  | outerOff hcontrol hrunning => exact h.controlMove _ hcontrol (by decide) fun _ => trivial
  | ended hcontrol =>
      exact { h with
        ended := fun _ _ => Or.inr rfl
        drained := fun _ => h.drained (by rw [hcontrol]; trivial) }
  | innerOn hcontrol hrunning => exact h.controlMove _ hcontrol (by decide) fun hq => hq.elim
  | innerOff hcontrol hrunning =>
      -- nothing has ended the session yet
      have hrun := hsound.called hcontrol (by simp)
      exact absurd (h.stopped hrun hrunning hcontrol (by decide))
        (hfollowed.live hcontrol trivial)
  | drained parser hcontrol hnext =>
      obtain ⟨hunread, hscan⟩ := FrameParser.scan_of_next_none hnext
      have hmore := hscan.resolve_right fun hhard => hhard.1 rfl
      exact { h with
        ended := fun hrun hoff => Or.inl (h.stopped hrun hoff hcontrol (by decide))
        drained := fun _ => Or.inr (by rw [hunread]; exact hmore.2) }
  | faulted e parser hcontrol hhard hnext =>
      exact { h.controlMove .corrupt hcontrol (by decide) fun hq => hq.elim with
        drained := fun hq => hq.elim }
  | skipped raw e derr parser hcontrol hnext hdecode =>
      exact { h.controlMove .inner hcontrol (by decide) fun hq => hq.elim with
        drained := fun hq => hq.elim }
  | decoded raw e msg parser hcontrol hnext hdecode =>
      exact { h.controlMove (.acting (handleControlMessage msg)) hcontrol (by decide)
          fun hq => hq.elim with
        drained := fun hq => hq.elim }
  | corrupt hcontrol => exact h.stop
  | setIdr a hcontrol hidr =>
      exact { h.perform (q := .replying a) hcontrol (by simp) id .forceIdr with }
  | keepIdr a hcontrol hidr => exact h.controlMove _ hcontrol (by simp) fun hq => hq.elim
  | reply a hcontrol hpong =>
      exact { h.perform (q := .finishing a) hcontrol (by simp) id (.pong a.pongToken) with }
  | noReply a hcontrol hpong => exact h.controlMove _ hcontrol (by simp) fun hq => hq.elim
  | disconnect a hcontrol hidle hstop => exact h.stop
  | goOn a hcontrol hidle hstop => exact h.controlMove _ hcontrol (by simp) fun hq => hq.elim
  | recvEnd r hcontrol hcount => exact h.controlMove _ hcontrol (by decide) fun _ => trivial
  | recvData r hcontrol hcount hroom =>
      exact { h.controlMove .inner hcontrol (by decide) fun hq => hq.elim with
        drained := fun hq => hq.elim }
  | stopCalled hstop => exact hquiet.2.elim
  | stopCloses hstop => exact hquiet.2.elim

/-! ## The PONGs -/

/-- The control thread comes to `Send` with one PONG for each PING. -/
def Ponged (s : Session L) : Prop :=
  (itemsBy .control s.sender.handed).map Outgoing.msg = s.performed.filterMap ControlEffect.pong?

/-- An effect that is no PONG. -/
theorem Ponged.perform (h : s.Ponged) {e : ControlEffect} (he : e.pong? = none) :
    (itemsBy .control s.sender.handed).map Outgoing.msg =
      (s.performed ++ [e]).filterMap ControlEffect.pong? := by
  rw [List.filterMap_append, List.filterMap_cons_none he, List.filterMap_nil, List.append_nil]
  exact h

/-- Each PONG answers a PING. -/
theorem Ponged.step (h : s.Ponged) (act : Act) : (s.step act).Ponged := by
  rcases s.step_cases act with hidle | hmove
  · rwa [hidle]
  generalize s.step act = s' at hmove ⊢
  have hother : ∀ t msg, t ≠ .control →
      (itemsBy .control (s.send t msg).sender.handed).map Outgoing.msg =
        s.performed.filterMap ControlEffect.pong? := by
    intro t msg ht
    rw [handed_send_of_ne (Ne.symm ht)]
    exact h
  cases hmove with
  | send t a =>
      have hhanded : (s.stepSend t a).sender.handed = s.sender.handed := Sender.handed_step t a
      unfold Ponged
      rw [hhanded]
      exact h
  | sayHello b hrun hidle => exact hother .run _ (by decide)
  | sayWelcome b hrun hidle => exact hother .run _ (by decide)
  | packet p f idr n hcapture hidle => exact hother .capture _ (by decide)
  | corrupt hcontrol => exact h.perform rfl
  | setIdr a hcontrol hidr => exact h.perform rfl
  | reply a hcontrol hpong =>
      show (itemsBy .control (s.send .control _).sender.handed).map Outgoing.msg = _
      rw [handed_send_self, h, List.filterMap_append]
      rfl
  | disconnect a hcontrol hidle hstop => exact h.perform rfl
  | _ => exact h

/-! ## Getting there -/

/-- What the control loop has to do with what it has. -/
def work (s : Session L) : ℕ := s.control.work s.parser.unread.length

/-- The steps of the control loop, and of the threads in `Send` while nothing is refused. -/
def Act.Own : Act → Prop
  | .control => True
  | .send _ a => a ≠ .refuse
  | _ => False

theorem Act.Own.undisturbed {act : Act} (h : act.Own) (s : Session L) : s.Undisturbed act := by
  cases act with
  | control => exact ⟨trivial, trivial⟩
  | send t a =>
      cases a with
      | refuse => exact absurd rfl h
      | _ => exact ⟨trivial, trivial⟩
  | _ => exact h.elim

/-- **Each step of the control loop leaves less to do**, unless it is in `Send`. -/
theorem work_step_control (hwork : s.work ≠ 0) (hidle : s.sending .control = false) :
    (s.step .control).work < s.work := by
  show s.stepControl.work < s.work
  unfold work at hwork
  cases hcontrol : s.control with
  | notStarted | receiving | exited => simp [hcontrol, ControlPoint.work] at hwork
  | outer =>
      by_cases hon : s.running = true <;>
        simp [stepControl, hcontrol, hon, work, ControlPoint.work]
  | ended | corrupt => simp [stepControl, hcontrol, work, ControlPoint.work]
  | inner =>
      by_cases hon : s.running = true <;>
        simp [stepControl, hcontrol, hon, work, ControlPoint.work]
  | acting a =>
      by_cases hidr : a.forceIdr = true <;>
        simp [stepControl, hcontrol, hidr, work, ControlPoint.work]
  | replying a =>
      by_cases hpong : a.sendPong = true <;>
        simp [stepControl, hcontrol, hpong, work, send, ControlPoint.work]
  | finishing a =>
      by_cases hstop : a.disconnect = true <;>
        simp [stepControl, hcontrol, hidle, hstop, work, ControlPoint.work]
  | parsing =>
      rcases hnext : s.parser.next with ⟨⟨_ | raw, e⟩, parser⟩
      · by_cases hmore : e = .needMoreData <;>
          simp [stepControl, hcontrol, hnext, hmore, work, ControlPoint.work]
      · -- the frame is off the buffer
        have htaken : s.parser.unread = raw.wire ++ parser.unread := by
          have hwire := (FrameParser.unread_of_next (P := s.parser) (f := raw) (by rw [hnext])).2
          rwa [hnext] at hwire
        have hlength : parser.unread.length < s.parser.unread.length := by
          rw [htaken, List.length_append, RawFrame.length_wire]
          omega
        cases hdecode : decodeMessage raw with
        | error derr =>
            simp only [stepControl, hcontrol, hnext, hdecode, work, ControlPoint.work]
            omega
        | ok msg =>
            simp only [stepControl, hcontrol, hnext, hdecode, work, ControlPoint.work]
            omega

/-- A control loop that has begun does not begin again. -/
theorem control_step_ne_notStarted (h : s.control ≠ .notStarted) {act : Act} (hown : act.Own) :
    (s.step act).control ≠ .notStarted := by
  rcases s.step_cases act with hidle | hmove
  · rwa [hidle]
  generalize s.step act = s' at hmove ⊢
  cases hmove with
  | send t a => exact h
  | reply | setIdr | keepIdr | noReply | goOn | disconnect | corrupt | decoded | skipped | faulted
  | drained | innerOff | innerOn | ended | outerOff | outerOn => simp
  | _ => exact hown.elim

/-- Its own steps receive nothing. -/
theorem received_step {act : Act} (hown : act.Own) : (s.step act).received = s.received := by
  rcases s.step_cases act with hidle | hmove
  · rw [hidle]
  generalize s.step act = s' at hmove ⊢
  cases hmove with
  | recvEnd | recvData => exact hown.elim
  | _ => rfl

/-- Steps inside `Send` are no steps of the control loop. -/
theorem exec_sends (s : Session L) (acts : List (Thread × LockedSender.Act)) :
    let s' := Runs.exec step s (acts.map fun x => .send x.1 x.2)
    s'.sender = Runs.exec Sender.stepOf s.sender acts ∧ s'.work = s.work := by
  induction acts generalizing s with
  | nil => exact ⟨rfl, rfl⟩
  | cons x acts ih => exact ih (s.stepSend x.1 x.2)

/-- A control loop that is in `Send` comes out. -/
theorem Successful.leavesSend (h : s.Successful link config) :
    ∃ more : List Act, (∀ act ∈ more, act.Own) ∧
      (Runs.exec Session.step s more).sending .control = false ∧
      (Runs.exec Session.step s more).work = s.work := by
  obtain ⟨acts, hacts, hout⟩ := h.written.sound.valid.comesOut h.unrefused .control
  obtain ⟨hsender, hwork⟩ := s.exec_sends acts
  refine ⟨_, fun act hact => ?_, ?_, hwork⟩
  · obtain ⟨x, hx, rfl⟩ := List.mem_map.mp hact
    exact hacts x hx
  · rw [sending, hsender, hout]
    rfl

/-- A run of the loop's own steps. -/
theorem admits_own {more : List Act} (h : ∀ act ∈ more, act.Own) :
    Runs.Admits Session.step (fun _ act => act.Own) s more :=
  Runs.admits_of_forall fun act hact _ => h act hact

/-- Nothing is left to do. -/
theorem Successful.settles (h : s.Successful link config) :
    ∃ more : List Act, (∀ act ∈ more, act.Own) ∧ (Runs.exec Session.step s more).work = 0 := by
  induction hwork : s.work using Nat.strong_induction_on generalizing s with
  | _ n ih =>
      subst hwork
      by_cases hdone : s.work = 0
      · exact ⟨[], by simp, hdone⟩
      obtain ⟨sends, hsends, hidle, hsame⟩ := h.leavesSend
      have hsuccessful :
          ((Runs.exec Session.step s sends).step .control).Successful link config := by
        refine Successful.step (Runs.exec_invariant ?_ h (admits_own hsends)) trivial
        exact fun s _ h hown => h.step (hown.undisturbed s).1
      have hless := work_step_control (hsame ▸ hdone) hidle
      rw [hsame] at hless
      obtain ⟨more, hmore, hend⟩ := ih _ hless hsuccessful rfl
      refine ⟨sends ++ .control :: more, fun act hact => ?_, ?_⟩
      · rcases List.mem_append.mp hact with hact | hact
        · exact hsends act hact
        · rcases List.mem_cons.mp hact with rfl | hact
          · trivial
          · exact hmore act hact
      · rw [Runs.exec_append]
        exact hend

/-! ## The whole of it -/

/-- The control loop has followed the stream. -/
structure Follows (s : Session L) : Prop where
  /-- What has been done is what the reference says, in its order. -/
  inOrder : s.performed <+: reference s.inbound
  /-- A loop that waits for more, or has ended, has done all of it. -/
  complete : s.control = .receiving ∨ s.control = .exited → s.performed = reference s.inbound
  /-- Each PING has had its PONG. -/
  pongs : s.sending .control = false →
    (itemsBy .control s.sender.sent).map Outgoing.msg = s.performed.filterMap ControlEffect.pong?
  idr : ∀ act, (s.step act).performed = s.performed ++ [.forceIdr] →
    (s.step act).forceIdr = true
  stopped : .stop ∈ s.performed → s.running = false

/-- A KEYFRAME_REQUEST sets the flag. -/
theorem forceIdr_step {act : Act} (h : (s.step act).performed = s.performed ++ [.forceIdr]) :
    (s.step act).forceIdr = true := by
  have hsame : s.performed ≠ s.performed ++ [ControlEffect.forceIdr] := by simp
  rcases s.step_cases act with hidle | hmove
  · rw [hidle] at h
    exact absurd h hsame
  generalize s.step act = s' at hmove h ⊢
  cases hmove with
  | setIdr a hcontrol hidr => rfl
  | corrupt hcontrol => simp at h
  | reply a hcontrol hpong => simp at h
  | disconnect a hcontrol hidle hstop => simp at h
  | _ => exact absurd h hsame

/-- The three together. -/
theorem follows_of_caughtUp (hsuccessful : s.Successful link config) (hfollowed : s.Followed)
    (hcaughtUp : s.CaughtUp) (hponged : s.Ponged) : s.Follows where
  inOrder := hfollowed.inOrder
  complete hcontrol := by
    have hsettled : s.control.Settled ∧ s.control.pending = [] := by
      rcases hcontrol with hcontrol | hcontrol
      · rw [hcontrol]
        exact ⟨trivial, rfl⟩
      · rw [hcontrol]
        exact ⟨trivial, rfl⟩
    exact hfollowed.caughtUp hsettled.2 (hcaughtUp.drained hsettled.1)
  pongs hidle := by
    have hstage := stage_eq_none_of_sending hidle
    have hfifo := hsuccessful.written.sound.valid.fifo .control
    rw [hstage, show Stage.pending none = ([] : List Outgoing) from rfl, List.append_nil] at hfifo
    rw [hsuccessful.intact.itemsBy_sent hstage, ← hfifo]
    exact hponged
  idr _ := forceIdr_step
  stopped hstop := (hfollowed.stopped hstop).2.1

/-- The control loop is not held up: by steps of its own, and of the threads in `Send`, it comes
to wait for more or to end, and then it has done what the reference says about all that has been
received, and has sent every PONG. -/
def CatchesUp (s : Session L) : Prop :=
  ∃ more : List Act, (∀ act ∈ more, act.Own) ∧
    let s' := Runs.exec step s more
    (s'.control = .receiving ∨ s'.control = .exited) ∧ s'.performed = reference s.inbound ∧
      (itemsBy .control s'.sender.sent).map Outgoing.msg =
        (reference s.inbound).filterMap ControlEffect.pong?

/-- What an undisturbed run keeps. -/
structure Attentive (link : L.State) (config : EncoderConfig) (s : Session L) : Prop where
  successful : s.Successful link config
  followed : s.Followed
  caughtUp : s.CaughtUp
  ponged : s.Ponged

theorem attentive_start (link : L.State) (config : EncoderConfig) :
    Attentive link config (start link config) :=
  ⟨successful_start link config, followed_start link config, caughtUp_start link config, rfl⟩

/-- **One undisturbed step keeps it.** -/
theorem Attentive.step (h : s.Attentive link config) {act : Act} (hquiet : s.Undisturbed act) :
    (s.step act).Attentive link config where
  successful := h.successful.step hquiet.1
  followed := h.followed.step h.successful.written.sound act
  caughtUp := h.caughtUp.step h.successful h.followed hquiet
  ponged := h.ponged.step act

theorem Attentive.follows (h : s.Attentive link config) : s.Follows :=
  follows_of_caughtUp h.successful h.followed h.caughtUp h.ponged

/-- **The control loop gets there** from wherever a run has come to. -/
theorem Attentive.catchesUp (h : s.Attentive link config) (hbegun : s.control ≠ .notStarted) :
    s.CatchesUp := by
  obtain ⟨more, hmore, hwork⟩ := h.successful.settles
  have hadmits : Runs.Admits Session.step Undisturbed s more :=
    Runs.admits_of_forall fun act hact s => (hmore act hact).undisturbed s
  have hend := Runs.exec_invariant (P := Attentive link config)
    (fun _ _ h hquiet => h.step hquiet) h hadmits
  have hkept : (Runs.exec Session.step s more).control ≠ .notStarted ∧
      (Runs.exec Session.step s more).received = s.received := by
    refine Runs.exec_invariant
      (P := fun s' : Session L => s'.control ≠ .notStarted ∧ s'.received = s.received)
      ?_ ⟨hbegun, rfl⟩ (admits_own hmore)
    exact fun _ _ h hown =>
      ⟨control_step_ne_notStarted h.1 hown, (received_step hown).trans h.2⟩
  set s' := Runs.exec Session.step s more
  have hsettled : s'.control = .receiving ∨ s'.control = .exited := by
    unfold work at hwork
    cases hcontrol : s'.control with
    | receiving => exact Or.inl rfl
    | exited => exact Or.inr rfl
    | notStarted => exact absurd hcontrol hkept.1
    | _ => simp [hcontrol, ControlPoint.work] at hwork
  have hidle : s'.sending .control = false := by
    refine hend.successful.written.sound.control_not_sending rfl (Or.inr ?_)
    rcases hsettled with hcontrol | hcontrol <;> rw [hcontrol] <;> trivial
  have hinbound : s'.inbound = s.inbound := congrArg List.flatten hkept.2
  have hperformed := hend.follows.complete hsettled
  rw [hinbound] at hperformed
  exact ⟨more, hmore, hsettled, hperformed, (hend.follows.pongs hidle).trans
    (congrArg _ hperformed)⟩

/-- **Inbound control handling is a function of the byte stream**, in every run in which
sends succeed, `Stop` is not called, and neither `capture_.Start` nor `encoder_.Initialize`
fails: the loop follows the stream wherever the run has come to, and from there its own steps
lead it to where it has acted on all that has been received. -/
theorem inbound_follows (link : L.State) (config : EncoderConfig) (acts : List Act)
    (h : Runs.Admits step Undisturbed (start link config) acts) :
    (after link config acts).Follows ∧
      ((after link config acts).control ≠ .notStarted → (after link config acts).CatchesUp) := by
  have hattentive := Runs.exec_invariant (P := Attentive link config)
    (fun _ _ h hquiet => h.step hquiet) (attentive_start link config) h
  exact ⟨hattentive.follows, hattentive.catchesUp⟩

instance (s : Session L) : ∀ act, Decidable (s.Undisturbed act)
  | .run started => inferInstanceAs
      (Decidable (Act.Succeeds (.run started) ∧ (s.run = .starting → started = true)))
  | .capture initialized => inferInstanceAs (Decidable (Act.Succeeds (.capture initialized) ∧
      (s.capture.isInitializing = true → initialized = true)))
  | .stop => isFalse fun h => h.2
  | .send t a => inferInstanceAs (Decidable (Act.Succeeds (.send t a) ∧ True))
  | .deliver _ | .packet _ | .encoded | .control | .recv _ => isTrue ⟨trivial, trivial⟩

/-- A PING in two pieces, a frame that does not decode, a DISCONNECT, and a PING behind it. -/
theorem inbound_follows_ping :
    let ping := Protocol.encode (.ping ⟨7⟩)
    let acts := opening ++ [.control, .recv (.data (ping.take 6)), .control, .control,
      .control, .recv (.data (ping.drop 6 ++ [3, 0, 0, 0, 0, 99, 0] ++
        Protocol.encode (.disconnect {}) ++ ping)), .control, .control, .control, .control] ++
      sends .control ++ List.replicate 10 .control
    let s := after (L := rawLink) () {} acts
    s.Follows ∧ s.CatchesUp ∧ s.performed = [.pong 7, .stop] ∧ s.control = .exited := by
  intro ping acts s
  obtain ⟨hfollows, hcatches⟩ := inbound_follows (L := rawLink) () {} acts (by decide +kernel)
  exact ⟨hfollows, hcatches (by decide +kernel), by decide +kernel, by decide +kernel⟩

/-- Two PINGs in one piece, and `encoder_.Initialize` fails between them: sends succeed and
`Stop` is not called, and the loop ends without the second PONG. -/
theorem inbound_falls_behind :
    let ping := Protocol.encode (.ping ⟨7⟩)
    let acts := opening ++ [.deliver {}, .capture true, .control, .recv (.data (ping ++ ping)),
      .control, .control, .control, .control] ++ sends .control ++
      [.control, .capture false, .capture true, .control, .control]
    (∀ act ∈ acts, act.Succeeds ∧ act ≠ .stop) ∧
      (after (L := rawLink) () {} acts).control = .exited ∧
      (after (L := rawLink) () {} acts).performed = [.pong 7] ∧
      reference (after (L := rawLink) () {} acts).inbound = [.pong 7, .pong 7] := by
  decide +kernel

end Session

end TetherDisplay.Core
