import TetherDisplay.Core.Refusal
import TetherDisplay.Protocol.RoundTrip

/-!
# The outbound stream

While `SendAll` succeeds, what the host writes is HELLO, WELCOME, and then VIDEO_FRAMEs and
PONGs, each frame whole, the VIDEO_FRAMEs numbered from zero without a gap.  The sequence
number is drawn outside the mutex, but by the thread that then waits for the mutex, so the
packets of the one capture thread keep their order (`Numbered`); the mutex keeps the frames
whole (`Written`); and `Run` has sent its two messages before it starts the other threads
(`Opened`).
-/

namespace TetherDisplay.Core

open Protocol (Message VideoFrame kMaxPayload encode decodeMessage frameOf frameGrammar scanFrame)
open Encode (Codec EncoderConfig EncodedPacket)
open LockedSender (Wiring Sender Stage itemsBy written)
open Framing (Call fed itemsOf)

/-- The frame of a VIDEO_FRAME. -/
def videoFrame? : Message → Option VideoFrame
  | .videoFrame vf => some vf
  | _ => none

/-- The VIDEO_FRAME of the `i`th packet of a session. -/
def videoOf (codec : Codec) (i : ℕ) (e : Emission) : VideoFrame :=
  buildVideoFrame codec e.packet.isKeyframe e.frame.timestamp100ns (UInt32.ofNat i) e.packet.data

namespace Session

variable {L : Wiring Bytes UInt8} {link : L.State} {config : EncoderConfig} {s : Session L}

/-! ## The numbering -/

/-- Each packet has its own number, and belongs to a frame that has been captured. -/
structure Numbered (config : EncoderConfig) (s : Session L) : Prop where
  seq : s.seq = UInt32.ofNat s.emitted.length
  frames : (itemsBy .capture s.sender.handed).map Outgoing.msg =
    (s.emitted.mapIdx (videoOf config.codec)).map Message.videoFrame
  captured : ∀ e ∈ s.emitted, 1 ≤ e.call ∧ s.delivered[e.call - 1]? = some e.frame
  order : s.emitted.Pairwise fun e e' => e.call ≤ e'.call

theorem numbered_start (link : L.State) (config : EncoderConfig) :
    Numbered config (start link config) where
  seq := rfl
  frames := rfl
  captured _ h := by cases h
  order := List.Pairwise.nil

/-- No packet belongs to a call that has not begun. -/
theorem Numbered.call_le (h : s.Numbered config) {e : Emission} (he : e ∈ s.emitted) :
    e.call ≤ s.calls := by
  obtain ⟨hpos, hframe⟩ := h.captured e he
  obtain ⟨hlt, -⟩ := List.getElem?_eq_some_iff.mp hframe
  show e.call ≤ s.delivered.length
  omega

/-- Another thread comes to `Send`. -/
theorem Numbered.hand (h : s.Numbered config) {t : Thread} (ht : t ≠ .capture) (msg : Message) :
    Numbered config (s.send t msg) :=
  { h with frames := by rw [handed_send_of_ne (Ne.symm ht)]; exact h.frames }

/-- **One step keeps the numbers.** -/
theorem Numbered.step (hsound : s.Sound link config) (h : s.Numbered config) (act : Act) :
    (s.step act).Numbered config := by
  rcases s.step_cases act with hidle | hmove
  · rwa [hidle]
  generalize s.step act = s' at hmove ⊢
  cases hmove with
  | send t a =>
      have hhanded : (s.stepSend t a).sender.handed = s.sender.handed := Sender.handed_step t a
      exact { h with frames := by rw [hhanded]; exact h.frames }
  | sayHello b hrun hidle => exact { h.hand (t := .run) (by decide) _ with }
  | sayWelcome b hrun hidle => exact { h.hand (t := .run) (by decide) _ with }
  | reply a hcontrol hpong => exact { h.hand (t := .control) (by decide) _ with }
  | deliver f hcapturing hcapture =>
      refine { h with captured := fun e he => ⟨(h.captured e he).1, ?_⟩ }
      obtain ⟨hlt, hget⟩ := List.getElem?_eq_some_iff.mp (h.captured e he).2
      rw [List.getElem?_append_left hlt]
      exact (h.captured e he).2
  | packet p f idr n hcapture hidle =>
      have hlast : s.delivered.getLast? = some f := hsound.frame f (by rw [hcapture]; rfl)
      have hcalls : 0 < s.calls := hsound.calls_pos (f := f) (by rw [hcapture]; rfl)
      refine ⟨?_, ?_, fun e he => ?_, ?_⟩
      · show s.seq + 1 = UInt32.ofNat (s.emitted ++ [_]).length
        rw [h.seq, List.length_append]
        exact (UInt32.ofNat_add _ _).symm
      · show (itemsBy .capture (s.send .capture _).sender.handed).map Outgoing.msg = _
        rw [handed_send_self, h.frames, List.mapIdx_concat, List.map_append, h.seq, hsound.codec]
        rfl
      · rcases List.mem_append.mp he with he | he
        · exact h.captured e he
        · obtain rfl := List.mem_singleton.mp he
          exact ⟨hcalls, by rw [← hlast, List.getLast?_eq_getElem?]; rfl⟩
      · refine List.pairwise_append.mpr ⟨h.order, List.pairwise_singleton _ _, ?_⟩
        intro e he e' he'
        obtain rfl := List.mem_singleton.mp he'
        exact h.call_le he
  | _ => exact { h with }

/-! ## The opening -/

/-- `Run` is alone until it has sent its two messages, and then sends no more. -/
structure Opened (config : EncoderConfig) (s : Session L) : Prop where
  alone : s.run.BeforeControl → ∀ x ∈ s.sender.handed, x.1 = .run
  opened : ¬ s.run.BeforeControl → ∃ front later, s.sender.begun = front ++ later ∧
    front.map (fun x => x.2.msg) = [openingHello config, openingWelcome config] ∧
    ∀ x ∈ later, x.1 ≠ .run

theorem opened_start (link : L.State) (config : EncoderConfig) :
    Opened config (start link config) where
  alone _ _ h := by cases h
  opened h := absurd trivial h

/-- While `Run` is alone, what has been begun is a part of what it has said. -/
theorem Opened.begun_alone (hsound : s.Sound link config) (h : s.Opened config)
    (hbefore : s.run.BeforeControl) :
    itemsBy .run s.sender.begun = s.sender.begun.map Prod.snd := by
  have hall : ∀ x ∈ s.sender.begun, x.1 = .run := by
    intro x hx
    have hmem : x.2 ∈ itemsBy x.1 s.sender.begun := LockedSender.mem_itemsBy.mpr hx
    have hhanded := (hsound.valid.begun_prefix x.1).subset hmem
    exact h.alone hbefore _ (LockedSender.mem_itemsBy.mp hhanded)
  unfold itemsBy
  rw [List.filter_eq_self.mpr fun x hx => by simpa using hall x hx]

/-- A thread other than `Run` comes to `Send`, or is past it. -/
theorem Opened.later (h : s.Opened config) (hlate : ¬ s.run.BeforeControl) {s' : Session L}
    (hrun : ¬ s'.run.BeforeControl) (hbegun : s'.sender.begun = s.sender.begun) :
    s'.Opened config where
  alone hbefore := absurd hbefore hrun
  opened _ := by rw [hbegun]; exact h.opened hlate

/-- A step in `Send` keeps it. -/
theorem Opened.stepSend (hsound : s.Sound link config) (h : s.Opened config) (t : Thread)
    (a : LockedSender.Act) : (s.stepSend t a).Opened config where
  alone hbefore := by
    have hhanded : (s.stepSend t a).sender.handed = s.sender.handed := Sender.handed_step t a
    rw [hhanded]
    exact h.alone hbefore
  opened hlate := by
    obtain ⟨front, later, hbegun, hfront, hlater⟩ := h.opened hlate
    rcases s.sender.begun_step t a with hsame | ⟨o, hstage, hstep⟩
    · exact ⟨front, later, hsame.trans hbegun, hfront, hlater⟩
    · refine ⟨front, later ++ [(t, o)], ?_, hfront, fun x hx => ?_⟩
      · rw [← List.append_assoc, ← hbegun]
        exact hstep
      · rcases List.mem_append.mp hx with hx | hx
        · exact hlater x hx
        · obtain rfl := List.mem_singleton.mp hx
          rintro rfl
          -- `Run` is in `Send` only at its beginning
          have hsending : s.sending .run = true := by rw [sending, hstage]; rfl
          rcases hsound.runSends hsending with hrun | hrun
          · exact hlate (by show s.run.BeforeControl; rw [hrun]; trivial)
          · exact hlate (by show s.run.BeforeControl; rw [hrun]; trivial)

/-- `Run` comes to `Send`. -/
theorem Opened.say (h : s.Opened config) (q : RunPoint) (hbefore : s.run.BeforeControl)
    (hq : q.BeforeControl) (msg : Message) :
    Opened config { s.send .run msg with run := q } where
  alone _ x hx := by
    rcases List.mem_append.mp hx with hx | hx
    · exact h.alone hbefore x hx
    · rw [List.mem_singleton.mp hx]
  opened hlate := absurd hq hlate

/-- Both openings have been sent when the control thread starts. -/
theorem Opened.startControl (hsound : s.Sound link config) (h : s.Opened config)
    (hrun : s.run = .startControl) (hidle : s.sending .run = false) :
    Opened config { s with control := .outer, run := .startCapture } where
  alone hbefore := hbefore.elim
  opened _ := by
    refine ⟨s.sender.begun, [], (List.append_nil _).symm, ?_, fun x hx => by cases hx⟩
    have hannounced := hsound.announced
    rw [hsound.valid.fifo .run, stage_eq_none_of_sending hidle, hrun,
      h.begun_alone hsound (by rw [hrun]; trivial)] at hannounced
    simpa [Stage.pending, RunPoint.announced, Function.comp_def] using hannounced

/-- **One step keeps the openings in front.** -/
theorem Opened.step (hsound : s.Sound link config) (h : s.Opened config) (act : Act) :
    (s.step act).Opened config := by
  rcases s.step_cases act with hidle | hmove
  · rwa [hidle]
  generalize s.step act = s' at hmove ⊢
  cases hmove with
  | send t a => exact h.stepSend hsound t a
  | runCalled b hrun =>
      exact ⟨fun _ => h.alone (by rw [hrun]; trivial), fun hlate => absurd trivial hlate⟩
  | sayHello b hrun hidle => exact h.say .sendWelcome (by rw [hrun]; trivial) trivial _
  | sayWelcome b hrun hidle => exact h.say .startControl (by rw [hrun]; trivial) trivial _
  | startControl b hrun hidle => exact h.startControl hsound hrun hidle
  | startCapture b hrun hidle => exact h.later (by rw [hrun]; exact id) id rfl
  | started hrun => exact h.later (by rw [hrun]; exact id) id rfl
  | startRefused hrun hcapture => exact h.later (by rw [hrun]; exact id) id rfl
  | startFailed b hrun => exact h.later (by rw [hrun]; exact id) id rfl
  | leaveLoop b hrun hrunning => exact h.later (by rw [hrun]; exact id) id rfl
  | stopCapture b hrun hcapture => exact h.later (by rw [hrun]; exact id) id rfl
  | shutdownEncoder b hrun => exact h.later (by rw [hrun]; exact id) id rfl
  | joined b hrun hcontrol => exact h.later (by rw [hrun]; exact id) id rfl
  | packet p f idr n hcapture hidle =>
      have hlate : ¬ s.run.BeforeControl := fun hbefore =>
        hsound.not_beforeCapture (by rw [hcapture]; simp) hbefore.beforeCapture
      exact h.later hlate hlate rfl
  | reply a hcontrol hpong =>
      have hlate : ¬ s.run.BeforeControl := by
        intro hbefore
        have hwaits := hsound.controlWaits hbefore
        rw [hcontrol] at hwaits
        cases hwaits
      exact h.later hlate hlate rfl
  | _ => exact { h with }

/-! ## The stream -/

/-- The encoder's packets fit into a frame. -/
def Act.Fits : Act → Prop
  | .packet p => p.data.length ≤ kMaxPayload - 15
  | _ => True

instance : DecidablePred Act.Fits
  | .packet p => inferInstanceAs (Decidable (p.data.length ≤ kMaxPayload - 15))
  | .send _ _ | .run _ | .deliver _ | .capture _ | .encoded | .control | .recv _ | .stop =>
      isTrue trivial

/-- The messages that have been written to the last byte. -/
def outbound (s : Session L) : List Message := s.sender.complete.map Outgoing.msg

/-- What the peer of a session gets. -/
structure WellFormed (config : EncoderConfig) (s : Session rawLink) : Prop where
  /-- Whole frames, and at most a part of one more. -/
  bytes : ∃ part, written s.sender.output = s.outbound.flatMap encode ++ part ∧
    (part = [] ∨ ∃ m rest, rest ≠ [] ∧ part ++ rest = encode m)
  /-- When nobody is in `SendAll`, the frames of the messages that have been sent. -/
  sent : s.sender.mutex = none →
    written s.sender.output = (s.sender.sent.map fun x => x.2.msg).flatMap encode
  opening : s.outbound <+: [openingHello config, openingWelcome config] ∨
    ∃ later, s.outbound = openingHello config :: openingWelcome config :: later ∧
      ∀ m ∈ later, (∃ vf, m = .videoFrame vf) ∨ ∃ pong, m = .pong pong
  /-- The VIDEO_FRAMEs are those of the packets emitted, in order and numbered from zero. -/
  video : s.outbound.filterMap videoFrame? <+: s.emitted.mapIdx (videoOf config.codec)
  captured : ∀ e ∈ s.emitted, 1 ≤ e.call ∧ s.delivered[e.call - 1]? = some e.frame
  order : s.emitted.Pairwise fun e e' => e.call ≤ e'.call
  /-- However the bytes arrive, a parser that has nothing more to return has returned the
  frames of the messages. -/
  recovered : ∀ calls, fed calls = written s.sender.output →
    (Protocol.FrameParser.session calls).2.next.1.1 = none →
      (itemsOf (Protocol.FrameParser.session calls).1).map decodeMessage = s.outbound.map .ok ∧
        (Protocol.FrameParser.session calls).2.next.1.2 = .needMoreData

/-- What every step of a run keeps in which `SendAll` succeeds and the packets fit. -/
structure Orderly (config : EncoderConfig) (s : Session rawLink) : Prop where
  successful : s.Successful (L := rawLink) () config
  numbered : s.Numbered config
  opened : s.Opened config
  encodable : s.sender.Every fun _ o => o.msg.Encodable

theorem orderly_start (config : EncoderConfig) :
    Orderly config (start (L := rawLink) () config) where
  successful := successful_start (L := rawLink) () config
  numbered := numbered_start (L := rawLink) () config
  opened := opened_start (L := rawLink) () config
  encodable := ⟨fun _ _ _ h => (by cases h), fun _ h => (by cases h), fun _ h => (by cases h)⟩

/-- The messages of a session can be encoded. -/
theorem encodable_step {s : Session L} (h : s.sender.Every fun _ o => o.msg.Encodable) {act : Act}
    (hfits : act.Fits) : (s.step act).sender.Every fun _ o => o.msg.Encodable := by
  rcases s.step_cases act with hidle | hmove
  · rwa [hidle]
  generalize s.step act = s' at hmove ⊢
  cases hmove with
  | send t a => exact h.step t a
  | sayHello b hrun hidle => exact h.hand (t := .run) rfl
  | sayWelcome b hrun hidle => exact h.hand (t := .run) rfl
  | packet p f idr n hcapture hidle => exact h.hand (t := .capture) hfits
  | reply a hcontrol hpong => exact h.hand (t := .control) trivial
  | _ => exact h

/-- **One step keeps it**, if the channel refuses nothing and the packet fits. -/
theorem Orderly.step {s : Session rawLink} (h : s.Orderly config) {act : Act}
    (hsucceeds : act.Succeeds) (hfits : act.Fits) : (s.step act).Orderly config := by
  have hsound := h.successful.written.sound
  exact ⟨h.successful.step hsucceeds, h.numbered.step hsound act, h.opened.step hsound act,
    encodable_step h.encodable hfits⟩

/-- Only the capture thread sends VIDEO_FRAMEs. -/
theorem videoFrame?_of_speaks {t : Thread} {msg : Message} (h : t.Speaks msg)
    (ht : t ≠ .capture) : videoFrame? msg = none := by
  cases msg with
  | videoFrame vf =>
      cases t with
      | capture => exact absurd rfl ht
      | run | control => exact h.elim
  | _ => rfl

/-- The frames are what the capture thread has sent. -/
theorem filterMap_video {log : List (Thread × Outgoing)}
    (h : ∀ x ∈ log, x.1.Speaks x.2.msg) :
    (log.map fun x => x.2.msg).filterMap videoFrame? =
      ((itemsBy .capture log).map Outgoing.msg).filterMap videoFrame? := by
  induction log with
  | nil => rfl
  | cons x log ih =>
      obtain ⟨hx, hlog⟩ := List.forall_mem_cons.mp h
      rw [List.map_cons, List.filterMap_cons]
      by_cases ht : x.1 = .capture
      · have hitems : itemsBy .capture (x :: log) = x.2 :: itemsBy .capture log := by
          simp [itemsBy, ht]
        rw [hitems, List.map_cons, List.filterMap_cons, ih hlog]
      · have hitems : itemsBy .capture (x :: log) = itemsBy .capture log := by
          simp [itemsBy, ht]
        rw [hitems, videoFrame?_of_speaks hx ht, ih hlog]

/-- What `Run` sends comes first, and what follows is of the other threads. -/
theorem Opened.begun_opening {s : Session L} (hsound : s.Sound link config)
    (h : s.Opened config) :
    (s.sender.begun.map fun x => x.2.msg) <+: [openingHello config, openingWelcome config] ∨
      ∃ later, (s.sender.begun.map fun x => x.2.msg) =
          openingHello config :: openingWelcome config :: later ∧
        ∀ m ∈ later, (∃ vf, m = .videoFrame vf) ∨ ∃ pong, m = .pong pong := by
  by_cases hbefore : s.run.BeforeControl
  · refine Or.inl ?_
    have hall := h.begun_alone hsound hbefore
    have hsaid := (hsound.valid.begun_prefix .run).map Outgoing.msg
    rw [hall, List.map_map, hsound.announced] at hsaid
    refine hsaid.trans ?_
    cases hrun : s.run with
    | notCalled | sendHello => exact List.nil_prefix
    | sendWelcome => exact List.prefix_append [_] _
    | _ => exact List.prefix_refl _
  · obtain ⟨front, later, hbegun, hfront, hlater⟩ := h.opened hbefore
    refine Or.inr ⟨later.map fun x => x.2.msg, ?_, fun m hm => ?_⟩
    · rw [hbegun, List.map_append, hfront]
      rfl
    · obtain ⟨x, hx, rfl⟩ := List.mem_map.mp hm
      have hspeaks := (hsound.speaks.begun x (by
        rw [hbegun]
        exact List.mem_append_right _ hx)).1
      have hother := hlater x hx
      obtain ⟨t, msg, call⟩ := x
      cases t with
      | run => exact absurd rfl hother
      | capture => cases msg with
        | videoFrame vf => exact Or.inl ⟨vf, rfl⟩
        | _ => exact hspeaks.elim
      | control => cases msg with
        | pong pong => exact Or.inr ⟨pong, rfl⟩
        | _ => exact hspeaks.elim

/-- A prefix of what `Run` and the other threads send. -/
theorem opening_of_prefix {ms begun : List Message} (hms : ms <+: begun)
    (h : begun <+: [openingHello config, openingWelcome config] ∨
      ∃ later, begun = openingHello config :: openingWelcome config :: later ∧
        ∀ m ∈ later, (∃ vf, m = .videoFrame vf) ∨ ∃ pong, m = .pong pong) :
    ms <+: [openingHello config, openingWelcome config] ∨
      ∃ later, ms = openingHello config :: openingWelcome config :: later ∧
        ∀ m ∈ later, (∃ vf, m = .videoFrame vf) ∨ ∃ pong, m = .pong pong := by
  rcases h with hshort | ⟨later, rfl, hlater⟩
  · exact Or.inl (hms.trans hshort)
  · rcases List.prefix_or_prefix_of_prefix hms
      (List.prefix_append [openingHello config, openingWelcome config] later) with hfew | hmore
    · exact Or.inl hfew
    · obtain ⟨rest, rfl⟩ := hmore
      have hrest := (List.prefix_append_right_inj [openingHello config, openingWelcome config]).mp
        hms
      exact Or.inr ⟨rest, rfl, fun m hm => hlater m (hrest.subset hm)⟩

theorem Orderly.wellFormed {s : Session rawLink} (h : s.Orderly config) :
    s.WellFormed config := by
  have hsound := h.successful.written.sound
  have hintact := h.successful.intact
  have hwires : ∀ os : List Outgoing,
      (framed rawLink).wires () os = (os.map Outgoing.msg).flatMap encode := by
    intro os
    rw [List.flatMap_map]
    exact Wiring.wires_plain (fun o : Outgoing => encode o.msg) os
  have hbegun : s.outbound <+: s.sender.begun.map fun x => x.2.msg := by
    have hmap := hintact.complete_prefix.map Outgoing.msg
    rwa [List.map_map] at hmap
  have hencodable : ∀ m ∈ s.sender.begun.map fun x => x.2.msg, m.Encodable := by
    intro m hm
    obtain ⟨x, hx, rfl⟩ := List.mem_map.mp hm
    exact h.encodable.begun x hx
  obtain ⟨part, hout, hpart⟩ := hintact.complete
  have hwritten : LockedSender.written s.sender.output = s.outbound.flatMap encode ++ part := by
    rw [hout, hwires]
    rfl
  -- what is left over is too short to be a frame
  have hrest : (part = [] ∨ ∃ m rest, rest ≠ [] ∧ part ++ rest = encode m) ∧
      scanFrame part = .more := by
    rcases hpart with ⟨rfl, -⟩ | ⟨o, rest, hne, happend, hlast⟩
    · exact ⟨Or.inl rfl, Protocol.scanFrame_short (by decide)⟩
    · have ho : o.msg.Encodable := by
        have hmem : o ∈ s.sender.begun.map Prod.snd := by
          rw [hlast]
          exact List.mem_append_right _ (List.mem_singleton_self o)
        obtain ⟨x, hx, rfl⟩ := List.mem_map.mp hmem
        exact h.encodable.begun x hx
      exact ⟨Or.inr ⟨o.msg, rest, hne, happend⟩, Protocol.scanFrame_part ho hne happend⟩
  exact {
    bytes := ⟨part, hwritten, hrest.1⟩
    sent := fun hfree => by
      have hsent := hintact.free hfree
      rw [hsent.1, hwires, hsent.2, List.map_map]
      rfl
    opening := opening_of_prefix hbegun (h.opened.begun_opening hsound)
    video := by
      have hvideo := hbegun.filterMap videoFrame?
      rw [filterMap_video fun x hx => (hsound.speaks.begun x hx).1] at hvideo
      refine hvideo.trans ?_
      have hhanded := ((hsound.valid.begun_prefix .capture).map Outgoing.msg).filterMap videoFrame?
      rw [h.numbered.frames] at hhanded
      simpa [List.filterMap_map, Function.comp_def, videoFrame?] using hhanded
    captured := h.numbered.captured
    order := h.numbered.order
    recovered := fun calls hcalls hdrained => by
      have hparse := Protocol.FrameParser.session_drained hdrained
      rw [hcalls, hwritten, Protocol.parse_messages (fun m hm => hencodable m (hbegun.subset hm))
        hrest.2] at hparse
      injection hparse with hitems hunread hfault
      refine ⟨?_, ?_⟩
      · rw [← hitems, List.map_map]
        refine List.map_congr_left fun m hm => ?_
        exact Protocol.decodeMessage_frameOf (hencodable m (hbegun.subset hm))
      · by_contra hhard
        rw [Protocol.FrameParser.hardError_hard hhard] at hfault
        cases hfault }

/-- **The outbound stream is well formed** in every run in which `SendAll` succeeds and the
encoder's packets fit into a frame. -/
theorem outbound_well_formed (config : EncoderConfig) (acts : List Act)
    (h : ∀ act ∈ acts, act.Succeeds ∧ act.Fits) :
    (after (L := rawLink) () config acts).WellFormed config := by
  have hadmits : Runs.Admits step (fun _ act => act.Succeeds ∧ act.Fits)
      (start (L := rawLink) () config) acts :=
    Runs.admits_of_forall fun act hact _ => h act hact
  have horderly := Runs.exec_invariant (P := Orderly config)
    (fun _ _ h hguard => h.step hguard.1 hguard.2) (orderly_start config) hadmits
  exact horderly.wellFormed

/-- Two packets of a frame, a PONG that waits for the first of them, and a frame that is
half written. -/
theorem outbound_well_formed_pong :
    (after (L := rawLink) () {} (opening ++ [.control,
      .recv (.data (encode (.ping ⟨7⟩))), .control, .control, .control, .deliver {},
      .capture true, .capture true, .capture true, .packet ⟨[1, 2], true⟩,
      .send .capture .lock, .control] ++ sends .capture ++ sends .control ++
      [.packet ⟨[3], true⟩] ++ sends .capture ++ [.encoded, .deliver {}, .capture true,
      .capture true, .packet ⟨[4], false⟩, .send .capture .lock,
      .send .capture (.write 5)])).WellFormed {} :=
  outbound_well_formed {} _ (by decide +kernel)

end Session

end TetherDisplay.Core
