import TetherDisplay.Core.SessionRuns
import TetherDisplay.Crypto.SecureByteChannel
import TetherDisplay.Protocol.ParserMemory

/-!
# What the host holds of what comes in

Whoever is on the other end of the cable decides how many bytes come in, how they are cut into
records and what lengths these claim to have.  Three places hold them: the buffer for the record
that is being read, the plaintext that `Recv` has not returned yet, and the parser of `ControlLoop`.

A record is judged by its length before any of it is read.  The loop of `Recv` reads the next one
only when the plaintext of the last has been returned.  And `ControlLoop` goes back to `Recv` only
when the parser has asked for more data, or has stopped the session for good: a parser that is fed
holds less than one frame.  `Reception` runs a session on a secure channel, and `receive_memory`
bounds what the two hold in all of its runs.
-/

namespace TetherDisplay.Core

open Protocol (FrameParser RawFrame kMaxPayload)
open LockedSender (Wiring)
open Encode (EncoderConfig)
open Crypto (Sodium SecureByteChannel kMaxFrame aBytes readFramed)

/-! ## The plaintext of a record -/

section Plaintext

variable {S : Sodium}

/-- A plaintext is the tag shorter than its record. -/
def Shortens (S : Sodium) : Prop :=
  ∀ pull record m pull', S.secretstream.pull pull record = some (m, pull') →
    m.length + aBytes = record.length

/-- The library of the tests is such a one. -/
theorem paper_shortens : Shortens Sodium.paper := by
  rintro ⟨key, header, n⟩ record m pull' haccept
  simp only [Sodium.paper] at haccept
  split at haccept
  · next hrecord =>
      cases haccept
      have hlength := congrArg List.length hrecord
      rw [List.length_append, List.Vector.toList_length] at hlength
      exact hlength.symm
  · cases haccept

/-- There is no plaintext, or it is that of a record such as the framing lets through. -/
def OfRecord (plain : Bytes) : Prop := plain = [] ∨ plain.length + aBytes ≤ kMaxFrame

/-- A record that is opened is shorter than it was. -/
theorem ofRecord_decrypt (hpull : Shortens S) {c c' : Crypto.SecureChannel S}
    {record plain : Bytes} (hlength : record.length ≤ kMaxFrame)
    (hdecrypt : c.decrypt record = some (plain, c')) : OfRecord plain := by
  obtain ⟨pull, pull', -, haccept, -⟩ := Crypto.SecureChannel.decrypt_eq_some hdecrypt
  exact .inr (by rw [hpull pull record plain pull' haccept]; exact hlength)

/-- A record that has been read is no longer than the bound. -/
theorem length_of_readFramed {c c' : ByteChannel} {record : Bytes}
    (h : readFramed c = (some record, c')) : record.length ≤ kMaxFrame := by
  obtain ⟨k, hscan, -⟩ := Crypto.readFramed_eq_some h
  exact (Crypto.scanRecord_item_iff.mp hscan).2.1

/-- What is kept of a record is no longer than it. -/
theorem ofRecord_pump (hpull : Shortens S) (fuel : ℕ) (raw : ByteChannel)
    {s : SecureByteChannel S} (h : OfRecord s.rxPlain) :
    OfRecord (SecureByteChannel.pump fuel raw s).2.rxPlain := by
  induction fuel generalizing raw s with
  | zero => exact h
  | succ fuel ih =>
      unfold SecureByteChannel.pump
      split
      · exact h
      · cases hread : readFramed raw with
        | mk record raw' =>
            cases record with
            | none => exact h
            | some record =>
                dsimp only
                cases hdecrypt : s.channel.decrypt record with
                | none => exact h
                | some decrypted =>
                    obtain ⟨plain, channel⟩ := decrypted
                    exact ih raw' (s := { s with channel, rxPlain := plain, rxPos := 0
                                                 rxPos_le := Nat.zero_le _ })
                      (ofRecord_decrypt hpull (length_of_readFramed hread) hdecrypt)

/-- The same after any `Recv`. -/
theorem ofRecord_recv (hpull : Shortens S) {s : SecureByteChannel S} (h : OfRecord s.rxPlain)
    (room : ℕ) : OfRecord (s.recv room).2.rxPlain := by
  unfold SecureByteChannel.recv
  split
  · exact h
  · next raw hraw =>
      split
      · exact h
      · have hpumped := ofRecord_pump hpull ((arriving raw.inbox).length + 1) raw h
        split
        · next hpump => rwa [hpump] at hpumped
        · next hpump => rwa [hpump] at hpumped
        · next hpump => rwa [hpump] at hpumped

theorem rxPlain_sendAll (s : SecureByteChannel S) (data : Bytes) :
    (s.sendAll data).2.rxPlain = s.rxPlain := by
  unfold SecureByteChannel.sendAll
  split
  · rfl
  · split
    · rfl
    · split <;> rfl

end Plaintext

/-! ## The parser of `ControlLoop` -/

namespace Session

variable {L : Wiring Bytes UInt8} {link : L.State} {config : EncoderConfig} {s : Session L}

/-- A `Recv` has come back from the parser with nothing, or has not been called yet. -/
def Awaits (control : ControlPoint) (running : Bool) : Prop :=
  control = .notStarted ∨ control = .receiving ∨ control = .outer ∧ running = true

/-- What the parser holds at each point of the loop. -/
structure Bounded (s : Session L) : Prop where
  buffer : s.parser.buf.length ≤ 65536 + (kMaxPayload + 6) + 65536
  drained : Awaits s.control s.running → s.parser.unread.length ≤ kMaxPayload + 6
  payloads : ∀ raw ∈ s.processed, raw.payload.length ≤ kMaxPayload

theorem bounded_start (link : L.State) (config : EncoderConfig) :
    Bounded (start link config) where
  buffer := Nat.zero_le _
  drained _ := Nat.zero_le _
  payloads raw h := by cases h

/-- The loop goes to a point where it does not wait for data. -/
theorem Bounded.busy (h : s.Bounded) {t : Session L} (hparser : t.parser.buf = s.parser.buf)
    (hbusy : ¬ Awaits t.control t.running)
    (hprocessed : ∀ raw ∈ t.processed, raw.payload.length ≤ kMaxPayload) : t.Bounded where
  buffer := by
    rw [hparser]
    exact h.buffer
  drained hawaits := absurd hawaits hbusy
  payloads := hprocessed

/-- **One step of the session keeps it.** -/
theorem Bounded.step (hsound : s.Sound link config) (h : s.Bounded) (act : Act) :
    (s.step act).Bounded := by
  rcases s.step_cases act with hidle | hmove
  · rwa [hidle]
  generalize s.step act = s' at hmove ⊢
  -- a frame that the parser has answered
  have htaken : ∀ {raw e parser}, s.parser.next = ((some raw, e), parser) →
      parser.buf = s.parser.buf ∧
        ∀ r ∈ s.processed ++ [raw], r.payload.length ≤ kMaxPayload := by
    intro raw e parser hnext
    have hbuf := s.parser.next_buf
    have hpayload : raw.payload.length ≤ kMaxPayload := by
      refine s.parser.payload_of_next ?_
      rw [hnext]
    rw [hnext] at hbuf
    exact ⟨hbuf, List.forall_mem_append.mpr ⟨h.payloads, by simpa using hpayload⟩⟩
  cases hmove with
  | runCalled b hrun =>
      have hwaits := hsound.controlWaits (by rw [hrun]; trivial)
      exact { h with drained := fun _ => h.drained (.inl hwaits) }
  | startControl b hrun hidle =>
      have hwaits := hsound.controlWaits (by rw [hrun]; trivial)
      exact { h with drained := fun _ => h.drained (.inl hwaits) }
  | outerOn hcontrol hrunning =>
      exact { h with drained := fun _ => h.drained (.inr (.inr ⟨hcontrol, hrunning⟩)) }
  | drained parser hcontrol hnext =>
      have hanswer : s.parser.next.1 = (none, .needMoreData) := by rw [hnext]
      have hmore := s.parser.scanFrame_of_needMoreData hanswer
      have hscan := s.parser.next_scan
      rw [hmore, hnext] at hscan
      have hbuf := s.parser.next_buf
      rw [hnext] at hbuf
      refine ⟨?_, fun _ => ?_, h.payloads⟩
      · show parser.buf.length ≤ _
        rw [hbuf]
        exact h.buffer
      · have hsame : parser = s.parser := congrArg Prod.snd hscan
        show parser.unread.length ≤ _
        rw [hsame]
        exact Protocol.length_of_scanFrame_more hmore
  | recvData r hcontrol hcount hroom =>
      have hheld := h.drained (.inr (.inl hcontrol))
      have hcompact := s.parser.length_compact
      refine ⟨?_, fun hawaits => ?_, h.payloads⟩
      · show (s.parser.compact.buf ++ r.bytes).length ≤ _
        rw [List.length_append]
        omega
      · rcases hawaits with hawaits | hawaits | ⟨hawaits, -⟩ <;> cases hawaits
  | skipped raw e derr parser hcontrol hnext =>
      obtain ⟨hbuf, hpayloads⟩ := htaken hnext
      refine h.busy hbuf (fun hawaits => ?_) hpayloads
      rcases hawaits with hawaits | hawaits | ⟨hawaits, -⟩ <;> cases hawaits
  | decoded raw e msg parser hcontrol hnext =>
      obtain ⟨hbuf, hpayloads⟩ := htaken hnext
      refine h.busy hbuf (fun hawaits => ?_) hpayloads
      rcases hawaits with hawaits | hawaits | ⟨hawaits, -⟩ <;> cases hawaits
  | faulted e parser hcontrol hhard hnext =>
      have hbuf := s.parser.next_buf
      rw [hnext] at hbuf
      refine h.busy hbuf (fun hawaits => ?_) h.payloads
      rcases hawaits with hawaits | hawaits | ⟨hawaits, -⟩ <;> cases hawaits
  | innerOff hcontrol hoff =>
      refine h.busy rfl (fun hawaits => ?_) h.payloads
      rcases hawaits with hawaits | hawaits | ⟨-, hon⟩
      · cases hawaits
      · cases hawaits
      · exact Bool.false_ne_true (hoff.symm.trans hon)
  | outerOff | ended | innerOn | setIdr | keepIdr | reply | noReply | goOn | recvEnd =>
      refine h.busy rfl (fun hawaits => ?_) h.payloads
      rcases hawaits with hawaits | hawaits | ⟨hawaits, -⟩ <;> cases hawaits
  | corrupt | disconnect =>
      refine h.busy rfl (fun hawaits => ?_) h.payloads
      rcases hawaits with hawaits | hawaits | ⟨-, hon⟩
      · cases hawaits
      · cases hawaits
      · cases hon
  | send t a =>
      refine { h with drained := fun hawaits => h.drained ?_ }
      exact hawaits.imp_right (Or.imp_right fun hon => ⟨hon.1, running_of_stepSend hon.2⟩)
  | startFailed | initializeFailed | stopCalled =>
      refine { h with drained := fun hawaits => h.drained ?_ }
      exact hawaits.imp_right (Or.imp_right fun hon => absurd hon.2 Bool.false_ne_true)
  | sayHello | sayWelcome | startCapture | started | startRefused | leaveLoop | stopCapture
  | shutdownEncoder | joined | deliver | turnedAway | prepared | setUp | initialized
  | initializeRefused | exchange | packet | encoded | stopCloses => exact { h with }

end Session

/-! ## The session on its channel -/

variable {L : Wiring Bytes UInt8} {S : Sodium}

/-- A session, and the secure channel that its `Recv` is of. -/
structure Reception (L : Wiring Bytes UInt8) (S : Sodium) where
  session : Session L
  channel : SecureByteChannel S

namespace Reception

/-- What happens next. -/
inductive Act where
  /-- A thread goes on, other than in `Recv`. -/
  | thread (a : Session.Act)
  /-- Some thread is in `SendAll`. -/
  | sendAll (data : Bytes)
  /-- `Recv` returns. -/
  | recv

/-- One step. -/
def step (p : Reception L S) : Act → Reception L S
  | .thread (.recv _) => p
  | .thread a => { p with session := p.session.step a }
  | .sendAll data => { p with channel := (p.channel.sendAll data).2 }
  | .recv =>
      if p.session.control = .receiving then
        let (r, channel) := p.channel.recv (64 * 1024)
        { session := p.session.step (.recv r), channel }
      else p

/-- A session that is made on a channel, whatever will come in on it. -/
def after (link : L.State) (config : EncoderConfig) (channel : SecureByteChannel S)
    (acts : List Act) : Reception L S :=
  Runs.exec step { session := Session.start link config, channel } acts

/-- **The invariant**: what the two hold in memory is bounded. -/
structure Bounded (link : L.State) (config : EncoderConfig) (p : Reception L S) : Prop where
  sound : p.session.Sound link config
  session : p.session.Bounded
  channel : OfRecord p.channel.rxPlain

/-- **One step keeps it.** -/
theorem Bounded.step (hpull : Shortens S) {link : L.State} {config : EncoderConfig}
    {p : Reception L S} (h : p.Bounded link config) (act : Act) :
    (p.step act).Bounded link config := by
  have hgoes : ∀ a, Bounded link config { p with session := p.session.step a } :=
    fun a => ⟨h.sound.step a, h.session.step h.sound a, h.channel⟩
  cases act with
  | thread a =>
      cases a with
      | recv r => exact h
      | send | run | deliver | capture | packet | encoded | control | stop => exact hgoes _
  | sendAll data =>
      refine ⟨h.sound, h.session, ?_⟩
      show OfRecord (p.channel.sendAll data).2.rxPlain
      rw [rxPlain_sendAll]
      exact h.channel
  | recv =>
      have hplain := ofRecord_recv hpull h.channel (64 * 1024)
      rw [Reception.step]
      split
      · cases hrecv : p.channel.recv (64 * 1024) with
        | mk r channel =>
            rw [hrecv] at hplain
            exact ⟨h.sound.step (.recv r), h.session.step h.sound (.recv r), hplain⟩
      · exact h

/-- **What the host holds of what comes in**, in every run of a session on a secure channel,
whatever the other end puts on the cable: the plaintext of one record, and a parser with less than
a frame, what one `Recv` can return and 64 KiB that it has read.  Every frame that is handled is
one that the protocol allows. -/
theorem receive_memory (hpull : Shortens S) (link : L.State) (config : EncoderConfig)
    (channel : SecureByteChannel S) (hnew : channel.rxPlain = []) (acts : List Act) :
    let p := after link config channel acts
    p.channel.rxPlain.length ≤ kMaxFrame - aBytes ∧
      p.session.parser.buf.length ≤ 65536 + (kMaxPayload + 6) + 65536 ∧
      (p.session.control = .receiving → p.session.parser.unread.length ≤ kMaxPayload + 6) ∧
      ∀ raw ∈ p.session.processed, raw.payload.length ≤ kMaxPayload := by
  have h : (after link config channel acts).Bounded link config :=
    Runs.exec_preserves (fun _ act h => h.step hpull act)
      ⟨Session.sound_start link config, Session.bounded_start link config, .inl hnew⟩ acts
  refine ⟨?_, h.session.buffer, fun hcontrol => h.session.drained (.inr (.inl hcontrol)),
    h.session.payloads⟩
  rcases h.channel with hnone | hrecord
  · rw [hnone]
    exact Nat.zero_le _
  · omega

/-- A PING in a record comes in, and is handled. -/
theorem receive_memory_ping :
    let stream := (Sodium.arrOf 32 7, Sodium.arrOf Crypto.headerBytes 9, 0)
    let record := (Sodium.paper.secretstream.push stream (Protocol.encode (.ping ⟨7⟩))).1
    let channel : SecureByteChannel Sodium.paper :=
      { raw := some { inbox := [.data (Crypto.recordWire record)] }
        channel := { pullState := some stream } }
    let acts := (Session.opening ++ [Session.Act.control]).map Act.thread ++ [.recv] ++
      List.replicate 3 (.thread Session.Act.control)
    let p := after (L := rawLink) () {} channel acts
    p.session.processed.length = 1 ∧ p.channel.rxPlain.length ≤ kMaxFrame - aBytes := by
  intro stream record channel acts p
  exact ⟨by decide +kernel,
    (receive_memory (L := rawLink) paper_shortens () {} channel rfl acts).1⟩

end Reception

end TetherDisplay.Core
