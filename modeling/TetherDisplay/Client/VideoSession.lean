import TetherDisplay.Client.Conformance
import TetherDisplay.Foundations.Runs
import Mathlib.Data.List.Induction

/-!
# The video session on the iPad

`VideoSession.swift`: one session object accepts connection after connection, feeds
what each delivers to its frame parser and dispatches the messages.  The parser is a
field of the session, made once; `accept` replaces the connection and the transport
and leaves the parser as it is.

So the bytes of two connections meet in one buffer, and the tasks of a connection that
has been replaced still find the session and work on what is there by then.  `History`
runs a session through any events and remembers which connection delivered and dispatched
what.  The session isolates its connections as long as it meets `Fresh`: the plaintext, the
completion and the close of a connection come while it is the session's own, and when the
session goes over from one connection to another, the parser holds no unread byte.  Then
from `accept` on it is a session that has only ever had this connection, in what it
dispatches, in what it asks for and in what `status` shows (`Mirrors`).

Nothing in the code sees to either.  A connection that ends in the middle of a frame leaves
the next one with the rest of that frame in front of its own bytes, and a PING of a replaced
connection is answered on the one that has replaced it.

The decoder, the renderer and the listener are left out; what the session asks of
them is recorded as an `Effect`.
-/

namespace TetherDisplay.Client

/-- `SecureTransport.Result`. -/
inductive PairingResult where
  | ok
  | peerRejected
  | badSignature
  | protocolError
  | ioError
  deriving DecidableEq, Repr

/-- Stands for the `NWConnection` object. -/
abbrev ConnectionId := ℕ

/-- What `status` tells the user. -/
inductive Status where
  | starting
  | pairing
  | pairingFailed (result : PairingResult)
  | pairedAndEncrypted
  | negotiated (width height fps : UInt16)
  | protocolError (e : WireError)
  | protocolViolation (e : WireError)
  | disconnected
  deriving DecidableEq, Repr

/-- What the session makes of the bytes of a connection: a message for the `switch` of
`process`, or the error for which it tears down. -/
inductive Dispatch where
  | message (m : Message)
  | protocolError (e : WireError)
  | protocolViolation (e : WireError)
  deriving DecidableEq, Repr

/-- The message that is dispatched, if it is one. -/
def Dispatch.message? : Dispatch → Option Message
  | .message m => some m
  | _ => none

/-- What the session asks of the objects around it. -/
inductive Effect where
  | decode (bitstream : Bytes)
  | send (transport : ConnectionId) (msg : Message)
  | cancel (conn : ConnectionId)
  | savePinnedPeer (peer : Bytes)
  deriving DecidableEq, Repr

/-- The session: one connection at a time, and one parser for all of them. -/
structure VideoSession where
  status : Status := .starting
  connection : Option ConnectionId := none
  transport : Option ConnectionId := none
  parser : FrameParser := {}
  deriving DecidableEq, Repr

/-- What a call has led to, and the session after it. -/
structure Processed where
  dispatches : List Dispatch
  effects : List Effect
  session : VideoSession
  deriving DecidableEq, Repr

namespace VideoSession

/-- `transport?.send(...)`. -/
def send (s : VideoSession) (msg : Message) : List Effect :=
  match s.transport with
  | some transport => [.send transport msg]
  | none => []

/-- `connection?.cancel()`. -/
def cancel (s : VideoSession) : List Effect :=
  match s.connection with
  | some conn => [.cancel conn]
  | none => []

/-- The arms of the `switch` for a message that has been decoded. -/
def handle (s : VideoSession) : Message → List Effect × VideoSession
  | .videoFrame vf => ([.decode vf.bitstream], s)
  | .welcome w => ([], { s with status := .negotiated w.width w.height w.fps })
  | .ping p => (s.send (.pong ⟨p.token⟩), s)
  | .disconnect _ => (s.cancel, s)
  | _ => ([], s)

/-- The `while true` of `process`, at most `fuel` times round. -/
def processLoop : ℕ → VideoSession → Processed
  | 0, s => ⟨[], [], s⟩
  | fuel + 1, s =>
      match s.parser.next with
      | (.ok none, parser) => ⟨[], [], { s with parser }⟩
      | (.error e, parser) =>
          ⟨[.protocolError e], s.cancel, { s with parser, status := .protocolError e }⟩
      | (.ok (some raw), parser) =>
          let s := { s with parser }
          match decodeMessage raw with
          | .error e =>
              ⟨[.protocolViolation e], s.cancel, { s with status := .protocolViolation e }⟩
          | .ok m =>
              let handled := s.handle m
              let later := processLoop fuel handled.2
              ⟨.message m :: later.dispatches, handled.1 ++ later.effects, later.session⟩

/-- Every round but the last takes a frame off the buffer, so the bound is never met
(`processLoop_fuel`). -/
def process (s : VideoSession) (data : Bytes) : Processed :=
  let s := { s with parser := s.parser.feed data }
  processLoop (s.parser.unread.length + 1) s

/-- `accept`: a new connection, and a transport for it. -/
def accept (s : VideoSession) (conn : ConnectionId) : VideoSession :=
  { s with connection := some conn, transport := some conn, status := .pairing }

/-- The HELLO that announces the client's capabilities: both codecs, 2360×1640 at 60. -/
def announcement : Message :=
  .hello { codecMask := 0x03, maxWidth := 2360, maxHeight := 1640,
           maxBitrateKbps := 80000, maxFps := 60 }

/-- The completion of `establish` for a connection. -/
def established (s : VideoSession) (conn : ConnectionId) (result : PairingResult)
    (learnedPeer : Option Bytes) : List Effect × VideoSession :=
  if result ≠ .ok then ([.cancel conn], { s with status := .pairingFailed result })
  else
    (learnedPeer.toList.map .savePinnedPeer ++ s.send announcement ++
      s.send (.keyframeRequest { reason := 0, lastGoodSeq := 0 }),
      { s with status := .pairedAndEncrypted })

/-- `onClosed`. -/
def closed (s : VideoSession) : VideoSession := { s with status := .disconnected }

end VideoSession

/-! ## Histories -/

/-- What the main queue runs next. -/
inductive Event where
  | accept (conn : ConnectionId)
  | established (conn : ConnectionId) (result : PairingResult) (learnedPeer : Option Bytes)
  | plaintext (conn : ConnectionId) (data : Bytes)
  | closed (conn : ConnectionId)
  deriving DecidableEq, Repr

/-- The connection that the event is about. -/
def Event.connection : Event → ConnectionId
  | .accept conn | .established conn _ _ | .plaintext conn _ | .closed conn => conn

/-- A connection is accepted. -/
def Event.IsAccept : Event → Prop
  | .accept _ => True
  | _ => False

instance : DecidablePred Event.IsAccept
  | .accept _ => inferInstanceAs (Decidable True)
  | .established _ _ _ | .plaintext _ _ | .closed _ => inferInstanceAs (Decidable False)

/-- A session, the plaintext it has been handed and what it made of it, each with the
connection it came from, and what it has asked for. -/
structure History where
  session : VideoSession := {}
  received : List (ConnectionId × Bytes) := []
  dispatched : List (ConnectionId × Dispatch) := []
  effects : List Effect := []
  deriving DecidableEq, Repr

namespace History

/-- One event. -/
def step (h : History) : Event → History
  | .accept conn => { h with session := h.session.accept conn }
  | .established conn result learnedPeer =>
      let r := h.session.established conn result learnedPeer
      { h with session := r.2, effects := h.effects ++ r.1 }
  | .plaintext conn data =>
      let p := h.session.process data
      { session := p.session
        received := h.received ++ [(conn, data)]
        dispatched := h.dispatched ++ p.dispatches.map (conn, ·)
        effects := h.effects ++ p.effects }
  | .closed _ => { h with session := h.session.closed }

/-- The entries of one connection. -/
def entriesOf {α : Type} (conn : ConnectionId) (log : List (ConnectionId × α)) : List α :=
  (log.filter fun entry => entry.1 = conn).map Prod.snd

/-- What the session has been handed by a connection, chunk by chunk. -/
def chunks (h : History) (conn : ConnectionId) : List Bytes := entriesOf conn h.received

/-- What the session has dispatched for a connection. -/
def dispatches (h : History) (conn : ConnectionId) : List Dispatch :=
  entriesOf conn h.dispatched

/-- The history of a session that has only ever had one connection. -/
def alone (conn : ConnectionId) (chunks : List Bytes) : History :=
  Runs.exec step {} (chunks.map (.plaintext conn))

/-- **The condition for isolation**: a connection that is accepted is a new one; its
completion, its plaintext and its close come while it is the session's own; and plaintext
of another connection than the last one finds no unread byte in the parser. -/
def Fresh (h : History) : Event → Prop
  | .accept conn => conn ∉ h.received.map Prod.fst
  | .established conn _ _ | .closed conn => h.session.connection = some conn
  | .plaintext conn _ => h.session.connection = some conn ∧
      (h.received.getLast?.map Prod.fst = some conn ∨ h.session.parser.unread = [])

instance (h : History) : DecidablePred h.Fresh
  | .accept conn => inferInstanceAs (Decidable (conn ∉ h.received.map Prod.fst))
  | .established conn _ _ | .closed conn =>
      inferInstanceAs (Decidable (h.session.connection = some conn))
  | .plaintext conn _ => inferInstanceAs (Decidable (h.session.connection = some conn ∧
      (h.received.getLast?.map Prod.fst = some conn ∨ h.session.parser.unread = [])))

/-- What a session has done since a state is what the other has done in all, and where they
are now is the same, whatever their parsers hold. -/
structure Mirrors (earlier h alone : History) : Prop where
  received : h.received = earlier.received ++ alone.received
  dispatched : h.dispatched = earlier.dispatched ++ alone.dispatched
  effects : h.effects = earlier.effects ++ alone.effects
  status : h.session.status = alone.session.status
  connection : h.session.connection = alone.session.connection
  transport : h.session.transport = alone.session.transport

end History

/-! ## One call of `process` -/

namespace VideoSession

@[simp] theorem parser_handle (s : VideoSession) (m : Message) :
    (s.handle m).2.parser = s.parser := by
  cases m <;> rfl

/-- Two sessions that differ in their parsers at most. -/
structure Alike (s s' : VideoSession) : Prop where
  status : s.status = s'.status
  connection : s.connection = s'.connection
  transport : s.transport = s'.transport

/-- Sessions that are alike send alike. -/
theorem Alike.send {s s' : VideoSession} (h : s.Alike s') (msg : Message) :
    s.send msg = s'.send msg := by
  rw [VideoSession.send, VideoSession.send, h.transport]

/-- Sessions that are alike cancel alike. -/
theorem Alike.cancel {s s' : VideoSession} (h : s.Alike s') : s.cancel = s'.cancel := by
  rw [VideoSession.cancel, VideoSession.cancel, h.connection]

/-- Sessions that are alike handle messages alike. -/
theorem Alike.handle {s s' : VideoSession} (h : s.Alike s') (m : Message) :
    (s.handle m).1 = (s'.handle m).1 ∧ (s.handle m).2.Alike (s'.handle m).2 := by
  cases m with
  | ping p => exact ⟨h.send _, h⟩
  | disconnect d => exact ⟨h.cancel, h⟩
  | welcome w => exact ⟨rfl, rfl, h.connection, h.transport⟩
  | _ => exact ⟨rfl, h⟩

/-- Sessions that are alike are told alike that pairing is over. -/
theorem Alike.established {s s' : VideoSession} (h : s.Alike s') (conn : ConnectionId)
    (result : PairingResult) (learnedPeer : Option Bytes) :
    (s.established conn result learnedPeer).1 = (s'.established conn result learnedPeer).1 ∧
      (s.established conn result learnedPeer).2.Alike
        (s'.established conn result learnedPeer).2 := by
  unfold VideoSession.established
  split
  · exact ⟨rfl, rfl, h.connection, h.transport⟩
  · exact ⟨by rw [h.send, h.send], rfl, h.connection, h.transport⟩

/-- Pairing does not touch the parser. -/
theorem parser_established (s : VideoSession) (conn : ConnectionId) (result : PairingResult)
    (learnedPeer : Option Bytes) : (s.established conn result learnedPeer).2.parser = s.parser := by
  unfold established
  split <;> rfl

theorem connection_established (s : VideoSession) (conn : ConnectionId) (result : PairingResult)
    (learnedPeer : Option Bytes) :
    (s.established conn result learnedPeer).2.connection = s.connection := by
  unfold established
  split <;> rfl

/-- What a call makes of two sessions whose parsers hold the same: the same dispatches, and
the same bytes are left; and if the sessions are alike, so they are afterwards, and have
asked for the same. -/
structure SameOutcome (s s' : VideoSession) (p p' : Processed) : Prop where
  dispatches : p.dispatches = p'.dispatches
  unread : p.session.parser.unread = p'.session.parser.unread
  effects : s.Alike s' → p.effects = p'.effects
  session : s.Alike s' → p.session.Alike p'.session

/-- **What is dispatched depends on the unread bytes alone**, and so does what is left
unread. -/
theorem processLoop_congr (fuel : ℕ) (s s' : VideoSession)
    (h : s.parser.unread = s'.parser.unread) :
    SameOutcome s s' (processLoop fuel s) (processLoop fuel s') := by
  induction fuel generalizing s s' with
  | zero => exact ⟨rfl, h, fun _ => rfl, id⟩
  | succ fuel ih =>
      obtain ⟨hanswer, hunread⟩ := frameReader.next_congr
        (show frameReader.unread s.parser = frameReader.unread s'.parser from h)
      change s.parser.next.1 = s'.parser.next.1 at hanswer
      change s.parser.next.2.unread = s'.parser.next.2.unread at hunread
      unfold processLoop
      rcases hnext : s.parser.next with ⟨answer, parser⟩
      rcases hnext' : s'.parser.next with ⟨answer', parser'⟩
      rw [hnext, hnext'] at hanswer hunread
      obtain rfl : answer = answer' := hanswer
      match answer with
      | .ok none =>
          exact ⟨rfl, hunread, fun _ => rfl, fun ha => ⟨ha.status, ha.connection, ha.transport⟩⟩
      | .error e =>
          exact ⟨rfl, hunread, Alike.cancel, fun ha => ⟨rfl, ha.connection, ha.transport⟩⟩
      | .ok (some raw) =>
          -- the sessions have taken the frame off their parsers
          have htaken (ha : s.Alike s') :
              Alike { s with parser } { s' with parser := parser' } :=
            ⟨ha.status, ha.connection, ha.transport⟩
          cases hraw : decodeMessage raw with
          | error e =>
              simp only [hraw]
              exact ⟨rfl, hunread, fun ha => (htaken ha).cancel,
                fun ha => ⟨rfl, ha.connection, ha.transport⟩⟩
          | ok m =>
              have hlater := ih (handle { s with parser } m).2
                (handle { s' with parser := parser' } m).2
                (by rw [parser_handle, parser_handle]; exact hunread)
              simp only [hraw]
              refine ⟨congrArg (Dispatch.message m :: ·) hlater.dispatches, hlater.unread,
                fun ha => ?_, fun ha => hlater.session ((htaken ha).handle m).2⟩
              obtain ⟨hhandled, halike⟩ := (htaken ha).handle m
              exact congrArg₂ (· ++ ·) hhandled (hlater.effects halike)

theorem process_eq (s : VideoSession) (data : Bytes) :
    s.process data = processLoop ((s.parser.feed data).unread.length + 1)
      { s with parser := s.parser.feed data } := rfl

/-- Two parsers that have the same unread bytes do the same. -/
theorem process_congr {s s' : VideoSession} (h : s.parser.unread = s'.parser.unread)
    (data : Bytes) : SameOutcome s s' (s.process data) (s'.process data) := by
  have hfed : (s.parser.feed data).unread = (s'.parser.feed data).unread := by
    have hs := frameReader.unread_feed s.parser data
    have hs' := frameReader.unread_feed s'.parser data
    exact hs.trans ((congrArg (· ++ data) h).trans hs'.symm)
  have hloop := processLoop_congr ((s.parser.feed data).unread.length + 1)
    { s with parser := s.parser.feed data } { s' with parser := s'.parser.feed data } hfed
  rw [hfed] at hloop
  rw [process_eq, process_eq, hfed]
  have hfeed (ha : s.Alike s') :
      Alike { s with parser := s.parser.feed data } { s' with parser := s'.parser.feed data } :=
    ⟨ha.status, ha.connection, ha.transport⟩
  exact ⟨hloop.dispatches, hloop.unread, fun ha => hloop.effects (hfeed ha),
    fun ha => hloop.session (hfeed ha)⟩

theorem connection_processLoop (fuel : ℕ) (s : VideoSession) :
    (processLoop fuel s).session.connection = s.connection := by
  induction fuel generalizing s with
  | zero => rfl
  | succ fuel ih =>
      unfold processLoop
      rcases s.parser.next with ⟨_ | _ | raw, parser⟩
      · rfl
      · rfl
      · cases hraw : decodeMessage raw with
        | error e => simp only [hraw]
        | ok m =>
            simp only [hraw]
            rw [ih]
            cases m <;> rfl

/-- Data does not change the connection. -/
theorem connection_process (s : VideoSession) (data : Bytes) :
    (s.process data).session.connection = s.connection :=
  connection_processLoop _ _

/-- The message of a frame, if it can be decoded. -/
def decoded? (f : RawFrame) : Option Message := (decodeMessage f).toOption

/-- A loop that can decode every frame there is dispatches them all and leaves what the
one-shot parse leaves. -/
theorem processLoop_parse (fuel : ℕ) (s : VideoSession) (hfuel : s.parser.unread.length < fuel)
    (hdecode : ∀ f ∈ (frameGrammar.parse s.parser.unread).items,
      ∃ m, decodeMessage f = .ok m) :
    (processLoop fuel s).dispatches.filterMap Dispatch.message? =
        (frameGrammar.parse s.parser.unread).items.filterMap decoded? ∧
      (processLoop fuel s).session.parser.unread =
        (frameGrammar.parse s.parser.unread).rest := by
  induction fuel generalizing s with
  | zero => omega
  | succ fuel ih =>
      cases hscan : frameGrammar.scan s.parser.unread with
      | more =>
          obtain ⟨hanswer, hkept⟩ := frameReader.next_more (s := s.parser) hscan
          have hnext : s.parser.next = (.ok none, s.parser.next.2) := Prod.ext hanswer rfl
          rw [processLoop, hnext, Framing.Grammar.parse_more hscan]
          exact ⟨rfl, hkept⟩
      | fail e =>
          obtain ⟨hanswer, hkept⟩ := frameReader.next_fail (s := s.parser) hscan
          have hnext : s.parser.next = (.error e, s.parser.next.2) := Prod.ext hanswer rfl
          rw [processLoop, hnext, Framing.Grammar.parse_fail hscan]
          exact ⟨rfl, hkept⟩
      | item f k =>
          obtain ⟨hanswer, hdropped⟩ := frameReader.next_item (s := s.parser) hscan
          have hnext : s.parser.next = (.ok (some f), s.parser.next.2) := Prod.ext hanswer rfl
          have hpos := frameGrammar.used_pos hscan
          have hle := frameGrammar.used_le hscan
          have hparse := Framing.Grammar.parse_item hscan
          rw [hparse] at hdecode ⊢
          obtain ⟨m, hm⟩ := hdecode f List.mem_cons_self
          have hparser : (handle { s with parser := s.parser.next.2 } m).2.parser.unread =
              s.parser.unread.drop k := by
            rw [parser_handle]; exact hdropped
          have hlater := ih (handle { s with parser := s.parser.next.2 } m).2
            (by rw [hparser, List.length_drop]; omega)
            (by rw [hparser]; exact fun g hg => hdecode g (List.mem_cons_of_mem _ hg))
          rw [hparser] at hlater
          rw [processLoop, hnext]
          simp only [hm]
          refine ⟨?_, hlater.2⟩
          have hhead : (Dispatch.message m).message? = some m := rfl
          have hdecoded : decoded? f = some m := by rw [decoded?, hm]; rfl
          rw [List.filterMap_cons_some hhead, hlater.1, List.filterMap_cons_some hdecoded]

end VideoSession

/-! ## Whole histories -/

namespace History

open VideoSession

section Entries

variable {α : Type} (conn : ConnectionId) (log log' : List (ConnectionId × α))

theorem entriesOf_append :
    entriesOf conn (log ++ log') = entriesOf conn log ++ entriesOf conn log' := by
  simp [entriesOf]

theorem entriesOf_map (items : List α) :
    entriesOf conn (items.map (conn, ·)) = items := by
  induction items with
  | nil => rfl
  | cons a items ih => simpa [entriesOf] using ih

theorem entriesOf_map_of_ne {other : ConnectionId} (h : other ≠ conn) (items : List α) :
    entriesOf conn (items.map (other, ·)) = [] := by
  induction items with
  | nil => rfl
  | cons a items ih => simp [entriesOf, h]

end Entries

variable (conn : ConnectionId)

/-- One more chunk. -/
theorem alone_concat (chunks : List Bytes) (data : Bytes) :
    alone conn (chunks ++ [data]) = (alone conn chunks).step (.plaintext conn data) := by
  rw [alone, List.map_append, List.map_cons, List.map_nil, Runs.exec_concat]
  rfl

/-- The plaintext of a connection, the dispatches for it, and the unread bytes after a
step that hands the session more of it. -/
theorem step_plaintext (h : History) (data : Bytes) :
    (h.step (.plaintext conn data)).chunks conn = h.chunks conn ++ [data] ∧
      (h.step (.plaintext conn data)).dispatches conn =
        h.dispatches conn ++ (h.session.process data).dispatches := by
  constructor
  · show entriesOf conn (h.received ++ [data].map (conn, ·)) = _
    rw [entriesOf_append, entriesOf_map]
    rfl
  · show entriesOf conn (h.dispatched ++ _) = _
    rw [entriesOf_append, entriesOf_map]
    rfl

/-- The plaintext of one connection is none of another's. -/
theorem step_plaintext_of_ne {other : ConnectionId} (hne : other ≠ conn) (h : History)
    (data : Bytes) :
    (h.step (.plaintext other data)).chunks conn = h.chunks conn ∧
      (h.step (.plaintext other data)).dispatches conn = h.dispatches conn := by
  constructor
  · show entriesOf conn (h.received ++ [data].map (other, ·)) = _
    rw [entriesOf_append, entriesOf_map_of_ne conn hne, List.append_nil]
    rfl
  · show entriesOf conn (h.dispatched ++ _) = _
    rw [entriesOf_append, entriesOf_map_of_ne conn hne, List.append_nil]
    rfl

/-- **The invariant of isolation.**  Every connection has had dispatched what it would
have had alone.  The parser holds what is unread of the connection that delivered last,
and nothing is unread of any other. -/
structure Isolated (h : History) : Prop where
  dispatches : ∀ conn, h.dispatches conn = (alone conn (h.chunks conn)).dispatches conn
  last : ∀ conn, h.received.getLast?.map Prod.fst = some conn →
    h.session.parser.unread = (alone conn (h.chunks conn)).session.parser.unread
  others : ∀ conn, h.received.getLast?.map Prod.fst ≠ some conn →
    (alone conn (h.chunks conn)).session.parser.unread = []

theorem isolated_start : Isolated {} where
  dispatches _ := rfl
  last _ h := by cases h
  others _ _ := rfl

/-- Fresh plaintext keeps it. -/
theorem Isolated.plaintext {h : History} (hisolated : Isolated h) (conn : ConnectionId)
    (data : Bytes) (hfresh : h.Fresh (.plaintext conn data)) :
    Isolated (h.step (.plaintext conn data)) := by
  -- the shared parser is where the parser of a session of its own would be
  have hunread : h.session.parser.unread =
      (alone conn (h.chunks conn)).session.parser.unread := by
    by_cases hlast : h.received.getLast?.map Prod.fst = some conn
    · exact hisolated.last conn hlast
    · rw [hisolated.others conn hlast]
      exact hfresh.2.resolve_left hlast
  have hsame := process_congr hunread data
  have hgetLast : (h.step (.plaintext conn data)).received.getLast?.map Prod.fst =
      some conn := by
    simp [step]
  refine ⟨fun conn' => ?_, fun conn' hlast => ?_, fun conn' hother => ?_⟩
  · by_cases hconn : conn = conn'
    · subst hconn
      obtain ⟨hchunks, hdispatched⟩ := step_plaintext conn h data
      rw [hchunks, hdispatched, alone_concat, (step_plaintext conn _ data).2,
        hisolated.dispatches conn, hsame.dispatches]
    · obtain ⟨hchunks, hdispatched⟩ := step_plaintext_of_ne conn' hconn h data
      rw [hchunks, hdispatched]
      exact hisolated.dispatches conn'
  · obtain rfl : conn = conn' := Option.some.inj (hgetLast.symm.trans hlast)
    rw [(step_plaintext conn h data).1, alone_concat]
    exact hsame.unread
  · have hconn : conn ≠ conn' := by
      rintro rfl
      exact hother hgetLast
    rw [(step_plaintext_of_ne conn' hconn h data).1]
    by_cases hlast : h.received.getLast?.map Prod.fst = some conn'
    · -- the connection gone over from had nothing unread
      rw [← hisolated.last conn' hlast]
      refine hfresh.2.resolve_left ?_
      rw [hlast]
      exact fun heq => hconn (Option.some.inj heq).symm
    · exact hisolated.others conn' hlast

/-- **One step keeps the isolation** when it meets the condition. -/
theorem Isolated.step {h : History} (hisolated : Isolated h) {e : Event}
    (hfresh : h.Fresh e) : Isolated (h.step e) := by
  cases e with
  | accept conn => exact ⟨hisolated.dispatches, hisolated.last, hisolated.others⟩
  | established conn result learnedPeer =>
      refine ⟨hisolated.dispatches, fun conn' hlast => ?_, hisolated.others⟩
      show (h.session.established conn result learnedPeer).2.parser.unread = _
      rw [parser_established]
      exact hisolated.last conn' hlast
  | plaintext conn data => exact hisolated.plaintext conn data hfresh
  | closed conn => exact ⟨hisolated.dispatches, hisolated.last, hisolated.others⟩

/-- It holds in all states of such a run. -/
theorem isolated_exec {events : List Event} (h : Runs.Admits step Fresh {} events) :
    Isolated (Runs.exec step {} events) := by
  have hstep : ∀ (h : History) (e : Event), Isolated h → h.Fresh e → Isolated (h.step e) :=
    fun _ _ hisolated hfresh => hisolated.step hfresh
  exact Runs.exec_invariant hstep isolated_start h

/-- A connection on its own whose frames can all be decoded: the messages dispatched are
those of the one-shot parse of its bytes. -/
theorem alone_parse (chunks : List Bytes)
    (hdecode : ∀ f ∈ (frameGrammar.parse chunks.flatten).items,
      ∃ m, decodeMessage f = .ok m) :
    ((alone conn chunks).dispatches conn).filterMap Dispatch.message? =
        (frameGrammar.parse chunks.flatten).items.filterMap decoded? ∧
      (alone conn chunks).session.parser.unread = (frameGrammar.parse chunks.flatten).rest := by
  induction chunks using List.reverseRecOn with
  | nil => exact ⟨rfl, rfl⟩
  | append_singleton chunks data ih =>
      have hflatten : (chunks ++ [data]).flatten = chunks.flatten ++ data := by simp
      rw [hflatten, Framing.Grammar.parse_append] at hdecode ⊢
      obtain ⟨hmessages, hrest⟩ := ih fun f hf => hdecode f (List.mem_append_left _ hf)
      have hfed : ((alone conn chunks).session.parser.feed data).unread =
          (frameGrammar.parse chunks.flatten).rest ++ data := by
        rw [← hrest]
        exact frameReader.unread_feed (alone conn chunks).session.parser data
      have hprocess := processLoop_parse
        (((alone conn chunks).session.parser.feed data).unread.length + 1)
        { (alone conn chunks).session with
          parser := (alone conn chunks).session.parser.feed data }
        (Nat.lt_succ_self _)
        (by rw [hfed]; exact fun f hf => hdecode f (List.mem_append_right _ hf))
      rw [← process_eq, hfed] at hprocess
      rw [alone_concat, (step_plaintext conn _ data).2, List.filterMap_append,
        List.filterMap_append, hmessages, hprocess.1]
      exact ⟨rfl, hprocess.2⟩

/-- The frames a fresh parser returns when it is fed a string and asked until it has
nothing more. -/
def framesOf (s : Bytes) : List RawFrame :=
  Framing.itemsOf (Framing.runCalls FrameParser.feed FrameParser.next {}
    (.feed s :: List.replicate s.length .next)).1

/-- The frames are those of the grammar. -/
theorem framesOf_eq (s : Bytes) : framesOf s = (frameGrammar.parse s).items := by
  have hfed : frameReader.unread (frameReader.feed {} s) = s := frameReader.unread_feed {} s
  have hitems := frameReader.itemsOf_requests (s := frameReader.feed {} s) (n := s.length)
    (by rw [hfed])
  rw [hfed] at hitems
  exact hitems

/-- A connection since it has been accepted.  The session has done for it what one that has
only ever had this connection has done, and as soon as it has been handed plaintext of it,
their parsers hold the same. -/
structure Tenure (conn : ConnectionId) (earlier h alone : History) : Prop
    extends Mirrors earlier h alone where
  own : alone.session.connection = some conn
  isNew : conn ∉ earlier.received.map Prod.fst
  ofOwn : ∀ chunk ∈ alone.received, chunk.1 = conn
  unread : alone.received ≠ [] → h.session.parser.unread = alone.session.parser.unread
  waiting : alone.received = [] → alone.session.parser.unread = []

/-- A tenure begins with `accept`. -/
theorem tenure_accept {h : History} {conn : ConnectionId} (hfresh : h.Fresh (.accept conn)) :
    Tenure conn h (h.step (.accept conn)) (step {} (.accept conn)) where
  received := (List.append_nil _).symm
  dispatched := (List.append_nil _).symm
  effects := (List.append_nil _).symm
  status := rfl
  connection := rfl
  transport := rfl
  own := rfl
  isNew := hfresh
  ofOwn _ hchunk := absurd hchunk List.not_mem_nil
  unread hsome := absurd rfl hsome
  waiting _ := rfl

/-- The two sessions differ in their parsers at most. -/
theorem Tenure.alike {conn : ConnectionId} {earlier h alone : History}
    (ht : Tenure conn earlier h alone) : h.session.Alike alone.session :=
  ⟨ht.status, ht.connection, ht.transport⟩

/-- Plaintext of the connection finds in the shared parser what it would find in one of its
own. -/
theorem Tenure.sameUnread {conn : ConnectionId} {earlier h alone : History}
    (ht : Tenure conn earlier h alone)
    (hparser : h.received.getLast?.map Prod.fst = some conn ∨ h.session.parser.unread = []) :
    h.session.parser.unread = alone.session.parser.unread := by
  by_cases hnone : alone.received = []
  · rw [ht.waiting hnone]
    refine hparser.resolve_left fun hlast => ht.isNew ?_
    -- what came last came before the connection
    rw [ht.received, hnone, List.append_nil] at hlast
    obtain ⟨chunk, hchunk, rfl⟩ := Option.map_eq_some_iff.mp hlast
    exact List.mem_map_of_mem (List.mem_of_getLast? hchunk)
  · exact ht.unread hnone

/-- **One step of the connection's own**, on the shared session and on the other. -/
theorem Tenure.step {conn : ConnectionId} {earlier h alone : History}
    (ht : Tenure conn earlier h alone) {e : Event} (hfresh : h.Fresh e) (hkeeps : ¬ e.IsAccept) :
    e.connection = conn ∧ Tenure conn earlier (h.step e) (alone.step e) := by
  have hown : h.session.connection = some conn := ht.connection.trans ht.own
  cases e with
  | accept other => exact absurd trivial hkeeps
  | closed other =>
      obtain rfl : conn = other := Option.some.inj (hown.symm.trans hfresh)
      exact ⟨rfl, { ht with status := rfl }⟩
  | established other result learnedPeer =>
      obtain rfl : conn = other := Option.some.inj (hown.symm.trans hfresh)
      obtain ⟨heffects, halike⟩ := ht.alike.established conn result learnedPeer
      have hparser := parser_established h.session conn result learnedPeer
      have hparser' := parser_established alone.session conn result learnedPeer
      refine ⟨rfl, { ht with
        effects := ?_
        status := halike.status
        connection := halike.connection
        transport := halike.transport
        own := halike.connection.symm.trans ?_
        unread := fun hsome => ?_
        waiting := fun hnone => ?_ }⟩
      · show h.effects ++ _ = _
        rw [ht.effects, List.append_assoc, heffects]
        rfl
      · show (h.session.established conn result learnedPeer).2.connection = _
        rw [connection_established]
        exact hown
      · exact (congrArg _ hparser).trans ((ht.unread hsome).trans (congrArg _ hparser').symm)
      · exact (congrArg _ hparser').trans (ht.waiting hnone)
  | plaintext other data =>
      obtain ⟨hcurrent, hparser⟩ := hfresh
      obtain rfl : conn = other := Option.some.inj (hown.symm.trans hcurrent)
      have hsame := process_congr (ht.sameUnread hparser) data
      have halike := hsame.session ht.alike
      refine ⟨rfl, {
        received := ?_
        dispatched := ?_
        effects := ?_
        status := halike.status
        connection := halike.connection
        transport := halike.transport
        own := ?_
        isNew := ht.isNew
        ofOwn := fun chunk hchunk => ?_
        unread := fun _ => hsame.unread
        waiting := fun hnone => ?_ }⟩
      · show h.received ++ _ = _
        rw [ht.received, List.append_assoc]
        rfl
      · show h.dispatched ++ _ = _
        rw [ht.dispatched, List.append_assoc, hsame.dispatches]
        rfl
      · show h.effects ++ _ = _
        rw [ht.effects, List.append_assoc, hsame.effects ht.alike]
        rfl
      · exact (connection_process alone.session data).trans ht.own
      · rcases List.mem_append.mp hchunk with hchunk | hchunk
        · exact ht.ofOwn chunk hchunk
        · rw [List.mem_singleton.mp hchunk]
      · exact absurd hnone (List.append_ne_nil_of_right_ne_nil _ (List.cons_ne_nil _ _))

/-- **A tenure lasts** until the next `accept`, and all events are its connection's. -/
theorem Tenure.exec {conn : ConnectionId} {earlier h alone : History}
    (ht : Tenure conn earlier h alone) {during : List Event}
    (hfresh : Runs.Admits History.step Fresh h during) (hkeeps : ∀ e ∈ during, ¬ e.IsAccept) :
    (∀ e ∈ during, e.connection = conn) ∧
      Tenure conn earlier (Runs.exec History.step h during)
        (Runs.exec History.step alone during) := by
  induction during generalizing h alone with
  | nil => exact ⟨fun e he => absurd he List.not_mem_nil, ht⟩
  | cons e during ih =>
      obtain ⟨hfirst, hlater⟩ := List.forall_mem_cons.mp hkeeps
      obtain ⟨hconn, hnext⟩ := ht.step hfresh.1 hfirst
      obtain ⟨hconns, hend⟩ := ih hnext hfresh.2 hlater
      exact ⟨List.forall_mem_cons.mpr ⟨hconn, hconns⟩, hend⟩

/-- **Isolation of reconnects.**  Through any events that meet the condition, what is
dispatched for a connection is what a session of its own would have dispatched; where the
frames of the connection's bytes can all be decoded, the messages are those of the frames a
fresh parser finds in these bytes; and from when a connection is accepted until another is,
all that happens is the connection's own, and the session does and shows what a session does
and shows that has only ever had this connection. -/
theorem connections_isolated {events : List Event}
    (h : Runs.Admits step Fresh {} events) (conn : ConnectionId) :
    let H := Runs.exec step {} events
    let bytes := (H.chunks conn).flatten
    H.dispatches conn = (alone conn (H.chunks conn)).dispatches conn ∧
      ((∀ f ∈ framesOf bytes, ∃ m, decodeMessage f = .ok m) →
        (H.dispatches conn).filterMap Dispatch.message? =
          (framesOf bytes).filterMap decoded?) ∧
      ∀ before during, events = before ++ .accept conn :: during →
        (∀ e ∈ during, ¬ e.IsAccept) →
        (∀ e ∈ during, e.connection = conn) ∧
          Mirrors (Runs.exec step {} before) H (Runs.exec step {} (.accept conn :: during)) := by
  intro H bytes
  have halone := (isolated_exec h).dispatches conn
  refine ⟨halone, ?_, ?_⟩
  · intro hdecode
    rw [framesOf_eq] at hdecode ⊢
    rw [halone]
    exact (alone_parse conn (H.chunks conn) hdecode).1
  · rintro before during rfl hkeeps
    obtain ⟨haccept, hduring⟩ := h.back
    obtain ⟨hconns, htenure⟩ := (tenure_accept haccept).exec hduring hkeeps
    refine ⟨hconns, ?_⟩
    show Mirrors _ (Runs.exec step {} (before ++ .accept conn :: during)) _
    rw [Runs.exec_append]
    exact htenure.toMirrors

/-- A first connection that ends behind a whole PING, and a second whose WELCOME arrives
in two pieces. -/
theorem connections_isolated_welcome :
    let ping := (encode (.ping ⟨7⟩)).getD []
    let welcome := (encode (.welcome { width := 2360, height := 1640, fps := 60 })).getD []
    let before : List Event :=
      [.accept 1, .established 1 .ok none, .plaintext 1 ping, .closed 1]
    let during : List Event := [.established 2 .ok none, .plaintext 2 (welcome.take 9),
      .plaintext 2 (welcome.drop 9)]
    let H := Runs.exec step {} (before ++ .accept 2 :: during)
    H.dispatches 2 = (alone 2 (H.chunks 2)).dispatches 2 ∧
      Mirrors (Runs.exec step {} before) H (Runs.exec step {} (.accept 2 :: during)) := by
  intro ping welcome before during H
  have hfresh : Runs.Admits step Fresh {} (before ++ .accept 2 :: during) := by decide +kernel
  have hkeeps : ∀ e ∈ during, ¬ e.IsAccept := by decide +kernel
  obtain ⟨hdispatches, -, htenure⟩ := connections_isolated hfresh 2
  exact ⟨hdispatches, (htenure before during rfl hkeeps).2⟩

/-- **Without the condition a connection spoils the next one.**  The cable is pulled
after the length field of a PING.  The second connection delivers a whole WELCOME, which
the parser reads as the rest of the PING, and the session tears the connection down
with a protocol error. -/
theorem torn_frame_not_isolated :
    let welcome : Message := .welcome { width := 2360, height := 1640, fps := 60 }
    let events : List Event :=
      [.accept 1, .established 1 .ok none, .plaintext 1 [0x0B, 0, 0, 0], .closed 1,
        .accept 2, .established 2 .ok none, .plaintext 2 ((encode welcome).getD [])]
    let H := Runs.exec step {} events
    H.dispatches 2 = [.protocolError .unknownChannel] ∧
      (alone 2 (H.chunks 2)).dispatches 2 = [.message welcome] ∧
      H.dispatches 2 ≠ (alone 2 (H.chunks 2)).dispatches 2 := by
  decide +kernel

/-- A PING of the first connection, processed when the second has been accepted: the PONG
goes out on the second. -/
example :
    let ping := (encode (.ping ⟨7⟩)).getD []
    let events : List Event :=
      [.accept 1, .established 1 .ok none, .accept 2, .plaintext 1 ping]
    (Runs.exec step {} events).effects.getLast? = some (.send 2 (.pong ⟨7⟩)) := by
  decide +kernel

end History

end TetherDisplay.Client
