import TetherDisplay.Client.VideoSession
import TetherDisplay.Protocol.ParserMemory

/-!
# After a framing error

A bad length or an unknown channel leaves the parser with no way to find the next frame.  `process`
reports the error and cancels the connection, and leaves the parser as it is: the bytes that it can
make nothing of stay at the front of its buffer.  The parser is the session's, made once, and
`accept` makes no other.

So a framing error is the last thing that a session makes of what it receives.  A later connection
is accepted, pairs and is told so, and the first plaintext from it is answered with the error of
the earlier one, and its connection cancelled; what it has sent is kept behind what was there
(`framing_error_permanent`).  A session that has dispatched nothing but messages holds less than a
frame (`held_of_messages`).
-/

namespace TetherDisplay.Client

open VideoSession

namespace VideoSession

/-- The parser has come upon a fault. -/
def Broken (s : VideoSession) (e : WireError) : Prop :=
  frameGrammar.scan s.parser.unread = .fail e

/-- How the loop leaves the parser, told from what it has dispatched. -/
theorem processLoop_ends (fuel : ℕ) {s : VideoSession} (hfuel : s.parser.unread.length < fuel) :
    let p := processLoop fuel s
    (∀ e, .protocolError e ∈ p.dispatches → p.session.Broken e) ∧
      ((∀ d ∈ p.dispatches, d.message?.isSome) →
        frameGrammar.scan p.session.parser.unread = .more) := by
  induction fuel generalizing s with
  | zero => exact absurd hfuel (Nat.not_lt_zero _)
  | succ fuel ih =>
      unfold processLoop
      cases hscan : frameGrammar.scan s.parser.unread with
      | more =>
          obtain ⟨hanswer, hkept⟩ := frameReader.next_more (s := s.parser) hscan
          have hnext : s.parser.next = (.ok none, s.parser.next.2) := Prod.ext hanswer rfl
          rw [hnext]
          refine ⟨fun e he => absurd he List.not_mem_nil, fun _ => ?_⟩
          rw [show s.parser.next.2.unread = s.parser.unread from hkept]
          exact hscan
      | fail e =>
          obtain ⟨hanswer, hkept⟩ := frameReader.next_fail (s := s.parser) hscan
          have hnext : s.parser.next = (.error e, s.parser.next.2) := Prod.ext hanswer rfl
          rw [hnext]
          refine ⟨fun e' he' => ?_, fun hall => ?_⟩
          · cases List.mem_singleton.mp he'
            show frameGrammar.scan s.parser.next.2.unread = _
            rw [show s.parser.next.2.unread = s.parser.unread from hkept]
            exact hscan
          · exact absurd (hall _ (List.mem_singleton_self _)) Bool.false_ne_true
      | item f k =>
          obtain ⟨hanswer, hdropped⟩ := frameReader.next_item (s := s.parser) hscan
          have hnext : s.parser.next = (.ok (some f), s.parser.next.2) := Prod.ext hanswer rfl
          have hpos := frameGrammar.used_pos hscan
          have hle := frameGrammar.used_le hscan
          rw [hnext]
          dsimp only
          cases hdecode : decodeMessage f with
          | error e =>
              refine ⟨fun e' he' => ?_, fun hall => ?_⟩
              · cases List.mem_singleton.mp he'
              · exact absurd (hall _ (List.mem_singleton_self _)) Bool.false_ne_true
          | ok m =>
              have hparser : (handle { s with parser := s.parser.next.2 } m).2.parser.unread =
                  s.parser.unread.drop k := by
                rw [parser_handle]
                exact hdropped
              obtain ⟨hbroken, hmore⟩ := ih (s := (handle { s with parser := s.parser.next.2 } m).2)
                (by rw [hparser, List.length_drop]; omega)
              refine ⟨fun e he => ?_, fun hall => ?_⟩
              · exact hbroken e ((List.mem_cons.mp he).resolve_left (by rintro ⟨⟩))
              · exact hmore fun d hd => hall d (List.mem_cons_of_mem _ hd)

/-- What is fed is behind what has not been read. -/
theorem unread_feed (s : VideoSession) (data : Bytes) :
    (s.parser.feed data).unread = s.parser.unread ++ data := frameReader.unread_feed s.parser data

/-- A broken session makes the same of whatever comes. -/
theorem Broken.process {s : VideoSession} {e : WireError} (h : s.Broken e) (data : Bytes) :
    ∃ parser, s.process data =
        ⟨[.protocolError e], s.cancel, { s with parser, status := .protocolError e }⟩ ∧
      parser.unread = s.parser.unread ++ data := by
  have hscan : frameGrammar.scan (s.parser.feed data).unread = .fail e := by
    rw [unread_feed]
    exact frameGrammar.fail_append h data
  obtain ⟨hanswer, hkept⟩ := frameReader.next_fail (s := s.parser.feed data) hscan
  have hnext : (s.parser.feed data).next = (.error e, (s.parser.feed data).next.2) :=
    Prod.ext hanswer rfl
  refine ⟨(s.parser.feed data).next.2, ?_, ?_⟩
  · rw [process_eq, processLoop, hnext]
    rfl
  · exact hkept.trans (s.unread_feed data)

end VideoSession

namespace History

/-- The plaintext that comes, and from where. -/
def plaintexts (events : List Event) : List (ConnectionId × Bytes) :=
  events.filterMap fun
    | .plaintext conn data => some (conn, data)
    | _ => none

theorem decode_send (s : VideoSession) (msg : Message) (bitstream : Bytes) :
    .decode bitstream ∉ s.send msg := by
  unfold send
  split <;> simp

/-- Only `process` decodes. -/
theorem decode_established (s : VideoSession) (conn : ConnectionId) (result : PairingResult)
    (learnedPeer : Option Bytes) (bitstream : Bytes) :
    .decode bitstream ∉ (s.established conn result learnedPeer).1 := by
  unfold established
  split
  · simp
  · simp [decode_send]

theorem decode_cancel (s : VideoSession) (bitstream : Bytes) : .decode bitstream ∉ s.cancel := by
  unfold cancel
  split <;> simp

/-- **One event of a broken session.** -/
theorem step_broken {h : History} {e : WireError} (hbroken : h.session.Broken e) (event : Event) :
    (h.step event).session.Broken e ∧
      (h.step event).dispatched =
        h.dispatched ++ (plaintexts [event]).map (fun p => (p.1, .protocolError e)) ∧
      (h.step event).session.parser.unread =
        h.session.parser.unread ++ (plaintexts [event]).flatMap Prod.snd ∧
      ∃ effects, (h.step event).effects = h.effects ++ effects ∧
        ∀ bitstream, .decode bitstream ∉ effects := by
  cases event with
  | plaintext conn data =>
      obtain ⟨parser, hprocess, hunread⟩ := hbroken.process data
      refine ⟨?_, ?_, ?_, h.session.cancel, ?_, decode_cancel h.session⟩
      · show (h.session.process data).session.Broken e
        rw [hprocess, Broken]
        show frameGrammar.scan parser.unread = _
        rw [hunread]
        exact frameGrammar.fail_append hbroken data
      · show h.dispatched ++ (h.session.process data).dispatches.map (conn, ·) = _
        rw [hprocess]
        rfl
      · show (h.session.process data).session.parser.unread = _
        rw [hprocess]
        show parser.unread = h.session.parser.unread ++ (data ++ [])
        rw [hunread, List.append_nil]
      · show h.effects ++ (h.session.process data).effects = _
        rw [hprocess]
  | established conn result learnedPeer =>
      have hparser := parser_established h.session conn result learnedPeer
      refine ⟨?_, (List.append_nil _).symm, ?_, _, rfl,
        decode_established h.session conn result learnedPeer⟩
      · show (h.session.established conn result learnedPeer).2.Broken e
        rw [Broken, hparser]
        exact hbroken
      · show (h.session.established conn result learnedPeer).2.parser.unread = _
        rw [hparser]
        exact (List.append_nil _).symm
  | accept conn | closed conn =>
      exact ⟨hbroken, (List.append_nil _).symm, (List.append_nil _).symm, [],
        (List.append_nil _).symm, fun _ => List.not_mem_nil⟩

/-- **A broken parser stays so**: every plaintext after it is the same error, on whatever
connection. -/
theorem exec_broken {h : History} {e : WireError} (hbroken : h.session.Broken e)
    (events : List Event) :
    (Runs.exec step h events).session.Broken e ∧
      (Runs.exec step h events).dispatched =
        h.dispatched ++ (plaintexts events).map (fun p => (p.1, .protocolError e)) ∧
      (Runs.exec step h events).session.parser.unread =
        h.session.parser.unread ++ (plaintexts events).flatMap Prod.snd ∧
      ∃ effects, (Runs.exec step h events).effects = h.effects ++ effects ∧
        ∀ bitstream, .decode bitstream ∉ effects := by
  induction events generalizing h with
  | nil =>
      exact ⟨hbroken, (List.append_nil _).symm, (List.append_nil _).symm, [],
        (List.append_nil _).symm, fun _ => List.not_mem_nil⟩
  | cons event events ih =>
      obtain ⟨hnext, hdispatched, hunread, effects, heffects, hnone⟩ := step_broken hbroken event
      obtain ⟨hbroken', hdispatched', hunread', effects', heffects', hnone'⟩ := ih hnext
      have hsplit : plaintexts (event :: events) = plaintexts [event] ++ plaintexts events := by
        unfold plaintexts
        rw [← List.filterMap_append]
        rfl
      rw [Runs.exec_cons]
      refine ⟨hbroken', ?_, ?_, effects ++ effects', ?_, fun bitstream hmem => ?_⟩
      · rw [hdispatched', hdispatched, hsplit, List.map_append, List.append_assoc]
      · rw [hunread', hunread, hsplit, List.flatMap_append, List.append_assoc]
      · rw [heffects', heffects, List.append_assoc]
      · rcases List.mem_append.mp hmem with hmem | hmem
        · exact hnone bitstream hmem
        · exact hnone' bitstream hmem

/-- What has been dispatched tells what the parser is left with. -/
structure Traced (h : History) : Prop where
  broken : ∀ conn e, (conn, .protocolError e) ∈ h.dispatched → h.session.Broken e
  waiting : (∀ d ∈ h.dispatched, d.2.message?.isSome) →
    frameGrammar.scan h.session.parser.unread = .more

theorem traced_start : Traced {} where
  broken conn e he := by cases he
  waiting _ := rfl

/-- Nothing is dispatched, and the parser is not touched. -/
theorem Traced.aside {h h' : History} (htraced : h.Traced)
    (hdispatched : h'.dispatched = h.dispatched)
    (hparser : h'.session.parser = h.session.parser) : h'.Traced where
  broken conn e he := by
    rw [Broken, hparser]
    exact htraced.broken conn e (hdispatched ▸ he)
  waiting hall := by
    rw [hparser]
    exact htraced.waiting (hdispatched ▸ hall)

/-- Each event keeps it. -/
theorem Traced.step {h : History} (htraced : h.Traced) (event : Event) : (h.step event).Traced := by
  cases event with
  | plaintext conn data =>
      obtain ⟨hbroken, hmore⟩ := processLoop_ends ((h.session.parser.feed data).unread.length + 1)
        (s := { h.session with parser := h.session.parser.feed data }) (Nat.lt_succ_self _)
      refine ⟨fun conn' e he => ?_, fun hall => ?_⟩
      · rcases List.mem_append.mp he with he | he
        · exact (step_broken (htraced.broken conn' e he) _).1
        · obtain ⟨d, hd, heq⟩ := List.mem_map.mp he
          cases heq
          exact hbroken e hd
      · exact hmore fun d hd =>
          hall (conn, d) (List.mem_append_right _ (List.mem_map_of_mem hd))
  | established conn result learnedPeer =>
      exact htraced.aside rfl (parser_established h.session conn result learnedPeer)
  | accept conn | closed conn => exact htraced.aside rfl rfl

/-- **It holds in all states of a run.** -/
theorem traced_exec (events : List Event) : Traced (Runs.exec step {} events) :=
  Runs.exec_preserves (fun _ event htraced => htraced.step event) traced_start events

/-- A session that has only ever dispatched messages holds less than one frame of the largest
size. -/
theorem held_of_messages (events : List Event)
    (hall : ∀ d ∈ (Runs.exec step {} events).dispatched, d.2.message?.isSome) :
    (Runs.exec step {} events).session.parser.unread.length ≤ Protocol.kMaxPayload + 6 :=
  Protocol.length_of_scanFrame_more (scanFrame_eq_more ((traced_exec events).waiting hall))

/-- **A framing error is permanent.**  Once a session has reported one, on whatever connection, it
reports the same for every plaintext that it is handed later, on this connection and on all that
are accepted after it; it decodes nothing any more; and the parser keeps whatever it is handed. -/
theorem framing_error_permanent {events : List Event} {conn : ConnectionId} {e : WireError}
    (herror : (conn, .protocolError e) ∈ (Runs.exec step {} events).dispatched)
    (later : List Event) :
    let h := Runs.exec step {} events
    let h' := Runs.exec step h later
    h'.dispatched = h.dispatched ++ (plaintexts later).map (fun p => (p.1, .protocolError e)) ∧
      h'.session.parser.unread =
        h.session.parser.unread ++ (plaintexts later).flatMap Prod.snd ∧
      ∃ effects, h'.effects = h.effects ++ effects ∧
        ∀ bitstream, .decode bitstream ∉ effects :=
  (exec_broken ((traced_exec events).broken conn e herror) later).2

/-- One byte of a frame is lost on the first connection; the second delivers a video frame. -/
theorem framing_error_permanent_video :
    let ping := (encode (.ping ⟨7⟩)).getD []
    let video := (encode (.videoFrame { bitstream := [0, 0, 1, 0x26, 1] })).getD []
    let events : List Event :=
      [.accept 1, .established 1 .ok none, .plaintext 1 (ping ++ ping.drop 1)]
    let h := Runs.exec step {} (events ++
      [.closed 1, .accept 2, .established 2 .ok none, .plaintext 2 video])
    h.dispatched = [(1, .message (.ping ⟨7⟩)), (1, .protocolError .badField),
      (2, .protocolError .badField)] := by
  intro ping video events h
  have herror : (1, Dispatch.protocolError .badField) ∈ (Runs.exec step {} events).dispatched := by
    decide +kernel
  have hlater := (framing_error_permanent herror
    [.closed 1, .accept 2, .established 2 .ok none, .plaintext 2 video]).1
  have hfirst : (Runs.exec step {} events).dispatched =
      [(1, .message (.ping ⟨7⟩)), (1, .protocolError .badField)] := by decide +kernel
  show (Runs.exec step {} (events ++ _)).dispatched = _
  rw [Runs.exec_append, hlater, hfirst]
  rfl

end History

end TetherDisplay.Client
