import TetherDisplay.Streaming.Records
import TetherDisplay.Client.VideoSession
import TetherDisplay.Core.Outbound
import TetherDisplay.Core.Inbound

/-!
# The two programs and the cable between them

A `Tether` is a host that streams (`Session`, over an encrypted channel), an iPad that receives
(`SecureTransport` and `VideoSession`), and the two byte streams between them, from the end of
the handshake on.  The host's three threads, the callbacks of the connection and the main queue
of the iPad take their steps in any order; the cable delivers in any pieces, as late as it likes,
and may be pulled at any moment.

What the host has written and the iPad has not been given is `downstream`; what the iPad has
handed to its connection and has not arrived is `upstream`.  A host's `Recv` that finds no
whole record waits for more.  As long as the cable is in, the raw channel takes what it is
given.

The iPad's main queue runs the plaintexts in the order in which the receive loop hands them on.
-/

namespace TetherDisplay.Streaming

open TetherDisplay.Core (Session Received arriving)
open TetherDisplay.Core.Session (Act)
open Client (VideoSession SecureTransport Dispatch Effect)
open Crypto (Sodium SecureByteChannel recordLink)
open LockedSender (written)

/-- The two programs, and the cable between them. -/
structure Tether (S : Sodium) where
  host : Session (recordLink S)
  /-- The receiving half of the host's channel. -/
  channel : SecureByteChannel S
  transport : SecureTransport S
  pad : VideoSession := ({} : VideoSession).accept 0
  /-- How much of what the host has written the iPad has been given. -/
  delivered : ℕ := 0
  /-- How much of what the iPad has sent has arrived at the host. -/
  arrived : ℕ
  /-- The cable is in, and neither side has closed the connection. -/
  connected : Bool := true
  /-- The completion of `establish` has run, and has called `receiveLoop`. -/
  listening : Bool := false
  /-- The loop has called `onClosed`. -/
  closed : Bool := false
  /-- What the loop has handed on and the main queue has not run. -/
  queue : List Bytes := []
  dispatched : List Dispatch := []
  decoded : List Bytes := []
  /-- The messages that the iPad has sent. -/
  sent : List Client.Message := []

namespace Tether

variable {S : Sodium}

/-- A session begins over what a handshake has left. -/
def start (channel : SecureByteChannel S) (transport : SecureTransport S)
    (push : S.secretstream.Push) (config : Encode.EncoderConfig) : Tether S :=
  { host := Session.start (L := recordLink S) push config
    channel, transport, arrived := transport.sent.length }

/-- What the host has sent and the cable has not delivered. -/
def downstream (s : Tether S) : Bytes := (written s.host.sender.output).drop s.delivered

/-- What the pad has sent and the cable has not delivered. -/
def upstream (s : Tether S) : Bytes := s.transport.sent.drop s.arrived

/-! ## The steps -/

/-- What the iPad's session asks of the objects around it. -/
def perform (s : Tether S) : Effect → Tether S
  | .decode bitstream => { s with decoded := s.decoded ++ [bitstream] }
  | .send _ msg =>
      match Client.encode msg with
      | none => s
      | some bytes => { s with transport := s.transport.send bytes, sent := s.sent ++ [msg] }
  | .cancel _ => { s with connected := false }
  | .savePinnedPeer _ => s

/-- What the receive loop has come to. -/
def looped (s : Tether S) (r : SecureTransport.Looped S) : Tether S :=
  { s with
    transport := r.transport
    queue := s.queue ++ r.plaintexts
    closed := r.closed
    pad := if r.closed then s.pad.closed else s.pad }

/-- What happens next. -/
inductive Step where
  /-- A thread of the host goes on. -/
  | host (a : Act)
  /-- The host's `Recv` returns what has arrived. -/
  | receive
  /-- The host's `Recv` returns that the connection is gone. -/
  | dropped
  /-- The cable takes bytes to the host. -/
  | arrive (n : ℕ)
  /-- The completion of `establish` runs on the iPad. -/
  | paired (learnedPeer : Option Bytes)
  /-- The cable takes bytes to the iPad, for a callback of `receive`. -/
  | deliver (n : ℕ)
  /-- A callback of `receive` is told that the connection is gone. -/
  | lost
  /-- The main queue of the iPad runs the next plaintext. -/
  | process
  /-- The cable is pulled. -/
  | cut
  deriving DecidableEq, Repr

/-- A step of the host other than the return of `Recv`.  A raw channel refuses nothing while
the cable is in. -/
def stepHost (s : Tether S) : Act → Tether S
  | .recv _ => s
  | .send t .refuse =>
      if s.connected then s else { s with host := s.host.step (.send t .refuse) }
  | a => { s with host := s.host.step a }

/-- `Recv` has room for 64 KiB, and waits while there is no whole record. -/
def stepReceive (s : Tether S) : Tether S :=
  if s.host.control = .receiving then
    let r := s.channel.recv (64 * 1024)
    if r.1.count ≤ 0 then s
    else { s with host := s.host.step (.recv r.1), channel := r.2 }
  else s

/-- The host finds the cable gone. -/
def stepDropped (s : Tether S) : Tether S :=
  if s.connected then s else { s with host := s.host.step (.recv .closed) }

/-- Some of the pad's bytes arrive. -/
def stepArrive (s : Tether S) (n : ℕ) : Tether S :=
  let bytes := s.upstream.take n
  if s.connected then
    { s with channel := s.channel.arrive bytes, arrived := s.arrived + bytes.length }
  else s

/-- Pairing is over, and the pad begins to receive. -/
def stepPaired (s : Tether S) (learnedPeer : Option Bytes) : Tether S :=
  if s.listening then s
  else
    let r := s.pad.established 0 .ok learnedPeer
    let s := r.1.foldl perform { s with pad := r.2, listening := true }
    s.looped (SecureTransport.receiveLoop (s.transport.buffer.length + 1) s.transport)

/-- `receive` has room for 256 KiB.  What comes with the last record of the handshake stays in
the buffer until the loop is called. -/
def stepDeliver (s : Tether S) (n : ℕ) : Tether S :=
  let bytes := s.downstream.take (min n (1 <<< 18))
  if !s.connected || s.closed then s
  else if bytes = [] then s
  else
    let s := { s with delivered := s.delivered + bytes.length }
    if s.listening then s.looped (s.transport.onReceive ⟨bytes, false⟩)
    else { s with transport := { s.transport with buffer := s.transport.buffer ++ bytes } }

/-- The pad finds the cable gone. -/
def stepLost (s : Tether S) : Tether S :=
  if s.connected || !s.listening || s.closed then s
  else s.looped (s.transport.onReceive ⟨[], true⟩)

/-- The pad's session takes the next plaintext. -/
def stepProcess (s : Tether S) : Tether S :=
  match s.queue with
  | [] => s
  | data :: queue =>
      let p := s.pad.process data
      p.effects.foldl perform
        { s with pad := p.session, queue, dispatched := s.dispatched ++ p.dispatches }

/-- One step. -/
def step (s : Tether S) : Step → Tether S
  | .host a => s.stepHost a
  | .receive => s.stepReceive
  | .dropped => s.stepDropped
  | .arrive n => s.stepArrive n
  | .paired learnedPeer => s.stepPaired learnedPeer
  | .deliver n => s.stepDeliver n
  | .lost => s.stepLost
  | .process => s.stepProcess
  | .cut => { s with connected := false }

/-! ## What a step can do -/

/-- The steps that are not idle. -/
inductive Move (s : Tether S) : Step → Tether S → Prop where
  | host (a : Act) (hcable : s.connected = true → a.Succeeds) (hrecv : ∀ r, a ≠ .recv r) :
      Move s (.host a) { s with host := s.host.step a }
  | receive (r : Received) (channel : SecureByteChannel S) (hcontrol : s.host.control = .receiving)
      (hrecv : s.channel.recv (64 * 1024) = (r, channel)) (hcount : 0 < r.count) :
      Move s .receive { s with host := s.host.step (.recv r), channel }
  | dropped (hcable : s.connected = false) :
      Move s .dropped { s with host := s.host.step (.recv .closed) }
  | arrive (n : ℕ) (bytes later : Bytes) (hcable : s.connected = true)
      (hbytes : s.upstream = bytes ++ later) :
      Move s (.arrive n)
        { s with channel := s.channel.arrive bytes, arrived := s.arrived + bytes.length }
  | paired (learnedPeer : Option Bytes) (hlistening : s.listening = false) :
      Move s (.paired learnedPeer) (s.stepPaired learnedPeer)
  | buffered (n : ℕ) (bytes later : Bytes) (hcable : s.connected = true)
      (hlistening : s.listening = false) (hbytes : s.downstream = bytes ++ later) :
      Move s (.deliver n)
        { s with
          delivered := s.delivered + bytes.length
          transport := { s.transport with buffer := s.transport.buffer ++ bytes } }
  | deliver (n : ℕ) (bytes later : Bytes) (hcable : s.connected = true)
      (hlistening : s.listening = true) (hbytes : s.downstream = bytes ++ later) :
      Move s (.deliver n)
        (Tether.looped { s with delivered := s.delivered + bytes.length }
          (s.transport.onReceive ⟨bytes, false⟩))
  | lost (hcable : s.connected = false) (hlistening : s.listening = true)
      (hopen : s.closed = false) :
      Move s .lost (s.looped (s.transport.onReceive ⟨[], true⟩))
  | process (data : Bytes) (queue : List Bytes) (hqueue : s.queue = data :: queue) :
      Move s .process s.stepProcess
  | cut : Move s .cut { s with connected := false }

/-- What the host can do. -/
theorem stepHost_cases (s : Tether S) (a : Act) :
    s.stepHost a = s ∨ Move s (.host a) (s.stepHost a) := by
  have hmove (hsucceeds : s.connected = true → a.Succeeds) (hrecv : ∀ r, a ≠ .recv r)
      (heq : s.stepHost a = { s with host := s.host.step a }) :
      s.stepHost a = s ∨ Move s (.host a) (s.stepHost a) := by
    rw [heq]
    exact Or.inr (.host a hsucceeds hrecv)
  cases a with
  | recv r => exact Or.inl rfl
  | send t act =>
      cases act with
      | refuse =>
          simp only [stepHost]
          split
          · exact Or.inl rfl
          · rename_i hcable
            exact Or.inr (.host _ (fun h => absurd h hcable) fun r h => by cases h)
      | _ => exact hmove (fun _ => trivial) (fun r h => by cases h) rfl
  | _ => exact hmove (fun _ => trivial) (fun r h => by cases h) rfl

/-- What the cable can do on the way down. -/
theorem stepDeliver_cases (s : Tether S) (n : ℕ) :
    s.stepDeliver n = s ∨ Move s (.deliver n) (s.stepDeliver n) := by
  have hbytes : s.downstream = s.downstream.take (min n (1 <<< 18)) ++
      s.downstream.drop (min n (1 <<< 18)) := (List.take_append_drop _ _).symm
  unfold stepDeliver
  split
  · exact Or.inl rfl
  · rename_i hopen
    have hcable : s.connected = true := by
      by_contra hcut
      simp [hcut] at hopen
    dsimp only
    split
    · exact Or.inl rfl
    · split
      · rename_i hlistening
        exact Or.inr (.deliver n _ _ hcable hlistening hbytes)
      · rename_i hlistening
        exact Or.inr (.buffered n _ _ hcable (Bool.eq_false_of_not_eq_true hlistening) hbytes)

/-- **What a step does**: nothing, or one thing on one side. -/
theorem step_cases (s : Tether S) (act : Step) : s.step act = s ∨ Move s act (s.step act) := by
  cases act with
  | host a => exact s.stepHost_cases a
  | receive =>
      simp only [step, stepReceive]
      split
      · split
        · exact Or.inl rfl
        · rename_i hcontrol hcount
          exact Or.inr (.receive _ _ hcontrol rfl (Int.not_le.mp hcount))
      · exact Or.inl rfl
  | dropped =>
      simp only [step, stepDropped]
      split
      · exact Or.inl rfl
      · exact Or.inr (.dropped (Bool.eq_false_of_not_eq_true ‹_›))
  | arrive n =>
      simp only [step, stepArrive]
      split
      · exact Or.inr (.arrive n _ (s.upstream.drop n) ‹_› (List.take_append_drop _ _).symm)
      · exact Or.inl rfl
  | paired learnedPeer =>
      by_cases hlistening : s.listening = true
      · exact Or.inl (if_pos hlistening)
      · exact Or.inr (.paired learnedPeer (Bool.eq_false_of_not_eq_true hlistening))
  | deliver n => exact s.stepDeliver_cases n
  | lost =>
      simp only [step, stepLost]
      split
      · exact Or.inl rfl
      · rename_i hopen
        simp only [Bool.or_eq_true, Bool.not_eq_true', not_or, Bool.not_eq_true,
          Bool.not_eq_false] at hopen
        exact Or.inr (.lost hopen.1.1 hopen.1.2 hopen.2)
  | process =>
      cases hqueue : s.queue with
      | nil =>
          refine Or.inl ?_
          simp only [step, stepProcess, hqueue]
      | cons data queue => exact Or.inr (.process data queue hqueue)
  | cut => exact Or.inr .cut

end Tether

end TetherDisplay.Streaming
